import LeagueSync.Batch.Drain
import LeagueSync.Cache.Memory
import LeagueSync.Entry.Service
import LeagueSync.Gameweek.Lookup

/-!
# LeagueSync.Program.App

The services of the program as a configuration sets them up: one client, one durable store and one
cache for all of them. As a syncer the entry service works on the world, and as a source of
gameweeks the gameweek look-up does; both start at the time they are told.
-/

namespace LeagueSync

/-- All that the services of the program work on. -/
abbrev Premises := World Memory

structure App where
  config : Config
  env : Surroundings
  entries : EntryService
  gameweeks : GameweekLookup

namespace App

def ofConfig (env : Surroundings) (c : Config) : Except HttpError App :=
  (Client.ofConfig c.api c.http).map fun client => {
    config := c
    env
    entries := ⟨client, env, EntryService.storeOf env (some (c.cache.ttlSecs.toNat * 1000)),
      c.cache.keyPrefix⟩
    gameweeks := {
      client, env
      store := GameweekLookup.storeOf env (some (c.cache.eventTtlSecs.toNat * 1000))
      scope := c.cache.keyPrefix } }

/-- What the services find at the start, with this durable store. -/
def premises (a : App) (database : Database) : Premises where
  link := .start a.config.http.rateLimit 0
  database := database
  cache := {}

/-- Does something at a time; how long does it take? -/
def clocked {α : Type} (f : Premises → α × Premises) (now : Nat) (w : Premises) :
    (Nat × α) × Premises :=
  let (a, w) := f { w with link := { w.link with now } }
  ((w.link.now - now, a), w)

def syncer (a : App) : Syncer Premises where
  sync now unit w :=
    let ((duration, result), after) := clocked (a.entries.sync unit.1 unit.2) now w
    let returned := after.cache.breakdowns = w.cache.breakdowns
    (⟨duration, if returned then .returned (result.map fun _ => ()) else .brokeDown⟩, after)
  directory w := EntryService.allIds w.database

def currentGameweek (a : App) (w : Premises) : Option GameweekId × Premises :=
  match a.gameweeks.currentId w with
  | (.ok id, w) => (id, w)
  | (.error _, w) => (none, w)

def record (run : Run) (w : Premises) : Except DatabaseError Int64 × Premises :=
  let (result, database) := w.database.recordRun run
  (result, { w with database })

def runner (a : App) (workflowName : Nat → String) : Runner Premises :=
  .ofConfig a.config.sync a.syncer (some record) a.env.timeOfDay workflowName

/-- Runs one job, with the current gameweek, and what follows from it. -/
def syncOnce (a : App) (workflowName : Nat → String) (ids : List EntryId) (source : Trigger)
    (w : Premises) : List Outcome × Premises :=
  let (gameweek, w) := a.currentGameweek w
  let now := w.link.now
  let ids := if ids = [] then none else some ids
  let job := { Job.first ids source (a.env.timeOfDay now) with gameweek }
  let (outcomes, bench) := (a.runner workflowName).drain job { now, work := w, queue := {} }
  (outcomes, bench.work)

end App
end LeagueSync
