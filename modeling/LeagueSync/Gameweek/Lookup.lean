import LeagueSync.Gameweek.Season
import LeagueSync.World

/-!
# LeagueSync.Gameweek.Lookup

The current gameweek of a season: from the cache, else from the durable store, else from the remote
interface, whose list of gameweeks is then stored. Failures of the first two only mean that the
next is asked.
-/

namespace LeagueSync

structure GameweekLookup where
  client : Client
  env : Surroundings
  store : Store Gameweek
  scope : String
  /-- A season to look in whatever the day. -/
  pinned : Option String := none

namespace GameweekLookup

variable {σ : Type} [Backend σ]

def storeOf (env : Surroundings) (ttl : Option Nat) : Store Gameweek where
  space := "event"
  ttl := ttl
  timeOfDay := env.timeOfDay
  encode := Gameweek.toJson
  decode := Gameweek.decode

def season (s : GameweekLookup) (now : Nat) : String :=
  s.pinned.getD (seasonOf (s.env.timeOfDay now).date)

def key (s : GameweekLookup) (season : String) : CacheKey :=
  .ofPartition (s.scope ++ ":event:current") season

def cache (s : GameweekLookup) (season : String) (g : Gameweek) (w : World σ) : World σ :=
  w.putGameweekShelf (s.store.writeThrough (s.key season) g w.gameweekShelf)

/-- Asks the remote interface, and stores what it says. -/
def fetch (s : GameweekLookup) (season : String) (w : World σ) :
    Except SyncError (Option Gameweek) × World σ :=
  let call : Call := { path := "/bootstrap-static/", limit := .long }
  match s.client.fetch s.env SeasonPayload.decode call w.link with
  | (.error e, link) => (.error (.http e), { w with link })
  | (.ok payload, link) =>
    let database := (w.database.upsertGameweeks season payload.gameweeks).2
    let w := { w with link, database }
    match payload.current? with
    | some g => (.ok (some g), s.cache season g w)
    | none => (.ok none, w)

def current (s : GameweekLookup) (w : World σ) : Except SyncError (Option Gameweek) × World σ :=
  let season := s.season w.link.now
  match s.store.get (s.key season) w.gameweekShelf with
  | (some g, h) => (.ok (some g), w.putGameweekShelf h)
  | (none, h) =>
    let w := w.putGameweekShelf h
    match w.database.findCurrent season with
    | .ok (some g) => (.ok (some g), s.cache season g w)
    | _ => s.fetch season w

def drop (s : GameweekLookup) (season : String) (w : World σ) : World σ :=
  w.putGameweekShelf (w.gameweekShelf.invalidate (s.key season)).2

def invalidate (s : GameweekLookup) (w : World σ) : World σ :=
  s.drop (s.season w.link.now) w

def refresh (s : GameweekLookup) (w : World σ) : Except SyncError (Option Gameweek) × World σ :=
  let season := s.season w.link.now
  s.fetch season (s.drop season w)

def currentId (s : GameweekLookup) (w : World σ) : Except SyncError (Option GameweekId) × World σ :=
  let (result, w) := s.current w
  (result.map (·.map (·.id)), w)

end GameweekLookup
end LeagueSync
