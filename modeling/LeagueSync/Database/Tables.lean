import LeagueSync.Database.Row
import LeagueSync.Table

/-!
# LeagueSync.Database.Tables

The tables of the durable store and the queries on them. Entries have their id as key, gameweeks
season and id, runs a number that grows with every run. Writing under a key that is there replaces
the row.

* `Tables.entries_upsert`: a written entry is the row under its id.
-/

namespace LeagueSync

structure Tables where
  entries : Table EntryId EntryRow := .empty
  gameweeks : Table (String × Int64) GameweekRow := .empty
  runs : Table Int64 RunRow := .empty
  /-- The largest number that a run ever had, or zero. -/
  lastRun : Int64 := 0

/-- The length of the parts in which a long list of ids is looked up. -/
def chunkSize : Nat := 500

/-- A list in parts of at most `n + 1` members. -/
def chunks {α : Type} (n : Nat) (xs : List α) : List (List α) :=
  match xs with
  | [] => []
  | x :: rest => (x :: rest.take n) :: chunks n (rest.drop n)
termination_by xs.length
decreasing_by simp only [List.length_drop, List.length_cons]; omega

/-- Drops each member that has the key of the one before it. -/
def dropRepeats {α κ : Type} [DecidableEq κ] (key : α → κ) : List α → List α
  | [] => []
  | [a] => [a]
  | a :: b :: rest =>
    if key a = key b then dropRepeats key (a :: rest) else a :: dropRepeats key (b :: rest)
termination_by xs => xs.length

/-- A list sorted by a key, members of one key staying in order. -/
def sortedBy {α : Type} (key : α → Int) (xs : List α) : List α :=
  xs.mergeSort fun a b => decide (key a ≤ key b)

def stored {α : Type} : Except StorageFault α → Except DatabaseError α
  | .ok a => .ok a
  | .error fault => .error (.storage fault)

namespace Tables

def upsertEntry (t : Tables) (e : Entry) : Tables :=
  { t with entries := t.entries.put e.id (.ofEntry e) }

def upsertEntries (t : Tables) (es : List Entry) : Tables :=
  es.foldl upsertEntry t

def findEntry (t : Tables) (id : EntryId) : Except StorageFault (Option Entry) :=
  match t.entries.get? id with
  | some row => row.toEntry.map some
  | none => .ok none

/-- The entries with an id of the list, in the order of their ids. -/
def selectEntries (t : Tables) (ids : List EntryId) : Except StorageFault (List Entry) :=
  (sortedBy (·.1.toInt) (t.entries.rows.filter fun row => ids.contains row.1)).mapM
    fun row => row.2.toEntry

/-- The entries with an id of the list, each once, in the order of their ids. A long list is looked
up in parts. -/
def findEntries (t : Tables) (ids : List EntryId) : Except StorageFault (List Entry) := do
  let parts ← (chunks (chunkSize - 1) ids).mapM t.selectEntries
  .ok (dropRepeats Entry.id (sortedBy (·.id.toInt) parts.flatten))

def entryIds (t : Tables) : List EntryId :=
  sortedBy Int64.toInt t.entries.keys

def upsertGameweek (season : String) (t : Tables) (g : Gameweek) : Tables :=
  { t with gameweeks := t.gameweeks.put (season, g.id.toInt64) (.ofGameweek g) }

def upsertGameweeks (t : Tables) (season : String) (gs : List Gameweek) : Tables :=
  gs.foldl (upsertGameweek season) t

/-- The gameweek of a season that is marked as current; of several, the one with the largest id. -/
def findCurrent (t : Tables) (season : String) : Except StorageFault (Option Gameweek) :=
  let marked := t.gameweeks.rows.filter fun row => row.1.1 == season && row.2.isCurrent == 1
  match (sortedBy (fun row => -row.1.2.toInt) marked).head? with
  | some row => (row.2.toGameweek row.1.2).map some
  | none => .ok none

def recordRun (t : Tables) (r : Run) : Except StorageFault Int64 × Tables :=
  if t.lastRun = Int64.maxValue then (.error .full, t)
  else
    let number := t.lastRun + 1
    (.ok number, { t with runs := t.runs.put number (.ofRun r), lastRun := number })

/-- Writes a row of a run under a number, or under the next one. -/
def putRun (t : Tables) (number : Option Int64) (r : RunRow) : Tables :=
  let number := number.getD (t.lastRun + 1)
  { t with
    runs := t.runs.put number r
    lastRun := if t.lastRun.toInt < number.toInt then number else t.lastRun }

def recentRuns (t : Tables) (limit : Nat) : Except StorageFault (List Run) :=
  ((sortedBy (fun row => -row.1.toInt) t.runs.rows).take limit).mapM fun row => row.2.toRun row.1

theorem entries_upsert (t : Tables) (e : Entry) (id : EntryId) :
    (t.upsertEntry e).entries.get? id = if id = e.id then some (.ofEntry e) else t.entries.get? id :=
  Table.get?_put _ _ _ _

end Tables
end LeagueSync
