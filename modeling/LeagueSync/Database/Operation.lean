import LeagueSync.Database.Tables

/-!
# LeagueSync.Database.Operation

The durable store as its users see it: the queries, each of which may fail at present. An operation
that fails changes nothing.

* `Database.perform_of_fails`: an operation that fails at present leaves the tables as they are.
-/

namespace LeagueSync

inductive DatabaseOperation where
  | upsertEntry
  | upsertEntries
  | findEntry
  | findEntries
  | listIds
  | upsertGameweeks
  | findCurrent
  | recordRun
  | recentRuns
  deriving DecidableEq, Repr

def DatabaseOperation.name : DatabaseOperation → String
  | upsertEntry => "upsert_entry"
  | upsertEntries => "upsert_entries"
  | findEntry => "find_entry"
  | findEntries => "find_entries"
  | listIds => "list_entry_ids"
  | upsertGameweeks => "upsert_events"
  | findCurrent => "find_current_event"
  | recordRun => "record_sync_run"
  | recentRuns => "recent_sync_runs"

def DatabaseOperation.writes : DatabaseOperation → Bool
  | upsertEntry => true
  | upsertEntries => true
  | upsertGameweeks => true
  | recordRun => true
  | _ => false

/-- The durable store, and how operations fail at present. -/
structure Database where
  tables : Tables := {}
  fails : DatabaseOperation → Option DatabaseError := fun _ => none

namespace Database

def readOnly (tables : Tables) : Database where
  tables := tables
  fails op := if op.writes then some (.storage .readOnly) else none

/-- Does an operation unless it fails at present. -/
def perform {α : Type} (d : Database) (op : DatabaseOperation)
    (f : Tables → Except StorageFault α × Tables) : Except DatabaseError α × Database :=
  match d.fails op with
  | some e => (.error e, d)
  | none =>
    let (result, tables) := f d.tables
    (stored result, { d with tables })

def ask {α : Type} (d : Database) (op : DatabaseOperation) (f : Tables → Except StorageFault α) :
    Except DatabaseError α :=
  match d.fails op with
  | some e => .error e
  | none => stored (f d.tables)

def upsertEntry (d : Database) (e : Entry) : Except DatabaseError Entry × Database :=
  d.perform .upsertEntry fun t => (.ok e, t.upsertEntry e)

/-- Writes entries, all or none, and gives them back. -/
def upsertEntries (d : Database) (es : List Entry) : Except DatabaseError (List Entry) × Database :=
  d.perform .upsertEntries fun t => (.ok es, t.upsertEntries es)

def findEntry (d : Database) (id : EntryId) : Except DatabaseError (Option Entry) :=
  d.ask .findEntry (·.findEntry id)

def findEntries (d : Database) (ids : List EntryId) : Except DatabaseError (List Entry) :=
  d.ask .findEntries (·.findEntries ids)

def listIds (d : Database) : Except DatabaseError (List EntryId) :=
  d.ask .listIds fun t => .ok t.entryIds

/-- Writes gameweeks of a season, all or none. -/
def upsertGameweeks (d : Database) (season : String) (gs : List Gameweek) :
    Except DatabaseError Unit × Database :=
  d.perform .upsertGameweeks fun t => (.ok (), t.upsertGameweeks season gs)

def findCurrent (d : Database) (season : String) : Except DatabaseError (Option Gameweek) :=
  d.ask .findCurrent (·.findCurrent season)

def recordRun (d : Database) (r : Run) : Except DatabaseError Int64 × Database :=
  d.perform .recordRun (·.recordRun r)

def recentRuns (d : Database) (limit : Nat) : Except DatabaseError (List Run) :=
  d.ask .recentRuns (·.recentRuns limit)

theorem perform_of_fails {α : Type} (d : Database) (op : DatabaseOperation) (e : DatabaseError)
    (f : Tables → Except StorageFault α × Tables) (h : d.fails op = some e) :
    d.perform op f = (.error e, d) := by
  simp [perform, h]

end Database
end LeagueSync
