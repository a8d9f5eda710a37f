import LeagueSync.Database.Error
import LeagueSync.Json.Writer
import LeagueSync.Records.Gameweek
import LeagueSync.Records.Run

/-!
# LeagueSync.Database.Row

Rows as they are stored. Times are texts, truth values and counters are signed words of 64 bits,
a list is its JSON text; a row may have been written by somebody else, so reading one may fail.
-/

namespace LeagueSync

def readTime (column : Nat) (text : String) : Except StorageFault Timestamp :=
  match Timestamp.readStored? text.toList with
  | some t => .ok t
  | none => .error (.time column text)

structure EntryRow where
  entry : Entry
  updatedAt : String
  deriving DecidableEq

namespace EntryRow

def ofEntry (e : Entry) : EntryRow :=
  ⟨e, e.updatedAt.offsetText⟩

/-- The entry of a row. The time is the one in the text. -/
def toEntry (r : EntryRow) : Except StorageFault Entry := do
  let updatedAt ← readTime 10 r.updatedAt
  .ok { r.entry with updatedAt }

end EntryRow

structure GameweekRow where
  name : String
  deadline : Option String
  isCurrent : Int64
  isNext : Int64
  finished : Int64
  deriving DecidableEq

def flagWord (b : Bool) : Int64 :=
  if b then 1 else 0

namespace GameweekRow

def ofGameweek (g : Gameweek) : GameweekRow where
  name := g.name
  deadline := g.deadline.map Timestamp.offsetText
  isCurrent := flagWord g.isCurrent
  isNext := flagWord g.isNext
  finished := flagWord g.finished

/-- The gameweek of a row. A deadline that cannot be read is none. -/
def toGameweek (id : Int64) (r : GameweekRow) : Except StorageFault Gameweek :=
  if id = id.toInt32.toInt64 then
    .ok {
      id := id.toInt32
      name := r.name
      deadline := r.deadline.bind fun text => Timestamp.readStored? text.toList
      isCurrent := r.isCurrent != 0
      isNext := r.isNext != 0
      finished := r.finished != 0 }
  else .error (.range 0 id.toInt)

end GameweekRow

/-- A stored run. Its number is its key. -/
structure RunRow where
  workflow : String
  source : String
  retryCount : Int64
  total : Int64
  succeeded : Int64
  failed : Int64
  failedIds : String
  startedAt : String
  finishedAt : String
  deriving DecidableEq

namespace RunRow

/-- A count as the word that is stored; large counts become negative words. -/
def countWord (n : Nat) : Int64 :=
  Int64.ofNat n

def wordCount (w : Int64) : Nat :=
  w.toUInt64.toNat

def ofRun (r : Run) : RunRow where
  workflow := r.workflow
  source := r.source.name
  retryCount := countWord r.retryCount
  total := countWord r.total
  succeeded := countWord r.succeeded
  failed := countWord r.failed
  failedIds := Json.compact (.arr (r.failedIds.map .ofInt64))
  startedAt := r.startedAt.offsetText
  finishedAt := r.finishedAt.offsetText

def readTrigger (text : String) : Except StorageFault Trigger :=
  match Trigger.parse? text with
  | some t => .ok t
  | none => .error (.trigger 2 text)

def readRetryCount (w : Int64) : Except StorageFault Nat :=
  if 0 ≤ w.toInt ∧ w.toInt < UInt32.size then .ok w.toInt.toNat else .error (.range 3 w.toInt)

def readIds (text : String) : Except StorageFault (List EntryId) :=
  match (Json.Tree.read? text).bind (Json.Tree.list Json.Tree.int64) with
  | some ids => .ok ids
  | none => .error (.list 7)

/-- The run of a row; of several faults that of the first column. -/
def toRun (number : Int64) (r : RunRow) : Except StorageFault Run := do
  let source ← readTrigger r.source
  let retryCount ← readRetryCount r.retryCount
  let failedIds ← readIds r.failedIds
  let startedAt ← readTime 8 r.startedAt
  let finishedAt ← readTime 9 r.finishedAt
  .ok {
    number := some number, workflow := r.workflow, source, retryCount
    total := wordCount r.total, succeeded := wordCount r.succeeded, failed := wordCount r.failed
    failedIds, startedAt, finishedAt }

end RunRow
end LeagueSync
