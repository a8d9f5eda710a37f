import LeagueSync.Records.Entry

/-!
# LeagueSync.Records.Gameweek

Gameweeks: `Gameweek` is the stored record, and `SeasonPayload` is the list of them that the remote
interface sends for a season. The number of the gameweek is the natural key inside a season.
-/

namespace LeagueSync

structure Gameweek where
  id : GameweekId
  name : String
  deadline : Option Timestamp
  isCurrent : Bool
  isNext : Bool
  finished : Bool
  deriving DecidableEq

structure SeasonPayload where
  gameweeks : List Gameweek
  deriving DecidableEq

namespace Gameweek

/-- Reads one gameweek of a season's list. All but number and name may be missing. -/
def decodePayload (t : Json.Tree) : Option Gameweek := do
  let s ← t.slots ["id", "name", "deadline_time", "is_current", "is_next", "finished"]
  let id ← s.required "id" Json.Tree.int32
  let name ← s.required "name" Json.Tree.string
  let deadline ← s.defaulted "deadline_time" (Json.Tree.nullable Json.Tree.timestamp) none
  let isCurrent ← s.defaulted "is_current" Json.Tree.boolean false
  let isNext ← s.defaulted "is_next" Json.Tree.boolean false
  let finished ← s.defaulted "finished" Json.Tree.boolean false
  some { id, name, deadline, isCurrent, isNext, finished }

def fields : List String :=
  ["event_id", "name", "deadline_time", "is_current", "is_next", "finished"]

def decode (t : Json.Tree) : Option Gameweek := do
  let s ← t.slots fields
  let id ← s.required "event_id" Json.Tree.int32
  let name ← s.required "name" Json.Tree.string
  let deadline ← s.optional "deadline_time" (Json.Tree.nullable Json.Tree.timestamp)
  let isCurrent ← s.required "is_current" Json.Tree.boolean
  let isNext ← s.required "is_next" Json.Tree.boolean
  let finished ← s.required "finished" Json.Tree.boolean
  some { id, name, deadline, isCurrent, isNext, finished }

def toJson (g : Gameweek) : Json :=
  .obj [("event_id", .ofInt32 g.id), ("name", .str g.name),
    ("deadline_time", .ofOption (fun t => .str t.text) g.deadline),
    ("is_current", .bool g.isCurrent), ("is_next", .bool g.isNext),
    ("finished", .bool g.finished)]

end Gameweek

namespace SeasonPayload

def decode (t : Json.Tree) : Option SeasonPayload := do
  let s ← t.slots ["events"]
  let gameweeks ← s.defaulted "events" (Json.Tree.list Gameweek.decodePayload) []
  some { gameweeks }

/-- The first gameweek that is marked as current. -/
def current? (p : SeasonPayload) : Option Gameweek :=
  p.gameweeks.find? (·.isCurrent)

end SeasonPayload
end LeagueSync
