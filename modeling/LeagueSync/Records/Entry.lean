import LeagueSync.Json.Decode
import LeagueSync.Json.Writer

/-!
# LeagueSync.Records.Entry

Fantasy entries: `EntryPayload` is what the remote interface sends, `Entry` is the stored record,
and `EntryPayload.toEntry` leads from one to the other. The entry id is the natural key.
-/

namespace LeagueSync

abbrev EntryId := Int64

abbrev GameweekId := Int32

namespace Json

def ofInt64 (n : Int64) : Json := int n.toInt

def ofInt32 (n : Int32) : Json := int n.toInt

end Json

structure Entry where
  id : EntryId
  name : String
  playerName : String
  region : Option String
  startedGameweek : Option GameweekId
  overallPoints : Option Int64
  overallRank : Option Int64
  bank : Option Int64
  teamValue : Option Int64
  /-- The gameweek that the record was fetched for. -/
  gameweek : Option GameweekId
  updatedAt : Timestamp
  deriving DecidableEq

/-- An entry as the remote interface sends it. -/
structure EntryPayload where
  id : EntryId
  name : String
  firstName : String
  lastName : String
  region : Option String
  startedGameweek : Option GameweekId
  overallPoints : Option Int64
  overallRank : Option Int64
  bank : Option Int64
  teamValue : Option Int64
  gameweek : Option GameweekId
  deriving DecidableEq

namespace EntryPayload

/-- The player's names with a blank between them, trimmed. -/
def playerName (p : EntryPayload) : String :=
  Text.trim (p.firstName ++ " " ++ p.lastName)

/-- The record to store. A gameweek that is asked for wins over the one that was sent. -/
def toEntry (p : EntryPayload) (gameweek : Option GameweekId) (now : Timestamp) : Entry where
  id := p.id
  name := p.name
  playerName := p.playerName
  region := p.region
  startedGameweek := p.startedGameweek
  overallPoints := p.overallPoints
  overallRank := p.overallRank
  bank := p.bank
  teamValue := p.teamValue
  gameweek := gameweek.or p.gameweek
  updatedAt := now

def fields : List String :=
  ["id", "name", "player_first_name", "player_last_name", "player_region_name", "started_event",
    "summary_overall_points", "summary_overall_rank", "last_deadline_bank", "last_deadline_value",
    "current_event"]

def decode (t : Json.Tree) : Option EntryPayload := do
  let s ← t.slots fields
  let id ← s.required "id" Json.Tree.int64
  let name ← s.required "name" Json.Tree.string
  let firstName ← s.defaulted "player_first_name" Json.Tree.string ""
  let lastName ← s.defaulted "player_last_name" Json.Tree.string ""
  let region ← s.defaulted "player_region_name" (Json.Tree.nullable Json.Tree.string) none
  let startedGameweek ← s.defaulted "started_event" (Json.Tree.nullable Json.Tree.int32) none
  let overallPoints ←
    s.defaulted "summary_overall_points" (Json.Tree.nullable Json.Tree.int64) none
  let overallRank ← s.defaulted "summary_overall_rank" (Json.Tree.nullable Json.Tree.int64) none
  let bank ← s.defaulted "last_deadline_bank" (Json.Tree.nullable Json.Tree.int64) none
  let teamValue ← s.defaulted "last_deadline_value" (Json.Tree.nullable Json.Tree.int64) none
  let gameweek ← s.defaulted "current_event" (Json.Tree.nullable Json.Tree.int32) none
  some { id, name, firstName, lastName, region, startedGameweek, overallPoints, overallRank, bank,
         teamValue, gameweek }

def toJson (p : EntryPayload) : Json :=
  .obj [("id", .ofInt64 p.id), ("name", .str p.name), ("player_first_name", .str p.firstName),
    ("player_last_name", .str p.lastName), ("player_region_name", .ofOption .str p.region),
    ("started_event", .ofOption .ofInt32 p.startedGameweek),
    ("summary_overall_points", .ofOption .ofInt64 p.overallPoints),
    ("summary_overall_rank", .ofOption .ofInt64 p.overallRank),
    ("last_deadline_bank", .ofOption .ofInt64 p.bank),
    ("last_deadline_value", .ofOption .ofInt64 p.teamValue),
    ("current_event", .ofOption .ofInt32 p.gameweek)]

end EntryPayload

namespace Entry

def fields : List String :=
  ["entry_id", "entry_name", "player_name", "region", "started_event", "overall_points",
    "overall_rank", "bank", "team_value", "event_context", "updated_at"]

def decode (t : Json.Tree) : Option Entry := do
  let s ← t.slots fields
  let id ← s.required "entry_id" Json.Tree.int64
  let name ← s.required "entry_name" Json.Tree.string
  let playerName ← s.required "player_name" Json.Tree.string
  let region ← s.optional "region" (Json.Tree.nullable Json.Tree.string)
  let startedGameweek ← s.optional "started_event" (Json.Tree.nullable Json.Tree.int32)
  let overallPoints ← s.optional "overall_points" (Json.Tree.nullable Json.Tree.int64)
  let overallRank ← s.optional "overall_rank" (Json.Tree.nullable Json.Tree.int64)
  let bank ← s.optional "bank" (Json.Tree.nullable Json.Tree.int64)
  let teamValue ← s.optional "team_value" (Json.Tree.nullable Json.Tree.int64)
  let gameweek ← s.optional "event_context" (Json.Tree.nullable Json.Tree.int32)
  let updatedAt ← s.required "updated_at" Json.Tree.timestamp
  some { id, name, playerName, region, startedGameweek, overallPoints, overallRank, bank,
         teamValue, gameweek, updatedAt }

def toJson (e : Entry) : Json :=
  .obj [("entry_id", .ofInt64 e.id), ("entry_name", .str e.name),
    ("player_name", .str e.playerName), ("region", .ofOption .str e.region),
    ("started_event", .ofOption .ofInt32 e.startedGameweek),
    ("overall_points", .ofOption .ofInt64 e.overallPoints),
    ("overall_rank", .ofOption .ofInt64 e.overallRank), ("bank", .ofOption .ofInt64 e.bank),
    ("team_value", .ofOption .ofInt64 e.teamValue),
    ("event_context", .ofOption .ofInt32 e.gameweek), ("updated_at", .str e.updatedAt.text)]

end Entry
end LeagueSync
