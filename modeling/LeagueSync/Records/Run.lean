import LeagueSync.Records.Entry
import LeagueSync.Records.Trigger

/-!
# LeagueSync.Records.Run

The history row of one executed job. Its number is assigned when it is stored.
-/

namespace LeagueSync

structure Run where
  number : Option Int64
  workflow : String
  source : Trigger
  retryCount : Nat
  total : Nat
  succeeded : Nat
  failed : Nat
  failedIds : List EntryId
  startedAt : Timestamp
  finishedAt : Timestamp
  deriving DecidableEq

namespace Run

def fields : List String :=
  ["id", "workflow_id", "source", "retry_count", "total", "succeeded", "failed", "failed_ids",
    "started_at", "finished_at"]

def decode (t : Json.Tree) : Option Run := do
  let s ← t.slots fields
  let number ← s.optional "id" (Json.Tree.nullable Json.Tree.int64)
  let workflow ← s.required "workflow_id" Json.Tree.string
  let source ← s.required "source" Trigger.decode
  let retryCount ← s.required "retry_count" (Json.Tree.naturalBelow UInt32.size)
  let total ← s.required "total" (Json.Tree.naturalBelow UInt64.size)
  let succeeded ← s.required "succeeded" (Json.Tree.naturalBelow UInt64.size)
  let failed ← s.required "failed" (Json.Tree.naturalBelow UInt64.size)
  let failedIds ← s.required "failed_ids" (Json.Tree.list Json.Tree.int64)
  let startedAt ← s.required "started_at" Json.Tree.timestamp
  let finishedAt ← s.required "finished_at" Json.Tree.timestamp
  some { number, workflow, source, retryCount, total, succeeded, failed, failedIds, startedAt,
         finishedAt }

def toJson (r : Run) : Json :=
  .obj [("id", .ofOption .ofInt64 r.number), ("workflow_id", .str r.workflow),
    ("source", r.source.toJson), ("retry_count", .ofNat r.retryCount), ("total", .ofNat r.total),
    ("succeeded", .ofNat r.succeeded), ("failed", .ofNat r.failed),
    ("failed_ids", .arr (r.failedIds.map .ofInt64)), ("started_at", .str r.startedAt.text),
    ("finished_at", .str r.finishedAt.text)]

end Run
end LeagueSync
