import LeagueSync.Batch.Pool
import LeagueSync.Batch.Queue
import LeagueSync.Config.Basic
import LeagueSync.Database.Error
import LeagueSync.Telemetry.Metrics

/-!
# LeagueSync.Batch.Runner

Running jobs. A job names its entries or takes all that are known; they are synced, what failed
becomes a follow-up job as long as the retry generations last, and the run is counted and noted in
the history. Without a list of entries there is nothing to sync, to count or to note.

* `Runner.queue_run`: a job adds to the queue one follow-up over what failed, or nothing.
* `Runner.settle_completed`: a job without failures has no follow-up.
-/

namespace LeagueSync

/-- How jobs are run. -/
structure Runner (τ : Type) where
  syncer : Syncer τ
  /-- Writes a row of the history, if a history is kept. -/
  history : Option (Run → τ → Except DatabaseError Int64 × τ) := none
  /-- The last retry generation. -/
  maxRetryCycles : Nat
  /-- How many syncs may be in flight at once. -/
  concurrency : Nat
  concurrency_pos : 0 < concurrency
  /-- In which order syncs in flight start and end. -/
  dispatch : Dispatch τ := .inOrder
  timeOfDay : Nat → Timestamp
  /-- The name of each run. -/
  workflowName : Nat → String

/-- What jobs are run on. -/
structure Bench (τ κ : Type) where
  now : Nat := 0
  /-- What syncing works on. -/
  work : τ
  /-- Where follow-up jobs go. -/
  queue : κ
  metrics : Metrics := {}
  /-- How many jobs were run. -/
  executed : Nat := 0

namespace Runner

variable {τ κ : Type}

def ofConfig (c : SyncConfig) (syncer : Syncer τ)
    (history : Option (Run → τ → Except DatabaseError Int64 × τ)) (timeOfDay : Nat → Timestamp)
    (workflowName : Nat → String) : Runner τ where
  syncer := syncer
  history := history
  maxRetryCycles := c.maxRetryCycles.toNat
  concurrency := max 1 c.concurrency.toNat
  concurrency_pos := by omega
  timeOfDay := timeOfDay
  workflowName := workflowName

/-- Syncs the entries of a job: one after another, or several at once if that is allowed and there
are several. -/
def syncAll (r : Runner τ) (units : List SyncUnit) (now : Nat) (work : τ) : Results × Nat × τ :=
  if 1 < r.concurrency ∧ 1 < units.length then
    r.syncer.runTogether r.dispatch r.concurrency r.concurrency_pos units now work
  else r.syncer.runInOrder units now work

/-- Settles what becomes of a job with this outcome. -/
def settle [Sink κ] (r : Runner τ) (job : Job) (outcome : Outcome) (b : Bench τ κ) :
    JobState × Bench τ κ :=
  match outcome.partialFailure? with
  | none => (.completed, b)
  | some failure =>
    if r.maxRetryCycles ≤ job.retryCount then (.exhausted, b)
    else
      let next := job.followUp failure.failedIds (r.timeOfDay b.now)
      match Sink.submit next b.queue with
      | (.ok (), queue) =>
        (.retryScheduled, { b with queue, metrics := b.metrics.addRetryJob next.retryCount })
      | (.error _, queue) => (.exhausted, { b with queue })

/-- The row of the history for a job that ended now. -/
def row (r : Runner τ) (job : Job) (outcome : Outcome) (start : Nat) (b : Bench τ κ) : Run where
  number := none
  workflow := r.workflowName b.executed
  source := job.source
  retryCount := job.retryCount
  total := outcome.total
  succeeded := outcome.succeeded
  failed := outcome.failed
  failedIds := outcome.failedIds
  startedAt := r.timeOfDay start
  finishedAt := r.timeOfDay b.now

def record (r : Runner τ) (job : Job) (outcome : Outcome) (start : Nat) (b : Bench τ κ) :
    Bench τ κ :=
  let metrics := b.metrics.addJob job.source.name outcome.succeeded outcome.failed
    (secondsOf ((b.now - start) * 1000000))
  match r.history with
  | none => { b with metrics }
  | some write => { b with metrics, work := (write (r.row job outcome start b) b.work).2 }

/-- Syncs these entries for a job, settles what becomes of it, and notes it. -/
def runOn [Sink κ] (r : Runner τ) (job : Job) (ids : List EntryId) (b : Bench τ κ) :
    Outcome × Bench τ κ :=
  let (results, now, work) := r.syncAll (job.units ids) b.now b.work
  let outcome := Outcome.ofResults results
  let settled := r.settle job outcome { b with now, work }
  (outcome, r.record job outcome b.now settled.2)

/-- The entries that a job is to sync: those it names, or else all that are known. There may be no
list of them. -/
def targets? (r : Runner τ) (job : Job) (work : τ) : Option (List EntryId) :=
  match job.ids with
  | some ids => some ids
  | none => (r.syncer.directory work).toOption

def targets (r : Runner τ) (job : Job) (work : τ) : List EntryId :=
  (r.targets? job work).getD []

def run [Sink κ] (r : Runner τ) (job : Job) (b : Bench τ κ) : Outcome × Bench τ κ :=
  let b := { b with executed := b.executed + 1 }
  match r.targets? job b.work with
  | some ids => r.runOn job ids b
  | none => (.empty, b)

theorem run_of_some [Sink κ] {r : Runner τ} {job : Job} {b : Bench τ κ} {ids : List EntryId}
    (h : r.targets? job b.work = some ids) :
    r.run job b = r.runOn job ids { b with executed := b.executed + 1 } := by
  simp only [run, h]

theorem run_of_none [Sink κ] {r : Runner τ} {job : Job} {b : Bench τ κ}
    (h : r.targets? job b.work = none) :
    r.run job b = (.empty, { b with executed := b.executed + 1 }) := by
  simp only [run, h]

theorem settle_completed [Sink κ] (r : Runner τ) (job : Job) {outcome : Outcome}
    (h : outcome.failedIds = []) (b : Bench τ κ) : r.settle job outcome b = (.completed, b) := by
  simp [settle, Outcome.partialFailure?, h]

theorem queue_record (r : Runner τ) (job : Job) (outcome : Outcome) (start : Nat)
    (b : Bench τ κ) : (r.record job outcome start b).queue = b.queue := by
  unfold record
  split <;> rfl

/-- Whether what failed of a job with this outcome is tried again. -/
def Retries (r : Runner τ) (job : Job) (outcome : Outcome) : Prop :=
  outcome.failedIds ≠ [] ∧ job.retryCount < r.maxRetryCycles

instance (r : Runner τ) (job : Job) (outcome : Outcome) : Decidable (r.Retries job outcome) :=
  inferInstanceAs (Decidable (_ ∧ _))

theorem settle_of_retries [Sink κ] {r : Runner τ} {job : Job} {outcome : Outcome}
    (retries : r.Retries job outcome) (b : Bench τ κ) :
    (r.settle job outcome b).2 =
      let next := job.followUp outcome.failedIds (r.timeOfDay b.now)
      match Sink.submit next b.queue with
      | (.ok (), queue) => { b with queue, metrics := b.metrics.addRetryJob next.retryCount }
      | (.error _, queue) => { b with queue } := by
  simp only [settle, Outcome.partialFailure?, if_neg retries.1, if_neg (Nat.not_le.2 retries.2)]
  split <;> rfl

theorem settle_of_not_retries [Sink κ] {r : Runner τ} {job : Job} {outcome : Outcome}
    (done : ¬ r.Retries job outcome) (b : Bench τ κ) : (r.settle job outcome b).2 = b := by
  by_cases failed : outcome.failedIds = []
  · rw [r.settle_completed job failed b]
  · have last : r.maxRetryCycles ≤ job.retryCount := Nat.not_lt.1 fun left => done ⟨failed, left⟩
    simp only [settle, Outcome.partialFailure?, if_neg failed, if_pos last]

theorem queue_settle [Sink κ] (r : Runner τ) (job : Job) (outcome : Outcome) (b : Bench τ κ) :
    (r.settle job outcome b).2.queue =
      if r.Retries job outcome then
        (Sink.submit (job.followUp outcome.failedIds (r.timeOfDay b.now)) b.queue).2
      else b.queue := by
  split
  · next retries =>
    rw [settle_of_retries retries]
    dsimp only
    split <;> simp_all
  · next done => rw [settle_of_not_retries done]

theorem queue_run [Sink κ] (r : Runner τ) (job : Job) (b : Bench τ κ) :
    ∃ time, (r.run job b).2.queue =
      if r.Retries job (r.run job b).1 then
        (Sink.submit (job.followUp (r.run job b).1.failedIds (r.timeOfDay time)) b.queue).2
      else b.queue := by
  cases resolved : r.targets? job b.work with
  | none =>
    rw [run_of_none resolved]
    exact ⟨0, (if_neg fun retries => retries.1 rfl).symm⟩
  | some ids =>
    rw [run_of_some resolved]
    simp only [runOn, queue_record, queue_settle]
    exact ⟨_, rfl⟩

end Runner
end LeagueSync
