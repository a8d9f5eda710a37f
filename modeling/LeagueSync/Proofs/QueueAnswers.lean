import LeagueSync.Batch.Runner

/-!
# LeagueSync.Proofs.QueueAnswers

A run of a job depends on the queue only by its answers, so a queue may stand for another that
answers alike: one that works in another way, or one that takes notes.

* `Runner.Alike`: queues that stand for each other.
* `Runner.run_over`: a job is run on either of them with the same outcome.
-/

namespace LeagueSync

/-- The bench with another queue. -/
def Bench.over {τ κ κ' : Type} (b : Bench τ κ) (queue : κ') : Bench τ κ' where
  now := b.now
  work := b.work
  queue
  metrics := b.metrics
  executed := b.executed

namespace Runner

variable {τ κ κ' : Type} [Sink κ] [Sink κ'] {r : Runner τ}

/-- Queues that stand for each other give the same answers, and go on standing for each other. -/
def Alike (R : κ → κ' → Prop) : Prop :=
  ∀ job q q', R q q' → (Sink.submit job q').1 = (Sink.submit job q).1 ∧
    R (Sink.submit job q).2 (Sink.submit job q').2

variable {R : κ → κ' → Prop}

theorem settle_over (alike : Alike R) (job : Job) (outcome : Outcome) {b : Bench τ κ} {q : κ'}
    (h : R b.queue q) :
    ∃ q', R (r.settle job outcome b).2.queue q' ∧
      (r.settle job outcome (b.over q)).2 = (r.settle job outcome b).2.over q' := by
  by_cases retries : r.Retries job outcome
  · obtain ⟨same, after⟩ := alike (job.followUp outcome.failedIds (r.timeOfDay b.now)) _ _ h
    rw [settle_of_retries retries, settle_of_retries retries]
    simp only [Bench.over]
    generalize job.followUp outcome.failedIds (r.timeOfDay b.now) = next at *
    generalize Sink.submit next b.queue = left at *
    generalize Sink.submit next q = right at *
    obtain ⟨answer, queue⟩ := left
    obtain ⟨answer', queue'⟩ := right
    cases same
    exact ⟨queue', by cases answer <;> exact after, by cases answer <;> rfl⟩
  · rw [settle_of_not_retries retries, settle_of_not_retries retries]
    exact ⟨q, h, rfl⟩

omit [Sink κ] [Sink κ'] in
theorem record_over (job : Job) (outcome : Outcome) (start : Nat) (b : Bench τ κ) (q : κ') :
    r.record job outcome start (b.over q) = (r.record job outcome start b).over q := by
  unfold record
  cases r.history <;> rfl

theorem run_over (alike : Alike R) (job : Job) {b : Bench τ κ} {q : κ'} (h : R b.queue q) :
    ∃ q', R (r.run job b).2.queue q' ∧
      r.run job (b.over q) = ((r.run job b).1, (r.run job b).2.over q') := by
  cases targets : r.targets? job b.work with
  | none =>
    rw [run_of_none targets, run_of_none (b := b.over q) targets]
    exact ⟨q, h, rfl⟩
  | some ids =>
    rw [run_of_some targets, run_of_some (b := b.over q) targets]
    simp only [runOn]
    obtain ⟨q', after, settled⟩ := settle_over (r := r) alike job
      (.ofResults (r.syncAll (job.units ids) b.now b.work).1)
      (b := { b with
        executed := b.executed + 1
        now := (r.syncAll (job.units ids) b.now b.work).2.1
        work := (r.syncAll (job.units ids) b.now b.work).2.2 }) h
    refine ⟨q', ?_, Prod.ext rfl ?_⟩
    · rw [queue_record]
      exact after
    · rw [← record_over]
      exact congrArg (r.record job _ b.now) settled

end Runner
end LeagueSync
