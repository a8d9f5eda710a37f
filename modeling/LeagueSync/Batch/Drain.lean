import LeagueSync.Batch.Runner

/-!
# LeagueSync.Batch.Drain

Running a job and everything that follows from it. Every job has a `Runner.potential`: the number
of generations that may still come of it, itself included. A run uses up one of them, so the queue
runs dry.

* `Runner.potential_run`: running a job uses up one of its generations.
-/

namespace LeagueSync

/-- A job that was run, the entries it was to sync, and its outcome. -/
structure Generation where
  job : Job
  targets : List EntryId
  outcome : Outcome

namespace Runner

variable {τ κ : Type}

/-- How many jobs may come of a job, itself included. -/
def potential (r : Runner τ) (job : Job) : Nat :=
  r.maxRetryCycles - job.retryCount + 1

/-- How many jobs may come of several. -/
def potentials (r : Runner τ) (jobs : List Job) : Nat :=
  jobs.foldr (fun job n => r.potential job + n) 0

theorem potentials_cons (r : Runner τ) (job : Job) (jobs : List Job) :
    r.potentials (job :: jobs) = r.potential job + r.potentials jobs := rfl

theorem potentials_append (r : Runner τ) (xs ys : List Job) :
    r.potentials (xs ++ ys) = r.potentials xs + r.potentials ys := by
  induction xs with
  | nil => simp [potentials]
  | cons job xs ih => simp only [List.cons_append, potentials_cons, ih, Nat.add_assoc]

/-- If a sink keeps what it has and what it takes, running a job uses up one of its generations. -/
theorem potential_run [Sink κ] (r : Runner τ) (view : κ → List Job)
    (keeps : ∀ (job : Job) (q : κ), r.potentials (view (Sink.submit job q).2) ≤
      r.potential job + r.potentials (view q))
    (job : Job) (b : Bench τ κ) :
    r.potentials (view (r.run job b).2.queue) + 1 ≤
      r.potential job + r.potentials (view b.queue) := by
  obtain ⟨time, h⟩ := r.queue_run job b
  rw [h]
  split
  · next retries =>
    have left := retries.2
    have := keeps (job.followUp (r.run job b).1.failedIds (r.timeOfDay time)) b.queue
    simp only [potential, Job.followUp] at this ⊢
    omega
  · simp only [potential]
    omega

theorem potentials_submit_inline (r : Runner τ) (job : Job) (q : InlineQueue) :
    r.potentials (Sink.submit job q).2.jobs ≤ r.potential job + r.potentials q.jobs := by
  simp only [Sink.submit]
  split
  · exact Nat.le_add_left _ _
  · rw [potentials_append, potentials_cons]; simp [potentials]; omega

/-- Runs the jobs of the queue until it is empty, and gives them in order. -/
def drainQueue (r : Runner τ) (b : Bench τ InlineQueue) : List Generation × Bench τ InlineQueue :=
  match _next : b.queue.jobs with
  | [] => ([], b)
  | job :: jobs =>
    let ran := r.run job { b with queue := { b.queue with jobs } }
    let rest := r.drainQueue ran.2
    (⟨job, r.targets job b.work, ran.1⟩ :: rest.1, rest.2)
termination_by r.potentials b.queue.jobs
decreasing_by
  have := r.potential_run InlineQueue.jobs r.potentials_submit_inline job
    { b with queue := { b.queue with jobs } }
  rw [_next, potentials_cons]
  exact this

/-- Runs a job and all jobs of the queue. -/
def generations (r : Runner τ) (job : Job) (b : Bench τ InlineQueue) :
    List Generation × Bench τ InlineQueue :=
  let ran := r.run job b
  let rest := r.drainQueue ran.2
  (⟨job, r.targets job b.work, ran.1⟩ :: rest.1, rest.2)

/-- The outcomes of a job and all jobs of the queue. -/
def drain (r : Runner τ) (job : Job) (b : Bench τ InlineQueue) :
    List Outcome × Bench τ InlineQueue :=
  let (generations, b) := r.generations job b
  (generations.map Generation.outcome, b)

end Runner
end LeagueSync
