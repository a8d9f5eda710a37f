import LeagueSync.Batch.Drain

/-!
# LeagueSync.Batch.Worker

The worker takes jobs from a channel and runs them one at a time, each to its end. It stops when it
is told to, which it notices between two jobs, or when nobody is left who might send a job.
A `JobSender` puts a list of jobs into the channel and waits in line when there is no room.

* `JobSender.contents_proceed`: a sender neither loses nor reorders its jobs.
* `Worker.potential_next`: with every job that the worker runs, fewer jobs are still to come.
-/

namespace LeagueSync

structure JobSender where
  /-- The place in line of the job that was sent last, if it had to stand in line. -/
  place : Option Nat := none
  /-- The jobs that are still to be sent. -/
  jobs : List Job

namespace JobSender

/-- Sends jobs until one has to stand in line. -/
def sendAll : List Job → Channel Job → JobSender × Channel Job
  | [], c => ({ jobs := [] }, c)
  | job :: jobs, c =>
    let (place, c) := c.join job
    if c.hasServed place then sendAll jobs c else ({ place := some place, jobs }, c)

/-- Goes on sending, unless a job still stands in line. -/
def proceed (s : JobSender) (c : Channel Job) : JobSender × Channel Job :=
  match s.place with
  | some place => if c.hasServed place then sendAll s.jobs c else (s, c)
  | none => sendAll s.jobs c

theorem contents_sendAll (jobs : List Job) (c : Channel Job) :
    (sendAll jobs c).2.contents ++ (sendAll jobs c).1.jobs = c.contents ++ jobs := by
  induction jobs generalizing c with
  | nil => rfl
  | cons job jobs ih =>
    have joined : (c.join job).2.contents ++ jobs = c.contents ++ job :: jobs := by
      rw [Channel.contents_join, List.append_assoc, List.singleton_append]
    simp only [sendAll]
    split
    · rw [ih, joined]
    · exact joined

theorem contents_proceed (s : JobSender) (c : Channel Job) :
    (s.proceed c).2.contents ++ (s.proceed c).1.jobs = c.contents ++ s.jobs := by
  unfold proceed
  split
  · split
    · exact contents_sendAll _ _
    · rfl
  · exact contents_sendAll _ _

end JobSender

/-- The channel that a worker takes jobs from, and the queue for their follow-ups if that is
another one. -/
structure WorkerQueues where
  inbox : Channel Job
  followUps : Option InlineQueue := none

instance : Sink WorkerQueues where
  submit job q :=
    match q.followUps with
    | some queue =>
      let (result, queue) := Sink.submit job queue
      (result, { q with followUps := some queue })
    | none =>
      let (result, inbox) := q.inbox.submit job
      (result, { q with inbox })

structure Worker (τ : Type) where
  bench : Bench τ WorkerQueues
  sender : JobSender

namespace Worker

variable {τ : Type}

def pending (w : Worker τ) : List Job :=
  w.bench.queue.inbox.contents ++ w.sender.jobs

def feed (w : Worker τ) : Worker τ :=
  let (sender, inbox) := w.sender.proceed w.bench.queue.inbox
  ⟨{ w.bench with queue := { w.bench.queue with inbox } }, sender⟩

def next? (r : Runner τ) (w : Worker τ) : Option (Worker τ) :=
  let w := w.feed
  match w.bench.queue.inbox.receive? with
  | none => none
  | some (job, inbox) =>
    let w := feed { w with bench := { w.bench with queue := { w.bench.queue with inbox } } }
    some { w with bench := (r.run job w.bench).2 }

theorem pending_feed (w : Worker τ) : w.feed.pending = w.pending :=
  JobSender.contents_proceed w.sender w.bench.queue.inbox

theorem potentials_submit (r : Runner τ) (job : Job) (q : WorkerQueues) :
    r.potentials (Sink.submit job q).2.inbox.contents ≤
      r.potential job + r.potentials q.inbox.contents := by
  simp only [Sink.submit]
  split
  · exact Nat.le_add_left _ _
  · simp only [Channel.contents_submit]
    split
    · rw [Runner.potentials_append, Runner.potentials_cons]; simp [Runner.potentials]; omega
    · exact Nat.le_add_left _ _

theorem potential_next {r : Runner τ} {w v : Worker τ} (h : w.next? r = some v) :
    r.potentials v.pending < r.potentials w.pending := by
  unfold next? at h
  simp only [] at h
  split at h
  · cases h
  · next job inbox hr =>
    cases h
    have received := Channel.contents_receive hr
    rw [← pending_feed w]
    generalize hu : (feed { w.feed with bench := { w.feed.bench with
      queue := { w.feed.bench.queue with inbox } } }) = u
    have hp : u.pending = inbox.contents ++ w.feed.sender.jobs := by
      rw [← hu, pending_feed]; rfl
    have used := r.potential_run (fun q : WorkerQueues => q.inbox.contents)
      (potentials_submit r) job u.bench
    have split : ∀ x : Worker τ, r.potentials x.pending =
        r.potentials x.bench.queue.inbox.contents + r.potentials x.sender.jobs := fun x =>
      r.potentials_append _ _
    have e₁ := split { u with bench := (r.run job u.bench).2 }
    have e₂ := split u
    have e₃ := split w.feed
    rw [hp, Runner.potentials_append] at e₂
    rw [received, Runner.potentials_cons] at e₃
    simp only at e₁ used
    omega

/-- Runs jobs until the time of the shutdown, or, if there is none, until nobody can send any. -/
def run (r : Runner τ) (shutdown : Option Nat) (w : Worker τ) : Worker τ :=
  if shutdown.any (· ≤ w.bench.now) then w
  else
    match _next : w.next? r with
    | some v => v.run r shutdown
    | none => { w with bench := { w.bench with now := shutdown.getD w.bench.now } }
termination_by r.potentials w.pending
decreasing_by exact potential_next _next

/-- A worker with fresh queues of this capacity, to which jobs will be sent. Follow-ups go to the
same channel, or to a queue of their own. -/
def start (capacity : Nat) (ownQueue : Bool) (work : τ) (jobs : List Job) : Worker τ where
  bench := {
    work
    queue := {
      inbox := .ofCapacity capacity
      followUps := if ownQueue then some {} else none } }
  sender := { jobs }

end Worker
end LeagueSync
