import LeagueSync.Batch.Scheduler
import LeagueSync.Batch.Worker
import LeagueSync.Program.App

/-!
# LeagueSync.Program.Daemon

The program as a service: a scheduler, if there is a schedule, puts jobs into the channel of the
worker, and the worker runs them and their follow-ups. Both work on the same premises; what becomes
due for the scheduler during a job happens after it.
-/

namespace LeagueSync

structure Daemon where
  worker : Worker Premises
  /-- The scheduler, unless there is no schedule. What it works on is the worker's. -/
  scheduler : Option (Scheduler Premises)

namespace Daemon

def schedule (a : App) (jitter : Nat → Nat) : Schedule :=
  .ofConfig a.config.sync.schedule jitter a.env.timeOfDay

/-- The service at the start, with its cache warmed up. -/
def start (a : App) (jitter : Nat → Nat) (w : Premises) : Daemon :=
  let worker := Worker.start a.config.sync.queueCapacity.toNat false (a.entries.warmUp w).2 []
  { worker
    scheduler :=
      if a.config.sync.schedule.enabled then
        some (.start (schedule a jitter) worker.bench.work worker.bench.queue.inbox)
      else none }

def currentScheduler? (d : Daemon) : Option (Scheduler Premises) :=
  d.scheduler.map fun s =>
    { s with work := d.worker.bench.work, channel := d.worker.bench.queue.inbox }

def schedulerUntil (a : App) (jitter : Nat → Nat) (limit : Nat) (s : Scheduler Premises)
    (d : Daemon) : Daemon :=
  let s := s.advance (schedule a jitter) (some (App.clocked a.currentGameweek)) limit
  let bench := d.worker.bench
  { worker := { d.worker with
      bench := { bench with
        now := max bench.now limit
        work := s.work
        queue := { bench.queue with inbox := s.channel } } }
    scheduler := some s }

def wake? (d : Daemon) : Option Nat :=
  d.currentScheduler?.bind Scheduler.due?

/-- Runs the next job, or else passes the time until the scheduler goes on. -/
def step? (a : App) (jitter : Nat → Nat) (workflowName : Nat → String) (d : Daemon) :
    Option Daemon :=
  match d.worker.next? (a.runner workflowName) with
  | some worker => some { d with worker }
  | none => do
    let s ← d.currentScheduler?
    let time ← s.due?
    some (d.schedulerUntil a jitter (max d.worker.bench.now time) s)

/-- Serves until a condition holds between two steps, for at most so many steps. -/
def serve (a : App) (jitter : Nat → Nat) (workflowName : Nat → String) (stop : Premises → Bool) :
    Nat → Daemon → Daemon
  | 0, d => d
  | steps + 1, d =>
    if stop d.worker.bench.work then d
    else
      match d.step? a jitter workflowName with
      | some d => serve a jitter workflowName stop steps d
      | none => d

end Daemon
end LeagueSync
