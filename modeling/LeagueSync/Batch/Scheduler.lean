import LeagueSync.Batch.Queue
import LeagueSync.Config.Basic
import LeagueSync.Time.Sleep

/-!
# LeagueSync.Batch.Scheduler

The scheduler puts a job over all known entries into a channel, first after a delay and then at
fixed intervals. The grid of its deadlines starts with the first job; a deadline that passes while
the scheduler is held up counts at once when it comes to it, and no later one moves. A shutdown is
noticed while the scheduler waits for a time, and not while it looks up the gameweek or stands in
line. When the queue has answered, the scheduler notes the time of day at which it expects the next
job. Where the clock does not go that far it breaks off before it has noted anything.

* `Scheduler.rank_step`: within a given time only so many steps are due, so `Scheduler.advance`
  ends.
-/

namespace LeagueSync

/-- When jobs are due. Times are milliseconds. -/
structure Schedule where
  interval : Nat
  initialDelay : Nat
  /-- The random delay of each later job. -/
  jitter : Nat → Nat
  timeOfDay : Nat → Timestamp
  interval_pos : 0 < interval

/-- The schedule that a configuration describes, with these random delays in seconds. -/
def Schedule.ofConfig (c : ScheduleConfig) (jitter : Nat → Nat) (timeOfDay : Nat → Timestamp) :
    Schedule where
  interval := max 1 c.intervalSecs.toNat * 1000
  initialDelay := slept (c.initialDelaySecs.toNat * 1000)
  jitter := fun tick => slept (jitter tick * 1000)
  timeOfDay := timeOfDay
  interval_pos := by omega

/-- The last second since 1970 that the clock shows. -/
def lastClockSecond : Int := Int64.maxValue.toInt

/-- When the job after one that is put in now is expected, if the time of day goes that far. -/
def Schedule.nextRun? (s : Schedule) (now : Nat) : Option Nat :=
  if (s.timeOfDay now).epochSecond + (s.interval / 1000 : Nat) ≤ lastClockSecond then
    some (now + s.interval)
  else none

/-- Looks up the gameweek for a job at a time, working on a `τ`: how long this takes, and what is
found. -/
abbrev GameweekSource (τ : Type) := Nat → τ → (Nat × Option GameweekId) × τ

/-- What a scheduler does. A job that is under way knows the deadline of the one after it, unless
it is the first. -/
inductive SchedulerPhase where
  /-- Is about to make the first job. -/
  | starting
  | delaying (endsAt : Nat)
  | lookingUp (endsAt : Nat) (job : Job) (next : Option Nat)
  /-- Stands in line at this place. -/
  | inLine (place : Nat) (next : Option Nat)
  | waiting (deadline : Nat)
  | jittering (endsAt next : Nat)
  | finished

structure SchedulerStatus where
  jobsEnqueued : Nat := 0
  lastEnqueued : Option Nat := none
  nextRun : Option Nat := none
  lastError : Option SyncError := none

structure Scheduler (τ : Type) where
  now : Nat := 0
  work : τ
  channel : Channel Job
  phase : SchedulerPhase
  /-- How many deadlines have come. -/
  ticks : Nat := 0
  /-- Whether a shutdown was signalled. -/
  stopping : Bool := false
  status : SchedulerStatus := {}

namespace Scheduler

variable {τ : Type}

def start (s : Schedule) (work : τ) (channel : Channel Job) : Scheduler τ where
  work := work
  channel := channel
  phase := if s.initialDelay = 0 then .starting else .delaying s.initialDelay

def isFinished (d : Scheduler τ) : Bool :=
  match d.phase with
  | .finished => true
  | _ => false

/-- Signals a shutdown, and says whether it will be noticed. -/
def signal (d : Scheduler τ) : Bool × Scheduler τ :=
  if d.isFinished then (false, d) else (true, { d with stopping := true })

/-- When the scheduler goes on, as far as it can tell. -/
def due? (d : Scheduler τ) : Option Nat :=
  let unlessStopping (time : Nat) := if d.stopping then d.now else time
  match d.phase with
  | .starting => some d.now
  | .delaying endsAt => some (unlessStopping endsAt)
  | .lookingUp endsAt _ _ => some endsAt
  | .inLine place _ => if d.channel.hasServed place || !d.channel.isOpen then some d.now else none
  | .waiting deadline => some (unlessStopping deadline)
  | .jittering endsAt _ => some (unlessStopping endsAt)
  | .finished => none

def begin (s : Schedule) (source : Option (GameweekSource τ)) (next : Option Nat)
    (d : Scheduler τ) : Scheduler τ :=
  let job := Job.first none .cron (s.timeOfDay d.now)
  match source with
  | none => { d with phase := .lookingUp d.now job next }
  | some lookUp =>
    let ((duration, gameweek), work) := lookUp d.now d.work
    { d with work, phase := .lookingUp (d.now + duration) { job with gameweek } next }

/-- Goes on after the queue has taken a job. -/
def accept (s : Schedule) (next : Option Nat) (d : Scheduler τ) : Scheduler τ :=
  match s.nextRun? d.now with
  | some nextRun =>
    { d with
      phase := .waiting (next.getD (d.now + s.interval))
      status := {
        jobsEnqueued := d.status.jobsEnqueued + 1
        lastEnqueued := some d.now
        nextRun := some nextRun } }
  | none => { d with phase := .finished }

/-- Stops after the queue has refused a job. -/
def refuse (s : Schedule) (d : Scheduler τ) : Scheduler τ :=
  match s.nextRun? d.now with
  | some nextRun =>
    { d with
      phase := .finished
      status := { d.status with
        nextRun := some nextRun
        lastError := some .queueClosed } }
  | none => { d with phase := .finished }

def step (s : Schedule) (source : Option (GameweekSource τ)) (d : Scheduler τ) : Scheduler τ :=
  match d.phase with
  | .starting => d.begin s source none
  | .delaying _ => if d.stopping then { d with phase := .finished } else d.begin s source none
  | .lookingUp _ job next =>
    match d.channel.offer job with
    | (.ok (), channel) => accept s next { d with channel }
    | (.error .full, _) =>
      let (place, channel) := d.channel.join job
      { d with channel, phase := .inLine place next }
    | (.error .closed, _) => d.refuse s
  | .inLine place next => if d.channel.hasServed place then d.accept s next else d.refuse s
  | .waiting deadline =>
    if d.stopping then { d with phase := .finished }
    else
      { d with
        phase := .jittering (d.now + s.jitter d.ticks) (deadline + s.interval)
        ticks := d.ticks + 1 }
  | .jittering _ next =>
    if d.stopping then { d with phase := .finished } else d.begin s source (some next)
  | .finished => d

/-- A bound for the steps that are due until a time. -/
def rank (limit : Nat) (d : Scheduler τ) : Nat :=
  let left (next : Option Nat) := (next.map (limit + 1 - ·)).getD (limit + 2)
  match d.phase with
  | .starting => 4 * left none + 4
  | .delaying _ => 4 * left none + 4
  | .lookingUp _ _ next => 4 * left next + 3
  | .inLine _ next => 4 * left next + 2
  | .waiting deadline => 4 * left (some deadline) + 1
  | .jittering _ next => 4 * left (some next) + 4
  | .finished => 0

theorem rank_begin (s : Schedule) (source : Option (GameweekSource τ)) (next : Option Nat)
    (d : Scheduler τ) (limit : Nat) :
    (d.begin s source next).rank limit =
      4 * ((next.map (limit + 1 - ·)).getD (limit + 2)) + 3 := by
  unfold begin
  cases source <;> rfl

theorem rank_accept (s : Schedule) (next : Option Nat) (d : Scheduler τ) (limit : Nat) :
    (d.accept s next).rank limit ≤
      4 * ((next.map (limit + 1 - ·)).getD (limit + 2)) + 1 := by
  unfold accept
  split
  · cases next <;> simp only [rank, Option.getD, Option.map] <;> omega
  · exact Nat.zero_le _

theorem rank_refuse (s : Schedule) (d : Scheduler τ) (limit : Nat) :
    (d.refuse s).rank limit = 0 := by
  unfold refuse
  split <;> rfl

theorem rank_step (s : Schedule) (source : Option (GameweekSource τ)) (d : Scheduler τ)
    {time limit : Nat} (h : d.due? = some time) (le : time ≤ limit) :
    ({ d with now := max d.now time }.step s source).rank limit < d.rank limit := by
  unfold step
  cases hp : d.phase with
  | starting => rw [rank_begin]; simp only [rank, hp]; omega
  | delaying endsAt =>
    simp only []
    split
    · simp [rank, hp]
    · rw [rank_begin]; simp only [rank, hp]; omega
  | lookingUp endsAt job next =>
    simp only []
    split
    · next channel _ =>
      have := rank_accept s next { d with now := max d.now time, channel } limit
      simp only [rank, hp] at this ⊢
      omega
    · simp only [rank, hp]; omega
    · rw [rank_refuse]; simp only [rank, hp]; omega
  | inLine place next =>
    simp only []
    split
    · have := rank_accept s next { d with now := max d.now time } limit
      simp only [rank, hp] at this ⊢
      omega
    · rw [rank_refuse]; simp only [rank, hp]; omega
  | waiting deadline =>
    simp only []
    split
    · simp [rank, hp]
    · next hs =>
      simp only [due?, hp, hs, Option.some.injEq] at h
      have := s.interval_pos
      simp only [rank, hp, Option.getD, Option.map]
      simp at h
      omega
  | jittering endsAt next =>
    simp only []
    split
    · simp [rank, hp]
    · rw [rank_begin]; simp only [rank, hp]; omega
  | finished => simp [due?, hp] at h

def advance (s : Schedule) (source : Option (GameweekSource τ)) (limit : Nat)
    (d : Scheduler τ) : Scheduler τ :=
  match _due : d.due? with
  | none => { d with now := max d.now limit }
  | some time =>
    if _le : time ≤ limit then
      ({ d with now := max d.now time }.step s source).advance s source limit
    else { d with now := max d.now limit }
termination_by d.rank limit
decreasing_by exact rank_step s source d _due _le

end Scheduler
end LeagueSync
