import LeagueSync.Batch.Runner
import LeagueSync.Proofs.Desk

/-!
# LeagueSync.Proofs.Workshop

A worker at its channel, with everybody who brings jobs, as a system that takes single steps. The
worker takes a job, syncs it, settles what becomes of it and notes it; in between anybody may do
anything. The follow-ups of the worker go to the channel that it takes its jobs from; so somebody is
always left who might send, and only a shutdown stops it. A log tells what the worker did.

* `Workshop.Effect`: the inversion of a step; all later proofs go by its cases.
* `Workshop.replay?_invariant`: what every step keeps, every run keeps.
* `Workshop.shaped_replay?`: the log consists of whole passes, and the pass that has begun.
-/

namespace LeagueSync

inductive WorkerPhase where
  | idle
  | syncing (t : Ticket)
  | settling (t : Ticket) (outcome : Outcome) (start : Nat)
  | recording (t : Ticket) (outcome : Outcome) (start : Nat)
  | stopped

/-- What a worker did. -/
inductive WorkerNote where
  | took (t : Ticket)
  /-- All entries of the job have had their turn. -/
  | passed (t : Ticket)
  | ended (t : Ticket)
  | stopped
  deriving DecidableEq

namespace WorkerPhase

def inHand : WorkerPhase → List Ticket
  | idle | stopped => []
  | syncing t | settling t _ _ | recording t _ _ => [t]

def unsettled : WorkerPhase → List Ticket
  | idle | recording .. | stopped => []
  | syncing t | settling t _ _ => [t]

/-- What the worker noted since the last job ended. -/
def begun : WorkerPhase → List WorkerNote
  | idle => []
  | syncing t => [.took t]
  | settling t _ _ | recording t _ _ => [.took t, .passed t]
  | stopped => [.stopped]

end WorkerPhase

namespace WorkerNote

def took? : WorkerNote → Option Ticket
  | took t => some t
  | _ => none

def ended? : WorkerNote → Option Ticket
  | ended t => some t
  | _ => none

/-- The notes of a whole job. -/
def pass (t : Ticket) : List WorkerNote :=
  [took t, passed t, ended t]

theorem filterMap_took?_flatMap_pass (ts : List Ticket) :
    (ts.flatMap pass).filterMap took? = ts := by
  induction ts with
  | nil => rfl
  | cons t ts ih =>
    rw [List.flatMap_cons, List.filterMap_append, ih]
    rfl

theorem filterMap_ended?_flatMap_pass (ts : List Ticket) :
    (ts.flatMap pass).filterMap ended? = ts := by
  induction ts with
  | nil => rfl
  | cons t ts ih =>
    rw [List.flatMap_cons, List.filterMap_append, ih]
    rfl

end WorkerNote

structure Workshop (τ : Type) where
  bench : Bench τ Desk
  phase : WorkerPhase := .idle
  /-- Whether a shutdown was signalled. -/
  stopping : Bool := false
  log : List WorkerNote := []

/-- What may happen in a workshop. -/
inductive WorkshopEvent (τ : Type) where
  | send (job : Job)
  | submit (job : Job)
  | ask (place : Nat)
  | enter (place : Nat)
  | giveUp (place : Nat)
  /-- Time passes, and others change what syncing works on. -/
  | outside (now : Nat) (work : τ)
  | signal
  | take
  | sync
  | settle
  | record
  | stop
  /-- The worker, which has stopped, is gone and the receiver with it. -/
  | close

/-- The job that someone other than the worker brings. -/
def WorkshopEvent.job? {τ : Type} : WorkshopEvent τ → Option Job
  | .send job | .submit job => some job
  | _ => none

/-- The tickets that someone other than the worker draws. -/
def WorkshopEvent.brings {τ : Type} (d : Desk) : WorkshopEvent τ → List Ticket
  | .send job => [d.ticket none job true]
  | .submit job => [d.ticket none job false]
  | _ => []

namespace Workshop

variable {τ : Type}

def start (capacity : Nat) (work : τ) : Workshop τ where
  bench := { work, queue := .ofCapacity capacity }

def desk (w : Workshop τ) : Desk :=
  w.bench.queue

def withDesk (w : Workshop τ) (d : Desk) : Workshop τ :=
  { w with bench := { w.bench with queue := d } }

def taken (w : Workshop τ) : List Ticket :=
  w.log.filterMap WorkerNote.took?

def executed (w : Workshop τ) : List Ticket :=
  w.log.filterMap WorkerNote.ended?

def take (w : Workshop τ) (t : Ticket) (d : Desk) : Workshop τ :=
  { w with
    bench := { w.bench with queue := d, executed := w.bench.executed + 1 }
    phase := .syncing t
    log := w.log ++ [.took t] }

/-- Syncs the job in hand. Without a list of entries that is all. -/
def sync (r : Runner τ) (w : Workshop τ) (t : Ticket) : Workshop τ :=
  match r.targets? t.job w.bench.work with
  | some ids =>
    let (results, now, work) := r.syncAll (t.job.units ids) w.bench.now w.bench.work
    { w with
      bench := { w.bench with now, work }
      phase := .settling t (.ofResults results) w.bench.now
      log := w.log ++ [.passed t] }
  | none => { w with phase := .idle, log := w.log ++ [.passed t, .ended t] }

def settle (r : Runner τ) (w : Workshop τ) (t : Ticket) (outcome : Outcome) (start : Nat) :
    Workshop τ :=
  { w with bench := (r.settle t.job outcome w.bench).2, phase := .recording t outcome start }

def record (r : Runner τ) (w : Workshop τ) (t : Ticket) (outcome : Outcome) (start : Nat) :
    Workshop τ :=
  { w with
    bench := r.record t.job outcome start w.bench
    phase := .idle
    log := w.log ++ [.ended t] }

/-- The workshop after an event, if it is possible. -/
def step? (r : Runner τ) (w : Workshop τ) : WorkshopEvent τ → Option (Workshop τ)
  | .send job => some (w.withDesk (w.desk.send job))
  | .submit job => some (w.withDesk (w.desk.submit none job).2)
  | .ask place => (w.desk.ask? place).map w.withDesk
  | .enter place => (w.desk.enter? place).map w.withDesk
  | .giveUp place => (w.desk.giveUp? place).map w.withDesk
  | .outside now work => some { w with bench := { w.bench with now, work } }
  | .signal => some { w with stopping := true }
  | .take =>
    match w.phase with
    | .idle => w.desk.take?.map fun (t, d) => w.take t d
    | _ => none
  | .sync =>
    match w.phase with
    | .syncing t => some (w.sync r t)
    | _ => none
  | .settle =>
    match w.phase with
    | .settling t outcome start => some (w.settle r t outcome start)
    | _ => none
  | .record =>
    match w.phase with
    | .recording t outcome start => some (w.record r t outcome start)
    | _ => none
  | .stop =>
    match w.phase with
    | .idle =>
      if w.stopping then some { w with phase := .stopped, log := w.log ++ [.stopped] } else none
    | _ => none
  | .close =>
    match w.phase with
    | .stopped => some (w.withDesk w.desk.close)
    | _ => none

/-- Lets things happen one after another, if each is possible when its turn comes. -/
def replay? (r : Runner τ) (w : Workshop τ) : List (WorkshopEvent τ) → Option (Workshop τ)
  | [] => some w
  | e :: es => (w.step? r e).bind fun v => v.replay? r es

/-- What a step does to the workshop, as far as tickets are concerned. -/
inductive Effect (r : Runner τ) (w : Workshop τ) : WorkshopEvent τ → Workshop τ → Prop where
  | outside {e : WorkshopEvent τ} {v : Workshop τ} :
      Desk.Change (e.brings w.desk) w.desk v.desk → v.phase = w.phase → v.log = w.log →
      v.bench.executed = w.bench.executed → Effect r w e v
  | take {v : Workshop τ} {t : Ticket} :
      w.phase = .idle → w.desk.take? = some (t, v.desk) → v.phase = .syncing t →
      v.log = w.log ++ [.took t] → v.bench.executed = w.bench.executed + 1 → Effect r w .take v
  | sync {v : Workshop τ} {t : Ticket} {outcome : Outcome} {start : Nat} :
      w.phase = .syncing t → v.desk = w.desk → v.phase = .settling t outcome start →
      v.log = w.log ++ [.passed t] → v.bench.executed = w.bench.executed → Effect r w .sync v
  | syncNothing {v : Workshop τ} {t : Ticket} :
      w.phase = .syncing t → v.desk = w.desk → v.phase = .idle →
      v.log = w.log ++ [.passed t, .ended t] → v.bench.executed = w.bench.executed →
      Effect r w .sync v
  | settle {v : Workshop τ} {t : Ticket} {outcome : Outcome} {start : Nat} :
      w.phase = .settling t outcome start →
      (v.desk = if r.Retries t.job outcome then
          (w.desk.submit w.desk.running
            (t.job.followUp outcome.failedIds (r.timeOfDay w.bench.now))).2
        else w.desk) →
      v.phase = .recording t outcome start → v.log = w.log →
      v.bench.executed = w.bench.executed → Effect r w .settle v
  | record {v : Workshop τ} {t : Ticket} {outcome : Outcome} {start : Nat} :
      w.phase = .recording t outcome start → v.desk = w.desk → v.phase = .idle →
      v.log = w.log ++ [.ended t] → v.bench.executed = w.bench.executed → Effect r w .record v
  | stop {v : Workshop τ} :
      w.phase = .idle → w.stopping = true → v.desk = w.desk → v.phase = .stopped →
      v.log = w.log ++ [.stopped] → v.bench.executed = w.bench.executed → Effect r w .stop v

theorem executed_settle {κ : Type} [Sink κ] (r : Runner τ) (job : Job) (outcome : Outcome)
    (b : Bench τ κ) : (r.settle job outcome b).2.executed = b.executed := by
  unfold Runner.settle
  split
  · rfl
  · split
    · rfl
    · dsimp only
      split <;> rfl

theorem executed_record {κ : Type} (r : Runner τ) (job : Job) (outcome : Outcome) (start : Nat)
    (b : Bench τ κ) : (r.record job outcome start b).executed = b.executed := by
  unfold Runner.record
  split <;> rfl

theorem effect_of_change {r : Runner τ} {w v : Workshop τ} {e : WorkshopEvent τ}
    {d? : Option Desk} (none : e.brings w.desk = [])
    (change : ∀ d, d? = some d → w.desk.Change [] d) (h : d?.map w.withDesk = some v) : Effect r w e v := by
  obtain ⟨d, moved, rfl⟩ := Option.map_eq_some_iff.1 h
  refine .outside ?_ rfl rfl rfl
  rw [none]
  exact change d moved

theorem effect_of_step? {r : Runner τ} {w v : Workshop τ} {e : WorkshopEvent τ}
    (h : w.step? r e = some v) : Effect r w e v := by
  cases e with
  | send job =>
    cases h
    exact .outside (w.desk.change_send job) rfl rfl rfl
  | submit job =>
    cases h
    exact .outside (w.desk.change_submit none job) rfl rfl rfl
  | ask place => exact effect_of_change rfl (fun _ => Desk.change_ask?) h
  | enter place => exact effect_of_change rfl (fun _ => Desk.change_enter?) h
  | giveUp place => exact effect_of_change rfl (fun _ => Desk.change_giveUp?) h
  | outside now work =>
    cases h
    exact .outside w.desk.change_refl rfl rfl rfl
  | signal =>
    cases h
    exact .outside w.desk.change_refl rfl rfl rfl
  | take =>
    simp only [step?] at h
    split at h
    · next phase =>
      obtain ⟨⟨t, d⟩, took, rfl⟩ := Option.map_eq_some_iff.1 h
      exact .take phase took rfl rfl rfl
    · cases h
  | sync =>
    simp only [step?] at h
    split at h
    · next t phase =>
      cases h
      cases targets : r.targets? t.job w.bench.work with
      | none =>
        have same : w.sync r t =
            { w with phase := .idle, log := w.log ++ [.passed t, .ended t] } := by
          simp only [sync, targets]
        rw [same]
        exact .syncNothing phase rfl rfl rfl rfl
      | some ids =>
        simp only [sync, targets]
        exact .sync phase rfl rfl rfl rfl
    · cases h
  | settle =>
    simp only [step?] at h
    split at h
    · next t outcome start phase =>
      cases h
      exact .settle phase (r.queue_settle t.job outcome w.bench) rfl rfl
        (executed_settle r t.job outcome w.bench)
    · cases h
  | record =>
    simp only [step?] at h
    split at h
    · next t outcome start phase =>
      cases h
      exact .record phase (r.queue_record t.job outcome start w.bench) rfl rfl
        (executed_record r t.job outcome start w.bench)
    · cases h
  | stop =>
    simp only [step?] at h
    split at h
    · next phase =>
      split at h
      · next stopping =>
        cases h
        exact .stop phase stopping rfl rfl rfl rfl
      · cases h
    · cases h
  | close =>
    simp only [step?] at h
    split at h
    · cases h
      exact .outside w.desk.change_close rfl rfl rfl
    · cases h

theorem replay?_invariant {r : Runner τ} {I : Workshop τ → Prop}
    (step : ∀ w v e, I w → Effect r w e v → I v) {w v : Workshop τ} {es : List (WorkshopEvent τ)}
    (start : I w) (h : w.replay? r es = some v) : I v := by
  induction es generalizing w with
  | nil =>
    cases h
    exact start
  | cons e es ih =>
    obtain ⟨next, moved, rest⟩ := Option.bind_eq_some_iff.1 h
    exact ih (step w next e start (effect_of_step? moved)) rest

/-- The log is whole passes and what has begun, and every job that was taken is counted. -/
structure Shaped (w : Workshop τ) : Prop where
  log : w.log = w.executed.flatMap WorkerNote.pass ++ w.phase.begun
  counted : w.bench.executed = w.taken.length

theorem shaped_of_log {w v : Workshop τ} (ended : List Ticket)
    (log : v.log = (w.executed ++ ended).flatMap WorkerNote.pass ++ v.phase.begun)
    (counted : v.bench.executed = v.taken.length) : v.Shaped := by
  have none : v.phase.begun.filterMap WorkerNote.ended? = [] := by
    cases v.phase <;> rfl
  have executed : v.executed = w.executed ++ ended := by
    rw [Workshop.executed, log, List.filterMap_append, none, List.append_nil,
      WorkerNote.filterMap_ended?_flatMap_pass]
  exact ⟨executed ▸ log, counted⟩

theorem Shaped.taken {w : Workshop τ} (h : w.Shaped) : w.taken = w.executed ++ w.phase.inHand := by
  rw [Workshop.taken, h.log, List.filterMap_append, WorkerNote.filterMap_took?_flatMap_pass]
  cases w.phase <;> rfl

theorem taken_of_log {w v : Workshop τ} {notes : List WorkerNote} (log : v.log = w.log ++ notes) :
    v.taken = w.taken ++ notes.filterMap WorkerNote.took? := by
  rw [taken, taken, log, List.filterMap_append]

theorem taken_of_log_none {w v : Workshop τ} {notes : List WorkerNote}
    (log : v.log = w.log ++ notes) (none : notes.filterMap WorkerNote.took? = []) :
    v.taken = w.taken := by
  rw [taken_of_log log, none, List.append_nil]

/-- A worker that takes a job notes so, and counts it. -/
theorem taken_of_effect {r : Runner τ} {w v : Workshop τ} {e : WorkshopEvent τ}
    (h : Effect r w e v) :
    ∃ new : List Ticket, v.taken = w.taken ++ new ∧
      v.bench.executed = w.bench.executed + new.length := by
  have quiet (log : v.log = w.log) : v.taken = w.taken ++ [] :=
    taken_of_log (log.trans (List.append_nil _).symm)
  cases h with
  | outside _ _ log counted => exact ⟨[], quiet log, counted⟩
  | take _ _ _ log counted => exact ⟨_, taken_of_log log, counted⟩
  | sync _ _ _ log counted => exact ⟨_, taken_of_log log, counted⟩
  | syncNothing _ _ _ log counted => exact ⟨_, taken_of_log log, counted⟩
  | settle _ _ _ log counted => exact ⟨[], quiet log, counted⟩
  | record _ _ _ log counted => exact ⟨_, taken_of_log log, counted⟩
  | stop _ _ _ _ log counted => exact ⟨_, taken_of_log log, counted⟩

theorem shaped_of_effect {r : Runner τ} {w v : Workshop τ} {e : WorkshopEvent τ}
    (h : w.Shaped) (effect : Effect r w e v) : v.Shaped := by
  have counted : v.bench.executed = v.taken.length := by
    obtain ⟨new, taken, more⟩ := taken_of_effect effect
    rw [taken, more, h.counted, List.length_append]
  have shape := h.log
  cases effect with
  | outside _ phase log =>
    rw [← phase, ← log, ← w.executed.append_nil] at shape
    exact shaped_of_log [] shape counted
  | take idle _ phase log =>
    refine shaped_of_log (w := w) [] ?_ counted
    rw [idle] at shape
    rw [log, shape, phase, List.append_nil, WorkerPhase.begun, List.append_nil]
    rfl
  | @sync _ t outcome _ busy _ phase log =>
    refine shaped_of_log (w := w) [] ?_ counted
    rw [busy] at shape
    rw [log, shape, phase, List.append_nil, List.append_assoc]
    rfl
  | @syncNothing _ t busy _ phase log =>
    refine shaped_of_log (w := w) [t] ?_ counted
    rw [busy] at shape
    rw [log, shape, phase, List.append_assoc, List.flatMap_append, List.append_assoc]
    rfl
  | settle busy _ phase log =>
    refine shaped_of_log (w := w) [] ?_ counted
    rw [busy] at shape
    rw [log, shape, phase, List.append_nil]
    rfl
  | @record _ t _ _ busy _ phase log =>
    refine shaped_of_log (w := w) [t] ?_ counted
    rw [busy] at shape
    rw [log, shape, phase, List.append_assoc, List.flatMap_append, List.append_assoc]
    rfl
  | stop idle _ _ phase log =>
    refine shaped_of_log (w := w) [] ?_ counted
    rw [idle] at shape
    rw [log, shape, phase, List.append_nil, WorkerPhase.begun, List.append_nil]
    rfl

theorem shaped_replay? {r : Runner τ} {w v : Workshop τ} {es : List (WorkshopEvent τ)}
    (start : w.Shaped) (h : w.replay? r es = some v) : v.Shaped :=
  replay?_invariant (I := Shaped) (fun _ _ _ => shaped_of_effect) start h

end Workshop
end LeagueSync
