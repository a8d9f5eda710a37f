import LeagueSync.Batch.Scheduler

/-!
# LeagueSync.Proofs.SchedulerRuns

A scheduler among all who use its queue, as a system that takes single steps. Time passes, the
scheduler does what is due or is late with it, others do whatever they like to the queue and to what
look-ups work on, and a shutdown may be signalled at any time. Where a shutdown and a time have both
come, either may be noticed first. A run keeps account of the look-ups that the scheduler began, of
what it added to the contents of the queue, and of the answers that it got.

* `Scheduler.Effect`: the inversion of a step; all later proofs go by its cases.
* `SchedulerRun.replay?_invariant`: what every effect keeps, and what the surroundings can not
  change, every run keeps.
* `SchedulerRun.exists_replay?_advance`: to let time pass up to a limit is such a run.
-/

namespace LeagueSync

variable {τ : Type}

/-- Looks up a gameweek, which takes some time and may fail. -/
abbrev FallibleSource (τ : Type) := Nat → τ → (Nat × Except SyncError (Option GameweekId)) × τ

/-- A look-up that failed has found nothing. -/
def GameweekSource.ofLookUp (lookUp : FallibleSource τ) : GameweekSource τ :=
  fun now work =>
    let ((duration, answer), work) := lookUp now work
    ((duration, answer.toOption.join), work)

theorem Channel.offer_cases {α : Type} (c : Channel α) (a : α) :
    (∃ d, c.offer a = (.ok (), d) ∧ d.contents = c.contents ++ [a]) ∨
      c.offer a = (.error .full, c.serveLine) ∨ c.offer a = (.error .closed, c.serveLine) := by
  unfold offer
  rcases c.serveLine.put?_cases a with ⟨-, d, put, -⟩ | ⟨-, full⟩ | ⟨-, closed⟩
  · exact .inl ⟨d, by rw [put], contents_put?_serveLine put⟩
  · exact .inr (.inl (by rw [full]))
  · exact .inr (.inr (by rw [closed]))

namespace Schedule

/-- The job for which a look-up is made at a time, on something to work on. -/
def jobAt (s : Schedule) (source : Option (GameweekSource τ)) (begun : Nat × τ) : Job :=
  { Job.first none .cron (s.timeOfDay begun.1) with
    gameweek := source.bind fun lookUp => (lookUp begun.1 begun.2).1.2 }

end Schedule

namespace SchedulerPhase

/-- The job that has not been brought to the queue yet. -/
def inHand : SchedulerPhase → List Job
  | .lookingUp _ job _ => [job]
  | _ => []

def inLineCount : SchedulerPhase → Nat
  | .inLine .. => 1
  | _ => 0

end SchedulerPhase

namespace Scheduler

variable {s : Schedule} {source : Option (GameweekSource τ)} {d : Scheduler τ}

/-- The look-up that a step begins: when, and on what. -/
def begins (d : Scheduler τ) : List (Nat × τ) :=
  match d.phase with
  | .starting => [(d.now, d.work)]
  | .delaying _ | .jittering .. => if d.stopping then [] else [(d.now, d.work)]
  | _ => []

/-- What the queue answers in a step. -/
def hears (d : Scheduler τ) : List (Except SyncError Unit) :=
  match d.phase with
  | .lookingUp _ job _ =>
    match (d.channel.offer job).1 with
    | .ok () => [.ok ()]
    | .error .full => []
    | .error .closed => [.error .queueClosed]
  | .inLine place _ => [if d.channel.hasServed place then .ok () else .error .queueClosed]
  | _ => []

/-- What a step adds to the contents of the queue. -/
def puts (s : Schedule) (source : Option (GameweekSource τ)) (d : Scheduler τ) : List Job :=
  (d.step s source).channel.contents.drop d.channel.contents.length

/-- The next job may be begun; its successor has this deadline. -/
inductive Ready (d : Scheduler τ) : Option Nat → Prop where
  | starting : d.phase = .starting → Ready d none
  | delayed {endsAt : Nat} : d.phase = .delaying endsAt → endsAt ≤ d.now → Ready d none
  | jittered {endsAt next : Nat} : d.phase = .jittering endsAt next → Ready d (some next)

/-- A job is brought to the queue, or was and stands in line; its successor has this deadline. -/
inductive Brings (d : Scheduler τ) : List Job → Option Nat → Prop where
  | now {endsAt : Nat} {job : Job} {next : Option Nat} :
      d.phase = .lookingUp endsAt job next → Brings d [job] next
  | before {place : Nat} {next : Option Nat} : d.phase = .inLine place next → Brings d [] next

theorem inHand_of_ready {next : Option Nat} (ready : d.Ready next) :
    d.phase ≠ .finished ∧ d.phase.inHand = [] := by
  cases ready with
  | starting phase | delayed phase | jittered phase =>
    rw [phase]
    exact ⟨nofun, rfl⟩

theorem inHand_of_brings {brought : List Job} {next : Option Nat} (brings : d.Brings brought next) :
    d.phase ≠ .finished ∧ d.phase.inHand = brought := by
  cases brings with
  | now phase | before phase =>
    rw [phase]
    exact ⟨nofun, rfl⟩

/-- What a step does: the look-ups it begins, the jobs it adds to the queue, and the answers. -/
inductive Effect (s : Schedule) (source : Option (GameweekSource τ)) (d d' : Scheduler τ) :
    List (Nat × τ) → List Job → List (Except SyncError Unit) → Prop where
  | begin {endsAt : Nat} {next : Option Nat} :
      d.Ready next → d'.phase = .lookingUp endsAt (s.jobAt source (d.now, d.work)) next →
      d'.status = d.status → Effect s source d d' [(d.now, d.work)] [] []
  | jitter {deadline endsAt : Nat} :
      d.phase = .waiting deadline → deadline ≤ d.now →
      d'.phase = .jittering endsAt (deadline + s.interval) → d'.status = d.status →
      Effect s source d d' [] [] []
  | stop : d'.phase = .finished → d'.status = d.status → Effect s source d d' [] [] []
  | join {endsAt place : Nat} {job : Job} {next : Option Nat} :
      d.phase = .lookingUp endsAt job next → d'.phase = .inLine place next →
      d'.status = d.status → Effect s source d d' [] [job] []
  | accept {put : List Job} {next : Option Nat} :
      d.Brings put next → (s.nextRun? d.now).isSome →
      d'.phase = .waiting (next.getD (d.now + s.interval)) →
      d'.status.jobsEnqueued = d.status.jobsEnqueued + 1 →
      Effect s source d d' [] put [.ok ()]
  | refuse {put : List Job} {next : Option Nat} :
      d.Brings put next → (s.nextRun? d.now).isSome → d'.phase = .finished →
      d'.status.jobsEnqueued = d.status.jobsEnqueued → d'.status.lastError = some .queueClosed →
      Effect s source d d' [] [] [.error .queueClosed]
  /-- The time of the next job can not be told, so the answer is not noted. -/
  | breakOff {brought put : List Job} {next : Option Nat} {answer : Except SyncError Unit} :
      d.Brings brought next → s.nextRun? d.now = none → d'.phase = .finished →
      put = (if answer.isOk then brought else []) → Effect s source d d' [] put [answer]

theorem puts_of_channel_eq (same : (d.step s source).channel = d.channel) :
    d.puts s source = [] := by
  rw [puts, same, List.drop_length]

theorem puts_of_contents_eq {job : Job}
    (more : (d.step s source).channel.contents = d.channel.contents ++ [job]) :
    d.puts s source = [job] := by
  rw [puts, more, List.drop_left]

theorem begin_spec (s : Schedule) (source : Option (GameweekSource τ)) (next : Option Nat)
    (d : Scheduler τ) :
    ∃ endsAt, (d.begin s source next).phase =
        .lookingUp endsAt (s.jobAt source (d.now, d.work)) next ∧
      (d.begin s source next).status = d.status ∧
      (d.begin s source next).channel = d.channel ∧ (d.begin s source next).now = d.now := by
  cases source with
  | none => exact ⟨_, rfl, rfl, rfl, rfl⟩
  | some lookUp => exact ⟨_, rfl, rfl, rfl, rfl⟩

theorem effect_begin {next : Option Nat} (ready : d.Ready next)
    (step : d.step s source = d.begin s source next) (begins : d.begins = [(d.now, d.work)])
    (hears : d.hears = []) :
    Effect s source d (d.step s source) d.begins (d.puts s source) d.hears := by
  obtain ⟨endsAt, phase, status, channel, -⟩ := begin_spec s source next d
  rw [puts_of_channel_eq (step ▸ channel), begins, hears, step]
  exact .begin ready phase status

theorem effect_stop (step : d.step s source = { d with phase := .finished })
    (begins : d.begins = []) (hears : d.hears = []) :
    Effect s source d (d.step s source) d.begins (d.puts s source) d.hears := by
  rw [puts_of_channel_eq (by rw [step]), begins, hears, step]
  exact .stop rfl rfl

theorem effect_accept {put : List Job} {next : Option Nat} (brings : d.Brings put next)
    {d₁ : Scheduler τ} (status : d₁.status = d.status) (now : d₁.now = d.now) :
    Effect s source d (d₁.accept s next) [] put [.ok ()] := by
  unfold accept
  split
  · next nextRun found =>
    rw [now] at found ⊢
    exact .accept brings (by rw [found]; rfl) rfl (by rw [status])
  · next missing =>
    rw [now] at missing
    exact .breakOff brings missing rfl rfl

theorem effect_refuse {put : List Job} {next : Option Nat} (brings : d.Brings put next) :
    Effect s source d (d.refuse s) [] [] [.error .queueClosed] := by
  unfold refuse
  split
  · next nextRun found => exact .refuse brings (by rw [found]; rfl) rfl rfl rfl
  · next missing => exact .breakOff brings missing rfl rfl

theorem channel_accept (s : Schedule) (next : Option Nat) (d : Scheduler τ) :
    (d.accept s next).channel = d.channel := by
  unfold accept
  split <;> rfl

theorem channel_refuse (s : Schedule) (d : Scheduler τ) : (d.refuse s).channel = d.channel := by
  unfold refuse
  split <;> rfl

theorem effect_of_lookingUp {endsAt : Nat} {job : Job} {next : Option Nat}
    (phase : d.phase = .lookingUp endsAt job next) :
    Effect s source d (d.step s source) d.begins (d.puts s source) d.hears := by
  have none : d.begins = [] := by simp only [begins, phase]
  rcases d.channel.offer_cases job with ⟨channel, offer, contents⟩ | offer | offer
  · have step : d.step s source = ({ d with channel } : Scheduler τ).accept s next := by
      simp only [step, phase, offer]
    have put : d.puts s source = [job] :=
      puts_of_contents_eq (by rw [step, channel_accept, contents])
    have heard : d.hears = [.ok ()] := by simp only [hears, phase, offer]
    rw [none, put, heard, step]
    exact effect_accept (.now phase) rfl rfl
  · have step : d.step s source =
        { d with
          channel := (d.channel.join job).2
          phase := .inLine (d.channel.join job).1 next } := by
      simp only [step, phase, offer]
    have put : d.puts s source = [job] :=
      puts_of_contents_eq (by rw [step, Channel.contents_join])
    have heard : d.hears = [] := by simp only [hears, phase, offer]
    rw [none, put, heard, step]
    exact .join phase rfl rfl
  · have step : d.step s source = d.refuse s := by simp only [step, phase, offer]
    have put : d.puts s source = [] := puts_of_channel_eq (by rw [step, channel_refuse])
    have heard : d.hears = [.error .queueClosed] := by simp only [hears, phase, offer]
    rw [none, put, heard, step]
    exact effect_refuse (.now phase)

theorem effect_of_inLine {place : Nat} {next : Option Nat} (phase : d.phase = .inLine place next) :
    Effect s source d (d.step s source) d.begins (d.puts s source) d.hears := by
  have none : d.begins = [] := by simp only [begins, phase]
  cases served : d.channel.hasServed place with
  | true =>
    have step : d.step s source = d.accept s next := by simp [step, phase, served]
    have put : d.puts s source = [] := puts_of_channel_eq (by rw [step, channel_accept])
    have heard : d.hears = [.ok ()] := by simp [hears, phase, served]
    rw [none, put, heard, step]
    exact effect_accept (.before phase) rfl rfl
  | false =>
    have step : d.step s source = d.refuse s := by simp [step, phase, served]
    have put : d.puts s source = [] := puts_of_channel_eq (by rw [step, channel_refuse])
    have heard : d.hears = [.error .queueClosed] := by simp [hears, phase, served]
    rw [none, put, heard, step]
    exact effect_refuse (.before phase)

theorem effect_of_waiting {deadline : Nat} (phase : d.phase = .waiting deadline)
    (past : d.stopping = false → deadline ≤ d.now) :
    Effect s source d (d.step s source) d.begins (d.puts s source) d.hears := by
  have none : d.begins = [] := by simp only [begins, phase]
  have silent : d.hears = [] := by simp only [hears, phase]
  cases stopping : d.stopping with
  | false =>
    have step : d.step s source =
        { d with
          phase := .jittering (d.now + s.jitter d.ticks) (deadline + s.interval)
          ticks := d.ticks + 1 } := by
      simp [step, phase, stopping]
    rw [puts_of_channel_eq (by rw [step]), none, silent, step]
    exact .jitter phase (past stopping) rfl rfl
  | true => exact effect_stop (by simp [step, phase, stopping]) none silent

/-- A step that is due has one of the effects. -/
theorem effect_of_step {time : Nat} (due : d.due? = some time) (le : time ≤ d.now) :
    Effect s source d (d.step s source) d.begins (d.puts s source) d.hears := by
  cases phase : d.phase with
  | starting =>
    refine effect_begin (.starting phase) ?_ ?_ ?_
    · simp only [step, phase]
    · simp only [begins, phase]
    · simp only [hears, phase]
  | delaying endsAt =>
    cases stopping : d.stopping with
    | false =>
      have past : endsAt ≤ d.now := by
        simp only [due?, phase, stopping, Option.some.injEq] at due
        exact Nat.le_trans (Nat.le_of_eq due) le
      refine effect_begin (.delayed phase past) ?_ ?_ ?_
      · simp [step, phase, stopping]
      · simp [begins, phase, stopping]
      · simp only [hears, phase]
    | true =>
      refine effect_stop ?_ ?_ ?_
      · simp [step, phase, stopping]
      · simp [begins, phase, stopping]
      · simp only [hears, phase]
  | lookingUp endsAt job next => exact effect_of_lookingUp phase
  | inLine place next => exact effect_of_inLine phase
  | waiting deadline =>
    refine effect_of_waiting phase fun stopping => ?_
    simp only [due?, phase, stopping, Option.some.injEq] at due
    exact Nat.le_trans (Nat.le_of_eq due) le
  | jittering endsAt next =>
    cases stopping : d.stopping with
    | false =>
      refine effect_begin (.jittered phase) ?_ ?_ ?_
      · simp [step, phase, stopping]
      · simp [begins, phase, stopping]
      · simp only [hears, phase]
    | true =>
      refine effect_stop ?_ ?_ ?_
      · simp [step, phase, stopping]
      · simp [begins, phase, stopping]
      · simp only [hears, phase]
  | finished => simp only [due?, phase, reduceCtorEq] at due

/-- No step moves the clock, and none signals a shutdown. -/
theorem frame_step (d : Scheduler τ) :
    (d.step s source).now = d.now ∧ (d.step s source).stopping = d.stopping := by
  have begun (next : Option Nat) :
      (d.begin s source next).now = d.now ∧ (d.begin s source next).stopping = d.stopping := by
    cases source <;> exact ⟨rfl, rfl⟩
  have accepted (d : Scheduler τ) (next : Option Nat) :
      (d.accept s next).now = d.now ∧ (d.accept s next).stopping = d.stopping := by
    unfold accept
    split <;> exact ⟨rfl, rfl⟩
  have refused : (d.refuse s).now = d.now ∧ (d.refuse s).stopping = d.stopping := by
    unfold refuse
    split <;> exact ⟨rfl, rfl⟩
  unfold step
  split
  · exact begun _
  · split
    · exact ⟨rfl, rfl⟩
    · exact begun _
  · split
    · exact accepted _ _
    · exact ⟨rfl, rfl⟩
    · exact refused
  · split
    · exact accepted _ _
    · exact refused
  · split <;> exact ⟨rfl, rfl⟩
  · split
    · exact ⟨rfl, rfl⟩
    · exact begun _
  · exact ⟨rfl, rfl⟩

/-- What is due at a time is due when it has come. -/
theorem exists_due?_of_due? {time : Nat} (h : d.due? = some time) :
    ∃ past, { d with now := max d.now time }.due? = some past ∧ past ≤ max d.now time := by
  have reached := Nat.le_max_right d.now time
  simp only [due?] at h ⊢
  cases phase : d.phase with
  | starting => exact ⟨_, rfl, Nat.le_refl _⟩
  | delaying endsAt | waiting deadline | jittering endsAt next =>
    rw [phase] at h
    cases h
    refine ⟨_, rfl, ?_⟩
    split
    · exact Nat.le_refl _
    · next stopping =>
      rw [if_neg stopping] at reached
      exact reached
  | lookingUp endsAt job next =>
    rw [phase] at h
    cases h
    exact ⟨_, rfl, reached⟩
  | inLine place next =>
    rw [phase] at h
    simp only [] at h ⊢
    split at h
    · next gone =>
      rw [if_pos gone]
      exact ⟨_, rfl, Nat.le_refl _⟩
    · cases h
  | finished =>
    rw [phase] at h
    cases h

/-- The scheduler when it may overlook that a shutdown was signalled. -/
def listening (heard : Bool) (d : Scheduler τ) : Scheduler τ :=
  { d with stopping := d.stopping && heard }

end Scheduler

/-- A scheduler, and an account of what it has done so far. -/
structure SchedulerRun (τ : Type) where
  scheduler : Scheduler τ
  /-- When each look-up began, and what it worked on. -/
  begun : List (Nat × τ) := []
  /-- The jobs that the scheduler added to the contents of the queue, and when. -/
  put : List (Nat × Job) := []
  /-- What the queue answered. -/
  answers : List (Except SyncError Unit) := []

/-- What may happen around a scheduler. -/
inductive SchedulerEvent (τ : Type) where
  /-- The clock goes on to a time. -/
  | pass (time : Nat)
  /-- The scheduler does what is due. A shutdown is noticed or overlooked. -/
  | go (heard : Bool)
  /-- Others bring jobs to the queue, take them out or close it, and change what is worked on. -/
  | others (channel : Channel Job) (work : τ)
  | signal

namespace SchedulerRun

open Scheduler (Effect)

variable {s : Schedule} {source : Option (GameweekSource τ)}

def start (s : Schedule) (work : τ) (channel : Channel Job) : SchedulerRun τ where
  scheduler := .start s work channel

/-- The run after the scheduler, which may overlook a shutdown, has done what is due. -/
def go (s : Schedule) (source : Option (GameweekSource τ)) (d : Scheduler τ)
    (r : SchedulerRun τ) : SchedulerRun τ where
  scheduler := { d.step s source with stopping := r.scheduler.stopping }
  begun := r.begun ++ d.begins
  put := r.put ++ (d.puts s source).map fun job => (d.now, job)
  answers := r.answers ++ d.hears

/-- The run after an event, if it is possible. -/
def step? (s : Schedule) (source : Option (GameweekSource τ)) (r : SchedulerRun τ) :
    SchedulerEvent τ → Option (SchedulerRun τ)
  | .pass time => some { r with scheduler := { r.scheduler with now := max r.scheduler.now time } }
  | .go heard =>
    let d := r.scheduler.listening heard
    match d.due? with
    | some time => if time ≤ d.now then some (r.go s source d) else none
    | none => none
  | .others channel work => some { r with scheduler := { r.scheduler with channel, work } }
  | .signal => some { r with scheduler := r.scheduler.signal.2 }

/-- Lets things happen one after another, if each is possible when its turn comes. -/
def replay? (s : Schedule) (source : Option (GameweekSource τ)) (r : SchedulerRun τ) :
    List (SchedulerEvent τ) → Option (SchedulerRun τ)
  | [] => some r
  | e :: es => (r.step? s source e).bind fun r' => r'.replay? s source es

/-- What every effect of the scheduler keeps, and what nobody else can change, every run keeps. -/
theorem replay?_invariant {I : SchedulerRun τ → Prop}
    (outside : ∀ (r : SchedulerRun τ) d, I r → d.phase = r.scheduler.phase →
      d.status = r.scheduler.status → r.scheduler.now ≤ d.now → I { r with scheduler := d })
    (effect : ∀ (r : SchedulerRun τ) d begun put answers, I r →
      Effect s source r.scheduler d begun put answers → d.now = r.scheduler.now →
      I ⟨d, r.begun ++ begun, r.put ++ put.map fun job => (r.scheduler.now, job),
        r.answers ++ answers⟩)
    {r r' : SchedulerRun τ} {es : List (SchedulerEvent τ)} (start : I r)
    (h : r.replay? s source es = some r') : I r' := by
  induction es generalizing r with
  | nil =>
    cases h
    exact start
  | cons e es ih =>
    obtain ⟨next, moved, rest⟩ := Option.bind_eq_some_iff.1 h
    refine ih ?_ rest
    cases e with
    | pass time =>
      cases moved
      exact outside r _ start rfl rfl (Nat.le_max_left _ _)
    | go heard =>
      simp only [step?] at moved
      split at moved
      · next time due =>
        split at moved
        · next le =>
          cases moved
          have before := outside r (r.scheduler.listening heard) start rfl rfl (Nat.le_refl _)
          have after := effect _ _ _ _ _ before (Scheduler.effect_of_step due le)
            (Scheduler.frame_step _).1
          exact outside _ _ after rfl rfl (Nat.le_refl _)
        · cases moved
      · cases moved
    | others channel work =>
      cases moved
      exact outside r _ start rfl rfl (Nat.le_refl _)
    | signal =>
      cases moved
      refine outside r _ start ?_ ?_ (Nat.le_of_eq ?_) <;>
      · unfold Scheduler.signal
        split <;> rfl

/-- Nothing that happens makes a scheduler go on which has finished. -/
theorem replay?_of_finished {r r' : SchedulerRun τ} {es : List (SchedulerEvent τ)}
    (finished : r.scheduler.phase = .finished) (h : r.replay? s source es = some r') :
    r'.scheduler.phase = .finished ∧ r'.begun = r.begun ∧ r'.put = r.put ∧
      r'.answers = r.answers := by
  refine replay?_invariant (I := fun r' => r'.scheduler.phase = .finished ∧ r'.begun = r.begun ∧
    r'.put = r.put ∧ r'.answers = r.answers) ?_ ?_ ⟨finished, rfl, rfl, rfl⟩ h
  · rintro r₁ d ⟨finished, same⟩ phase - -
    exact ⟨phase.trans finished, same⟩
  · rintro r₁ d begun put answers ⟨finished, same⟩ effect -
    cases effect with
    | begin ready => exact absurd finished (Scheduler.inHand_of_ready ready).1
    | jitter phase | join phase => simp [finished] at phase
    | stop phase => simpa using ⟨phase, same⟩
    | accept brings | refuse brings | breakOff brings =>
      exact absurd finished (Scheduler.inHand_of_brings brings).1

theorem exists_step?_go (s : Schedule) (source : Option (GameweekSource τ)) (r : SchedulerRun τ)
    {time : Nat} (due : r.scheduler.due? = some time) (le : time ≤ r.scheduler.now) :
    ∃ r', r.step? s source (.go true) = some r' ∧
      r'.scheduler = r.scheduler.step s source := by
  have attentive : r.scheduler.listening true = r.scheduler := by
    simp only [Scheduler.listening, Bool.and_true]
  refine ⟨r.go s source r.scheduler, ?_, ?_⟩
  · simp only [step?, attentive, due]
    rw [if_pos le]
  · simp only [go]
    rw [← (Scheduler.frame_step r.scheduler).2]

/-- A scheduler that notices every shutdown and is never late makes a run. -/
theorem exists_replay?_advance (s : Schedule) (source : Option (GameweekSource τ)) (limit : Nat)
    (r : SchedulerRun τ) :
    ∃ es r', r.replay? s source es = some r' ∧
      r'.scheduler = r.scheduler.advance s source limit := by
  generalize before : r.scheduler = d
  induction d using Scheduler.advance.induct s source limit generalizing r with
  | case1 d due =>
    refine ⟨[.pass limit], _, rfl, ?_⟩
    unfold Scheduler.advance
    split
    · rw [before]
    · next time other => rw [due] at other; cases other
  | case2 d time due le ih =>
    subst before
    obtain ⟨past, due', le'⟩ := Scheduler.exists_due?_of_due? due
    obtain ⟨r₁, went, scheduler⟩ := exists_step?_go s source
      { r with scheduler := { r.scheduler with now := max r.scheduler.now time } } due' le'
    obtain ⟨es, r', rest, ended⟩ := ih r₁ scheduler
    refine ⟨.pass time :: .go true :: es, r', ?_, ?_⟩
    · exact Option.bind_eq_some_iff.2 ⟨_, rfl, Option.bind_eq_some_iff.2 ⟨_, went, rest⟩⟩
    · rw [ended]
      conv => rhs; unfold Scheduler.advance
      split
      · next none => rw [due] at none; cases none
      · next other same =>
        rw [due] at same
        cases same
        rw [dif_pos le]
  | case3 d time due not_le =>
    refine ⟨[.pass limit], _, rfl, ?_⟩
    unfold Scheduler.advance
    split
    · next none => rw [due] at none; cases none
    · next other same =>
      rw [due] at same
      cases same
      rw [dif_neg not_le, before]

end SchedulerRun
end LeagueSync
