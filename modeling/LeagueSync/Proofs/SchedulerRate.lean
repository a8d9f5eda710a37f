import LeagueSync.Proofs.SchedulerRuns

/-!
# LeagueSync.Proofs.SchedulerRate

A scheduler never exceeds its rate. What bounds it is one moment for each job, `Schedule.earliest`:
the first deadline and so many intervals. The first job starts the grid no earlier than at its own
moment, every deadline is an interval after the one before, and neither jitter nor a slow look-up
nor a full queue brings a job forward; a burst after a long wait only catches up.

* `SchedulerRun.paced_of_replay?`: a job is put in no earlier than at its moment.
* `SchedulerRun.inOrder_of_replay?`: the jobs that are put in are those of the look-ups, in turn.
* `SchedulerRun.reported_of_replay?`: the status counts what the queue took, and no scheduler goes
  on after it was refused.
* `SchedulerRun.keeps_its_rate`: all of this for what a configuration says.
-/

namespace LeagueSync

variable {τ : Type}

namespace Schedule

variable {s : Schedule} {put : List (Nat × Job)}

/-- No job is put in before this moment when so many were. -/
def earliest (s : Schedule) (k : Nat) : Nat :=
  s.initialDelay + k * s.interval

theorem earliest_succ (s : Schedule) (k : Nat) :
    s.earliest (k + 1) = s.earliest k + s.interval := by
  rw [earliest, earliest, Nat.succ_mul, Nat.add_assoc]

/-- How many jobs may have been put in by a time. -/
def allowed (s : Schedule) (time : Nat) : Nat :=
  if time < s.initialDelay then 0 else 1 + (time - s.initialDelay) / s.interval

theorem lt_earliest_of_allowed_le {time k : Nat} (h : s.allowed time ≤ k) :
    time < s.earliest k := by
  unfold allowed at h
  unfold earliest
  split at h
  · omega
  · have later : time - s.initialDelay < k * s.interval :=
      (Nat.div_lt_iff_lt_mul s.interval_pos).1 (by omega)
    omega

/-- Each of these was put in at its moment or later. -/
def OnTime (s : Schedule) (put : List (Nat × Job)) : Prop :=
  ∀ k p, put[k]? = some p → s.earliest k ≤ p.1

theorem OnTime.concat (h : s.OnTime put) {now : Nat} (moment : s.earliest put.length ≤ now)
    (job : Job) : s.OnTime (put ++ [(now, job)]) := by
  intro k p found
  rcases Nat.lt_trichotomy k put.length with before | rfl | after
  · rw [List.getElem?_append_left before] at found
    exact h k p found
  · rw [List.getElem?_concat_length] at found
    cases found
    exact moment
  · have past : (put ++ [(now, job)]).length ≤ k := by
      rw [List.length_append]
      exact after
    rw [List.getElem?_eq_none past] at found
    cases found

/-- Whatever comes after as many as are allowed was put in later. -/
theorem OnTime.countP_le (h : s.OnTime put) (time : Nat) :
    put.countP (·.1 ≤ time) ≤ s.allowed time := by
  have late : (put.drop (s.allowed time)).countP (·.1 ≤ time) = 0 := by
    refine List.countP_eq_zero.2 fun p mem => ?_
    obtain ⟨k, found⟩ := List.mem_iff_getElem?.1 mem
    rw [List.getElem?_drop] at found
    have := h _ p found
    have := s.lt_earliest_of_allowed_le (Nat.le_add_right (s.allowed time) k)
    simp only [decide_eq_true_eq]
    omega
  calc put.countP (·.1 ≤ time)
      = (put.take (s.allowed time)).countP (·.1 ≤ time) +
          (put.drop (s.allowed time)).countP (·.1 ≤ time) := by
        rw [← List.countP_append, List.take_append_drop]
    _ = (put.take (s.allowed time)).countP (·.1 ≤ time) := by rw [late, Nat.add_zero]
    _ ≤ (put.take (s.allowed time)).length := List.countP_le_length
    _ ≤ s.allowed time := List.length_take_le _ _

end Schedule

/-- With so many jobs put in, no later deadline that the scheduler knows is before its moment. -/
def SchedulerPhase.Allows (s : Schedule) (now put : Nat) : SchedulerPhase → Prop
  | .starting => s.earliest put ≤ now
  | .delaying endsAt => s.earliest put ≤ endsAt
  | .lookingUp _ _ next => s.earliest put ≤ now ∧ ∀ time ∈ next, s.earliest (put + 1) ≤ time
  | .inLine _ next =>
    s.earliest put ≤ now + s.interval ∧ ∀ time ∈ next, s.earliest put ≤ time
  | .waiting deadline => s.earliest put ≤ deadline
  | .jittering _ next => s.earliest put ≤ now ∧ s.earliest (put + 1) ≤ next
  | .finished => True

namespace Scheduler

variable {s : Schedule} {d : Scheduler τ} {n : Nat}

theorem allows_of_le {now : Nat} {phase : SchedulerPhase} (allows : phase.Allows s now n)
    {later : Nat} (le : now ≤ later) : phase.Allows s later n := by
  cases phase with
  | starting => exact Nat.le_trans allows le
  | delaying | waiting | finished => exact allows
  | lookingUp | jittering => exact ⟨Nat.le_trans allows.1 le, allows.2⟩
  | inLine => exact ⟨Nat.le_trans allows.1 (Nat.add_le_add_right le _), allows.2⟩

theorem earliest_le_of_ready {next : Option Nat} (ready : d.Ready next)
    (allows : d.phase.Allows s d.now n) :
    s.earliest n ≤ d.now ∧ ∀ time ∈ next, s.earliest (n + 1) ≤ time := by
  cases ready with
  | starting phase =>
    rw [phase] at allows
    exact ⟨allows, fun _ mem => nomatch mem⟩
  | delayed phase past =>
    rw [phase] at allows
    exact ⟨Nat.le_trans allows past, fun _ mem => nomatch mem⟩
  | jittered phase =>
    rw [phase] at allows
    exact ⟨allows.1, fun _ mem => by cases mem; exact allows.2⟩

/-- A job that is brought is no earlier than its moment, and its successor will not be. -/
theorem earliest_le_of_brings {brought : List Job} {next : Option Nat}
    (brings : d.Brings brought next) (allows : d.phase.Allows s d.now n) :
    (brought = [] ∨ ∃ job, brought = [job] ∧ s.earliest n ≤ d.now) ∧
      s.earliest (n + brought.length) ≤ next.getD (d.now + s.interval) := by
  cases brings with
  | @now endsAt job next phase =>
    rw [phase] at allows
    obtain ⟨moment, later⟩ := allows
    refine ⟨.inr ⟨job, rfl, moment⟩, ?_⟩
    cases next with
    | none =>
      simp only [List.length_singleton, s.earliest_succ, Option.getD_none]
      exact Nat.add_le_add_right moment _
    | some time => exact later time rfl
  | before phase =>
    rw [phase] at allows
    refine ⟨.inl rfl, ?_⟩
    cases next with
    | none => exact allows.1
    | some time => exact allows.2 time rfl

end Scheduler

namespace SchedulerRun

open Scheduler (Effect)

variable {s : Schedule} {source : Option (GameweekSource τ)}

structure Paced (s : Schedule) (r : SchedulerRun τ) : Prop where
  allows : r.scheduler.phase.Allows s r.scheduler.now r.put.length
  onTime : s.OnTime r.put

theorem paced_start (s : Schedule) (work : τ) (channel : Channel Job) :
    (start s work channel).Paced s where
  allows := by
    simp only [start, Scheduler.start]
    split
    · next none => simp [SchedulerPhase.Allows, Schedule.earliest, none]
    · simp [SchedulerPhase.Allows, Schedule.earliest]
  onTime := fun _ _ found => nomatch found

theorem Paced.effect {r : SchedulerRun τ} (h : r.Paced s) {d : Scheduler τ}
    {begun : List (Nat × τ)} {put : List Job} {answers : List (Except SyncError Unit)}
    (effect : Effect s source r.scheduler d begun put answers) (now : d.now = r.scheduler.now) :
    Paced s ⟨d, r.begun ++ begun, r.put ++ put.map fun job => (r.scheduler.now, job),
      r.answers ++ answers⟩ := by
  have onTime_of {brought : List Job} (moments : brought = [] ∨ ∃ job, brought = [job] ∧
      s.earliest r.put.length ≤ r.scheduler.now) :
      s.OnTime (r.put ++ brought.map fun job => (r.scheduler.now, job)) := by
    obtain rfl | ⟨job, rfl, moment⟩ := moments
    · simpa using h.onTime
    · exact h.onTime.concat moment job
  cases effect with
  | begin ready phase =>
    refine ⟨?_, by simpa using h.onTime⟩
    rw [phase, now]
    simpa [SchedulerPhase.Allows] using Scheduler.earliest_le_of_ready ready h.allows
  | jitter phase past phase' =>
    refine ⟨?_, by simpa using h.onTime⟩
    have moment := h.allows
    rw [phase] at moment
    rw [phase', now]
    simp only [SchedulerPhase.Allows, List.map_nil, List.append_nil] at moment ⊢
    rw [s.earliest_succ]
    exact ⟨Nat.le_trans moment past, Nat.add_le_add_right moment _⟩
  | stop phase =>
    refine ⟨?_, by simpa using h.onTime⟩
    rw [phase]
    trivial
  | @join endsAt place job next phase phase' =>
    have moment := h.allows
    rw [phase] at moment
    refine ⟨?_, h.onTime.concat moment.1 job⟩
    rw [phase', now]
    simp only [SchedulerPhase.Allows, List.length_append, List.map_cons, List.map_nil,
      List.length_singleton] at moment ⊢
    refine ⟨?_, moment.2⟩
    rw [s.earliest_succ]
    exact Nat.add_le_add_right moment.1 _
  | accept brings inTime phase =>
    obtain ⟨moments, later⟩ := Scheduler.earliest_le_of_brings brings h.allows
    refine ⟨?_, onTime_of moments⟩
    rw [phase]
    simpa [SchedulerPhase.Allows] using later
  | refuse brings inTime phase =>
    refine ⟨?_, by simpa using h.onTime⟩
    rw [phase]
    trivial
  | @breakOff brought put next answer brings late phase which =>
    refine ⟨by rw [phase]; trivial, ?_⟩
    obtain ⟨moments, -⟩ := Scheduler.earliest_le_of_brings brings h.allows
    rw [which]
    split
    · exact onTime_of moments
    · simpa using h.onTime

theorem paced_of_replay? {r r' : SchedulerRun τ} {es : List (SchedulerEvent τ)}
    (start : r.Paced s) (h : r.replay? s source es = some r') : r'.Paced s := by
  refine replay?_invariant ?_ ?_ start h
  · rintro r d ⟨allows, onTime⟩ phase - le
    exact ⟨phase ▸ Scheduler.allows_of_le allows le, onTime⟩
  · intro r d begun put answers paced effect now
    exact paced.effect effect now

/-- The jobs that were put in are those of the look-ups, in turn. What is left is in hand. -/
def InOrder (s : Schedule) (source : Option (GameweekSource τ)) (r : SchedulerRun τ) : Prop :=
  ∃ rest, r.put.map Prod.snd ++ rest = r.begun.map (s.jobAt source) ∧
    (r.scheduler.phase = .finished ∨ rest = r.scheduler.phase.inHand)

theorem inOrder_start (s : Schedule) (source : Option (GameweekSource τ)) (work : τ)
    (channel : Channel Job) : (start s work channel).InOrder s source := by
  refine ⟨[], rfl, .inr ?_⟩
  simp only [start, Scheduler.start]
  split <;> rfl

theorem InOrder.effect {r : SchedulerRun τ} (h : r.InOrder s source) {d : Scheduler τ}
    {begun : List (Nat × τ)} {put : List Job} {answers : List (Except SyncError Unit)}
    (effect : Effect s source r.scheduler d begun put answers) :
    InOrder s source ⟨d, r.begun ++ begun, r.put ++ put.map fun job => (r.scheduler.now, job),
      r.answers ++ answers⟩ := by
  obtain ⟨rest, jobs, left⟩ := h
  have timeless (put : List Job) :
      (put.map fun job => (r.scheduler.now, job)).map Prod.snd = put := by
    simp [Function.comp_def]
  simp only [InOrder, List.map_append, timeless, ← jobs]
  cases effect with
  | begin ready phase =>
    obtain ⟨going, inHand⟩ := Scheduler.inHand_of_ready ready
    have none := left.resolve_left going
    refine ⟨[s.jobAt source (r.scheduler.now, r.scheduler.work)], ?_, .inr (by rw [phase]; rfl)⟩
    simp [none, inHand]
  | jitter phase past phase' =>
    have none := left.resolve_left (by rw [phase]; nofun)
    refine ⟨[], ?_, .inr (by rw [phase']; rfl)⟩
    simp [none, phase, SchedulerPhase.inHand]
  | stop phase => exact ⟨rest, by simp, .inl phase⟩
  | join phase phase' =>
    have one := left.resolve_left (by rw [phase]; nofun)
    refine ⟨[], ?_, .inr (by rw [phase']; rfl)⟩
    simp [one, phase, SchedulerPhase.inHand]
  | accept brings inTime phase =>
    obtain ⟨going, inHand⟩ := Scheduler.inHand_of_brings brings
    have brought := left.resolve_left going
    refine ⟨[], ?_, .inr (by rw [phase]; rfl)⟩
    simp [brought, inHand]
  | refuse brings inTime phase => exact ⟨rest, by simp, .inl phase⟩
  | breakOff brings late phase which =>
    obtain ⟨going, inHand⟩ := Scheduler.inHand_of_brings brings
    have brought := left.resolve_left going
    rw [which]
    split
    · exact ⟨[], by simp [brought, inHand], .inl phase⟩
    · exact ⟨rest, by simp, .inl phase⟩

theorem inOrder_of_replay? {r r' : SchedulerRun τ} {es : List (SchedulerEvent τ)}
    (start : r.InOrder s source) (h : r.replay? s source es = some r') :
    r'.InOrder s source := by
  refine replay?_invariant ?_ ?_ start h
  · rintro r d ⟨rest, jobs, left⟩ phase - -
    exact ⟨rest, jobs, by rwa [phase]⟩
  · intro r d begun put answers inOrder effect _
    exact inOrder.effect effect

theorem InOrder.job {r : SchedulerRun τ} (h : r.InOrder s source) {k : Nat} {p : Nat × Job}
    (found : r.put[k]? = some p) :
    ∃ begun, r.begun[k]? = some begun ∧ p.2 = s.jobAt source begun := by
  obtain ⟨rest, jobs, -⟩ := h
  have inFront : (r.put.map Prod.snd ++ rest)[k]? = some p.2 := by
    rw [List.getElem?_append_left, List.getElem?_map, found]
    · rfl
    · rw [List.length_map]
      exact (List.getElem?_eq_some_iff.1 found).1
  rw [jobs, List.getElem?_map, Option.map_eq_some_iff] at inFront
  obtain ⟨begun, at', same⟩ := inFront
  exact ⟨begun, at', same.symm⟩

/-- What the scheduler reports agrees with what the queue answered. It is final when the queue has
refused a job. -/
structure Reported (s : Schedule) (r : SchedulerRun τ) : Prop where
  taken : r.answers.countP Except.isOk + r.scheduler.phase.inLineCount ≤ r.put.length
  refused : ∀ e, .error e ∈ r.answers → r.scheduler.phase = .finished
  status : (∀ now ≤ r.scheduler.now, (s.nextRun? now).isSome) →
    r.scheduler.status.jobsEnqueued = r.answers.countP Except.isOk ∧
      ∀ e, .error e ∈ r.answers → r.scheduler.status.lastError = some .queueClosed

theorem reported_start (s : Schedule) (work : τ) (channel : Channel Job) :
    (start s work channel).Reported s where
  taken := by
    simp only [start, Scheduler.start]
    split <;> exact Nat.le_refl _
  refused := nofun
  status := fun _ => ⟨rfl, nofun⟩

theorem Reported.effect {r : SchedulerRun τ} (h : r.Reported s) {d : Scheduler τ}
    {begun : List (Nat × τ)} {put : List Job} {answers : List (Except SyncError Unit)}
    (effect : Effect s source r.scheduler d begun put answers) (now : d.now = r.scheduler.now) :
    Reported s ⟨d, r.begun ++ begun, r.put ++ put.map fun job => (r.scheduler.now, job),
      r.answers ++ answers⟩ := by
  obtain ⟨taken, refused, status⟩ := h
  have quiet (going : r.scheduler.phase ≠ .finished) (e : SyncError) :
      Except.error e ∉ r.answers :=
    fun mem => going (refused e mem)
  have same (kept : d.status = r.scheduler.status)
      (clock : ∀ now ≤ d.now, (s.nextRun? now).isSome) :
      d.status.jobsEnqueued = r.answers.countP Except.isOk ∧
        ∀ e, .error e ∈ r.answers → d.status.lastError = some .queueClosed := by
    rw [kept]
    exact status (now ▸ clock)
  have one {brought : List Job} {next : Option Nat} (brings : r.scheduler.Brings brought next) :
      brought.length + r.scheduler.phase.inLineCount = 1 := by
    cases brings with
    | now phase | before phase => rw [phase]; rfl
  have more : (r.answers ++ [Except.ok ()]).countP Except.isOk =
      r.answers.countP Except.isOk + 1 := by
    rw [List.countP_append]
    rfl
  have noMore (e : SyncError) : (r.answers ++ [Except.error e]).countP Except.isOk =
      r.answers.countP Except.isOk := by
    rw [List.countP_append]
    rfl
  cases effect with
  | begin ready phase kept =>
    have going := (Scheduler.inHand_of_ready ready).1
    refine ⟨?_, fun e mem => absurd (by simpa using mem) (quiet going e), by simpa using same kept⟩
    simp only [phase, SchedulerPhase.inLineCount, List.append_nil, List.map_nil]
    omega
  | jitter phase past phase' kept =>
    have going : r.scheduler.phase ≠ .finished := by rw [phase]; nofun
    refine ⟨?_, fun e mem => absurd (by simpa using mem) (quiet going e), by simpa using same kept⟩
    simp only [phase', SchedulerPhase.inLineCount, List.append_nil, List.map_nil]
    omega
  | stop phase kept =>
    refine ⟨?_, fun _ _ => phase, by simpa using same kept⟩
    simp only [phase, SchedulerPhase.inLineCount, List.append_nil, List.map_nil]
    omega
  | join phase phase' kept =>
    have going : r.scheduler.phase ≠ .finished := by rw [phase]; nofun
    refine ⟨?_, fun e mem => absurd (by simpa using mem) (quiet going e), by simpa using same kept⟩
    simp only [phase, phase', SchedulerPhase.inLineCount, List.append_nil, List.length_append,
      List.map_cons, List.map_nil, List.length_singleton] at taken ⊢
    omega
  | accept brings inTime phase counted =>
    have going := (Scheduler.inHand_of_brings brings).1
    have none (e : SyncError) : Except.error e ∉ r.answers ++ [.ok ()] := by
      simpa using quiet going e
    refine ⟨?_, fun e mem => absurd mem (none e),
      fun clock => ⟨?_, fun e mem => absurd mem (none e)⟩⟩
    · have := one brings
      simp only [phase, more, SchedulerPhase.inLineCount, List.length_append, List.length_map]
      omega
    · rw [counted, more, (status (now ▸ clock)).1]
  | refuse brings inTime phase counted error =>
    refine ⟨?_, fun _ _ => phase, fun clock => ⟨?_, fun _ _ => error⟩⟩
    · simp only [phase, noMore, SchedulerPhase.inLineCount, List.map_nil, List.append_nil]
      omega
    · rw [counted, noMore, (status (now ▸ clock)).1]
  | @breakOff brought put next answer brings late phase which =>
    refine ⟨?_, fun _ _ => phase, fun clock => ?_⟩
    · have := one brings
      cases answer with
      | ok =>
        obtain rfl : put = brought := which
        simp only [phase, more, SchedulerPhase.inLineCount, List.length_append, List.length_map]
        omega
      | error e =>
        obtain rfl : put = [] := which
        simp only [phase, noMore, SchedulerPhase.inLineCount, List.map_nil, List.append_nil]
        omega
    · have told := clock r.scheduler.now (Nat.le_of_eq now.symm)
      rw [late] at told
      cases told

theorem reported_of_replay? {r r' : SchedulerRun τ} {es : List (SchedulerEvent τ)}
    (start : r.Reported s) (h : r.replay? s source es = some r') : r'.Reported s := by
  refine replay?_invariant ?_ ?_ start h
  · rintro r d ⟨taken, refused, status⟩ phase kept le
    refine ⟨by rwa [phase], fun e mem => phase.trans (refused e mem), fun clock => ?_⟩
    rw [kept]
    exact status fun now before => clock now (Nat.le_trans before le)
  · intro r d begun put answers reported effect now
    exact reported.effect effect now

end SchedulerRun

/-- The gameweek of a job for which a look-up began at a time, on something to work on. -/
def FallibleSource.gameweekFor (lookUp : Option (FallibleSource τ)) (begun : Nat × τ) :
    Option GameweekId :=
  match lookUp with
  | none => none
  | some lookUp =>
    match (lookUp begun.1 begun.2).1.2 with
    | .ok gameweek => gameweek
    | .error _ => none

theorem Schedule.jobAt_ofLookUp (s : Schedule) (lookUp : Option (FallibleSource τ))
    (begun : Nat × τ) :
    s.jobAt (lookUp.map GameweekSource.ofLookUp) begun =
      { ids := none
        source := .cron
        retryCount := 0
        gameweek := FallibleSource.gameweekFor lookUp begun
        triggeredAt := s.timeOfDay begun.1 } := by
  cases lookUp with
  | none => rfl
  | some lookUp =>
    simp only [jobAt, Job.first, FallibleSource.gameweekFor, GameweekSource.ofLookUp,
      Option.map_some, Option.bind_some]
    cases (lookUp begun.1 begun.2).1.2 <;> rfl

theorem Schedule.nextRun?_ofConfig_isSome {c : ScheduleConfig} {jitter : Nat → Nat}
    {timeOfDay : Nat → Timestamp} {now : Nat}
    (clock : (timeOfDay now).epochSecond + max 1 c.intervalSecs.toNat ≤ lastClockSecond) :
    ((Schedule.ofConfig c jitter timeOfDay).nextRun? now).isSome := by
  unfold nextRun?
  rw [if_pos]
  · rfl
  · simp only [ofConfig, Nat.mul_div_cancel _ (Nat.zero_lt_succ 999)]
    exact clock

/-- With an interval of at least one second and an initial delay of at most thirty years, no job is
put in before the delay has passed, and then one for each interval that has begun. All are jobs of
a schedule over all known entries, each with the gameweek that its own look-up gave. The status
counts the jobs that the queue took, as far as the clock can tell when the next one is expected,
and after the queue has refused a job there is no other. -/
theorem SchedulerRun.keeps_its_rate (c : ScheduleConfig) (jitter : Nat → Nat)
    (timeOfDay : Nat → Timestamp) (lookUp : Option (FallibleSource τ)) (work : τ)
    (channel : Channel Job) (es : List (SchedulerEvent τ)) (r : SchedulerRun τ)
    (h : (start (.ofConfig c jitter timeOfDay) work channel).replay?
      (.ofConfig c jitter timeOfDay) (lookUp.map .ofLookUp) es = some r) :
    (∀ time,
      let interval := max 1 c.intervalSecs.toNat * 1000
      let delay := min (c.initialDelaySecs.toNat * 1000) longestSleep
      r.put.countP (·.1 ≤ time) ≤ if time < delay then 0 else 1 + (time - delay) / interval) ∧
    (∀ (k : Nat) (p : Nat × Job), r.put[k]? = some p → ∃ begun, r.begun[k]? = some begun ∧
      p.2 =
        { ids := none
          source := .cron
          retryCount := 0
          gameweek := FallibleSource.gameweekFor lookUp begun
          triggeredAt := timeOfDay begun.1 }) ∧
    r.answers.countP Except.isOk ≤ r.put.length ∧
    ((∀ now ≤ r.scheduler.now,
        (timeOfDay now).epochSecond + max 1 c.intervalSecs.toNat ≤ lastClockSecond) →
      r.scheduler.status.jobsEnqueued = r.answers.countP Except.isOk ∧
        ∀ e, .error e ∈ r.answers → r.scheduler.status.lastError = some .queueClosed) ∧
    ∀ e, .error e ∈ r.answers → r.scheduler.phase = .finished ∧
      ∀ es' r', r.replay? (.ofConfig c jitter timeOfDay) (lookUp.map .ofLookUp) es' = some r' →
        r'.scheduler.phase = .finished ∧ r'.put = r.put ∧ r'.answers = r.answers := by
  have paced := paced_of_replay? (paced_start _ work channel) h
  have inOrder := inOrder_of_replay? (inOrder_start _ _ work channel) h
  have reported := reported_of_replay? (reported_start _ work channel) h
  refine ⟨fun time => paced.onTime.countP_le time, fun k p found => ?_, ?_, fun clock => ?_,
    fun e mem => ⟨reported.refused e mem, fun es' r' later => ?_⟩⟩
  · obtain ⟨begun, at', job⟩ := inOrder.job found
    exact ⟨begun, at', job.trans (Schedule.jobAt_ofLookUp _ lookUp begun)⟩
  · exact Nat.le_trans (Nat.le_add_right _ _) reported.taken
  · exact reported.status fun now le => Schedule.nextRun?_ofConfig_isSome (clock now le)
  · obtain ⟨finished, -, put, answers⟩ := replay?_of_finished (reported.refused e mem) later
    exact ⟨finished, put, answers⟩

/-- Every look-up takes three seconds, and only the first succeeds. The scheduler is late with the
second job, finds the queue full, and the queue is closed while it stands in line. -/
theorem SchedulerRun.keeps_its_rate_until_refused :
    let c : ScheduleConfig := { intervalSecs := 60, initialDelaySecs := 5 }
    let s : Schedule := .ofConfig c (fun _ => 0) fun _ => .epoch
    let lookUp : FallibleSource Nat := fun _ lookUps =>
      ((3000, if lookUps = 0 then .ok (some ⟨4⟩) else .error .queueClosed), lookUps + 1)
    let closed : Channel Job := { Channel.ofCapacity 1 with isOpen := false }
    let events := [.pass 5000, .go true, .pass 8000, .go true, .pass 200000, .go true, .go true,
      .pass 203000, .go true, .others closed 2, .signal, .go false]
    ∃ r, (start s 0 (.ofCapacity 1)).replay? s (some (.ofLookUp lookUp)) events = some r ∧
      r.put = [(8000, ⟨none, .cron, 0, some ⟨4⟩, .epoch⟩),
        (203000, ⟨none, .cron, 0, none, .epoch⟩)] ∧
      r.answers.map Except.isOk = [true, false] ∧
      r.put.countP (·.1 ≤ 64999) ≤ 1 ∧ r.scheduler.status.jobsEnqueued = 1 ∧
      r.scheduler.status.lastError = some .queueClosed ∧ r.scheduler.phase = .finished := by
  intro c s lookUp closed events
  have account : ((start s 0 (.ofCapacity 1)).replay? s (some (.ofLookUp lookUp)) events).map
      (fun r => (r.put, r.answers.map Except.isOk)) =
        some ([(8000, ⟨none, .cron, 0, some ⟨4⟩, .epoch⟩),
          (203000, ⟨none, .cron, 0, none, .epoch⟩)], [true, false]) := by
    subst s c lookUp events closed
    decide +kernel
  obtain ⟨r, run, same⟩ := Option.map_eq_some_iff.1 account
  obtain ⟨put, answers⟩ := Prod.mk.inj same
  obtain ⟨rate, -, -, status, refused⟩ := keeps_its_rate c (fun _ => 0) (fun _ => .epoch)
    (some lookUp) 0 (.ofCapacity 1) events r run
  have clock : Timestamp.epoch.epochSecond + max 1 c.intervalSecs.toNat ≤ lastClockSecond := by
    subst c
    decide +kernel
  have once : r.put.countP (·.1 ≤ 64999) ≤ 1 := by
    refine Nat.le_trans (rate 64999) ?_
    subst c
    decide +kernel
  obtain ⟨count, noted⟩ := status fun _ _ => clock
  obtain ⟨answer, mem, isError⟩ := List.mem_map.1 (answers ▸ .tail _ (.head _) :
    false ∈ r.answers.map Except.isOk)
  cases answer with
  | ok => cases isError
  | error e =>
    refine ⟨r, run, put, answers, once, ?_, noted e mem, (refused e mem).1⟩
    rw [count]
    simpa using congrArg (List.countP id) answers

/-- A sleep ends after thirty years, so a longer initial delay is cut. And a job is not counted if
the clock can not show the time at which the next one is expected. -/
theorem SchedulerRun.long_delay_and_long_interval :
    let delayed : ScheduleConfig := { initialDelaySecs := 946080100 }
    let s : Schedule := .ofConfig delayed (fun _ => 0) fun _ => .epoch
    let rare : ScheduleConfig := { initialDelaySecs := 0, intervalSecs := 18446744073709551615 }
    let s' : Schedule := .ofConfig rare (fun _ => 0) fun _ => .epoch
    (∃ r, (start s () (.ofCapacity 16)).replay? s none
        [.pass 946080000000, .go true, .go true] = some r ∧
      946080000000 < delayed.initialDelaySecs.toNat * 1000 ∧
      r.put.countP (·.1 ≤ 946080000000) = 1) ∧
    ∃ r, (start s' () (.ofCapacity 16)).replay? s' none [.go true, .go true] = some r ∧
      r.answers.countP Except.isOk = 1 ∧ r.scheduler.status.jobsEnqueued = 0 := by
  intro delayed s rare s'
  have early : ((start s () (.ofCapacity 16)).replay? s none
      [.pass 946080000000, .go true, .go true]).map
        (fun r => r.put.countP (·.1 ≤ 946080000000)) = some 1 := by
    subst s delayed
    decide +kernel
  have silent : ((start s' () (.ofCapacity 16)).replay? s' none [.go true, .go true]).map
      (fun r => (r.answers.countP Except.isOk, r.scheduler.status.jobsEnqueued)) = some (1, 0) := by
    subst s' rare
    decide +kernel
  obtain ⟨r, run, put⟩ := Option.map_eq_some_iff.1 early
  obtain ⟨r', run', same⟩ := Option.map_eq_some_iff.1 silent
  obtain ⟨taken, counted⟩ := Prod.mk.inj same
  exact ⟨⟨r, run, by decide, put⟩, r', run', taken, counted⟩

end LeagueSync
