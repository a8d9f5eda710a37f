import LeagueSync.Throttle.Limiter

/-!
# LeagueSync.Proofs.TimedBucket

The token bucket against one with a timer. `TimedBucket` is filled the plain way: time passes
millisecond by millisecond, and whenever the timer is due, the tokens of one interval come in at
once. `Bucket` has no timer and makes up for all steps that it missed when it is next asked.

* `Bucket.Mirrors`: the simulation. After a refill the lazy bucket stands where the timed one does.
* `Bucket.Mirrors.tick`: a millisecond in which nobody asks keeps it, whether the timer is due or
  not. This is where the capped steps one by one meet the one capped sum.
* `Bucket.Mirrors.nextRefill_eq`: the time that is told is the one at which the timer is due.
* `Bucket.Mirrors.ask`: both give the same answer to a call, and go on mirroring each other.
* `answers_eq_timed`: the same answers to all calls at times that never go back, and calls that only
  look can be put in or left out without a change to the answers of the others.
-/

namespace LeagueSync

/-- A bucket that a timer refills. -/
structure TimedBucket where
  capacity : Nat
  tokensPerInterval : Nat
  interval : Nat
  now : Nat
  /-- When the timer is next due. -/
  due : Nat
  tokens : Nat

namespace TimedBucket

/-- The full bucket at a time; its timer is due after one interval. -/
def full (c : RateLimitConfig) (start : Nat) : TimedBucket where
  capacity := c.capacity.toNat
  tokensPerInterval := c.tokensPerInterval.toNat
  interval := max 1 c.intervalMs.toNat
  now := start
  due := start + max 1 c.intervalMs.toNat
  tokens := c.capacity.toNat

/-- A millisecond passes. If the timer is due then, the tokens of one interval come in, and the
timer is due again after the next interval. -/
def tick (b : TimedBucket) : TimedBucket :=
  if b.now + 1 = b.due then
    { b with
      now := b.now + 1
      due := b.due + b.interval
      tokens := min b.capacity (b.tokens + b.tokensPerInterval) }
  else { b with now := b.now + 1 }

def passing (b : TimedBucket) : Nat → TimedBucket
  | 0 => b
  | ms + 1 => b.tick.passing ms

def demand (b : TimedBucket) (n : Nat) : BucketAnswer × TimedBucket :=
  if n ≤ b.tokens then (.granted, { b with tokens := b.tokens - n })
  else (.refused ⟨b.tokens, b.due - b.now⟩, b)

/-- Answers a call at a time that is not past. -/
def ask (b : TimedBucket) (now : Nat) (call : BucketCall) : BucketAnswer × TimedBucket :=
  let b := b.passing (now - b.now)
  match call with
  | .take n => b.demand n
  | .tryTake n => (.success (n ≤ b.tokens), (b.demand n).2)
  | .tokens => (.tokens b.tokens, b)
  | .nextTime => (.time b.due, b)
  | .nextIn => (.wait (b.due - b.now), b)

end TimedBucket

namespace Bucket

/-- The lazy bucket would stand where the timed one does, were it refilled now. -/
structure Mirrors (b : Bucket) (e : TimedBucket) : Prop where
  capacity : e.capacity = b.capacity
  tokensPerInterval : e.tokensPerInterval = b.tokensPerInterval
  interval : e.interval = b.interval
  lastRefill_le : b.lastRefill ≤ e.now
  tokens : e.tokens = (b.refill e.now).tokens
  due : e.due = (b.refill e.now).due

theorem mirrors_full (c : RateLimitConfig) (start : Nat) :
    (full c start).Mirrors (.full c start) := by
  have none : (full c start).refill start = full c start :=
    refill_of_lt (Nat.lt_add_of_pos_right (full c start).interval_pos)
  refine ⟨rfl, rfl, rfl, Nat.le_refl _, ?_, ?_⟩
  · show _ = ((full c start).refill start).tokens
    rw [none]
    rfl
  · show _ = ((full c start).refill start).due
    rw [none]
    rfl

/-- In a millisecond one more step passes if it is the one in which the next step is due, and none
otherwise. -/
theorem steps_succ (b : Bucket) {now : Nat} (h : b.lastRefill ≤ now) :
    b.steps (now + 1) =
      if now + 1 = (b.refill now).due then b.steps now + 1 else b.steps now := by
  have since : now + 1 - b.lastRefill = (now - b.lastRefill) + 1 := by omega
  have split := Nat.div_add_mod' (now - b.lastRefill) b.interval
  have rest := Nat.mod_lt (now - b.lastRefill) b.interval_pos
  have next : (b.refill now).due =
      b.lastRefill + (now - b.lastRefill) / b.interval * b.interval + b.interval := rfl
  simp only [steps, since, next]
  split
  · next due =>
    have : now - b.lastRefill + 1 = ((now - b.lastRefill) / b.interval + 1) * b.interval := by
      rw [Nat.add_mul, Nat.one_mul]
      omega
    rw [this, Nat.mul_div_cancel _ b.interval_pos]
  · next notDue =>
    refine Nat.div_eq_of_lt_le ?_ ?_
    · omega
    · rw [Nat.add_mul, Nat.one_mul]
      omega

namespace Mirrors

variable {b : Bucket} {e : TimedBucket}

theorem tick (h : b.Mirrors e) : b.Mirrors e.tick := by
  have next := b.steps_succ h.lastRefill_le
  by_cases due : e.now + 1 = e.due
  · have passed : b.steps (e.now + 1) = b.steps e.now + 1 := by
      rw [next, if_pos (due.trans h.due)]
    rw [TimedBucket.tick, if_pos due]
    refine ⟨h.capacity, h.tokensPerInterval, h.interval, Nat.le_succ_of_le h.lastRefill_le, ?_, ?_⟩
    · -- a capped sum that is capped again is the cap of the whole sum
      show min e.capacity (e.tokens + e.tokensPerInterval) =
        min b.capacity (b.tokens + b.steps (e.now + 1) * b.tokensPerInterval)
      have before : e.tokens = min b.capacity (b.tokens + b.steps e.now * b.tokensPerInterval) :=
        h.tokens
      rw [h.capacity, h.tokensPerInterval, before, passed, Nat.add_mul, Nat.one_mul]
      omega
    · show e.due + e.interval = b.lastRefill + b.steps (e.now + 1) * b.interval + b.interval
      have before : e.due = b.lastRefill + b.steps e.now * b.interval + b.interval := h.due
      rw [h.interval, before, passed, Nat.add_mul, Nat.one_mul]
      omega
  · have passed : b.steps (e.now + 1) = b.steps e.now := by
      rw [next, if_neg fun same => due (same.trans h.due.symm)]
    have same : b.refill (e.now + 1) = b.refill e.now := by
      simp only [refill, passed]
    rw [TimedBucket.tick, if_neg due]
    refine ⟨h.capacity, h.tokensPerInterval, h.interval, Nat.le_succ_of_le h.lastRefill_le, ?_, ?_⟩
    · show e.tokens = (b.refill (e.now + 1)).tokens
      rw [same, h.tokens]
    · show e.due = (b.refill (e.now + 1)).due
      rw [same, h.due]

theorem passing (h : b.Mirrors e) (ms : Nat) :
    b.Mirrors (e.passing ms) ∧ (e.passing ms).now = e.now + ms := by
  induction ms generalizing e with
  | zero => exact ⟨h, rfl⟩
  | succ ms ih =>
    have tick : e.tick.now = e.now + 1 := by
      unfold TimedBucket.tick
      split <;> rfl
    obtain ⟨mirrors, now⟩ := ih h.tick
    exact ⟨mirrors, by rw [TimedBucket.passing, now, tick]; omega⟩

/-- A bucket that was just refilled mirrors the timed one as it stands. -/
theorem refill (h : b.Mirrors e) : (b.refill e.now).Mirrors e := by
  have still : (b.refill e.now).refill e.now = b.refill e.now :=
    refill_of_lt (b.lt_due_refill e.now)
  refine ⟨h.capacity, h.tokensPerInterval, h.interval, ?_, ?_, ?_⟩
  · have := b.lastRefill_refill_le e.now
    have := h.lastRefill_le
    omega
  · rw [still, h.tokens]
  · rw [still, h.due]

theorem spend (h : b.Mirrors e) (n : Nat) :
    ((b.refill e.now).spend n).Mirrors { e with tokens := e.tokens - n } := by
  have still : ((b.refill e.now).spend n).refill e.now = (b.refill e.now).spend n :=
    refill_of_lt (b.lt_due_refill e.now)
  refine ⟨h.capacity, h.tokensPerInterval, h.interval, h.refill.lastRefill_le, ?_, ?_⟩
  · show e.tokens - n = (((b.refill e.now).spend n).refill e.now).tokens
    rw [still, spend_tokens, h.tokens]
  · show e.due = (((b.refill e.now).spend n).refill e.now).due
    rw [still, spend_due, h.due]

/-- The timer is due after one interval at most, and that is told if 64 bits can hold the sum. -/
theorem nextRefill_eq (h : b.Mirrors e) (fits : e.now + b.interval < UInt64.size) :
    (b.refill e.now).nextRefill = e.due := by
  have last := b.lastRefill_refill_le e.now
  rw [Nat.max_eq_right h.lastRefill_le] at last
  rw [h.due]
  exact nextRefill_of_fits (Nat.lt_of_le_of_lt (Nat.add_le_add_right last _) fits)

theorem demand (h : b.Mirrors e) (fits : e.now + b.interval < UInt64.size) (n : Nat) :
    (e.demand n).1 = .ofResult (b.take e.now n).1 ∧
      (b.take e.now n).2.Mirrors (e.demand n).2 ∧
      (b.take e.now n).1.isOk = decide (n ≤ e.tokens) := by
  by_cases enough : n ≤ e.tokens
  · rw [TimedBucket.demand, if_pos enough, take_of_le (h.tokens ▸ enough)]
    exact ⟨rfl, h.spend n, (decide_eq_true enough).symm⟩
  · have short : (b.refill e.now).tokens < n := by rw [← h.tokens]; exact Nat.not_le.1 enough
    rw [TimedBucket.demand, if_neg enough, take_of_lt short, ← h.tokens, h.nextRefill_eq fits]
    exact ⟨rfl, h.refill, (decide_eq_false enough).symm⟩

theorem ask (h : b.Mirrors e) {now : Nat} (later : e.now ≤ now)
    (fits : now + b.interval < UInt64.size) (call : BucketCall) :
    (b.ask now call).1 = (e.ask now call).1 ∧ (b.ask now call).2.Mirrors (e.ask now call).2 ∧
      (e.ask now call).2.now = now := by
  obtain ⟨mirrors, arrived⟩ := h.passing (now - e.now)
  rw [Nat.add_sub_cancel' later] at arrived
  have stays : ∀ n, ((e.passing (now - e.now)).demand n).2.now = now := fun n => by
    unfold TimedBucket.demand
    split <;> exact arrived
  unfold TimedBucket.ask
  generalize e.passing (now - e.now) = f at mirrors arrived stays
  subst arrived
  have next := mirrors.nextRefill_eq fits
  cases call with
  | take n =>
    obtain ⟨answer, mirrors, -⟩ := mirrors.demand fits n
    exact ⟨answer.symm, mirrors, stays n⟩
  | tryTake n =>
    obtain ⟨-, mirrors, took⟩ := mirrors.demand fits n
    exact ⟨congrArg BucketAnswer.success took, mirrors, stays n⟩
  | tokens => exact ⟨congrArg BucketAnswer.tokens mirrors.tokens.symm, mirrors.refill, rfl⟩
  | nextTime => exact ⟨congrArg BucketAnswer.time next, mirrors.refill, rfl⟩
  | nextIn =>
    exact ⟨congrArg (fun due => BucketAnswer.wait (due - f.now)) next, mirrors.refill, rfl⟩

theorem answers (h : b.Mirrors e) (calls : List (Nat × BucketCall))
    (ordered : (e.now :: calls.map Prod.fst).Pairwise (· ≤ ·))
    (fits : ∀ call ∈ calls, call.1 + b.interval < UInt64.size) :
    answers Bucket.ask b calls = answers TimedBucket.ask e calls := by
  induction calls generalizing b e with
  | nil => rfl
  | cons head calls ih =>
    obtain ⟨now, call⟩ := head
    obtain ⟨first, rest⟩ := List.pairwise_cons.1 ordered
    obtain ⟨here, later⟩ := List.forall_mem_cons.1 fits
    obtain ⟨same, mirrors, arrived⟩ := h.ask (first now (List.mem_cons_self ..)) here call
    simp only [LeagueSync.answers, same]
    rw [ih mirrors (arrived.symm ▸ rest) ((b.ask_interval now call).symm ▸ later)]

end Mirrors
end Bucket

def unmarked {α : Type} : List Bool → List α → List α
  | [], xs => xs
  | _, [] => []
  | true :: marks, _ :: xs => unmarked marks xs
  | false :: marks, x :: xs => x :: unmarked marks xs

/-- Marked calls that only look leave no trace in the other answers. All calls are put to `d`, and
those without a mark to `b`: from the time `seen` on the two cannot be told apart. -/
theorem Bucket.answers_unmarked {b d : Bucket} {seen : Nat}
    (agree : ∀ t, seen ≤ t → ∀ call, d.ask t call = b.ask t call) (marks : List Bool)
    (calls : List (Nat × BucketCall)) (ordered : (seen :: calls.map Prod.fst).Pairwise (· ≤ ·))
    (look : ∀ call answer, (true, call, answer) ∈ marks.zip (calls.zip (answers ask d calls)) →
      call.2.observes answer = true) :
    answers ask b (unmarked marks calls) = unmarked marks (answers ask d calls) := by
  induction calls generalizing b d seen marks with
  | nil => cases marks <;> rfl
  | cons head calls ih =>
    obtain ⟨now, call⟩ := head
    obtain ⟨first, rest⟩ := List.pairwise_cons.1 ordered
    have same : d.ask now call = b.ask now call := agree now (first now (List.mem_cons_self ..)) call
    simp only [answers] at look ⊢
    cases marks with
    | nil => simp only [unmarked, answers, same]
    | cons mark marks =>
      cases mark with
      | false =>
        simp only [unmarked, answers, same] at look ⊢
        rw [ih (fun _ _ _ => rfl) marks rest fun c a marked =>
          look c a (List.mem_cons_of_mem _ marked)]
      | true =>
        have looked : (d.ask now call).2 = d.refill now :=
          ask_of_observes (look (now, call) _ (List.mem_cons_self ..))
        simp only [unmarked]
        refine ih (fun t later c => ?_) marks rest fun c a marked =>
          look c a (List.mem_cons_of_mem _ marked)
        rw [looked, d.ask_refill later]
        exact agree t (Nat.le_trans (first now (List.mem_cons_self ..)) later) c

/-- A bucket that makes up for missed steps when it is asked gives the same answers as one that a
timer refills at every instant `start + k * interval`, as long as no time of a call and an interval
add up to more than 64 bits hold; and calls that only look, wherever and however many there are,
change no other answer. -/
theorem answers_eq_timed (c : RateLimitConfig) (start : Nat) (calls : List (Nat × BucketCall))
    (ordered : (start :: calls.map Prod.fst).Pairwise (· ≤ ·)) :
    ((∀ call ∈ calls, call.1 + max 1 c.intervalMs.toNat < UInt64.size) →
        answers Bucket.ask (.full c start) calls = answers TimedBucket.ask (.full c start) calls) ∧
      ∀ marks : List Bool,
        (∀ call answer, (true, call, answer) ∈
            marks.zip (calls.zip (answers Bucket.ask (.full c start) calls)) →
          call.2.observes answer = true) →
        answers Bucket.ask (.full c start) (unmarked marks calls) =
          unmarked marks (answers Bucket.ask (.full c start) calls) :=
  ⟨(Bucket.mirrors_full c start).answers calls ordered, fun marks look =>
    Bucket.answers_unmarked (fun _ _ _ => rfl) marks calls ordered look⟩

/-- Three tokens, two more every four milliseconds from time 5: a demand is refused at 8 and met at
9, and without the looks at 7, 8 and 12 the demands are answered the same. -/
theorem answers_eq_timed_refused_then_met :
    let c : RateLimitConfig := { capacity := 3, tokensPerInterval := 2, intervalMs := 4 }
    let calls := [(5, .take 2), (7, .nextIn), (8, .tryTake 2), (9, .tryTake 3), (12, .tokens),
      (12, .take 1), (14, .nextTime)]
    (5 :: calls.map Prod.fst).Pairwise (· ≤ ·) ∧
      answers Bucket.ask (.full c 5) calls = [.granted, .wait 2, .success false, .success true,
        .tokens 0, .refused ⟨0, 1⟩, .time 17] ∧
      answers TimedBucket.ask (.full c 5) calls = answers Bucket.ask (.full c 5) calls ∧
      answers Bucket.ask (.full c 5) [(5, .take 2), (9, .tryTake 3), (12, .take 1), (14, .nextTime)] =
        [.granted, .success true, .refused ⟨0, 1⟩, .time 17] := by
  intro c calls
  obtain ⟨same, alone⟩ := answers_eq_timed c 5 calls (by decide)
  let marks := [false, true, true, false, true, false]
  have look : ∀ x ∈ marks.zip (calls.zip (answers Bucket.ask (.full c 5) calls)),
      x.1 = true → x.2.1.2.observes x.2.2 = true := by decide
  refine ⟨by decide, by decide, (same (by decide)).symm, (alone marks ?_).trans (by decide)⟩
  intro call answer marked
  exact look (true, call, answer) marked rfl

end LeagueSync
