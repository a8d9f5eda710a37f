import LeagueSync.Proofs.TokenAccount

/-!
# LeagueSync.Proofs.RefusalHint

What a refusal promises. A bucket that has too few tokens says how many it has and when more come,
and both hold good until then: up to that moment it is as it was, and at that moment the tokens of
one interval are in it. That moment must be one that 64 bits can hold, and nobody may have looked at
the bucket at a later one before.

* `Bucket.add_nextIn_of_take_eq_error`: the moment that a refusal names.
* `Bucket.useAll_of_lt`: before the next step, uses that are given nothing change nothing.
* `Bucket.tokens_refill_due`: what one step brings.
* `refusal_exact`: who was refused hears exactly how long and for how much to wait.
* `refusal_hint_wrong`: a hint that wrapped around, and one that came too late.
-/

namespace LeagueSync
namespace Bucket

variable {b d : Bucket} {now n : Nat} {refusal : Refusal}

/-- The moment that a refusal names is that of the next step, if 64 bits can hold it. -/
theorem add_nextIn_of_take_eq_error (h : b.take now n = (.error refusal, d))
    (fits : d.due < UInt64.size) : now + refusal.nextIn = d.due := by
  have ahead := lt_due_of_take_eq_error h
  obtain ⟨-, -, rfl⟩ := take_eq_error h
  show now + (d.nextRefill - now) = d.due
  rw [nextRefill_of_fits fits, Nat.add_sub_cancel' (Nat.le_of_lt ahead)]

/-- Before the next step, a use that is given nothing leaves the bucket as it is. -/
theorem use_of_lt {u : BucketUse} (early : now < b.due) (none : (b.use now u).1 = 0) :
    (b.use now u).2 = b := by
  have still := refill_of_lt early
  cases u with
  | look => rfl
  | ask call =>
    rcases b.ask_cases now call with ⟨-, -, same⟩ | ⟨-, -, taken⟩
    · exact same.trans still
    · have none : call.granted (b.ask now call).1 = 0 := none
      rw [none, still] at taken
      exact taken

theorem useAll_of_lt {uses : List (Nat × BucketUse)} (early : ∀ u ∈ uses, u.1 < b.due)
    (none : (b.useAll uses).1 = 0) : (b.useAll uses).2 = b := by
  induction uses with
  | nil => rfl
  | cons head uses ih =>
    obtain ⟨now, u⟩ := head
    obtain ⟨first, later⟩ := List.forall_mem_cons.1 early
    obtain ⟨nothing, rest⟩ := Nat.add_eq_zero_iff.1 none
    have same : (b.use now u).2 = b := use_of_lt first nothing
    have rest : ((b.use now u).2.useAll uses).1 = 0 := rest
    show ((b.use now u).2.useAll uses).2 = b
    rw [same] at rest ⊢
    exact ih later rest

theorem steps_due (b : Bucket) : b.steps b.due = 1 := by
  rw [steps, due, Nat.add_sub_cancel_left, Nat.div_self b.interval_pos]

theorem tokens_refill_due (b : Bucket) :
    (b.refill b.due).tokens = min b.capacity (b.tokens + b.tokensPerInterval) := by
  show min b.capacity (b.tokens + b.steps b.due * b.tokensPerInterval) = _
  rw [steps_due, Nat.one_mul]

/-- The next step is no further away than one interval, unless the clock was turned back. -/
theorem due_refill_le (h : b.lastRefill ≤ now) :
    (b.refill now).due ≤ now + b.interval := by
  have last := b.lastRefill_refill_le now
  rw [Nat.max_eq_right h] at last
  exact Nat.add_le_add_right last b.interval

theorem take_ok_iff (b : Bucket) (now n : Nat) :
    (b.take now n).1 = .ok () ↔ n ≤ (b.refill now).tokens := by
  by_cases enough : n ≤ (b.refill now).tokens
  · rw [take_of_le enough]
    exact ⟨fun _ => enough, fun _ => rfl⟩
  · rw [take_of_lt (Nat.not_le.1 enough)]
    exact ⟨fun ok => by simp at ok, fun n_le => absurd n_le enough⟩

end Bucket

/-- No reading of the clock is later than `now` if none of the start and of the uses is. -/
theorem readings_le {uses : List (Nat × BucketUse)} {start now : Nat} (started : start ≤ now)
    (past : ∀ u ∈ uses, u.1 ≤ now) : (uses.map Prod.fst).foldl max start ≤ now := by
  induction uses generalizing start with
  | nil => exact started
  | cons u uses ih =>
    obtain ⟨here, later⟩ := List.forall_mem_cons.1 past
    exact ih (Nat.max_le.2 ⟨started, here⟩) later

/-- A demand on a bucket, as any uses may have left it, is refused, and the time of the next step is
one that 64 bits can hold: the wait is never nothing, and the tokens are those that the bucket has,
too few for the demand. As long as nothing is given and nobody reads a later time from the clock,
more than these are refused at every moment before the wait is over, and the bucket keeps them; once
it is over, the tokens of one interval have come in, as far as there is room for them, and so the
bucket gives a token. Unless the clock was turned back the wait is one interval at most. -/
theorem refusal_exact (c : RateLimitConfig) (capacity : 1 ≤ c.capacity.toNat)
    (gain : 1 ≤ c.tokensPerInterval.toNat) (start : Nat) (earlier : List (Nat × BucketUse))
    (now n : Nat) (refusal : Refusal) (d : Bucket)
    (refused : ((Bucket.full c start).useAll earlier).2.take now n = (.error refusal, d))
    (fits : d.due < UInt64.size) :
    let b := ((Bucket.full c start).useAll earlier).2
    let r := refusal.remaining
    let w := refusal.nextIn
    0 < w ∧ (b.ask now .tokens).1 = .tokens r ∧ d.tokens = r ∧ r < n ∧
      (∀ uses, (∀ u ∈ uses, u.1 < now + w) → (d.useAll uses).1 = 0 →
        let e := (d.useAll uses).2
        (∀ s m, s < now + w → r < m → e.take s m = (.error ⟨r, now + w - s⟩, e)) ∧
          e.tokens = r ∧
          (e.ask (now + w) .tokens).1 =
            .tokens (min c.capacity.toNat (r + c.tokensPerInterval.toNat)) ∧
          (e.take (now + w) 1).1 = .ok ()) ∧
      (start ≤ now → (∀ u ∈ earlier, u.1 ≤ now) → w ≤ max 1 c.intervalMs.toNat) := by
  intro b r w
  have account := (Bucket.account_full c start).useAll earlier
  have ahead := Bucket.lt_due_of_take_eq_error refused
  have moment : now + w = d.due := Bucket.add_nextIn_of_take_eq_error refused fits
  obtain ⟨refilled, short, told⟩ := Bucket.take_eq_error refused
  have tokens : d.tokens = r := by
    show d.tokens = refusal.remaining
    rw [told]
  have capacity_eq : d.capacity = c.capacity.toNat := by rw [refilled]; exact account.capacity
  have gain_eq : d.tokensPerInterval = c.tokensPerInterval.toNat := by
    rw [refilled]
    exact account.tokensPerInterval
  refine ⟨by omega, ?_, tokens, tokens ▸ short, fun uses early none => ?_, fun started past => ?_⟩
  · show BucketAnswer.tokens (b.refill now).tokens = .tokens r
    rw [← tokens, refilled]
  · rw [moment] at early ⊢
    rw [Bucket.useAll_of_lt early none]
    have gained := d.tokens_refill_due
    rw [capacity_eq, gain_eq, tokens] at gained
    refine ⟨fun s m before more => ?_, tokens, congrArg BucketAnswer.tokens gained, ?_⟩
    · have still : d.refill s = d := Bucket.refill_of_lt before
      have few : (d.refill s).tokens < m := by rw [still, tokens]; exact more
      rw [Bucket.take_of_lt few, still, tokens, Bucket.nextRefill_of_fits fits]
    · rw [Bucket.take_ok_iff, gained]
      omega
  · have last := Nat.le_trans account.lastRefill_le (readings_le started past)
    have near := Bucket.due_refill_le last
    rw [account.interval, ← refilled] at near
    omega

/-- Three tokens, two more every four milliseconds from time 5. At 14 three are demanded, of two
that there are, and the wait is three milliseconds. A question and a demand that is refused, with an
older reading of the clock, change nothing in the meantime. -/
theorem refusal_exact_between :
    let c : RateLimitConfig := { capacity := 3, tokensPerInterval := 2, intervalMs := 4 }
    let earlier := [(5, .ask (.take 3)), (9, .ask (.tryTake 2)), (13, .look)]
    let d : Bucket := ⟨3, 2, 4, 2, 13, by decide, by decide⟩
    let uses := [(14, .ask .nextTime), (13, .ask (.take 3)), (16, .ask (.take 0))]
    ((Bucket.full c 5).useAll earlier).2.take 14 3 = (.error ⟨2, 3⟩, d) ∧
      (d.useAll uses).1 = 0 ∧ (d.useAll uses).2.take 16 3 = (.error ⟨2, 1⟩, (d.useAll uses).2) ∧
      ((d.useAll uses).2.ask 17 .tokens).1 = .tokens 3 ∧
      ((d.useAll uses).2.take 17 1).1 = .ok () ∧ 3 ≤ max 1 c.intervalMs.toNat := by
  intro c earlier d uses
  have left : ((Bucket.full c 5).useAll earlier).2 = ⟨3, 2, 4, 0, 9, by decide, by decide⟩ := by
    decide
  have refused : ((Bucket.full c 5).useAll earlier).2.take 14 3 = (.error ⟨2, 3⟩, d) := by
    rw [left]
    rfl
  obtain ⟨-, -, -, -, until_then, near⟩ :=
    refusal_exact c (by decide) (by decide) 5 earlier 14 3 ⟨2, 3⟩ d refused (by decide)
  have none : (d.useAll uses).1 = 0 := by decide
  have early : ∀ u ∈ uses, u.1 < 17 := by decide
  have past : ∀ u ∈ earlier, u.1 ≤ 14 := by decide
  obtain ⟨still, -, gained, again⟩ := until_then uses early none
  exact ⟨refused, none, still 16 3 (by decide) (by decide), gained, again, near (by decide) past⟩

/-- A token every 2^64 - 1 milliseconds, and it was taken at 1: the next step is at 2^64, and a
demand at 1 is told of no wait at all. And a token every second, with room for ten, which were taken
at 0: a demand at 0 is told of a second, somebody looks at 5000, and at 1000, to which the clock was
turned back, there is not one token but five. -/
theorem refusal_hint_wrong :
    let rare : RateLimitConfig :=
      { capacity := 1, tokensPerInterval := 1, intervalMs := 18446744073709551615 }
    let b := ((Bucket.full rare 1).useAll [(1, .ask (.take 1))]).2
    let c : RateLimitConfig := { capacity := 10, tokensPerInterval := 1, intervalMs := 1000 }
    let d := ((Bucket.full c 0).useAll [(0, .ask (.take 10))]).2.ask 0 (.take 1)
    let e := d.2.useAll [(5000, .ask .tokens)]
    (b.ask 1 (.take 1)).1 = .refused ⟨0, 0⟩ ∧
      d.1 = .refused ⟨0, 1000⟩ ∧ e.1 = 0 ∧ (e.2.ask 1000 .tokens).1 = .tokens 5 ∧
      min c.capacity.toNat (0 + c.tokensPerInterval.toNat) = 1 := by
  decide

end LeagueSync
