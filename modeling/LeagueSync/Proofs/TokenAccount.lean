import LeagueSync.Throttle.Limiter

/-!
# LeagueSync.Proofs.TokenAccount

What a token bucket has given, whatever the clock does. Those who share a bucket read the clock
before it is their turn, so the reading of a use may be older than those before it; the theorems
below ask nothing of the readings.

* `Bucket.Account`: the invariant. The last step lies a whole number of intervals after the start,
  and what was given and what is left come to no more than the first filling and those steps.
* `Bucket.Account.use`: one use keeps it; `Bucket.Account.useAll`: so does any number of them.
* `useAll_accounted`: the account of a bucket that was full at its start.
-/

namespace LeagueSync
namespace Bucket

/-- The account of a bucket that was full at `start`: `given` tokens were taken from it, and `seen`
is the latest clock reading so far. -/
structure Account (c : RateLimitConfig) (start given seen : Nat) (b : Bucket) : Prop where
  capacity : b.capacity = c.capacity.toNat
  tokensPerInterval : b.tokensPerInterval = c.tokensPerInterval.toNat
  interval : b.interval = max 1 c.intervalMs.toNat
  lastRefill_le : b.lastRefill ≤ seen
  balance : ∃ steps, b.lastRefill = start + steps * b.interval ∧
    given + b.tokens ≤ b.capacity + b.tokensPerInterval * steps

theorem account_full (c : RateLimitConfig) (start : Nat) :
    Account c start 0 start (full c start) := by
  refine ⟨rfl, rfl, rfl, Nat.le_refl _, 0, ?_, ?_⟩
  · rw [Nat.zero_mul]
    rfl
  · rw [Nat.zero_add]
    exact Nat.le_refl _

namespace Account

variable {c : RateLimitConfig} {start given seen : Nat} {b : Bucket}

theorem refill (h : Account c start given seen b) (now : Nat) :
    Account c start given (max seen now) (b.refill now) := by
  obtain ⟨steps, last, balance⟩ := h.balance
  refine ⟨h.capacity, h.tokensPerInterval, h.interval, ?_, steps + b.steps now, ?_, ?_⟩
  · have := b.lastRefill_refill_le now
    have := h.lastRefill_le
    omega
  · show b.lastRefill + b.steps now * b.interval = start + (steps + b.steps now) * b.interval
    rw [last, Nat.add_mul, Nat.add_assoc]
  · show given + min b.capacity (b.tokens + b.steps now * b.tokensPerInterval) ≤
      b.capacity + b.tokensPerInterval * (steps + b.steps now)
    rw [Nat.mul_add, Nat.mul_comm (b.steps now)]
    omega

/-- Tokens that are taken move from what is left to what was given. -/
theorem spend (h : Account c start given seen b) {n : Nat} (enough : n ≤ b.tokens) :
    Account c start (given + n) seen (b.spend n) := by
  obtain ⟨steps, last, balance⟩ := h.balance
  refine ⟨h.capacity, h.tokensPerInterval, h.interval, h.lastRefill_le, steps, last, ?_⟩
  rw [spend_tokens]
  show given + n + (b.tokens - n) ≤ b.capacity + b.tokensPerInterval * steps
  omega

theorem use (h : Account c start given seen b) (now : Nat) (u : BucketUse) :
    Account c start (given + (b.use now u).1) (max seen now) (b.use now u).2 := by
  cases u with
  | look =>
    exact ⟨h.capacity, h.tokensPerInterval, h.interval,
      Nat.le_trans h.lastRefill_le (Nat.le_max_left ..), h.balance⟩
  | ask call =>
    show Account c start (given + call.granted (b.ask now call).1) (max seen now) (b.ask now call).2
    rcases b.ask_cases now call with ⟨-, none, same⟩ | ⟨-, enough, taken⟩
    · rw [none, same]
      exact h.refill now
    · rw [taken]
      exact (h.refill now).spend enough

theorem useAll (h : Account c start given seen b) (uses : List (Nat × BucketUse)) :
    Account c start (given + (b.useAll uses).1) ((uses.map Prod.fst).foldl max seen)
      (b.useAll uses).2 := by
  induction uses generalizing given seen b with
  | nil => exact h
  | cons head uses ih =>
    obtain ⟨now, u⟩ := head
    have rest := ih (h.use now u)
    rw [Nat.add_assoc] at rest
    exact rest

/-- How many steps there were can be read off the time of the last one. -/
theorem given_add_tokens_le (h : Account c start given seen b) :
    given + b.tokens ≤
      b.capacity + b.tokensPerInterval * ((b.lastRefill - start) / b.interval) := by
  obtain ⟨steps, last, balance⟩ := h.balance
  rw [last, Nat.add_sub_cancel_left, Nat.mul_div_cancel _ b.interval_pos]
  exact balance

theorem lastRefill_mod (h : Account c start given seen b) :
    start ≤ b.lastRefill ∧ b.lastRefill % b.interval = start % b.interval := by
  obtain ⟨steps, last, -⟩ := h.balance
  rw [last]
  exact ⟨Nat.le_add_right .., Nat.add_mul_mod_self_right ..⟩

end Account

theorem lastRefill_le_use (b : Bucket) (now : Nat) (u : BucketUse) :
    b.lastRefill ≤ (b.use now u).2.lastRefill := by
  cases u with
  | look => exact Nat.le_refl _
  | ask call =>
    show b.lastRefill ≤ (b.ask now call).2.lastRefill
    rcases b.ask_cases now call with ⟨-, -, same⟩ | ⟨-, -, taken⟩
    · rw [same]
      exact b.lastRefill_le_refill now
    · rw [taken, spend_lastRefill]
      exact b.lastRefill_le_refill now

theorem lastRefill_le_useAll (b : Bucket) (uses : List (Nat × BucketUse)) :
    b.lastRefill ≤ (b.useAll uses).2.lastRefill := by
  induction uses generalizing b with
  | nil => exact Nat.le_refl _
  | cons head uses ih => exact Nat.le_trans (b.lastRefill_le_use head.1 head.2) (ih _)

end Bucket

/-- After any uses of a bucket at any clock readings: the tokens are within the capacity; the time
of the last step is no later than the latest reading, keeps the phase of the start and never goes
back; all tokens given so far and those left come to no more than the capacity and what the steps
brought; and a demand that is refused gives nothing and does no more than a refill. -/
theorem useAll_accounted (c : RateLimitConfig) (start : Nat) (uses : List (Nat × BucketUse)) :
    let given := ((Bucket.full c start).useAll uses).1
    let b := ((Bucket.full c start).useAll uses).2
    let interval := max 1 c.intervalMs.toNat
    b.tokens ≤ c.capacity.toNat ∧
      start ≤ b.lastRefill ∧
      b.lastRefill ≤ (uses.map Prod.fst).foldl max start ∧
      b.lastRefill % interval = start % interval ∧
      given + b.tokens ≤
        c.capacity.toNat + c.tokensPerInterval.toNat * ((b.lastRefill - start) / interval) ∧
      (∀ more, b.lastRefill ≤ (b.useAll more).2.lastRefill) ∧
      ∀ now call, call.observes (b.ask now call).1 = true →
        b.use now (.ask call) = (0, b.refill now) := by
  intro given b interval
  have account : Bucket.Account c start given ((uses.map Prod.fst).foldl max start) b := by
    have := (Bucket.account_full c start).useAll uses
    rw [Nat.zero_add] at this
    exact this
  obtain ⟨started, phase⟩ := account.lastRefill_mod
  have total := account.given_add_tokens_le
  rw [account.interval] at phase total
  rw [account.capacity, account.tokensPerInterval] at total
  exact ⟨account.capacity ▸ b.tokens_le, started, account.lastRefill_le, phase, total,
    b.lastRefill_le_useAll, fun _ _ looked => Bucket.use_of_observes looked⟩

/-- Three tokens, two more every four milliseconds from time 5. The readings go back from 14 to 6
and from 18 to 2; seven tokens are given, and a demand for one more at 3 is refused. -/
theorem useAll_accounted_backwards :
    let c : RateLimitConfig := { capacity := 3, tokensPerInterval := 2, intervalMs := 4 }
    let uses := [(5, .ask (.take 2)), (14, .ask (.tryTake 3)), (6, .ask .nextIn), (18, .look),
      (18, .ask (.take 2)), (2, .ask (.take 1))]
    let given := ((Bucket.full c 5).useAll uses).1
    let b := ((Bucket.full c 5).useAll uses).2
    given = 7 ∧ b.tokens = 0 ∧ b.lastRefill = 17 ∧
      given + b.tokens ≤ c.capacity.toNat +
        c.tokensPerInterval.toNat * ((b.lastRefill - 5) / max 1 c.intervalMs.toNat) ∧
      (BucketCall.take 1).observes (b.ask 3 (.take 1)).1 = true ∧
      b.use 3 (.ask (.take 1)) = (0, b.refill 3) := by
  intro c uses given b
  obtain ⟨-, -, -, -, total, -, refused⟩ := useAll_accounted c 5 uses
  have looked : (BucketCall.take 1).observes (b.ask 3 (.take 1)).1 = true := by decide
  exact ⟨by decide, by decide, by decide, total, looked, refused 3 (.take 1) looked⟩

end LeagueSync
