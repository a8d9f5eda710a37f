import LeagueSync.Config.Basic

/-!
# LeagueSync.Throttle.Bucket

The token bucket that bounds how many requests are sent. Tokens come back in whole steps, a fixed
number after each interval. No timer runs: `Bucket.refill` applies the steps that have passed when
the bucket is next looked at, and keeps the phase of the intervals. Counts of tokens are whole
numbers: they never exceed the capacity, and a sum too large to be written exactly is cut to it.
Times are numbers of 64 bits. A refill only subtracts from times that have come, and so no sum of
it is too large; the time of the next step may be.

* `Bucket.lastRefill_le_refill`: the time of the last step never goes back.
* `Bucket.refill_of_lt`, `Bucket.lt_due_refill`: no step happens before the next one is due.
* `Bucket.refill_refill`: steps may be applied as they come or all at once.
* `Bucket.nextRefill_of_fits`: what is told is the time of the next step if 64 bits can hold it.
-/

namespace LeagueSync

/-- A token bucket. Times are in milliseconds. -/
structure Bucket where
  capacity : Nat
  tokensPerInterval : Nat
  interval : Nat
  tokens : Nat
  /-- When the last refill step happened. -/
  lastRefill : Nat
  interval_pos : 0 < interval
  tokens_le : tokens ≤ capacity
  deriving DecidableEq

/-- What a bucket that has too few tokens says. -/
structure Refusal where
  remaining : Nat
  /-- Milliseconds to the next refill step. -/
  nextIn : Nat
  deriving DecidableEq, Repr

namespace Bucket

def full (c : RateLimitConfig) (now : Nat) : Bucket where
  capacity := c.capacity.toNat
  tokensPerInterval := c.tokensPerInterval.toNat
  interval := max 1 c.intervalMs.toNat
  tokens := c.capacity.toNat
  lastRefill := now
  interval_pos := by omega
  tokens_le := Nat.le_refl _

/-- The whole steps that have passed since the last one. A clock that went back passes none. -/
def steps (b : Bucket) (now : Nat) : Nat :=
  (now - b.lastRefill) / b.interval

def refill (b : Bucket) (now : Nat) : Bucket :=
  { b with
    tokens := min b.capacity (b.tokens + b.steps now * b.tokensPerInterval)
    lastRefill := b.lastRefill + b.steps now * b.interval
    tokens_le := Nat.min_le_left _ _ }

/-- When the next step happens. -/
def due (b : Bucket) : Nat :=
  b.lastRefill + b.interval

/-- The time that is told of the next step: the sum in 64 bits, which wraps around. -/
def nextRefill (b : Bucket) : Nat :=
  b.due % UInt64.size

def spend (b : Bucket) (n : Nat) : Bucket :=
  { b with tokens := b.tokens - n, tokens_le := Nat.le_trans (Nat.sub_le _ _) b.tokens_le }

/-- Takes `n` tokens, or says how many there are and when more come. The steps that have passed are
applied either way. -/
def take (b : Bucket) (now n : Nat) : Except Refusal Unit × Bucket :=
  let b := b.refill now
  if n ≤ b.tokens then (.ok (), b.spend n)
  else (.error ⟨b.tokens, b.nextRefill - now⟩, b)

@[simp] theorem refill_interval (b : Bucket) (now : Nat) :
    (b.refill now).interval = b.interval := rfl

@[simp] theorem spend_interval (b : Bucket) (n : Nat) : (b.spend n).interval = b.interval := rfl

@[simp] theorem spend_tokens (b : Bucket) (n : Nat) : (b.spend n).tokens = b.tokens - n := rfl

@[simp] theorem spend_lastRefill (b : Bucket) (n : Nat) :
    (b.spend n).lastRefill = b.lastRefill := rfl

@[simp] theorem spend_due (b : Bucket) (n : Nat) : (b.spend n).due = b.due := rfl

theorem lastRefill_le_refill (b : Bucket) (now : Nat) :
    b.lastRefill ≤ (b.refill now).lastRefill :=
  Nat.le_add_right _ _

theorem take_of_le {b : Bucket} {now n : Nat} (h : n ≤ (b.refill now).tokens) :
    b.take now n = (.ok (), (b.refill now).spend n) := if_pos h

theorem take_of_lt {b : Bucket} {now n : Nat} (h : (b.refill now).tokens < n) :
    b.take now n =
      (.error ⟨(b.refill now).tokens, (b.refill now).nextRefill - now⟩, b.refill now) :=
  if_neg (Nat.not_le.2 h)

theorem lastRefill_refill (b : Bucket) (now : Nat) :
    (b.refill now).lastRefill =
      b.lastRefill + (now - b.lastRefill) / b.interval * b.interval := rfl

theorem nextRefill_of_fits {b : Bucket} (fits : b.due < UInt64.size) : b.nextRefill = b.due :=
  Nat.mod_eq_of_lt fits

theorem nextRefill_le (b : Bucket) : b.nextRefill ≤ b.due :=
  Nat.mod_le _ _

theorem steps_eq_zero_iff (b : Bucket) (now : Nat) : b.steps now = 0 ↔ now < b.due := by
  have pos := b.interval_pos
  rw [steps, Nat.div_eq_zero_iff_lt pos, due]
  omega

theorem refill_of_lt {b : Bucket} {now : Nat} (h : now < b.due) : b.refill now = b := by
  have none : b.steps now = 0 := (b.steps_eq_zero_iff now).2 h
  have full := Nat.min_eq_right b.tokens_le
  cases b
  simp_all [refill]

theorem lt_due_refill (b : Bucket) (now : Nat) : now < (b.refill now).due := by
  have rest := Nat.mod_lt (now - b.lastRefill) b.interval_pos
  have split := Nat.div_add_mod' (now - b.lastRefill) b.interval
  rw [due, lastRefill_refill, refill_interval]
  omega

/-- A refusal tells the tokens and the next step of the refilled bucket. -/
theorem take_eq_error {b d : Bucket} {now n : Nat} {refusal : Refusal}
    (h : b.take now n = (.error refusal, d)) :
    d = b.refill now ∧ d.tokens < n ∧ refusal = ⟨d.tokens, d.nextRefill - now⟩ := by
  by_cases enough : n ≤ (b.refill now).tokens
  · rw [take_of_le enough] at h
    cases h
  · have short := Nat.not_le.1 enough
    rw [take_of_lt short] at h
    cases h
    exact ⟨rfl, short, rfl⟩

/-- Who is refused is before the next step. -/
theorem lt_due_of_take_eq_error {b d : Bucket} {now n : Nat} {refusal : Refusal}
    (h : b.take now n = (.error refusal, d)) : now < d.due := by
  obtain ⟨rfl, -⟩ := take_eq_error h
  exact b.lt_due_refill now

theorem lastRefill_refill_le (b : Bucket) (now : Nat) :
    (b.refill now).lastRefill ≤ max b.lastRefill now := by
  have whole := Nat.div_mul_le_self (now - b.lastRefill) b.interval
  rw [lastRefill_refill]
  omega

/-- A refill on the way to a later one changes nothing: steps may be applied as they come or all at
once. -/
theorem refill_refill (b : Bucket) {s t : Nat} (h : s ≤ t) :
    (b.refill s).refill t = b.refill t := by
  have passed : (b.refill s).steps t = b.steps t - b.steps s := by
    rw [steps, lastRefill_refill, refill_interval, ← Nat.sub_sub, Nat.mul_comm _ b.interval,
      Nat.sub_mul_div]
    rfl
  have fewer : b.steps s ≤ b.steps t := Nat.div_le_div_right (by omega)
  have total : ∀ n, b.steps s * n + (b.steps t - b.steps s) * n = b.steps t * n := fun n => by
    rw [← Nat.add_mul, Nat.add_sub_cancel' fewer]
  have tokens := total b.tokensPerInterval
  have time := total b.interval
  unfold refill at passed ⊢
  simp only [passed, mk.injEq, true_and]
  omega

end Bucket
end LeagueSync
