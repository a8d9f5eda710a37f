import LeagueSync.Proofs.RetryCourse
import LeagueSync.Time.Sleep
import Mathlib.Algebra.BigOperators.Intervals
import Mathlib.Algebra.Group.Action.Defs
import Mathlib.Algebra.Order.BigOperators.Group.Finset
import Mathlib.Order.Lattice.Nat

/-!
# LeagueSync.Proofs.RetryWaits

How long a run of repeated attempts waits. The wait doubles from attempt to attempt, up to a
ceiling; the doublings are counted in a word of 32 bits, and with the 33rd attempt, when the word
is full, the wait is at the ceiling at once. That is where it belongs unless the ceiling is more
than 2^32 times the first wait, as it is whenever there is no first wait.

* `Policy.backoffByRoute_eq`: the wait by way of a power and a product that may be too large.
* `Policy.backoff_eq_exact_iff`: when the wait is the exact product under the ceiling.
* `Policy.not_backoff_eq_exact`: a wait of nothing that is doubled to the ceiling.
* `Policy.backoff_mono`, `Policy.wait_eq_leastWait`, `Policy.leastWait_le`: bounds on a single wait.
* `Policy.waits_bounded`: each wait of a run, and all of them together.
-/

namespace LeagueSync

/-- The milliseconds of the longest duration, whose seconds fill a word of 64 bits. -/
def longestDuration : Nat := 2 ^ 64 * 1000 - 1

namespace Policy

/-! ## The doubled wait -/

/-- Two to this power, in a word of 32 bits. -/
def power? (n : Nat) : Option Nat :=
  if 2 ^ n < 2 ^ 32 then some (2 ^ n) else none

/-- So many times a duration, if there is one as long as that. -/
def times? (ms factor : Nat) : Option Nat :=
  if ms * factor ≤ longestDuration then some (ms * factor) else none

/-- The wait as a product under the ceiling, or the ceiling if the power or the product is too large
to be written. -/
def backoffByRoute (p : Policy) (attempt : Nat) : Nat :=
  (((power? (attempt - 1)).bind (times? p.baseDelay)).map (min p.maxDelay)).getD p.maxDelay

theorem backoffByRoute_eq {p : Policy} (short : p.maxDelay ≤ longestDuration) (attempt : Nat) :
    p.backoffByRoute attempt = p.backoff attempt := by
  have counted : 2 ^ (attempt - 1) < 2 ^ 32 ↔ attempt - 1 < maxDoublings :=
    Nat.pow_lt_pow_iff_right (by decide)
  rw [backoffByRoute, backoff, power?]
  by_cases few : attempt - 1 < maxDoublings
  · rw [if_pos (counted.2 few), if_pos few, Option.bind_some, times?]
    by_cases fits : p.baseDelay * 2 ^ (attempt - 1) ≤ longestDuration
    · rw [if_pos fits]
      rfl
    · have long : p.maxDelay ≤ p.baseDelay * 2 ^ (attempt - 1) := by omega
      rw [if_neg fits]
      exact (Nat.min_eq_left long).symm
  · rw [if_neg (mt counted.1 few), if_neg few]
    rfl

/-- A policy that is configured waits as long as the exact product under the ceiling just for the
first 32 attempts and wherever that product has reached the ceiling; it never waits less, and never
more than the ceiling. -/
theorem backoff_eq_exact_iff (c : RetryConfig) (attempt : Nat) :
    let p := ofConfig c
    let product := c.baseDelayMs.toNat * 2 ^ (attempt - 1)
    p.backoff attempt = p.backoffByRoute attempt ∧
      (p.backoff attempt = min c.maxDelayMs.toNat product ↔
        attempt ≤ 32 ∨ c.maxDelayMs.toNat ≤ product) ∧
      min c.maxDelayMs.toNat product ≤ p.backoff attempt ∧
      p.backoff attempt ≤ c.maxDelayMs.toNat := by
  intro p product
  have bits : c.maxDelayMs.toNat < 2 ^ 64 := c.maxDelayMs.toNat_lt
  have short : p.maxDelay ≤ longestDuration := by
    show c.maxDelayMs.toNat ≤ 2 ^ 64 * 1000 - 1
    omega
  have step : p.backoff attempt =
      if attempt - 1 < 32 then min c.maxDelayMs.toNat product else c.maxDelayMs.toNat := rfl
  refine ⟨(backoffByRoute_eq short attempt).symm, ?_, ?_, p.backoff_le attempt⟩
  · rw [step]
    split
    · omega
    · omega
  · rw [step]
    split
    · exact Nat.le_refl _
    · exact Nat.min_le_left ..

/-- Without a first wait there is nothing to double, and after attempt 33 the wait is five
seconds. -/
theorem not_backoff_eq_exact :
    ¬ ∀ (c : RetryConfig) (attempt : Nat), 1 ≤ attempt → attempt < 2 ^ 32 →
      (ofConfig c).backoff attempt =
        min c.maxDelayMs.toNat (c.baseDelayMs.toNat * 2 ^ (attempt - 1)) := by
  intro exact
  have wrong := exact { baseDelayMs := 0, maxDelayMs := 5000 } 33 (by decide) (by decide)
  have given : (ofConfig { baseDelayMs := 0, maxDelayMs := 5000 }).backoff 33 = 5000 := rfl
  rw [given] at wrong
  simp at wrong

theorem backoff_mono (p : Policy) {i j : Nat} (le : i ≤ j) : p.backoff i ≤ p.backoff j := by
  by_cases few : j - 1 < maxDoublings
  · have power : 2 ^ (i - 1) ≤ 2 ^ (j - 1) := Nat.pow_le_pow_right (by decide) (by omega)
    have product := Nat.mul_le_mul_left p.baseDelay power
    rw [backoff, backoff, if_pos few, if_pos (by omega)]
    exact min_le_min_left p.maxDelay product
  · -- with the word full, the wait is at its ceiling
    have ceiling : p.backoff j = p.maxDelay := if_neg few
    rw [ceiling]
    exact p.backoff_le i

/-! ## A single wait -/

/-- The least wait after an attempt that failed in this way: at least the ceiling of the doubled
wait when the server asks for patience, and longer than that if it says so, within limits; at least
the time to the next refill when the bucket refused. -/
def leastWait (p : Policy) (attempt : Nat) : HttpError → Nat
  | .rateLimited retryAfter => max p.maxDelay (min (retryAfter.getD 0 * 1000) p.maxRetryAfter)
  | .throttled _ nextIn => max (p.backoff attempt) nextIn
  | _ => p.backoff attempt

theorem wait_eq_leastWait (p : Policy) (attempt : Nat) (e : HttpError) :
    p.wait attempt e = p.leastWait attempt e := by
  cases e with
  | rateLimited retryAfter =>
    rw [wait, leastWait, Nat.max_eq_right (p.backoff_le attempt)]
  | _ => rfl

/-- The milliseconds to the next refill, if it was the bucket that refused. -/
def hint : HttpError → Nat
  | .throttled _ nextIn => nextIn
  | _ => 0

theorem leastWait_le (p : Policy) (attempt : Nat) (e : HttpError) :
    p.leastWait attempt e ≤ max (max p.maxDelay p.maxRetryAfter) (hint e) := by
  have ceiling := p.backoff_le attempt
  cases e <;> simp only [leastWait, hint] <;> omega

/-! ## All waits -/

section

variable {σ α : Type} {p : Policy} {sleep : Nat → σ → σ} {jitter : Nat → Nat}
  {operation : Nat → σ → Except HttpError α × σ} {s : σ}

/-- A clock that only sleeping moves shows the sum of the sleeps. -/
theorem time_before {errors : Nat → HttpError} {time : σ → Nat}
    (sleeping : ∀ ms t, time (sleep ms t) = time t + slept ms)
    (attempting : ∀ i t, time (operation i t).2 = time t) {i : Nat}
    (failed : ∀ j, 1 ≤ j → j ≤ i → p.outcome sleep jitter operation s j = .error (errors j)) :
    time (p.before sleep jitter operation s i) =
      time s + ∑ j ∈ Finset.Ico 1 (i + 1), slept (p.wait j (errors j) + jitter j) := by
  induction i with
  | zero => simp [before]
  | succ i ih =>
    have gave := failed (i + 1) (Nat.le_add_left ..) (Nat.le_refl _)
    rw [before_succ_of_error gave, sleeping, attempting,
      ih fun j low high => failed j low (by omega),
      Finset.sum_Ico_succ_top (Nat.le_add_left 1 i)
        (fun j => slept (p.wait j (errors j) + jitter j)),
      Nat.add_assoc]

/-- So it shows after a run, whose last attempt is not followed by a sleep. -/
theorem time_run {errors : Nat → HttpError} {time : σ → Nat}
    (sleeping : ∀ ms t, time (sleep ms t) = time t + slept ms)
    (attempting : ∀ i t, time (operation i t).2 = time t) {k : Nat}
    (last : p.lastAttempt (p.outcome sleep jitter operation s) = k)
    (failed : ∀ i, 1 ≤ i → i < k → p.outcome sleep jitter operation s i = .error (errors i)) :
    time (p.run sleep jitter operation s).2 =
      time s + ∑ i ∈ Finset.Ico 1 k, slept (p.wait i (errors i) + jitter i) := by
  have positive : 1 ≤ k := last ▸ (p.lastAttempt_spec _).1
  have shown := time_before (i := k - 1) sleeping attempting
    fun j low high => failed j low (by omega)
  rw [Nat.sub_add_cancel positive] at shown
  rw [run_eq, attempting, last, shown]

theorem sum_waits_le {k : Nat} (allowed : k ≤ p.attempts) (drawn : ∀ i, jitter i ≤ p.jitterMax)
    (errors : Nat → HttpError) :
    ∑ i ∈ Finset.Ico 1 k, (p.wait i (errors i) + jitter i) ≤ (p.attempts - 1) *
      (max (max p.maxDelay p.maxRetryAfter) ((Finset.Ico 1 k).sup fun i => hint (errors i)) +
        p.jitterMax) := by
  generalize longest : (Finset.Ico 1 k).sup (fun i => hint (errors i)) = greatest
  have each : ∀ i ∈ Finset.Ico 1 k, p.wait i (errors i) + jitter i ≤
      max (max p.maxDelay p.maxRetryAfter) greatest + p.jitterMax := by
    intro i inside
    have hinted : hint (errors i) ≤ greatest :=
      longest ▸ Finset.le_sup (f := fun i => hint (errors i)) inside
    have bound := p.leastWait_le i (errors i)
    rw [← wait_eq_leastWait] at bound
    exact Nat.add_le_add (bound.trans (max_le_max_left _ hinted)) (drawn i)
  have sum := Finset.sum_le_card_nsmul _ _ _ each
  rw [Nat.card_Ico, smul_eq_mul] at sum
  exact sum.trans (Nat.mul_le_mul_right _ (Nat.sub_le_sub_right allowed 1))

end

/-- The waits of a run, whatever goes wrong in it and whatever the random additions are. Between one
attempt and the next there is one wait, which is what is due after the first of them failed, but for
the addition. So all of them together are bounded by what the policy and the bucket say, whatever a
server asks for; a clock that only sleeping moves shows no more. -/
theorem waits_bounded {σ α : Type} (p : Policy) (sleep : Nat → σ → σ) (jitter : Nat → Nat)
    (drawn : ∀ i, jitter i ≤ p.jitterMax) (operation : Nat → σ → Except HttpError α × σ) (s : σ) :
    let n := max 1 p.maxAttempts
    let outcome := p.outcome sleep jitter operation s
    let noted := p.run (notedSleep sleep) jitter (notedAttempt operation) (s, [])
    ∃ (k : Nat) (errors : Nat → HttpError) (waits : Nat → Nat), k ≤ n ∧
      noted.2.2 = ((List.range' 1 (k - 1)).flatMap fun i => [.attempt i, .sleep (waits i)]) ++
        [.attempt k] ∧
      (∀ i, 1 ≤ i → i < k → outcome i = .error (errors i) ∧
        p.leastWait i (errors i) ≤ waits i ∧
        waits i ≤ p.leastWait i (errors i) + p.jitterMax) ∧
      (∀ i j, i ≤ j → p.backoff i ≤ p.backoff j ∧ p.backoff j ≤ p.maxDelay) ∧
      let greatest := max (max p.maxDelay p.maxRetryAfter)
        ((Finset.Ico 1 k).sup fun i => hint (errors i))
      ∑ i ∈ Finset.Ico 1 k, waits i ≤ (n - 1) * (greatest + p.jitterMax) ∧
      ∀ time : σ → Nat, (∀ ms t, time (sleep ms t) = time t + slept ms) →
        (∀ i t, time (operation i t).2 = time t) →
        time (p.run sleep jitter operation s).2 ≤ time s + (n - 1) * (greatest + p.jitterMax) := by
  intro n outcome noted
  obtain ⟨errors, retried⟩ := p.exists_errors outcome
  obtain ⟨-, allowed, -, -⟩ := p.lastAttempt_spec outcome
  generalize last : p.lastAttempt outcome = k at retried allowed
  have failed : ∀ i, 1 ≤ i → i < k → outcome i = .error (errors i) :=
    fun i low high => (retried i low high).1
  have total := sum_waits_le allowed drawn errors
  refine ⟨k, errors, fun i => p.wait i (errors i) + jitter i, allowed, events_run last failed,
    ?_, ?_, total, ?_⟩
  · intro i low high
    have added := drawn i
    have wait := p.wait_eq_leastWait i (errors i)
    dsimp only
    exact ⟨failed i low high, by omega, by omega⟩
  · intro i j le
    exact ⟨p.backoff_mono le, p.backoff_le j⟩
  · intro time sleeping attempting
    rw [time_run sleeping attempting last failed]
    -- a sleep may be cut short
    have slow : ∑ i ∈ Finset.Ico 1 k, slept (p.wait i (errors i) + jitter i) ≤
        ∑ i ∈ Finset.Ico 1 k, (p.wait i (errors i) + jitter i) :=
      Finset.sum_le_sum fun i _ => Nat.min_le_left ..
    exact Nat.add_le_add_left (slow.trans total) _

/-- A server that asks for eleven days, a bucket that is empty and a server that does not answer
make a run wait a good three seconds, out of six that are possible. -/
theorem waits_bounded_mixed :
    let p : Policy := .ofConfig {
      maxAttempts := 4, baseDelayMs := 100, maxDelayMs := 300, jitterMaxMs := 20
      maxRetryAfterSecs := 2 }
    let sleep : Nat → Nat → Nat := fun ms now => now + slept ms
    let operation : Nat → Nat → Except HttpError Unit × Nat := fun i now =>
      (.error (match i with
        | 1 => .rateLimited (some 1000000)
        | 2 => .throttled .zero 750
        | _ => .timedOut), now)
    let noted := p.run (notedSleep sleep) (fun _ => 20) (notedAttempt operation) (0, [])
    20 ≤ p.jitterMax ∧
      noted.2.2 = [.attempt 1, .sleep 2020, .attempt 2, .sleep 770, .attempt 3, .sleep 320,
        .attempt 4] ∧
      (p.run sleep (fun _ => 20) operation 0).2 = 3110 ∧
      (p.run sleep (fun _ => 20) operation 0).2 ≤ 3 * (2000 + 20) := by
  intro p sleep operation noted
  have drawn : ∀ i : Nat, 20 ≤ p.jitterMax := fun _ => Nat.le_refl 20
  obtain ⟨k, errors, waits, -, -, each, -, -, bound⟩ :=
    waits_bounded p sleep (fun _ => 20) drawn operation 0
  have bound := bound id (fun _ _ => rfl) (fun _ _ => rfl)
  have hints : ((Finset.Ico 1 k).sup fun i => hint (errors i)) ≤ 750 := by
    refine Finset.sup_le fun i inside => ?_
    obtain ⟨low, high⟩ := Finset.mem_Ico.1 inside
    obtain ⟨gave, -⟩ := each i low high
    rw [← Except.error.inj gave]
    split <;> simp [hint]
  have ceiling : max p.maxDelay p.maxRetryAfter = 2000 := rfl
  have attempts : max 1 p.maxAttempts - 1 = 3 := rfl
  have jitter : p.jitterMax = 20 := rfl
  rw [ceiling, attempts, jitter, Nat.max_eq_left (by omega)] at bound
  exact ⟨drawn 0, rfl, rfl, by simpa using bound⟩

end Policy
end LeagueSync
