import LeagueSync.Config.Basic
import LeagueSync.Http.Error

/-!
# LeagueSync.Retry.Policy

How often a request is attempted and how long to wait in between. The wait doubles with every
attempt up to a ceiling; a server that names a time is waited for, up to a ceiling of its own, and
so is the refill of the token bucket. Durations are milliseconds.

* `Policy.backoff_le`: the doubled wait never exceeds its ceiling.
-/

namespace LeagueSync

/-- The rules of repeated attempts. -/
structure Policy where
  maxAttempts : Nat
  baseDelay : Nat
  maxDelay : Nat
  /-- The greatest random addition to a wait. -/
  jitterMax : Nat
  maxRetryAfter : Nat
  /-- Which failures are worth another attempt. -/
  retries : HttpError → Bool

namespace Policy

def ofConfig (c : RetryConfig) : Policy where
  maxAttempts := max 1 c.maxAttempts.toNat
  baseDelay := c.baseDelayMs.toNat
  maxDelay := c.maxDelayMs.toNat
  jitterMax := c.jitterMaxMs.toNat
  maxRetryAfter := c.maxRetryAfterSecs.toNat * 1000
  retries := HttpError.isRetryable

def once : Policy :=
  { ofConfig {} with maxAttempts := 1 }

def attempts (p : Policy) : Nat :=
  max 1 p.maxAttempts

/-- The doublings that the wait can count; from here on it is at its ceiling. -/
def maxDoublings : Nat := 32

/-- The wait after a failed attempt, without the random addition. Attempts count from one. -/
def backoff (p : Policy) (attempt : Nat) : Nat :=
  if attempt - 1 < maxDoublings then min p.maxDelay (p.baseDelay * Nat.pow 2 (attempt - 1))
  else p.maxDelay

/-- The least wait after an attempt that failed in this way. -/
def wait (p : Policy) (attempt : Nat) : HttpError → Nat
  | .rateLimited retryAfter =>
    max (max (p.backoff attempt) p.maxDelay) (min (retryAfter.getD 0 * 1000) p.maxRetryAfter)
  | .throttled _ nextIn => max (p.backoff attempt) nextIn
  | _ => p.backoff attempt

/-- What follows a failed attempt: a wait before the next one, or the error of the whole run. -/
def next (p : Policy) (attempt : Nat) (e : HttpError) : Except HttpError Nat :=
  if !p.retries e then .error e
  else if p.attempts ≤ attempt then .error (.exhausted attempt e)
  else .ok (p.wait attempt e)

theorem backoff_le (p : Policy) (attempt : Nat) : p.backoff attempt ≤ p.maxDelay := by
  unfold backoff
  split
  · exact Nat.min_le_left _ _
  · exact Nat.le_refl _

end Policy
end LeagueSync
