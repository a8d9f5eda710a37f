import LeagueSync.Throttle.Bucket

/-!
# LeagueSync.Throttle.Limiter

What a token bucket may be asked. `Bucket.ask` reads the clock once, applies the steps that have
passed and answers; `Bucket.use` joins to these calls the looks at the state as it is. The calls of
all who share a bucket come one after another, each with the clock reading that its caller made.

* `Bucket.ask_cases`: a call looks at the refilled bucket, or takes from it what there is.
* `Bucket.use_of_observes`: a question, or a demand that is refused, gives nothing and does no more
  than a refill.
-/

namespace LeagueSync

inductive BucketCall where
  /-- Takes tokens, or hears why not. -/
  | take (n : Nat)
  /-- Takes tokens, and hears whether there were enough. -/
  | tryTake (n : Nat)
  /-- How many tokens there are. -/
  | tokens
  /-- When the next step happens. -/
  | nextTime
  /-- How long it is until the next step. -/
  | nextIn
  deriving DecidableEq

inductive BucketAnswer where
  | granted
  | refused (refusal : Refusal)
  | success (took : Bool)
  | tokens (n : Nat)
  | time (t : Nat)
  | wait (ms : Nat)
  deriving DecidableEq

namespace BucketAnswer

def ofResult : Except Refusal Unit → BucketAnswer
  | .ok () => granted
  | .error refusal => refused refusal

end BucketAnswer

namespace BucketCall

/-- Whether a call with this answer only looked: it was a question, or a demand that was refused. -/
def observes : BucketCall → BucketAnswer → Bool
  | take _, .granted => false
  | tryTake _, .success took => !took
  | _, _ => true

/-- How many tokens a call with this answer was given. -/
def granted : BucketCall → BucketAnswer → Nat
  | take n, .granted => n
  | tryTake n, .success true => n
  | _, _ => 0

end BucketCall

/-- Answers calls, one after another, each at its time. -/
def answers {σ : Type} (ask : σ → Nat → BucketCall → BucketAnswer × σ) :
    σ → List (Nat × BucketCall) → List BucketAnswer
  | _, [] => []
  | s, (now, call) :: calls => (ask s now call).1 :: answers ask (ask s now call).2 calls

namespace Bucket

def ask (b : Bucket) (now : Nat) : BucketCall → BucketAnswer × Bucket
  | .take n => (.ofResult (b.take now n).1, (b.take now n).2)
  | .tryTake n => (.success (b.take now n).1.isOk, (b.take now n).2)
  | .tokens => (.tokens (b.refill now).tokens, b.refill now)
  | .nextTime => (.time (b.refill now).nextRefill, b.refill now)
  | .nextIn => (.wait ((b.refill now).nextRefill - now), b.refill now)

end Bucket

inductive BucketUse where
  | ask (call : BucketCall)
  /-- Reads the state as it is: the capacity, or a copy of all of it. -/
  | look
  deriving DecidableEq

namespace Bucket

/-- Uses a bucket at a clock reading, and says how many tokens it gave. -/
def use (b : Bucket) (now : Nat) : BucketUse → Nat × Bucket
  | .ask call => (call.granted (b.ask now call).1, (b.ask now call).2)
  | .look => (0, b)

def useAll (b : Bucket) : List (Nat × BucketUse) → Nat × Bucket
  | [] => (0, b)
  | (now, u) :: uses =>
    let (granted, b) := b.use now u
    let (more, b) := b.useAll uses
    (granted + more, b)

theorem ask_cases (b : Bucket) (now : Nat) (call : BucketCall) :
    (call.observes (b.ask now call).1 = true ∧ call.granted (b.ask now call).1 = 0 ∧
      (b.ask now call).2 = b.refill now) ∨
    (call.observes (b.ask now call).1 = false ∧
      call.granted (b.ask now call).1 ≤ (b.refill now).tokens ∧
      (b.ask now call).2 = (b.refill now).spend (call.granted (b.ask now call).1)) := by
  cases call with
  | take n =>
    by_cases h : n ≤ (b.refill now).tokens
    · right
      simp only [ask, take_of_le h, BucketAnswer.ofResult, BucketCall.observes,
        BucketCall.granted, true_and, and_true]
      exact h
    · left
      simp only [ask, take_of_lt (Nat.not_le.1 h), BucketAnswer.ofResult, BucketCall.observes,
        BucketCall.granted, and_self]
  | tryTake n =>
    by_cases h : n ≤ (b.refill now).tokens
    · right
      simp only [ask, take_of_le h, Except.isOk, Except.toBool, BucketCall.observes,
        BucketCall.granted, Bool.not_true, true_and, and_true]
      exact h
    · left
      simp only [ask, take_of_lt (Nat.not_le.1 h), Except.isOk, Except.toBool, BucketCall.observes,
        BucketCall.granted, Bool.not_false, and_self]
  | tokens => exact .inl ⟨rfl, rfl, rfl⟩
  | nextTime => exact .inl ⟨rfl, rfl, rfl⟩
  | nextIn => exact .inl ⟨rfl, rfl, rfl⟩

@[simp] theorem ask_interval (b : Bucket) (now : Nat) (call : BucketCall) :
    (b.ask now call).2.interval = b.interval := by
  rcases b.ask_cases now call with ⟨-, -, same⟩ | ⟨-, -, taken⟩
  · rw [same, refill_interval]
  · rw [taken, spend_interval, refill_interval]

theorem use_take_ok {b d : Bucket} {now n : Nat} (h : b.take now n = (.ok (), d)) :
    b.use now (.ask (.take n)) = (n, d) := by
  simp only [use, ask, h, BucketAnswer.ofResult, BucketCall.granted]

theorem use_take_error {b d : Bucket} {now n : Nat} {refusal : Refusal}
    (h : b.take now n = (.error refusal, d)) : b.use now (.ask (.take n)) = (0, d) := by
  simp only [use, ask, h, BucketAnswer.ofResult, BucketCall.granted]

theorem use_of_observes {b : Bucket} {now : Nat} {call : BucketCall}
    (h : call.observes (b.ask now call).1 = true) : b.use now (.ask call) = (0, b.refill now) := by
  rcases b.ask_cases now call with ⟨-, none, same⟩ | ⟨took, -, -⟩
  · exact Prod.ext none same
  · rw [took] at h
    cases h

theorem ask_of_observes {b : Bucket} {now : Nat} {call : BucketCall}
    (h : call.observes (b.ask now call).1 = true) : (b.ask now call).2 = b.refill now :=
  congrArg Prod.snd (use_of_observes h)

theorem ask_refill (b : Bucket) {s t : Nat} (h : s ≤ t) (call : BucketCall) :
    (b.refill s).ask t call = b.ask t call := by
  have taken : ∀ n, (b.refill s).take t n = b.take t n := fun n => by
    simp only [take, b.refill_refill h]
  cases call <;> simp only [ask, taken, b.refill_refill h]

end Bucket
end LeagueSync
