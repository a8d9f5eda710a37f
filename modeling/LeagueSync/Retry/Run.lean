import LeagueSync.Retry.Policy

/-!
# LeagueSync.Retry.Run

Repeated attempts of one operation. The operation acts on a state of its own; waiting acts on it
too, so that the state may hold a clock.

* `Policy.runFrom_of_final`, `Policy.runFrom_zero_of_retries`, `Policy.runFrom_succ_of_retries`:
  what becomes of a run by what its first attempt gave.
* `Policy.runFrom_invariant`: what each attempt and each wait keeps is kept by a run.
-/

namespace LeagueSync
namespace Policy

variable {σ α : Type}

/-- Attempts number `attempt` and later, `left` of them after this one. -/
def runFrom (p : Policy) (sleep : Nat → σ → σ) (jitter : Nat → Nat)
    (operation : Nat → σ → Except HttpError α × σ) : Nat → Nat → σ → Except HttpError α × σ
  | left, attempt, s =>
    match operation attempt s with
    | (.ok a, s) => (.ok a, s)
    | (.error e, s) =>
      if p.retries e then
        match left with
        | 0 => (.error (.exhausted attempt e), s)
        | left + 1 =>
          runFrom p sleep jitter operation left (attempt + 1)
            (sleep (p.wait attempt e + jitter attempt) s)
      else (.error e, s)

/-- Attempts an operation until it succeeds, fails for good or has been attempted often enough. The
random addition to the wait after each attempt is given. -/
def run (p : Policy) (sleep : Nat → σ → σ) (jitter : Nat → Nat)
    (operation : Nat → σ → Except HttpError α × σ) (s : σ) : Except HttpError α × σ :=
  p.runFrom sleep jitter operation (p.attempts - 1) 1 s

section Steps

variable {p : Policy} {sleep : Nat → σ → σ} {jitter : Nat → Nat}
  {operation : Nat → σ → Except HttpError α × σ} {n : Nat} {s t : σ} {e : HttpError}

theorem runFrom_of_final {result : Except HttpError α} (left : Nat)
    (h : operation n s = (result, t)) (final : ∀ e, result = .error e → p.retries e = false) :
    p.runFrom sleep jitter operation left n s = (result, t) := by
  unfold runFrom
  cases result with
  | ok a => simp only [h]
  | error e => simp only [h, final e rfl, Bool.false_eq_true, if_false]

theorem runFrom_zero_of_retries (h : operation n s = (.error e, t)) (again : p.retries e = true) :
    p.runFrom sleep jitter operation 0 n s = (.error (.exhausted n e), t) := by
  unfold runFrom
  simp only [h, again, if_true]

theorem runFrom_succ_of_retries (left : Nat) (h : operation n s = (.error e, t))
    (again : p.retries e = true) :
    p.runFrom sleep jitter operation (left + 1) n s =
      p.runFrom sleep jitter operation left (n + 1) (sleep (p.wait n e + jitter n) t) := by
  rw [runFrom]
  simp only [h, again, if_true]

end Steps

/-- What every attempt and every wait keeps is kept by a run. -/
theorem runFrom_invariant (p : Policy) {sleep : Nat → σ → σ} {jitter : Nat → Nat}
    {operation : Nat → σ → Except HttpError α × σ} {P : σ → Prop}
    (slept : ∀ ms s, P s → P (sleep ms s)) (attempted : ∀ n s, P s → P (operation n s).2)
    (left n : Nat) {s : σ} (start : P s) : P (p.runFrom sleep jitter operation left n s).2 := by
  induction left generalizing n s with
  | zero =>
    have after := attempted n s start
    cases tried : operation n s with
    | mk result t =>
      rw [tried] at after
      by_cases final : ∀ e, result = .error e → p.retries e = false
      · rwa [runFrom_of_final 0 tried final]
      · simp only [Classical.not_forall, Bool.not_eq_false] at final
        obtain ⟨e, rfl, again⟩ := final
        rwa [runFrom_zero_of_retries tried again]
  | succ left ih =>
    have after := attempted n s start
    cases tried : operation n s with
    | mk result t =>
      rw [tried] at after
      by_cases final : ∀ e, result = .error e → p.retries e = false
      · rwa [runFrom_of_final (left + 1) tried final]
      · simp only [Classical.not_forall, Bool.not_eq_false] at final
        obtain ⟨e, rfl, again⟩ := final
        rw [runFrom_succ_of_retries left tried again]
        exact ih _ (slept _ _ after)

/-- What every attempt and every wait leaves alone is the same after a run. -/
theorem runFrom_keeps {β : Type} (p : Policy) {sleep : Nat → σ → σ} {jitter : Nat → Nat}
    {operation : Nat → σ → Except HttpError α × σ} {f : σ → β}
    (slept : ∀ ms s, f (sleep ms s) = f s) (attempted : ∀ n s, f (operation n s).2 = f s)
    (left n : Nat) (s : σ) : f (p.runFrom sleep jitter operation left n s).2 = f s :=
  p.runFrom_invariant (fun ms t same => (slept ms t).trans same)
    (fun n t same => (attempted n t).trans same) left n rfl

end Policy
end LeagueSync
