import LeagueSync.Proofs.Workshop

/-!
# LeagueSync.Proofs.WorkerPass

The pass of a worker over one job, from taking it to noting it. Others may come in between at any
point; here nobody does.

* `Workshop.replay?_pass`: the steps of a pass are `Runner.run`.
* `Workshop.finishes`: the worker can always finish the job in hand on its own.
-/

namespace LeagueSync

/-- Whether this is a step of the worker in the middle of a job. -/
def WorkshopEvent.IsOwn {τ : Type} : WorkshopEvent τ → Prop
  | .sync | .settle | .record => True
  | _ => False

namespace Workshop

variable {τ : Type}

theorem replay?_record {r : Runner τ} {w : Workshop τ} {t : Ticket} {outcome : Outcome}
    {start : Nat} (h : w.phase = .recording t outcome start) :
    w.replay? r [.record] = some (w.record r t outcome start) := by
  simp only [replay?, step?, h, Option.bind_some]

theorem replay?_settle {r : Runner τ} {w : Workshop τ} {t : Ticket} {outcome : Outcome}
    {start : Nat} (h : w.phase = .settling t outcome start) :
    w.replay? r [.settle, .record] =
      some ((w.settle r t outcome start).record r t outcome start) := by
  simp only [replay?, step?, h, Option.bind_some, settle]

/-- The worker can sync, settle and note the job in hand on its own: that is a run of the job. -/
theorem replay?_sync (r : Runner τ) {w : Workshop τ} {t : Ticket} (h : w.phase = .syncing t) :
    ∃ own v, (∀ e ∈ own, e.IsOwn) ∧ w.replay? r own = some v ∧ v.phase = .idle ∧
      v.log = w.log ++ [.passed t, .ended t] ∧
      ∀ b, w.bench = { b with executed := b.executed + 1 } → v.bench = (r.run t.job b).2 := by
  cases targets : r.targets? t.job w.bench.work with
  | none =>
    have synced : w.sync r t =
        { w with phase := .idle, log := w.log ++ [.passed t, .ended t] } := by
      simp only [sync, targets]
    refine ⟨[.sync], w.sync r t, ?_, ?_, ?_, ?_, ?_⟩
    · simp only [List.mem_singleton, forall_eq, WorkshopEvent.IsOwn]
    · simp only [replay?, step?, h, Option.bind_some]
    · rw [synced]
    · rw [synced]
    · intro b same
      have none : r.targets? t.job b.work = none := by
        rw [same] at targets
        exact targets
      rw [synced, Runner.run_of_none none]
      exact same
  | some ids =>
    let results := r.syncAll (t.job.units ids) w.bench.now w.bench.work
    let outcome := Outcome.ofResults results.1
    have synced : w.sync r t =
        { w with
          bench := { w.bench with now := results.2.1, work := results.2.2 }
          phase := .settling t outcome w.bench.now
          log := w.log ++ [.passed t] } := by
      simp only [sync, targets]
      rfl
    refine ⟨[.sync, .settle, .record],
      ((w.sync r t).settle r t outcome w.bench.now).record r t outcome w.bench.now,
      ?_, ?_, rfl, ?_, ?_⟩
    · simp only [List.mem_cons, List.not_mem_nil, or_false, forall_eq_or_imp, forall_eq,
        WorkshopEvent.IsOwn, and_self]
    · rw [replay?, step?, h]
      exact replay?_settle (by rw [synced])
    · rw [record, settle, synced]
      exact List.append_assoc ..
    · intro b same
      have some : r.targets? t.job b.work = some ids := by
        rw [same] at targets
        exact targets
      rw [Runner.run_of_some some, record, settle, synced, Runner.runOn, ← same]

/-- When nobody comes in between, the steps of a pass are a run of the job. -/
theorem replay?_pass (r : Runner τ) {w : Workshop τ} {t : Ticket} {d : Desk}
    (idle : w.phase = .idle) (took : w.desk.take? = some (t, d)) :
    ∃ own v, (∀ e ∈ own, e.IsOwn) ∧ w.replay? r (.take :: own) = some v ∧ v.phase = .idle ∧
      v.log = w.log ++ WorkerNote.pass t ∧
      v.bench = (r.run t.job { w.bench with queue := d }).2 := by
  obtain ⟨own, v, isOwn, replayed, phase, log, bench⟩ := replay?_sync r (w := w.take t d) rfl
  refine ⟨own, v, isOwn, ?_, phase, ?_, bench _ rfl⟩
  · rw [replay?, step?, idle]
    simp only [took, Option.map_some, Option.bind_some]
    exact replayed
  · rw [log, take, List.append_assoc]
    rfl

/-- The worker can always finish the job in hand on its own. -/
theorem finishes (r : Runner τ) (w : Workshop τ) (h : w.phase.inHand ≠ []) :
    ∃ own v, (∀ e ∈ own, e.IsOwn) ∧ w.replay? r own = some v ∧ v.phase = .idle ∧
      v.executed = w.executed ++ w.phase.inHand := by
  have ended (v : Workshop τ) (notes : List WorkerNote) (log : v.log = w.log ++ notes) :
      v.executed = w.executed ++ notes.filterMap WorkerNote.ended? := by
    rw [executed, executed, log, List.filterMap_append]
  cases phase : w.phase with
  | idle => exact absurd (by rw [phase]; rfl) h
  | stopped => exact absurd (by rw [phase]; rfl) h
  | syncing t =>
    obtain ⟨own, v, isOwn, replayed, idle, log, -⟩ := replay?_sync r phase
    exact ⟨own, v, isOwn, replayed, idle, ended _ _ log⟩
  | settling t outcome start =>
    refine ⟨[.settle, .record], _, ?_, replay?_settle phase, rfl, ended _ [.ended t] rfl⟩
    simp only [List.mem_cons, List.not_mem_nil, or_false, forall_eq_or_imp, forall_eq,
      WorkshopEvent.IsOwn, and_self]
  | recording t outcome start =>
    refine ⟨[.record], _, ?_, replay?_record phase, rfl, ended _ [.ended t] rfl⟩
    simp only [List.mem_singleton, forall_eq, WorkshopEvent.IsOwn]

end Workshop
end LeagueSync
