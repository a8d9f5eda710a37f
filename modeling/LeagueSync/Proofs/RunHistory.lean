import LeagueSync.Program.App
import LeagueSync.Proofs.PoolSchedule

/-!
# LeagueSync.Proofs.RunHistory

The history of runs. A job that has a list of entries to sync leaves one more row, with its source,
its retry generation and the account that the caller gets, however its syncs ended and in whichever
order, and whether or not a follow-up was scheduled. A job without a list leaves none.

* `Runner.syncAll_invariant`: what each sync keeps is kept by all syncs of a job.
* `Database.runs_recordRun`: noting a run appends one row.
* `Runner.KeepsHistory`: a runner that notes runs in the durable store, as that of the program does
  (`App.keepsHistory`).
* `Runner.leavesRow_run_iff`: which jobs leave a row.
-/

namespace LeagueSync

/-! ## What syncs keep -/

section

variable {τ κ : Type} {P : τ → Prop}

theorem Syncer.runInOrder_invariant {s : Syncer τ}
    (keeps : ∀ now unit work, P work → P (s.sync now unit work).2) (units : List SyncUnit)
    (now : Nat) {work : τ} (start : P work) : P (s.runInOrder units now work).2.2 := by
  induction units generalizing now work with
  | nil => exact start
  | cons unit units ih => exact ih _ (keeps now unit work start)

theorem Syncer.runTogether_invariant {s : Syncer τ}
    (keeps : ∀ now unit work, P work → P (s.sync now unit work).2) (d : Dispatch τ) (permits : Nat)
    (pos : 0 < permits) (units : List SyncUnit) (now : Nat) {work : τ} (start : P work) :
    P (s.runTogether d permits pos units now work).2.2 := by
  obtain ⟨-, moves, replayed⟩ := (Pool.fresh permits pos units now work).run_eq_replay? s d
  refine Pool.replay?_invariant (I := fun p => P p.work) ?_ start replayed
  intro p q m holds moved
  rcases (Pool.move?_cases moved).2 with ⟨unit, -, work, -⟩ | ⟨-, work, -⟩
  · rw [work]
    exact keeps p.now unit p.work holds
  · rwa [work]

theorem Runner.syncAll_invariant {r : Runner τ}
    (keeps : ∀ now unit work, P work → P (r.syncer.sync now unit work).2) (units : List SyncUnit)
    (now : Nat) {work : τ} (start : P work) : P (r.syncAll units now work).2.2 := by
  rw [syncAll]
  split
  · exact Syncer.runTogether_invariant keeps _ _ _ units now start
  · exact Syncer.runInOrder_invariant keeps units now start

theorem Runner.work_settle [Sink κ] (r : Runner τ) (job : Job) (outcome : Outcome)
    (b : Bench τ κ) : (r.settle job outcome b).2.work = b.work := by
  unfold settle
  split
  · rfl
  · split
    · rfl
    · dsimp only
      split <;> rfl

end

/-! ## Rows of the history -/

/-- A run that is noted for a job with this outcome. -/
structure Run.IsOf (run : Run) (job : Job) (outcome : Outcome) : Prop where
  source : run.source = job.source
  retryCount : run.retryCount = job.retryCount
  total : run.total = outcome.total
  succeeded : run.succeeded = outcome.succeeded
  failed : run.failed = outcome.failed
  failedIds : run.failedIds = outcome.failedIds

namespace Database

def runs (d : Database) : List (Int64 × RunRow) :=
  d.tables.runs.rows

/-- A store that can take another run. No run has a larger number than the last one. -/
structure AcceptsRuns (d : Database) : Prop where
  works : d.fails .recordRun = none
  free : d.tables.lastRun ≠ Int64.maxValue
  numbered : ∀ number ∈ d.tables.runs.keys, number.toInt ≤ d.tables.lastRun.toInt

/-- A store with the same history, which takes runs alike. -/
structure SameHistory (d d' : Database) : Prop where
  fails : d'.fails .recordRun = d.fails .recordRun
  runs : d'.tables.runs = d.tables.runs
  lastRun : d'.tables.lastRun = d.tables.lastRun

theorem SameHistory.refl (d : Database) : d.SameHistory d := ⟨rfl, rfl, rfl⟩

theorem SameHistory.trans {d d' d'' : Database} (first : d.SameHistory d')
    (second : d'.SameHistory d'') : d.SameHistory d'' :=
  ⟨second.fails.trans first.fails, second.runs.trans first.runs, second.lastRun.trans first.lastRun⟩

theorem SameHistory.acceptsRuns {d d' : Database} (same : d.SameHistory d') (h : d.AcceptsRuns) :
    d'.AcceptsRuns := by
  refine ⟨same.fails.trans h.works, ?_, ?_⟩
  · rw [same.lastRun]
    exact h.free
  · rw [same.runs, same.lastRun]
    exact h.numbered

end Database

theorem Table.putRow_of_notMem {α β : Type} [DecidableEq α] {k : α} {rows : List (α × β)}
    (new : k ∉ rows.map Prod.fst) (a : β) : putRow k a rows = rows ++ [(k, a)] := by
  induction rows with
  | nil => rfl
  | cons row rows ih =>
    rw [List.map_cons, List.mem_cons, not_or] at new
    rw [putRow, if_neg (Ne.symm new.1), ih new.2]
    rfl

theorem toInt_add_one {n : Int64} (h : n ≠ Int64.maxValue) : (n + 1).toInt = n.toInt + 1 := by
  have below : n.toInt ≠ Int64.maxValue.toInt := fun same => h (Int64.toInt_inj.1 same)
  have low := n.minValue_le_toInt
  have high := n.toInt_le
  rw [Int64.toInt_minValue] at low
  rw [Int64.toInt_maxValue] at high below
  have one : (1 : Int64).toInt = 1 := rfl
  rw [Int64.toInt_add, one, Int.bmod_eq_of_le (by omega) (by omega)]

namespace Database

/-- Noting a run appends one row. -/
theorem runs_recordRun {d : Database} (h : d.AcceptsRuns) (run : Run) :
    (d.recordRun run).2.runs = d.runs ++ [(d.tables.lastRun + 1, .ofRun run)] := by
  have new : d.tables.lastRun + 1 ∉ d.tables.runs.keys := by
    intro there
    have le := h.numbered _ there
    rw [toInt_add_one h.free] at le
    omega
  rw [recordRun, perform, h.works]
  simp only [Tables.recordRun, if_neg h.free]
  exact Table.putRow_of_notMem new _

/-- What became of the store left just one more row, which is of this job and its outcome. -/
def LeavesRow (before after : Database) (job : Job) (outcome : Outcome) : Prop :=
  ∃ number run, Run.IsOf run job outcome ∧ after.runs = before.runs ++ [(number, .ofRun run)]

theorem leavesRow_recordRun {d d' : Database} (same : d.SameHistory d') (accepts : d.AcceptsRuns)
    {run : Run} {job : Job} {outcome : Outcome} (isOf : run.IsOf job outcome) :
    d.LeavesRow (d'.recordRun run).2 job outcome := by
  refine ⟨d'.tables.lastRun + 1, run, isOf, ?_⟩
  rw [runs_recordRun (same.acceptsRuns accepts), Database.runs, same.runs, Database.runs]

end Database

/-! ## Jobs -/

namespace Runner

variable {τ κ : Type} [Sink κ]

/-- Each run is noted in the durable store that the work has, and syncs leave the history alone. -/
structure KeepsHistory (r : Runner τ) (database : τ → Database) : Prop where
  notes : ∃ write, r.history = some write ∧
    ∀ run work, database (write run work).2 = ((database work).recordRun run).2
  spared : ∀ now unit work, (database work).SameHistory (database (r.syncer.sync now unit work).2)

variable {r : Runner τ} {database : τ → Database}

omit [Sink κ] in
theorem isOf_row (r : Runner τ) (job : Job) (outcome : Outcome) (start : Nat) (b : Bench τ κ) :
    (r.row job outcome start b).IsOf job outcome :=
  ⟨rfl, rfl, rfl, rfl, rfl, rfl⟩

/-- A job with a list of entries leaves a row, whatever becomes of its syncs and its follow-up. -/
theorem leavesRow_runOn (keeps : r.KeepsHistory database) (job : Job) (ids : List EntryId)
    {b : Bench τ κ} (accepts : (database b.work).AcceptsRuns) :
    (database b.work).LeavesRow (database (r.runOn job ids b).2.work) job (r.runOn job ids b).1 := by
  obtain ⟨write, history, noted⟩ := keeps.notes
  have same := r.syncAll_invariant (P := fun work => (database b.work).SameHistory (database work))
    (fun now unit work so_far => so_far.trans (keeps.spared now unit work)) (job.units ids) b.now
    (.refl _)
  simp only [runOn, record, history, noted, work_settle]
  exact Database.leavesRow_recordRun same accepts (r.isOf_row ..)

/-- A job leaves a row just if it names its entries or the directory does; else the history stays as
it is. -/
theorem leavesRow_run_iff (r : Runner τ) (keeps : r.KeepsHistory database) (job : Job)
    (b : Bench τ κ) (accepts : (database b.work).AcceptsRuns) :
    let named := job.ids = none → ∃ ids, r.syncer.directory b.work = .ok ids
    let before := database b.work
    let after := database (r.run job b).2.work
    (before.LeavesRow after job (r.run job b).1 ↔ named) ∧ (¬ named → after.runs = before.runs) := by
  intro named before after
  have none_or_some : (∃ ids, r.targets? job b.work = some ids) ↔ named := by
    simp only [named, targets?]
    cases job.ids with
    | some ids => simp
    | none => cases r.syncer.directory b.work <;> simp [Except.toOption]
  cases resolved : r.targets? job b.work with
  | some ids =>
    have holds : named := none_or_some.1 ⟨ids, resolved⟩
    refine ⟨iff_of_true ?_ holds, fun fails => absurd holds fails⟩
    have row := leavesRow_runOn (b := { b with executed := b.executed + 1 }) keeps job ids accepts
    simp only [after, run_of_some resolved]
    exact row
  | none =>
    have fails : ¬ named := fun holds => by
      obtain ⟨ids, some⟩ := none_or_some.2 holds
      rw [resolved] at some
      cases some
    have same : after.runs = before.runs := by
      simp only [after, run_of_none resolved]
      rfl
    refine ⟨iff_of_false ?_ fails, fun _ => same⟩
    rintro ⟨number, run, -, more⟩
    have lengths := congrArg List.length (same.symm.trans more)
    simp at lengths

/-- Of two entries one fails, and a follow-up is scheduled; the job leaves its row beside that of an
earlier run. -/
theorem leavesRow_run_half_failed :
    let r : Runner Database := {
      syncer := {
        sync := fun _ unit d => (⟨5, if unit.1 = 9 then .brokeDown else .returned (.ok ())⟩, d)
        directory := fun _ => .ok [8, 9] }
      history := some fun run d => d.recordRun run
      maxRetryCycles := 1
      concurrency := 2
      concurrency_pos := by decide
      timeOfDay := fun _ => .epoch
      workflowName := fun _ => "" }
    let job := Job.first none .cron .epoch
    let earlier : Run := ⟨none, "", .manual, 0, 0, 0, 0, [], .epoch, .epoch⟩
    let d : Database := (Database.recordRun {} earlier).2
    let b : Bench Database InlineQueue := { work := d, queue := {} }
    r.KeepsHistory id ∧ d.AcceptsRuns ∧
      (r.run job b).1 = ⟨2, 1, 1, [9]⟩ ∧
      d.LeavesRow (r.run job b).2.work job ⟨2, 1, 1, [9]⟩ := by
  intro r job earlier d b
  have keeps : r.KeepsHistory id := ⟨⟨_, rfl, fun _ _ => rfl⟩, fun _ _ _ => .refl _⟩
  have keys : d.tables.runs.keys = [1] := rfl
  have accepts : d.AcceptsRuns := by
    refine ⟨rfl, by decide, fun number member => ?_⟩
    rw [keys, List.mem_singleton] at member
    subst member
    decide
  have outcome : (r.run job b).1 = ⟨2, 1, 1, [9]⟩ := by decide +kernel
  have row := (leavesRow_run_iff r keeps job b accepts).1.2 fun _ => ⟨[8, 9], rfl⟩
  rw [outcome] at row
  exact ⟨keeps, accepts, outcome, row⟩

/-- A job over all known entries leaves no row when the directory fails, although the store takes
runs. -/
theorem not_leavesRow_run_unlisted :
    let r : Runner Database := {
      syncer := {
        sync := fun _ _ d => (⟨0, .returned (.ok ())⟩, d)
        directory := fun _ => .error .queueClosed }
      history := some fun run d => d.recordRun run
      maxRetryCycles := 1
      concurrency := 1
      concurrency_pos := by decide
      timeOfDay := fun _ => .epoch
      workflowName := fun _ => "" }
    let job := Job.first none .cron .epoch
    let b : Bench Database InlineQueue := { work := {}, queue := {} }
    r.KeepsHistory id ∧ b.work.AcceptsRuns ∧
      ¬ b.work.LeavesRow (r.run job b).2.work job (r.run job b).1 := by
  intro r job b
  have keeps : r.KeepsHistory id := ⟨⟨_, rfl, fun _ _ => rfl⟩, fun _ _ _ => .refl _⟩
  have accepts : b.work.AcceptsRuns := by
    refine ⟨rfl, by decide, fun number member => ?_⟩
    cases member
  refine ⟨keeps, accepts, ?_⟩
  rintro ⟨number, run, -, more⟩
  have none : (r.run job b).2.work.runs = [] := rfl
  rw [none] at more
  cases more

end Runner

/-! ## The program -/

theorem EntryService.sameHistory_sync {σ : Type} [Backend σ] (s : EntryService) (id : EntryId)
    (gameweek : Option GameweekId) (w : World σ) :
    w.database.SameHistory (s.sync id gameweek w).2.database := by
  rw [sync]
  split
  · exact .refl _
  · next payload link _ =>
    dsimp only
    cases written : w.database.upsertEntry
      (payload.toEntry gameweek (s.env.timeOfDay link.now)) with
    | mk result d =>
      rw [Database.upsertEntry, Database.perform] at written
      split at written
      · cases written
        exact .refl _
      · cases written
        exact ⟨rfl, rfl, rfl⟩

/-- The program notes its runs in the durable store that its entries are in. -/
theorem App.keepsHistory (a : App) (workflowName : Nat → String) :
    (a.runner workflowName).KeepsHistory World.database := by
  refine ⟨⟨record, rfl, fun _ _ => rfl⟩, fun now unit w => ?_⟩
  exact a.entries.sameHistory_sync unit.1 unit.2 { w with link := { w.link with now } }

end LeagueSync
