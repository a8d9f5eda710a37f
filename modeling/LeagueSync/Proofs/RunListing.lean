import LeagueSync.Proofs.WrittenColumns

/-!
# LeagueSync.Proofs.RunListing

The runs as a log that only grows. A store that never had a run numbers them from one on, in the
order of the calls, as long as there is a larger number; the listing gives back what was taken,
newest first, each run as it is shown and under the number that its caller got.

A run is written without a number, which the table adds, and is read by position with the number in
front. Nothing is ever overwritten, because each number is new.

* `Database.fst_recordRuns`: which runs are taken, and under which numbers.
* `Statement.read_write_of_new`: what is read after a statement whose key is new.
* `Database.runCells_recordRuns`: the rows by columns go on saying what the table of runs says.
* `Database.runs_are_a_log`: the listing after any calls.
-/

namespace LeagueSync

/-! ## Numbers -/

/-- How many runs there are numbers for: the largest number of 64 bits with a sign. -/
def mostRuns : Nat := 9223372036854775807

theorem eq_maxValue_iff {word : Int64} {n : Nat} (value : word.toInt = n) :
    word = Int64.maxValue ↔ n = mostRuns := by
  rw [← Int64.toInt_inj, value, Int64.toInt_maxValue, mostRuns]
  omega

theorem le_mostRuns {word : Int64} {n : Nat} (value : word.toInt = n) : n ≤ mostRuns := by
  have high := word.toInt_le
  rw [value, Int64.toInt_maxValue] at high
  rw [mostRuns]
  omega

namespace Database

variable {d : Database}

theorem recordRun_eq (works : d.fails .recordRun = none) (r : Run) :
    d.recordRun r =
      if d.tables.lastRun = Int64.maxValue then (.error (.storage .full), d)
      else (.ok (d.tables.lastRun + 1), { d with tables := { d.tables with
        runs := d.tables.runs.put (d.tables.lastRun + 1) (.ofRun r)
        lastRun := d.tables.lastRun + 1 } }) := by
  rw [recordRun, perform, works]
  simp only [Tables.recordRun]
  split <;> rfl

/-- The first runs are taken, under the numbers that follow the last one; when there is no larger
number, no more are. -/
theorem fst_recordRuns (works : d.fails .recordRun = none) {n : Nat}
    (last : d.tables.lastRun.toInt = n) (rs : List Run) :
    (d.recordRuns rs).1 =
      ((rs.take (mostRuns - n)).zipIdx (n + 1)).map fun r => (Int64.ofNat r.2, r.1) := by
  induction rs generalizing d n with
  | nil => simp [recordRuns]
  | cons r rs ih =>
    by_cases full : d.tables.lastRun = Int64.maxValue
    · have none_left : mostRuns - n = 0 := by
        rw [(eq_maxValue_iff last).1 full, Nat.sub_self]
      have rest := ih works last
      rw [none_left] at rest ⊢
      rw [recordRuns, recordRun_eq works, if_pos full]
      exact rest
    · have next : (d.tables.lastRun + 1).toInt = (n + 1 : Nat) := by
        rw [toInt_add_one full, last]
        rfl
      have room : mostRuns - n = mostRuns - (n + 1) + 1 := by
        have differ : n ≠ mostRuns := fun same => full ((eq_maxValue_iff last).2 same)
        have below := le_mostRuns last
        omega
      have number : d.tables.lastRun + 1 = Int64.ofNat (n + 1) := by
        have small : n + 1 < 2 ^ 63 := by
          have below := le_mostRuns next
          rw [mostRuns] at below
          omega
        rw [← Int64.toInt_inj, next, Int64.toInt_ofNat_of_lt small]
      have rest := ih (d := { d with tables := { d.tables with
        runs := d.tables.runs.put (d.tables.lastRun + 1) (.ofRun r)
        lastRun := d.tables.lastRun + 1 } }) works next
      rw [recordRuns, recordRun_eq works, if_neg full]
      simp only
      rw [rest, room, List.take_succ_cons, List.zipIdx_cons, List.map_cons, number]

end Database

/-! ## Rows by columns -/

theorem Statement.read_write_of_new {s : Statement} {c : CellTable} {params : List Cell}
    (new : s.keyOf params ∉ c.keys) (asked : List String) (key : List Cell) :
    (s.write c params).read asked key =
      if key = s.keyOf params then some (asked.map (s.bind params)) else c.read asked key := by
  have absent : c.get? (s.keyOf params) = none := by
    simpa [Table.mem_keys_iff] using new
  rw [CellTable.read, Statement.write, absent, Table.get?_put]
  by_cases same : key = s.keyOf params
  · rw [if_pos same, if_pos same, Option.map_some]
  · rw [if_neg same, if_neg same, CellTable.read]

namespace Run

/-- The statement that writes a run, and in front of its columns the one that the table fills. -/
def statement : Statement where
  columns := ["id", "workflow_id", "source", "retry_count", "total", "succeeded", "failed",
    "failed_ids", "started_at", "finished_at"]
  key := ["id"]
  overwritten := []

/-- The columns in the order in which they are read. -/
def asked : List String :=
  ["id", "workflow_id", "source", "retry_count", "total", "succeeded", "failed", "failed_ids",
    "started_at", "finished_at"]

/-- The parameters of the statement, behind the number that the table gives. -/
def cells (number : Int64) (r : Run) : List Cell :=
  [.integer number, .text r.workflow, .text r.source.name,
    .integer (RunRow.countWord r.retryCount), .integer (RunRow.countWord r.total),
    .integer (RunRow.countWord r.succeeded), .integer (RunRow.countWord r.failed),
    .text (Json.compact (.arr (r.failedIds.map .ofInt64))), .text r.startedAt.offsetText,
    .text r.finishedAt.offsetText]

/-- Reads a run by position. -/
def ofCells? : List Cell → Option (Except StorageFault Run)
  | [c0, c1, c2, c3, c4, c5, c6, c7, c8, c9] => do
    let number ← c0.integer?
    let workflow ← c1.text?
    let source ← c2.text?
    let retryCount ← c3.integer?
    let total ← c4.integer?
    let succeeded ← c5.integer?
    let failed ← c6.integer?
    let failedIds ← c7.text?
    let startedAt ← c8.text?
    let finishedAt ← c9.text?
    let row : RunRow := {
      workflow, source, retryCount, total, succeeded, failed, failedIds, startedAt, finishedAt }
    some (row.toRun number)
  | _ => none

theorem map_bind_cells (number : Int64) (r : Run) :
    asked.map (statement.bind (r.cells number)) = r.cells number :=
  statement.map_bind (by decide) rfl

theorem keyOf_cells (number : Int64) (r : Run) :
    statement.keyOf (r.cells number) = [.integer number] := by
  have front := congrArg (List.take 1) (r.map_bind_cells number)
  rw [← List.map_take] at front
  exact front

theorem ofCells?_cells (number : Int64) (r : Run) :
    ofCells? (r.cells number) = some ((RunRow.ofRun r).toRun number) := rfl

end Run

namespace Tables

/-- A table of cells says what the runs of the store say. -/
structure RunCells (t : Tables) (c : CellTable) : Prop where
  keys : c.keys = t.runs.keys.map fun number => [.integer number]
  read : ∀ number, (c.read Run.asked [.integer number]).map Run.ofCells? =
    (t.runs.get? number).map fun row => some (row.toRun number)

theorem runCells_recordRun {t t' : Tables} {c : CellTable} (numbered : t.Numbered)
    (cells : t.RunCells c) {r : Run} {number : Int64}
    (taken : t.recordRun r = (.ok number, t')) :
    t'.RunCells (Run.statement.write c (r.cells number)) := by
  rcases t.recordRun_cases r with full | ⟨free, next⟩
  · rw [full] at taken
    cases taken
  · rw [next] at taken
    cases taken
    have new : t.lastRun + 1 ∉ t.runs.keys := fun there => by
      have le := numbered _ there
      rw [toInt_add_one free] at le
      omega
    have newCells : Run.statement.keyOf (r.cells (t.lastRun + 1)) ∉ c.keys := by
      rw [Run.keyOf_cells, cells.keys]
      intro there
      obtain ⟨number, member, same⟩ := List.mem_map.1 there
      cases same
      exact new member
    refine ⟨?_, fun number => ?_⟩
    · have written : (Run.statement.write c (r.cells (t.lastRun + 1))).keys =
          c.keys ++ [[.integer (t.lastRun + 1)]] := by
        rw [Statement.write, Table.keys_put, if_neg newCells, Run.keyOf_cells]
      rw [written, cells.keys, Table.keys_put, if_neg new, List.map_append, List.map_singleton]
    · rw [Statement.read_write_of_new newCells, Run.keyOf_cells, Run.map_bind_cells,
        Table.get?_put]
      by_cases same : number = t.lastRun + 1
      · subst same
        rw [if_pos rfl, if_pos rfl, Option.map_some, Option.map_some, Run.ofCells?_cells]
      · have differ : ([.integer number] : List Cell) ≠ [.integer (t.lastRun + 1)] := by
          intro equal
          cases equal
          exact same rfl
        rw [if_neg differ, if_neg same, cells.read]

end Tables

namespace Database

theorem runCells_recordRuns {d : Database} {c : CellTable} (numbered : d.tables.Numbered)
    (cells : d.tables.RunCells c) (rs : List Run) :
    (d.recordRuns rs).2.tables.RunCells ((d.recordRuns rs).1.foldl
      (fun c run => Run.statement.write c (run.2.cells run.1)) c) := by
  induction rs generalizing d c with
  | nil => exact cells
  | cons r rs ih =>
    rcases d.recordRun_cases r with ⟨e, refused⟩ | ⟨number, t, taken, step⟩
    · simp only [recordRuns, refused]
      exact ih numbered cells
    · simp only [recordRuns, step, List.foldl_cons]
      have kept := (Tables.newestFirst_recordRun numbered taken).1
      exact ih (d := { d with tables := t }) kept (Tables.runCells_recordRun numbered cells taken)

/-! ## The listing -/

section

variable {d : Database} (fresh : d.tables.runs = .empty) (rs : List Run)
include fresh

theorem numbered_of_fresh : d.tables.Numbered := by
  intro number member
  rw [fresh] at member
  cases member

/-- After the first runs of a store the listing is what was taken, the other way round. -/
theorem newestFirst_of_fresh :
    (d.recordRuns rs).2.tables.newestFirst = ((d.recordRuns rs).1.map rowOf).reverse := by
  have empty : d.tables.newestFirst = [] := by
    rw [Tables.newestFirst, fresh]
    exact List.mergeSort_nil
  have listed := (newestFirst_recordRuns (numbered_of_fresh fresh) rs).2.2
  rwa [empty, List.append_nil] at listed

theorem rising_recordRuns : (d.recordRuns rs).1.Pairwise fun a b => a.1 < b.1 := by
  have falling := (d.recordRuns rs).2.tables.pairwise_newestFirst
  rw [newestFirst_of_fresh fresh, List.pairwise_reverse, List.pairwise_map] at falling
  exact falling.imp Int64.lt_iff_toInt_lt.2

theorem recentRuns_of_fresh (works : d.fails .recentRuns = none) (fit : ∀ r ∈ rs, r.Fits)
    (plain : ∀ r ∈ rs, r.HasPlainYears) (limit : Nat) :
    (d.recordRuns rs).2.recentRuns limit =
      .ok (((d.recordRuns rs).1.reverse.take limit).map Run.numbered) := by
  have fails := (newestFirst_recordRuns (numbered_of_fresh fresh) rs).1
  have among : ∀ run ∈ (d.recordRuns rs).1.reverse.take limit, run.2 ∈ rs := fun run member =>
    mem_recordRuns (List.mem_reverse.1 (List.mem_of_mem_take member))
  rw [recentRuns, ask, fails, works, Tables.recentRuns_eq, newestFirst_of_fresh fresh,
    ← List.map_reverse, ← List.map_take, mapM_rowOf fun run member => fit _ (among run member)]
  exact (stored_eq_ok_iff _ _).2 ((mapM_listed_eq_ok_iff _ _).2
    ⟨fun run member => plain _ (among run member), rfl⟩)

end

/-- Any runs are taken one after another by a store that never had one, under the numbers from one
on, until there is no larger number. Of those that were taken so many as are asked for are listed,
newest first, under the number that its caller got. But for its number each is as it was recorded
exactly if a clock shows its times. A table that is written and read by columns says the same. -/
theorem runs_are_a_log (d : Database) (works : ∀ op, d.fails op = none)
    (fresh : d.tables.runs = .empty) (first : d.tables.lastRun = 0) (rs : List Run)
    (fit : ∀ r ∈ rs, r.Fits) (plain : ∀ r ∈ rs, r.HasPlainYears) :
    let taken := (d.recordRuns rs).1
    let after := (d.recordRuns rs).2
    taken = ((rs.take mostRuns).zipIdx 1).map (fun r => (Int64.ofNat r.2, r.1)) ∧
    taken.Pairwise (fun a b => a.1 < b.1) ∧
    (∀ limit, after.recentRuns limit = .ok ((taken.reverse.take limit).map Run.numbered)) ∧
    (∀ run ∈ taken, Run.numbered run = { run.2 with number := some run.1 } ↔ run.2.OnClock) ∧
    after.tables.RunCells
      (taken.foldl (fun c run => Run.statement.write c (run.2.cells run.1)) .empty) := by
  intro taken after
  have start : d.tables.RunCells .empty := by
    refine ⟨?_, fun number => ?_⟩
    · rw [fresh]
      rfl
    · rw [fresh]
      rfl
  refine ⟨fst_recordRuns (works _) (n := 0) (by rw [first]; rfl) rs, rising_recordRuns fresh rs,
    recentRuns_of_fresh fresh rs (works _) fit plain, fun run _ => Run.numbered_eq_iff run.1 run.2,
    runCells_recordRuns (numbered_of_fresh fresh) start rs⟩

/-- A run with counters beyond the signed words, ended inside a leap second, and a later one. A
number that the first one brings along does not count. -/
theorem runs_are_a_log_large_counters :
    let leap : Timestamp := ⟨⟨9999, 12, 31, by decide, by decide, by decide⟩, 86399, 1500000000,
      by decide, by decide⟩
    let older : Run := ⟨some 9, "a", .cascade, 4294967295, 18446744073709551615,
      9223372036854775808, 1, [-1, 2], .epoch, leap⟩
    let newer : Run := ⟨none, "", .manual, 0, 0, 0, 0, [], leap, leap⟩
    let d : Database := {}
    let after := (d.recordRuns [older, newer]).2
    (∀ op, d.fails op = none) ∧ d.tables.runs = .empty ∧ d.tables.lastRun = 0 ∧
      (∀ r ∈ [older, newer], r.Fits) ∧ (∀ r ∈ [older, newer], r.HasPlainYears) ∧
      (d.recordRuns [older, newer]).1 = [(1, older), (2, newer)] ∧
      after.recentRuns 1 = .ok [{ newer with number := some 2 }] ∧
      after.recentRuns 7 =
        .ok [{ newer with number := some 2 }, { older with number := some 1 }] := by
  intro leap older newer d after
  have fit : ∀ r ∈ [older, newer], r.Fits :=
    List.forall_mem_cons.2 ⟨⟨by decide, by decide, by decide, by decide⟩,
      List.forall_mem_singleton.2 ⟨by decide, by decide, by decide, by decide⟩⟩
  have plain : ∀ r ∈ [older, newer], r.HasPlainYears :=
    List.forall_mem_cons.2 ⟨⟨by decide, by decide⟩,
      List.forall_mem_singleton.2 ⟨by decide, by decide⟩⟩
  obtain ⟨taken, -, listed, -⟩ := runs_are_a_log d (fun _ => rfl) rfl rfl [older, newer] fit plain
  have both : (d.recordRuns [older, newer]).1 = [(1, older), (2, newer)] := by
    rw [taken, List.take_of_length_le (by decide)]
    rfl
  have first : Run.numbered (1, older) = { older with number := some 1 } :=
    (Run.numbered_eq_iff 1 older).2 (by decide)
  have second : Run.numbered (2, newer) = { newer with number := some 2 } :=
    (Run.numbered_eq_iff 2 newer).2 (by decide)
  have one := listed 1
  have two := listed 7
  rw [both, List.reverse_cons, List.reverse_singleton, List.singleton_append] at one two
  rw [List.take_succ_cons, List.take_zero, List.map_singleton, second] at one
  rw [List.take_of_length_le (by decide), List.map_cons, List.map_singleton, first, second] at two
  exact ⟨fun _ => rfl, rfl, rfl, fit, plain, both, one, two⟩

/-- A run that ended in a leap second that is not the last of its minute is listed as if it had
ended a second later. -/
theorem run_in_leap_second_is_moved :
    let newYear : Date := ⟨2024, 1, 1, by decide, by decide, by decide⟩
    let written : Timestamp := ⟨newYear, 30, 1750000000, by decide, by decide⟩
    let found : Timestamp := ⟨newYear, 31, 750000000, by decide, by decide⟩
    let run (number : Option Int64) (t : Timestamp) : Run :=
      ⟨number, "w", .cron, 0, 1, 1, 0, [], .epoch, t⟩
    let d : Database := {}
    (run none written).Fits ∧ (run none written).HasPlainYears ∧
      (d.recordRuns [run none written]).1 = [(1, run none written)] ∧
      (d.recordRuns [run none written]).2.recentRuns 3 = .ok [run (some 1) found] ∧
      run (some 1) found ≠ run (some 1) written := by
  intro newYear written found run d
  have fits : (run none written).Fits := ⟨by decide, by decide, by decide, by decide⟩
  exact ⟨fits, ⟨by decide, by decide⟩, by decide +kernel⟩

end Database
end LeagueSync
