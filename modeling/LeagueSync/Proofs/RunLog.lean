import LeagueSync.Proofs.EntryTable
import LeagueSync.Proofs.RecordText
import LeagueSync.Proofs.RunHistory

/-!
# LeagueSync.Proofs.RunLog

The table of runs as a log. Each run that is noted gets the next number and comes first in the
listing, in front of those from before; what is listed of it is the run itself, as far as its two
times can be read.

* `RunRow.toRun_ofRun`: what a row of a run is read as.
* `Tables.newestFirst_recordRun`: noting a run puts one row in front.
* `Database.newestFirst_recordRuns`: after any calls the runs that were taken lead the listing.
* `Database.recentRuns_recordRuns`: what is listed of them.
-/

namespace LeagueSync

open Json

theorem mapM_congr {α β ε : Type} {f g : α → Except ε β} {xs : List α}
    (h : ∀ x ∈ xs, f x = g x) : xs.mapM f = xs.mapM g := by
  induction xs with
  | nil => rfl
  | cons x xs ih =>
    rw [List.mapM_cons, List.mapM_cons, h x List.mem_cons_self,
      ih fun y later => h y (List.mem_cons_of_mem _ later)]

/-! ## Columns -/

theorem Trigger.parse?_name (t : Trigger) : parse? t.name = some t := by
  cases t <;> decide +kernel

theorem Json.trees?_map {α : Type} {decode : Tree → Option α} {f : α → Json}
    (reads : ∀ a, Reads decode (f a) a) (as : List α) :
    ∃ ts, trees? (as.map f) = some ts ∧ ts.mapM decode = some as := by
  induction as with
  | nil => exact ⟨[], rfl, rfl⟩
  | cons a as ih =>
    obtain ⟨t, tree, read⟩ := reads a
    obtain ⟨ts, trees, readAll⟩ := ih
    refine ⟨t :: ts, ?_, ?_⟩
    · simp only [List.map_cons, trees?, tree, trees, Option.bind_eq_bind, Option.bind_some]
    · simp [List.mapM_cons, read, readAll]

theorem Json.reads_list {α : Type} {decode : Tree → Option α} {f : α → Json}
    (reads : ∀ a, Reads decode (f a) a) (as : List α) :
    Reads (Tree.list decode) (.arr (as.map f)) as := by
  obtain ⟨ts, trees, readAll⟩ := trees?_map reads as
  refine ⟨.array ts, ?_, readAll⟩
  rw [tree?, trees, Option.map_some]

namespace RunRow

theorem wordCount_countWord {n : Nat} (small : n < UInt64.size) : wordCount (countWord n) = n := by
  have word : (Int64.ofNat n).toUInt64 = UInt64.ofNat n := rfl
  rw [wordCount, countWord, word, UInt64.toNat_ofNat_of_lt' small]

theorem readRetryCount_countWord {n : Nat} (small : n < UInt32.size) :
    readRetryCount (countWord n) = .ok n := by
  have size : UInt32.size = 4294967296 := rfl
  have value : (Int64.ofNat n).toInt = n := Int64.toInt_ofNat_of_lt (by omega)
  rw [readRetryCount, countWord, value, if_pos (by omega)]
  rfl

theorem readIds_compact (ids : List EntryId) :
    readIds (compact (.arr (ids.map .ofInt64))) = .ok ids := by
  obtain ⟨t, tree, read⟩ := reads_list reads_int64 ids
  rw [readIds, read?_compact tree, Option.bind_some, read]

end RunRow

/-! ## Rows -/

/-- A run whose counters are of the sizes that they have in the program. -/
structure Run.Fits (r : Run) : Prop where
  retryCount : r.retryCount < UInt32.size
  total : r.total < UInt64.size
  succeeded : r.succeeded < UInt64.size
  failed : r.failed < UInt64.size

/-- What is listed of a run that was taken under a number: its times as they read back, and all
else as it was. -/
def Run.listed (number : Int64) (r : Run) : Except StorageFault Run := do
  let startedAt ← readTime 8 r.startedAt.offsetText
  let finishedAt ← readTime 9 r.finishedAt.offsetText
  .ok { r with number := some number, startedAt, finishedAt }

namespace RunRow

/-- Of all columns only the two times may fail to be read. -/
theorem toRun_ofRun {r : Run} (fits : r.Fits) (number : Int64) :
    toRun number (ofRun r) = r.listed number := by
  have source : readTrigger r.source.name = .ok r.source := by
    rw [readTrigger, Trigger.parse?_name]
  simp only [toRun, ofRun, source, readRetryCount_countWord fits.retryCount, readIds_compact,
    wordCount_countWord fits.total, wordCount_countWord fits.succeeded,
    wordCount_countWord fits.failed, Run.listed, bind, Except.bind]

end RunRow

/-! ## The listing -/

namespace Tables

/-- No run has a larger number than the last one. -/
def Numbered (t : Tables) : Prop :=
  ∀ number ∈ t.runs.keys, number.toInt ≤ t.lastRun.toInt

theorem numbered_empty : Numbered {} := by
  intro number member
  cases member

def newestFirst (t : Tables) : List (Int64 × RunRow) :=
  sortedBy (fun row => -row.1.toInt) t.runs.rows

theorem recentRuns_eq (t : Tables) (limit : Nat) :
    t.recentRuns limit = (t.newestFirst.take limit).mapM fun row => row.2.toRun row.1 := rfl

/-- Numbers are distinct, so they fall strictly along the listing. -/
theorem pairwise_newestFirst (t : Tables) :
    t.newestFirst.Pairwise fun a b => b.1.toInt < a.1.toInt := by
  have own : t.runs.rows.Pairwise fun a b => -a.1.toInt ≠ -b.1.toInt :=
    (List.pairwise_map.1 t.runs.nodup).imp fun differ same =>
      differ (Int64.toInt_inj.1 (Int.neg_inj.1 same))
  exact (pairwise_sortedBy_lt own).imp Int.neg_lt_neg_iff.1

theorem recordRun_cases (t : Tables) (r : Run) :
    t.recordRun r = (.error .full, t) ∨
      t.lastRun ≠ Int64.maxValue ∧ t.recordRun r = (.ok (t.lastRun + 1),
        { t with runs := t.runs.put (t.lastRun + 1) (.ofRun r), lastRun := t.lastRun + 1 }) := by
  by_cases full : t.lastRun = Int64.maxValue
  · exact .inl (by rw [recordRun, if_pos full])
  · exact .inr ⟨full, by rw [recordRun, if_neg full]⟩

/-- A run that is taken is listed first, under the number that the caller got. -/
theorem newestFirst_recordRun {t t' : Tables} (numbered : t.Numbered) {r : Run} {number : Int64}
    (taken : t.recordRun r = (.ok number, t')) :
    t'.Numbered ∧ number.toInt = t.lastRun.toInt + 1 ∧ t'.lastRun = number ∧
      t'.newestFirst = (number, .ofRun r) :: t.newestFirst := by
  rcases t.recordRun_cases r with full | ⟨free, next⟩
  · rw [full] at taken
    cases taken
  · rw [next] at taken
    cases taken
    have grows := toInt_add_one free
    have new : t.lastRun + 1 ∉ t.runs.keys := fun there => by
      have le := numbered _ there
      omega
    have rows : (t.runs.put (t.lastRun + 1) (.ofRun r)).rows =
        t.runs.rows ++ [(t.lastRun + 1, .ofRun r)] := Table.putRow_of_notMem new _
    have older : ∀ row ∈ t.newestFirst, row.1.toInt < (t.lastRun + 1).toInt := fun row member => by
      have le := numbered row.1 (List.mem_map_of_mem (mem_sortedBy.1 member))
      omega
    refine ⟨fun number member => ?_, grows, rfl, ?_⟩
    · rcases Table.mem_keys_putRow.1 member with rfl | before
      · exact Int.le_refl _
      · have le := numbered number before
        show number.toInt ≤ (t.lastRun + 1).toInt
        omega
    · -- both sides fall strictly and have the same rows, so they are one list
      refine List.Perm.eq_of_pairwise (fun a b _ _ ab ba => absurd ab (by omega))
        (pairwise_newestFirst _) (List.pairwise_cons.2 ⟨older, t.pairwise_newestFirst⟩) ?_
      rw [newestFirst, rows]
      exact (List.mergeSort_perm _ _).trans ((List.perm_append_singleton _ _).trans
        ((List.mergeSort_perm _ _).symm.cons _))

end Tables

/-! ## Calls -/

namespace Database

/-- Notes runs one after another: the runs that were taken with the numbers that they got, and what
the store is then. -/
def recordRuns (d : Database) : List Run → List (Int64 × Run) × Database
  | [] => ([], d)
  | r :: rs =>
    match d.recordRun r with
    | (.ok number, d) =>
      let (taken, d) := d.recordRuns rs
      ((number, r) :: taken, d)
    | (.error _, d) => d.recordRuns rs

/-- The row that a run is kept in. -/
def rowOf (taken : Int64 × Run) : Int64 × RunRow :=
  (taken.1, .ofRun taken.2)

theorem recordRun_cases (d : Database) (r : Run) :
    (∃ e, d.recordRun r = (.error e, d)) ∨
      ∃ number t, d.tables.recordRun r = (.ok number, t) ∧
        d.recordRun r = (.ok number, { d with tables := t }) := by
  rw [recordRun, perform]
  cases d.fails .recordRun with
  | some e => exact .inl ⟨e, rfl⟩
  | none =>
    rcases d.tables.recordRun_cases r with full | ⟨-, next⟩
    · rw [full]
      exact .inl ⟨_, rfl⟩
    · rw [next]
      exact .inr ⟨_, _, rfl, rfl⟩

/-- Whatever became of the single calls, the runs that were taken lead the listing, the last one
first, and what was listed before follows. -/
theorem newestFirst_recordRuns {d : Database} (numbered : d.tables.Numbered) (rs : List Run) :
    let after := d.recordRuns rs
    after.2.fails = d.fails ∧ after.2.tables.Numbered ∧
      after.2.tables.newestFirst = (after.1.map rowOf).reverse ++ d.tables.newestFirst := by
  induction rs generalizing d with
  | nil => exact ⟨rfl, numbered, rfl⟩
  | cons r rs ih =>
    rcases d.recordRun_cases r with ⟨e, refused⟩ | ⟨number, t, taken, step⟩
    · simp only [recordRuns, refused]
      exact ih numbered
    · obtain ⟨numbered', -, -, first⟩ := Tables.newestFirst_recordRun numbered taken
      obtain ⟨fails, kept, listed⟩ := ih (d := { d with tables := t }) numbered'
      simp only [recordRuns, step]
      refine ⟨fails, kept, ?_⟩
      rw [listed, first, List.map_cons, List.reverse_cons, List.append_assoc]
      rfl

theorem mem_recordRuns {d : Database} {rs : List Run} {taken : Int64 × Run}
    (member : taken ∈ (d.recordRuns rs).1) : taken.2 ∈ rs := by
  induction rs generalizing d with
  | nil => cases member
  | cons r rs ih =>
    rw [recordRuns] at member
    split at member
    · rcases List.mem_cons.1 member with rfl | later
      · exact List.mem_cons_self
      · exact List.mem_cons_of_mem _ (ih later)
    · exact List.mem_cons_of_mem _ (ih member)

/-- The rows of runs that fit are read as the runs are listed. -/
theorem mapM_rowOf {taken : List (Int64 × Run)} (fit : ∀ run ∈ taken, run.2.Fits) :
    ((taken.map rowOf).mapM fun row => row.2.toRun row.1) =
      taken.mapM fun run => run.2.listed run.1 := by
  rw [List.mapM_map]
  exact mapM_congr fun run member => RunRow.toRun_ofRun (fit run member) run.1

/-- As many runs as were taken, or fewer, are listed as they were, newest first. -/
theorem recentRuns_recordRuns {d : Database} (numbered : d.tables.Numbered)
    (works : d.fails .recentRuns = none) {rs : List Run} (fit : ∀ r ∈ rs, r.Fits) {limit : Nat}
    (within : limit ≤ (d.recordRuns rs).1.length) :
    (d.recordRuns rs).2.recentRuns limit = stored
      (((d.recordRuns rs).1.reverse.take limit).mapM fun taken => taken.2.listed taken.1) := by
  obtain ⟨fails, -, rows⟩ := newestFirst_recordRuns numbered rs
  have long : limit ≤ ((d.recordRuns rs).1.map rowOf).reverse.length := by
    rw [List.length_reverse, List.length_map]
    exact within
  have fitting : ∀ run ∈ (d.recordRuns rs).1.reverse.take limit, run.2.Fits := fun run member =>
    fit _ (mem_recordRuns (List.mem_reverse.1 (List.mem_of_mem_take member)))
  rw [recentRuns, ask, fails, works, Tables.recentRuns_eq, rows,
    List.take_append_of_le_length long, ← List.map_reverse, ← List.map_take, mapM_rowOf fitting]

end Database
end LeagueSync
