import LeagueSync.Proofs.EntryTable
import Mathlib.Data.List.Forall2

/-!
# LeagueSync.Proofs.PartLookups

Many entries looked up at once. A long list of ids is cut into parts, and a query for each part
gives the rows of its ids in whatever order. Sorted and without repeats, the answers are the entries
that one query for the whole list gives: an id that is listed twice, in one part or in several,
gives one entry.

* `pairwise_dropRepeats`: equal keys stand side by side in a sorted list, so none is left twice.
* `Tables.Listing`: the entries of some ids, each once, in the order of their ids. There is one such
  list: `Tables.Listing.unique`.
* `Tables.Readable.listing_of_answers`: the answers to any parts give it.
* `Database.findEntries_as_one_query`: all together.
-/

namespace LeagueSync

/-! ## Lists -/

/-- Without its repeats, a sorted list rises strictly. -/
theorem pairwise_dropRepeats {α κ : Type} [DecidableEq κ] {key : α → κ} {rank : κ → Int}
    (injective : ∀ k k', rank k = rank k' → k = k') {xs : List α}
    (sorted : xs.Pairwise fun a b => rank (key a) ≤ rank (key b)) :
    (dropRepeats key xs).Pairwise fun a b => rank (key a) < rank (key b) := by
  induction xs using dropRepeats.induct key with
  | case1 => simp [dropRepeats]
  | case2 a => simp [dropRepeats]
  | case3 a b rest same ih =>
    rw [dropRepeats, if_pos same]
    exact ih (sorted.sublist ((List.sublist_cons_self b rest).cons_cons a))
  | case4 a b rest other ih =>
    rw [dropRepeats, if_neg other]
    obtain ⟨first, later⟩ := List.pairwise_cons.1 sorted
    refine List.pairwise_cons.2 ⟨fun c member => ?_, ih later⟩
    have least : rank (key b) ≤ rank (key c) := by
      rcases List.mem_cons.1 (mem_of_mem_dropRepeats member) with rfl | after
      · exact Int.le_refl _
      · exact (List.pairwise_cons.1 later).1 c after
    have le := first b List.mem_cons_self
    have ne : rank (key a) ≠ rank (key b) := fun same => other (injective _ _ same)
    omega

/-- What `mapM` gives belongs to its arguments one by one. -/
theorem forall₂_of_mapM_eq_ok {α β ε : Type} {f : α → Except ε β} {xs : List α} {ys : List β}
    (ran : xs.mapM f = .ok ys) : List.Forall₂ (fun x y => f x = .ok y) xs ys := by
  induction xs generalizing ys with
  | nil =>
    cases ran
    exact .nil
  | cons x xs ih =>
    rw [List.mapM_cons] at ran
    cases first : f x with
    | error e =>
      rw [first] at ran
      cases ran
    | ok y =>
      cases rest : xs.mapM f with
      | error e =>
        rw [first, rest] at ran
        cases ran
      | ok ys =>
        rw [first, rest] at ran
        cases ran
        exact .cons first (ih rest)

/-! ## Listings -/

namespace Tables

variable {t : Tables} {ids : List EntryId} {es es' found : List Entry}

/-- The entries with an id of the list, each once, in the order of their ids. -/
structure Listing (t : Tables) (ids : List EntryId) (es : List Entry) : Prop where
  ascending : es.Pairwise fun a b => a.id < b.id
  mem : ∀ e, e ∈ es ↔ e.id ∈ ids ∧ t.findEntry e.id = .ok (some e)

/-- What a query for some ids may answer: their entries, in any order. -/
def Answers (t : Tables) (ids : List EntryId) (answer : List Entry) : Prop :=
  ∃ selected, t.selectEntries ids = .ok selected ∧ answer.Perm selected

namespace Listing

theorem nodup (h : t.Listing ids es) : es.Nodup :=
  h.ascending.imp fun below same => by
    subst same
    exact Int64.lt_irrefl below

theorem unique (h : t.Listing ids es) (h' : t.Listing ids es') : es = es' := by
  have perm : es.Perm es' :=
    (List.perm_ext_iff_of_nodup h.nodup h'.nodup).2 fun e => (h.mem e).trans (h'.mem e).symm
  refine perm.eq_of_pairwise (fun a b _ _ ab ba => ?_) h.ascending h'.ascending
  exact absurd (Int64.lt_trans ab ba) Int64.lt_irrefl

theorem congr {ids' : List EntryId} (h : t.Listing ids' es) (same : ∀ id, id ∈ ids' ↔ id ∈ ids) :
    t.Listing ids es :=
  ⟨h.ascending, fun e => by rw [h.mem, same]⟩

/-- Sorting brings a listing back into its order. -/
theorem sortedBy_eq (h : t.Listing ids es) (perm : found.Perm es) :
    sortedBy (·.id.toInt) found = es := by
  have back : (sortedBy (·.id.toInt) found).Perm es := (List.mergeSort_perm _ _).trans perm
  have own : found.Pairwise fun a b => a.id.toInt ≠ b.id.toInt :=
    perm.symm.pairwise (h.ascending.imp fun {a b} below same => by
      rw [Int64.toInt_inj.1 same] at below
      exact Int64.lt_irrefl below) Ne.symm
  refine back.eq_of_pairwise (fun a b _ _ ab ba => ?_) (pairwise_sortedBy_lt own)
    (h.ascending.imp Int64.lt_iff_toInt_lt.1)
  omega

/-- Whatever the order and the repeats in which entries were found, sorted and without repeats they
are a listing. -/
theorem of_found (mem : ∀ e, e ∈ found ↔ e.id ∈ ids ∧ t.findEntry e.id = .ok (some e)) :
    t.Listing ids (dropRepeats Entry.id (sortedBy (·.id.toInt) found)) := by
  refine ⟨?_, fun e => ?_⟩
  · have sorted := pairwise_sortedBy (fun e : Entry => e.id.toInt) found
    exact (pairwise_dropRepeats (fun _ _ => Int64.toInt_inj.1) sorted).imp Int64.lt_iff_toInt_lt.2
  · rw [mem_dropRepeats, mem_sortedBy, mem]
    -- A repeat is left out for its id alone. Both come from the row under that id, so they agree.
    intro a ha b hb same
    have ofA := ((mem a).1 (mem_sortedBy.1 ha)).2
    have ofB := ((mem b).1 (mem_sortedBy.1 hb)).2
    rw [same, ofB] at ofA
    exact (Option.some.inj (Except.ok.inj ofA)).symm

end Listing

namespace Readable

variable (h : t.Readable)
include h

/-- One query that gives its rows in the order of their ids gives the listing. -/
theorem listing_selectEntries (ids : List EntryId) :
    ∃ es, t.selectEntries ids = .ok es ∧ t.Listing ids es := by
  obtain ⟨es, selected, members⟩ := h.selectEntries ids
  refine ⟨es, selected, ?_, members⟩
  let rows := t.entries.rows.filter fun row => ids.contains row.1
  have own : rows.Pairwise fun a b => a.1.toInt ≠ b.1.toInt :=
    ((List.pairwise_map.1 t.entries.nodup).filter _).imp fun differ same =>
      differ (Int64.toInt_inj.1 same)
  -- Reading keeps the order of the rows, and the entry of a row has the key of the row as its id.
  have ran := (List.forall₂_and_left _ _).2
    ⟨fun row member => ((t.mem_selected ids row).1 member).1, forall₂_of_mapM_eq_ok selected⟩
  have keys : (sortedBy (·.1.toInt) rows).map (·.1) = es.map (·.id) := by
    rw [← List.forall₂_eq_eq_eq, List.forall₂_map_left_iff, List.forall₂_map_right_iff]
    exact ran.imp fun row e ⟨there, read⟩ =>
      (h row.1 row.2 there).1.symm.trans (EntryRow.id_of_toEntry read).symm
  have rising := (pairwise_sortedBy_lt own).imp Int64.lt_iff_toInt_lt.2
  rw [← List.pairwise_map (f := fun row : EntryId × EntryRow => row.1), keys] at rising
  exact List.pairwise_map.1 rising

/-- What the answers to several parts have between them is what belongs to the listing. -/
theorem mem_answers {parts : List (List EntryId)} {answers : List (List Entry)}
    (each : List.Forall₂ t.Answers parts answers) (e : Entry) :
    e ∈ answers.flatten ↔ e.id ∈ parts.flatten ∧ t.findEntry e.id = .ok (some e) := by
  induction each with
  | nil => simp
  | @cons part answer parts answers first rest ih =>
    obtain ⟨selected, gave, perm⟩ := first
    obtain ⟨es, gave', members⟩ := h.selectEntries part
    cases gave.symm.trans gave'
    rw [List.flatten_cons, List.flatten_cons, List.mem_append, List.mem_append, ih, perm.mem_iff,
      members, or_and_right]

theorem listing_of_answers {parts : List (List EntryId)} {answers : List (List Entry)}
    (whole : parts.flatten = ids) (each : List.Forall₂ t.Answers parts answers) :
    t.Listing ids (dropRepeats Entry.id (sortedBy (·.id.toInt) answers.flatten)) :=
  .of_found fun e => whole ▸ h.mem_answers each e

theorem listing_findEntries (ids : List EntryId) :
    ∃ es, t.findEntries ids = .ok es ∧ t.Listing ids es := by
  have each : ∀ part ∈ chunks (chunkSize - 1) ids, ∃ answer, t.selectEntries part = .ok answer :=
    fun part _ => (h.selectEntries part).imp fun _ gave => gave.1
  obtain ⟨answers, ran, -⟩ := mapM_ok each
  refine ⟨_, ?_, h.listing_of_answers (flatten_chunks (chunkSize - 1) ids)
    ((forall₂_of_mapM_eq_ok ran).imp fun _ answer gave => ⟨answer, gave, .refl _⟩)⟩
  rw [Tables.findEntries, ran]
  rfl

end Readable
end Tables

namespace Database

/-- Looking several ids up in a store whose rows can be read gives the stored entries with these
ids, each once, in the order of their ids. Only the set of ids matters. One query for all ids gives
the same entries once they are sorted, and so do queries for any parts of the list, in whatever
order each of them gives its rows. -/
theorem findEntries_as_one_query (d : Database) (works : d.fails .findEntries = none)
    (readable : d.tables.Readable) (ids : List EntryId) :
    ∃ es, d.findEntries ids = .ok es ∧ d.tables.Listing ids es ∧
      (∀ ids', (∀ id, id ∈ ids' ↔ id ∈ ids) → d.findEntries ids' = .ok es) ∧
      d.tables.selectEntries ids = .ok es ∧
      (∀ answer, d.tables.Answers ids answer → sortedBy (·.id.toInt) answer = es) ∧
      ∀ parts answers, parts.flatten = ids → List.Forall₂ d.tables.Answers parts answers →
        dropRepeats Entry.id (sortedBy (·.id.toInt) answers.flatten) = es := by
  have asked (ids' : List EntryId) : d.findEntries ids' = stored (d.tables.findEntries ids') := by
    rw [findEntries, ask, works]
  obtain ⟨es, found, listing⟩ := readable.listing_findEntries ids
  obtain ⟨selected, query, whole⟩ := readable.listing_selectEntries ids
  cases whole.unique listing
  refine ⟨es, by rw [asked, found]; rfl, listing, ?_, query, ?_, ?_⟩
  · intro ids' same
    obtain ⟨es', found', listing'⟩ := readable.listing_findEntries ids'
    rw [asked, found', (listing'.congr same).unique listing]
    rfl
  · rintro answer ⟨selected, gave, perm⟩
    cases query.symm.trans gave
    exact listing.sortedBy_eq perm
  · intro parts answers parted each
    exact (readable.listing_of_answers parted each).unique listing

/-- Entry 7 is asked for in both parts of the list, entry 8 is not there, and entry 3 comes late. -/
theorem findEntries_as_one_query_repeated :
    let entry (id : EntryId) : Entry :=
      ⟨id, "Reds", "A B", none, none, none, none, none, none, none, .epoch⟩
    let d : Database := { tables := Tables.upsertEntries {} [entry 9, entry 7, entry 3] }
    let ids : List EntryId := List.replicate 501 7 ++ [8, 3, 7]
    d.tables.Readable ∧ d.findEntries ids = .ok [entry 3, entry 7] ∧
      d.findEntries [8, 7, 3] = .ok [entry 3, entry 7] := by
  intro entry d ids
  have plain := Timestamp.hasPlainYear_epoch
  have readable : d.tables.Readable :=
    ((Tables.readable_empty.upsertEntry (e := entry 9) plain).upsertEntry
      (e := entry 7) plain).upsertEntry (e := entry 3) plain
  have row3 : d.tables.findEntry 3 = .ok (some (entry 3)) := Tables.findEntry_upsertEntry _ plain 3
  have row7 : d.tables.findEntry 7 = .ok (some (entry 7)) := by
    show (((Tables.upsertEntry {} (entry 9)).upsertEntry (entry 7)).upsertEntry
      (entry 3)).findEntry 7 = _
    rw [Tables.findEntry_upsertEntry _ plain, if_neg (by decide),
      Tables.findEntry_upsertEntry _ plain, if_pos rfl,
      (entry 7).shown_eq_self_iff.2 Timestamp.onClock_epoch]
  have row8 : d.tables.findEntry 8 = .ok none := rfl
  have listing : d.tables.Listing [8, 7, 3] [entry 3, entry 7] := by
    refine ⟨by decide, fun e => ?_⟩
    simp only [List.mem_cons, List.not_mem_nil, or_false]
    constructor
    · rintro (rfl | rfl)
      · exact ⟨.inr (.inr rfl), row3⟩
      · exact ⟨.inr (.inl rfl), row7⟩
    · rintro ⟨same | same | same, found⟩ <;> rw [same] at found
      · cases row8.symm.trans found
      · cases row7.symm.trans found
        exact .inr rfl
      · cases row3.symm.trans found
        exact .inl rfl
  have members (id : EntryId) : id ∈ [8, 7, 3] ↔ id ∈ ids := by
    simp only [ids, List.mem_append, List.mem_replicate, List.mem_cons, List.not_mem_nil]
    grind
  obtain ⟨es, found, given, same, -⟩ := findEntries_as_one_query d rfl readable ids
  cases given.unique (listing.congr members)
  exact ⟨readable, found, same _ members⟩

end Database
end LeagueSync
