import LeagueSync.Database.Operation
import LeagueSync.Proofs.ShownRecords

/-!
# LeagueSync.Proofs.EntryTable

The table of entries as a map from ids to entries. A table is readable if each row lies under its
own id and has a time that can be read; then no look-up fails, and looking several ids up at once,
in parts, sorted and without repeats, gives just the entries that single look-ups give.

* `Tables.findEntry_upsertEntry`, `Tables.Readable.upsertEntry`: what writing an entry changes.
* `Tables.Readable.findEntries`: several look-ups at once.
* `Tables.Keyed.of_findEntries`: what several look-ups give if times may be unreadable.
* `Table.isSome_get?_putAll`, `Table.mem_of_get?_putAll`, `Table.get?_foldl_put`: what is found
  after several writes.
-/

namespace LeagueSync

/-! ## Tables -/

namespace Table

variable {κ α : Type} [DecidableEq κ]

theorem find_eq_some_iff {rows : List (κ × α)} (nodup : (rows.map Prod.fst).Nodup) (k : κ) (a : α) :
    find k rows = some a ↔ (k, a) ∈ rows := by
  induction rows with
  | nil => simp [find]
  | cons row rest ih =>
    obtain ⟨k', b⟩ := row
    rw [List.map_cons, List.nodup_cons] at nodup
    by_cases same : k' = k
    · subst same
      have later : (k', a) ∉ rest := fun h => nodup.1 (List.mem_map.2 ⟨_, h, rfl⟩)
      simp [find, later, eq_comm]
    · have other : k ≠ k' := fun h => same h.symm
      simp [find, same, other, ih nodup.2]

theorem get?_eq_some_iff (t : Table κ α) (k : κ) (a : α) : t.get? k = some a ↔ (k, a) ∈ t.rows :=
  find_eq_some_iff t.nodup k a

theorem isSome_get?_putAll (t : Table κ α) (rows : List (κ × α)) (k : κ) :
    ((t.putAll rows).get? k).isSome ↔ k ∈ rows.map Prod.fst ∨ (t.get? k).isSome := by
  rw [get?_putAll, Option.isSome_or, Bool.or_eq_true, isSome_find_reverse]

/-- What is found after rows were written is one of them, or was there before. -/
theorem mem_of_get?_putAll {t : Table κ α} {rows : List (κ × α)} {k : κ} {a : α}
    (h : (t.putAll rows).get? k = some a) : (k, a) ∈ rows ∨ t.get? k = some a := by
  rw [get?_putAll, Option.or_eq_some_iff] at h
  rcases h with last | ⟨-, before⟩
  · exact .inl (List.mem_reverse.1 (mem_of_find last))
  · exact .inr before

/-- Of the values that are stored one after another, the last one of a key stays. -/
theorem get?_foldl_put {β : Type} (key : β → κ) (row : β → α) (t : Table κ α) (xs : List β)
    (k : κ) : (xs.foldl (fun t x => t.put (key x) (row x)) t).get? k =
      ((xs.reverse.find? fun x => decide (key x = k)).map row).or (t.get? k) := by
  induction xs generalizing t with
  | nil => rfl
  | cons x xs ih =>
    rw [List.foldl_cons, ih, List.reverse_cons, List.find?_append, get?_put]
    cases xs.reverse.find? fun x => decide (key x = k) with
    | some later => rfl
    | none =>
      by_cases same : key x = k
      · simp [same]
      · simp [same, Ne.symm same]

end Table

/-! ## Lists -/

theorem mapM_ok {α β ε : Type} {f : α → Except ε β} {xs : List α} (h : ∀ x ∈ xs, ∃ y, f x = .ok y) :
    ∃ ys, xs.mapM f = .ok ys ∧ ∀ y, y ∈ ys ↔ ∃ x ∈ xs, f x = .ok y := by
  induction xs with
  | nil => exact ⟨[], rfl, by simp⟩
  | cons x xs ih =>
    obtain ⟨y, first⟩ := h x List.mem_cons_self
    obtain ⟨ys, rest, members⟩ := ih fun x later => h x (List.mem_cons_of_mem _ later)
    refine ⟨y :: ys, ?_, ?_⟩
    · rw [List.mapM_cons, first, rest]
      rfl
    · intro z
      simp [members, first, eq_comm]

theorem mem_of_mapM_eq_ok {α β ε : Type} {f : α → Except ε β} {xs : List α} {ys : List β}
    (h : xs.mapM f = .ok ys) {y : β} (member : y ∈ ys) : ∃ x ∈ xs, f x = .ok y := by
  induction xs generalizing ys with
  | nil =>
    cases h
    cases member
  | cons x xs ih =>
    rw [List.mapM_cons] at h
    cases first : f x with
    | error e =>
      rw [first] at h
      cases h
    | ok z =>
      cases rest : xs.mapM f with
      | error e =>
        rw [first, rest] at h
        cases h
      | ok zs =>
        rw [first, rest] at h
        cases h
        rcases List.mem_cons.1 member with rfl | later
        · exact ⟨x, List.mem_cons_self, first⟩
        · obtain ⟨x', listed, gave⟩ := ih rest later
          exact ⟨x', .tail _ listed, gave⟩

theorem mem_sortedBy {α : Type} {key : α → Int} {xs : List α} {a : α} :
    a ∈ sortedBy key xs ↔ a ∈ xs :=
  List.mem_mergeSort

theorem pairwise_sortedBy {α : Type} (key : α → Int) (xs : List α) :
    (sortedBy key xs).Pairwise fun a b => key a ≤ key b := by
  have sorted : (sortedBy key xs).Pairwise fun a b => decide (key a ≤ key b) :=
    List.pairwise_mergeSort (by simp only [decide_eq_true_eq]; omega)
      (by simp only [Bool.or_eq_true, decide_eq_true_eq]; omega) xs
  exact sorted.imp of_decide_eq_true

/-- Members that have keys of their own rise strictly when they are sorted. -/
theorem pairwise_sortedBy_lt {α : Type} {key : α → Int} {xs : List α}
    (own : xs.Pairwise fun a b => key a ≠ key b) :
    (sortedBy key xs).Pairwise fun a b => key a < key b := by
  have distinct : (sortedBy key xs).Pairwise fun a b => key a ≠ key b :=
    (List.mergeSort_perm _ _).symm.pairwise own Ne.symm
  exact ((pairwise_sortedBy key xs).and distinct).imp fun h => by omega

theorem flatten_chunks {α : Type} (n : Nat) (xs : List α) : (chunks n xs).flatten = xs := by
  induction xs using chunks.induct n with
  | case1 => simp [chunks]
  | case2 x rest ih => rw [chunks, List.flatten_cons, ih, List.cons_append, List.take_append_drop]

/-- No member is lost with the repeats of a list whose members have keys of their own. -/
theorem mem_dropRepeats {α κ : Type} [DecidableEq κ] {key : α → κ} {xs : List α}
    (own : ∀ a ∈ xs, ∀ b ∈ xs, key a = key b → a = b) (a : α) :
    a ∈ dropRepeats key xs ↔ a ∈ xs := by
  induction xs using dropRepeats.induct key with
  | case1 => simp [dropRepeats]
  | case2 b => simp [dropRepeats]
  | case3 b c rest same ih =>
    have equal : b = c := own b (by simp) c (by simp) same
    subst equal
    rw [dropRepeats, if_pos rfl, ih fun x hx y hy => own x (.tail _ hx) y (.tail _ hy)]
    simp
  | case4 b c rest other ih =>
    rw [dropRepeats, if_neg other, List.mem_cons,
      ih fun x hx y hy => own x (.tail _ hx) y (.tail _ hy), List.mem_cons (b := b)]

theorem mem_of_mem_dropRepeats {α κ : Type} [DecidableEq κ] {key : α → κ} {xs : List α} {a : α}
    (h : a ∈ dropRepeats key xs) : a ∈ xs := by
  induction xs using dropRepeats.induct key with
  | case1 => simp [dropRepeats] at h
  | case2 b => simpa [dropRepeats] using h
  | case3 b c rest same ih =>
    rw [dropRepeats, if_pos same] at h
    rcases List.mem_cons.1 (ih h) with rfl | later
    · exact List.mem_cons_self
    · exact .tail _ (.tail _ later)
  | case4 b c rest other ih =>
    rw [dropRepeats, if_neg other] at h
    rcases List.mem_cons.1 h with rfl | later
    · exact List.mem_cons_self
    · exact .tail _ (ih later)

/-! ## Rows -/

theorem EntryRow.toEntry_ofEntry {e : Entry} (plain : e.updatedAt.HasPlainYear) :
    (EntryRow.ofEntry e).toEntry = .ok e.shown := by
  simp only [toEntry, ofEntry, readTime, Timestamp.readStored?_offsetText _ plain]
  rfl

theorem onClock_of_readTime {column : Nat} {text : String} {t : Timestamp}
    (h : readTime column text = .ok t) : t.OnClock := by
  cases read : Timestamp.readStored? text.toList with
  | none =>
    rw [readTime, read] at h
    cases h
  | some t' =>
    rw [readTime, read] at h
    cases h
    exact Timestamp.onClock_of_readStored? read

theorem EntryRow.onClock_of_toEntry {r : EntryRow} {e : Entry} (h : r.toEntry = .ok e) :
    e.OnClock := by
  cases time : readTime 10 r.updatedAt with
  | error fault => simp [toEntry, time, bind, Except.bind] at h
  | ok t =>
    rw [toEntry, time] at h
    cases h
    exact onClock_of_readTime time

theorem EntryRow.id_of_toEntry {r : EntryRow} {e : Entry} (h : r.toEntry = .ok e) :
    e.id = r.entry.id := by
  cases time : readTime 10 r.updatedAt with
  | error fault => simp [toEntry, time, bind, Except.bind] at h
  | ok t =>
    rw [toEntry, time] at h
    cases h
    rfl

namespace Tables

/-- Each row lies under its own id, and its time can be read. -/
def Readable (t : Tables) : Prop :=
  ∀ id row, t.entries.get? id = some row → row.entry.id = id ∧ ∃ e, row.toEntry = .ok e

theorem readable_empty : Readable {} := by
  intro id row h
  cases h

theorem findEntry_eq_some_iff (t : Tables) (id : EntryId) (e : Entry) :
    t.findEntry id = .ok (some e) ↔ ∃ row, t.entries.get? id = some row ∧ row.toEntry = .ok e := by
  cases found : t.entries.get? id with
  | none => simp [findEntry, found]
  | some row =>
    cases read : row.toEntry with
    | error fault => simp [findEntry, found, read, Except.map]
    | ok e' => simp [findEntry, found, read, Except.map]

theorem onClock_of_findEntry {t : Tables} {id : EntryId} {e : Entry}
    (found : t.findEntry id = .ok (some e)) : e.OnClock := by
  obtain ⟨row, -, read⟩ := (t.findEntry_eq_some_iff id e).1 found
  exact EntryRow.onClock_of_toEntry read

theorem mem_selected (t : Tables) (ids : List EntryId) (r : EntryId × EntryRow) :
    r ∈ sortedBy (·.1.toInt) (t.entries.rows.filter fun row => ids.contains row.1) ↔
      t.entries.get? r.1 = some r.2 ∧ r.1 ∈ ids := by
  rw [mem_sortedBy, List.mem_filter, List.contains_iff_mem, Table.get?_eq_some_iff]

theorem findEntry_upsertEntry (t : Tables) {e : Entry} (plain : e.updatedAt.HasPlainYear)
    (id : EntryId) :
    (t.upsertEntry e).findEntry id = if id = e.id then .ok (some e.shown) else t.findEntry id := by
  rw [findEntry, entries_upsert]
  by_cases same : id = e.id
  · simp [same, EntryRow.toEntry_ofEntry plain, Except.map]
  · simp [same, findEntry]

theorem Readable.upsertEntry {t : Tables} (h : t.Readable) {e : Entry}
    (plain : e.updatedAt.HasPlainYear) : (t.upsertEntry e).Readable := by
  intro id row found
  rw [entries_upsert] at found
  by_cases same : id = e.id
  · rw [if_pos same] at found
    cases found
    exact ⟨same.symm, e.shown, EntryRow.toEntry_ofEntry plain⟩
  · rw [if_neg same] at found
    exact h id row found

namespace Readable

variable {t : Tables} (h : t.Readable)
include h

theorem findEntry (id : EntryId) :
    ∃ row?, t.findEntry id = .ok row? ∧ ∀ e, row? = some e → e.id = id := by
  cases row : t.entries.get? id with
  | none => exact ⟨none, by simp [Tables.findEntry, row], by simp⟩
  | some row' =>
    obtain ⟨own, e, read⟩ := h id row' row
    refine ⟨some e, by simp [Tables.findEntry, row, read, Except.map], ?_⟩
    rintro _ ⟨⟩
    rw [EntryRow.id_of_toEntry read, own]

theorem id_of_findEntry {id : EntryId} {e : Entry} (found : t.findEntry id = .ok (some e)) :
    e.id = id := by
  obtain ⟨row?, read, own⟩ := h.findEntry id
  rw [read] at found
  exact own e (Except.ok.inj found)

/-- What is read of the rows of some ids. -/
theorem mapM_rows {ids : List EntryId} {rows : List (EntryId × EntryRow)}
    (selected : ∀ r, r ∈ rows ↔ t.entries.get? r.1 = some r.2 ∧ r.1 ∈ ids) :
    ∃ es, (rows.mapM fun row => row.2.toEntry) = .ok es ∧
      ∀ e, e ∈ es ↔ e.id ∈ ids ∧ t.findEntry e.id = .ok (some e) := by
  have read : ∀ r ∈ rows, ∃ e, r.2.toEntry = .ok e := fun r member =>
    (h r.1 r.2 ((selected r).1 member).1).2
  obtain ⟨es, all, members⟩ := mapM_ok read
  refine ⟨es, all, fun e => ?_⟩
  rw [members, findEntry_eq_some_iff]
  constructor
  · rintro ⟨r, member, read⟩
    obtain ⟨row, asked⟩ := (selected r).1 member
    have own : e.id = r.1 := (EntryRow.id_of_toEntry read).trans (h r.1 r.2 row).1
    rw [own]
    exact ⟨asked, r.2, row, read⟩
  · rintro ⟨asked, r, row, read⟩
    exact ⟨(e.id, r), (selected (e.id, r)).2 ⟨row, asked⟩, read⟩

theorem selectEntries (ids : List EntryId) :
    ∃ es, t.selectEntries ids = .ok es ∧
      ∀ e, e ∈ es ↔ e.id ∈ ids ∧ t.findEntry e.id = .ok (some e) :=
  h.mapM_rows (t.mem_selected ids)

/-- Looking several ids up finds just the entries that looking each up finds. -/
theorem findEntries (ids : List EntryId) :
    ∃ es, t.findEntries ids = .ok es ∧
      ∀ e, e ∈ es ↔ e.id ∈ ids ∧ t.findEntry e.id = .ok (some e) := by
  have each : ∀ part ∈ chunks (chunkSize - 1) ids, ∃ es, t.selectEntries part = .ok es :=
    fun part _ => (h.selectEntries part).imp fun _ selected => selected.1
  obtain ⟨parts, selected, members⟩ := mapM_ok each
  have found (e : Entry) :
      e ∈ parts.flatten ↔ e.id ∈ ids ∧ t.findEntry e.id = .ok (some e) := by
    have asked : e.id ∈ ids ↔ ∃ part ∈ chunks (chunkSize - 1) ids, e.id ∈ part := by
      rw [← List.mem_flatten, flatten_chunks]
    rw [List.mem_flatten, asked]
    constructor
    · rintro ⟨es, part, member⟩
      obtain ⟨ids', chunk, read⟩ := (members es).1 part
      obtain ⟨es', read', spec⟩ := h.selectEntries ids'
      cases read.symm.trans read'
      exact ⟨⟨ids', chunk, ((spec e).1 member).1⟩, ((spec e).1 member).2⟩
    · rintro ⟨⟨ids', chunk, member⟩, row⟩
      obtain ⟨es, read, spec⟩ := h.selectEntries ids'
      exact ⟨es, (members es).2 ⟨ids', chunk, read⟩, (spec e).2 ⟨member, row⟩⟩
  refine ⟨dropRepeats Entry.id (sortedBy (·.id.toInt) parts.flatten), ?_, fun e => ?_⟩
  · rw [Tables.findEntries, selected]
    rfl
  · rw [mem_dropRepeats, mem_sortedBy, found]
    intro a ha b hb same
    have ofA := ((found a).1 (mem_sortedBy.1 ha)).2
    have ofB := ((found b).1 (mem_sortedBy.1 hb)).2
    rw [same, ofB] at ofA
    exact (Option.some.inj (Except.ok.inj ofA)).symm

end Readable

/-- Each row lies under its own id. -/
def Keyed (t : Tables) : Prop :=
  ∀ id row, t.entries.get? id = some row → row.entry.id = id

theorem keyed_empty : Keyed {} := by
  intro id row h
  cases h

namespace Keyed

variable {t : Tables} {ids : List EntryId} {es : List Entry} {e : Entry} (keyed : t.Keyed)
include keyed

theorem upsertEntry (e : Entry) : (t.upsertEntry e).Keyed := by
  intro id row found
  rw [entries_upsert] at found
  by_cases same : id = e.id
  · rw [if_pos same] at found
    cases found
    exact same.symm
  · rw [if_neg same] at found
    exact keyed id row found

theorem of_selectEntries (selected : t.selectEntries ids = .ok es)
    (member : e ∈ es) : e.id ∈ ids ∧ (t.entries.get? e.id).isSome := by
  obtain ⟨row, listed, read⟩ := mem_of_mapM_eq_ok selected member
  rw [mem_selected] at listed
  rw [EntryRow.id_of_toEntry read, keyed row.1 row.2 listed.1, listed.1]
  exact ⟨listed.2, rfl⟩

/-- What is found for several ids are stored entries with an id of the list. -/
theorem of_findEntries (found : t.findEntries ids = .ok es)
    (member : e ∈ es) : e.id ∈ ids ∧ (t.entries.get? e.id).isSome := by
  rw [findEntries] at found
  cases selected : (chunks (chunkSize - 1) ids).mapM t.selectEntries with
  | error fault =>
    rw [selected] at found
    cases found
  | ok parts =>
    rw [selected] at found
    cases found
    obtain ⟨part, listed, there⟩ :=
      List.mem_flatten.1 (mem_sortedBy.1 (mem_of_mem_dropRepeats member))
    obtain ⟨asked, chunk, selected⟩ := mem_of_mapM_eq_ok selected listed
    obtain ⟨within, row⟩ := keyed.of_selectEntries selected there
    refine ⟨?_, row⟩
    rw [← flatten_chunks (chunkSize - 1) ids]
    exact List.mem_flatten.2 ⟨asked, chunk, within⟩

end Keyed

end Tables
end LeagueSync
