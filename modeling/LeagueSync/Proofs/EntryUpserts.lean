import LeagueSync.Proofs.PartLookups
import LeagueSync.Proofs.WrittenColumns

/-!
# LeagueSync.Proofs.EntryUpserts

The table of entries after any writes, of one entry or of several at once. It is the map from each
written id to the entry that was written last, with the time that is shown of it.

* `Tables.get?_upsertEntries`: the row under an id after several writes.
* `Tables.entryIds_spec`: the listed ids are those of the rows, each once, in their order.
* `Database.entries_are_a_map`: look-ups, listing, batches and columns together.
-/

namespace LeagueSync

namespace Tables

/-- Under an id lies what was written last, or what lay there before. -/
theorem get?_upsertEntries (t : Tables) (es : List Entry) (id : EntryId) :
    (t.upsertEntries es).entries.get? id =
      ((es.reverse.find? fun e => e.id == id).map EntryRow.ofEntry).or (t.entries.get? id) := by
  have rows : (t.upsertEntries es).entries =
      es.foldl (fun t e => t.put e.id (.ofEntry e)) t.entries :=
    (List.foldl_hom Tables.entries fun _ _ => rfl).symm
  rw [rows]
  exact Table.get?_foldl_put Entry.id EntryRow.ofEntry _ es id

/-- The listed ids rise, and they are the ids of the rows. -/
theorem entryIds_spec (t : Tables) :
    t.entryIds.Pairwise (· < ·) ∧ ∀ id, id ∈ t.entryIds ↔ (t.entries.get? id).isSome := by
  have own : t.entries.keys.Pairwise fun a b => a.toInt ≠ b.toInt :=
    List.Pairwise.imp (fun differ same => differ (Int64.toInt_inj.1 same)) t.entries.nodup
  refine ⟨(pairwise_sortedBy_lt own).imp Int64.lt_iff_toInt_lt.2, fun id => ?_⟩
  rw [entryIds, mem_sortedBy, Table.mem_keys_iff]

theorem findEntry_upsertEntries (t : Tables) (es : List Entry) (id : EntryId) :
    (t.upsertEntries es).findEntry id =
      match es.reverse.find? fun e => e.id == id with
      | some e =>
        if e.updatedAt.HasPlainYear then .ok (some e.shown)
        else .error (.time 10 e.updatedAt.offsetText)
      | none => t.findEntry id := by
  rw [findEntry, get?_upsertEntries]
  cases es.reverse.find? fun e => e.id == id with
  | none => rfl
  | some e =>
    have self := findEntry_upsertEntry_self t e
    rw [findEntry, entries_upsert, if_pos rfl] at self
    exact self

end Tables

/-! ## Any writes -/

/-- A write of the table of entries. -/
inductive EntryWrite where
  | one (e : Entry)
  | batch (es : List Entry)

def EntryWrite.entries : EntryWrite → List Entry
  | one e => [e]
  | batch es => es

namespace Database

def write (d : Database) : EntryWrite → Except DatabaseError (List Entry) × Database
  | .one e => ((d.upsertEntry e).1.map ([·]), (d.upsertEntry e).2)
  | .batch es => d.upsertEntries es

def writeAll (d : Database) (ws : List EntryWrite) : Database :=
  ws.foldl (fun d w => (d.write w).2) d

section

variable {d : Database} (works : ∀ op, d.fails op = none)
include works

theorem write_eq (w : EntryWrite) :
    d.write w = (.ok w.entries, { d with tables := d.tables.upsertEntries w.entries }) := by
  cases w with
  | one e =>
    rw [write, upsertEntry, perform, works]
    rfl
  | batch es =>
    rw [write, upsertEntries, perform, works]
    rfl

theorem writeAll_eq (ws : List EntryWrite) :
    d.writeAll ws =
      { d with tables := d.tables.upsertEntries (ws.flatMap EntryWrite.entries) } := by
  induction ws generalizing d with
  | nil => rfl
  | cons w ws ih =>
    have step : d.writeAll (w :: ws) = (d.write w).2.writeAll ws := rfl
    rw [step, write_eq works]
    refine (ih (d := { d with tables := d.tables.upsertEntries w.entries }) works).trans ?_
    simp only [List.flatMap_cons, Tables.upsertEntries, List.foldl_append]

end

/-- After any writes to a store without entries, each write gives its entries back, an id leads to
the entry that was written last, and the listed ids are those of the written entries, each once and
in their order. The entry is found as it is shown, which is as it was written exactly if a clock
shows its time. Several entries at once leave the store as one by one. A table that is written and
read by columns says the same. -/
theorem entries_are_a_map (d : Database) (works : ∀ op, d.fails op = none)
    (fresh : d.tables.entries = .empty) (ws : List EntryWrite) :
    let after := d.writeAll ws
    let written := ws.flatMap EntryWrite.entries
    (∀ w, (after.write w).1 = .ok w.entries) ∧
    (∀ id, after.findEntry id =
      match written.reverse.find? fun e => e.id == id with
      | some e =>
        if e.updatedAt.HasPlainYear then .ok (some e.shown)
        else .error (.storage (.time 10 e.updatedAt.offsetText))
      | none => .ok none) ∧
    (∀ e ∈ written, e.shown = e ↔ e.OnClock) ∧
    (∃ ids, after.listIds = .ok ids ∧ ids.Pairwise (· < ·) ∧
      ∀ id, id ∈ ids ↔ ∃ e ∈ written, e.id = id) ∧
    (∀ es, after.write (.batch es) = (.ok es, after.writeAll (es.map .one))) ∧
    after.tables.EntryCells
      (written.foldl (fun c e => Entry.layout.statement.write c e.cells) .empty) := by
  intro after written
  have final : after = { d with tables := d.tables.upsertEntries written } := writeAll_eq works ws
  have works' : ∀ op, after.fails op = none := fun op => by rw [final, works]
  refine ⟨fun w => by rw [write_eq works'], fun id => ?_, fun e _ => e.shown_eq_self_iff,
    ⟨after.tables.entryIds, ?_, ?_⟩, fun es => ?_, ?_⟩
  · rw [findEntry, ask, works', final, Tables.findEntry_upsertEntries, Tables.findEntry, fresh]
    cases written.reverse.find? fun e => e.id == id with
    | none => rfl
    | some e => simp only; split <;> rfl
  · rw [listIds, ask, works']
    rfl
  · refine after.tables.entryIds_spec.imp_right fun listed id => ?_
    rw [listed, final, Tables.get?_upsertEntries, fresh, Table.get?_empty, Option.or_none,
      Option.isSome_map, List.find?_isSome]
    simp only [List.mem_reverse, beq_iff_eq]
  · have ones : (es.map EntryWrite.one).flatMap EntryWrite.entries = es := by
      rw [List.flatMap_map]
      exact List.flatMap_singleton' es
    rw [write_eq works', writeAll_eq works', ones]
    rfl
  · rw [final]
    refine Tables.mirrors_upsertEntries ?_ written
    rw [Tables.EntryCells, fresh]
    exact Layout.mirrors_empty

/-- Entry 7 changes in every column, entry 3 twice in one batch. -/
theorem entries_are_a_map_repeated :
    let old : Entry :=
      ⟨7, "Reds", "A B", some "Spain", some 1, some 100, some 5, none, some 1000, some 3, .epoch⟩
    let new : Entry :=
      ⟨7, "Blues", "C D", none, none, some (-4), none, some 15, none, some 4, .epoch⟩
    let third (points : Int64) : Entry :=
      ⟨3, "Greens", "", none, none, some points, none, none, none, none, .epoch⟩
    let d : Database := {}
    let after := d.writeAll [.one old, .batch [third 1, new, third 2], .one (third 3), .batch []]
    (∀ op, d.fails op = none) ∧ d.tables.entries = .empty ∧
      after.findEntry 7 = .ok (some new) ∧ after.findEntry 3 = .ok (some (third 3)) ∧
      after.findEntry 5 = .ok none ∧
      ∃ ids, after.listIds = .ok ids ∧ ids.Pairwise (· < ·) ∧ ∀ id, id ∈ ids ↔ id = 3 ∨ id = 7 := by
  intro old new third d after
  obtain ⟨-, found, -, ⟨ids, listed, rising, members⟩, -⟩ := entries_are_a_map d (fun _ => rfl) rfl
    [.one old, .batch [third 1, new, third 2], .one (third 3), .batch []]
  refine ⟨fun _ => rfl, rfl, found 7, found 3, found 5, ids, listed, rising, fun id => ?_⟩
  simp only [members, EntryWrite.entries, List.flatMap_cons, List.flatMap_nil, List.cons_append,
    List.nil_append, List.mem_cons, List.not_mem_nil, or_false, exists_eq_or_imp, exists_eq_left]
  grind

/-- The last quarter of a leap second after the first half minute of a year is found as the instant
a second later, of which no leap second is left. -/
theorem entry_in_leap_second_is_moved :
    let newYear : Date := ⟨2024, 1, 1, by decide, by decide, by decide⟩
    let written : Timestamp := ⟨newYear, 30, 1750000000, by decide, by decide⟩
    let found : Timestamp := ⟨newYear, 31, 750000000, by decide, by decide⟩
    let e (t : Timestamp) : Entry := ⟨7, "Reds", "A B", none, none, none, none, none, none, none, t⟩
    let d : Database := {}
    written.HasPlainYear ∧ (d.writeAll [.one (e written)]).findEntry 7 = .ok (some (e found)) ∧
      e found ≠ e written := by
  decide +kernel

end Database
end LeagueSync
