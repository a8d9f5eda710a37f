import LeagueSync.Proofs.WrittenColumns

/-!
# LeagueSync.Proofs.GameweekUpserts

The table of gameweeks after any lists of any seasons were stored. For each season it is the map
from each listed number to what was listed last, and the current gameweek is the largest of those
that are marked in what was listed last.

* `Table.ext_get?`, `Table.foldl_put_twice`: storing the same values once more changes nothing.
* `Database.get?_storeAll_eq_some_iff`: under a season and a number lies what was listed last.
* `Database.findCurrent_storeAll`: which gameweek is the current one.
* `Database.gameweeks_are_a_map`: the current gameweek, other seasons, repeats and splits together.
-/

namespace LeagueSync

namespace Table

variable {κ α : Type} [DecidableEq κ] {t t' : Table κ α}

theorem rows_get? (t : Table κ α) :
    t.rows.map (fun row => (row.1, t.get? row.1)) = t.rows.map fun row => (row.1, some row.2) :=
  List.map_inj_left.2 fun row member => by rw [(t.get?_eq_some_iff row.1 row.2).2 member]

/-- A table is known by its keys in their order and by what is found under them. -/
theorem ext_get? (keys : t.keys = t'.keys) (found : ∀ k, t.get? k = t'.get? k) : t = t' := by
  have looked := congrArg (List.map fun k => (k, t.get? k)) keys
  rw [Table.keys, Table.keys, List.map_map, List.map_map] at looked
  have other := t'.rows_get?
  rw [← funext found] at other
  have same := t.rows_get?.symm.trans (looked.trans other)
  have injective : Function.Injective fun row : κ × α => (row.1, some row.2) := by
    rintro ⟨k, a⟩ ⟨k', a'⟩ same
    simpa using same
  obtain ⟨rows, nodup⟩ := t
  obtain ⟨rows', nodup'⟩ := t'
  cases List.map_injective_iff.2 injective same
  rfl

section

variable {β : Type} (key : β → κ) (row : β → α)

theorem mem_keys_foldl_put (t : Table κ α) (xs : List β) :
    ∀ x ∈ xs, key x ∈ (xs.foldl (fun t x => t.put (key x) (row x)) t).keys := by
  intro x member
  have stored : (xs.reverse.find? fun y => decide (key y = key x)).isSome :=
    List.find?_isSome.2 ⟨x, List.mem_reverse.2 member, decide_eq_true rfl⟩
  rw [mem_keys_iff, get?_foldl_put, Option.isSome_or, Option.isSome_map, stored, Bool.true_or]

theorem keys_foldl_put_of_mem (t : Table κ α) {xs : List β} (there : ∀ x ∈ xs, key x ∈ t.keys) :
    (xs.foldl (fun t x => t.put (key x) (row x)) t).keys = t.keys := by
  induction xs generalizing t with
  | nil => rfl
  | cons x xs ih =>
    have first : (t.put (key x) (row x)).keys = t.keys := by
      rw [keys_put, if_pos (there x List.mem_cons_self)]
    rw [List.foldl_cons, ih _ fun y later => first ▸ there y (.tail _ later), first]

/-- Storing the same values once more changes nothing. -/
theorem foldl_put_twice (t : Table κ α) (xs : List β) :
    (xs ++ xs).foldl (fun t x => t.put (key x) (row x)) t =
      xs.foldl (fun t x => t.put (key x) (row x)) t := by
  rw [List.foldl_append]
  -- The second time every key is there, so the keys keep their order as well.
  have there := mem_keys_foldl_put key row t xs
  refine ext_get? (keys_foldl_put_of_mem key row _ there) fun k => ?_
  rw [get?_foldl_put, get?_foldl_put, ← Option.or_assoc, Option.or_self]

end

end Table

/-! ## One list -/

namespace Tables

theorem upsertGameweeks_twice (t : Tables) (season : String) (gs : List Gameweek) :
    (t.upsertGameweeks season gs).upsertGameweeks season gs = t.upsertGameweeks season gs := by
  have twice : (t.upsertGameweeks season gs).upsertGameweeks season gs =
      t.upsertGameweeks season (gs ++ gs) := List.foldl_append.symm
  rw [twice, upsertGameweeks_eq, upsertGameweeks_eq, Table.foldl_put_twice]

/-- The current gameweek of a season depends on nothing but what lies under the season. -/
theorem findCurrent_congr {t t' : Tables} {season : String}
    (same : ∀ id, t.gameweeks.get? (season, id) = t'.gameweeks.get? (season, id)) :
    t.findCurrent season = t'.findCurrent season := by
  have marks (id : Int64) : t.Marked season [] id ↔ t'.Marked season [] id := by
    rw [marked_nil, marked_nil, same]
  rcases t'.findCurrent_cases season with ⟨unmarked, found⟩ | ⟨id, -, marked, largest, -⟩
  · rw [found, findCurrent_eq_none_iff]
    exact fun id => mt (marks id).1 (unmarked id)
  · obtain ⟨row, there, flag⟩ := (marked_nil ..).1 marked
    have below : ∀ id', t'.Marked season [] id' → id' ≤ id := fun id' other =>
      Int64.le_iff_toInt_le.2 (largest id' other)
    rw [findCurrent_of_largest there flag below,
      findCurrent_of_largest ((same id).trans there) flag fun id' other =>
        below id' ((marks id').1 other)]

end Tables

/-! ## Many lists -/

/-- All that several lists say of their seasons, in order. -/
def listed (calls : List (String × List Gameweek)) : List (String × Gameweek) :=
  calls.flatMap fun call => call.2.map (call.1, ·)

/-- The gameweek was listed for the season, and nothing was listed later for its number. -/
def Latest (calls : List (String × List Gameweek)) (season : String) (g : Gameweek) : Prop :=
  ∃ earlier later, listed calls = earlier ++ (season, g) :: later ∧
    ∀ r ∈ later, r.1 = season → r.2.id ≠ g.id

/-- The largest of those that are marked as current where they were listed last. -/
structure Leads (calls : List (String × List Gameweek)) (season : String) (g : Gameweek) :
    Prop where
  latest : Latest calls season g
  current : g.isCurrent = true
  highest : ∀ g', Latest calls season g' → g'.isCurrent = true → g'.id ≤ g.id

theorem latest_iff (calls : List (String × List Gameweek)) (season : String) (g : Gameweek) :
    Latest calls season g ↔
      (listed calls).reverse.find? (fun r =>
        decide ((r.1, r.2.id.toInt64) = (season, g.id.toInt64))) = some (season, g) := by
  have differ (r : String × Gameweek) :
      (!decide ((r.1, r.2.id.toInt64) = (season, g.id.toInt64))) = true ↔
        (r.1 = season → r.2.id ≠ g.id) := by
    have number : r.2.id.toInt64 = g.id.toInt64 ↔ r.2.id = g.id :=
      ⟨fun same => by simpa using congrArg Int64.toInt32 same, congrArg _⟩
    simp [number, imp_iff_not_or]
  rw [List.find?_eq_some_iff_append, and_iff_right (decide_eq_true rfl)]
  simp only [differ]
  constructor
  · rintro ⟨earlier, later, split, last⟩
    exact ⟨later.reverse, earlier.reverse, by simp [split], fun r member =>
      last r (List.mem_reverse.1 member)⟩
  · rintro ⟨later, earlier, split, last⟩
    refine ⟨earlier.reverse, later.reverse, ?_, fun r member => last r (List.mem_reverse.1 member)⟩
    rw [← (listed calls).reverse_reverse, split]
    simp

namespace Database

/-- Stores several lists, each for its season. -/
def storeAll (d : Database) (calls : List (String × List Gameweek)) : Database :=
  calls.foldl (fun d call => (d.upsertGameweeks call.1 call.2).2) d

section

variable {d : Database} (works : ∀ op, d.fails op = none)
include works

theorem upsertGameweeks_eq (season : String) (gs : List Gameweek) :
    d.upsertGameweeks season gs =
      (.ok (), { d with tables := d.tables.upsertGameweeks season gs }) := by
  rw [upsertGameweeks, perform, works]
  rfl

theorem storeAll_eq (calls : List (String × List Gameweek)) :
    d.storeAll calls =
      { d with
        tables := (listed calls).foldl (fun t r => Tables.upsertGameweek r.1 t r.2) d.tables } := by
  induction calls generalizing d with
  | nil => rfl
  | cons call calls ih =>
    have step : d.storeAll (call :: calls) =
      (d.upsertGameweeks call.1 call.2).2.storeAll calls := rfl
    rw [step, upsertGameweeks_eq works]
    refine (ih (d := { d with tables := d.tables.upsertGameweeks call.1 call.2 }) works).trans ?_
    simp only [listed, List.flatMap_cons, List.foldl_append, List.foldl_map]
    rfl

theorem get?_storeAll (calls : List (String × List Gameweek)) (season : String) (id : Int64) :
    (d.storeAll calls).tables.gameweeks.get? (season, id) =
      (((listed calls).reverse.find? fun r => decide ((r.1, r.2.id.toInt64) = (season, id))).map
        fun r => .ofGameweek r.2).or (d.tables.gameweeks.get? (season, id)) := by
  have rows : ((listed calls).foldl (fun t r => Tables.upsertGameweek r.1 t r.2)
      d.tables).gameweeks = (listed calls).foldl
        (fun t r => t.put (r.1, r.2.id.toInt64) (.ofGameweek r.2)) d.tables.gameweeks :=
    (List.foldl_hom Tables.gameweeks fun _ _ => rfl).symm
  rw [storeAll_eq works, rows]
  exact Table.get?_foldl_put (fun r : String × Gameweek => (r.1, r.2.id.toInt64)) _ _ _ _

theorem findCurrent_eq (season : String) :
    d.findCurrent season = stored (d.tables.findCurrent season) := by
  rw [findCurrent, ask, works]

theorem fails_storeAll (calls : List (String × List Gameweek)) (op : DatabaseOperation) :
    (d.storeAll calls).fails op = none := by
  rw [storeAll_eq works, works]

/-- Lists of other seasons change nothing. -/
theorem findCurrent_storeAll_of_ne {season : String} {calls : List (String × List Gameweek)}
    (foreign : ∀ call ∈ calls, call.1 ≠ season) :
    (d.storeAll calls).findCurrent season = d.findCurrent season := by
  rw [findCurrent_eq (fails_storeAll works calls), findCurrent_eq works]
  refine congrArg stored (Tables.findCurrent_congr fun id => ?_)
  have absent : (listed calls).reverse.find? (fun r =>
      decide ((r.1, r.2.id.toInt64) = (season, id))) = none := by
    refine List.find?_eq_none.2 fun r member => ?_
    obtain ⟨call, among, within⟩ := List.mem_flatMap.1 (List.mem_reverse.1 member)
    obtain ⟨g, -, rfl⟩ := List.mem_map.1 within
    simp [foreign call among]
  rw [get?_storeAll works, absent]
  rfl

theorem upsertGameweeks_twice (season : String) (gs : List Gameweek) :
    ((d.upsertGameweeks season gs).2.upsertGameweeks season gs).2 =
      (d.upsertGameweeks season gs).2 := by
  have once := upsertGameweeks_eq works season gs
  have works' : ∀ op, (d.upsertGameweeks season gs).2.fails op = none := fun op => by
    rw [once, works]
  rw [upsertGameweeks_eq works', once]
  simp only [Tables.upsertGameweeks_twice]

theorem storeAll_parts (season : String) (parts : List (List Gameweek)) :
    d.storeAll (parts.map fun gs => (season, gs)) =
      (d.upsertGameweeks season parts.flatten).2 := by
  have whole : listed (parts.map fun gs => (season, gs)) =
      parts.flatten.map fun g => (season, g) := by
    rw [listed, List.flatMap_map, List.map_flatten, List.flatMap_def]
  rw [storeAll_eq works, whole, List.foldl_map, upsertGameweeks_eq works]
  rfl

variable (fresh : d.tables.gameweeks = .empty) (calls : List (String × List Gameweek))
  (season : String)
include fresh

theorem get?_storeAll_eq_some_iff (id : Int64) (row : GameweekRow) :
    (d.storeAll calls).tables.gameweeks.get? (season, id) = some row ↔
      ∃ g, Latest calls season g ∧ g.id.toInt64 = id ∧ GameweekRow.ofGameweek g = row := by
  rw [get?_storeAll works, fresh, Table.get?_empty, Option.or_none, Option.map_eq_some_iff]
  constructor
  · rintro ⟨⟨season', g⟩, last, rfl⟩
    have own : (season', g.id.toInt64) = (season, id) := by simpa using List.find?_some last
    cases own
    exact ⟨g, (latest_iff ..).2 last, rfl, rfl⟩
  · rintro ⟨g, latest, rfl, rfl⟩
    exact ⟨(season, g), (latest_iff ..).1 latest, rfl⟩

theorem marked_storeAll (id : Int64) :
    (d.storeAll calls).tables.Marked season [] id ↔
      ∃ g, Latest calls season g ∧ g.id.toInt64 = id ∧ g.isCurrent = true := by
  have rows := get?_storeAll_eq_some_iff works fresh calls season id
  rw [Tables.marked_nil]
  constructor
  · rintro ⟨row, there, flag⟩
    obtain ⟨g, latest, number, rfl⟩ := (rows row).1 there
    exact ⟨g, latest, number, (flagWord_eq_one_iff _).1 flag⟩
  · rintro ⟨g, latest, number, current⟩
    exact ⟨.ofGameweek g, (rows _).2 ⟨g, latest, number, rfl⟩, (flagWord_eq_one_iff _).2 current⟩

theorem findCurrent_storeAll :
    (∃ g, Leads calls season g ∧ (d.storeAll calls).findCurrent season = .ok (some g.kept)) ∨
    (∀ g, Latest calls season g → g.isCurrent = false) ∧
      (d.storeAll calls).findCurrent season = .ok none := by
  have marked := marked_storeAll works fresh calls season
  rw [findCurrent_eq (fails_storeAll works calls)]
  rcases (d.storeAll calls).tables.findCurrent_cases season with
    ⟨unmarked, found⟩ | ⟨id, -, mark, largest, -⟩
  · rw [found]
    exact .inr ⟨fun g latest => Bool.eq_false_iff.2 fun current =>
      unmarked _ ((marked _).2 ⟨g, latest, rfl, current⟩), rfl⟩
  · obtain ⟨g, latest, rfl, current⟩ := (marked id).1 mark
    -- The column is wider than the number of a gameweek, and widening keeps the order.
    have highest (g' : Gameweek) (latest' : Latest calls season g')
        (current' : g'.isCurrent = true) : g'.id ≤ g.id := by
      have below := largest _ ((marked _).2 ⟨g', latest', rfl, current'⟩)
      rwa [Int32.toInt_toInt64, Int32.toInt_toInt64, ← Int32.le_iff_toInt_le] at below
    have there := (get?_storeAll_eq_some_iff works fresh calls season _ _).2 ⟨g, latest, rfl, rfl⟩
    have flag : (GameweekRow.ofGameweek g).isCurrent = 1 := (flagWord_eq_one_iff _).2 current
    rw [Tables.findCurrent_of_largest there flag fun id' other =>
      Int64.le_iff_toInt_le.2 (largest id' other), GameweekRow.toGameweek_ofGameweek]
    exact .inl ⟨g, ⟨latest, current, highest⟩, rfl⟩

end

/-- After any lists were stored in a store without gameweeks, the current gameweek of a season is
the largest of those that were marked where they were listed last, and there is none if none of them
was marked. It is found as it was listed exactly if its deadline, where it has one, is in a plain
year and on the clock. Lists of other seasons do not matter, storing a list once more changes
nothing at all, and storing it in parts makes no difference. A table that is written and read by
columns says the same. -/
theorem gameweeks_are_a_map (d : Database) (works : ∀ op, d.fails op = none)
    (fresh : d.tables.gameweeks = .empty) (calls : List (String × List Gameweek)) :
    let after := d.storeAll calls
    (∀ season gs, (after.upsertGameweeks season gs).1 = .ok ()) ∧
    (∀ season,
      (∃ g, Leads calls season g ∧ after.findCurrent season = .ok (some g.kept) ∧
        (g.kept = g ↔ ∀ t ∈ g.deadline, t.HasPlainYear ∧ t.OnClock)) ∨
      (∀ g, Latest calls season g → g.isCurrent = false) ∧ after.findCurrent season = .ok none) ∧
    (∀ season others, (∀ call ∈ others, call.1 ≠ season) →
      (after.storeAll others).findCurrent season = after.findCurrent season) ∧
    (∀ season gs, let once := (after.upsertGameweeks season gs).2
      (once.upsertGameweeks season gs).2 = once) ∧
    (∀ season (parts : List (List Gameweek)), after.storeAll (parts.map fun gs => (season, gs)) =
      (after.upsertGameweeks season parts.flatten).2) ∧
    after.tables.GameweekCells ((listed calls).foldl
      (fun c r => Gameweek.layout.statement.write c (r.2.cells r.1)) .empty) := by
  intro after
  have works' := fails_storeAll works calls
  refine ⟨fun season gs => by rw [upsertGameweeks_eq works'], fun season => ?_,
    fun season others foreign => findCurrent_storeAll_of_ne works' foreign,
    upsertGameweeks_twice works', storeAll_parts works', ?_⟩
  · refine (findCurrent_storeAll works fresh calls season).imp_left ?_
    rintro ⟨g, leads, found⟩
    exact ⟨g, leads, found, g.kept_eq_self_iff⟩
  · have tables := congrArg Database.tables (storeAll_eq works calls)
    rw [tables]
    refine Tables.mirrors_upsertGameweeks ?_ (listed calls)
    rw [Tables.GameweekCells, fresh]
    exact Layout.mirrors_empty

/-- Gameweek 7 loses its mark, gameweek 6 gets one after it was listed without, and the largest
number belongs to another season. -/
theorem gameweeks_are_a_map_moved_marks :
    let week (id : GameweekId) (isCurrent : Bool) : Gameweek :=
      ⟨id, "w", some .epoch, isCurrent, false, false⟩
    let d : Database := {}
    let calls := [("2425", [week 5 true, week 7 true]), ("2324", [week 9 true]),
      ("2425", [week 6 false, week 7 false, week 6 true])]
    (∀ op, d.fails op = none) ∧ d.tables.gameweeks = .empty ∧
      (d.storeAll calls).findCurrent "2425" = .ok (some (week 6 true)) ∧
      ((d.storeAll calls).storeAll [("2324", [week 8 true])]).findCurrent "2425" =
        .ok (some (week 6 true)) := by
  intro week d calls
  obtain ⟨-, found, foreign, -⟩ := gameweeks_are_a_map d (fun _ => rfl) rfl calls
  have sixth : Latest calls "2425" (week 6 true) :=
    ⟨[("2425", week 5 true), ("2425", week 7 true), ("2324", week 9 true), ("2425", week 6 false),
      ("2425", week 7 false)], [], rfl, by simp⟩
  have current : (d.storeAll calls).findCurrent "2425" = .ok (some (week 6 true)) := by
    rcases found "2425" with ⟨g, leads, gave, -⟩ | ⟨unmarked, -⟩
    · have largest := leads.highest _ sixth rfl
      obtain ⟨earlier, later, split, -⟩ := leads.latest
      have among : ("2425", g) ∈ listed calls := split ▸ List.mem_append_right _ List.mem_cons_self
      have oneOf : g = week 5 true ∨ g = week 7 true ∨ g = week 6 false ∨ g = week 7 false ∨
          g = week 6 true := by
        simpa [listed, calls] using among
      rcases oneOf with rfl | rfl | rfl | rfl | rfl
      · exact absurd largest (by decide)
      · exact absurd ((latest_iff ..).1 leads.latest) (by decide)
      · cases leads.current
      · cases leads.current
      · rwa [(Gameweek.kept_eq_self_iff _).2 (by decide)] at gave
    · cases unmarked _ sixth
  have other : ∀ call ∈ [("2324", [week 8 true])], call.1 ≠ "2425" := by decide
  exact ⟨fun _ => rfl, rfl, current, (foreign "2425" _ other).trans current⟩

/-- A deadline in a leap second that is not the last of its minute is found as the instant a second
later. -/
theorem deadline_in_leap_second_is_moved :
    let newYear : Date := ⟨2024, 1, 1, by decide, by decide, by decide⟩
    let written : Timestamp := ⟨newYear, 30, 1750000000, by decide, by decide⟩
    let found : Timestamp := ⟨newYear, 31, 750000000, by decide, by decide⟩
    let week (t : Timestamp) : Gameweek := ⟨5, "w", some t, true, false, false⟩
    let d : Database := {}
    written.HasPlainYear ∧
      (d.storeAll [("2324", [week written])]).findCurrent "2324" = .ok (some (week found)) ∧
      week found ≠ week written := by
  decide +kernel

end Database
end LeagueSync
