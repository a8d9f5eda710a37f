import LeagueSync.Cache.Store
import LeagueSync.Proofs.JsonText
import LeagueSync.Proofs.ShownRecords

/-!
# LeagueSync.Proofs.RecordText

Reading undoes writing, from single fields to the texts that a cache keeps. A decoder reads a JSON
value as something if the value has a tree by the grammar that the decoder takes for it; records are
read field by field, so a record's law follows from those of its fields.

* `Json.Reads`: the law of a decoder at one value, with an instance for each kind of field.
* `Json.reads_part`: a record is read from some of its fields, each from a slot that `Holds` it, and
  from empty slots.
* `Json.reads_record`: a record is read from its very fields.
* `Entry.reads_toJson`, `Gameweek.reads_toJson`: entries and gameweeks, as they are shown.
* `Store.read_write`: what a store wrote is what it reads, for any record that reads back.
-/

namespace LeagueSync
namespace Json

variable {α : Type}

/-- The decoder takes the JSON value for this. -/
def Reads (decode : Tree → Option α) (v : Json) (a : α) : Prop :=
  ∃ t, v.tree? = some t ∧ decode t = some a

theorem Reads.isSome {decode : Tree → Option α} {v : Json} {a : α} (reads : Reads decode v a) :
    v.tree?.isSome := by
  obtain ⟨t, tree, -⟩ := reads
  rw [tree]
  rfl

/-! ## Fields -/

/-- An integer is read if it is a word of 64 bits, signed or not. -/
theorem int?_integerLiteral {n : Int} (low : Int64.minValue.toInt ≤ n) (high : n < UInt64.size) :
    (integerLiteral n).int? = some n := by
  have value : Text.digitsValue (Text.digits n.natAbs) = n.natAbs := Text.digitsValue_digits _
  simp only [Literal.int?, integerLiteral, value, decide_eq_true_eq, and_self, if_true]
  have size : UInt64.size = 18446744073709551616 := rfl
  rw [Int64.toInt_minValue] at low
  by_cases negative : n < 0
  · have within : 0 < n.natAbs ∧ 2 * n.natAbs ≤ UInt64.size := by omega
    rw [if_pos negative, if_pos within, Int.ofNat_natAbs_of_nonpos (by omega), Int.neg_neg]
  · have within : n.natAbs < UInt64.size := by omega
    rw [if_neg negative, if_pos within, Int.natAbs_of_nonneg (by omega)]

theorem reads_int64 (n : Int64) : Reads Tree.int64 (ofInt64 n) n := by
  refine ⟨_, rfl, ?_⟩
  have within : Int64.minValue.toInt ≤ n.toInt ∧ n.toInt ≤ Int64.maxValue.toInt :=
    ⟨n.minValue_le_toInt, n.toInt_le⟩
  have below : Int64.maxValue.toInt < UInt64.size := by decide
  have read : (integerLiteral n.toInt).int? = some n.toInt :=
    int?_integerLiteral within.1 (Int.lt_of_le_of_lt within.2 below)
  simp only [Tree.int64, Tree.integer, read, if_pos within, Option.map_some, Int64.ofInt_toInt]

theorem reads_int32 (n : Int32) : Reads Tree.int32 (ofInt32 n) n := by
  refine ⟨_, rfl, ?_⟩
  have low : Int64.minValue.toInt ≤ Int32.minValue.toInt := by decide
  have high : Int32.maxValue.toInt < UInt64.size := by decide
  have within : Int32.minValue.toInt ≤ n.toInt ∧ n.toInt ≤ Int32.maxValue.toInt :=
    ⟨n.minValue_le_toInt, n.toInt_le⟩
  have read : (integerLiteral n.toInt).int? = some n.toInt :=
    int?_integerLiteral (Int.le_trans low within.1) (Int.lt_of_le_of_lt within.2 high)
  simp only [Tree.int32, Tree.integer, read, if_pos within, Option.map_some, Int32.ofInt_toInt]

theorem reads_naturalBelow {bound n : Nat} (bounded : bound ≤ UInt64.size) (small : n < bound) :
    Reads (Tree.naturalBelow bound) (ofNat n) n := by
  refine ⟨_, rfl, ?_⟩
  have low : Int64.minValue.toInt ≤ 0 := by decide
  have read : (integerLiteral n).int? = some (n : Int) :=
    int?_integerLiteral (by omega) (by omega)
  have within : 0 ≤ (n : Int) ∧ (n : Int) ≤ bound - 1 := by omega
  simp only [Tree.naturalBelow, Tree.integer, read, if_pos within, Option.map_some,
    Int.toNat_natCast]

theorem reads_string (s : String) : Reads Tree.string (.str s) s :=
  ⟨_, rfl, rfl⟩

theorem reads_bool (b : Bool) : Reads Tree.boolean (.bool b) b :=
  ⟨_, rfl, rfl⟩

theorem reads_timestamp (t : Timestamp) : Reads Tree.timestamp (.str t.text) t.shown := by
  refine ⟨_, rfl, ?_⟩
  simp only [Tree.timestamp, Tree.string, Option.bind_eq_bind, Option.bind_some]
  exact Timestamp.readLenient?_text t

/-- A value that may be missing, if what is there is not written as `null`. -/
theorem reads_nullable_map {decode : Tree → Option α} {f : α → Json} {back : α → α}
    (reads : ∀ a, Reads decode (f a) (back a)) (not_null : decode .null = none) (o : Option α) :
    Reads (Tree.nullable decode) (ofOption f o) (o.map back) := by
  cases o with
  | none => exact ⟨.null, rfl, rfl⟩
  | some a =>
    obtain ⟨t, tree, read⟩ := reads a
    refine ⟨t, tree, ?_⟩
    cases t with
    | null => cases not_null.symm.trans read
    | _ => simp only [Tree.nullable, read, Option.map_some]

theorem reads_nullable {decode : Tree → Option α} {f : α → Json}
    (reads : ∀ a, Reads decode (f a) a) (not_null : decode .null = none) (o : Option α) :
    Reads (Tree.nullable decode) (ofOption f o) o := by
  have read : Reads (Tree.nullable decode) (ofOption f o) (o.map id) :=
    reads_nullable_map reads not_null o
  rwa [Option.map_id] at read

/-! ## Records -/

/-- Under distinct names the first field of a name is the only one. -/
theorem find?_of_mem {fields : List (String × α)} (nodup : (fields.map Prod.fst).Nodup)
    {f : String × α} (h : f ∈ fields) : fields.find? (·.1 == f.1) = some f := by
  induction fields with
  | nil => cases h
  | cons g fields ih =>
    rw [List.map_cons, List.nodup_cons] at nodup
    rcases List.mem_cons.1 h with rfl | later
    · simp
    · have other : g.1 ≠ f.1 := fun same => nodup.1 (same ▸ List.mem_map_of_mem later)
      rw [List.find?_cons_of_neg (by simpa using other)]
      exact ih nodup.2 later

theorem length_filter_le_one {fields : List (String × α)} (nodup : (fields.map Prod.fst).Nodup)
    (name : String) : (fields.filter (·.1 == name)).length ≤ 1 := by
  induction fields with
  | nil => exact Nat.zero_le 1
  | cons g fields ih =>
    rw [List.map_cons, List.nodup_cons] at nodup
    by_cases same : g.1 = name
    · have none_left : fields.filter (·.1 == name) = [] := by
        rw [List.filter_eq_nil_iff]
        intro f h again
        exact nodup.1 (same ▸ (beq_iff_eq.1 again) ▸ List.mem_map_of_mem h)
      simp [same, none_left]
    · rw [List.filter_cons_of_neg (by simpa using same)]
      exact ih nodup.2

/-- Fields with distinct names have slots, and those not among them are absent. -/
theorem ofFields?_of_nodup (names : List String) {fields : List (String × α)}
    (nodup : (fields.map Prod.fst).Nodup) :
    Slots.ofFields? names fields = some (names.map fun name => (name,
      match fields.find? (·.1 == name) with
      | some (_, node) => .present node
      | none => .absent)) := by
  rw [Slots.ofFields?, if_pos]
  · congr 2
    funext name
    cases fields.find? (·.1 == name) <;> rfl
  · rw [List.all_eq_true]
    intro name _
    exact decide_eq_true (length_filter_le_one nodup name)

theorem get_map (slot : String → Slot α) {names : List String} {name : String}
    (mem : name ∈ names) : Slots.get (names.map fun n => (n, slot n)) name = slot name := by
  rw [Slots.get, List.find?_map]
  cases found : names.find? ((fun s : String × Slot α => s.1 == name) ∘ fun n => (n, slot n)) with
  | none => simpa using List.find?_eq_none.1 found name mem
  | some n =>
    have same : n = name := by simpa using List.find?_some found
    rw [Option.map_some, same]

theorem Tree.named?_map (fields : List (String × Tree)) :
    named? (fields.map fun f => (some f.1, f.2)) = some fields := by
  induction fields with
  | nil => rfl
  | cons f fields ih =>
    simp only [List.map_cons, named?, ih, Option.bind_eq_bind, Option.bind_some]

/-- The slot of a record under a name holds what the value is by the grammar. -/
def Holds (s : Slots Tree) (name : String) (v : Json) : Prop :=
  ∃ t, v.tree? = some t ∧ s.get name = .present t

namespace Holds

variable {s : Slots Tree} {name : String} {v : Json} (holds : Holds s name v)
include holds

theorem required {decode : Tree → Option α} {a : α} (reads : Reads decode v a) :
    s.required name decode = some a := by
  obtain ⟨t, tree, slot⟩ := holds
  obtain ⟨t', tree', read⟩ := reads
  cases tree.symm.trans tree'
  rw [Slots.required, slot]
  exact read

theorem optional {decode : Tree → Option (Option α)} {a? : Option α} (reads : Reads decode v a?) :
    s.optional name decode = some a? := by
  obtain ⟨t, tree, slot⟩ := holds
  obtain ⟨t', tree', read⟩ := reads
  cases tree.symm.trans tree'
  rw [Slots.optional, slot]
  exact read

theorem defaulted {decode : Tree → Option α} {a : α} (reads : Reads decode v a) (default : α) :
    s.defaulted name decode default = some a := by
  obtain ⟨t, tree, slot⟩ := holds
  obtain ⟨t', tree', read⟩ := reads
  cases tree.symm.trans tree'
  rw [Slots.defaulted, slot]
  exact read

end Holds

theorem exists_fieldTrees? {fields : List (String × Json)}
    (trees : ∀ f ∈ fields, f.2.tree?.isSome) :
    ∃ ts : List (String × Tree), fieldTrees? fields = some (ts.map fun t => (some t.1, t.2)) ∧
      ts.map Prod.fst = fields.map Prod.fst ∧
      ∀ f ∈ fields, ∃ t, f.2.tree? = some t ∧ (f.1, t) ∈ ts := by
  induction fields with
  | nil => exact ⟨[], rfl, rfl, List.forall_mem_nil _⟩
  | cons f fields ih =>
    obtain ⟨first, later⟩ := List.forall_mem_cons.1 trees
    obtain ⟨t, tree⟩ := Option.isSome_iff_exists.1 first
    obtain ⟨ts, others, names, members⟩ := ih later
    refine ⟨(f.1, t) :: ts, ?_, ?_, List.forall_mem_cons.2 ⟨⟨t, tree, List.mem_cons_self⟩, ?_⟩⟩
    · simp only [fieldTrees?, tree, others, Option.bind_eq_bind, Option.bind_some, List.map_cons]
    · rw [List.map_cons, List.map_cons, names]
    · intro g member
      obtain ⟨u, tree', among⟩ := members g member
      exact ⟨u, tree', List.mem_cons_of_mem _ among⟩

/-- A record is read from an object with some of its fields as from slots that hold these, and are
empty for the others. -/
theorem reads_part {names : List String} {fields : List (String × Json)}
    (nodup : (fields.map Prod.fst).Nodup) (known : ∀ f ∈ fields, f.1 ∈ names)
    (trees : ∀ f ∈ fields, f.2.tree?.isSome) {decode : Slots Tree → Option α} {a : α}
    (read : ∀ s, (∀ f ∈ fields, Holds s f.1 f.2) →
      (∀ name ∈ names, name ∉ fields.map Prod.fst → s.get name = .absent) → decode s = some a) :
    Reads (fun t => (t.slots names).bind decode) (.obj fields) a := by
  obtain ⟨ts, objects, sameNames, members⟩ := exists_fieldTrees? trees
  rw [← sameNames] at nodup
  refine ⟨.object (ts.map fun t => (some t.1, t.2)), by rw [tree?, objects, Option.map_some], ?_⟩
  simp only [Tree.slots, Tree.named?_map, Option.bind_some, ofFields?_of_nodup names nodup]
  refine read _ (fun f member => ?_) fun name named missing => ?_
  · obtain ⟨t, tree, among⟩ := members f member
    exact ⟨t, tree, by rw [get_map _ (known f member), find?_of_mem nodup among]⟩
  · have none_found : ts.find? (·.1 == name) = none := by
      rw [List.find?_eq_none]
      intro t among same
      rw [← sameNames, ← beq_iff_eq.1 same] at missing
      exact missing (List.mem_map_of_mem among)
    rw [get_map _ named, none_found]

/-- A record is read from an object with its very fields as from slots that hold them. -/
theorem reads_record {names : List String} (nodup : names.Nodup) {fields : List (String × Json)}
    (named : fields.map Prod.fst = names) (trees : ∀ f ∈ fields, f.2.tree?.isSome)
    {decode : Slots Tree → Option α} {a : α}
    (read : ∀ s, (∀ f ∈ fields, Holds s f.1 f.2) → decode s = some a) :
    Reads (fun t => (t.slots names).bind decode) (.obj fields) a := by
  subst named
  exact reads_part nodup (fun f member => List.mem_map_of_mem member) trees
    fun s holds _ => read s holds

/-! ### What is read -/

section

variable {P : α → Prop} {s : Slots Tree} {name : String} {decode : Tree → Option α}
  (each : ∀ t a, decode t = some a → P a)
include each

theorem of_required {a : α} (read : s.required name decode = some a) : P a := by
  rw [Slots.required] at read
  split at read
  · exact each _ a read
  · cases read

theorem of_nullable {t : Tree} {o : Option α} (read : Tree.nullable decode t = some o) :
    ∀ a ∈ o, P a := by
  intro a member
  rw [Tree.nullable.eq_def] at read
  split at read
  · cases read
    cases member
  · obtain ⟨a', decoded, rfl⟩ := Option.map_eq_some_iff.1 read
    cases member
    exact each _ a decoded

theorem of_optional {o : Option α} (read : s.optional name (Tree.nullable decode) = some o) :
    ∀ a ∈ o, P a := by
  rw [Slots.optional] at read
  split at read
  · exact of_nullable each read
  · cases read
    exact fun _ member => nomatch member
  · cases read

end

/-- No time that is read is in a leap second within a minute. -/
theorem onClock_of_timestamp (tree : Tree) (t : Timestamp) (read : tree.timestamp = some t) :
    t.OnClock := by
  obtain ⟨text, -, read⟩ := Option.bind_eq_some_iff.1 read
  exact Timestamp.onClock_of_readLenient? read

/-! ### Values that have a tree -/

theorem isSome_tree?_ofOption (f : α → Json) (o : Option α) :
    (ofOption f o).tree?.isSome = o.all fun a => (f a).tree?.isSome := by
  cases o <;> rfl

end Json

open Json

theorem Entry.nodup_fields : Entry.fields.Nodup := by
  decide

theorem Entry.reads_toJson (e : Entry) : Reads Entry.decode e.toJson e.shown := by
  refine reads_record Entry.nodup_fields rfl ?_ fun s holds => ?_
  · simp [tree?, isSome_tree?_ofOption, ofInt64, ofInt32]
  · simp only [List.forall_mem_cons] at holds
    obtain ⟨id, name, player, region, started, points, rank, bank, team, week, time, -⟩ := holds
    simp only [id.required (reads_int64 _), name.required (reads_string _),
      player.required (reads_string _), region.optional (reads_nullable reads_string rfl _),
      started.optional (reads_nullable reads_int32 rfl _),
      points.optional (reads_nullable reads_int64 rfl _),
      rank.optional (reads_nullable reads_int64 rfl _),
      bank.optional (reads_nullable reads_int64 rfl _),
      team.optional (reads_nullable reads_int64 rfl _),
      week.optional (reads_nullable reads_int32 rfl _), time.required (reads_timestamp _),
      Option.bind_eq_bind, Option.bind_some, Entry.shown]

theorem Entry.onClock_of_decode {t : Tree} {e : Entry} (read : Entry.decode t = some e) :
    e.OnClock := by
  simp only [decode, Option.bind_eq_bind, Option.bind_eq_some_iff] at read
  obtain ⟨s, -, id, -, name, -, player, -, region, -, started, -, points, -, rank, -, bank, -,
    team, -, week, -, time, readTime, made⟩ := read
  cases made
  exact of_required onClock_of_timestamp readTime

theorem Gameweek.nodup_fields : Gameweek.fields.Nodup := by
  decide

theorem Gameweek.reads_toJson (g : Gameweek) : Reads Gameweek.decode g.toJson g.shown := by
  refine reads_record Gameweek.nodup_fields rfl ?_ fun s holds => ?_
  · simp [tree?, isSome_tree?_ofOption, ofInt32]
  · simp only [List.forall_mem_cons] at holds
    obtain ⟨id, name, deadline, current, next, finished, -⟩ := holds
    simp only [id.required (reads_int32 _), name.required (reads_string _),
      deadline.optional (reads_nullable_map reads_timestamp rfl _), current.required (reads_bool _),
      next.required (reads_bool _), finished.required (reads_bool _), Option.bind_eq_bind,
      Option.bind_some, Gameweek.shown]

theorem Gameweek.onClock_of_decode {t : Tree} {g : Gameweek} (read : Gameweek.decode t = some g) :
    g.OnClock := by
  simp only [decode, Option.bind_eq_bind, Option.bind_eq_some_iff] at read
  obtain ⟨s, -, id, -, name, -, deadline, readDeadline, current, -, next, -, finished, -, made⟩ :=
    read
  cases made
  exact of_optional onClock_of_timestamp readDeadline

/-! ## Cached texts -/

/-- A store reads of what it wrote what its decoder takes the value for. -/
theorem Store.read_write {V : Type} (s : Store V) {v back : V}
    (reads : Reads s.decode (s.encode v) back) (now : Nat) :
    s.read (s.write now v) = some back := by
  have record : Reads s.readTree
      (.obj [("value", s.encode v), ("cached_at", .str (s.timeOfDay now).text)]) back := by
    have nodup : ["value", "cached_at"].Nodup := by decide
    refine reads_record nodup rfl ?_ fun slots holds => ?_
    · simp [tree?, reads.isSome]
    · simp only [List.forall_mem_cons] at holds
      obtain ⟨value, time, -⟩ := holds
      simp only [value.required reads, time.required (reads_timestamp _), Option.bind_eq_bind,
        Option.bind_some]
  obtain ⟨t, tree, read⟩ := record
  rw [Store.read, Store.write, read?_compact tree, Option.bind_some, read]

end LeagueSync
