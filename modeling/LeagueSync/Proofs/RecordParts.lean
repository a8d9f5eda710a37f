import LeagueSync.Proofs.RecordText

/-!
# LeagueSync.Proofs.RecordParts

Records of which a part is written. Members are taken out of a JSON object, and out of the objects
in it, whatever their number and depth; a record is then read from what is left, each of its fields
from a slot that holds the field or is empty.

* `Json.without`: a JSON value without a set of its members.
* `Json.reads_without`: a record is read from what is left of its fields.
* `Json.Left.defaulted`, `Json.Left.optional`: a field that may be left out, when it is and when it
  is not.
-/

namespace LeagueSync

/-- A set of members of an object and of the objects in it, each given by the names on the way to
it. -/
abbrev Members := List String → Bool

namespace Members

/-- The members inside one member. -/
def below (S : Members) (name : String) : Members :=
  fun path => S (name :: path)

def has (S : Members) (name : String) : Bool :=
  S [name]

def none : Members :=
  fun _ => false

/-- The default for a member of the set, else the value. -/
def pick {α : Type} (S : Members) (name : String) (value default : α) : α :=
  if S.has name then default else value

@[simp] theorem below_none (name : String) : none.below name = none := rfl

end Members

namespace Json

variable {α : Type}

mutual

def without (S : Members) : Json → Json
  | obj fields => obj (fieldsWithout S fields)
  | v => v

def fieldsWithout (S : Members) : List (String × Json) → List (String × Json)
  | [] => []
  | (name, v) :: rest =>
    if S.has name then fieldsWithout S rest
    else (name, without (S.below name) v) :: fieldsWithout S rest

end

theorem fieldsWithout_eq (S : Members) (fields : List (String × Json)) :
    fieldsWithout S fields =
      (fields.filter fun f => !S.has f.1).map fun f => (f.1, f.2.without (S.below f.1)) := by
  induction fields with
  | nil => rfl
  | cons f fields ih =>
    cases taken : S.has f.1 <;> simp [fieldsWithout, taken, ih]

mutual

theorem without_none : (v : Json) → v.without .none = v
  | obj fields => by rw [without, fieldsWithout_none]
  | null | bool _ | int _ | real _ | str _ | arr _ => rfl

theorem fieldsWithout_none : (fields : List (String × Json)) → fieldsWithout .none fields = fields
  | [] => rfl
  | (_, v) :: rest => by
    rw [fieldsWithout, Members.below_none, without_none v, fieldsWithout_none rest]
    rfl

end

theorem mem_fieldsWithout {S : Members} {fields : List (String × Json)} {f : String × Json} :
    f ∈ fieldsWithout S fields ↔
      ∃ g ∈ fields, S.has g.1 = false ∧ (g.1, g.2.without (S.below g.1)) = f := by
  simp only [fieldsWithout_eq, List.mem_map, List.mem_filter, Bool.not_eq_true', and_assoc]

theorem names_fieldsWithout (S : Members) (fields : List (String × Json)) :
    (fieldsWithout S fields).map Prod.fst =
      (fields.map Prod.fst).filter fun name => !S.has name := by
  rw [fieldsWithout_eq, List.map_map, List.filter_map]
  rfl

/-- The slot of a record under a name holds what is left of a value, or nothing if the value was
taken out. -/
def Left (s : Slots Tree) (S : Members) (name : String) (v : Json) : Prop :=
  if S.has name then s.get name = .absent else Holds s name (v.without (S.below name))

/-- A field with a default is read as what is left of it, or as the default. -/
theorem Left.defaulted {s : Slots Tree} {S : Members} {name : String} {v : Json}
    (left : Left s S name v) {decode : Tree → Option α} {a : α}
    (reads : Reads decode (v.without (S.below name)) a) (default : α) :
    s.defaulted name decode default = some (S.pick name a default) := by
  unfold Left at left
  split at left
  · next taken => rw [Slots.defaulted, left, Members.pick, if_pos taken]
  · next kept => rw [left.defaulted reads, Members.pick, if_neg kept]

/-- A field that named fields may leave out is read as what is left of it, or as none. -/
theorem Left.optional {s : Slots Tree} {S : Members} {name : String} {v : Json}
    (left : Left s S name v) {decode : Tree → Option (Option α)} {a : Option α}
    (reads : Reads decode (v.without (S.below name)) a) :
    s.optional name decode = some (S.pick name a none) := by
  unfold Left at left
  split at left
  · next taken => rw [Slots.optional, left, Members.pick, if_pos taken]
  · next kept => rw [left.optional reads, Members.pick, if_neg kept]

/-- A record is read from what is left of its fields. -/
theorem reads_without (S : Members) {names : List String} (nodup : names.Nodup)
    {fields : List (String × Json)} (named : fields.map Prod.fst = names)
    (trees : ∀ f ∈ fields, (f.2.without (S.below f.1)).tree?.isSome)
    {decode : Slots Tree → Option α} {a : α}
    (read : ∀ s, (∀ f ∈ fields, Left s S f.1 f.2) → decode s = some a) :
    Reads (fun t => (t.slots names).bind decode) (without S (.obj fields)) a := by
  subst named
  have apart : ((fieldsWithout S fields).map Prod.fst).Nodup := by
    rw [names_fieldsWithout]
    exact nodup.filter _
  rw [without]
  refine reads_part apart (fun f member => ?_) (fun f member => ?_) fun s holds absent => ?_
  · obtain ⟨g, mem, -, rfl⟩ := mem_fieldsWithout.1 member
    exact List.mem_map.2 ⟨g, mem, rfl⟩
  · obtain ⟨g, mem, -, rfl⟩ := mem_fieldsWithout.1 member
    exact trees g mem
  · refine read s fun f member => ?_
    unfold Left
    cases taken : S.has f.1 with
    | true =>
      refine absent f.1 (List.mem_map_of_mem member) ?_
      simp [names_fieldsWithout, taken]
    | false => exact holds _ (mem_fieldsWithout.2 ⟨f, member, taken, rfl⟩)

end Json
end LeagueSync
