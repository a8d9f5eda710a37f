import Mathlib.Data.List.Infix
import LeagueSync.Config.Environment

/-!
# LeagueSync.Proofs.ReferenceExpansion

Where a reference is replaced and where it is not. A text leaves a reference open if it has a `${`
with no closing brace behind it. Behind any other text a reference to a variable that is set is
replaced once, by a value that is not looked at again, whatever stands around it. Behind a text that
leaves one open it is not: the open `${` takes everything up to the closing brace of the reference
for the name of a variable.

* `Environment.reference?_eq_some_iff`: what a reference is.
* `Environment.expandChars_append`: a text that leaves nothing open is expanded on its own.
* `Environment.expand_reference`: both cases, for all texts around a reference.
-/

namespace LeagueSync
namespace Environment

variable {env : Environment}

theorem reference?_eq_some_iff {cs name after : List Char} :
    reference? cs = some (name, after) ↔ name ≠ [] ∧ '}' ∉ name ∧ cs = name ++ '}' :: after := by
  have split := List.takeWhile_append_dropWhile (p := (· != '}')) (l := cs)
  have rest : cs.drop (cs.takeWhile (· != '}')).length = cs.dropWhile (· != '}') :=
    (congrArg (List.drop _) split.symm).trans List.drop_left
  constructor
  · intro h
    simp only [reference?, rest] at h
    split at h
    · next c tail found =>
      split at h
      · cases h
      · next some_name =>
        cases h
        obtain rfl : c = '}' := by
          have first := List.head?_dropWhile_not (· != '}') cs
          rw [found] at first
          simpa using first
        refine ⟨some_name, fun mem => ?_, ?_⟩
        · simpa using List.all_eq_true.1 List.all_takeWhile _ mem
        · rw [← found, split]
    · cases h
  · rintro ⟨some_name, inside, rfl⟩
    have taken : (name ++ '}' :: after).takeWhile (· != '}') = name := by
      rw [List.takeWhile_append_of_pos fun c mem => by
        simpa using fun closing : c = '}' => inside (closing ▸ mem)]
      simp
    simp only [reference?, taken, List.drop_left, if_neg some_name]

theorem reference?_eq_none_iff {cs : List Char} :
    reference? cs = none ↔ '}' ∉ cs ∨ ∃ rest, cs = '}' :: rest := by
  constructor
  · intro h
    by_cases closing : '}' ∈ cs
    · obtain ⟨name, after, rfl, inside⟩ := List.eq_append_cons_of_mem closing
      by_cases some_name : name = []
      · exact .inr ⟨after, by rw [some_name, List.nil_append]⟩
      · cases h.symm.trans (reference?_eq_some_iff.2 ⟨some_name, inside, rfl⟩)
    · exact .inl closing
  · intro h
    cases found : reference? cs with
    | none => rfl
    | some r =>
      obtain ⟨some_name, inside, rfl⟩ := reference?_eq_some_iff.1 found
      rcases h with unclosed | ⟨rest, at_once⟩
      · simp at unclosed
      · cases name : r.1 with
        | nil => exact absurd name some_name
        | cons c cs =>
          rw [name] at at_once inside
          cases at_once
          simp at inside

/-- What stands for a reference after expansion. -/
def replacement (env : Environment) (name : List Char) : List Char :=
  match env.get? (String.ofList name) with
  | some value => value.toList
  | none => '$' :: '{' :: name ++ ['}']

theorem expandChars_reference {rest name after : List Char}
    (h : reference? rest = some (name, after)) :
    env.expandChars ('$' :: '{' :: rest) = env.replacement name ++ env.expandChars after := by
  rw [expandChars]
  split
  · next name' after' h' =>
    cases h.symm.trans h'
    rfl
  · next h' => cases h.symm.trans h'

theorem expandChars_of_reference?_eq_none {rest : List Char} (h : reference? rest = none) :
    env.expandChars ('$' :: '{' :: rest) = '$' :: env.expandChars ('{' :: rest) := by
  rw [expandChars]
  split
  · next name after h' => cases h.symm.trans h'
  · rfl

theorem expandChars_other {c : Char} {rest : List Char}
    (h : ¬ (c = '$' ∧ rest.head? = some '{')) :
    env.expandChars (c :: rest) = c :: env.expandChars rest := by
  rw [expandChars]
  rintro tail rfl rfl
  exact h ⟨rfl, rfl⟩

/-! ## Open references -/

/-- A `${` stands in the text with no closing brace behind it. -/
def LeavesOpen (cs : List Char) : Prop :=
  ∃ before inside, cs = before ++ '$' :: '{' :: inside ∧ '}' ∉ inside

/-- An open reference begins a suffix, and there are only so many. -/
instance (cs : List Char) : Decidable (LeavesOpen cs) :=
  decidable_of_iff (∃ t ∈ cs.tails, t.take 2 = ['$', '{'] ∧ '}' ∉ t.drop 2) <| by
    constructor
    · rintro ⟨t, mem, start, unclosed⟩
      obtain ⟨before, rfl⟩ := (List.mem_tails ..).1 mem
      refine ⟨before, t.drop 2, ?_, unclosed⟩
      rw [List.append_cancel_left_eq, ← t.take_append_drop 2, start]
      rfl
    · rintro ⟨before, inside, rfl, unclosed⟩
      exact ⟨_, (List.mem_tails ..).2 ⟨before, rfl⟩, rfl, unclosed⟩

theorem LeavesOpen.append_left {cs : List Char} (h : LeavesOpen cs) (front : List Char) :
    LeavesOpen (front ++ cs) := by
  obtain ⟨before, inside, rfl, unclosed⟩ := h
  exact ⟨front ++ before, inside, (List.append_assoc ..).symm, unclosed⟩

/-- The first of the open references has none in front of it. -/
theorem LeavesOpen.first {cs : List Char} (h : LeavesOpen cs) :
    ∃ before inside, cs = before ++ '$' :: '{' :: inside ∧ '}' ∉ inside ∧ ¬ LeavesOpen before := by
  obtain ⟨before, inside, rfl, unclosed⟩ := h
  induction length : before.length using Nat.strongRecOn generalizing before inside with
  | _ n ih =>
    by_cases earlier : LeavesOpen before
    · obtain ⟨before', inside', rfl, unclosed'⟩ := earlier
      rw [List.length_append, List.length_cons] at length
      have more : '}' ∉ inside' ++ '$' :: '{' :: inside := by simp [unclosed, unclosed']
      obtain ⟨b, i, same, rest⟩ := ih before'.length (by omega) before' _ more rfl
      exact ⟨b, i, by rw [← same, List.append_assoc, List.cons_append, List.cons_append], rest⟩
    · exact ⟨before, inside, rfl, unclosed, earlier⟩

/-- A text that leaves no reference open is expanded on its own, unless the `$` and the brace of one
would come from two sides. -/
theorem expandChars_append {front : List Char} (closed : ¬ LeavesOpen front) {back : List Char}
    (apart : back.head? ≠ some '{') :
    env.expandChars (front ++ back) = env.expandChars front ++ env.expandChars back := by
  have later (c : Char) (cs : List Char) (h : ¬ LeavesOpen (c :: cs)) : ¬ LeavesOpen cs :=
    fun left => h (left.append_left [c])
  induction length : front.length using Nat.strongRecOn generalizing front with
  | _ n ih =>
    match front, closed, length with
    | [], _, _ => rw [expandChars, List.nil_append, List.nil_append]
    | c :: rest, closed, length =>
      rw [List.length_cons] at length
      have next := ih rest.length (by omega) (later c rest closed) rfl
      by_cases start : c = '$' ∧ rest.head? = some '{'
      · obtain ⟨rfl, brace⟩ := start
        obtain ⟨tail, rfl⟩ := List.head?_eq_some_iff.1 brace
        cases found : reference? tail with
        | some r =>
          obtain ⟨some_name, inside, rfl⟩ := reference?_eq_some_iff.1 found
          have found' : reference? (r.1 ++ '}' :: r.2 ++ back) = some (r.1, r.2 ++ back) :=
            reference?_eq_some_iff.2 ⟨some_name, inside, by rw [List.append_assoc]; rfl⟩
          have closed' : ¬ LeavesOpen r.2 := fun left =>
            closed (by simpa using left.append_left ('$' :: '{' :: r.1 ++ ['}']))
          have shorter : r.2.length < n := by
            simp only [List.length_cons, List.length_append] at length
            omega
          rw [List.cons_append, List.cons_append, expandChars_reference found',
            expandChars_reference found, ih _ shorter closed' rfl, List.append_assoc]
        | none =>
          rcases reference?_eq_none_iff.1 found with unclosed | ⟨more, rfl⟩
          · exact absurd ⟨[], tail, rfl, unclosed⟩ closed
          · have found' : reference? ('}' :: more ++ back) = none :=
              reference?_eq_none_iff.2 (.inr ⟨more ++ back, rfl⟩)
            rw [List.cons_append, List.cons_append, expandChars_of_reference?_eq_none found',
              expandChars_of_reference?_eq_none found]
            exact congrArg ('$' :: ·) next
      · have start' : ¬ (c = '$' ∧ (rest ++ back).head? = some '{') := by
          rintro ⟨rfl, brace⟩
          cases rest with
          | nil => exact apart brace
          | cons d rest => exact start ⟨rfl, brace⟩
        rw [List.cons_append, expandChars_other start', expandChars_other start, next,
          List.cons_append]

theorem expandChars_around {front name back : List Char} (closed : ¬ LeavesOpen front)
    (some_name : name ≠ []) (inside : '}' ∉ name) :
    env.expandChars (front ++ '$' :: '{' :: (name ++ '}' :: back)) =
      env.expandChars front ++ env.replacement name ++ env.expandChars back := by
  have found : reference? (name ++ '}' :: back) = some (name, back) :=
    reference?_eq_some_iff.2 ⟨some_name, inside, rfl⟩
  have apart : ('$' :: '{' :: (name ++ '}' :: back)).head? ≠ some '{' := by simp
  rw [expandChars_append closed apart, expandChars_reference found, List.append_assoc]

/-! ## Texts around a reference -/

/-- The text that refers to a variable. -/
def reference (name : String) : String :=
  "$\x7b" ++ name ++ "\x7d"

theorem toList_reference (name : String) :
    (reference name).toList = '$' :: '{' :: (name.toList ++ ['}']) := by
  simp [reference]

theorem ofList_replacement (name : String) :
    String.ofList (env.replacement name.toList) = (env.get? name).getD (reference name) := by
  rw [replacement, String.ofList_toList]
  cases env.get? name with
  | some value => exact String.ofList_toList
  | none => rw [Option.getD_none, ← String.toList_inj, String.toList_ofList, toList_reference]; rfl

theorem expand_around {front name back : String} (closed : ¬ LeavesOpen front.toList)
    (some_name : name ≠ "") (inside : '}' ∉ name.toList) :
    env.expand (front ++ reference name ++ back) =
      env.expand front ++ (env.get? name).getD (reference name) ++ env.expand back := by
  have chars : name.toList ≠ [] := fun none => some_name (String.toList_eq_nil_iff.1 none)
  rw [← ofList_replacement]
  simp only [expand, String.toList_append, toList_reference, ← String.ofList_append,
    List.append_assoc, List.cons_append, List.nil_append, ← expandChars_around closed chars inside]

/-- A reference to a variable that is set is replaced by the value, and the texts around it are
expanded as though it were not there, unless the text in front of it leaves a reference open. Then
the first that it leaves open reaches as far as this one, and they are one reference to a variable
of a longer name. -/
theorem expand_reference (env : Environment) (a b name v : String) (some_name : name ≠ "")
    (inside : '}' ∉ name.toList) (known : env.get? name = some v) :
    (¬ LeavesOpen a.toList →
      env.expand (a ++ reference name ++ b) = env.expand a ++ v ++ env.expand b) ∧
    (LeavesOpen a.toList → ∃ front swallowed : String,
      a = front ++ "$\x7b" ++ swallowed ∧ '}' ∉ swallowed.toList ∧ ¬ LeavesOpen front.toList ∧
      let long := swallowed ++ "$\x7b" ++ name
      env.expand (a ++ reference name ++ b) =
        env.expand front ++ (env.get? long).getD (reference long) ++ env.expand b) := by
  constructor
  · intro closed
    rw [expand_around closed some_name inside, known, Option.getD_some]
  · intro left
    obtain ⟨before, open_, same, unclosed, closed⟩ := left.first
    have split : a = String.ofList before ++ "$\x7b" ++ String.ofList open_ := by
      rw [← String.toList_inj, same]
      simp
    refine ⟨String.ofList before, String.ofList open_, split, ?_, ?_, ?_⟩
    · rwa [String.toList_ofList]
    · rwa [String.toList_ofList]
    · intro long
      have joined : a ++ reference name = String.ofList before ++ reference long := by
        simp only [split, reference, long, String.append_assoc]
      rw [joined]
      refine expand_around ?_ ?_ ?_
      · rwa [String.toList_ofList]
      · intro none
        have := congrArg String.toList none
        simp [long] at this
      · simp [long, unclosed, inside]

/-- Behind a dollar, an empty reference, one that is unknown and a brace that closes nothing; and
behind an open one that makes a longer name, of a variable that is set as well. -/
theorem expand_reference_in_and_out :
    let env : Environment := [("P", "$\x7bP\x7d"), (" ;$\x7bP", "long")]
    let closed := "$$\x7b\x7d $\x7bU\x7d\x7d$"
    let open_ := "$\x7bP\x7d$\x7b ;"
    env.get? "P" = some "$\x7bP\x7d" ∧ ¬ LeavesOpen closed.toList ∧ LeavesOpen open_.toList ∧
      env.expand (closed ++ reference "P" ++ "\x7d$") =
        env.expand closed ++ "$\x7bP\x7d" ++ env.expand "\x7d$" ∧
      ∃ front swallowed : String, open_ = front ++ "$\x7b" ++ swallowed ∧
        let long := swallowed ++ "$\x7b" ++ "P"
        env.expand (open_ ++ reference "P" ++ "$") =
          env.expand front ++ (env.get? long).getD (reference long) ++ env.expand "$" := by
  intro env closed open_
  have some_name : "P" ≠ "" := by decide
  have inside : '}' ∉ "P".toList := by decide
  have known : env.get? "P" = some "$\x7bP\x7d" := by decide
  have out : ¬ LeavesOpen closed.toList := by decide
  have within : LeavesOpen open_.toList := by decide
  obtain ⟨front, swallowed, split, -, -, expanded⟩ :=
    (expand_reference env open_ "$" "P" _ some_name inside known).2 within
  exact ⟨known, out, within,
    (expand_reference env closed "\x7d$" "P" _ some_name inside known).1 out, front, swallowed,
    split, expanded⟩

/-- A comment with an open `${` in it, and a reference in the next line. -/
theorem stray_start_swallows :
    let env : Environment := [("P", "/x")]
    let comment := "# a $\x7b\npath: "
    env.get? "P" = some "/x" ∧
      env.expand (comment ++ reference "P" ++ "\n") ≠
        env.expand comment ++ "/x" ++ env.expand "\n" := by
  decide +kernel

end Environment
end LeagueSync
