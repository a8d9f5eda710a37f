import LeagueSync.Json.Decode
import LeagueSync.Json.Writer
import LeagueSync.Proofs.Digits

/-!
# LeagueSync.Proofs.JsonText

The compact text of a JSON value has, by the grammar, the tree of the value, whatever text follows
it. Numbers with a point are left out: their shortest texts are a matter of their own.

* `Json.tree?`: the tree of a value without such numbers.
* `Json.number?_integerText`, `Json.string?_quoted`: the two kinds of leaf with an extent.
* `Json.value_compactChars`: a value inside a text. The induction is on the value; the fuel is
  enough as soon as it exceeds the length of the value's text.
* `Json.read?_compact`: the whole text.
-/

namespace LeagueSync
namespace Json

open Text

/-! ## Integers -/

/-- What an integer is by the grammar. -/
def integerLiteral (n : Int) : Literal where
  negative := decide (n < 0)
  whole := digits n.natAbs
  fraction := []
  exponent := none

/-- What may stand after a value inside a text. -/
def EndsValue (rest : List Char) : Prop :=
  ∀ c ∈ rest.head?, c = ',' ∨ c = ']' ∨ c = '}'

theorem endsValue_nil : EndsValue [] := by
  intro c h
  cases h

theorem endsValue_comma (rest : List Char) : EndsValue (',' :: rest) := by
  intro c h
  cases h
  exact .inl rfl

theorem endsValue_bracket (rest : List Char) : EndsValue (']' :: rest) := by
  intro c h
  cases h
  exact .inr (.inl rfl)

theorem endsValue_brace (rest : List Char) : EndsValue ('}' :: rest) := by
  intro c h
  cases h
  exact .inr (.inr rfl)

section Numbers

variable {rest : List Char}

theorem EndsValue.noDigit (ends : EndsValue rest) : NoDigit rest := by
  intro c h
  rcases ends c h with rfl | rfl | rfl <;> decide

theorem whole?_digits (n : Nat) (ends : EndsValue rest) :
    whole? (digits n ++ rest) = some (digits n, rest) := by
  have run : (digits n ++ rest).takeWhile isDigit = digits n :=
    takeWhile_isDigit_append (fun _ => isDigit_of_mem_digits) ends.noDigit
  cases n with
  | zero =>
    cases rest with
    | nil => rfl
    | cons c rest =>
      have stop : isDigit c = false := ends.noDigit c rfl
      simp [digits, whole?, stop]
  | succ n =>
    have front : (digits (n + 1) ++ rest).head? ≠ some '0' := by
      rw [List.head?_append]
      cases head : (digits (n + 1)).head? with
      | none => exact absurd (List.head?_eq_none_iff.1 head) (digits_ne_nil _)
      | some c => exact fun same => head?_digits_ne_zero (Nat.succ_pos n) (head.trans same)
    rw [whole?]
    · simp only [run, digits_ne_nil, if_false, List.drop_left]
    · intro cs same
      rw [same] at front
      exact front rfl

theorem fraction?_of_endsValue (ends : EndsValue rest) : fraction? rest = some ([], rest) := by
  cases rest with
  | nil => rfl
  | cons c cs =>
    rcases ends c rfl with rfl | rfl | rfl <;> rfl

theorem exponent?_of_endsValue (ends : EndsValue rest) : exponent? rest = some (none, rest) := by
  cases rest with
  | nil => rfl
  | cons c cs =>
    rcases ends c rfl with rfl | rfl | rfl <;> rfl

theorem integerText_eq (n : Int) :
    integerText n = (if n < 0 then ['-'] else []) ++ digits n.natAbs := by
  cases n with
  | ofNat n => simp [integerText]
  | negSucc n => simp [integerText, Int.negSucc_lt_zero]

theorem number?_integerText (n : Int) (ends : EndsValue rest) :
    number? (integerText n ++ rest) = some (integerLiteral n, rest) := by
  rw [integerText_eq]
  by_cases negative : n < 0
  · simp only [negative, if_true, List.cons_append, List.nil_append, number?, whole?_digits _ ends,
      fraction?_of_endsValue ends, exponent?_of_endsValue ends, integerLiteral, decide_true,
      Option.bind_eq_bind, Option.bind_some]
  · have noSign (cs : List Char) : digits n.natAbs ++ rest ≠ '-' :: cs := by
      cases text : digits n.natAbs with
      | nil => exact absurd text (digits_ne_nil _)
      | cons c ds =>
        intro same
        rw [List.cons_append, List.cons.injEq] at same
        exact digits_ne_cons_minus _ ds (same.1 ▸ text)
    simp only [negative, if_false, List.nil_append, number?, whole?_digits _ ends,
      fraction?_of_endsValue ends, exponent?_of_endsValue ends, integerLiteral, decide_false,
      Option.bind_eq_bind, Option.bind_some]

end Numbers

/-! ## Strings -/

/-- What the reader makes of an escaped character. -/
def pieceOf (c : Char) : Piece :=
  if c.toNat < 32 ∧ c ≠ '\n' ∧ c ≠ '\r' ∧ c ≠ '\t' ∧ c ≠ '\x08' ∧ c ≠ '\x0c' then .unit c.toNat
  else .char c

theorem inBase?_hexByte : ∀ n < 32, inBase? 16 ('0' :: '0' :: hexByte n) = some n := by
  decide

theorem stringPieces?_escape (fuel : Nat) (c : Char) (rest : List Char) :
    stringPieces? (fuel + 1) (escape c ++ rest) =
      (stringPieces? fuel rest).map fun p => (pieceOf c :: p.1, p.2) := by
  have opened (p : Piece) (e : List Char) (read : escape? (e ++ rest) = some (match p with
      | .char c => .char c
      | .unit n => .unit n, rest)) :
      stringPieces? (fuel + 1) ('\\' :: e ++ rest) =
        (stringPieces? fuel rest).map fun q => (p :: q.1, q.2) := by
    simp only [stringPieces?, List.cons_append, read, Option.bind_eq_bind, Option.bind_some]
    cases p <;> cases stringPieces? fuel rest <;> rfl
  rw [escape]
  split
  · subst_vars
    exact opened (.char '"') ['"'] rfl
  split
  · subst_vars
    exact opened (.char '\\') ['\\'] rfl
  split
  · subst_vars
    exact opened (.char '\n') ['n'] rfl
  split
  · subst_vars
    exact opened (.char '\r') ['r'] rfl
  split
  · subst_vars
    exact opened (.char '\t') ['t'] rfl
  split
  · subst_vars
    exact opened (.char '\x08') ['b'] rfl
  split
  · subst_vars
    exact opened (.char '\x0c') ['f'] rfl
  split
  · rename_i quote slash line ret tab back feed control
    have piece : pieceOf c = .unit c.toNat := by simp [pieceOf, *]
    rw [piece]
    refine opened (.unit c.toNat) ('u' :: '0' :: '0' :: hexByte c.toNat) ?_
    have read := inBase?_hexByte c.toNat control
    simp only [hexByte] at read
    simp only [hexByte, List.cons_append, List.nil_append, escape?, hexQuad?, read, Option.map_some]
  · rename_i quote slash line ret tab back feed solid
    have piece : pieceOf c = .char c := by simp [pieceOf, solid]
    rw [piece, List.singleton_append, stringPieces?]
    · simp only [solid, if_false, Option.bind_eq_bind]
      cases stringPieces? fuel rest <;> rfl
    · exact quote
    · exact slash

theorem length_escape_pos (c : Char) : 0 < (escape c).length := by
  simp only [escape]
  repeat' split
  all_goals simp

theorem stringPieces?_flatMap_escape (cs rest : List Char) {fuel : Nat}
    (enough : cs.length < fuel) :
    stringPieces? fuel (cs.flatMap escape ++ '"' :: rest) = some (cs.map pieceOf, rest) := by
  induction cs generalizing fuel with
  | nil =>
    obtain ⟨fuel, rfl⟩ := Nat.exists_eq_add_of_lt enough
    rfl
  | cons c cs ih =>
    cases fuel with
    | zero => exact absurd enough (Nat.not_lt_zero _)
    | succ fuel =>
      have shorter : cs.length < fuel := by
        rw [List.length_cons] at enough
        omega
      rw [List.flatMap_cons, List.append_assoc, stringPieces?_escape, ih shorter]
      rfl

/-- A unit that is no half of a pair stands for its character, whatever follows. -/
theorem piecesText?_unit {n : Nat} (low : n < 0xD800) (ps : List Piece) :
    piecesText? (.unit n :: ps) = (piecesText? ps).map (Char.ofNat n :: ·) := by
  have notHigh : ¬ (0xD800 ≤ n ∧ n < 0xDC00) := by omega
  have notLow : ¬ (0xDC00 ≤ n ∧ n < 0xE000) := by omega
  have noHalf : ¬ (0xD800 ≤ n ∧ n < 0xE000) := by omega
  cases ps with
  | nil => simp [piecesText?, noHalf]
  | cons p ps =>
    cases p with
    | char c => simp [piecesText?, noHalf]
    | unit m => simp only [piecesText?, notHigh, notLow, if_false]

theorem piecesText?_map_pieceOf (cs : List Char) : piecesText? (cs.map pieceOf) = some cs := by
  induction cs with
  | nil => rfl
  | cons c cs ih =>
    rw [List.map_cons, pieceOf]
    split
    · rename_i control
      rw [piecesText?_unit (by omega), ih, Option.map_some, Char.ofNat_toNat]
    · rw [piecesText?, ih, Option.map_some]

theorem length_le_length_flatMap_escape (cs : List Char) :
    cs.length ≤ (cs.flatMap escape).length := by
  induction cs with
  | nil => exact Nat.le_refl 0
  | cons c cs ih =>
    have one := length_escape_pos c
    simp only [List.length_cons, List.flatMap_cons, List.length_append]
    omega

theorem quoted_append (s : String) (rest : List Char) :
    quoted s ++ rest = '"' :: (s.toList.flatMap escape ++ '"' :: rest) := by
  simp [quoted]

theorem string?_quoted (s : String) (rest : List Char) :
    string? (s.toList.flatMap escape ++ '"' :: rest) = some (some s, rest) := by
  have enough : s.toList.length < (s.toList.flatMap escape ++ '"' :: rest).length + 1 := by
    have longer := length_le_length_flatMap_escape s.toList
    rw [List.length_append]
    omega
  simp only [string?, stringPieces?_flatMap_escape s.toList rest enough, piecesText?_map_pieceOf,
    Option.bind_eq_bind, Option.bind_some, Option.map_some, String.ofList_toList]

/-! ## Values -/

mutual

/-- What a value is by the grammar, if there is no number with a point in it. -/
def tree? : Json → Option Tree
  | null => some .null
  | bool b => some (.bool b)
  | int n => some (.number (integerLiteral n))
  | real _ => none
  | str s => some (.text (some s))
  | arr items => (trees? items).map .array
  | obj fields => (fieldTrees? fields).map .object

def trees? : List Json → Option (List Tree)
  | [] => some []
  | v :: rest => do
    let t ← tree? v
    let ts ← trees? rest
    some (t :: ts)

def fieldTrees? : List (String × Json) → Option (List (Option String × Tree))
  | [] => some []
  | (name, v) :: rest => do
    let t ← tree? v
    let ts ← fieldTrees? rest
    some ((some name, t) :: ts)

end

theorem trees?_cons {v : Json} {vs : List Json} {ts : List Tree} (h : trees? (v :: vs) = some ts) :
    ∃ t us, v.tree? = some t ∧ trees? vs = some us ∧ ts = t :: us := by
  simp only [trees?, Option.bind_eq_bind] at h
  obtain ⟨t, first, h⟩ := Option.bind_eq_some_iff.1 h
  obtain ⟨us, others, h⟩ := Option.bind_eq_some_iff.1 h
  exact ⟨t, us, first, others, (Option.some.inj h).symm⟩

theorem fieldTrees?_cons {name : String} {v : Json} {fs : List (String × Json)}
    {ts : List (Option String × Tree)} (h : fieldTrees? ((name, v) :: fs) = some ts) :
    ∃ t us, v.tree? = some t ∧ fieldTrees? fs = some us ∧ ts = (some name, t) :: us := by
  simp only [fieldTrees?, Option.bind_eq_bind] at h
  obtain ⟨t, first, h⟩ := Option.bind_eq_some_iff.1 h
  obtain ⟨us, others, h⟩ := Option.bind_eq_some_iff.1 h
  exact ⟨t, us, first, others, (Option.some.inj h).symm⟩

theorem exists_integerText_eq (n : Int) :
    ∃ c cs, integerText n = c :: cs ∧ (isDigit c = true ∨ c = '-') := by
  rw [integerText_eq]
  split
  · exact ⟨'-', _, rfl, .inr rfl⟩
  · cases text : digits n.natAbs with
    | nil => exact absurd text (digits_ne_nil _)
    | cons c cs =>
      exact ⟨c, cs, rfl, .inl (isDigit_of_mem_digits (text ▸ List.mem_cons_self))⟩

theorem value_integerText (fuel : Nat) (n : Int) {rest : List Char} (ends : EndsValue rest) :
    Tree.value (fuel + 1) (integerText n ++ rest) =
      some (.number (integerLiteral n), rest) := by
  have read := number?_integerText n ends
  obtain ⟨c, cs, text, first⟩ := exists_integerText_eq n
  rw [text, List.cons_append] at read ⊢
  have other (d : Char) (notDigit : isDigit d = false) (notMinus : d ≠ '-') : c ≠ d := by
    rintro rfl
    rcases first with digit | minus
    · exact absurd (digit.symm.trans notDigit) (by decide)
    · exact notMinus minus
  have solid : skipSpace (c :: (cs ++ rest)) = c :: (cs ++ rest) := by
    have blank := other ' ' (by decide) (by decide)
    have line := other '\n' (by decide) (by decide)
    have tab := other '\t' (by decide) (by decide)
    have ret := other '\r' (by decide) (by decide)
    simp [skipSpace, isSpace, blank, line, tab, ret]
  rw [Tree.value, solid]
  have n := other 'n' (by decide) (by decide)
  have t := other 't' (by decide) (by decide)
  have f := other 'f' (by decide) (by decide)
  have quote := other '"' (by decide) (by decide)
  have bracket := other '[' (by decide) (by decide)
  have brace := other '\x7b' (by decide) (by decide)
  simp [read, n, t, f, quote, bracket, brace]

theorem exists_compactChars_eq {v : Json} {t : Tree} (exact : v.tree? = some t) :
    ∃ c cs, compactChars v = c :: cs ∧ isSpace c = false ∧ c ≠ ']' := by
  cases v with
  | null => exact ⟨_, _, rfl, rfl, by decide⟩
  | bool b => cases b <;> exact ⟨_, _, rfl, rfl, by decide⟩
  | int n =>
    obtain ⟨c, cs, text, first⟩ := exists_integerText_eq n
    refine ⟨c, cs, text, ?_, ?_⟩
    · rcases first with digit | rfl
      · simp only [isDigit, Bool.and_eq_true, decide_eq_true_eq] at digit
        simp only [isSpace, Bool.or_eq_false_iff, beq_eq_false_iff_ne]
        refine ⟨⟨⟨?_, ?_⟩, ?_⟩, ?_⟩ <;> rintro rfl <;> exact absurd digit (by decide)
      · rfl
    · rcases first with digit | rfl
      · rintro rfl
        exact absurd digit (by decide)
      · decide
  | real x => cases exact
  | str s => exact ⟨_, _, rfl, rfl, by decide⟩
  | arr items => exact ⟨_, _, rfl, rfl, by decide⟩
  | obj fields => exact ⟨_, _, rfl, rfl, by decide⟩

mutual

theorem value_compactChars : ∀ (v : Json) (t : Tree) (fuel : Nat) (rest : List Char),
    v.tree? = some t → (compactChars v).length < fuel → EndsValue rest →
      Tree.value fuel (compactChars v ++ rest) = some (t, rest)
  | _, _, 0, _, _, enough, _ => absurd enough (Nat.not_lt_zero _)
  | null, t, fuel + 1, rest, exact, _, _ => by
    cases exact
    rfl
  | bool b, t, fuel + 1, rest, exact, _, _ => by
    cases exact
    cases b <;> rfl
  | int n, t, fuel + 1, rest, exact, _, ends => by
    cases exact
    exact value_integerText fuel n ends
  | real x, t, fuel + 1, rest, exact, _, _ => by
    cases exact
  | str s, t, fuel + 1, rest, exact, _, _ => by
    cases exact
    have solid (cs : List Char) : skipSpace ('"' :: cs) = '"' :: cs := rfl
    simp only [compactChars, quoted_append, Tree.value, solid, string?_quoted, Option.map_some]
  | arr [], t, fuel + 1, rest, exact, _, _ => by
    cases exact
    rfl
  | arr (v :: vs), t, fuel + 1, rest, exact, enough, _ => by
    obtain ⟨ts, trees, rfl⟩ := Option.map_eq_some_iff.1 exact
    obtain ⟨u, us, first, -⟩ := trees?_cons trees
    obtain ⟨c, cs, text, solid, notEnd⟩ := exists_compactChars_eq first
    have inside := items_compactItems v vs ts fuel rest trees (by
      simp only [compactChars, List.length_cons, List.length_append] at enough
      exact Nat.lt_of_succ_lt_succ enough)
    obtain ⟨ds, begins⟩ : ∃ ds, joined [','] (compactItems (v :: vs)) = c :: ds := by
      cases vs with
      | nil => exact ⟨cs, text⟩
      | cons w vs => exact ⟨_, by rw [compactItems, text]; rfl⟩
    have opened : compactChars (arr (v :: vs)) ++ rest =
        '[' :: (joined [','] (compactItems (v :: vs)) ++ ']' :: rest) := by
      simp only [compactChars, List.cons_append, List.append_assoc, List.nil_append]
    have here (cs : List Char) : skipSpace ('[' :: cs) = '[' :: cs := rfl
    have there (ds : List Char) : skipSpace (c :: ds) = c :: ds := by simp [skipSpace, solid]
    rw [opened, Tree.value, here]
    rw [begins, List.cons_append] at inside ⊢
    simp [there, notEnd, inside]
  | obj [], t, fuel + 1, rest, exact, _, _ => by
    cases exact
    rfl
  | obj ((name, v) :: fs), t, fuel + 1, rest, exact, enough, _ => by
    obtain ⟨ts, trees, rfl⟩ := Option.map_eq_some_iff.1 exact
    have inside := fields_compactFields name v fs ts fuel rest trees (by
      simp only [compactChars, List.length_cons, List.length_append] at enough
      exact Nat.lt_of_succ_lt_succ enough)
    obtain ⟨ds, begins⟩ : ∃ ds, joined [','] (compactFields ((name, v) :: fs)) = '"' :: ds := by
      cases fs with
      | nil => exact ⟨_, rfl⟩
      | cons f fs => exact ⟨_, rfl⟩
    have opened : compactChars (obj ((name, v) :: fs)) ++ rest =
        '\x7b' :: (joined [','] (compactFields ((name, v) :: fs)) ++ '\x7d' :: rest) := by
      simp only [compactChars, List.cons_append, List.append_assoc, List.nil_append]
    have here (cs : List Char) : skipSpace ('\x7b' :: cs) = '\x7b' :: cs := rfl
    have there (ds : List Char) : skipSpace ('"' :: ds) = '"' :: ds := rfl
    rw [opened, Tree.value, here]
    rw [begins, List.cons_append] at inside ⊢
    simp [there, inside]

theorem items_compactItems : ∀ (v : Json) (vs : List Json) (ts : List Tree) (fuel : Nat)
    (rest : List Char), trees? (v :: vs) = some ts →
      (joined [','] (compactItems (v :: vs))).length + 1 < fuel →
      Tree.items fuel (joined [','] (compactItems (v :: vs)) ++ ']' :: rest) = some (ts, rest)
  | _, _, _, 0, _, _, enough => absurd enough (Nat.not_lt_zero _)
  | v, [], ts, fuel + 1, rest, exact, enough => by
    obtain ⟨t, us, first, others, rfl⟩ := trees?_cons exact
    cases others
    have item := value_compactChars v t fuel (']' :: rest) first
      (Nat.lt_of_succ_lt_succ enough) (endsValue_bracket rest)
    have there : skipSpace (']' :: rest) = ']' :: rest := rfl
    simp [compactItems, joined, Tree.items, item, there]
  | v, w :: vs, ts, fuel + 1, rest, exact, enough => by
    obtain ⟨t, us, first, others, rfl⟩ := trees?_cons exact
    have cut : joined [','] (compactItems (v :: w :: vs)) =
        compactChars v ++ ',' :: joined [','] (compactItems (w :: vs)) := by
      simp only [compactItems, joined, List.append_assoc, List.cons_append, List.nil_append]
    rw [cut, List.length_append, List.length_cons] at enough
    have item := value_compactChars v t fuel (',' :: (joined [','] (compactItems (w :: vs)) ++
      ']' :: rest)) first (by omega) (endsValue_comma _)
    have more := items_compactItems w vs us fuel rest others (by omega)
    have there (cs : List Char) : skipSpace (',' :: cs) = ',' :: cs := rfl
    rw [cut, List.append_assoc, List.cons_append, Tree.items, item]
    simp [there, more]

theorem fields_compactFields : ∀ (name : String) (v : Json) (fs : List (String × Json))
    (ts : List (Option String × Tree)) (fuel : Nat) (rest : List Char),
      fieldTrees? ((name, v) :: fs) = some ts →
      (joined [','] (compactFields ((name, v) :: fs))).length + 1 < fuel →
      Tree.fields fuel (joined [','] (compactFields ((name, v) :: fs)) ++ '}' :: rest) =
        some (ts, rest)
  | _, _, _, _, 0, _, _, enough => absurd enough (Nat.not_lt_zero _)
  | name, v, [], ts, fuel + 1, rest, exact, enough => by
    obtain ⟨t, us, first, others, rfl⟩ := fieldTrees?_cons exact
    cases others
    have cut : joined [','] (compactFields [(name, v)]) = quoted name ++ ':' :: compactChars v := by
      simp only [compactFields, joined]
    rw [cut, List.length_append, List.length_cons] at enough
    have field :=
      value_compactChars v t fuel ('\x7d' :: rest) first (by omega) (endsValue_brace rest)
    have here (cs : List Char) : skipSpace ('"' :: cs) = '"' :: cs := rfl
    have there (cs : List Char) : skipSpace (':' :: cs) = ':' :: cs := rfl
    have stop : skipSpace ('\x7d' :: rest) = '\x7d' :: rest := rfl
    rw [cut, List.append_assoc, quoted_append, List.cons_append]
    simp [Tree.fields, here, there, stop, string?_quoted, field]
  | name, v, (name', w) :: fs, ts, fuel + 1, rest, exact, enough => by
    obtain ⟨t, us, first, others, rfl⟩ := fieldTrees?_cons exact
    have cut : joined [','] (compactFields ((name, v) :: (name', w) :: fs)) =
        quoted name ++ ':' :: (compactChars v ++ ',' ::
          joined [','] (compactFields ((name', w) :: fs))) := by
      simp only [compactFields, joined, List.append_assoc, List.cons_append, List.nil_append]
    rw [cut, List.length_append, List.length_cons, List.length_append, List.length_cons] at enough
    have field := value_compactChars v t fuel (',' :: (joined [','] (compactFields
      ((name', w) :: fs)) ++ '\x7d' :: rest)) first (by omega) (endsValue_comma _)
    have more := fields_compactFields name' w fs us fuel rest others (by omega)
    have here (cs : List Char) : skipSpace ('"' :: cs) = '"' :: cs := rfl
    have there (cs : List Char) : skipSpace (':' :: cs) = ':' :: cs := rfl
    have further (cs : List Char) : skipSpace (',' :: cs) = ',' :: cs := rfl
    rw [cut, List.append_assoc, quoted_append, List.cons_append, List.append_assoc,
      List.cons_append]
    simp [Tree.fields, here, there, further, string?_quoted, field, more]

end

/-- A text that was written is read as the value's tree. -/
theorem read?_compact {v : Json} {t : Tree} (exact : v.tree? = some t) :
    Tree.read? (compact v) = some t := by
  have read := value_compactChars v t (2 * (compactChars v).length + 2) [] exact (by omega)
    endsValue_nil
  rw [List.append_nil] at read
  have stop : skipSpace [] = [] := rfl
  simp only [Tree.read?, compact, String.toList_ofList, read, stop, if_true]

end Json
end LeagueSync
