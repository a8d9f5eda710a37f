import LeagueSync.Text.Numeral

/-!
# LeagueSync.Proofs.Digits

What is written of a number reads as that number. A run of digits ends where the rest of the text
does not begin with one, so a reader that takes all digits it sees takes exactly those written.

* `Text.digitsValue_digits`, `Text.digitsValue_padded`: the value of the digits of a number.
* `Text.takeWhile_isDigit_append`: where a run of digits ends.
* `Text.toString_int64_injective`: different numbers have different texts.
-/

namespace LeagueSync
namespace Text

theorem isDigit_eq (c : Char) : isDigit c = c.isDigit := by
  simp only [isDigit, Char.isDigit, Char.toNat, ge_iff_le, UInt32.le_iff_toNat_le]
  rfl

theorem digitsValue_eq (cs : List Char) : digitsValue cs = Nat.ofDigitChars 10 cs 0 := by
  simp only [digitsValue, Nat.ofDigitChars, Nat.mul_comm]
  rfl

theorem isDigit_of_mem_digits {n : Nat} {c : Char} (h : c ∈ digits n) : isDigit c = true := by
  rw [isDigit_eq]
  exact Nat.isDigit_of_mem_toDigits (by decide) (by decide) h

theorem digits_ne_nil (n : Nat) : digits n ≠ [] :=
  Nat.toDigits_ne_nil

theorem digitsValue_digits (n : Nat) : digitsValue (digits n) = n := by
  rw [digitsValue_eq, digits, Nat.ofDigitChars_toDigits (by decide) (by decide)]

theorem length_digits_le {n width : Nat} (pos : 0 < width) (h : n < Nat.pow 10 width) :
    (digits n).length ≤ width :=
  (Nat.length_toDigits_le_iff (by decide) pos).2 h

/-- Only zero is written with a zero in front. -/
theorem head?_digits_ne_zero {n : Nat} (pos : 0 < n) : (digits n).head? ≠ some '0' := by
  induction n using Nat.strongRecOn with
  | _ n ih =>
    by_cases small : n < 10
    · rw [digits, Nat.toDigits_of_lt_base small, List.head?_cons, ne_eq, Option.some.injEq]
      have cases : ∀ m < 10, 0 < m → Nat.digitChar m ≠ '0' := by decide
      exact cases n small pos
    · have rest := ih (n / 10) (by omega) (by omega)
      rw [digits, Nat.toDigits_of_base_le (by decide) (by omega), ← digits]
      cases front : digits (n / 10) with
      | nil => exact absurd front (digits_ne_nil _)
      | cons c cs => rwa [front] at rest

/-! ## Padded numbers -/

theorem isDigit_of_mem_padded {width n : Nat} {c : Char} (h : c ∈ padded width n) :
    isDigit c = true := by
  rcases List.mem_append.1 h with zero | digit
  · rw [(List.mem_replicate.1 zero).2]
    rfl
  · exact isDigit_of_mem_digits digit

theorem padded_ne_nil (width n : Nat) : padded width n ≠ [] := by
  simp [padded, digits_ne_nil]

theorem digitsValue_replicate_append (k : Nat) (cs : List Char) :
    digitsValue (List.replicate k '0' ++ cs) = digitsValue cs := by
  induction k with
  | zero => rfl
  | succ k ih => exact ih

theorem digitsValue_padded (width n : Nat) : digitsValue (padded width n) = n := by
  rw [padded, digitsValue_replicate_append, digitsValue_digits]

theorem length_padded {n width : Nat} (pos : 0 < width) (h : n < Nat.pow 10 width) :
    (padded width n).length = width := by
  have short := length_digits_le pos h
  simp only [padded, List.length_append, List.length_replicate]
  omega

/-! ## Where a run of digits ends -/

/-- A text that does not begin with a digit. -/
def NoDigit (cs : List Char) : Prop :=
  ∀ c ∈ cs.head?, isDigit c = false

theorem noDigit_nil : NoDigit [] := by
  intro c h
  cases h

theorem noDigit_cons {c : Char} {cs : List Char} (h : isDigit c = false) : NoDigit (c :: cs) := by
  intro d hd
  cases hd
  exact h

theorem takeWhile_isDigit_append {ds rest : List Char} (digit : ∀ c ∈ ds, isDigit c = true)
    (stop : NoDigit rest) : (ds ++ rest).takeWhile isDigit = ds := by
  rw [List.takeWhile_append_of_pos digit]
  cases rest with
  | nil => simp
  | cons c rest => simp [stop c rfl]

/-! ## Texts of integers -/

theorem digits_injective : Function.Injective digits := by
  intro m n h
  rw [← digitsValue_digits m, h, digitsValue_digits]

theorem digits_ne_cons_minus (n : Nat) (cs : List Char) : digits n ≠ '-' :: cs := by
  intro h
  have digit : isDigit '-' = true := isDigit_of_mem_digits (h ▸ List.mem_cons_self)
  exact absurd digit (by decide)

theorem toList_toString_ofNat (n : Nat) : (toString (Int.ofNat n)).toList = digits n := by
  simp [toString, Int.repr, Nat.repr, digits]

theorem toList_toString_negSucc (n : Nat) :
    (toString (Int.negSucc n)).toList = '-' :: digits (n + 1) := by
  simp [toString, Int.repr, Nat.repr, digits]

theorem toString_int_injective : Function.Injective (toString : Int → String) := by
  intro m n h
  replace h := congrArg String.toList h
  cases m with
  | ofNat j =>
    cases n with
    | ofNat k =>
      rw [toList_toString_ofNat, toList_toString_ofNat] at h
      rw [digits_injective h]
    | negSucc k =>
      rw [toList_toString_ofNat, toList_toString_negSucc] at h
      exact absurd h (digits_ne_cons_minus _ _)
  | negSucc j =>
    cases n with
    | ofNat k =>
      rw [toList_toString_ofNat, toList_toString_negSucc] at h
      exact absurd h.symm (digits_ne_cons_minus _ _)
    | negSucc k =>
      rw [toList_toString_negSucc, toList_toString_negSucc, List.cons.injEq] at h
      rw [Nat.succ.inj (digits_injective h.2)]

theorem toString_int64_injective : Function.Injective (toString : Int64 → String) := by
  intro a b h
  exact Int64.toInt_inj.1 (toString_int_injective h)

end Text
end LeagueSync
