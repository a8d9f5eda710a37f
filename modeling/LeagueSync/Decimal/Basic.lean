import LeagueSync.Text.Numeral

/-!
# LeagueSync.Decimal.Basic

Finite decimal numbers: what is written of a quantity that is not an integer. A `Decimal` is a sign,
an integer of digits and a power of ten. `Decimal.positional` writes one without an exponent, and
`roundDiv` is the one rounding rule, half to even, behind the texts with six places.
-/

namespace LeagueSync

/-- The number `±digits * 10 ^ exponent`. -/
structure Decimal where
  negative : Bool
  digits : Nat
  exponent : Int
  deriving DecidableEq, Repr, Inhabited

/-- The quotient rounded to the nearest integer, a half to the even neighbour. -/
def roundDiv (num den : Nat) : Nat :=
  let q := num / den
  let r := num % den
  if 2 * r < den then q
  else if 2 * r = den then q + q % 2
  else q + 1

namespace Decimal

/-- Moves trailing zeros of the digits into the exponent, at most `fuel` of them. -/
def stripZeros : Nat → Nat → Int → Nat × Int
  | 0, n, e => (n, e)
  | fuel + 1, n, e =>
    if n = 0 then (0, 0)
    else if n % 10 = 0 then stripZeros fuel (n / 10) (e + 1)
    else (n, e)

/-- The same number without trailing zeros in its digits; zero has exponent zero. -/
def normalize (d : Decimal) : Decimal :=
  let (n, e) := stripZeros d.digits.log2.succ d.digits d.exponent
  ⟨d.negative, n, e⟩

/-- The number without an exponent: digits, and a point where there is a fraction. -/
def positional (d : Decimal) : String :=
  let d := d.normalize
  let sign := if d.negative then ['-'] else []
  let ds := Text.digits d.digits
  let body :=
    if 0 ≤ d.exponent then ds ++ (if d.digits = 0 then [] else List.replicate d.exponent.toNat '0')
    else
      let places := (-d.exponent).toNat
      if ds.length ≤ places then ['0', '.'] ++ List.replicate (places - ds.length) '0' ++ ds
      else ds.take (ds.length - places) ++ ['.'] ++ ds.drop (ds.length - places)
  String.ofList (sign ++ body)

/-- The quotient of two natural numbers with six places, rounded half to even. -/
def ratioSixPlaces (num den : Nat) : String :=
  let n := roundDiv (num * 1000000) den
  String.ofList (Text.digits (n / 1000000) ++ ['.'] ++ Text.padded 6 (n % 1000000))

end Decimal
end LeagueSync
