import LeagueSync.Double.Basic

/-!
# LeagueSync.Double.Literal

Numbers of double precision from their literals, as a JSON text is read. The leading digits that
fit in 64 bits are kept and the others count only as places; the kept ones are rounded, and then
multiplied or divided by a power of ten that is rounded as well. So a long literal may miss its
nearest number by a little.
-/

namespace LeagueSync
namespace Double

/-- The leading digits that stay below `2 ^ 64` after those of `n`, their number, and how many
follow them. -/
def fitDigits : List Char → Nat → Nat → Nat × Nat × Nat
  | [], n, used => (n, used, 0)
  | c :: cs, n, used =>
    let next := n * 10 + (c.toNat - 48)
    if next < UInt64.size then fitDigits cs next (used + 1) else (n, used, cs.length + 1)

def powerOfTen (e : Nat) : Double :=
  ofNat (Nat.pow 10 e)

/-- The greatest power of ten that is a finite number. -/
def maxPower : Nat := 308

/-- A number divided by a power of ten, in steps that are finite numbers; after a few of them
nothing is left. -/
def shrink : Nat → Double → Nat → Double
  | 0, _, _ => zero
  | steps + 1, x, e =>
    if e ≤ maxPower then x / powerOfTen e else shrink steps (x / powerOfTen maxPower) (e - maxPower)

/-- Reads the literal `±whole.fraction * 10 ^ exponent`; too large a number has no value. A digit of
the fraction that fits is kept even where digits before the point were not. -/
def ofLiteral? (negative : Bool) (whole fraction : List Char) (exponent : Int) : Option Double :=
  let (lead, _, dropped) := fitDigits whole 0 0
  let (n, used, _) := fitDigits fraction lead 0
  let e := exponent + dropped - used
  let x : Double :=
    if n = 0 then zero
    else if e < 0 then shrink 3 (ofNat n) (-e).toNat
    else if e ≤ maxPower then ofNat n * powerOfTen e.toNat
    else infinite false
  if x.isFinite then some { x with negative } else none

end Double
end LeagueSync
