import LeagueSync.Decimal.Basic

/-!
# LeagueSync.Double.Basic

Numbers of double precision, for quantities that are measured and summed: durations in seconds, a
share in percent, a fractional token count. The magnitudes are numbered in their order from zero,
the last one being infinity; `Double.units` is the exact magnitude as a multiple of the least
positive one, and `Double.ofRatio` the one rounding rule: to nearest, a half to the even mantissa.
Sums, products and quotients are exact ones that are rounded once.
-/

namespace LeagueSync
namespace Double

/-- The magnitudes in each of the ranges in which they are evenly spaced. -/
def binade : Nat := Nat.pow 2 52

/-- The place of infinity among the magnitudes. -/
def infinityRank : Nat := 2047 * binade

/-- How often one is halved down to the least positive magnitude. -/
def halvings : Nat := 1074

/-- How many of the least positive magnitude make one. -/
def unitsPerOne : Nat := Nat.pow 2 halvings

end Double

/-- A number of double precision: a sign, and the place of its magnitude among all of them. -/
structure Double where
  negative : Bool
  rank : Nat
  rank_le : rank ≤ Double.infinityRank
  deriving DecidableEq, Repr

namespace Double

def zero : Double := ⟨false, 0, Nat.zero_le _⟩

instance : Inhabited Double := ⟨zero⟩

def infinite (negative : Bool) : Double := ⟨negative, infinityRank, Nat.le_refl _⟩

def isFinite (x : Double) : Bool :=
  x.rank < infinityRank

/-- How often the spacing of the magnitudes has doubled on the way up to this one. -/
def scale (x : Double) : Nat :=
  x.rank / binade - 1

/-- The magnitude as a multiple of the spacing around it. -/
def mantissa (x : Double) : Nat :=
  if x.rank < binade then x.rank else binade + x.rank % binade

/-- The magnitude as a multiple of the least positive one. Infinity counts as the magnitude that
would come after the last finite one. -/
def units (x : Double) : Nat :=
  x.mantissa * Nat.pow 2 x.scale

/-- The number as a multiple of the least positive one. -/
def signedUnits (x : Double) : Int :=
  if x.negative then -(x.units : Int) else x.units

/-- The number nearest to `num / den`, where `den` is positive. -/
def ofRatio (negative : Bool) (num den : Nat) : Double :=
  let scale := (num * unitsPerOne / den).log2 - 52
  let mantissa := roundDiv (num * unitsPerOne) (den * Nat.pow 2 scale)
  ⟨negative, min (scale * binade + mantissa) infinityRank, Nat.min_le_right _ _⟩

def ofInt (n : Int) : Double :=
  ofRatio (n < 0) n.natAbs 1

def ofNat (n : Nat) : Double :=
  ofInt n

/-- The sum. A sum of zero is negative only if both summands are. -/
def add (x y : Double) : Double :=
  let sum := x.signedUnits + y.signedUnits
  if sum = 0 then { zero with negative := x.negative && y.negative }
  else ofRatio (sum < 0) sum.natAbs unitsPerOne

def mul (x y : Double) : Double :=
  ofRatio (x.negative != y.negative) (x.units * y.units) (unitsPerOne * unitsPerOne)

def div (x y : Double) : Double :=
  if y.rank = 0 then infinite (x.negative != y.negative)
  else ofRatio (x.negative != y.negative) x.units y.units

instance : Add Double := ⟨add⟩
instance : Mul Double := ⟨mul⟩
instance : Div Double := ⟨div⟩

/-- The integer that the number is, if it is one. -/
def toInt? (x : Double) : Option Int :=
  if x.isFinite ∧ x.units % unitsPerOne = 0 then some (x.signedUnits / (unitsPerOne : Int))
  else none

def signText (x : Double) : String :=
  if x.negative then "-" else ""

/-- The exact value with six places, rounded half to even. -/
def sixPlaces (x : Double) : String :=
  x.signText ++ if x.isFinite then Decimal.ratioSixPlaces x.units unitsPerOne else "inf"

end Double
end LeagueSync
