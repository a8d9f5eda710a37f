import LeagueSync.Double.Basic

/-!
# LeagueSync.Double.Shortest

The fewest decimal digits that still single out a number of double precision. The reals that round
to a number are an interval around it, closed if its mantissa is even; `Double.decimal?` takes the
first decimal grid, from one digit to seventeen, with a point in that interval, and of two such
points the nearer one. Two that are equally near are a matter of the text that is written: `Tie`.
All arithmetic is exact.
-/

namespace LeagueSync

/-- Which of two equally near decimals is written. -/
inductive Tie where
  /-- The one whose last digit is even. -/
  | even
  /-- The one that is farther from zero. -/
  | up
  deriving DecidableEq, Repr

namespace Double

/-- Whether the next smaller magnitude is only half as far away as the next greater one. -/
def lowerIsNear (x : Double) : Bool :=
  x.mantissa == binade && decide (0 < x.scale)

/-- The point on the grid of multiples of `10 ^ e` that rounds to the magnitude; of two such points
the nearer one. Distances are counted in quarters of the spacing of the magnitudes. -/
def gridPoint? (tie : Tie) (x : Double) (e : Int) : Option Nat :=
  let finer := Nat.pow 10 (-e).toNat
  let quarter := Nat.pow 2 x.scale * finer
  let step := 4 * unitsPerOne * Nat.pow 10 e.toNat
  let value := 4 * x.mantissa * quarter
  let low := value - (if x.lowerIsNear then quarter else 2 * quarter)
  let high := value + 2 * quarter
  let inside (n : Nat) : Bool :=
    if x.mantissa % 2 = 0 then decide (low ≤ n * step ∧ n * step ≤ high)
    else decide (low < n * step ∧ n * step < high)
  let floor := value / step
  let past := 2 * (value % step)
  let nearer : Nat :=
    if past < step then floor
    else if past = step ∧ tie = .even then floor + floor % 2
    else floor + 1
  let down := decide (0 < floor) && inside floor
  let up := inside (floor + 1)
  if down && up then some nearer
  else if down then some floor
  else if up then some (floor + 1)
  else none

/-- The power of ten of the leading digit, within one. -/
def leadingExponent (x : Double) : Int :=
  ((Text.digits x.units).length : Int) - ((Text.digits unitsPerOne).length : Int)

/-- The first grid with a point that rounds to the number, from coarse to fine. -/
def searchGrid (tie : Tie) (x : Double) : Nat → Int → Option (Nat × Int)
  | 0, _ => none
  | fuel + 1, e =>
    match x.gridPoint? tie e with
    | some n => some (n, e)
    | none => searchGrid tie x fuel (e - 1)

/-- The shortest decimal that rounds to a finite number. -/
def decimal? (tie : Tie) (x : Double) : Option Decimal :=
  if !x.isFinite then none
  else if x.rank = 0 then some ⟨x.negative, 0, 0⟩
  else (x.searchGrid tie 20 (x.leadingExponent + 1)).map fun p =>
    Decimal.normalize ⟨x.negative, p.1, p.2⟩

/-- The number in as few digits as single it out, without an exponent. -/
def positional (tie : Tie) (x : Double) : String :=
  match x.decimal? tie with
  | some d => d.positional
  | none => x.signText ++ "inf"

end Double
end LeagueSync
