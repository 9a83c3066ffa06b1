import SumProduct.Binary64.Basic

/-!
# Shortest decimals

The decimal with the fewest digits that still identifies a finite binary64 magnitude: the one that
rounding to nearest takes back to the same magnitude. Of several such decimals with the fewest
digits it is the nearest to the magnitude, and of two equally near the one with the even last digit.

## Main definitions

* `SumProduct.Decimal` — a coefficient and a power of ten.
* `SumProduct.Binary64.ReadsBack` — the decimals that round to a given rank.
* `SumProduct.Binary64.shortest` — the chosen decimal of a rank.

## Implementation notes

The search tries grids of ever finer powers of ten, starting at the leading digit, and on each
grid the two neighbours of the magnitude; a grid that holds a decimal in the rounding interval
holds one of these two there. Seventeen digits suffice for every magnitude; the exact decimal that
ends the search keeps the definition total and correct without that fact.
-/

namespace SumProduct

/-- A decimal number `coefficient * 10 ^ exponent`. -/
structure Decimal where
  /-- The digits, as a whole number. -/
  coefficient : Nat
  /-- The power of ten of the last digit. -/
  exponent : Int
  deriving DecidableEq

namespace Decimal

/-- The value as a numerator over a power of ten: the numerator. -/
def numerator (d : Decimal) : Nat := d.coefficient * tenPow d.exponent.toNat

/-- The value as a numerator over a power of ten: the denominator. -/
def denominator (d : Decimal) : Nat := tenPow (-d.exponent).toNat

/-- Moves up to `fuel` trailing zeros of the coefficient into the exponent. -/
def stripZeros : Nat → Decimal → Decimal
  | 0, d => d
  | fuel + 1, d =>
    if d.coefficient % 10 = 0 then stripZeros fuel ⟨d.coefficient / 10, d.exponent + 1⟩ else d

/-- The same value with a last digit other than zero; a zero keeps its form. -/
def trim (d : Decimal) : Decimal :=
  if d.coefficient = 0 then d else stripZeros (Nat.log2 d.coefficient + 1) d

end Decimal

namespace Binary64

/-- Whether a decimal lies in the interval of values that round to the positive `rank`: between the
midpoints to the neighbouring ranks, which themselves round to the even one. Midpoints are compared
in units of `2 ^ -1075`. -/
def ReadsBack (rank : Nat) (d : Decimal) : Prop :=
  let low := (unitsOfRank (rank - 1) + unitsOfRank rank) * d.denominator
  let high := (unitsOfRank rank + unitsOfRank (rank + 1)) * d.denominator
  let value := 2 * unitsPerOne * d.numerator
  if rank % 2 = 0 then low ≤ value ∧ value ≤ high else low < value ∧ value < high

instance (rank : Nat) (d : Decimal) : Decidable (ReadsBack rank d) := by
  unfold ReadsBack; infer_instance

/-- The coefficient on the grid of `10 ^ exponent` just below the magnitude, and twice the
remainder compared with the step: whether the magnitude is below, at or above the middle. -/
def gridFloor (rank : Nat) (exponent : Int) : Nat × Ordering :=
  let n := unitsOfRank rank * tenPow (-exponent).toNat
  let d := unitsPerOne * tenPow exponent.toNat
  (n / d, compare (2 * (n % d)) d)

/-- The neighbour of the magnitude on the grid of `10 ^ exponent` that reads back as the magnitude;
of two the nearer, and in the middle the even one. -/
def onGrid? (rank : Nat) (exponent : Int) : Option Decimal :=
  let grid := gridFloor rank exponent
  let below : Decimal := ⟨grid.1, exponent⟩
  let above : Decimal := ⟨grid.1 + 1, exponent⟩
  let belowFirst : Bool := grid.2 == .lt || (grid.2 == .eq && grid.1 % 2 == 0)
  (if belowFirst then [below, above] else [above, below]).find? fun d => decide (ReadsBack rank d)

/-- The first grid with a decimal that reads back, of `fuel` grids from `10 ^ exponent` down. -/
def search (rank : Nat) : Nat → Int → Option Decimal
  | 0, _ => none
  | fuel + 1, exponent => onGrid? rank exponent <|> search rank fuel (exponent - 1)

/-- The power of ten of the leading digit of a positive magnitude. The binary exponent gives it up
to one, as `1233 / 4096` is just below the decimal logarithm of two. -/
def leadingExponent (rank : Nat) : Int :=
  let units := unitsOfRank rank
  let guess : Int := ((Nat.log2 units : Int) - 1074) * 1233 / 4096
  let reaches (e : Int) : Bool :=
    unitsPerOne * tenPow e.toNat ≤ units * tenPow (-e).toNat
  if !reaches guess then guess - 1
  else if reaches (guess + 1) then guess + 1
  else guess

/-- The magnitude written out in full: a unit is `5 ^ 1074 * 10 ^ -1074`. -/
def exactDecimal (rank : Nat) : Decimal :=
  ⟨unitsOfRank rank * fivePow 1074, -1074⟩

/-- The shortest decimal that reads back as the magnitude of this rank, without trailing zeros. -/
def shortest (rank : Nat) : Decimal :=
  if rank = 0 then ⟨0, 0⟩
  else ((search rank 17 (leadingExponent rank)).getD (exactDecimal rank)).trim

end Binary64

end SumProduct
