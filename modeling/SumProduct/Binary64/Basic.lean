/-!
# Binary64 numbers

The numbers of the IEEE 754 format binary64, with addition and multiplication rounded to nearest,
ties to even. There is one not-a-number, so equality of numbers is equality of values that keeps
the two zeros apart.

A finite number is a sign and the *rank* of its magnitude: magnitudes in increasing order are
numbered from `0`, so the next magnitude has the next rank, and an even rank is an even
significand. Every finite magnitude is a whole number of units of `2 ^ -1074`, and all arithmetic
is exact integer arithmetic on those units followed by one rounding.

## Main definitions

* `SumProduct.twoPow`, `SumProduct.fivePow`, `SumProduct.tenPow` — powers of two, five and ten.
* `SumProduct.Binary64` — signed ranks, two infinities and one not-a-number.
* `SumProduct.Binary64.unitsOfRank` — the magnitude of a rank, in units of `2 ^ -1074`.
* `SumProduct.Binary64.nearestRank` — the rank nearest to a quotient of units.
* `SumProduct.Binary64.nearest` — the number nearest to a quotient of naturals.
* `SumProduct.Binary64.add`, `SumProduct.Binary64.mul` — the rounded operations.

## Implementation notes

Rounding works with unbounded exponents: a rank past the last finite one is an infinity. That is
the rule of the format, since the last finite magnitude has an odd rank and a tie above it goes up.
-/

namespace SumProduct

/-! ## Powers -/

/-- The power of two with this exponent. -/
def twoPow (n : Nat) : Nat := Nat.pow 2 n

/-- The power of five with this exponent. -/
def fivePow (n : Nat) : Nat := Nat.pow 5 n

/-- The power of ten with this exponent. -/
def tenPow (n : Nat) : Nat := Nat.pow 10 n

/-! ## Numbers -/

/-- The number of magnitudes in a binade, between a power of two and the next. -/
def binade : Nat := twoPow 52

/-- The number of finite magnitudes, which is the first rank that stands for no finite number. -/
def rankCount : Nat := 2047 * binade

/-- A binary64 number: a signed finite magnitude given by its rank, an infinity, or not a number. -/
inductive Binary64 where
  /-- The finite magnitude of this rank, with its sign. -/
  | finite (negative : Bool) (rank : Fin rankCount)
  /-- The infinity of this sign. -/
  | infinite (negative : Bool)
  /-- Not a number. -/
  | nan
  deriving DecidableEq

namespace Binary64

/-! ## Magnitudes and ranks -/

/-- The magnitude of a rank, in units of `2 ^ -1074`: within a binade consecutive ranks are a
fixed power of two apart. -/
def unitsOfRank (rank : Nat) : Nat :=
  let shift := rank / binade - 1
  (rank - shift * binade) * twoPow shift

/-- The number of units in one. -/
def unitsPerOne : Nat := twoPow 1074

/-- The number of this sign and rank; a rank past the finite ones is an infinity. -/
def ofRank (negative : Bool) (rank : Nat) : Binary64 :=
  if h : rank < rankCount then finite negative ⟨rank, h⟩ else infinite negative

/-- Positive zero. -/
def zero : Binary64 := ofRank false 0

/-- One. -/
def one : Binary64 := ofRank false (1023 * binade)

instance : Inhabited Binary64 := ⟨zero⟩
instance : Zero Binary64 := ⟨zero⟩
instance : One Binary64 := ⟨one⟩

/-- Whether the number is finite. -/
def isFinite : Binary64 → Bool
  | finite _ _ => true
  | infinite _ => false
  | nan => false

/-- Whether the number is finite and whole. -/
def isIntegral : Binary64 → Bool
  | finite _ rank => unitsOfRank rank % unitsPerOne == 0
  | infinite _ => false
  | nan => false

/-- The exact value of a finite number, as a signed count of units of `2 ^ -1074`. -/
def units? : Binary64 → Option Int
  | finite true rank => some (-(unitsOfRank rank : Int))
  | finite false rank => some (unitsOfRank rank : Int)
  | infinite _ => none
  | nan => none

/-- The exact value of a finite number. -/
def toRat? (x : Binary64) : Option Rat :=
  x.units?.map fun u => mkRat u unitsPerOne

/-! ## Rounding -/

/-- The integer nearest to the quotient `n / d`; a half goes to the even neighbour. -/
def roundDiv (n d : Nat) : Nat :=
  let quotient := n / d
  let rest := n % d
  if 2 * rest < d then quotient
  else if d < 2 * rest then quotient + 1
  else quotient + quotient % 2

/-- The rank nearest to `n / d` units, ties to the even rank. The quotient is scaled to fewer than
`2 ^ 53` steps of its binade, so that rounding to a whole step is rounding to a rank. -/
def nearestRank (n d : Nat) : Nat :=
  let shift := Nat.log2 (n / d) - 52
  shift * binade + roundDiv n (d * twoPow shift)

/-- The number of this sign nearest to a whole number of units. -/
def ofUnits (negative : Bool) (units : Nat) : Binary64 :=
  ofRank negative (nearestRank units 1)

/-- The number of this sign nearest to the quotient `n / d`. -/
def nearest (negative : Bool) (n d : Nat) : Binary64 :=
  ofRank negative (nearestRank (n * unitsPerOne) d)

/-- The number nearest to an integer. -/
def ofInt (i : Int) : Binary64 :=
  nearest (decide (i < 0)) i.natAbs 1

/-- The number nearest to a rational. -/
def ofRat (q : Rat) : Binary64 :=
  nearest (decide (q.num < 0)) q.num.natAbs q.den

/-! ## Arithmetic -/

/-- The sum of two finite magnitudes with signs, in units: equal signs add, opposite signs
subtract, and magnitudes that cancel give positive zero. -/
def addUnits (negative₁ : Bool) (units₁ : Nat) (negative₂ : Bool) (units₂ : Nat) : Binary64 :=
  if negative₁ = negative₂ then ofUnits negative₁ (units₁ + units₂)
  else if units₂ < units₁ then ofUnits negative₁ (units₁ - units₂)
  else if units₁ < units₂ then ofUnits negative₂ (units₂ - units₁)
  else zero

/-- The sum, rounded to nearest. -/
def add : Binary64 → Binary64 → Binary64
  | nan, _ => nan
  | _, nan => nan
  | infinite negative₁, infinite negative₂ =>
    if negative₁ = negative₂ then infinite negative₁ else nan
  | infinite negative, finite _ _ => infinite negative
  | finite _ _, infinite negative => infinite negative
  | finite negative₁ rank₁, finite negative₂ rank₂ =>
    addUnits negative₁ (unitsOfRank rank₁) negative₂ (unitsOfRank rank₂)

/-- The product of an infinity and a finite number: not a number when the latter is a zero. -/
def scaleInfinite (negative : Bool) (rank : Nat) : Binary64 :=
  if rank = 0 then nan else infinite negative

/-- The product, rounded to nearest. -/
def mul : Binary64 → Binary64 → Binary64
  | nan, _ => nan
  | _, nan => nan
  | infinite negative₁, infinite negative₂ => infinite (negative₁ ^^ negative₂)
  | infinite negative₁, finite negative₂ rank => scaleInfinite (negative₁ ^^ negative₂) rank
  | finite negative₁ rank, infinite negative₂ => scaleInfinite (negative₁ ^^ negative₂) rank
  | finite negative₁ rank₁, finite negative₂ rank₂ =>
    ofRank (negative₁ ^^ negative₂)
      (nearestRank (unitsOfRank rank₁ * unitsOfRank rank₂) unitsPerOne)

instance : Add Binary64 := ⟨add⟩
instance : Mul Binary64 := ⟨mul⟩

/-! ## Decimal values -/

/-- The number of this sign nearest to `coefficient * 10 ^ exponent`. The first two cases only keep
the powers of ten small: a positive coefficient with an exponent of `400` or more lies far above
the finite numbers, and a value below `10 ^ -400` rounds to zero. -/
def ofDecimal (negative : Bool) (coefficient : Nat) (exponent : Int) : Binary64 :=
  if coefficient = 0 then ofRank negative 0
  else if 400 ≤ exponent then infinite negative
  else if exponent + (Nat.log2 coefficient + 1) ≤ -400 then ofRank negative 0
  else if 0 ≤ exponent then nearest negative (coefficient * tenPow exponent.toNat) 1
  else nearest negative coefficient (tenPow (-exponent).toNat)

end Binary64

end SumProduct
