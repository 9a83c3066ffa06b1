import SumProduct.Binary64.Text

/-!
# Numbers of formulas

The numbers of a formula are exact or rounded. Rounded numbers have 53 significant bits and an
exponent of any size, so they neither overflow nor underflow. Exact operations stay exact; as soon
as one operand is rounded, both are rounded and so is the result. A rounded result of zero is exact.

## Main definitions

* `SumProduct.Scalar` — exact and rounded numbers, the two infinities and not-a-number.
* `SumProduct.Scalar.round` — the nearest number with 53 significant bits.
* `SumProduct.Scalar.ofBinary64`, `SumProduct.Scalar.toBinary64` — exchange with binary64 numbers.
* `SumProduct.Scalar.compare` — the order in which numbers stand in formulas.
-/

namespace SumProduct

/-- A number of a formula. -/
inductive Scalar where
  /-- An exact number. -/
  | exact (q : Rat)
  /-- A rounded number, by its value. -/
  | rounded (q : Rat)
  /-- The infinity of this sign. -/
  | infinite (negative : Bool)
  /-- Not a number. -/
  | nan
  deriving DecidableEq

namespace Scalar

instance : Zero Scalar := ⟨exact 0⟩
instance : One Scalar := ⟨exact 1⟩

/-- The value of a finite number. -/
def value? : Scalar → Option Rat
  | exact q => some q
  | rounded q => some q
  | infinite _ => none
  | nan => none

/-- Whether a number is finite. -/
def isFinite (n : Scalar) : Bool := n.value?.isSome

/-! ## Rounding -/

/-- The number with 53 significant bits nearest to a rational, ties to even. The quotient is scaled
to at least `2 ^ 53` first, so that a whole step of its binade is the last of the 53 bits. -/
def round (q : Rat) : Rat :=
  let lift := Nat.log2 q.den + 54
  let scaled := q.num.natAbs * twoPow lift
  let shift := Nat.log2 (scaled / q.den) - 52
  let steps := Binary64.roundDiv scaled (q.den * twoPow shift)
  mkRat (q.num.sign * (steps * twoPow shift : Nat)) (twoPow lift)

/-- A rounded result; zero is exact. -/
def ofRounded (q : Rat) : Scalar := if q = 0 then 0 else rounded q

/-! ## Arithmetic -/

/-- The result of an operation on the values of two finite numbers. -/
def ofValues (op : Rat → Rat → Rat) : Scalar → Scalar → Scalar
  | exact p, exact q => exact (op p q)
  | a, b =>
    match a.value?, b.value? with
    | some p, some q => ofRounded (round (op (round p) (round q)))
    | _, _ => nan

/-- The sum. -/
def add : Scalar → Scalar → Scalar
  | nan, _ => nan
  | _, nan => nan
  | infinite a, infinite b => if a = b then infinite a else nan
  | infinite a, _ => infinite a
  | _, infinite b => infinite b
  | a, b => ofValues (· + ·) a b

/-- The product of an infinity and a finite number: not a number when the latter is zero. -/
def scaleInfinite (negative : Bool) (q : Rat) : Scalar :=
  if q = 0 then nan else infinite (negative ^^ decide (q < 0))

/-- The product. -/
def mul : Scalar → Scalar → Scalar
  | nan, _ => nan
  | _, nan => nan
  | infinite a, infinite b => infinite (a ^^ b)
  | infinite a, exact q => scaleInfinite a q
  | infinite a, rounded q => scaleInfinite a q
  | exact q, infinite b => scaleInfinite b q
  | rounded q, infinite b => scaleInfinite b q
  | a, b => ofValues (· * ·) a b

instance : Add Scalar := ⟨add⟩
instance : Mul Scalar := ⟨mul⟩

/-! ## Binary64 numbers -/

/-- A binary64 number as it is, rounded if it is finite. The two zeros are one. -/
def ofRoundedBinary64 : Binary64 → Scalar
  | .infinite negative => infinite negative
  | .nan => nan
  | x =>
    match x.toRat? with
    | some q => rounded q
    | none => nan

/-- The number of a constant: whole constants are exact. -/
def ofBinary64 (x : Binary64) : Scalar :=
  match x.toRat? with
  | some q => if q.den = 1 then exact q else rounded q
  | none => ofRoundedBinary64 x

/-- The nearest binary64 number. Exact numbers are rounded first: one that is no binary64 number can
be rounded twice. -/
def toBinary64 : Scalar → Binary64
  | exact q => Binary64.ofRat (round q)
  | rounded q => Binary64.ofRat q
  | infinite negative => .infinite negative
  | nan => .nan

/-! ## Text -/

/-- A number in decimal digits if it is whole, and as the nearest binary64 number if not. -/
def text : Scalar → String
  | infinite false => "oo"
  | infinite true => "-oo"
  | nan => "nan"
  | n =>
    match n.value? with
    | some q => if q.den = 1 then integerText q.num else n.toBinary64.fullText
    | none => "nan"

/-! ## Order -/

/-- The place of a number among the kinds of numbers: zero, one, positive infinity, not a number,
minus one, negative infinity, the other exact numbers, rounded numbers. -/
def place : Scalar → Nat
  | exact q => if q = 0 then 0 else if q = 1 then 1 else if q = -1 then 4 else 6
  | infinite false => 2
  | nan => 3
  | infinite true => 5
  | rounded _ => 7

/-- The largest power of two that divides a positive number. -/
def powerPart (n : Nat) : Nat := Nat.gcd n (twoPow (Nat.log2 n))

/-- The order of rounded numbers: positive ones first, then by the odd significand, then by the
exponent that belongs to it. -/
def compareRounded (p q : Rat) : Ordering :=
  let significand (r : Rat) : Nat := r.num.natAbs / powerPart r.num.natAbs
  let exponent (r : Rat) : Int := (Nat.log2 (powerPart r.num.natAbs) : Int) - Nat.log2 r.den
  ((Ord.compare (decide (p < 0)) (decide (q < 0))).then
    (Ord.compare (significand p) (significand q))).then (Ord.compare (exponent p) (exponent q))

/-- The order in which numbers stand in formulas: by place, then by numerator and denominator or
by the parts of a rounded number. -/
def compare : Scalar → Scalar → Ordering
  | rounded p, rounded q => compareRounded p q
  | exact p, exact q =>
    ((Ord.compare (exact p).place (exact q).place).then (Ord.compare p.num q.num)).then
      (Ord.compare p.den q.den)
  | a, b => Ord.compare a.place b.place

end Scalar

end SumProduct
