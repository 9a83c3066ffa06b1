import SumProduct.Binary64.Basic
import SumProduct.Expr.Basic

/-!
# Computer-algebra systems

Equivalence of expressions is left to a computer-algebra system: both expressions become formulas of
it, and the system is asked whether their difference simplifies to zero. Here the system is any that
has the operations for this.

## Main definitions

* `SumProduct.AlgebraSystem` — the operations of a system.
* `SumProduct.AlgebraSystem.formula` — the formula of an expression.
* `SumProduct.AlgebraSystem.equivalent` — whether the difference of two expressions comes out as
  zero.
-/

namespace SumProduct

universe u

/-- The integer of a finite number, rounded towards zero. -/
def Binary64.toInt (x : Binary64) : Int := (x.units?.getD 0).tdiv unitsPerOne

/-- The operations of a computer-algebra system with formulas of type `F`. -/
structure AlgebraSystem (F : Type u) where
  /-- The formula of an integer. -/
  integer : Int → F
  /-- The formula of a number that is rounded. -/
  float : Binary64 → F
  /-- The formula of a variable. -/
  symbol : String → F
  /-- The formula of a sum. -/
  add : F → F → F
  /-- The formula of a product. -/
  mul : F → F → F
  /-- A simpler formula. -/
  simplify : F → F
  /-- Whether a formula is the number zero. -/
  isZero : F → Bool

namespace AlgebraSystem

variable {F : Type u} (S : AlgebraSystem F)

/-- The formula of a constant: whole constants are exact. -/
def number (value : Binary64) : F :=
  if value.isIntegral then S.integer value.toInt else S.float value

/-- The formula of a sum or product. -/
def apply : Op → F → F → F
  | .add => S.add
  | .mul => S.mul

/-- The formula of an expression. -/
def formula : Expr Binary64 → F
  | .constant value => S.number value
  | .var name => S.symbol name.text
  | .binary op left right => S.apply op (formula left) (formula right)

/-- The formula of a difference. -/
def difference (f g : F) : F := S.add f (S.mul (S.integer (-1)) g)

/-- Whether the difference of two expressions comes out as zero. -/
def equivalent (a b : Expr Binary64) : Bool :=
  S.isZero (S.simplify (S.difference (S.formula a) (S.formula b)))

end AlgebraSystem

end SumProduct
