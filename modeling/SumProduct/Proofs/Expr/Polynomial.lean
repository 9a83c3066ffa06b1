import Mathlib.Algebra.MvPolynomial.Basic
import Mathlib.Algebra.MvPolynomial.Eval
import SumProduct.Expr.Evaluation
import SumProduct.Proofs.Expr.Walk

/-!
# Expressions as polynomials

Over a commutative semiring an expression denotes a polynomial in the texts of its variables, and
evaluation without rounding is evaluation of that polynomial. The constants of a program's
expressions are binary64 numbers; a reading of them in a semiring carries an expression over.

## Main definitions

* `SumProduct.Expr.map` — the expression with other constants.
* `SumProduct.Expr.toPolynomial` — the polynomial that an expression denotes.
* `SumProduct.Binary64.exact` — the exact rational value of a finite number.

## Main results

* `SumProduct.Expr.evaluateWith_eq_eval` — evaluation is evaluation of the polynomial.
-/

namespace SumProduct

universe u v

namespace Expr

/-! ## Other constants -/

section Map

variable {α : Type u} {β : Type v} (f : α → β)

/-- The expression with each constant replaced by its image. -/
def map : Expr α → Expr β
  | constant value => constant (f value)
  | var name => var name
  | binary op left right => binary op left.map right.map

/-- Every constant replaced by itself leaves the expression as it is. -/
@[simp] lemma map_id (e : Expr α) : e.map id = e := by
  induction e with
  | constant value => rfl
  | var name => rfl
  | binary op left right ihl ihr => rw [map, ihl, ihr]

/-- Other constants leave the variables as they are. -/
@[simp] lemma occurrences_map (e : Expr α) : (e.map f).occurrences = e.occurrences := by
  induction e with
  | constant value => simp [map]
  | var name => simp [map]
  | binary op left right ihl ihr => simp [map, ihl, ihr]

end Map

/-! ## Polynomials -/

section Polynomial

variable {R : Type u} [CommSemiring R]

/-- The polynomial that an expression denotes, in variables named by texts. -/
noncomputable def toPolynomial : Expr R → MvPolynomial String R
  | constant value => MvPolynomial.C value
  | var name => MvPolynomial.X name.text
  | binary op left right => op.apply left.toPolynomial right.toPolynomial

/-- Evaluation of polynomials carries operations over. -/
lemma eval_apply (point : String → R) (op : Op) (p q : MvPolynomial String R) :
    MvPolynomial.eval point (op.apply p q) =
      op.apply (MvPolynomial.eval point p) (MvPolynomial.eval point q) := by
  cases op with
  | add => exact map_add _ p q
  | mul => exact map_mul _ p q

/-- Where all variables are bound, an expression has a value, and it is that of its polynomial at
the point that the bindings form. -/
theorem evaluateWith_eq_eval {ε : Type u} (e : Expr R) (read : Name → Except ε R)
    (point : String → R) (hread : ∀ n ∈ e.occurrences, read n = .ok (point n.text)) :
    e.evaluateWith read = .ok (MvPolynomial.eval point e.toPolynomial) := by
  induction e with
  | constant value => simp [evaluateWith, toPolynomial]
  | var name => simp [evaluateWith, toPolynomial, hread]
  | binary op left right ihl ihr =>
    simp only [occurrences_binary, List.mem_append] at hread
    rw [evaluateWith, ihl fun n hn => hread n (.inl hn), ihr fun n hn => hread n (.inr hn),
      toPolynomial, eval_apply]

end Polynomial

end Expr

/-! ## Exact values of numbers -/

namespace Binary64

/-- The exact value of a finite number; numbers that are not finite count as zero. -/
def exact (x : Binary64) : ℚ := x.toRat?.getD 0

/-- The exact value of zero. -/
lemma exact_zero : exact 0 = 0 := by decide +kernel

/-- The exact value of one. -/
lemma exact_one : exact 1 = 1 := by decide +kernel

end Binary64

end SumProduct
