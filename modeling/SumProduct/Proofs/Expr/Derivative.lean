import Mathlib.Algebra.MvPolynomial.PDeriv
import Mathlib.Tactic.LinearCombination
import SumProduct.Calculus
import SumProduct.Proofs.Expr.Polynomial

/-!
# Derivatives and polynomials

The symbolic derivative of an expression denotes the partial derivative of the polynomial that the
expression denotes.

## Main results

* `SumProduct.Expr.toPolynomial_derivative` — the derivative as an operation on polynomials.
* `SumProduct.Expr.evaluateWith_derivative` — the values of the derivative, by the partial
  derivative and by infinitesimal steps.
-/

namespace SumProduct

namespace Expr

universe u v

/-! ## Variables and constants of the derivative -/

/-- The derivative has no variables of its own. -/
lemma mem_occurrences_of_mem_derivative {α : Type u} [Zero α] [One α] {x : String} {e : Expr α}
    {n : Name} (hn : n ∈ (e.derivative x).occurrences) : n ∈ e.occurrences := by
  induction e with
  | constant value => simp [derivative] at hn
  | var name =>
    rw [derivative] at hn
    split at hn <;> simp at hn
  | binary op left right ihl ihr =>
    cases op with
    | add =>
      simp only [derivative, occurrences_binary, List.mem_append] at hn ⊢
      exact hn.imp ihl ihr
    | mul =>
      simp only [derivative, occurrences_binary, List.mem_append] at hn ⊢
      rcases hn with (hn | hn) | hn | hn
      · exact .inl (ihl hn)
      · exact .inr hn
      · exact .inl hn
      · exact .inr (ihr hn)

/-- The constants of a derivative are zero, one and those of the expression. -/
lemma mem_constants_of_mem_derivative {α : Type u} [Zero α] [One α] {x : String} {e : Expr α}
    {z : α} (hz : z ∈ (e.derivative x).constants) : z = 0 ∨ z = 1 ∨ z ∈ e.constants := by
  induction e with
  | constant value => exact .inl (by simpa [derivative] using hz)
  | var name =>
    rw [derivative] at hz
    split at hz
    · exact .inr (.inl (by simpa using hz))
    · exact .inl (by simpa using hz)
  | binary op left right ihl ihr =>
    have hleft (h : z ∈ (left.derivative x).constants) :
        z = 0 ∨ z = 1 ∨ z ∈ left.constants ∨ z ∈ right.constants :=
      (ihl h).imp_right (Or.imp_right .inl)
    have hright (h : z ∈ (right.derivative x).constants) :
        z = 0 ∨ z = 1 ∨ z ∈ left.constants ∨ z ∈ right.constants :=
      (ihr h).imp_right (Or.imp_right .inr)
    rw [constants_binary, List.mem_append]
    cases op with
    | add =>
      simp only [derivative, constants_binary, List.mem_append] at hz
      exact hz.elim hleft hright
    | mul =>
      simp only [derivative, constants_binary, List.mem_append] at hz
      rcases hz with (hz | hz) | hz | hz
      · exact hleft hz
      · exact .inr (.inr (.inr hz))
      · exact .inr (.inr (.inl hz))
      · exact hright hz

/-- A reading of the constants that keeps zero and one may be applied before or after taking the
derivative. -/
lemma map_derivative {α : Type u} {β : Type v} [Zero α] [One α] [Zero β] [One β] (f : α → β)
    (hzero : f 0 = 0) (hone : f 1 = 1) (x : String) (e : Expr α) :
    (e.derivative x).map f = (e.map f).derivative x := by
  induction e with
  | constant value => simp [derivative, map, hzero]
  | var name =>
    simp only [derivative, map]
    split <;> simp [map, hzero, hone]
  | binary op left right ihl ihr => cases op <;> simp [derivative, map, ihl, ihr]

/-! ## The partial derivative -/

/-- The derivative of an expression denotes the partial derivative of its polynomial. -/
theorem toPolynomial_derivative {R : Type u} [CommSemiring R] (x : String) (e : Expr R) :
    (e.derivative x).toPolynomial = MvPolynomial.pderiv x e.toPolynomial := by
  induction e with
  | constant value => simp [derivative, toPolynomial]
  | var name =>
    rw [derivative, toPolynomial, MvPolynomial.pderiv_X, Pi.single_apply]
    split <;> simp [toPolynomial]
  | binary op left right ihl ihr =>
    cases op with
    | add => simp [derivative, toPolynomial, Op.apply, ihl, ihr]
    | mul =>
      simp only [derivative, toPolynomial, Op.apply, ihl, ihr, Derivation.leibniz, smul_eq_mul]
      ring

/-- A polynomial at a point moved in one direction by a step whose square is zero: the value moves
by the partial derivative times the step. -/
lemma eval_update_of_mul_self_eq_zero {R : Type u} [CommRing R] (p : MvPolynomial String R)
    (point : String → R) (x : String) (h : R) (hh : h * h = 0) :
    MvPolynomial.eval (Function.update point x (point x + h)) p =
      MvPolynomial.eval point p + h * MvPolynomial.eval point (MvPolynomial.pderiv x p) := by
  induction p using MvPolynomial.induction_on with
  | C a => simp
  | add p q ihp ihq =>
    simp only [map_add, ihp, ihq]
    ring
  | mul_X p y ih =>
    simp only [map_mul, Derivation.leibniz, smul_eq_mul, map_add, MvPolynomial.eval_X, ih,
      MvPolynomial.pderiv_X]
    rcases eq_or_ne y x with rfl | hne
    · simp
      linear_combination (MvPolynomial.eval point (MvPolynomial.pderiv y p)) * hh
    · simp [hne]
      ring

/-! ## Values of the derivative -/

/-- The bindings with the number of one variable moved by a step. -/
def moved {R ε : Type u} [Add R] (read : Name → Except ε R) (x : String) (h : R) (n : Name) :
    Except ε R :=
  if n.text = x then (read n).map (· + h) else read n

/-- **The derivative computes the derivative.** Constants are read in any commutative ring, zero as
zero and one as one, and sums and products are exact there. Where all variables of an expression
are bound, its derivative has a value. That value is the partial derivative of the polynomial that
the expression denotes, and it is the rate at which the value of the expression follows a step with
square zero.

**Proof sketch.** The reading of the constants commutes with the derivative (`map_derivative`), the
derivative denotes the partial derivative (`toPolynomial_derivative`), and evaluation is evaluation
of the polynomial (`evaluateWith_eq_eval`). The second part is the same fact for the moved bindings,
and `eval_update_of_mul_self_eq_zero`. -/
theorem evaluateWith_derivative {R ε : Type u} [CommRing R] (e : Expr Binary64) (x : String)
    (exact : Binary64 → R) (hzero : exact 0 = 0) (hone : exact 1 = 1) (read : Name → Except ε R)
    (point : String → R) (hread : ∀ n ∈ e.occurrences, read n = .ok (point n.text)) :
    ((e.derivative x).map exact).evaluateWith read =
        .ok (MvPolynomial.eval point (MvPolynomial.pderiv x (e.map exact).toPolynomial)) ∧
      ∀ h : R, h * h = 0 → ∃ value rate,
        (e.map exact).evaluateWith read = .ok value ∧
        ((e.derivative x).map exact).evaluateWith read = .ok rate ∧
        (e.map exact).evaluateWith (moved read x h) = .ok (value + h * rate) := by
  have hvalue : (e.map exact).evaluateWith read =
      .ok (MvPolynomial.eval point (e.map exact).toPolynomial) :=
    evaluateWith_eq_eval _ read point (by simpa using hread)
  have hrate : ((e.derivative x).map exact).evaluateWith read =
      .ok (MvPolynomial.eval point (MvPolynomial.pderiv x (e.map exact).toPolynomial)) := by
    rw [map_derivative exact hzero hone, ← toPolynomial_derivative]
    refine evaluateWith_eq_eval _ read point fun n hn => hread n ?_
    simpa using mem_occurrences_of_mem_derivative hn
  refine ⟨hrate, fun h hh => ⟨_, _, hvalue, hrate, ?_⟩⟩
  rw [← eval_update_of_mul_self_eq_zero _ point x h hh]
  refine evaluateWith_eq_eval _ _ _ fun n hn => ?_
  rw [occurrences_map] at hn
  rw [moved, hread n hn, Function.update_apply]
  split
  · next heq => rw [heq]; rfl
  · rfl

/-- Over the rationals, the derivative of `x * (x + 2.5)` at three is eight and a half. -/
theorem evaluateWith_derivative_quadratic :
    let x : Expr Binary64 := var ⟨"x", by decide⟩
    let e := binary .mul x (binary .add x (constant (Binary64.nearest false 5 2)))
    Binary64.exact 0 = 0 ∧ Binary64.exact 1 = 1 ∧
      ((e.derivative "x").map Binary64.exact).evaluateWith (fun _ => Except.ok (ε := Unit) 3) =
        .ok (17 / 2) := by
  intro x e
  refine ⟨Binary64.exact_zero, Binary64.exact_one, ?_⟩
  have hconstant : Binary64.exact (Binary64.nearest false 5 2) = 5 / 2 := by decide +kernel
  have hvalue := (evaluateWith_derivative e "x" Binary64.exact Binary64.exact_zero
    Binary64.exact_one (fun _ => Except.ok (ε := Unit) 3) (fun _ => 3) fun _ _ => rfl).1
  rw [hvalue]
  simp only [e, x, map, toPolynomial, Op.apply, hconstant, Derivation.leibniz, map_add, map_mul,
    MvPolynomial.pderiv_X_self, MvPolynomial.pderiv_C, MvPolynomial.eval_X, MvPolynomial.eval_C,
    smul_eq_mul, map_one, map_zero]
  norm_num

end Expr

end SumProduct
