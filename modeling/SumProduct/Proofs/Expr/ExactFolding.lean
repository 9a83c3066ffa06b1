import Mathlib.Algebra.MvPolynomial.Monad
import Mathlib.Algebra.MvPolynomial.PDeriv
import SumProduct.Proofs.Expr.Polynomial
import SumProduct.Proofs.Expr.Specialization

/-!
# Exact folding

Simplification computes operations on constants with the arithmetic of the constants, which may
round. Where no computed operation is rounded, the simplified expression denotes the polynomial of
the expression with the values of the bound variables put in for them.

## Main definitions

* `SumProduct.Folding.Exact` — a computed operation that is exact for a reading of the numbers.
* `SumProduct.Bindings.lookup` — bindings of names to numbers, none of which can fail.
* `SumProduct.Expr.putIn` — values put in for some variables of a polynomial.

## Main results

* `SumProduct.Expr.toPolynomial_map_specialize` — simplification as an operation on polynomials.
* `SumProduct.Expr.pderiv_putIn` — values for other variables may be put in before or after taking
  the partial derivative.
-/

namespace SumProduct

universe u v

/-- A computed operation is exact for a reading of the numbers when its result is read as the
operation on what its operands are read as. -/
def Folding.Exact {α : Type u} {R : Type v} [Add R] [Mul R] (exact : α → R) (f : Folding α) :
    Prop :=
  exact f.result = f.op.apply (exact f.left) (exact f.right)

instance {α : Type u} {R : Type v} [Add R] [Mul R] [DecidableEq R] (exact : α → R)
    (f : Folding α) : Decidable (f.Exact exact) := by
  unfold Folding.Exact; infer_instance

/-- The number that a variable is bound to, where every name is bound to a number or not at all. -/
def Bindings.lookup {ε R : Type u} (b : Bindings String R) (name : Name) :
    Except ε (Option R) :=
  .ok (b.find? name.text)

namespace Expr

/-! ## Computed operations -/

section Foldings

variable {α ε : Type u} [Add α] [Mul α] {bound : Name → Option α}
  {read : Name → Except ε (Option α)}

/-- Every computed operation is exact in the arithmetic that it is computed with. -/
lemma exact_id_of_mem_foldings {e : Expr α}
    (hread : ∀ n ∈ e.occurrences, read n = .ok (bound n)) {f : Folding α}
    (hf : f ∈ e.foldings read) : f.Exact id := by
  induction e with
  | constant value => simp [foldings, simplifyTraced] at hf
  | var name => cases h : bound name <;> simp [foldings, simplifyTraced, hread name, h] at hf
  | binary op left right ihl ihr =>
    rw [foldings_binary hread, List.mem_append, List.mem_append] at hf
    simp only [occurrences_binary, List.mem_append] at hread
    rcases hf with (hf | hf) | hf
    · exact ihl (fun n hn => hread n (.inl hn)) hf
    · exact ihr (fun n hn => hread n (.inr hn)) hf
    · unfold combine at hf
      split at hf
      · rw [List.mem_singleton.mp hf]
        rfl
      · cases hf

end Foldings

/-! ## Values put in for variables -/

section PutIn

variable {R : Type v} [CommSemiring R] (values : String → Option R)

/-- The values that some variables have, put in for these variables of a polynomial. -/
noncomputable def putIn : MvPolynomial String R →ₐ[R] MvPolynomial String R :=
  MvPolynomial.bind₁ fun y => (values y).elim (MvPolynomial.X y) MvPolynomial.C

/-- Without values nothing changes. -/
lemma putIn_none (p : MvPolynomial String R) : putIn (fun _ => none) p = p := by
  rw [putIn]
  exact DFunLike.congr_fun MvPolynomial.bind₁_X_left p

/-- The value after putting values in: the variables that have one take it from there. -/
lemma eval_putIn (point : String → R) (p : MvPolynomial String R) :
    MvPolynomial.eval point (putIn values p) =
      MvPolynomial.eval (fun y => (values y).getD (point y)) p := by
  have hbind := MvPolynomial.eval₂Hom_bind₁ (RingHom.id R) point
    (fun y => (values y).elim (MvPolynomial.X y) MvPolynomial.C) p
  rw [putIn, MvPolynomial.eval, hbind]
  congr 2
  funext y
  cases values y <;> simp

variable {values}

/-- Values for other variables may be put in before or after taking the partial derivative. -/
theorem pderiv_putIn {x : String} (hx : values x = none) (p : MvPolynomial String R) :
    MvPolynomial.pderiv x (putIn values p) = putIn values (MvPolynomial.pderiv x p) := by
  induction p using MvPolynomial.induction_on with
  | C a => simp [putIn]
  | add p q ihp ihq => simp only [map_add, ihp, ihq]
  | mul_X p y ih =>
    have hy : MvPolynomial.pderiv x (putIn values (MvPolynomial.X y)) =
        putIn values (MvPolynomial.pderiv x (MvPolynomial.X y)) := by
      rw [putIn, MvPolynomial.bind₁_X_right]
      rcases eq_or_ne y x with rfl | hne
      · simp [hx]
      · cases values y <;> simp [MvPolynomial.pderiv_X_of_ne hne]
    simp only [map_mul, map_add, Derivation.leibniz, smul_eq_mul, ih, hy]

end PutIn

/-! ## The polynomial of a simplified expression -/

section Polynomial

variable {α ε : Type u} [Add α] [Mul α] {R : Type v} [CommSemiring R] {exact : α → R}

/-- Constant polynomials carry operations over. -/
lemma C_apply (op : Op) (a b : R) :
    (MvPolynomial.C (op.apply a b) : MvPolynomial String R) =
      op.apply (MvPolynomial.C a) (MvPolynomial.C b) := by
  cases op with
  | add => exact map_add MvPolynomial.C a b
  | mul => exact map_mul MvPolynomial.C a b

/-- Putting values in carries operations over. -/
lemma putIn_apply (values : String → Option R) (op : Op) (p q : MvPolynomial String R) :
    putIn values (op.apply p q) = op.apply (putIn values p) (putIn values q) := by
  cases op with
  | add => exact map_add _ p q
  | mul => exact map_mul _ p q

/-- A node over simplified operands denotes the operation on what the operands denote, if it is not
computed or computed exactly. -/
lemma toPolynomial_map_combine {op : Op} {left right : Expr α}
    (hexact : ∀ f ∈ (combine op left right).1, f.Exact exact) :
    ((combine op left right).2.map exact).toPolynomial =
      op.apply (left.map exact).toPolynomial (right.map exact).toPolynomial := by
  by_cases h : ∃ a b, left = constant a ∧ right = constant b
  · obtain ⟨a, b, rfl, rfl⟩ := h
    have hresult : exact (op.apply a b) = op.apply (exact a) (exact b) :=
      hexact ⟨op, a, b, op.apply a b⟩ (List.mem_singleton_self _)
    simp only [combine, map, toPolynomial, hresult, C_apply]
  · rw [combine_eq_binary h, map, toPolynomial]

/-- **Simplification puts values in.** Where every computed operation is exact, the simplified
expression denotes the polynomial of the expression with the values of the bound variables put in
for them. -/
theorem toPolynomial_map_specialize {e : Expr α} {bound : Name → Option α}
    {read : Name → Except ε (Option α)} (values : String → Option R)
    (hread : ∀ n ∈ e.occurrences, read n = .ok (bound n))
    (hvalues : ∀ n ∈ e.occurrences, (bound n).map exact = values n.text)
    (hexact : ∀ f ∈ e.foldings read, f.Exact exact) :
    ((e.specialize bound).map exact).toPolynomial =
      putIn values (e.map exact).toPolynomial := by
  induction e with
  | constant value => simp [specialize, map, toPolynomial, putIn]
  | var name =>
    have hname := hvalues name (by simp)
    rw [map, toPolynomial, putIn, MvPolynomial.bind₁_X_right, ← hname, specialize]
    cases bound name <;> simp [map, toPolynomial]
  | binary op left right ihl ihr =>
    rw [foldings_binary hread] at hexact
    simp only [List.mem_append, or_imp, forall_and] at hexact
    obtain ⟨⟨hexactl, hexactr⟩, hexact⟩ := hexact
    simp only [occurrences_binary, List.mem_append, or_imp, forall_and] at hread hvalues
    rw [specialize, toPolynomial_map_combine hexact, ihl hread.1 hvalues.1 hexactl,
      ihr hread.2 hvalues.2 hexactr, map, toPolynomial, putIn_apply]

end Polynomial

end Expr

end SumProduct
