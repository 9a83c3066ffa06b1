import SumProduct.Proofs.Expr.SuccessiveDerivatives

/-!
# Vanishing derivatives

Derivatives taken one after the other grow, and since nothing is cleaned up they never become the
constant zero. Their value does: a derivative denotes a polynomial that is of one degree less in the
variable, and a polynomial of degree zero has the derivative zero.

## Main definitions

* `SumProduct.Expr.degree` — the degree of an expression in a variable, read off its tree.

## Main results

* `SumProduct.Expr.degreeOf_toPolynomial_le` — the degree of the polynomial is no higher.
* `SumProduct.Expr.pderivs_replicate_eq_zero` — partial derivatives beyond the degree vanish.
* `SumProduct.Expr.evaluateWith_derivatives_eq_zero` — derivatives beyond the degree have the value
  zero.
-/

namespace SumProduct

namespace Expr

universe u v

/-- The degree of an expression in the variable with this name: sums have the higher degree of their
operands, products both degrees together. -/
def degree {α : Type u} (x : String) : Expr α → ℕ
  | constant _ => 0
  | var name => if name.text = x then 1 else 0
  | binary .add left right => max (left.degree x) (right.degree x)
  | binary .mul left right => left.degree x + right.degree x

/-- Other constants leave the degree as it is. -/
@[simp] lemma degree_map {α : Type u} {β : Type v} (f : α → β) (x : String) (e : Expr α) :
    (e.map f).degree x = e.degree x := by
  induction e with
  | constant value => rfl
  | var name => rfl
  | binary op left right ihl ihr => cases op <;> simp [map, degree, ihl, ihr]

/-! ## Degrees of polynomials -/

section Polynomial

variable {R : Type u} [CommSemiring R] {x : String} {p : MvPolynomial String R}

/-- A variable has degree one in itself and degree zero in every other variable. -/
lemma degreeOf_X_le (x y : String) :
    (MvPolynomial.X y : MvPolynomial String R).degreeOf x ≤ if y = x then 1 else 0 := by
  rw [MvPolynomial.degreeOf_le_iff]
  intro m hm
  obtain rfl := Finset.mem_singleton.mp (MvPolynomial.support_monomial_subset hm)
  rw [Finsupp.single_apply]

/-- The polynomial of an expression has no higher degree than the tree. It may have a lower one,
where terms cancel. -/
theorem degreeOf_toPolynomial_le (x : String) (e : Expr R) :
    e.toPolynomial.degreeOf x ≤ e.degree x := by
  induction e with
  | constant value => simp [toPolynomial]
  | var name => exact degreeOf_X_le x name.text
  | binary op left right ihl ihr =>
    cases op with
    | add => exact (MvPolynomial.degreeOf_add_le x _ _).trans (max_le_max ihl ihr)
    | mul => exact (MvPolynomial.degreeOf_mul_le x _ _).trans (Nat.add_le_add ihl ihr)

/-- The monomials of the partial derivative come from monomials with one more factor, so they are
of lower degree. -/
lemma lt_degreeOf_of_coeff_pderiv {m : String →₀ ℕ}
    (h : (MvPolynomial.pderiv x p).coeff m ≠ 0) : m x < p.degreeOf x := by
  have hmem : m + Finsupp.single x 1 ∈ p.support := by
    rw [MvPolynomial.mem_support_iff]
    intro hzero
    apply h
    rw [MvPolynomial.coeff_pderiv, hzero, zero_mul]
  have hle := MvPolynomial.monomial_le_degreeOf x hmem
  simp only [Finsupp.add_apply, Finsupp.single_eq_same] at hle
  omega

/-- The partial derivative has a lower degree, unless the degree is zero. -/
lemma degreeOf_pderiv_le {k : ℕ} (h : p.degreeOf x ≤ k + 1) :
    (MvPolynomial.pderiv x p).degreeOf x ≤ k := by
  rw [MvPolynomial.degreeOf_le_iff]
  intro m hm
  have hlt := lt_degreeOf_of_coeff_pderiv (MvPolynomial.mem_support_iff.mp hm)
  omega

/-- A polynomial of degree zero has the partial derivative zero. -/
lemma pderiv_eq_zero_of_degreeOf (h : p.degreeOf x = 0) : MvPolynomial.pderiv x p = 0 := by
  ext m
  by_contra hne
  have hlt := lt_degreeOf_of_coeff_pderiv hne
  omega

/-- No derivative of zero is anything else. -/
lemma pderivs_zero (xs : List String) : pderivs xs (0 : MvPolynomial String R) = 0 := by
  induction xs with
  | nil => rfl
  | cons x xs ih => rwa [pderivs, List.foldl_cons, map_zero]

/-- **Partial derivatives beyond the degree vanish.** -/
theorem pderivs_replicate_eq_zero {n : ℕ} (h : p.degreeOf x < n) :
    pderivs (List.replicate n x) p = 0 := by
  induction n generalizing p with
  | zero => omega
  | succ n ih =>
    rw [List.replicate_succ, pderivs, List.foldl_cons]
    rcases Nat.eq_zero_or_pos (p.degreeOf x) with hconstant | hpos
    · rw [pderiv_eq_zero_of_degreeOf hconstant]
      exact pderivs_zero _
    · refine ih ?_
      have hle : (MvPolynomial.pderiv x p).degreeOf x ≤ p.degreeOf x - 1 :=
        degreeOf_pderiv_le (by omega)
      omega

end Polynomial

/-! ## Values -/

/-- **Differentiating more often than the degree gives zero.** Constants are read in any commutative
semiring, zero as zero and one as one, and all variables of an expression are bound there. Take
derivatives with respect to one name, more of them than the degree of the expression in it, with the
constants folded after any of the steps. If the arithmetic of the folding is exact, then the last
derivative exists, and its value is zero. The same is true with the rounded arithmetic of the
program, where no computed operation happens to be rounded.

**Proof sketch.** The derivative of a tree can be of the same degree as the tree, so the induction
is on polynomials: the last derivative denotes the iterated partial derivative
(`toPolynomial_derivatives`), each of which lowers the degree until nothing is left
(`pderivs_replicate_eq_zero`). -/
theorem evaluateWith_derivatives_eq_zero {R ε : Type u} [CommSemiring R] (e : Expr Binary64)
    (x : String) (exact : Binary64 → R) (hzero : exact 0 = 0) (hone : exact 1 = 1)
    (read : Name → Except ε R) (point : String → R)
    (hread : ∀ n ∈ e.occurrences, read n = .ok (point n.text)) (marks : List Bool)
    (hmarks : e.degree x < marks.length) :
    let unbound : Bindings String R := Bindings.empty
    let steps := marks.map fun simplified => (x, simplified)
    (∃ d : Expr R, ((e.map exact).derivatives unbound.lookup steps).2 = (.ok d : Except ε _) ∧
      d.evaluateWith read = .ok 0) ∧
    ∃ computed d, e.derivatives (Environment.bound Bindings.empty) steps = (computed, .ok d) ∧
      ((∀ f ∈ computed, f.Exact exact) → (d.map exact).evaluateWith read = .ok 0) := by
  intro unbound steps
  have hvanish : pderivs (steps.map Prod.fst) (e.map exact).toPolynomial = 0 := by
    have hnames : steps.map Prod.fst = List.replicate marks.length x := by
      simp [steps, Function.comp_def]
    rw [hnames]
    refine pderivs_replicate_eq_zero ((degreeOf_toPolynomial_le x _).trans_lt ?_)
    rwa [degree_map]
  have hvalue : ∀ d : Expr R, (∀ n ∈ d.occurrences, n ∈ e.occurrences) →
      d.toPolynomial = 0 → d.evaluateWith read = .ok 0 := by
    intro d hmem hd
    rw [evaluateWith_eq_eval d read point fun n hn => hread n (hmem n hn), hd, map_zero]
  constructor
  · obtain ⟨computed, d, hd, hmem, hid, hpolynomial⟩ :=
      toPolynomial_derivatives (unbound.lookup : Name → Except ε _) (fun _ => rfl) id rfl rfl steps
        (e.map exact)
    refine ⟨d, congrArg Prod.snd hd, hvalue d (fun n hn => by simpa using hmem n hn) ?_⟩
    have hd := hpolynomial hid
    rwa [map_id, map_id, hvanish] at hd
  · obtain ⟨computed, d, hd, hmem, -, hpolynomial⟩ :=
      toPolynomial_derivatives (Environment.bound Bindings.empty) (fun _ => rfl) exact hzero hone
        steps e
    refine ⟨computed, d, hd, fun hexact => hvalue _ (fun n hn => hmem n (by simpa using hn)) ?_⟩
    rw [hpolynomial hexact, hvanish]

/-- The third derivative of `x * (x + 2.5)`, simplified after the first and the last step, still has
variables; over the rationals its value is zero where `x` is seven. -/
theorem evaluateWith_derivatives_eq_zero_quadratic :
    let x : Expr Binary64 := var ⟨"x", by decide⟩
    let e := binary .mul x (binary .add x (constant (Binary64.nearest false 5 2)))
    let read : Name → Except Unit ℚ := fun _ => .ok 7
    Binary64.exact 0 = 0 ∧ Binary64.exact 1 = 1 ∧ e.degree "x" = 2 ∧
      ∃ computed d, e.derivatives (Environment.bound Bindings.empty)
          [("x", true), ("x", false), ("x", true)] = (computed, .ok d) ∧
        computed ≠ [] ∧ d.occurrences ≠ [] ∧
        (d.map Binary64.exact).evaluateWith read = .ok 0 := by
  intro x e read
  have hdegree : e.degree "x" = 2 := by decide +kernel
  obtain ⟨-, computed, d, hd, hvalue⟩ := evaluateWith_derivatives_eq_zero e "x" Binary64.exact
    Binary64.exact_zero Binary64.exact_one read (fun _ => 7) (fun _ _ => rfl) [true, false, true]
    (by rw [hdegree]; decide)
  have hexact : ∀ f ∈ (e.derivatives (Environment.bound Bindings.empty)
      [("x", true), ("x", false), ("x", true)]).1, f.Exact Binary64.exact := by decide +kernel
  have hcomputed : (e.derivatives (Environment.bound Bindings.empty)
      [("x", true), ("x", false), ("x", true)]).1 ≠ [] := by decide +kernel
  have hoccurs : ∀ d ∈ (e.derivatives (Environment.bound Bindings.empty)
      [("x", true), ("x", false), ("x", true)]).2.toOption, d.occurrences ≠ [] := by
    decide +kernel
  simp only [List.map_cons, List.map_nil] at hd
  rw [hd] at hexact hcomputed hoccurs
  exact ⟨Binary64.exact_zero, Binary64.exact_one, hdegree, computed, d, hd, hcomputed,
    hoccurs d rfl, hvalue hexact⟩

end Expr

end SumProduct
