import SumProduct.Proofs.Expr.Derivative
import SumProduct.Proofs.Expr.ExactFolding

/-!
# Successive derivatives

Derivatives taken one after the other, each of which may be simplified before the next one. In
whatever order the variables come and wherever the constants are folded, the last derivative denotes
the iterated partial derivative, as long as no folding rounds.

## Main definitions

* `SumProduct.Expr.derivatives` — the derivatives of several steps, with all operations computed.

## Main results

* `SumProduct.Expr.pderiv_comm` — partial derivatives commute.
* `SumProduct.Expr.toPolynomial_derivatives` — what the last derivative denotes.
* `SumProduct.Expr.evaluateWith_derivatives` — its value does not depend on the order.
-/

namespace SumProduct

namespace Expr

universe u v

/-- The last of the derivatives with respect to the names of the steps in turn, where the result of
each marked step is simplified with some bindings, and all operations computed up to the end or to
the first failure, in order. -/
def derivatives {α ε : Type u} [Zero α] [One α] [Add α] [Mul α]
    (bound : Name → Except ε (Option α)) :
    List (String × Bool) → Expr α → List (Folding α) × Except ε (Expr α)
  | [], e => ([], .ok e)
  | (x, false) :: steps, e => derivatives bound steps (e.derivative x)
  | (x, true) :: steps, e =>
    match (e.derivative x).simplifyTraced bound with
    | (computed, .error fault) => (computed, .error fault)
    | (computed, .ok d) =>
      let (after, last) := derivatives bound steps d
      (computed ++ after, last)

/-! ## Iterated partial derivatives -/

section Partial

variable {R : Type v} [CommSemiring R]

/-- Partial derivatives commute. -/
lemma pderiv_comm (x y : String) (p : MvPolynomial String R) :
    MvPolynomial.pderiv x (MvPolynomial.pderiv y p) =
      MvPolynomial.pderiv y (MvPolynomial.pderiv x p) := by
  rcases eq_or_ne x y with rfl | hne
  · rfl
  · ext m
    simp only [MvPolynomial.coeff_pderiv, Finsupp.add_apply, Finsupp.single_eq_of_ne hne,
      Finsupp.single_eq_of_ne hne.symm, add_zero, add_right_comm m]
    ring

/-- The partial derivatives of a polynomial with respect to several variables in turn. -/
noncomputable def pderivs (xs : List String) (p : MvPolynomial String R) : MvPolynomial String R :=
  xs.foldl (fun q x => MvPolynomial.pderiv x q) p

/-- The order of the variables does not matter to partial derivatives. -/
lemma pderivs_perm {xs ys : List String} (hperm : xs.Perm ys) (p : MvPolynomial String R) :
    pderivs xs p = pderivs ys p :=
  hperm.foldl_eq' (fun x _ y _ q => pderiv_comm y x q) p

end Partial

/-! ## What the last derivative denotes -/

section Derivatives

variable {α ε : Type u} [Zero α] [One α] [Add α] [Mul α] {R : Type v} [CommSemiring R]

/-- Where nothing is bound, successive derivatives never fail and have no variables of their own,
every operation is computed in the arithmetic of the constants, and if all these computations are
exact, then the last derivative denotes the iterated partial derivative. -/
theorem toPolynomial_derivatives (bound : Name → Except ε (Option α))
    (hbound : ∀ n, bound n = .ok none) (exact : α → R) (hzero : exact 0 = 0)
    (hone : exact 1 = 1) (steps : List (String × Bool)) (e : Expr α) :
    ∃ computed d, e.derivatives bound steps = (computed, .ok d) ∧
      (∀ n ∈ d.occurrences, n ∈ e.occurrences) ∧ (∀ f ∈ computed, f.Exact id) ∧
      ((∀ f ∈ computed, f.Exact exact) →
        (d.map exact).toPolynomial =
          pderivs (steps.map Prod.fst) (e.map exact).toPolynomial) := by
  induction steps generalizing e with
  | nil => exact ⟨[], e, rfl, fun _ hn => hn, nofun, fun _ => rfl⟩
  | cons step steps ih =>
    obtain ⟨x, simplified⟩ := step
    have hderivative : ((e.derivative x).map exact).toPolynomial =
        MvPolynomial.pderiv x (e.map exact).toPolynomial := by
      rw [map_derivative exact hzero hone, toPolynomial_derivative]
    cases simplified with
    | false =>
      obtain ⟨computed, d, hd, hmem, hid, hvalue⟩ := ih (e.derivative x)
      refine ⟨computed, d, hd, fun n hn => mem_occurrences_of_mem_derivative (hmem n hn), hid,
        fun hexact => ?_⟩
      rw [hvalue hexact, hderivative]
      rfl
    | true =>
      -- simplification with nothing bound only folds constants
      have hread : ∀ n ∈ (e.derivative x).occurrences, bound n = .ok ((fun _ => none) n) :=
        fun n _ => hbound n
      have hfolded : (e.derivative x).simplifyTraced bound =
          ((e.derivative x).foldings bound, .ok ((e.derivative x).specialize fun _ => none)) :=
        Prod.ext rfl (simplifyWith_eq_specialize hread)
      obtain ⟨computed, d, hd, hmem, hid, hvalue⟩ := ih ((e.derivative x).specialize fun _ => none)
      refine ⟨(e.derivative x).foldings bound ++ computed, d, ?_, fun n hn => ?_, fun f hf => ?_,
        fun hexact => ?_⟩
      · rw [derivatives, hfolded]
        simp only [hd]
      · have hn := hmem n hn
        rw [occurrences_specialize] at hn
        exact mem_occurrences_of_mem_derivative (List.mem_of_mem_filter hn)
      · rcases List.mem_append.mp hf with hf | hf
        · exact exact_id_of_mem_foldings hread hf
        · exact hid f hf
      · simp only [List.mem_append, or_imp, forall_and] at hexact
        rw [hvalue hexact.2, toPolynomial_map_specialize (fun _ => none) hread
          (fun _ _ => rfl) hexact.1, putIn_none, hderivative]
        rfl

end Derivatives

/-! ## The order of the variables -/

/-- **Successive derivatives do not depend on the order of the variables.** Constants are read in
any commutative semiring, zero as zero and one as one, and all variables of an expression are bound
there. Take derivatives with respect to some names in any order, with the constants folded after any
of the steps. If the arithmetic of the folding is exact, then the last derivative exists, and its
value is that of the iterated partial derivative of the polynomial that the expression denotes. The
same is true with the rounded arithmetic of the program, where no computed operation happens to be
rounded.

**Proof sketch.** A derivative denotes the partial derivative, and exact folding with nothing bound
keeps what an expression denotes, so the last derivative denotes the iterated partial derivative
(`toPolynomial_derivatives`, by induction on the steps). Partial derivatives commute
(`pderivs_perm`), and evaluation is evaluation of the polynomial. -/
theorem evaluateWith_derivatives {R ε : Type u} [CommSemiring R] (e : Expr Binary64)
    (exact : Binary64 → R) (hzero : exact 0 = 0) (hone : exact 1 = 1) (read : Name → Except ε R)
    (point : String → R) (hread : ∀ n ∈ e.occurrences, read n = .ok (point n.text))
    (xs : List String) :
    let value := MvPolynomial.eval point (pderivs xs (e.map exact).toPolynomial)
    let unbound : Bindings String R := Bindings.empty
    ∀ steps : List (String × Bool), (steps.map Prod.fst).Perm xs →
      (∃ d : Expr R, ((e.map exact).derivatives unbound.lookup steps).2 = (.ok d : Except ε _) ∧
        d.evaluateWith read = .ok value) ∧
      ∃ computed d, e.derivatives (Environment.bound Bindings.empty) steps = (computed, .ok d) ∧
        ((∀ f ∈ computed, f.Exact exact) → (d.map exact).evaluateWith read = .ok value) := by
  intro value unbound steps hperm
  constructor
  · obtain ⟨computed, d, hd, hmem, hid, hvalue⟩ :=
      toPolynomial_derivatives (unbound.lookup : Name → Except ε _) (fun _ => rfl) id rfl rfl steps
        (e.map exact)
    refine ⟨d, congrArg Prod.snd hd, ?_⟩
    have hpolynomial := hvalue hid
    simp only [map_id, pderivs_perm hperm] at hpolynomial
    rw [evaluateWith_eq_eval d read point, hpolynomial]
    exact fun n hn => hread n (by simpa using hmem n hn)
  · obtain ⟨computed, d, hd, hmem, -, hvalue⟩ :=
      toPolynomial_derivatives (Environment.bound Bindings.empty) (fun _ => rfl) exact hzero hone
        steps e
    refine ⟨computed, d, hd, fun hexact => ?_⟩
    rw [evaluateWith_eq_eval (d.map exact) read point, hvalue hexact, pderivs_perm hperm]
    exact fun n hn => hread n (hmem n (by simpa using hn))

/-- Over the rationals, the derivatives of `x * (x * y) + 2.5 * x` with respect to `x` and then `y`,
and with respect to `y` and then `x` with the constants folded, are both six where `x` is three. -/
theorem evaluateWith_derivatives_mixed :
    let x : Expr Binary64 := var ⟨"x", by decide⟩
    let e := binary .add (binary .mul x (binary .mul x (var ⟨"y", by decide⟩)))
      (binary .mul (constant (Binary64.nearest false 5 2)) x)
    let read : Name → Except Unit ℚ := fun n => .ok (if n.text = "x" then 3 else 4)
    Binary64.exact 0 = 0 ∧ Binary64.exact 1 = 1 ∧
      (∃ computed d, e.derivatives (Environment.bound Bindings.empty) [("x", false), ("y", false)] =
        (computed, .ok d) ∧ (d.map Binary64.exact).evaluateWith read = .ok 6) ∧
      ∃ computed d, e.derivatives (Environment.bound Bindings.empty) [("y", true), ("x", true)] =
        (computed, .ok d) ∧ computed ≠ [] ∧ (d.map Binary64.exact).evaluateWith read = .ok 6 := by
  intro x e read
  have hconstant : Binary64.exact (Binary64.nearest false 5 2) = 5 / 2 := by decide +kernel
  have hvalue : MvPolynomial.eval (fun y => if y = "x" then (3 : ℚ) else 4)
      (pderivs ["x", "y"] (e.map Binary64.exact).toPolynomial) = 6 := by
    simp only [e, x, pderivs, List.foldl, map, toPolynomial, Op.apply, hconstant]
    simp [MvPolynomial.pderiv_X]
    norm_num
  have hall := evaluateWith_derivatives e Binary64.exact Binary64.exact_zero Binary64.exact_one read
    (fun y => if y = "x" then 3 else 4) (fun _ _ => rfl) ["x", "y"]
  rw [hvalue] at hall
  refine ⟨Binary64.exact_zero, Binary64.exact_one, ?_, ?_⟩
  · obtain ⟨-, computed, d, hd, h⟩ := hall [("x", false), ("y", false)] (.refl _)
    have hexact : ∀ f ∈ (e.derivatives (Environment.bound Bindings.empty)
        [("x", false), ("y", false)]).1, f.Exact Binary64.exact := by decide +kernel
    rw [hd] at hexact
    exact ⟨computed, d, hd, h hexact⟩
  · obtain ⟨-, computed, d, hd, h⟩ := hall [("y", true), ("x", true)] (.swap _ _ _)
    have hexact : ∀ f ∈ (e.derivatives (Environment.bound Bindings.empty)
        [("y", true), ("x", true)]).1, f.Exact Binary64.exact := by decide +kernel
    have hcomputed : (e.derivatives (Environment.bound Bindings.empty)
        [("y", true), ("x", true)]).1 ≠ [] := by decide +kernel
    rw [hd] at hexact hcomputed
    exact ⟨computed, d, hd, hcomputed, h hexact⟩

end Expr

end SumProduct
