import SumProduct.Proofs.Bindings
import SumProduct.Proofs.Expr.Derivative
import SumProduct.Proofs.Expr.ExactFolding

/-!
# Derivatives of simplified expressions

Simplifying before taking a derivative collapses whole subtrees to constants, whose derivative is
zero; simplifying afterwards folds the products that the derivative has written out. Both give
expressions with the same values, if the variable of the derivative is not bound and no folding
rounds.

## Main results

* `SumProduct.Expr.evaluateWith_specialize_derivative` — both orders, for any arithmetic.
* `SumProduct.Expr.evaluateWith_simplify_derivative` — both orders, in an environment.
-/

namespace SumProduct

namespace Expr

universe u v

/-! ## Any arithmetic -/

section Specialize

variable {α ε : Type u} [Zero α] [One α] [Add α] [Mul α] {R δ : Type v} [CommSemiring R]
  {bound : Name → Option α} {known : Name → Except ε (Option α)}

/-- The derivative of a simplified expression and the simplified derivative have the value of the
partial derivative, with the bound variables at their values and the others at a point, if every
computed operation is exact and the variable of the derivative is not bound. -/
theorem evaluateWith_specialize_derivative (e : Expr α) (x : String) (exact : α → R)
    (hzero : exact 0 = 0) (hone : exact 1 = 1) (values : String → Option R) (point : String → R)
    (read : Name → Except δ R)
    (hknown : ∀ n ∈ e.occurrences, known n = .ok (bound n))
    (hvalues : ∀ n ∈ e.occurrences, (bound n).map exact = values n.text) (hx : values x = none)
    (hread : ∀ n ∈ e.occurrences, bound n = none → read n = .ok (point n.text))
    (hexact : ∀ f ∈ e.foldings known, f.Exact exact)
    (hexact' : ∀ f ∈ (e.derivative x).foldings known, f.Exact exact) :
    let value := MvPolynomial.eval (fun y => (values y).getD (point y))
      (MvPolynomial.pderiv x (e.map exact).toPolynomial)
    (((e.specialize bound).derivative x).map exact).evaluateWith read = .ok value ∧
      (((e.derivative x).specialize bound).map exact).evaluateWith read = .ok value := by
  intro value
  have hread_specialize : ∀ d : Expr α, (∀ n ∈ d.occurrences, n ∈ e.occurrences) →
      ∀ n ∈ (d.specialize bound).occurrences, read n = .ok (point n.text) := by
    intro d hd n hn
    rw [occurrences_specialize, List.mem_filter] at hn
    exact hread n (hd n hn.1) (Option.isNone_iff_eq_none.mp hn.2)
  have hmem : ∀ n ∈ (e.derivative x).occurrences, n ∈ e.occurrences :=
    fun n => mem_occurrences_of_mem_derivative
  constructor
  · have hvalue : MvPolynomial.eval point
        (((e.specialize bound).derivative x).map exact).toPolynomial = value := by
      rw [map_derivative exact hzero hone, toPolynomial_derivative,
        toPolynomial_map_specialize values hknown hvalues hexact, pderiv_putIn hx, eval_putIn]
    rw [evaluateWith_eq_eval _ read point, hvalue]
    intro n hn
    rw [occurrences_map] at hn
    exact hread_specialize e (fun _ h => h) n (mem_occurrences_of_mem_derivative hn)
  · have hvalue : MvPolynomial.eval point
        (((e.derivative x).specialize bound).map exact).toPolynomial = value := by
      rw [toPolynomial_map_specialize values (fun n hn => hknown n (hmem n hn))
        (fun n hn => hvalues n (hmem n hn)) hexact', eval_putIn, map_derivative exact hzero hone,
        toPolynomial_derivative]
    rw [evaluateWith_eq_eval _ read point, hvalue]
    intro n hn
    rw [occurrences_map] at hn
    exact hread_specialize (e.derivative x) hmem n hn

end Specialize

/-- Where constants and bindings are numbers of a semiring, simplification with the bindings and the
derivative may be taken in either order. -/
lemma evaluateWith_lookup_derivative {R ε : Type u} [CommSemiring R] (e : Expr R) (x : String)
    (known : Bindings String R) (hx : known.find? x = none) (point : String → R)
    (read : Name → Except ε R)
    (hread : ∀ n ∈ e.occurrences, known.find? n.text = none → read n = .ok (point n.text)) :
    let value := MvPolynomial.eval (fun y => (known.find? y).getD (point y))
      (MvPolynomial.pderiv x e.toPolynomial)
    ∃ s t : Expr R, e.simplifyWith known.lookup = (.ok s : Except ε _) ∧
      (e.derivative x).simplifyWith known.lookup = (.ok t : Except ε _) ∧
      (s.derivative x).evaluateWith read = .ok value ∧ t.evaluateWith read = .ok value := by
  intro value
  have hlookup : ∀ d : Expr R, ∀ n ∈ d.occurrences,
      known.lookup n = (.ok (known.find? n.text) : Except ε _) := fun _ _ _ => rfl
  -- The constants are read as themselves, and so every computed operation is exact.
  have hvalue := evaluateWith_specialize_derivative e x id rfl rfl known.find? point read
    (hlookup _) (fun _ _ => Option.map_id_apply) hx hread
    (fun f hf => exact_id_of_mem_foldings (hlookup _) hf)
    (fun f hf => exact_id_of_mem_foldings (hlookup _) hf)
  simp only [map_id] at hvalue
  exact ⟨_, _, simplifyWith_eq_specialize (hlookup _), simplifyWith_eq_specialize (hlookup _),
    hvalue⟩

/-! ## Environments -/

/-- **Simplifying and taking a derivative commute.** Constants and bound values are read in any
commutative semiring, zero as zero and one as one, the variable of the derivative is not bound, and
all other variables that are not bound have values. If the arithmetic of simplification is exact,
then the derivative of the simplified expression and the simplified derivative both exist, and both
have the value of the partial derivative of the polynomial that the expression denotes, at the point
where the bound variables are at their values. The same is true with the program's conversions and
rounded arithmetic, where the bound values convert exactly and no computed operation happens to be
rounded.

**Proof sketch.** Exact simplification puts the bound values into the polynomial
(`toPolynomial_map_specialize`), and values for other variables may be put in before or after taking
the partial derivative (`pderiv_putIn`). Exact arithmetic is the case of constants that are read as
themselves. -/
theorem evaluateWith_simplify_derivative {R ε : Type u} [CommSemiring R] (e : Expr Binary64)
    (x : String) (env : Environment) (hx : x ∉ env.keys) (exact : Binary64 → R)
    (hzero : exact 0 = 0) (hone : exact 1 = 1) (number : Value → R) (read : Name → Except ε R)
    (point : String → R)
    (hread : ∀ n ∈ e.occurrences, n.text ∉ env.keys → read n = .ok (point n.text)) :
    let known : Bindings String R := env.map number
    let value := MvPolynomial.eval (fun y => (known.find? y).getD (point y))
      (MvPolynomial.pderiv x (e.map exact).toPolynomial)
    (∃ s t : Expr R, (e.map exact).simplifyWith known.lookup = (.ok s : Except ε _) ∧
      ((e.map exact).derivative x).simplifyWith known.lookup = (.ok t : Except ε _) ∧
      (s.derivative x).evaluateWith read = .ok value ∧ t.evaluateWith read = .ok value) ∧
    ((∀ n ∈ e.occurrences, ∀ bound, env.find? n.text = some bound →
        ∃ y, bound.toBinary64 = .ok y ∧ exact y = number bound) →
      ∃ s t, e.simplify env = .ok s ∧ (e.derivative x).simplify env = .ok t ∧
        ((∀ f ∈ e.foldings env.bound ++ (e.derivative x).foldings env.bound, f.Exact exact) →
          ((s.derivative x).map exact).evaluateWith read = .ok value ∧
            (t.map exact).evaluateWith read = .ok value)) := by
  intro known value
  have hknown : known.find? x = none := by
    rw [Bindings.find?_map, Bindings.find?_eq_none_iff.mpr hx]
    rfl
  constructor
  · refine evaluateWith_lookup_derivative (e.map exact) x known hknown point read ?_
    intro n hn hnone
    rw [Bindings.find?_map, Option.map_eq_none_iff] at hnone
    exact hread n (by simpa using hn) (Bindings.find?_eq_none_iff.mp hnone)
  · intro hbound
    have hconv : env.Converts e := by
      intro n hn bound hfind
      obtain ⟨y, hy, -⟩ := hbound n hn bound hfind
      exact ⟨y, hy⟩
    have hconv' : env.Converts (e.derivative x) := fun n hn =>
      hconv n (mem_occurrences_of_mem_derivative hn)
    have hvalues : ∀ n ∈ e.occurrences, (env.numbers n).map exact = known.find? n.text := by
      intro n hn
      rw [Environment.numbers, Bindings.find?_map]
      cases hfind : env.find? n.text with
      | none => rfl
      | some bound =>
        obtain ⟨y, hy, hexact⟩ := hbound n hn bound hfind
        simp [hy, Except.toOption, hexact]
    refine ⟨_, _, simplify_eq_specialize hconv, simplify_eq_specialize hconv', fun hexact => ?_⟩
    simp only [List.mem_append, or_imp, forall_and] at hexact
    refine evaluateWith_specialize_derivative e x exact hzero hone known.find? point read
      (fun n hn => hconv.bound_eq hn) hvalues hknown (fun n hn hnone => hread n hn ?_) hexact.1
      hexact.2
    have hsome := hconv.isSome_numbers hn
    rw [hnone] at hsome
    exact Bindings.find?_eq_none_iff.mp (Option.isNone_iff_eq_none.mp (by simpa using hsome))

/-- Over the rationals, `(x + 2 * y) * (y * y + x)` with `y` bound to three: simplified, its
derivative is `(1 + 0) * (9 + x) + (x + 6) * (0 + 1)`; both orders give nineteen where `x` is
two. -/
theorem evaluateWith_simplify_derivative_product :
    let x : Expr Binary64 := var ⟨"x", by decide⟩
    let y : Expr Binary64 := var ⟨"y", by decide⟩
    let e := binary .mul (binary .add x (binary .mul (constant (.ofInt 2)) y))
      (binary .add (binary .mul y y) x)
    let env : Environment := ⟨[("y", .integer 3)], by decide⟩
    let read : Name → Except Unit ℚ := fun _ => .ok 2
    "x" ∉ env.keys ∧ Binary64.exact 0 = 0 ∧ Binary64.exact 1 = 1 ∧
      ∃ s t, e.simplify env = .ok s ∧ (e.derivative "x").simplify env = .ok t ∧
        s.derivative "x" ≠ t ∧
        ((s.derivative "x").map Binary64.exact).evaluateWith read = .ok 19 ∧
        (t.map Binary64.exact).evaluateWith read = .ok 19 := by
  intro x y e env read
  have hx : "x" ∉ env.keys := by decide
  have htwo : Binary64.exact (.ofInt 2) = 2 := by decide +kernel
  obtain ⟨-, hrun⟩ := evaluateWith_simplify_derivative e "x" env hx Binary64.exact
    Binary64.exact_zero Binary64.exact_one (fun _ => 3) read (fun _ => 2) (fun _ _ _ => rfl)
  have hbound : ∀ n ∈ e.occurrences, ∀ bound, env.find? n.text = some bound →
      ∃ y, bound.toBinary64 = .ok y ∧ Binary64.exact y = 3 := by
    intro n _ bound hfind
    obtain ⟨-, rfl⟩ : n.text = "y" ∧ bound = .integer 3 := by
      simpa [env] using Bindings.mem_entries_of_find? hfind
    exact ⟨.ofInt 3, by decide +kernel, by decide +kernel⟩
  obtain ⟨s, t, hs, ht, hvalues⟩ := hrun hbound
  have hexact : ∀ f ∈ e.foldings env.bound ++ (e.derivative "x").foldings env.bound,
      f.Exact Binary64.exact := by decide +kernel
  have hne : (e.simplify env).map (derivative "x") ≠ (e.derivative "x").simplify env := by
    decide +kernel
  rw [hs, ht] at hne
  have hvalue : MvPolynomial.eval
      (fun z => (((env.map fun _ => (3 : ℚ)).find? z).getD 2))
      (MvPolynomial.pderiv "x" (e.map Binary64.exact).toPolynomial) = 19 := by
    simp only [e, x, y, map, toPolynomial, Op.apply, htwo]
    simp [MvPolynomial.pderiv_X, env, Bindings.map, Bindings.find?]
    norm_num
  rw [hvalue] at hvalues
  exact ⟨hx, Binary64.exact_zero, Binary64.exact_one, s, t, hs, ht, fun h => hne (congrArg _ h),
    hvalues hexact⟩

end Expr

end SumProduct
