import Mathlib.Algebra.MvPolynomial.Funext
import SumProduct.Algebra.System
import SumProduct.Proofs.Algebra.Polynomial
import SumProduct.Proofs.Binary64.Rounding
import SumProduct.Proofs.Expr.Equality
import SumProduct.Proofs.Text.Class

/-!
# Equivalence decides polynomial identity

Expressions with whole constants are polynomials with integer coefficients, and equivalence asks
whether they are the same polynomial. That is the case exactly if they have the same exact value
whatever integers their variables stand for. It does not matter whether the polynomials are compared
in sorted form or handed to a computer-algebra system that computes exactly.

## Main definitions

* `SumProduct.WholeExpr` — expressions with whole constants.
* `SumProduct.Expr.exactValue` — the exact value at integers for the variables.
* `SumProduct.AlgebraSystem.Exact` — what is relied on of a computer-algebra system.
* `SumProduct.Expr.Rearranged` — trees that differ by commutativity, associativity and
  distributivity.
* `SumProduct.AlgebraSystem.sorted` — the system of polynomials in sorted form.

## Main results

* `SumProduct.Expr.exactValue_eq_iff` — values at all integers determine the polynomial.
* `SumProduct.AlgebraSystem.exact_sorted` — polynomials in sorted form are computed with exactly.
* `SumProduct.Expr.equivalent_decides_identity` — equivalence decides polynomial identity.
-/

namespace SumProduct

universe u v

/-! ## Whole constants -/

namespace Binary64

/-- A whole number is a multiple of one. -/
lemma exists_units?_of_isIntegral {x : Binary64} (h : x.isIntegral = true) :
    ∃ k : ℤ, x.units? = some (unitsPerOne * k) := by
  cases x with
  | infinite negative => cases h
  | nan => cases h
  | finite negative rank =>
    obtain ⟨k, hk⟩ := Nat.dvd_of_mod_eq_zero (beq_iff_eq.mp h)
    cases negative with
    | false => exact ⟨k, by rw [units?, hk, Nat.cast_mul]⟩
    | true => exact ⟨-k, by rw [units?, hk, Nat.cast_mul, mul_neg]⟩

/-- A whole number is the integer that it is rounded to. -/
lemma exact_eq_toInt {x : Binary64} (h : x.isIntegral = true) : x.exact = x.toInt := by
  have hone : unitsPerOne ≠ 0 := (twoPow_pos 1074).ne'
  obtain ⟨k, hk⟩ := exists_units?_of_isIntegral h
  rw [exact, toRat?, toInt, hk, Option.map_some, Option.getD_some, Option.getD_some,
    Int.mul_tdiv_cancel_left _ (Int.natCast_ne_zero.mpr hone), Rat.mkRat_eq_div, Int.cast_mul,
    Int.cast_natCast]
  exact mul_div_cancel_left₀ _ (Nat.cast_ne_zero.mpr hone)

end Binary64

/-- An expression with whole constants. -/
abbrev WholeExpr := {e : Expr Binary64 // e.hasWholeConstants = true}

namespace Expr

/-- The polynomial with integer coefficients that an expression with whole constants denotes. -/
noncomputable def integerPolynomial (e : Expr Binary64) : MvPolynomial String ℤ :=
  (e.map Binary64.toInt).toPolynomial

/-- Mapping coefficients carries operations over. -/
lemma map_apply {R : Type u} {S : Type v} [CommSemiring R] [CommSemiring S] (f : R →+* S) (op : Op)
    (p q : MvPolynomial String R) :
    MvPolynomial.map f (op.apply p q) =
      op.apply (MvPolynomial.map f p) (MvPolynomial.map f q) := by
  cases op with
  | add => exact map_add _ p q
  | mul => exact map_mul _ p q

/-- With whole constants the coefficients are integers. -/
lemma toPolynomial_map_exact {e : Expr Binary64} (h : e.hasWholeConstants = true) :
    (e.map Binary64.exact).toPolynomial =
      MvPolynomial.map (Int.castRingHom ℚ) e.integerPolynomial := by
  unfold integerPolynomial
  induction e with
  | constant value =>
    simp only [map, toPolynomial, MvPolynomial.map_C, Binary64.exact_eq_toInt h]
    rfl
  | var name => simp only [map, toPolynomial, MvPolynomial.map_X]
  | binary op left right ihl ihr =>
    obtain ⟨hl, hr⟩ := Bool.and_eq_true_iff.mp h
    rw [map, toPolynomial, ihl hl, ihr hr, map, toPolynomial, map_apply]

/-- Integer coefficients are determined by the rational ones. -/
lemma toPolynomial_map_exact_inj {a b : Expr Binary64} (ha : a.hasWholeConstants = true)
    (hb : b.hasWholeConstants = true) :
    (a.map Binary64.exact).toPolynomial = (b.map Binary64.exact).toPolynomial ↔
      a.integerPolynomial = b.integerPolynomial := by
  rw [toPolynomial_map_exact ha, toPolynomial_map_exact hb]
  exact (MvPolynomial.map_injective _ Int.cast_injective).eq_iff

/-! ## Values at integers -/

/-- The exact value of an expression at integers for its variables. -/
def exactValue (e : Expr Binary64) (point : Name → ℤ) : Except Empty ℚ :=
  (e.map Binary64.exact).evaluateWith fun n => .ok (point n)

/-- The exact value is that of the polynomial. -/
lemma exactValue_eq_eval {e : Expr Binary64} (h : e.hasWholeConstants = true) (point : String → ℤ) :
    e.exactValue (fun n => point n.text) =
      .ok (MvPolynomial.eval point e.integerPolynomial : ℤ) := by
  have hmap := MvPolynomial.map_eval (Int.castRingHom ℚ) point e.integerPolynomial
  rw [← toPolynomial_map_exact h] at hmap
  rw [exactValue, evaluateWith_eq_eval _ _ (fun x => (point x : ℚ)) fun _ _ => rfl]
  exact congrArg Except.ok hmap.symm

/-- **Values at all integers determine the polynomial.**

**Proof sketch.** The integers are infinitely many and without zero divisors, so a polynomial that
vanishes at all of them is zero. -/
theorem exactValue_eq_iff {a b : Expr Binary64} (ha : a.hasWholeConstants = true)
    (hb : b.hasWholeConstants = true) :
    (∀ point : Name → ℤ, a.exactValue point = b.exactValue point) ↔
      a.integerPolynomial = b.integerPolynomial := by
  constructor
  · intro h
    refine MvPolynomial.funext fun point => ?_
    have hvalue := h fun n => point n.text
    rw [exactValue_eq_eval ha, exactValue_eq_eval hb] at hvalue
    exact Int.cast_injective (Except.ok.inj hvalue)
  · intro h point
    -- Texts that are no names have no part in an expression and may stand for anything.
    have hpoint : point = fun n => Function.extend Name.text point 0 n.text := by
      funext n
      exact (Name.text_injective.extend_apply point 0 n).symm
    rw [hpoint, exactValue_eq_eval ha, exactValue_eq_eval hb, h]

/-! ## Sorted form -/

/-- An expression with whole constants has a polynomial in sorted form. -/
lemma exists_ofExpr? {e : Expr Binary64} (h : e.hasWholeConstants = true) :
    ∃ p, Polynomial.ofExpr? e = some p := by
  induction e with
  | constant value =>
    obtain ⟨k, hk⟩ := Binary64.exists_units?_of_isIntegral h
    exact ⟨_, by rw [Polynomial.ofExpr?_constant, Binary64.toRat?, hk]; rfl⟩
  | var name => exact ⟨_, rfl⟩
  | binary op left right ihl ihr =>
    obtain ⟨hl, hr⟩ := Bool.and_eq_true_iff.mp h
    obtain ⟨p, hp⟩ := ihl hl
    obtain ⟨q, hq⟩ := ihr hr
    exact ⟨_, by rw [Polynomial.ofExpr?_binary, hp, hq]; rfl⟩

/-- Expressions with whole constants are equivalent when they denote the same polynomial. -/
lemma equivalent_iff {a b : Expr Binary64} (ha : a.hasWholeConstants = true)
    (hb : b.hasWholeConstants = true) :
    a.equivalent b = true ↔ a.integerPolynomial = b.integerPolynomial := by
  obtain ⟨p, hp⟩ := exists_ofExpr? ha
  obtain ⟨q, hq⟩ := exists_ofExpr? hb
  obtain ⟨hpcanonical, hpeq⟩ := Polynomial.canonical_of_ofExpr? hp
  obtain ⟨hqcanonical, hqeq⟩ := Polynomial.canonical_of_ofExpr? hq
  rw [equivalent, ha, hb, Bool.and_self, if_pos rfl, decide_eq_true_iff, hp, hq, Option.some.injEq,
    ← toPolynomial_map_exact_inj ha hb, ← hpeq, ← hqeq]
  exact ⟨fun h => h ▸ rfl, hpcanonical.eq_of_toMvPolynomial_eq hqcanonical⟩

/-! ## Rearrangements -/

/-- Two trees differ by the laws of a commutative semiring: commutativity and associativity of both
operations, and distributivity, at any places and any number of times. -/
inductive Rearranged {α : Type u} : Expr α → Expr α → Prop
  /-- A tree as it is. -/
  | refl (a : Expr α) : Rearranged a a
  /-- A rearrangement backwards. -/
  | symm {a b : Expr α} : Rearranged a b → Rearranged b a
  /-- One rearrangement after the other. -/
  | trans {a b c : Expr α} : Rearranged a b → Rearranged b c → Rearranged a c
  /-- Rearrangements of the operands. -/
  | congr (op : Op) {a b c d : Expr α} :
      Rearranged a c → Rearranged b d → Rearranged (binary op a b) (binary op c d)
  /-- Operands exchanged. -/
  | comm (op : Op) (a b : Expr α) : Rearranged (binary op a b) (binary op b a)
  /-- Operands grouped differently. -/
  | assoc (op : Op) (a b c : Expr α) :
      Rearranged (binary op (binary op a b) c) (binary op a (binary op b c))
  /-- A product with a sum multiplied out. -/
  | distrib (a b c : Expr α) :
      Rearranged (binary .mul a (binary .add b c))
        (binary .add (binary .mul a b) (binary .mul a c))

/-- Rearranged trees denote the same polynomial. -/
lemma Rearranged.toPolynomial_eq {α : Type u} {R : Type v} [CommSemiring R] (f : α → R)
    {a b : Expr α} (h : Rearranged a b) : (a.map f).toPolynomial = (b.map f).toPolynomial := by
  induction h with
  | refl a => rfl
  | symm _ ih => exact ih.symm
  | trans _ _ ih ih' => exact ih.trans ih'
  | congr op _ _ ih ih' => rw [map, toPolynomial, ih, ih', map, toPolynomial]
  | comm op a b =>
    cases op with
    | add => exact add_comm _ _
    | mul => exact mul_comm _ _
  | assoc op a b c =>
    cases op with
    | add => exact add_assoc _ _ _
    | mul => exact mul_assoc _ _ _
  | distrib a b c => exact mul_add _ _ _

end Expr

/-! ## Systems that compute exactly -/

namespace AlgebraSystem

variable {F : Type u} {S : AlgebraSystem F} {Denotes : F → MvPolynomial String ℤ → Prop}

/-- A system computes exactly with the formulas that denote polynomials with integer coefficients:
integers, variables, sums and products are what they should be, and a formula simplifies to zero
exactly if it denotes the zero polynomial. -/
structure Exact (S : AlgebraSystem F) (Denotes : F → MvPolynomial String ℤ → Prop) : Prop where
  /-- Integers denote themselves. -/
  integer (n : ℤ) : Denotes (S.integer n) (MvPolynomial.C n)
  /-- Variables denote themselves. -/
  symbol (x : String) : Denotes (S.symbol x) (MvPolynomial.X x)
  /-- Sums denote sums. -/
  add {f g : F} {p q : MvPolynomial String ℤ} :
    Denotes f p → Denotes g q → Denotes (S.add f g) (p + q)
  /-- Products denote products. -/
  mul {f g : F} {p q : MvPolynomial String ℤ} :
    Denotes f p → Denotes g q → Denotes (S.mul f g) (p * q)
  /-- What denotes zero, and nothing else, simplifies to zero. -/
  simplify {f : F} {p : MvPolynomial String ℤ} :
    Denotes f p → (S.isZero (S.simplify f) = true ↔ p = 0)

/-- The formula of an expression with whole constants denotes its polynomial. -/
lemma Exact.formula (hS : S.Exact Denotes) {e : Expr Binary64} (h : e.hasWholeConstants = true) :
    Denotes (S.formula e) e.integerPolynomial := by
  unfold Expr.integerPolynomial
  induction e with
  | constant value =>
    have hvalue : value.isIntegral = true := h
    rw [AlgebraSystem.formula, number, if_pos hvalue]
    exact hS.integer _
  | var name => exact hS.symbol _
  | binary op left right ihl ihr =>
    obtain ⟨hl, hr⟩ := Bool.and_eq_true_iff.mp h
    cases op with
    | add => exact hS.add (ihl hl) (ihr hr)
    | mul => exact hS.mul (ihl hl) (ihr hr)

/-- Differences denote differences. -/
lemma Exact.difference (hS : S.Exact Denotes) {f g : F} {p q : MvPolynomial String ℤ}
    (hf : Denotes f p) (hg : Denotes g q) : Denotes (S.difference f g) (p - q) := by
  have hsub : p - q = p + MvPolynomial.C (-1) * q := by
    rw [map_neg, map_one, neg_one_mul, sub_eq_add_neg]
  rw [hsub]
  exact hS.add hf (hS.mul (hS.integer _) hg)

/-- Expressions with whole constants are equivalent in an exact system when they denote the same
polynomial. -/
lemma Exact.equivalent_iff (hS : S.Exact Denotes) {a b : Expr Binary64}
    (ha : a.hasWholeConstants = true) (hb : b.hasWholeConstants = true) :
    S.equivalent a b = true ↔ a.integerPolynomial = b.integerPolynomial := by
  rw [equivalent, hS.simplify (hS.difference (hS.formula ha) (hS.formula hb)), sub_eq_zero]

/-- The system of polynomials in sorted form, which has no rounded numbers. -/
def sorted : AlgebraSystem (Polynomial ℤ) where
  integer := Polynomial.constant
  float _ := []
  symbol := Polynomial.ofVariable
  add := Polynomial.add
  mul := Polynomial.mul
  simplify p := p
  isZero := List.isEmpty

/-- **Polynomials in sorted form are computed with exactly.** -/
theorem exact_sorted : sorted.Exact fun f p => f.Canonical ∧ f.toMvPolynomial = p where
  integer n := ⟨Polynomial.canonical_constant n, Polynomial.toMvPolynomial_constant n⟩
  symbol x := ⟨Polynomial.canonical_ofVariable x, Polynomial.toMvPolynomial_ofVariable x⟩
  add := by
    rintro f g _ _ ⟨hf, rfl⟩ ⟨hg, rfl⟩
    exact ⟨.add hf.monomials hg, Polynomial.toMvPolynomial_add f g⟩
  mul := by
    rintro f g _ _ ⟨hf, rfl⟩ ⟨hg, rfl⟩
    exact ⟨Polynomial.canonical_mul hf.monomials hg.monomials, Polynomial.toMvPolynomial_mul f g⟩
  simplify := by
    rintro f _ ⟨hf, rfl⟩
    have hzero : f.isEmpty = true ↔ f = [] := List.isEmpty_iff
    refine hzero.trans ⟨fun h => by rw [h, Polynomial.toMvPolynomial_nil], fun h => ?_⟩
    refine hf.eq_of_toMvPolynomial_eq Polynomial.canonical_nil ?_
    rw [h, Polynomial.toMvPolynomial_nil]

end AlgebraSystem

/-! ## Equivalence -/

/-- **Equivalence decides polynomial identity**, in every system that computes exactly. Expressions
with whole constants are equivalent exactly if they have the same exact value whatever integers
their variables stand for, and comparing polynomials in sorted form gives the same answer. Hence
equivalence is an equivalence relation that respects sums and products. It holds between trees that
are equal, and between trees that differ by commutativity, associativity and distributivity.

**Proof sketch.** The formula of an expression denotes its polynomial (`Exact.formula`), so that
equivalence is equality of polynomials with integer coefficients, which their values at integers
determine (`exactValue_eq_iff`) and which have one sorted form only (`equivalent_iff`). -/
theorem Expr.equivalent_decides_identity {F : Type u} (S : AlgebraSystem F)
    (Denotes : F → MvPolynomial String ℤ → Prop) (hS : S.Exact Denotes) :
    (∀ a b : WholeExpr, S.equivalent a.1 b.1 = true ↔
        ∀ point : Name → ℤ, a.1.exactValue point = b.1.exactValue point) ∧
      (∀ a b : WholeExpr, a.1.equivalent b.1 = S.equivalent a.1 b.1) ∧
      (Equivalence fun a b : WholeExpr => S.equivalent a.1 b.1 = true) ∧
      (∀ (op : Op) (a b c d : WholeExpr), S.equivalent a.1 c.1 = true →
        S.equivalent b.1 d.1 = true →
        S.equivalent (binary op a.1 b.1) (binary op c.1 d.1) = true) ∧
      (∀ a b : WholeExpr, a.1.equal b.1 = true → S.equivalent a.1 b.1 = true) ∧
      ∀ a b : WholeExpr, Rearranged a.1 b.1 → S.equivalent a.1 b.1 = true := by
  have hiff (a b : WholeExpr) : S.equivalent a.1 b.1 = true ↔
      a.1.integerPolynomial = b.1.integerPolynomial := hS.equivalent_iff a.2 b.2
  refine ⟨?values, ?sorted, ⟨?refl, ?symm, ?trans⟩, ?congr, ?equal, ?rearranged⟩
  case values =>
    intro a b
    rw [hiff, exactValue_eq_iff a.2 b.2]
  case sorted =>
    intro a b
    rw [Bool.eq_iff_iff, hiff, equivalent_iff a.2 b.2]
  case refl => exact fun a => (hiff a a).mpr rfl
  case symm => exact fun {a b} h => (hiff b a).mpr ((hiff a b).mp h).symm
  case trans =>
    exact fun {a b c} h h' => (hiff a c).mpr (((hiff a b).mp h).trans ((hiff b c).mp h'))
  case congr =>
    intro op a b c d hac hbd
    have hwhole (a b : WholeExpr) : (binary op a.1 b.1).hasWholeConstants = true :=
      Bool.and_eq_true_iff.mpr ⟨a.2, b.2⟩
    rw [hiff] at hac hbd
    rw [hS.equivalent_iff (hwhole a b) (hwhole c d)]
    exact congrArg₂ op.apply hac hbd
  case equal =>
    intro a b h
    rw [hiff, same_iff_eq.mp h]
  case rearranged =>
    intro a b h
    rw [hiff]
    exact h.toPolynomial_eq Binary64.toInt

/-- With `b` for `x + 1`, `b * b` is equivalent to `x * x + (x + b)` and not to `x * x + b`. -/
theorem Expr.equivalent_decides_identity_square :
    let S := AlgebraSystem.sorted
    let x : Expr Binary64 := var ⟨"x", by decide⟩
    let b : Expr Binary64 := binary .add x (constant 1)
    let square : Expr Binary64 := binary .mul b b
    let expanded := binary .add (binary .mul x x) (binary .add x b)
    let short := binary .add (binary .mul x x) b
    (S.Exact fun f p => f.Canonical ∧ f.toMvPolynomial = p) ∧
      square.hasWholeConstants = true ∧ expanded.hasWholeConstants = true ∧
      short.hasWholeConstants = true ∧
      (∀ point : Name → ℤ, square.exactValue point = expanded.exactValue point) ∧
      ¬ ∀ point : Name → ℤ, square.exactValue point = short.exactValue point := by
  intro S x b square expanded short
  have hsquare : square.hasWholeConstants = true := by decide +kernel
  have hexpanded : expanded.hasWholeConstants = true := by decide +kernel
  have hshort : short.hasWholeConstants = true := by decide +kernel
  have hequal : S.equivalent square expanded = true := by decide +kernel
  have hdiffer : ¬ S.equivalent square short = true := by decide +kernel
  have hdecides := (equivalent_decides_identity S _ AlgebraSystem.exact_sorted).1
  exact ⟨AlgebraSystem.exact_sorted, hsquare, hexpanded, hshort,
    (hdecides ⟨square, hsquare⟩ ⟨expanded, hexpanded⟩).mp hequal,
    fun h => hdiffer ((hdecides ⟨square, hsquare⟩ ⟨short, hshort⟩).mpr h)⟩

end SumProduct
