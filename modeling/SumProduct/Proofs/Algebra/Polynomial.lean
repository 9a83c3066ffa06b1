import Mathlib.Algebra.MvPolynomial.Basic
import SumProduct.Algebra.Equivalence
import SumProduct.Proofs.Algebra.Entries
import SumProduct.Proofs.Expr.Polynomial

/-!
# Polynomials in sorted form

The lists that stand for monomials and polynomials are canonical, and the arithmetic on them is that
of polynomials. So two lists are the same exactly when the polynomials are.

## Main definitions

* `SumProduct.Monomial.exponents` — the exponents of a monomial.
* `SumProduct.Polynomial.toMvPolynomial` — the polynomial that a list stands for.
* `SumProduct.Polynomial.Canonical` — lists in sorted form.

## Main results

* `SumProduct.Polynomial.Canonical.eq_of_toMvPolynomial_eq` — the sorted form of a polynomial is
  unique.
* `SumProduct.Polynomial.canonical_ofExpr?`, `SumProduct.Polynomial.toMvPolynomial_ofExpr?` — the
  list of an expression is the sorted form of the polynomial that the expression denotes.
-/

namespace SumProduct

universe u

open MvPolynomial (monomial)

/-! ## The order of monomials -/

/-- The order of texts is the usual one. -/
lemma compareText_eq_compare : compareText = (Ord.compare : String → String → Ordering) := by
  funext a b
  change compareText a b = compareOfLessAndEq a b
  rw [compareText, compareOfLessAndEq]
  by_cases hlt : a < b
  · rw [if_pos hlt, if_pos hlt]
  · rw [if_neg hlt, if_neg hlt]
    by_cases heq : a = b
    · rw [if_pos heq, heq, if_neg (String.lt_irrefl b)]
    · have hgt : b < a := by
        by_contra hgt
        exact heq (String.le_antisymm (String.not_lt.mp hgt) (String.not_lt.mp hlt))
      rw [if_neg heq, if_pos hgt]

instance : Std.TransCmp compareText := compareText_eq_compare ▸ inferInstance

instance : Std.LawfulEqCmp compareText := compareText_eq_compare ▸ inferInstance

/-- Monomials are ordered like words, by the names and then by the exponents. -/
lemma Monomial.compare_eq_compareLex :
    Monomial.compare = List.compareLex (lexOrd : Ord (String × Nat)).compare := by
  funext m n
  induction m generalizing n with
  | nil => cases n <;> rfl
  | cons p m ih =>
    cases n with
    | nil => rfl
    | cons q n =>
      rw [Monomial.compare, ih, compareText_eq_compare, List.compareLex_cons_cons]
      rfl

instance : Std.TransCmp Monomial.compare := Monomial.compare_eq_compareLex ▸ inferInstance

instance : Std.LawfulEqCmp Monomial.compare := Monomial.compare_eq_compareLex ▸ inferInstance

/-! ## Monomials -/

namespace Monomial

/-- The exponents of a monomial. -/
noncomputable def exponents (m : Monomial) : String →₀ ℕ := Entries.toFinsupp m

/-- A product with a power adds its exponent. -/
lemma exponents_insert (x : String) (n : ℕ) (m : Monomial) :
    exponents (insert x n m) = Finsupp.single x n + exponents m := by
  unfold exponents
  induction m with
  | nil => simp [insert]
  | cons p m ih =>
    obtain ⟨y, k⟩ := p
    rw [insert]
    cases hcmp : compareText x y with
    | lt => simp
    | eq =>
      obtain rfl := Std.LawfulEqCmp.eq_of_compare hcmp
      simp [add_assoc]
    | gt => simp [ih, add_left_comm]

/-- A product adds the exponents. -/
lemma exponents_mul (a b : Monomial) : exponents (a.mul b) = exponents a + exponents b := by
  induction a with
  | nil => simp [mul, exponents]
  | cons p a ih =>
    have hcons : exponents (p :: a) = Finsupp.single p.1 p.2 + exponents a :=
      Entries.toFinsupp_cons p a
    rw [hcons, add_assoc, ← ih]
    exact exponents_insert _ _ _

/-- The list of a monomial is canonical. -/
abbrev Canonical (m : Monomial) : Prop := Entries.Canonical compareText m

/-- A product with a proper power is an insertion, as exponents do not cancel. -/
lemma insert_eq {n : ℕ} (hn : n ≠ 0) (x : String) (m : Monomial) :
    insert x n m = Entries.insert compareText x n m := by
  induction m with
  | nil => rw [insert, Entries.insert, if_neg hn]
  | cons p m ih =>
    have hsum : n + p.2 ≠ 0 := by omega
    cases hcmp : compareText x p.1 <;>
      simp only [insert, Entries.insert, hcmp, if_neg hn, if_neg hsum, ih]

/-- A product of canonical monomials is canonical. -/
lemma Canonical.mul {a b : Monomial} (ha : a.Canonical) (hb : b.Canonical) :
    (a.mul b).Canonical := by
  induction a with
  | nil => exact hb
  | cons p a ih =>
    obtain ⟨-, hp, ha⟩ := Entries.canonical_cons.mp ha
    have hinsert : Monomial.mul (p :: a) b = insert p.1 p.2 (Monomial.mul a b) := rfl
    rw [hinsert, insert_eq hp]
    exact (ih ha).insert _ _

/-- A canonical monomial is determined by its exponents. -/
lemma Canonical.ext {a b : Monomial} (ha : a.Canonical) (hb : b.Canonical)
    (h : a.exponents = b.exponents) : a = b :=
  Entries.Canonical.ext ha hb fun x => DFunLike.congr_fun h x

end Monomial

/-! ## Polynomials -/

namespace Polynomial

variable {R : Type u} [CommSemiring R]

/-- The polynomial with these coefficients of monomials. -/
noncomputable def ofCoefficients : (Monomial →₀ R) →+ MvPolynomial String R :=
  Finsupp.liftAddHom fun m => (monomial m.exponents).toAddMonoidHom

/-- The polynomial that a list of terms stands for. -/
noncomputable def toMvPolynomial (p : Polynomial R) : MvPolynomial String R :=
  ofCoefficients (Entries.toFinsupp p)

/-- A single coefficient is that of its monomial. -/
@[simp] lemma ofCoefficients_single (m : Monomial) (c : R) :
    ofCoefficients (Finsupp.single m c) = monomial m.exponents c := by
  simp [ofCoefficients]

/-- No terms stand for zero. -/
@[simp] lemma toMvPolynomial_nil : toMvPolynomial ([] : Polynomial R) = 0 := by
  simp [toMvPolynomial]

/-- One more term is added. -/
@[simp] lemma toMvPolynomial_cons (t : Monomial × R) (p : Polynomial R) :
    toMvPolynomial (t :: p) = monomial t.1.exponents t.2 + toMvPolynomial p := by
  simp [toMvPolynomial]

/-- The list of a variable stands for the variable. -/
lemma toMvPolynomial_ofVariable (x : String) :
    toMvPolynomial (ofVariable x : Polynomial R) = MvPolynomial.X x := by
  simp [ofVariable, Monomial.exponents, MvPolynomial.X]

/-- The list of a polynomial is canonical, and so are its monomials. -/
structure Canonical (p : Polynomial R) : Prop where
  /-- The terms are in order and have coefficients other than zero. -/
  entries : Entries.Canonical Monomial.compare p
  /-- The monomials are canonical. -/
  monomials : ∀ t ∈ p, t.1.Canonical

/-- The empty list is canonical. -/
lemma canonical_nil : Canonical ([] : Polynomial R) := ⟨Entries.canonical_nil, by simp⟩

/-- The list of a variable is canonical. -/
lemma canonical_ofVariable [Nontrivial R] (x : String) :
    (ofVariable x : Polynomial R).Canonical := by
  have hmonomial : Monomial.Canonical [(x, 1)] :=
    Entries.canonical_cons.mpr ⟨by simp, one_ne_zero, Entries.canonical_nil⟩
  refine ⟨Entries.canonical_cons.mpr ⟨by simp, one_ne_zero, Entries.canonical_nil⟩, ?_⟩
  simpa [ofVariable] using hmonomial

/-! ### Arithmetic -/

section Arithmetic

variable [DecidableEq R]

/-- Adding a term is an insertion. -/
lemma addTerm_eq (m : Monomial) (c : R) (p : Polynomial R) :
    addTerm m c p = Entries.insert Monomial.compare m c p := by
  induction p with
  | nil => rfl
  | cons t p ih =>
    cases hcmp : Monomial.compare m t.1 <;> simp only [addTerm, Entries.insert, hcmp, ih]

/-- Adding a term adds its monomial. -/
lemma toMvPolynomial_addTerm (m : Monomial) (c : R) (p : Polynomial R) :
    toMvPolynomial (addTerm m c p) = monomial m.exponents c + toMvPolynomial p := by
  rw [addTerm_eq, toMvPolynomial, Entries.toFinsupp_insert, map_add, ofCoefficients_single,
    toMvPolynomial]

/-- The sum of lists is the sum of polynomials. -/
lemma toMvPolynomial_add (p q : Polynomial R) :
    toMvPolynomial (add p q) = toMvPolynomial p + toMvPolynomial q := by
  induction p with
  | nil => simp [add]
  | cons t p ih =>
    have hadd : add (t :: p) q = addTerm t.1 t.2 (add p q) := rfl
    rw [hadd, toMvPolynomial_addTerm, ih, toMvPolynomial_cons, add_assoc]

/-- A multiple by a term that is added is the product with its monomial. -/
lemma toMvPolynomial_addMultiple (m : Monomial) (c : R) (p q : Polynomial R) :
    toMvPolynomial (addMultiple m c p q) =
      monomial m.exponents c * toMvPolynomial p + toMvPolynomial q := by
  induction p with
  | nil => simp [addMultiple]
  | cons t p ih =>
    have hadd : addMultiple m c (t :: p) q =
        addTerm (m.mul t.1) (c * t.2) (addMultiple m c p q) := rfl
    rw [hadd, toMvPolynomial_addTerm, ih, toMvPolynomial_cons, Monomial.exponents_mul, mul_add,
      MvPolynomial.monomial_mul, add_assoc]

/-- The product of lists is the product of polynomials. -/
lemma toMvPolynomial_mul (p q : Polynomial R) :
    toMvPolynomial (mul p q) = toMvPolynomial p * toMvPolynomial q := by
  induction p with
  | nil => simp [mul]
  | cons t p ih =>
    have hmul : mul (t :: p) q = addMultiple t.1 t.2 q (mul p q) := rfl
    rw [hmul, toMvPolynomial_addMultiple, ih, toMvPolynomial_cons, add_mul]

/-- A constant list stands for the constant polynomial. -/
lemma toMvPolynomial_constant (c : R) : toMvPolynomial (constant c) = MvPolynomial.C c := by
  rw [constant, toMvPolynomial_addTerm, toMvPolynomial_nil, add_zero]
  simp [Monomial.exponents]

/-- A sum or product of lists is that of polynomials. -/
lemma toMvPolynomial_apply (op : Op) (p q : Polynomial R) :
    toMvPolynomial (apply op p q) = op.apply (toMvPolynomial p) (toMvPolynomial q) := by
  cases op with
  | add => exact toMvPolynomial_add p q
  | mul => exact toMvPolynomial_mul p q

/-! ### Canonical lists -/

variable {p q : Polynomial R}

/-- Adding a term with a canonical monomial keeps a list canonical. -/
lemma Canonical.addTerm {m : Monomial} (hm : m.Canonical) (c : R) (hp : p.Canonical) :
    (addTerm m c p).Canonical := by
  rw [addTerm_eq]
  refine ⟨hp.entries.insert m c, fun t ht => ?_⟩
  rcases List.mem_cons.mp (Entries.keys_insert_subset m c p (List.mem_map_of_mem ht)) with h | h
  · rwa [h]
  · obtain ⟨s, hs, h⟩ := List.mem_map.mp h
    rw [← h]
    exact hp.monomials s hs

/-- A sum with a canonical list is canonical. -/
lemma Canonical.add (hp : ∀ t ∈ p, t.1.Canonical) (hq : q.Canonical) : (add p q).Canonical := by
  induction p with
  | nil => exact hq
  | cons t p ih =>
    rw [List.forall_mem_cons] at hp
    exact (ih hp.2).addTerm hp.1 t.2

/-- A canonical list stays canonical when a multiple of another by a term is added. -/
lemma Canonical.addMultiple {m : Monomial} (hm : m.Canonical) (c : R)
    (hp : ∀ t ∈ p, t.1.Canonical) (hq : q.Canonical) : (addMultiple m c p q).Canonical := by
  induction p with
  | nil => exact hq
  | cons t p ih =>
    rw [List.forall_mem_cons] at hp
    exact (ih hp.2).addTerm (hm.mul hp.1) (c * t.2)

/-- A product of lists with canonical monomials is canonical. -/
lemma canonical_mul (hp : ∀ t ∈ p, t.1.Canonical) (hq : ∀ t ∈ q, t.1.Canonical) :
    (mul p q).Canonical := by
  induction p with
  | nil => exact canonical_nil
  | cons t p ih =>
    rw [List.forall_mem_cons] at hp
    exact Canonical.addMultiple hp.1 t.2 hq (ih hp.2)

/-- A constant list is canonical. -/
lemma canonical_constant (c : R) : (constant c).Canonical :=
  canonical_nil.addTerm Entries.canonical_nil c

/-- A sum or product of canonical lists is canonical. -/
lemma Canonical.apply (op : Op) (hp : p.Canonical) (hq : q.Canonical) :
    (apply op p q).Canonical := by
  cases op with
  | add => exact .add hp.monomials hq
  | mul => exact canonical_mul hp.monomials hq.monomials

end Arithmetic

/-! ### Uniqueness -/

variable {p q : Polynomial R}

/-- The coefficient of a canonical monomial is its value in the list.

**Proof sketch.** Different canonical monomials have different exponents, so only an entry of the
monomial itself counts. -/
lemma coeff_toMvPolynomial {m : Monomial} (hm : m.Canonical) (hp : ∀ t ∈ p, t.1.Canonical) :
    (toMvPolynomial p).coeff m.exponents = Entries.toFinsupp p m := by
  induction p with
  | nil => simp
  | cons t p ih =>
    rw [List.forall_mem_cons] at hp
    rw [toMvPolynomial_cons, MvPolynomial.coeff_add, ih hp.2, Entries.toFinsupp_cons,
      Finsupp.add_apply, MvPolynomial.coeff_monomial, Finsupp.single_apply]
    have hiff : t.1.exponents = m.exponents ↔ t.1 = m :=
      ⟨hp.1.ext hm, fun h => h ▸ rfl⟩
    simp only [hiff]

/-- **The sorted form of a polynomial is unique.** -/
theorem Canonical.eq_of_toMvPolynomial_eq (hp : p.Canonical) (hq : q.Canonical)
    (h : toMvPolynomial p = toMvPolynomial q) : p = q := by
  refine hp.entries.ext hq.entries fun m => ?_
  by_cases hm : m.Canonical
  · rw [← coeff_toMvPolynomial hm hp.monomials, ← coeff_toMvPolynomial hm hq.monomials, h]
  · have hzero {r : Polynomial R} (hr : r.Canonical) : Entries.toFinsupp r m = 0 :=
      Entries.toFinsupp_eq_zero fun t ht heq => hm (heq ▸ hr.monomials t ht)
    rw [hzero hp, hzero hq]

/-! ### Expressions -/

/-- The list of a finite constant is constant. -/
lemma ofExpr?_constant (value : Binary64) :
    ofExpr? (.constant value) = value.toRat?.map constant := rfl

/-- A variable has a list. -/
lemma ofExpr?_var (name : Name) : ofExpr? (.var name) = some (ofVariable name.text) := rfl

/-- The list of a sum or product is made of the lists of its operands. -/
lemma ofExpr?_binary (op : Op) (left right : Expr Binary64) :
    ofExpr? (.binary op left right) =
      (ofExpr? left).bind fun p => (ofExpr? right).map (apply op p) := by
  -- One step of the definition, which leaves the match on the two lists.
  conv_lhs => whnf
  cases ofExpr? left <;> cases ofExpr? right <;> rfl

/-- The list of an expression is canonical and stands for the polynomial that the expression denotes
when its constants are exact. -/
theorem canonical_of_ofExpr? {e : Expr Binary64} {p : Polynomial ℚ} (h : ofExpr? e = some p) :
    p.Canonical ∧ toMvPolynomial p = (e.map Binary64.exact).toPolynomial := by
  induction e generalizing p with
  | constant value =>
    rw [ofExpr?_constant] at h
    obtain ⟨q, hq, rfl⟩ := Option.map_eq_some_iff.mp h
    have hexact : value.exact = q := by rw [Binary64.exact, hq, Option.getD_some]
    rw [Expr.map, hexact]
    exact ⟨canonical_constant q, toMvPolynomial_constant q⟩
  | var name =>
    rw [ofExpr?_var] at h
    obtain rfl := Option.some.inj h
    exact ⟨canonical_ofVariable name.text, toMvPolynomial_ofVariable name.text⟩
  | binary op left right ihl ihr =>
    rw [ofExpr?_binary] at h
    obtain ⟨l, hl, h⟩ := Option.bind_eq_some_iff.mp h
    obtain ⟨r, hr, rfl⟩ := Option.map_eq_some_iff.mp h
    obtain ⟨hlcanonical, hleq⟩ := ihl hl
    obtain ⟨hrcanonical, hreq⟩ := ihr hr
    refine ⟨hlcanonical.apply op hrcanonical, ?_⟩
    rw [toMvPolynomial_apply, hleq, hreq]
    rfl

end Polynomial

end SumProduct
