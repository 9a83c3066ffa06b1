import Mathlib.Algebra.BigOperators.Group.List.Basic
import SumProduct.Algebra.Formula
import SumProduct.Proofs.Algebra.Scalar
import SumProduct.Proofs.Expr.Evaluation
import SumProduct.Proofs.Expr.Position

/-!
# Which formulas are expressions

A formula is read as an expression exactly if everything that reading it comes to can be read:
finite numbers, symbols whose names are words, sums, products, and powers whose exponents are
positive whole numbers. Otherwise the first obstacle from the left is reported. What is read
has the same variables and, where the numbers are not rounded, the same value.

## Main definitions

* `SumProduct.Formula.reached` — the parts of a formula that reading it comes to.
* `SumProduct.Formula.Readable` — the parts that are no obstacle to reading.
* `SumProduct.Formula.refusal?` — how an obstacle is reported.
* `SumProduct.Formula.value?` — the value of a formula at a point.
* `SumProduct.Formula.exactAt` — the value of an expression at a point.
* `SumProduct.Formula.HasExactNumbers` — the formulas without a number that has to be rounded.

## Main results

* `SumProduct.Formula.induct` — induction over formulas.
* `SumProduct.Formula.faultOf?_toExpr` — the first obstacle is what is reported.
* `SumProduct.Formula.exists_toExpr_of_mem_reached` — the parts are read as subtrees.
* `SumProduct.Formula.value?_eq_exactAt` — what is read has the same value.
* `SumProduct.Formula.toExpr_decides_readable` — reading a formula.
-/

namespace SumProduct

namespace Formula

/-! ## Formulas part by part -/

/-- Induction over formulas, with what is to be shown known of every argument. -/
theorem induct {motive : Formula → Prop} (number : ∀ n, motive (number n))
    (symbol : ∀ name, motive (symbol name))
    (power : ∀ base exponent, motive base → motive (power base exponent))
    (product : ∀ args, (∀ f ∈ args, motive f) → motive (product args))
    (sum : ∀ args, (∀ f ∈ args, motive f) → motive (sum args))
    (foreign : ∀ object, motive (foreign object)) (s : Formula) : motive s := by
  refine Formula.rec (motive_1 := motive) (motive_2 := fun args => ∀ f ∈ args, motive f) number
    symbol (fun base exponent hbase _ => power base exponent hbase) product sum foreign
    (by simp) (fun head tail hhead htail f hf => ?_) s
  rcases List.mem_cons.mp hf with rfl | hf
  · exact hhead
  · exact htail f hf

mutual

/-- The parts of a formula that reading it comes to, each before its own parts. Of a power the
exponent is looked at together with the power. -/
def reached : Formula → List Formula
  | number n => [number n]
  | symbol name => [symbol name]
  | power base exponent => power base exponent :: reached base
  | product args => product args :: reachedAll args
  | sum args => sum args :: reachedAll args
  | foreign object => [foreign object]

/-- The parts of several formulas. -/
def reachedAll : List Formula → List Formula
  | [] => []
  | f :: rest => reached f ++ reachedAll rest

end

/-- The parts of several formulas are those of each. -/
lemma mem_reachedAll_iff {g : Formula} {args : List Formula} :
    g ∈ reachedAll args ↔ ∃ f ∈ args, g ∈ f.reached := by
  induction args with
  | nil => simp [reachedAll]
  | cons f rest ih => simp [reachedAll, ih]

/-! ## Obstacles -/

/-- A part of a formula is no obstacle to reading: a finite number, a symbol whose name is a word, a
sum, a product, or a power whose exponent is a positive whole number. -/
def Readable : Formula → Prop
  | number n => n.isFinite = true
  | symbol name => isWord name.toList = true
  | power _ exponent => ∃ k : ℕ, 0 < k ∧ exponent = number (.exact k)
  | product _ => True
  | sum _ => True
  | foreign _ => False

/-- How a part is reported that is an obstacle to reading. -/
def refusal? : Formula → Option FormulaError
  | number n => if n.isFinite then none else some (.unsupportedNumber n.text)
  | symbol name =>
    if isWord name.toList then none else some (.construction (.notAName (quoted name)))
  | power _ exponent => if (positiveExponent? exponent).isSome then none else some .unsupportedPower
  | product _ => none
  | sum _ => none
  | foreign object => some (.unsupported object)

/-- The exponents that are positive whole numbers. -/
lemma positiveExponent?_eq_some_iff {exponent : Formula} {k : ℕ} :
    positiveExponent? exponent = some k ↔ 0 < k ∧ exponent = number (.exact k) := by
  constructor
  · intro h
    unfold positiveExponent? at h
    split at h
    · rename_i q
      split_ifs at h with hq
      cases h
      have hnum : q = (q.num.toNat : ℚ) := by
        rw [← Int.cast_natCast, Int.toNat_of_nonneg hq.2.le]
        exact (Rat.coe_int_num_of_den_eq_one hq.1).symm
      exact ⟨by omega, congrArg (fun r => number (.exact r)) hnum⟩
    · cases h
  · rintro ⟨hk, rfl⟩
    simp [positiveExponent?, hk]

/-- Exactly the parts that can be read are not reported. -/
lemma refusal?_eq_none_iff {g : Formula} : g.refusal? = none ↔ g.Readable := by
  cases g with
  | number n => simp [refusal?, Readable]
  | symbol name => simp [refusal?, Readable]
  | power base exponent =>
    have hreadable : (power base exponent).Readable ↔ ∃ k, positiveExponent? exponent = some k := by
      simp only [Readable, positiveExponent?_eq_some_iff]
    rw [hreadable, ← Option.isSome_iff_exists, refusal?]
    split_ifs with h <;> simp [h]
  | product args => simp [refusal?, Readable]
  | sum args => simp [refusal?, Readable]
  | foreign object => simp [refusal?, Readable]

/-- Of several formulas the first obstacle of all is reported if this is so of each. -/
lemma faultOf?_toExprs {args : List Formula}
    (h : ∀ f ∈ args, faultOf? f.toExpr = f.reached.findSome? refusal?) :
    faultOf? (toExprs args) = (reachedAll args).findSome? refusal? := by
  induction args with
  | nil => rfl
  | cons f rest ih =>
    have hfirst := h f List.mem_cons_self
    have hrest := ih fun g hg => h g (List.mem_cons_of_mem f hg)
    rw [reachedAll, List.findSome?_append, ← hfirst, ← hrest, toExprs]
    cases f.toExpr with
    | error fault => rfl
    | ok e => exact faultOf?_map _ _

/-- **The fault of reading a formula is the first obstacle from the left.** -/
theorem faultOf?_toExpr (s : Formula) : faultOf? s.toExpr = s.reached.findSome? refusal? := by
  induction s using induct with
  | number n =>
    simp only [toExpr, ofScalar, reached, refusal?, List.findSome?_singleton]
    split_ifs <;> rfl
  | symbol name =>
    simp only [toExpr, Expr.ofName, Name.ofText?, reached, refusal?, List.findSome?_singleton]
    split_ifs <;> rfl
  | power base exponent ih =>
    rw [toExpr, reached, List.findSome?_cons, refusal?]
    cases positiveExponent? exponent with
    | none => rfl
    | some k => simp [ih]
  | product args ih =>
    rw [toExpr, faultOf?_map, faultOf?_toExprs ih, reached, List.findSome?_cons, refusal?]
  | sum args ih =>
    rw [toExpr, faultOf?_map, faultOf?_toExprs ih, reached, List.findSome?_cons, refusal?]
  | foreign object => simp [toExpr, reached, refusal?, faultOf?]

/-- The exponent of a power is looked at before its base, and both before what follows. -/
example : (sum [power (symbol "x_1") (number (.exact (-1))), number .nan]).toExpr =
    .error .unsupportedPower := rfl

/-- A formula is read exactly if every part of it can be read. -/
lemma exists_toExpr_iff (s : Formula) : (∃ e, s.toExpr = .ok e) ↔ ∀ g ∈ s.reached, g.Readable := by
  rw [← faultOf?_eq_none_iff, faultOf?_toExpr, List.findSome?_eq_none_iff]
  simp only [refusal?_eq_none_iff]

/-! ## What is read -/

section Chain

variable {op : Op} {unit : Binary64} {es : List (Expr Binary64)}

/-- Copies of an expression are the chain of as many of it. -/
lemma repeated_eq_chain (b : Expr Binary64) (count : ℕ) :
    repeated b count = chain .mul 1 (List.replicate (count + 1) b) := by
  induction count with
  | zero => rfl
  | succ count ih =>
    rw [repeated, ih, List.replicate_succ, List.replicate_succ, chain, chain,
      List.replicate_succ', List.foldl_append]
    rfl

/-- What a subtree of an operand lists is listed by the chain. -/
lemma mem_postorder_foldl {g first : Expr Binary64} {rest : List (Expr Binary64)}
    (h : g ∈ first.postorder ∨ ∃ e ∈ rest, g ∈ e.postorder) :
    g ∈ (rest.foldl (.binary op) first).postorder := by
  induction rest generalizing first with
  | nil => simpa using h
  | cons e rest ih =>
    refine ih ?_
    rw [Expr.postorder_binary, List.mem_append, List.mem_append]
    rcases h with hfirst | ⟨e', he', hg⟩
    · exact .inl (.inl (.inl hfirst))
    · rcases List.mem_cons.mp he' with rfl | he'
      · exact .inl (.inl (.inr hg))
      · exact .inr ⟨e', he', hg⟩

/-- The subtrees of the operands are subtrees of the chain. -/
lemma mem_postorder_chain {g e : Expr Binary64} (he : e ∈ es) (hg : g ∈ e.postorder) :
    g ∈ (chain op unit es).postorder := by
  cases es with
  | nil => cases he
  | cons first rest =>
    refine mem_postorder_foldl ?_
    rcases List.mem_cons.mp he with rfl | he
    · exact .inl hg
    · exact .inr ⟨e, he, hg⟩

/-- The variables of a chain are those of its operands. -/
lemma occurrences_chain : (chain op unit es).occurrences = es.flatMap Expr.occurrences := by
  cases es with
  | nil => simp [chain]
  | cons first rest =>
    rw [chain, List.flatMap_cons]
    induction rest generalizing first with
    | nil => simp
    | cons e rest ih => simp [ih]

end Chain

/-- The expressions of several formulas are those of each. -/
lemma toExprs_eq_ok_iff {args : List Formula} {es : List (Expr Binary64)} :
    toExprs args = .ok es ↔ List.Forall₂ (fun f e => f.toExpr = .ok e) args es := by
  induction args generalizing es with
  | nil => simp [toExprs, eq_comm]
  | cons f rest ih =>
    rw [toExprs]
    cases es with
    | nil =>
      cases f.toExpr with
      | error fault => simp
      | ok e => cases toExprs rest <;> simp [Except.map]
    | cons e es =>
      rw [List.forall₂_cons, ← ih]
      cases f.toExpr with
      | error fault => simp
      | ok e' => cases toExprs rest <;> simp [Except.map]

/-- A power is read as the chain of as many copies of its base as the exponent says. -/
lemma toExpr_power_eq_ok_iff {base exponent : Formula} {e : Expr Binary64} :
    (power base exponent).toExpr = .ok e ↔ ∃ k b, 0 < k ∧ exponent = number (.exact (k : ℕ)) ∧
      base.toExpr = .ok b ∧ e = chain .mul 1 (List.replicate k b) := by
  rw [toExpr]
  constructor
  · intro h
    cases hk : positiveExponent? exponent with
    | none => simp [hk] at h
    | some k =>
      obtain ⟨hpos, hexponent⟩ := positiveExponent?_eq_some_iff.mp hk
      cases hb : base.toExpr with
      | error fault => simp [hk, hb, Except.map] at h
      | ok b =>
        refine ⟨k, b, hpos, hexponent, rfl, ?_⟩
        simp only [hk, hb, Except.map, Except.ok.injEq] at h
        rw [← h, repeated_eq_chain, Nat.sub_add_cancel hpos]
  · rintro ⟨k, b, hpos, hexponent, hb, rfl⟩
    rw [positiveExponent?_eq_some_iff.mpr ⟨hpos, hexponent⟩, hb]
    simp only [Except.map]
    rw [repeated_eq_chain, Nat.sub_add_cancel hpos]

/-- A sum or product that is read is the chain of what its arguments are read as. -/
lemma exists_of_map_chain {args : List Formula} {op : Op} {unit : Binary64} {e : Expr Binary64}
    (h : (toExprs args).map (chain op unit) = .ok e) :
    ∃ es, List.Forall₂ (fun f e => f.toExpr = .ok e) args es ∧ e = chain op unit es := by
  cases hes : toExprs args with
  | error fault => simp [hes, Except.map] at h
  | ok es =>
    simp only [hes, Except.map, Except.ok.injEq] at h
    exact ⟨es, toExprs_eq_ok_iff.mp hes, h.symm⟩

/-- In lists that are related element by element, each element of the one is related to an element
of the other. -/
lemma exists_mem_of_forall₂ {α β : Type} {R : α → β → Prop} {as : List α} {bs : List β}
    (h : List.Forall₂ R as bs) {a : α} (ha : a ∈ as) : ∃ b ∈ bs, R a b := by
  induction h with
  | nil => cases ha
  | cons hfirst _ ih =>
    rcases List.mem_cons.mp ha with rfl | ha
    · exact ⟨_, List.mem_cons_self, hfirst⟩
    · obtain ⟨b, hb, hrelated⟩ := ih ha
      exact ⟨b, List.mem_cons_of_mem _ hb, hrelated⟩

section Reading

variable {args : List Formula} {es : List (Expr Binary64)}

/-- The parts of arguments are read as subtrees of the chain if this is so of each argument. -/
lemma exists_mem_postorder_chain {op : Op} {unit : Binary64} {g : Formula}
    (h : List.Forall₂ (fun f e => f.toExpr = .ok e) args es) (hg : g ∈ reachedAll args)
    (ih : ∀ f ∈ args, ∀ e, f.toExpr = .ok e → g ∈ f.reached →
      ∃ t ∈ e.postorder, g.toExpr = .ok t) :
    ∃ t ∈ (chain op unit es).postorder, g.toExpr = .ok t := by
  obtain ⟨f, hf, hg⟩ := mem_reachedAll_iff.mp hg
  obtain ⟨e, he, hread⟩ := exists_mem_of_forall₂ h hf
  obtain ⟨t, ht, hpart⟩ := ih f hf e hread hg
  exact ⟨t, mem_postorder_chain he ht, hpart⟩

/-- **Every part of a formula that is read is read as a subtree.** -/
theorem exists_toExpr_of_mem_reached {s g : Formula} {e : Expr Binary64} (h : s.toExpr = .ok e)
    (hg : g ∈ s.reached) : ∃ t ∈ e.postorder, g.toExpr = .ok t := by
  induction s using induct generalizing e with
  | number n =>
    obtain rfl := List.mem_singleton.mp hg
    exact ⟨e, Expr.self_mem_postorder e, h⟩
  | symbol name =>
    obtain rfl := List.mem_singleton.mp hg
    exact ⟨e, Expr.self_mem_postorder e, h⟩
  | power base exponent ih =>
    rcases List.mem_cons.mp hg with rfl | hg
    · exact ⟨e, Expr.self_mem_postorder e, h⟩
    · obtain ⟨k, b, hk, -, hb, rfl⟩ := toExpr_power_eq_ok_iff.mp h
      obtain ⟨t, ht, hpart⟩ := ih hb hg
      exact ⟨t, mem_postorder_chain (List.mem_replicate.mpr ⟨hk.ne', rfl⟩) ht, hpart⟩
  | product args ih =>
    rcases List.mem_cons.mp hg with rfl | hg
    · exact ⟨e, Expr.self_mem_postorder e, h⟩
    · obtain ⟨es, hes, rfl⟩ := exists_of_map_chain h
      exact exists_mem_postorder_chain hes hg fun f hf e hread hg => ih f hf hread hg
  | sum args ih =>
    rcases List.mem_cons.mp hg with rfl | hg
    · exact ⟨e, Expr.self_mem_postorder e, h⟩
    · obtain ⟨es, hes, rfl⟩ := exists_of_map_chain h
      exact exists_mem_postorder_chain hes hg fun f hf e hread hg => ih f hf hread hg
  | foreign object => cases h

/-- The variables of a chain are the symbols of the arguments if this is so of each argument. -/
lemma mem_occurrences_chain_iff {op : Op} {unit : Binary64} {n : Name}
    (h : List.Forall₂ (fun f e => f.toExpr = .ok e) args es)
    (ih : ∀ f ∈ args, ∀ e, f.toExpr = .ok e → (n ∈ e.occurrences ↔ symbol n.text ∈ f.reached)) :
    n ∈ (chain op unit es).occurrences ↔ symbol n.text ∈ reachedAll args := by
  rw [occurrences_chain, List.mem_flatMap, mem_reachedAll_iff]
  constructor
  · rintro ⟨e, he, hn⟩
    obtain ⟨f, hf, hread⟩ := exists_mem_of_forall₂ h.flip he
    exact ⟨f, hf, (ih f hf e hread).mp hn⟩
  · rintro ⟨f, hf, hn⟩
    obtain ⟨e, he, hread⟩ := exists_mem_of_forall₂ h hf
    exact ⟨e, he, (ih f hf e hread).mpr hn⟩

/-- The variables of what is read are the symbols of the formula. -/
lemma mem_occurrences_iff {s : Formula} {e : Expr Binary64} {n : Name} (h : s.toExpr = .ok e) :
    n ∈ e.occurrences ↔ symbol n.text ∈ s.reached := by
  induction s using induct generalizing e with
  | number m =>
    simp only [toExpr, ofScalar] at h
    split_ifs at h
    cases h
    simp [reached]
  | symbol name =>
    simp only [toExpr, Expr.ofName, Name.ofText?] at h
    split_ifs at h
    cases h
    cases n
    simp [reached]
  | power base exponent ih =>
    obtain ⟨k, b, hk, -, hb, rfl⟩ := toExpr_power_eq_ok_iff.mp h
    rw [occurrences_chain, reached, List.mem_flatMap]
    simp [ih hb, hk.ne']
  | product args ih =>
    obtain ⟨es, hes, rfl⟩ := exists_of_map_chain h
    rw [mem_occurrences_chain_iff hes fun f hf e hread => ih f hf hread]
    simp [reached]
  | sum args ih =>
    obtain ⟨es, hes, rfl⟩ := exists_of_map_chain h
    rw [mem_occurrences_chain_iff hes fun f hf e hread => ih f hf hread]
    simp [reached]
  | foreign object => cases h

end Reading

/-! ## Values -/

section Value

variable {A : Type} [CommSemiring A] [Algebra ℚ A] (point : String → A)

/-- The natural number that the exponent of a power is. -/
def naturalExponent? : Formula → Option ℕ
  | number n => n.value?.bind fun q => if q = q.num.toNat then some q.num.toNat else none
  | _ => none

mutual

/-- The value of a formula whose numbers are finite and whose exponents are natural numbers, where
`point` gives the values of the symbols. -/
def value? : Formula → Option A
  | number n => n.value?.map (algebraMap ℚ A)
  | symbol name => some (point name)
  | power base exponent =>
    match naturalExponent? exponent with
    | some k => (value? base).map (· ^ k)
    | none => none
  | product args => (values? args).map List.prod
  | sum args => (values? args).map List.sum
  | foreign _ => none

/-- The values of several formulas. -/
def values? : List Formula → Option (List A)
  | [] => some []
  | f :: rest =>
    match value? f, values? rest with
    | some a, some as => some (a :: as)
    | _, _ => none

end

/-- The value of what is read, with the constants as they are. -/
noncomputable def exactAt (e : Expr Binary64) : A :=
  MvPolynomial.eval point (e.map fun x => algebraMap ℚ A x.exact).toPolynomial

/-- The exact value of an operation is the operation on the exact values. -/
lemma exactAt_binary (op : Op) (left right : Expr Binary64) :
    exactAt point (.binary op left right) =
      op.apply (exactAt point left) (exactAt point right) := by
  rw [exactAt, Expr.map, Expr.toPolynomial, Expr.eval_apply]
  rfl

/-- The exact value is what evaluation gives. -/
lemma evaluateWith_eq_exactAt (e : Expr Binary64) :
    (e.map fun x => algebraMap ℚ A x.exact).evaluateWith
      (fun n => (.ok (point n.text) : Except Empty A)) = .ok (exactAt point e) :=
  Expr.evaluateWith_eq_eval _ _ point fun _ _ => rfl

/-- The exact value of a chain of products is the product of the exact values. -/
lemma exactAt_chain_mul (es : List (Expr Binary64)) :
    exactAt point (chain .mul 1 es) = (es.map (exactAt point)).prod := by
  cases es with
  | nil => simp [chain, exactAt, Expr.map, Expr.toPolynomial, Binary64.exact_one]
  | cons first rest =>
    rw [chain, List.map_cons, List.prod_cons]
    induction rest generalizing first with
    | nil => simp
    | cons e rest ih =>
      rw [List.foldl_cons, ih, exactAt_binary, List.map_cons, List.prod_cons, Op.apply, mul_assoc]

/-- The exact value of a chain of sums is the sum of the exact values. -/
lemma exactAt_chain_add (es : List (Expr Binary64)) :
    exactAt point (chain .add 0 es) = (es.map (exactAt point)).sum := by
  cases es with
  | nil => simp [chain, exactAt, Expr.map, Expr.toPolynomial, Binary64.exact_zero]
  | cons first rest =>
    rw [chain, List.map_cons, List.sum_cons]
    induction rest generalizing first with
    | nil => simp
    | cons e rest ih =>
      rw [List.foldl_cons, ih, exactAt_binary, List.map_cons, List.sum_cons, Op.apply, add_assoc]

/-- The numbers that reading a formula comes to are binary64 numbers. -/
def HasExactNumbers (s : Formula) : Prop :=
  ∀ n, number n ∈ s.reached → ∃ x : Binary64, x.isFinite = true ∧ n.value? = some x.exact

/-- The values of several formulas are those of what they are read as if this is so of each. -/
lemma values?_eq_exactAt {args : List Formula} {es : List (Expr Binary64)}
    (h : List.Forall₂ (fun f e => f.toExpr = .ok e) args es)
    (ih : ∀ f ∈ args, ∀ e, f.toExpr = .ok e → f.value? point = some (exactAt point e)) :
    values? point args = some (es.map (exactAt point)) := by
  induction h with
  | nil => rfl
  | cons hfirst _ ihrest =>
    have hvalue := ih _ List.mem_cons_self _ hfirst
    have hrest := ihrest fun f hf => ih f (List.mem_cons_of_mem _ hf)
    rw [values?, hvalue, hrest]
    rfl

/-- The arguments of a formula have exact numbers if the formula has. -/
lemma HasExactNumbers.of_mem {s f : Formula} {args : List Formula} (h : s.HasExactNumbers)
    (hs : ∀ g ∈ reachedAll args, g ∈ s.reached) (hf : f ∈ args) : f.HasExactNumbers :=
  fun n hn => h n (hs _ (mem_reachedAll_iff.mpr ⟨f, hf, hn⟩))

/-- **What is read has the value of the formula, if no number is rounded.** -/
theorem value?_eq_exactAt {s : Formula} {e : Expr Binary64} (h : s.toExpr = .ok e)
    (hs : s.HasExactNumbers) : s.value? point = some (exactAt point e) := by
  induction s using induct generalizing e with
  | number n =>
    obtain ⟨x, hx, hn⟩ := hs n List.mem_cons_self
    obtain ⟨-, hexact⟩ := Scalar.exact_toBinary64 hx hn
    simp only [toExpr, ofScalar] at h
    split_ifs at h
    cases h
    rw [value?, hn, Option.map_some, exactAt, Expr.map, Expr.toPolynomial, MvPolynomial.eval_C,
      hexact]
  | symbol name =>
    simp only [toExpr, Expr.ofName, Name.ofText?] at h
    split_ifs at h
    cases h
    simp [value?, exactAt, Expr.map, Expr.toPolynomial]
  | power base exponent ih =>
    obtain ⟨k, b, hk, rfl, hb, rfl⟩ := toExpr_power_eq_ok_iff.mp h
    have hbase := ih hb fun n hn => hs n (List.mem_cons_of_mem _ hn)
    have hexponent : naturalExponent? (number (.exact k)) = some k := by
      simp [naturalExponent?, Scalar.value?]
    rw [value?, hexponent, hbase, exactAt_chain_mul, List.map_replicate, List.prod_replicate]
    rfl
  | product args ih =>
    obtain ⟨es, hes, rfl⟩ := exists_of_map_chain h
    have hargs := values?_eq_exactAt point hes fun f hf e hread =>
      ih f hf hread (hs.of_mem (fun g hg => List.mem_cons_of_mem _ hg) hf)
    rw [value?, hargs, exactAt_chain_mul]
    rfl
  | sum args ih =>
    obtain ⟨es, hes, rfl⟩ := exists_of_map_chain h
    have hargs := values?_eq_exactAt point hes fun f hf e hread =>
      ih f hf hread (hs.of_mem (fun g hg => List.mem_cons_of_mem _ hg) hf)
    rw [value?, hargs, exactAt_chain_add]
    rfl
  | foreign object => cases h

end Value

/-- **Which formulas are read, and as what.** A formula is read exactly if every part that reading
comes to is a finite number, a symbol whose name is a word, a sum, a product, or a power whose
exponent is a positive whole number. Otherwise the first obstacle from the left is reported. What is
read has the symbols of the formula as its variables, and each power has become the chain of as many
copies of its base as its exponent says. If the numbers of the formula are binary64 numbers, then
what is read has the value of the formula wherever the symbols are given values.

**Proof sketch.** All parts are by induction on the formula. The arguments of a sum or product are
read one by one, and a power is read like the product of equal factors, so that one account of
chains of operands serves all three. -/
theorem toExpr_decides_readable (s : Formula) :
    ((∃ e, s.toExpr = .ok e) ↔ ∀ g ∈ s.reached, g.Readable) ∧
      (∀ fault, s.toExpr = .error fault ↔ s.reached.findSome? refusal? = some fault) ∧
      ∀ e, s.toExpr = .ok e →
        (∀ name, (∃ n ∈ e.occurrences, n.text = name) ↔ symbol name ∈ s.reached) ∧
        (∀ base (k : ℕ), power base (number (.exact k)) ∈ s.reached →
          ∃ b, base.toExpr = .ok b ∧ chain .mul 1 (List.replicate k b) ∈ e.postorder) ∧
        (s.HasExactNumbers →
          ∀ {A : Type} [CommSemiring A] [Algebra ℚ A] (point : String → A),
            ∃ a, s.value? point = some a ∧
              (e.map fun x => algebraMap ℚ A x.exact).evaluateWith
                (fun n => (.ok (point n.text) : Except Empty A)) = .ok a) := by
  refine ⟨exists_toExpr_iff s, fun fault => ?_, fun e he => ⟨fun name => ?_, ?_, ?_⟩⟩
  · rw [← faultOf?_toExpr, faultOf?_eq_some_iff]
  · constructor
    · rintro ⟨n, hn, rfl⟩
      exact (mem_occurrences_iff he).mp hn
    · intro hname
      have hword : isWord name.toList = true := (exists_toExpr_iff s).mp ⟨e, he⟩ _ hname
      exact ⟨⟨name, hword⟩, (mem_occurrences_iff he).mpr hname, rfl⟩
  · intro base k hpower
    obtain ⟨t, ht, hread⟩ := exists_toExpr_of_mem_reached he hpower
    obtain ⟨k', b, -, hk, hb, rfl⟩ := toExpr_power_eq_ok_iff.mp hread
    obtain rfl : k = k' := by simpa using hk
    exact ⟨b, hb, ht⟩
  · intro hexact A _ _ point
    exact ⟨exactAt point e, value?_eq_exactAt point he hexact, evaluateWith_eq_exactAt point e⟩

/-- The formula `x + 2.5 * (x + y) ** 3` is read; the sum in it becomes three factors, and where `x`
is two and `y` is one the value is 69.5. -/
theorem toExpr_decides_readable_cube :
    let base := sum [symbol "x", symbol "y"]
    let s := sum [symbol "x",
      product [number (.rounded (5 / 2)), power base (number (.exact (3 : ℕ)))]]
    let point : String → ℚ := fun name => if name = "x" then 2 else 1
    (∀ g ∈ s.reached, g.Readable) ∧ s.HasExactNumbers ∧
      ∃ e b, s.toExpr = .ok e ∧ base.toExpr = .ok b ∧
        chain .mul 1 (List.replicate 3 b) ∈ e.postorder ∧
        (e.map fun x => algebraMap ℚ ℚ x.exact).evaluateWith
          (fun n => (.ok (point n.text) : Except Empty ℚ)) = .ok (139 / 2) := by
  intro base s point
  obtain ⟨hread, -, hparts⟩ := toExpr_decides_readable s
  have hreadable : ∀ g ∈ s.reached, g.Readable := by
    simp only [← refusal?_eq_none_iff]
    decide +kernel
  have hexact : s.HasExactNumbers := by
    intro n hn
    obtain rfl : n = .rounded (5 / 2) := by simpa [s, base, reached, reachedAll] using hn
    exact ⟨Binary64.nearest false 5 2, by decide +kernel, by decide +kernel⟩
  obtain ⟨e, he⟩ := hread.mpr hreadable
  obtain ⟨-, hpower, hvalue⟩ := hparts e he
  obtain ⟨b, hb, hcopies⟩ := hpower base 3 (by simp [s, reached, reachedAll])
  obtain ⟨a, ha, hevaluate⟩ := hvalue hexact point
  have hsum : s.value? point = some (139 / 2) := by decide +kernel
  obtain rfl : a = 139 / 2 := Option.some.inj (ha.symm.trans hsum)
  exact ⟨hreadable, hexact, e, b, he, hb, hcopies, hevaluate⟩

end Formula

end SumProduct
