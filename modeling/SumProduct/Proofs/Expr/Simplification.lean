import SumProduct.Proofs.Expr.Specialization

/-!
# What simplification replaces

Simplification works from the leaves up and looks at one node at a time. Seen from the root it
replaces the maximal subtrees whose variables are all bound, each by the constant of its value, and
leaves every other node where it is.

## Main definitions

* `SumProduct.Expr.FullyBound` — an environment binds all variables of an expression.
* `SumProduct.Expr.Replaced` — an expression with its maximal fully bound subtrees replaced by their
  values.

## Main results

* `SumProduct.Expr.replaced_iff` — there is exactly one such expression, the specialized one.
* `SumProduct.Expr.simplify_replaces_maximal` — simplification gives that expression.
-/

namespace SumProduct

namespace Expr

/-- The environment binds all variables of the expression. -/
def FullyBound (env : Environment) (e : Expr Binary64) : Prop :=
  ∀ n ∈ e.occurrences, (env.find? n.text).isSome

/-- The second expression is the first with each maximal fully bound subtree replaced by the
constant of its value. From the root down, the first fully bound subtree on each path is replaced;
all nodes above keep their variant, their place and the order of their operands. -/
inductive Replaced (env : Environment) : Expr Binary64 → Expr Binary64 → Prop
  /-- A fully bound subtree is replaced by its value. -/
  | value {e : Expr Binary64} {x : Binary64} (hbound : FullyBound env e)
      (hvalue : e.evaluate env = .ok x) : Replaced env e (constant x)
  /-- An unbound variable is kept. -/
  | var {n : Name} (hfree : ¬ FullyBound env (var n)) : Replaced env (var n) (var n)
  /-- A node with an unbound variable below it is kept. -/
  | binary {op : Op} {left right left' right' : Expr Binary64}
      (hfree : ¬ FullyBound env (binary op left right)) (hleft : Replaced env left left')
      (hright : Replaced env right right') :
      Replaced env (binary op left right) (binary op left' right')

variable {env : Environment} {op : Op} {e left right : Expr Binary64}

/-! ## Bindings of a node and of its operands -/

/-- A node is fully bound when both its operands are. -/
lemma fullyBound_binary_iff :
    FullyBound env (binary op left right) ↔ FullyBound env left ∧ FullyBound env right := by
  simp only [FullyBound, occurrences_binary, List.mem_append, or_imp, forall_and]

/-- The values that a node needs are numbers when those that its operands need are. -/
lemma converts_binary_iff :
    env.Converts (binary op left right) ↔ env.Converts left ∧ env.Converts right := by
  simp only [Environment.Converts, occurrences_binary, List.mem_append, or_imp, forall_and]

/-- An expression is specialized to a constant exactly when it is fully bound. -/
lemma specialize_numbers_eq_constant_iff (hconv : env.Converts e) :
    (∃ x, e.specialize env.numbers = constant x) ↔ FullyBound env e := by
  rw [specialize_eq_constant_iff]
  exact forall₂_congr fun n hn => by rw [hconv.isSome_numbers hn]

/-- A fully bound expression has a value and is specialized to it. -/
lemma FullyBound.specialize_eq (hbound : FullyBound env e) (hconv : env.Converts e) :
    ∃ x, e.evaluate env = .ok x ∧ e.specialize env.numbers = constant x := by
  refine specialize_eq_constant fun n hn => ?_
  obtain ⟨x, hx⟩ := Option.isSome_iff_exists.mp ((hconv.isSome_numbers hn).trans (hbound n hn))
  exact ⟨x, hx, hconv.read_eq hn hx⟩

/-- A node that is not fully bound stays a node. -/
lemma specialize_binary_of_not_fullyBound (hconv : env.Converts (binary op left right))
    (hfree : ¬ FullyBound env (binary op left right)) :
    (binary op left right).specialize env.numbers =
      binary op (left.specialize env.numbers) (right.specialize env.numbers) := by
  obtain ⟨hleft, hright⟩ := converts_binary_iff.mp hconv
  rw [specialize, combine_eq_binary]
  rintro ⟨a, b, ha, hb⟩
  exact hfree <| fullyBound_binary_iff.mpr
    ⟨(specialize_numbers_eq_constant_iff hleft).mp ⟨a, ha⟩,
      (specialize_numbers_eq_constant_iff hright).mp ⟨b, hb⟩⟩

/-! ## The replaced subtrees -/

/-- Replacing the maximal fully bound subtrees gives nothing but the specialized expression.

**Proof sketch.** Induction on the replacement. A fully bound subtree is specialized to its value. A
node that is kept is not fully bound, so its specialized operands are not both constants and no
operation is computed there. -/
lemma Replaced.eq_specialize {e' : Expr Binary64} (h : Replaced env e e')
    (hconv : env.Converts e) : e' = e.specialize env.numbers := by
  induction h with
  | value hbound hvalue =>
    obtain ⟨x, hx, hconstant⟩ := hbound.specialize_eq hconv
    rw [hconstant, Except.ok.inj (hvalue.symm.trans hx)]
  | @var n hfree =>
    have hunbound : env.numbers n = none := by
      rw [← Option.isNone_iff_eq_none, ← Option.not_isSome, hconv.isSome_numbers (by simp)]
      simpa [FullyBound] using hfree
    simp [specialize, hunbound]
  | binary hfree _ _ ihl ihr =>
    obtain ⟨hleft, hright⟩ := converts_binary_iff.mp hconv
    rw [specialize_binary_of_not_fullyBound hconv hfree, ihl hleft, ihr hright]

/-- The specialized expression is the one with the maximal fully bound subtrees replaced. -/
lemma replaced_specialize (hconv : env.Converts e) :
    Replaced env e (e.specialize env.numbers) := by
  induction e with
  | constant value => exact .value (by simp [FullyBound]) rfl
  | var name =>
    by_cases hbound : FullyBound env (var name)
    · obtain ⟨x, hvalue, hconstant⟩ := hbound.specialize_eq hconv
      exact hconstant ▸ .value hbound hvalue
    · have hkept : (var name).specialize env.numbers = var name := by
        cases hnumber : env.numbers name with
        | none => simp [specialize, hnumber]
        | some x =>
          refine absurd ((specialize_numbers_eq_constant_iff hconv).mp ⟨x, ?_⟩) hbound
          simp [specialize, hnumber]
      rw [hkept]
      exact .var hbound
  | binary op left right ihl ihr =>
    obtain ⟨hleft, hright⟩ := converts_binary_iff.mp hconv
    by_cases hbound : FullyBound env (binary op left right)
    · obtain ⟨x, hvalue, hconstant⟩ := hbound.specialize_eq hconv
      exact hconstant ▸ .value hbound hvalue
    · rw [specialize_binary_of_not_fullyBound hconv hbound]
      exact .binary hbound (ihl hleft) (ihr hright)

/-- There is exactly one expression with the maximal fully bound subtrees replaced. -/
lemma replaced_iff (hconv : env.Converts e) {e' : Expr Binary64} :
    Replaced env e e' ↔ e' = e.specialize env.numbers :=
  ⟨fun h => h.eq_specialize hconv, fun h => h ▸ replaced_specialize hconv⟩

/-- **Simplification replaces exactly the maximal fully bound subtrees by their values.** Where the
bound values that an expression needs are numbers, simplification succeeds, and its result is the
one expression with these subtrees replaced. So the result is a constant exactly for a fully bound
expression, and then that of its value; its variables are the unbound ones of the expression, in
order; and no operation on two constants is left.

**Proof sketch.** Simplification is specialization (`simplify_eq_specialize`), which does the
replacement (`replaced_iff`). The consequences are the laws of specialization. -/
theorem simplify_replaces_maximal (e : Expr Binary64) (env : Environment)
    (hconv : env.Converts e) :
    ∃ e', e.simplify env = .ok e' ∧ (∀ s, Replaced env e s ↔ s = e') ∧
      ((∃ x, e' = constant x) ↔ FullyBound env e) ∧
      (FullyBound env e → ∃ x, e.evaluate env = .ok x ∧ e' = constant x) ∧
      e'.occurrences = e.occurrences.filter (fun n => (env.find? n.text).isNone) ∧
      ∀ op a b, binary op (constant a) (constant b) ∉ e'.postorder := by
  refine ⟨e.specialize env.numbers, simplify_eq_specialize hconv, fun s => replaced_iff hconv,
    specialize_numbers_eq_constant_iff hconv, fun hbound => hbound.specialize_eq hconv, ?_,
    binary_constants_notMem_specialize e⟩
  rw [occurrences_specialize]
  refine List.filter_congr fun n hn => ?_
  rw [← Option.not_isSome, hconv.isSome_numbers hn, Option.not_isSome]

/-- With `y` bound to minus infinity, `x * (y + 2) + y * y` becomes `x` times minus infinity plus
infinity. -/
theorem simplify_replaces_maximal_infinite :
    let x : Name := ⟨"x", by decide⟩
    let y : Expr Binary64 := var ⟨"y", by decide⟩
    let e := binary .add (binary .mul (var x) (binary .add y (constant (Binary64.ofInt 2))))
      (binary .mul y y)
    let env : Environment := ⟨[("y", .real (.infinite true))], by decide⟩
    let e' := binary .add (binary .mul (var x) (constant (.infinite true)))
      (constant (.infinite false))
    env.Converts e ∧ e.simplify env = .ok e' ∧ Replaced env e e' ∧ e'.occurrences = [x] := by
  intro x y e env e'
  have hconv : env.Converts e := by
    intro n _ value hvalue
    refine ⟨.infinite true, ?_⟩
    simp only [env, Bindings.find?, Option.map_eq_some_iff, List.find?_singleton] at hvalue
    obtain ⟨pair, hpair, rfl⟩ := hvalue
    split at hpair
    · cases hpair; rfl
    · cases hpair
  obtain ⟨s, hsimplify, hreplaced, -⟩ := simplify_replaces_maximal e env hconv
  have hresult : e.simplify env = .ok e' := by decide +kernel
  have hs : e' = s := Except.ok.inj (hresult.symm.trans hsimplify)
  exact ⟨hconv, hresult, (hreplaced e').mpr hs, by simp [e', x]⟩

end Expr

end SumProduct
