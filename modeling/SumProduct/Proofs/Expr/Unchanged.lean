import SumProduct.Proofs.Expr.Equality
import SumProduct.Proofs.Expr.PartialEvaluation
import SumProduct.Proofs.Expr.Sharing
import SumProduct.Proofs.Expr.Simplification

/-!
# What simplification leaves alone

Simplification compares the results of the operands of a node with the operands themselves, and that
is all it does to find out that nothing has changed. What is left alone in the end can be told from
the expression: the trees in which nothing is bound and no operation lacks a variable, unless they
are lost with a larger tree that is computed.

## Main definitions

* `SumProduct.Expr.Untouched` — simplification has nothing to do in a tree.
* `SumProduct.Expr.Enclosed` — a position lies inside a larger tree that is fully bound.

## Main results

* `SumProduct.Expr.share_eq_kept_iff` — an expression is its own result when it is untouched.
* `SumProduct.Expr.part?_share_eq_kept_iff` — a subtree is taken over when it is untouched and not
  enclosed.
* `SumProduct.Expr.size_specialize` — every computed operation takes two nodes away.
* `SumProduct.Expr.simplify_unchanged_iff` — the same for simplification in an environment.
-/

namespace SumProduct

namespace Expr

/-- Simplification has nothing to do in an expression: none of its variables is bound, and every
operation has a variable below it. -/
structure Untouched (env : Environment) (e : Expr Binary64) : Prop where
  /-- No variable is bound. -/
  unbound : ∀ n ∈ e.occurrences, env.find? n.text = none
  /-- Every sum and product has a variable below it. -/
  variable_below : ∀ op left right, binary op left right ∈ e.postorder →
    (binary op left right).occurrences ≠ []

/-- A position lies inside a larger subtree all of whose variables are bound. -/
def Enclosed (env : Environment) (e : Expr Binary64) (p : List Side) : Prop :=
  ∃ front back big, p = front ++ back ∧ back ≠ [] ∧ e.subtree? front = some big ∧
    FullyBound env big

variable {env : Environment} {e t left right : Expr Binary64} {op : Op} {p : List Side}
  {side : Side}

/-! ## Trees with nothing to do -/

/-- A node has nothing to be done in it when its operands have nothing and one of them has a
variable. -/
lemma untouched_binary_iff :
    Untouched env (binary op left right) ↔ Untouched env left ∧ Untouched env right ∧
      (binary op left right).occurrences ≠ [] := by
  constructor
  · rintro ⟨hunbound, hbelow⟩
    simp only [occurrences_binary, List.mem_append, or_imp, forall_and] at hunbound
    exact ⟨⟨hunbound.1, fun op' l r h => hbelow op' l r (by simp [h])⟩,
      ⟨hunbound.2, fun op' l r h => hbelow op' l r (by simp [h])⟩,
      hbelow op left right (by simp)⟩
  · rintro ⟨hleft, hright, hvar⟩
    refine ⟨fun n hn => ?_, fun op' l r h => ?_⟩
    · rw [occurrences_binary, List.mem_append] at hn
      exact hn.elim (hleft.unbound n) (hright.unbound n)
    · rw [postorder_binary, List.mem_append, List.mem_append, List.mem_singleton] at h
      rcases h with (h | h) | h
      · exact hleft.variable_below op' l r h
      · exact hright.variable_below op' l r h
      · rwa [h]

/-- A node in which nothing is to be done is not fully bound. -/
lemma Untouched.not_fullyBound (h : Untouched env (binary op left right)) :
    ¬ FullyBound env (binary op left right) := by
  intro hbound
  obtain ⟨n, hn⟩ := List.exists_mem_of_ne_nil _ (untouched_binary_iff.mp h).2.2
  have hsome := hbound n hn
  rw [h.unbound n hn] at hsome
  cases hsome

/-- A node that is not fully bound has a variable below it. -/
lemma occurrences_ne_nil_of_not_fullyBound (h : ¬ FullyBound env e) : e.occurrences ≠ [] :=
  fun hnil => h fun n hn => by simp [hnil] at hn

/-! ## Results of nodes -/

/-- The result of a fully bound node is the constant of its value. -/
lemma share_of_fullyBound (hconv : env.Converts (binary op left right))
    (hbound : FullyBound env (binary op left right)) :
    ∃ x, (binary op left right).evaluate env = .ok x ∧
      (binary op left right).share env.numbers = .fresh x := by
  obtain ⟨hleft, hright⟩ := converts_binary_iff.mp hconv
  obtain ⟨hbl, hbr⟩ := fullyBound_binary_iff.mp hbound
  obtain ⟨a, ha, hca⟩ := hbl.specialize_eq hleft
  obtain ⟨b, hb, hcb⟩ := hbr.specialize_eq hright
  rw [evaluate] at ha hb
  refine ⟨op.apply a b, by rw [evaluate, evaluateWith, ha, hb], ?_⟩
  rw [share, Shared.node, toExpr_share, toExpr_share, hca, hcb]
  rfl

/-- The result of a node that is not fully bound is the node itself if its operands are their own
results, and a new node over their results otherwise. -/
lemma share_of_not_fullyBound (hconv : env.Converts (binary op left right))
    (hfree : ¬ FullyBound env (binary op left right)) :
    (binary op left right).share env.numbers =
      if left.share env.numbers = .kept left ∧ right.share env.numbers = .kept right then
        .kept (binary op left right)
      else .rebuilt op (left.share env.numbers) (right.share env.numbers) := by
  obtain ⟨hleft, hright⟩ := converts_binary_iff.mp hconv
  rw [share, node_eq_of_not_constants]
  rintro ⟨x, y, hx, hy⟩
  rw [toExpr_share] at hx hy
  exact hfree <| fullyBound_binary_iff.mpr
    ⟨(specialize_numbers_eq_constant_iff hleft).mp ⟨x, hx⟩,
      (specialize_numbers_eq_constant_iff hright).mp ⟨y, hy⟩⟩

/-- The operands of the result of a node that is not fully bound are the results of its operands. -/
lemma operand?_share (hconv : env.Converts (binary op left right))
    (hfree : ¬ FullyBound env (binary op left right)) (side : Side) :
    ((binary op left right).share env.numbers).operand? side =
      ((binary op left right).operand? side).map fun t => t.share env.numbers := by
  rw [share_of_not_fullyBound hconv hfree]
  split_ifs with hkept
  · cases side
    · exact congrArg some hkept.1.symm
    · exact congrArg some hkept.2.symm
  · cases side <;> rfl

/-- **An expression is its own result exactly if nothing is to be done in it**, and no other tree is
ever taken over in its place.

**Proof sketch.** Induction on the expression. A fully bound node is computed, and a node with
nothing to be done in it has an unbound variable. Any other node is its own result when both
operands are, and it has a variable below it because not all its variables are bound. -/
theorem share_eq_kept_iff (hconv : env.Converts e) :
    e.share env.numbers = .kept t ↔ t = e ∧ Untouched env e := by
  induction e generalizing t with
  | constant value =>
    have huntouched : Untouched env (constant value) := ⟨by simp, by simp⟩
    simp [share, huntouched, eq_comm]
  | var name =>
    have hsome := hconv.isSome_numbers (n := name) (by simp)
    have huntouched : Untouched env (var name) ↔ env.find? name.text = none :=
      ⟨fun h => h.unbound name (by simp), fun h => ⟨by simpa using h, by simp⟩⟩
    rw [huntouched, share]
    cases hnumber : env.numbers name with
    | none =>
      rw [hnumber, eq_comm, Option.isSome_none, Option.isSome_eq_false_iff,
        Option.isNone_iff_eq_none] at hsome
      simp [hsome, eq_comm]
    | some x =>
      rw [hnumber, Option.isSome_some, eq_comm, Option.isSome_iff_ne_none] at hsome
      simp [hsome]
  | binary op left right ihl ihr =>
    obtain ⟨hleft, hright⟩ := converts_binary_iff.mp hconv
    -- only a node that is not fully bound can be its own result
    by_cases hbound : FullyBound env (binary op left right)
    · obtain ⟨x, -, hfresh⟩ := share_of_fullyBound hconv hbound
      rw [hfresh]
      exact iff_of_false (by simp) fun h => h.2.not_fullyBound hbound
    · have hvar := occurrences_ne_nil_of_not_fullyBound hbound
      rw [share_of_not_fullyBound hconv hbound, untouched_binary_iff]
      split_ifs with hkept <;> rw [ihl hleft, ihr hright] at hkept
      · exact ⟨fun h => ⟨(Shared.kept.inj h).symm, hkept.1.2, hkept.2.2, hvar⟩,
          fun h => congrArg Shared.kept h.1.symm⟩
      · exact iff_of_false (by simp) fun h => hkept ⟨⟨rfl, h.2.1⟩, rfl, h.2.2.1⟩

/-- A specialized expression is the expression only if nothing was to be done. So a tree that is
built again is never equal to what it is built from. -/
theorem specialize_eq_self_iff (hconv : env.Converts e) :
    e.specialize env.numbers = e ↔ Untouched env e := by
  constructor
  · intro h
    induction e with
    | constant value => exact ⟨by simp, by simp⟩
    | var name =>
      refine ⟨fun n hn => ?_, by simp⟩
      obtain rfl : n = name := by simpa using hn
      have hsome := hconv.isSome_numbers hn
      cases hnumber : env.numbers n with
      | none => simpa [hnumber] using hsome.symm
      | some x => simp [specialize, hnumber] at h
    | binary op left right ihl ihr =>
      obtain ⟨hleft, hright⟩ := converts_binary_iff.mp hconv
      by_cases hbound : FullyBound env (binary op left right)
      · obtain ⟨x, -, hconstant⟩ := hbound.specialize_eq hconv
        rw [hconstant] at h
        cases h
      · rw [specialize_binary_of_not_fullyBound hconv hbound, binary.injEq] at h
        exact untouched_binary_iff.mpr ⟨ihl hleft h.2.1, ihr hright h.2.2,
          occurrences_ne_nil_of_not_fullyBound hbound⟩
  · intro h
    rw [← toExpr_share, (share_eq_kept_iff hconv).mpr ⟨rfl, h⟩]
    rfl

/-! ## Positions -/

/-- The root lies inside no larger tree. -/
lemma not_enclosed_nil : ¬ Enclosed env e [] := by
  rintro ⟨front, back, big, hp, hback, -⟩
  exact hback (List.append_eq_nil_iff.mp hp.symm).2

/-- A position in an operand lies inside a larger tree that is fully bound if the node is, or if the
position lies so in the operand. -/
lemma enclosed_cons_iff (ht : e.operand? side = some t) :
    Enclosed env e (side :: p) ↔ FullyBound env e ∨ Enclosed env t p := by
  constructor
  · rintro ⟨_ | ⟨other, front⟩, back, big, hp, hback, hbig, hbound⟩
    · obtain rfl : e = big := Option.some.inj hbig
      exact .inl hbound
    · rw [List.cons_append, List.cons.injEq] at hp
      obtain ⟨rfl, hp⟩ := hp
      rw [subtree?, ht, Option.bind_some] at hbig
      exact .inr ⟨front, back, big, hp, hback, hbig, hbound⟩
  · rintro (hbound | ⟨front, back, big, rfl, hback, hbig, hbound⟩)
    · exact ⟨[], side :: p, e, rfl, by simp, rfl, hbound⟩
    · refine ⟨side :: front, back, big, rfl, hback, ?_, hbound⟩
      rw [subtree?, ht, Option.bind_some, hbig]

/-- **A subtree is taken over where it is exactly if nothing is to be done in it and it lies in no
larger tree that is fully bound.**

**Proof sketch.** Induction on the position. A fully bound node is computed and nothing below it is
left. The operands of the result of any other node are the results of its operands. -/
theorem part?_share_eq_kept_iff (hconv : env.Converts e) (ht : e.subtree? p = some t) :
    (e.share env.numbers).part? p = some (.kept t) ↔ Untouched env t ∧ ¬ Enclosed env e p := by
  induction p generalizing e with
  | nil =>
    obtain rfl : e = t := Option.some.inj ht
    rw [Shared.part?, Option.some_inj, share_eq_kept_iff hconv]
    simp [not_enclosed_nil]
  | cons side p ih =>
    rw [subtree?, Option.bind_eq_some_iff] at ht
    obtain ⟨operand, hoperand, ht⟩ := ht
    cases e with
    | constant _ | var _ => cases hoperand
    | binary op left right =>
      rw [Shared.part?, enclosed_cons_iff hoperand]
      by_cases hbound : FullyBound env (binary op left right)
      · obtain ⟨x, -, hfresh⟩ := share_of_fullyBound hconv hbound
        rw [hfresh]
        exact iff_of_false (by simp [Shared.operand?]) fun h => h.2 (.inl hbound)
      · obtain ⟨hleft, hright⟩ := converts_binary_iff.mp hconv
        have hconv' : env.Converts operand := by
          cases side <;> cases hoperand <;> assumption
        rw [operand?_share hconv hbound, hoperand, Option.map_some, Option.bind_some,
          ih hconv' ht]
        simp [hbound]

/-- Around a position inside a fully bound tree, one such tree is computed as a whole: there is a
new constant with its value in its place. -/
theorem exists_fresh_of_enclosed (hconv : env.Converts e) (ht : e.subtree? p = some t)
    (h : Enclosed env e p) :
    ∃ front back big x, p = front ++ back ∧ back ≠ [] ∧ e.subtree? front = some big ∧
      FullyBound env big ∧ big.evaluate env = .ok x ∧
      (e.share env.numbers).part? front = some (.fresh x) := by
  induction p generalizing e with
  | nil => exact absurd h not_enclosed_nil
  | cons side p ih =>
    rw [subtree?, Option.bind_eq_some_iff] at ht
    obtain ⟨operand, hoperand, ht⟩ := ht
    cases e with
    | constant _ | var _ => cases hoperand
    | binary op left right =>
      by_cases hbound : FullyBound env (binary op left right)
      · obtain ⟨x, hvalue, hfresh⟩ := share_of_fullyBound hconv hbound
        exact ⟨[], side :: p, _, x, rfl, by simp, rfl, hbound, hvalue, congrArg some hfresh⟩
      · obtain ⟨hleft, hright⟩ := converts_binary_iff.mp hconv
        have hconv' : env.Converts operand := by
          cases side <;> cases hoperand <;> assumption
        obtain ⟨front, back, big, x, rfl, hback, hbig, hbound', hvalue, hfresh⟩ :=
          ih hconv' ht (((enclosed_cons_iff hoperand).mp h).resolve_left hbound)
        refine ⟨side :: front, back, big, x, rfl, hback, ?_, hbound', hvalue, ?_⟩
        · rw [subtree?, hoperand, Option.bind_some, hbig]
        · rw [Shared.part?, operand?_share hconv hbound, hoperand, Option.map_some,
            Option.bind_some, hfresh]

/-! ## Sizes -/

/-- Every computed operation takes two nodes away, and nothing else changes the size. -/
theorem size_specialize {α ε : Type} [Add α] [Mul α] {e : Expr α} {bound : Name → Option α}
    {read : Name → Except ε (Option α)} (hread : ∀ n ∈ e.occurrences, read n = .ok (bound n)) :
    (e.specialize bound).size + 2 * (e.foldings read).length = e.size := by
  induction e with
  | constant value => rfl
  | var name =>
    rw [foldings, simplifyTraced, hread name (by simp)]
    cases h : bound name <;> simp [specialize, h, size]
  | binary op left right ihl ihr =>
    have hsplit := hread
    simp only [occurrences_binary, List.mem_append] at hsplit
    have hleft := ihl fun n hn => hsplit n (.inl hn)
    have hright := ihr fun n hn => hsplit n (.inr hn)
    have hnode (a b : Expr α) :
        (combine op a b).2.size + 2 * (combine op a b).1.length = 1 + a.size + b.size := by
      unfold combine
      split <;> simp [size]
    have hhere := hnode (left.specialize bound) (right.specialize bound)
    rw [foldings_binary hread, specialize, size, List.length_append, List.length_append]
    omega

/-! ## Simplification in an environment -/

/-- **Simplification returns an expression unchanged exactly when there is nothing to do in it.**
Where the bound values that an expression needs are numbers, simplification succeeds, and its result
is equal to the expression exactly if no variable of the expression is bound and every sum and
product has a variable below it; then it is the expression itself. The same holds at every position:
the subtree there is taken over exactly if nothing is to be done in it and it does not lie inside a
larger tree that is fully bound, and in the latter case the constant of such a larger tree has taken
its place. The result is never larger than the expression, and it has the same size exactly if no
operation was computed.

**Proof sketch.** Simplification specializes (`simplifyShared_eq_share`), and the results with
shared parts are told by `share_eq_kept_iff` and `part?_share_eq_kept_iff`; that no tree is built
again and comes out equal is `specialize_eq_self_iff`. The sizes are those of `size_specialize`. -/
theorem simplify_unchanged_iff (e : Expr Binary64) (env : Environment) (hconv : env.Converts e) :
    ∃ r, e.simplifyShared env = .ok r ∧ e.simplify env = .ok r.toExpr ∧
      (r.toExpr.equal e = true ↔ Untouched env e) ∧ (r = .kept e ↔ Untouched env e) ∧
      (∀ p t, e.subtree? p = some t →
        (r.part? p = some (.kept t) ↔ Untouched env t ∧ ¬ Enclosed env e p) ∧
        (Enclosed env e p → ∃ front back big x, p = front ++ back ∧ back ≠ [] ∧
          e.subtree? front = some big ∧ FullyBound env big ∧ big.evaluate env = .ok x ∧
          r.part? front = some (.fresh x))) ∧
      r.toExpr.size ≤ e.size ∧ (r.toExpr.size = e.size ↔ e.foldings env.bound = []) := by
  have hsize : (e.specialize env.numbers).size + 2 * (e.foldings env.bound).length = e.size :=
    size_specialize fun n hn => hconv.bound_eq hn
  refine ⟨e.share env.numbers, simplifyShared_eq_share hconv, ?_, ?_, ?_,
    fun p t ht => ⟨part?_share_eq_kept_iff hconv ht, exists_fresh_of_enclosed hconv ht⟩, ?_⟩
  · rw [toExpr_share, simplify_eq_specialize hconv]
  · rw [toExpr_share, equal, same_iff_eq, specialize_eq_self_iff hconv]
  · rw [share_eq_kept_iff hconv]
    simp
  · rw [toExpr_share, ← List.length_eq_zero_iff]
    omega

/-- With `x` bound to four, `(a + b) * c + x * 2` becomes a new sum of the product that it had on
the left and a new constant. The two is left alone as well, but it is lost with the product that is
computed. -/
theorem simplify_unchanged_iff_partial :
    let x : Expr Binary64 := var ⟨"x", by decide⟩
    let kept : Expr Binary64 := binary .mul
      (binary .add (var ⟨"a", by decide⟩) (var ⟨"b", by decide⟩)) (var ⟨"c", by decide⟩)
    let two : Expr Binary64 := constant (Binary64.ofInt 2)
    let e := binary .add kept (binary .mul x two)
    let env : Environment := ⟨[("x", .integer 4)], by decide⟩
    let r : Shared Binary64 := .rebuilt .add (.kept kept) (.fresh (Binary64.ofInt 8))
    env.Converts e ∧ e.simplifyShared env = .ok r ∧ ¬ Untouched env e ∧
      Untouched env kept ∧ ¬ Enclosed env e [.left] ∧
      (r.part? [.right, .right] = some (.kept two) ↔
        Untouched env two ∧ ¬ Enclosed env e [.right, .right]) ∧
      r.toExpr.size < e.size := by
  intro x kept two e env r
  have hconv : env.Converts e := Environment.converts_of_forall_entries
    (List.forall_mem_singleton.mpr ⟨.ofInt 4, by decide +kernel⟩)
  have hresult : e.simplifyShared env = .ok r := by decide +kernel
  obtain ⟨r', hr', -, -, hsame, hparts, hle, -⟩ := simplify_unchanged_iff e env hconv
  obtain rfl : r = r' := Except.ok.inj (hresult.symm.trans hr')
  obtain ⟨hkept, hfree⟩ := (hparts [.left] kept rfl).1.mp rfl
  have hchanged : ¬ Untouched env e := mt hsame.mpr nofun
  exact ⟨hconv, hresult, hchanged, hkept, hfree, (hparts [.right, .right] two rfl).1,
    lt_of_le_of_ne hle (by decide)⟩

end Expr

end SumProduct
