import Mathlib.Data.List.Dedup
import Mathlib.Data.Set.Card
import SumProduct.Proofs.Expr.Fold
import SumProduct.Proofs.Expr.Overflow
import SumProduct.Proofs.Expr.PartialEvaluation
import SumProduct.Proofs.Expr.WalkOrder

/-!
# How the measures of a tree agree

The size, the depth, the counts of variables and the test for a constant expression are found by
walks of different kinds. What ties them together are the leaves: there is one more of them than of
the other nodes, their number is between the depth and a power of two, those that are variables are
the ones that are counted, and without variables an expression is evaluated, and simplified to a
constant, with nothing bound.

## Main results

* `SumProduct.Expr.foldStack_size`, `SumProduct.Expr.foldStack_depth` — size and depth as folds over
  a stack.
* `SumProduct.Expr.length_leaves_eq`, `SumProduct.Expr.length_inner_add_one` — leaves and other
  nodes by variant.
* `SumProduct.Expr.depth_le_length_leaves`, `SumProduct.Expr.length_leaves_le_two_pow` — the leaves
  of a tree of a depth.
* `SumProduct.Expr.ncard_levels` — the depth is the number of levels.
* `SumProduct.Expr.sum_usage` — the counts of the variables add up.
* `SumProduct.Expr.metrics_agree` — all of these, and the tests for a constant expression.
-/

namespace SumProduct

namespace Expr

universe u

variable {α : Type u}

/-! ## Size and depth as folds -/

/-- The size is the fold that adds up the sizes of the operands. -/
lemma foldStack_size (e : Expr α) :
    foldStack (m := Id) (fun _ sizes => 1 + sizes.sum) e = [e.size] :=
  foldStack_eq_singleton (fun _ => rfl) (fun _ => rfl)
    (fun op left right => by simp [size, Nat.add_assoc]) e

/-- The depth is the fold that takes the greatest depth of the operands. -/
lemma foldStack_depth (e : Expr α) :
    foldStack (m := Id) (fun _ depths => 1 + depths.foldl max 0) e = [e.depth] :=
  foldStack_eq_singleton (fun _ => rfl) (fun _ => rfl) (fun op left right => by simp [depth]) e

/-! ## Leaves and other nodes -/

/-- A search finds as many nodes of a variant as the pre-order walk comes to. -/
lemma length_nodesOfKind (kind : Kind) (e : Expr α) :
    (e.nodesOfKind kind).length = e.preorder.countP fun t => t.kind == kind := by
  rw [nodesOfKind, ← List.countP_eq_length_filter]
  exact e.breadthFirst_perm_preorder.countP_eq _

/-- The leaves are the constants and the variables. -/
lemma length_leaves_eq (e : Expr α) :
    e.leaves.length = (e.nodesOfKind .constant).length + (e.nodesOfKind .var).length := by
  simp only [length_nodesOfKind]
  induction e with
  | constant _ | var _ => simp [leaves, kind]
  | binary op left right ihl ihr =>
    rw [leaves, List.length_append, ihl, ihr]
    cases op <;> simp [kind, Op.kind] <;> omega

/-- Every sum or product joins two trees, so there is one less of them than of leaves. -/
lemma length_inner_add_one (e : Expr α) :
    (e.nodesOfKind .sum).length + (e.nodesOfKind .product).length + 1 = e.leaves.length := by
  simp only [length_nodesOfKind]
  induction e with
  | constant _ | var _ => simp [leaves, kind]
  | binary op left right ihl ihr =>
    rw [leaves, List.length_append, ← ihl, ← ihr]
    cases op <;> simp [kind, Op.kind] <;> omega

/-! ## Leaves and levels -/

/-- Every level but the last has a node with two operands, so a tree has at most as many levels as
leaves. -/
lemma depth_le_length_leaves (e : Expr α) : e.depth ≤ e.leaves.length := by
  induction e with
  | constant _ | var _ => exact le_rfl
  | binary op left right ihl ihr =>
    have hleft := left.length_leaves_pos
    have hright := right.length_leaves_pos
    rw [depth, leaves, List.length_append]
    omega

/-- With each level the leaves can at most double. -/
lemma length_leaves_le_two_pow (e : Expr α) : e.leaves.length ≤ 2 ^ (e.depth - 1) := by
  induction e with
  | constant _ | var _ => exact le_rfl
  | binary op left right ihl ihr =>
    have hpos := left.depth_pos
    have hleft : 2 ^ (left.depth - 1) ≤ 2 ^ (max left.depth right.depth - 1) :=
      Nat.pow_le_pow_right Nat.two_pos (by omega)
    have hright : 2 ^ (right.depth - 1) ≤ 2 ^ (max left.depth right.depth - 1) :=
      Nat.pow_le_pow_right Nat.two_pos (by omega)
    have hdouble : 2 ^ max left.depth right.depth = 2 * 2 ^ (max left.depth right.depth - 1) := by
      rw [← Nat.pow_succ', Nat.succ_eq_add_one, Nat.sub_add_cancel (by omega)]
    rw [leaves, List.length_append, depth, Nat.add_sub_cancel_left, hdouble]
    omega

/-- The depth is the number of levels that have a node. -/
lemma ncard_levels (e : Expr α) : {n | e.level n ≠ []}.ncard = e.depth := by
  have hlevels : {n | e.level n ≠ []} = ↑(Finset.range e.depth) := by
    ext n
    simp [level_eq_nil_iff]
  rw [hlevels, Set.ncard_coe_finset, Finset.card_range]

/-! ## Variables -/

/-- A variable occurs as often as there are nodes that are variables. -/
lemma length_occurrences (e : Expr α) : e.occurrences.length = (e.nodesOfKind .var).length := by
  rw [length_nodesOfKind]
  induction e with
  | constant _ | var _ => simp [kind]
  | binary op left right ihl ihr =>
    rw [occurrences_binary, List.length_append, ihl, ihr]
    cases op <;> simp [kind, Op.kind]

/-- The counts have the names of the variables, each once. -/
lemma map_fst_usage (e : Expr α) : e.usage.map Prod.fst = e.variableNames := by
  simp [usage, variableNames, Function.comp_def]

/-- The counts of the variables add up to the number of nodes that are variables. -/
lemma sum_usage (e : Expr α) : (e.usage.map Prod.snd).sum = (e.nodesOfKind .var).length := by
  let names := e.occurrences.map (·.text)
  have hperm : (sortTexts names.eraseDups).Perm names.dedup :=
    (List.mergeSort_perm _ _).trans <|
      (List.perm_ext_iff_of_nodup (nodup_eraseDups names) names.nodup_dedup).mpr (by simp)
  have hcounts : e.usage.map Prod.snd = (sortTexts names.eraseDups).map fun n => names.count n := by
    simp [usage, names, Function.comp_def]
  rw [hcounts, (hperm.map _).sum_eq, List.sum_map_count_dedup_eq_length, List.length_map,
    length_occurrences]

/-- There are no names of variables where no variable occurs. -/
lemma variableNames_eq_nil_iff {e : Expr α} : e.variableNames = [] ↔ e.occurrences = [] := by
  simp only [List.eq_nil_iff_forall_not_mem, mem_variableNames_iff]
  constructor
  · exact fun h n hn => h n.text ⟨n, hn, rfl⟩
  · rintro h name ⟨n, hn, -⟩
    exact h n hn

/-- An expression is constant where no variable occurs. -/
lemma isConstant_iff {e : Expr α} : e.isConstant = true ↔ e.occurrences = [] := by
  rw [isConstant, Bool.not_eq_true', List.any_eq_false, occurrences, List.filterMap_eq_nil_iff]
  refine forall₂_congr fun t _ => ?_
  cases t with
  | constant _ | var _ => simp [kind, name?]
  | binary op left right => cases op <;> simp [kind, name?, Op.kind]

/-! ## Nothing bound -/

/-- Without bindings the variables of an expression are bound only if there are none. -/
lemma fullyBound_empty_iff {e : Expr Binary64} :
    FullyBound Bindings.empty e ↔ e.occurrences = [] := by
  rw [List.eq_nil_iff_forall_not_mem]
  exact forall₂_congr fun n _ => by simp [Bindings.empty, Bindings.find?]

/-- Without bindings an expression has a value exactly if no variable occurs. -/
lemma exists_evaluate_empty_iff {e : Expr Binary64} :
    (∃ x, e.evaluate Bindings.empty = .ok x) ↔ e.occurrences = [] := by
  rw [← fullyBound_empty_iff]
  constructor
  · rintro ⟨x, hx⟩
    exact fullyBound_of_evaluate hx
  · intro hbound
    obtain ⟨x, hx, -⟩ := hbound.specialize_eq (Environment.converts_of_forall_entries nofun)
    exact ⟨x, hx⟩

/-- Without bindings an expression is simplified to a constant exactly if no variable occurs. -/
lemma exists_simplify_empty_iff {e : Expr Binary64} :
    (∃ x, e.simplify Bindings.empty = .ok (constant x)) ↔ e.occurrences = [] := by
  have hconv : Environment.Converts Bindings.empty e := Environment.converts_of_forall_entries nofun
  rw [simplify_eq_specialize hconv, ← fullyBound_empty_iff,
    ← specialize_numbers_eq_constant_iff hconv]
  simp

/-- **The measures of a tree agree.** There is one more leaf than there are sums and products, so
the size is twice the number of leaves less one; it is also what the walks list and what a fold over
a stack adds up. The depth is what a fold over a stack finds, and the number of levels that have a
node, in which the walk in breadth lists the nodes; the number of leaves is at least the depth and
at most two to the power of the depth less one. The counts of the variables have the names of the
variables, each once, and add up to the number of nodes that are variables. An expression is
constant exactly if it has no names of variables, exactly if it has a value with nothing bound, and
exactly if it is simplified to a constant with nothing bound.

**Proof sketch.** Each measure obeys the equations of a recursion on the tree, whatever walk it is
found by (`length_nodesOfKind`, `foldStack_eq_foldM`); the rest is induction on the tree. The tests
for a constant expression all say that no variable occurs. -/
theorem metrics_agree (e : Expr Binary64) :
    (e.leaves.length = (e.nodesOfKind .constant).length + (e.nodesOfKind .var).length ∧
      e.leaves.length = (e.nodesOfKind .sum).length + (e.nodesOfKind .product).length + 1 ∧
      e.size = 2 * e.leaves.length - 1 ∧
      (∀ order, (e.nodes order).length = e.size) ∧
      foldStack (m := Id) (fun _ sizes => 1 + sizes.sum) e = [e.size]) ∧
    (foldStack (m := Id) (fun _ depths => 1 + depths.foldl max 0) e = [e.depth] ∧
      e.nodes .breadthFirst = e.levels.flatten ∧ {n | e.level n ≠ []}.ncard = e.depth ∧
      e.depth ≤ e.leaves.length ∧ e.leaves.length ≤ 2 ^ (e.depth - 1)) ∧
    ((e.usage.map Prod.snd).sum = (e.nodesOfKind .var).length ∧
      e.usage.map Prod.fst = e.variableNames ∧ e.variableNames.Nodup) ∧
    (e.isConstant = true ↔ e.variableNames = []) ∧
    (e.isConstant = true ↔ ∃ x, e.evaluate Bindings.empty = .ok x) ∧
    (e.isConstant = true ↔ ∃ x, e.simplify Bindings.empty = .ok (constant x)) := by
  refine ⟨⟨e.length_leaves_eq, e.length_inner_add_one.symm, Nat.eq_sub_of_add_eq e.size_add_one,
    fun order => ?size, e.foldStack_size⟩, ⟨e.foldStack_depth, e.breadthFirst_eq_levels,
    e.ncard_levels, e.depth_le_length_leaves, e.length_leaves_le_two_pow⟩,
    ⟨e.sum_usage, e.map_fst_usage, e.map_fst_usage ▸ e.nodup_usage⟩,
    isConstant_iff.trans variableNames_eq_nil_iff.symm,
    isConstant_iff.trans exists_evaluate_empty_iff.symm,
    isConstant_iff.trans exists_simplify_empty_iff.symm⟩
  case size => rw [(nodes_perm_preorder order e).length_eq, length_preorder]

end Expr

end SumProduct
