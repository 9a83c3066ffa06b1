import Mathlib.Data.List.Basic
import SumProduct.Expr.Query
import SumProduct.Proofs.Expr.Position

/-!
# The orders of the walks

The three walks keep the nodes that are left to do on a stack or in a queue. What they list is
described by recursion on the tree: the walk in breadth lists the levels from the root down, and the
walks in depth list the nodes of each subtree together, with the root first or last. All three list
the same nodes, and a search by variant or operator picks its nodes from the walk in breadth.

## Main definitions

* `SumProduct.Expr.level`, `SumProduct.Expr.levels` — the nodes at a distance from the root.
* `SumProduct.Expr.rootFirst`, `SumProduct.Expr.rootLast` — the nodes subtree by subtree.

## Main results

* `SumProduct.Expr.mem_level_iff` — the nodes of a level are those at positions of its length.
* `SumProduct.Expr.breadthFirstLoop_append` — a queue that holds the rest of one level and the
  beginning of the next.
* `SumProduct.Expr.breadthFirst_eq_levels` — the walk in breadth lists the levels.
* `SumProduct.Expr.nodes_by_order` — the three orders, and the searches.
-/

namespace SumProduct

namespace Expr

universe u

variable {α : Type u}

/-! ## Levels -/

/-- The nodes at a distance from the root, from left to right. -/
def level : Nat → Expr α → List (Expr α)
  | 0, e => [e]
  | n + 1, e => e.children.flatMap (level n)

/-- All levels of a tree, from the root down. -/
def levels (e : Expr α) : List (List (Expr α)) := (List.range e.depth).map fun n => e.level n

/-- Operands are the subtrees one turn away. -/
lemma mem_children_iff {e t : Expr α} : t ∈ e.children ↔ ∃ side, e.operand? side = some t := by
  cases e with
  | constant _ | var _ => simp [children, operand?]
  | binary op left right =>
    simp only [children, List.mem_cons, List.not_mem_nil, or_false]
    constructor
    · rintro (rfl | rfl)
      · exact ⟨.left, rfl⟩
      · exact ⟨.right, rfl⟩
    · rintro ⟨_ | _, h⟩
      · exact .inl (Option.some.inj h).symm
      · exact .inr (Option.some.inj h).symm

/-- A level holds the subtrees at the positions of one length. -/
lemma mem_level_iff {n : Nat} {e t : Expr α} :
    t ∈ e.level n ↔ ∃ p, p.length = n ∧ e.subtree? p = some t := by
  induction n generalizing e with
  | zero =>
    rw [level, List.mem_singleton]
    constructor
    · rintro rfl
      exact ⟨[], rfl, rfl⟩
    · rintro ⟨p, hp, ht⟩
      rw [List.length_eq_zero_iff.mp hp] at ht
      exact (Option.some.inj ht).symm
  | succ n ih =>
    simp only [level, List.mem_flatMap, mem_children_iff, ih]
    constructor
    · rintro ⟨operand, ⟨side, hside⟩, p, hp, ht⟩
      exact ⟨side :: p, by rw [List.length_cons, hp], by rw [subtree?, hside]; exact ht⟩
    · rintro ⟨_ | ⟨side, p⟩, hp, ht⟩
      · cases hp
      · obtain ⟨operand, hside, ht⟩ := Option.bind_eq_some_iff.mp ht
        exact ⟨operand, ⟨side, hside⟩, p, Nat.succ.inj hp, ht⟩

/-- Operands are less deep than their node. -/
lemma depth_lt_of_mem_children {e t : Expr α} (h : t ∈ e.children) : t.depth < e.depth := by
  cases e with
  | constant _ | var _ => cases h
  | binary op left right =>
    simp only [children, List.mem_cons, List.not_mem_nil, or_false] at h
    rw [depth]
    rcases h with rfl | rfl <;> omega

/-- The levels go as far as the tree is deep. -/
lemma level_eq_nil_iff {n : Nat} {e : Expr α} : e.level n = [] ↔ e.depth ≤ n := by
  induction n generalizing e with
  | zero => simp [level, Nat.ne_of_gt e.depth_pos]
  | succ n ih =>
    cases e with
    | constant _ | var _ => simp [level, children, depth]
    | binary op left right =>
      simp only [level, children, List.flatMap_cons, List.flatMap_nil, List.append_nil,
        List.append_eq_nil_iff, ih, depth]
      omega

/-! ## The walk in breadth -/

/-- **The loop works off a level while the next one lines up behind it.** Whatever of the next level
is in the queue already stays in front of the operands of the nodes that are still ahead of it. -/
lemma breadthFirstLoop_append (current next walked : List (Expr α)) :
    breadthFirstLoop (current ++ next) walked =
      breadthFirstLoop (next ++ current.flatMap children) (current.reverse ++ walked) := by
  induction current generalizing next walked with
  | nil => simp
  | cons e rest ih =>
    rw [List.cons_append, breadthFirstLoop, List.append_assoc, ih]
    simp

/-- From a queue of trees, the loop lists the levels of all of them together.

**Proof sketch.** Induction on a bound of the depths. The trees are the first level; when it is
worked off, the queue holds their operands, whose levels are the further levels of the trees. -/
lemma breadthFirstLoop_eq_levels {n : Nat} {trees : List (Expr α)}
    (hdepth : ∀ t ∈ trees, t.depth ≤ n) (walked : List (Expr α)) :
    breadthFirstLoop trees walked =
      walked.reverse ++ (List.range n).flatMap fun i => trees.flatMap (level i) := by
  induction n generalizing trees walked with
  | zero =>
    have hempty : trees = [] := List.eq_nil_iff_forall_not_mem.mpr fun t ht =>
      absurd (hdepth t ht) (Nat.not_le_of_lt t.depth_pos)
    subst hempty
    simp [breadthFirstLoop]
  | succ n ih =>
    have hoperands : ∀ t ∈ trees.flatMap children, t.depth ≤ n := by
      intro t ht
      obtain ⟨e, he, ht⟩ := List.mem_flatMap.mp ht
      exact Nat.le_of_lt_succ (Nat.lt_of_lt_of_le (depth_lt_of_mem_children ht) (hdepth e he))
    have hfirst : trees.flatMap (level 0) = trees := List.flatMap_singleton' trees
    have hnext (i : Nat) :
        (trees.flatMap children).flatMap (level i) = trees.flatMap (level (i + 1)) :=
      List.flatMap_assoc
    have hlevel := breadthFirstLoop_append trees [] walked
    rw [List.append_nil, List.nil_append] at hlevel
    rw [hlevel, ih hoperands, List.range_succ_eq_map, List.flatMap_cons, List.flatMap_map, hfirst,
      List.reverse_append, List.reverse_reverse, List.append_assoc]
    simp only [hnext]

/-- **The walk in breadth lists the levels from the root down.** -/
theorem breadthFirst_eq_levels (e : Expr α) : e.breadthFirst = e.levels.flatten := by
  have hdepth : ∀ t ∈ [e], t.depth ≤ e.depth := by simp
  rw [breadthFirst, breadthFirstLoop_eq_levels hdepth, levels, ← List.flatMap_def]
  simp

/-! ## The walks in depth -/

/-- The nodes of the left and the right subtree behind the root. -/
def rootFirst : Expr α → List (Expr α)
  | constant value => [constant value]
  | var name => [var name]
  | binary op left right => binary op left right :: (left.rootFirst ++ right.rootFirst)

/-- The nodes of the left and the right subtree before the root. -/
def rootLast : Expr α → List (Expr α)
  | constant value => [constant value]
  | var name => [var name]
  | binary op left right => left.rootLast ++ right.rootLast ++ [binary op left right]

/-- The pre-order walk lists each root first. -/
lemma preorder_eq_rootFirst (e : Expr α) : e.preorder = e.rootFirst := by
  induction e with
  | constant _ | var _ => simp [rootFirst]
  | binary op left right ihl ihr => rw [preorder_binary, ihl, ihr, rootFirst]

/-- The post-order walk lists each root last. -/
lemma postorder_eq_rootLast (e : Expr α) : e.postorder = e.rootLast := by
  induction e with
  | constant _ | var _ => simp [rootLast]
  | binary op left right ihl ihr => rw [postorder_binary, ihl, ihr, rootLast]

/-! ## All nodes -/

/-- The pre-order walk lists every node. -/
lemma length_preorder (e : Expr α) : e.preorder.length = e.size := by
  induction e with
  | constant _ | var _ => simp [size]
  | binary op left right ihl ihr =>
    rw [preorder_binary, List.length_cons, List.length_append, ihl, ihr, size]
    omega

/-- The walks in depth list the same nodes. -/
lemma postorder_perm_preorder (e : Expr α) : e.postorder.Perm e.preorder := by
  induction e with
  | constant _ | var _ => simp
  | binary op left right ihl ihr =>
    rw [postorder_binary, preorder_binary]
    exact List.perm_append_singleton _ _ |>.trans ((ihl.append ihr).cons _)

/-- The pre-order walk lists the nodes of the operands behind the root. -/
lemma preorder_eq_cons (e : Expr α) : e.preorder = e :: e.children.flatMap preorder := by
  cases e <;> simp [children]

/-- From a queue of trees, the walk in breadth lists the nodes of all of them. -/
lemma breadthFirstLoop_perm (queue walked : List (Expr α)) :
    (breadthFirstLoop queue walked).Perm (walked ++ queue.flatMap preorder) := by
  fun_induction breadthFirstLoop queue walked with
  | case1 walked => simp
  | case2 walked e rest ih =>
    refine ih.trans ?_
    rw [List.flatMap_append, List.flatMap_cons, preorder_eq_cons, List.cons_append,
      List.cons_append]
    exact List.perm_middle.symm.trans
      (List.Perm.append_left walked (List.perm_append_comm.cons e))

/-- The walk in breadth lists the same nodes as the walks in depth. -/
lemma breadthFirst_perm_preorder (e : Expr α) : e.breadthFirst.Perm e.preorder := by
  simpa [breadthFirst] using breadthFirstLoop_perm [e] []

/-- In every order, the walk lists the nodes of the pre-order walk. -/
lemma nodes_perm_preorder (order : WalkOrder) (e : Expr α) : (e.nodes order).Perm e.preorder := by
  cases order with
  | breadthFirst => exact e.breadthFirst_perm_preorder
  | depthFirst => exact .refl _
  | postorder => exact e.postorder_perm_preorder

/-! ## Searches -/

/-- The nodes of all variants together are all nodes. -/
lemma flatMap_nodesOfKind_perm (e : Expr α) :
    (Kind.all.flatMap fun kind => e.nodesOfKind kind).Perm e.breadthFirst := by
  classical
  refine List.perm_iff_count.mpr fun t => ?_
  have hcount (kind : Kind) :
      (e.nodesOfKind kind).count t = if t.kind = kind then e.breadthFirst.count t else 0 := by
    split_ifs with hkind
    · exact List.count_filter (by simpa using hkind)
    · exact List.count_eq_zero.mpr fun h => hkind (by simpa using List.of_mem_filter h)
  cases hkind : t.kind <;> simp [Kind.all, hcount, hkind]

end Expr

/-- The symbols are those of the operators. -/
lemma Op.ofSymbol?_eq_some_iff {symbol : String} {op : Op} :
    Op.ofSymbol? symbol = some op ↔ symbol = op.symbol := by
  have hadd : Op.add.symbol = "+" := rfl
  have hmul : Op.mul.symbol = "*" := rfl
  rw [Op.ofSymbol?]
  cases op <;> split_ifs <;> simp_all

namespace Expr

/-- The search by a symbol is the search by the variant of its operator, and any other value is
refused. -/
lemma nodesOfOperator_eq_ok_iff {α : Type} {e : Expr α} {symbol : Value} {found : List (Expr α)} :
    e.nodesOfOperator symbol = .ok found ↔
      ∃ op : Op, symbol = .text op.symbol ∧ found = e.nodesOfKind op.kind := by
  cases symbol with
  | text s =>
    rw [nodesOfOperator]
    cases hop : Op.ofSymbol? s with
    | none =>
      refine iff_of_false nofun ?_
      rintro ⟨op, hs, -⟩
      have hsome := Op.ofSymbol?_eq_some_iff.mpr (Value.text.inj hs)
      rw [hop] at hsome
      cases hsome
    | some op =>
      obtain rfl := Op.ofSymbol?_eq_some_iff.mp hop
      constructor
      · intro h
        exact ⟨op, rfl, (Except.ok.inj h).symm⟩
      · rintro ⟨op', hs, rfl⟩
        have hsome := Op.ofSymbol?_eq_some_iff.mpr (Value.text.inj hs)
        rw [hop] at hsome
        rw [Option.some.inj hsome]
  | _ =>
    refine iff_of_false nofun ?_
    rintro ⟨op, hs, -⟩
    cases hs

/-- **The walks list the nodes in their orders, and all three the same nodes.** In breadth these are
the levels from the root down; a level holds the subtrees at the positions of its length, from left
to right, and there is one for each node of the longest path. In depth, the nodes of every subtree
are together, with the root first or last. Each order is a rearrangement of each other one and has
all nodes, and both orders in depth come to the leaves from left to right. A search by variant
or by operator gives the nodes of the walk in breadth that have it, in their order, so each node is
found for one variant of the four.

**Proof sketch.** The queue of the walk in breadth holds the rest of one level and what the nodes
before it have added of the next (`breadthFirstLoop_append`), so the levels come one after the
other. The walks in depth obey the recursive equations (`preorder_binary`, `postorder_binary`). -/
theorem nodes_by_order {α : Type} (e : Expr α) :
    (e.nodes .breadthFirst = e.levels.flatten ∧
      (∀ n t, t ∈ e.level n ↔ ∃ p, p.length = n ∧ e.subtree? p = some t) ∧
      ∀ n, e.level n = [] ↔ e.depth ≤ n) ∧
    e.nodes .depthFirst = e.rootFirst ∧
    e.nodes .postorder = e.rootLast ∧
    (∀ order other, (e.nodes order).Perm (e.nodes other) ∧ (e.nodes order).length = e.size) ∧
    ((e.nodes .depthFirst).filter isLeaf = e.leaves ∧
      (e.nodes .postorder).filter isLeaf = e.leaves) ∧
    (∀ kind, e.nodesOfKind kind = (e.nodes .breadthFirst).filter fun t => t.kind == kind) ∧
    (∀ symbol found, e.nodesOfOperator symbol = .ok found ↔ ∃ op : Op, symbol = .text op.symbol ∧
      found = (e.nodes .breadthFirst).filter fun t => t.kind == op.kind) ∧
    (Kind.all.flatMap fun kind => e.nodesOfKind kind).Perm (e.nodes .breadthFirst) ∧
    ∀ kind t, t ∈ e.nodesOfKind kind ↔ t ∈ e.nodes .breadthFirst ∧ t.kind = kind := by
  refine ⟨⟨e.breadthFirst_eq_levels, fun n t => mem_level_iff, fun n => level_eq_nil_iff⟩,
    e.preorder_eq_rootFirst, e.postorder_eq_rootLast, fun order other => ⟨?perm, ?length⟩,
    ⟨e.filter_isLeaf_preorder, e.filter_isLeaf_postorder⟩, fun kind => rfl,
    fun symbol found => nodesOfOperator_eq_ok_iff, e.flatMap_nodesOfKind_perm, fun kind t => ?mem⟩
  case perm => exact (nodes_perm_preorder order e).trans (nodes_perm_preorder other e).symm
  case length => rw [(nodes_perm_preorder order e).length_eq, length_preorder]
  case mem => simp [nodesOfKind, nodes, List.mem_filter]

end Expr

end SumProduct
