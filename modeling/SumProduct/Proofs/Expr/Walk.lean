import Mathlib.Tactic.Common
import SumProduct.Expr.Walk
import SumProduct.Proofs.Bindings

/-!
# The walks as recursion

The loops over an explicit stack list the nodes of a node's operands one operand after the other, so
the walks obey the recursive equations that a reader expects of them.

## Main definitions

* `SumProduct.Expr.leaves` — the leaves from left to right.

## Main results

* `SumProduct.Expr.postorder_binary` — the operands from left to right, then the node.
* `SumProduct.Expr.preorder_binary` — the node, then the operands from left to right.
* `SumProduct.Expr.occurrences_binary`, `SumProduct.Expr.constants_binary` — variables and constants
  are listed from left to right.
* `SumProduct.Expr.filter_isLeaf_preorder`, `SumProduct.Expr.filter_isLeaf_postorder` — so are the
  leaves, in both orders.
* `SumProduct.Expr.mem_usage_iff`, `SumProduct.Expr.nodup_usage` — each variable is counted, once.
-/

namespace SumProduct

namespace Expr

universe u

variable {α : Type u}

/-! ## Post-order -/

/-- The loop lists what has been walked first. -/
lemma postorderLoop_walked (stack : List (Visit α)) (walked before : List (Expr α)) :
    postorderLoop stack (walked ++ before) = before.reverse ++ postorderLoop stack walked := by
  fun_induction postorderLoop stack walked <;> simp_all [postorderLoop]

/-- The entries on top of a stack are done before those below them. -/
lemma postorderLoop_append (top stack : List (Visit α)) :
    postorderLoop (top ++ stack) [] = postorderLoop top [] ++ postorderLoop stack [] := by
  have hgeneral (walked : List (Expr α)) : postorderLoop (top ++ stack) walked =
      postorderLoop stack (postorderLoop top walked).reverse := by
    fun_induction postorderLoop top walked <;> simp_all [postorderLoop]
  rw [hgeneral, ← List.nil_append (List.reverse _), postorderLoop_walked, List.reverse_reverse]

/-- The walk of a constant lists the constant. -/
@[simp] lemma postorder_constant (value : α) : (constant value).postorder = [constant value] := by
  simp [postorder, postorderLoop]

/-- The walk of a variable lists the variable. -/
@[simp] lemma postorder_var (name : Name) : (var name : Expr α).postorder = [var name] := by
  simp [postorder, postorderLoop]

/-- The walk of a node lists its left operand, its right operand and then the node. -/
@[simp] lemma postorder_binary (op : Op) (left right : Expr α) :
    (binary op left right).postorder =
      left.postorder ++ right.postorder ++ [binary op left right] := by
  have hleave : postorderLoop [.leave (binary op left right)] [] = [binary op left right] := by
    simp [postorderLoop]
  rw [postorder, postorderLoop, ← List.singleton_append, postorderLoop_append,
    ← List.singleton_append (l := [_]), postorderLoop_append, hleave, ← List.append_assoc]
  rfl

/-! ## Pre-order -/

/-- The loop lists what has been walked first. -/
lemma preorderLoop_walked (stack walked before : List (Expr α)) :
    preorderLoop stack (walked ++ before) = before.reverse ++ preorderLoop stack walked := by
  fun_induction preorderLoop stack walked <;> simp_all [preorderLoop]

/-- The subtrees on top of a stack are walked before those below them. -/
lemma preorderLoop_append (top stack : List (Expr α)) :
    preorderLoop (top ++ stack) [] = preorderLoop top [] ++ preorderLoop stack [] := by
  have hgeneral (walked : List (Expr α)) : preorderLoop (top ++ stack) walked =
      preorderLoop stack (preorderLoop top walked).reverse := by
    fun_induction preorderLoop top walked <;> simp_all [preorderLoop]
  rw [hgeneral, ← List.nil_append (List.reverse _), preorderLoop_walked, List.reverse_reverse]

/-- The walk of a constant lists the constant. -/
@[simp] lemma preorder_constant (value : α) : (constant value).preorder = [constant value] := by
  simp [preorder, preorderLoop, children]

/-- The walk of a variable lists the variable. -/
@[simp] lemma preorder_var (name : Name) : (var name : Expr α).preorder = [var name] := by
  simp [preorder, preorderLoop, children]

/-- The walk of a node lists the node, its left operand and then its right operand. -/
@[simp] lemma preorder_binary (op : Op) (left right : Expr α) :
    (binary op left right).preorder =
      binary op left right :: (left.preorder ++ right.preorder) := by
  have hoperands : preorderLoop [left, right] [] = left.preorder ++ right.preorder :=
    preorderLoop_append [left] [right]
  rw [preorder, preorderLoop, children, List.append_nil, ← List.nil_append [binary op left right],
    preorderLoop_walked, hoperands]
  rfl

/-! ## Variables and constants -/

/-- A constant has no variables. -/
@[simp] lemma occurrences_constant (value : α) : (constant value).occurrences = [] := by
  simp [occurrences, name?]

/-- A variable occurs once in itself. -/
@[simp] lemma occurrences_var (name : Name) : (var name : Expr α).occurrences = [name] := by
  simp [occurrences, name?]

/-- The variables of a node are those of its operands, from left to right. -/
@[simp] lemma occurrences_binary (op : Op) (left right : Expr α) :
    (binary op left right).occurrences = left.occurrences ++ right.occurrences := by
  simp [occurrences, List.filterMap_append, name?]

/-- A constant lists itself. -/
@[simp] lemma constants_constant (value : α) : (constant value).constants = [value] := by
  simp [constants, value?]

/-- A variable has no constants. -/
@[simp] lemma constants_var (name : Name) : (var name : Expr α).constants = [] := by
  simp [constants, value?]

/-- The constants of a node are those of its operands, from left to right. -/
@[simp] lemma constants_binary (op : Op) (left right : Expr α) :
    (binary op left right).constants = left.constants ++ right.constants := by
  have hnode : value? (binary op left right) = none := rfl
  simp [constants, hnode]

/-! ## Leaves -/

/-- Whether a node has no operands. -/
def isLeaf (e : Expr α) : Bool := e.children.isEmpty

/-- The leaves from left to right. -/
def leaves : Expr α → List (Expr α)
  | constant value => [constant value]
  | var name => [var name]
  | binary _ left right => left.leaves ++ right.leaves

/-- A leaf is all its leaves. -/
lemma leaves_of_isLeaf {e : Expr α} (h : e.isLeaf) : e.leaves = [e] := by
  cases e with
  | constant _ | var _ => rfl
  | binary op left right => cases h

/-- Every tree has a leaf. -/
lemma length_leaves_pos (e : Expr α) : 0 < e.leaves.length := by
  induction e with
  | constant _ | var _ => exact Nat.one_pos
  | binary op left right ihl ihr =>
    rw [leaves, List.length_append]
    omega

/-- Every node but the leaves joins two subtrees, so there is one leaf more than these. -/
lemma size_add_one (e : Expr α) : e.size + 1 = 2 * e.leaves.length := by
  induction e with
  | constant _ | var _ => rfl
  | binary op left right ihl ihr =>
    rw [size, leaves, List.length_append]
    omega

/-- Every path to a leaf has a node. -/
lemma depth_pos (e : Expr α) : 0 < e.depth := by
  cases e <;> simp [depth, Nat.add_comm 1]

/-- The pre-order walk comes to the leaves from left to right. -/
lemma filter_isLeaf_preorder (e : Expr α) : e.preorder.filter isLeaf = e.leaves := by
  induction e with
  | constant _ | var _ => simp [leaves, isLeaf, children]
  | binary op left right ihl ihr =>
    have hnode : (binary op left right).isLeaf = false := rfl
    simp [leaves, hnode, ihl, ihr]

/-- The post-order walk comes to the leaves from left to right. -/
lemma filter_isLeaf_postorder (e : Expr α) : e.postorder.filter isLeaf = e.leaves := by
  induction e with
  | constant _ | var _ => simp [leaves, isLeaf, children]
  | binary op left right ihl ihr =>
    have hnode : (binary op left right).isLeaf = false := rfl
    simp [leaves, hnode, ihl, ihr]

/-! ## Counts of variables -/

/-- The names of the variables are those that occur. -/
lemma mem_variableNames_iff {e : Expr α} {name : String} :
    name ∈ e.variableNames ↔ ∃ n ∈ e.occurrences, n.text = name := by
  rw [variableNames, sortTexts, List.mem_mergeSort, List.mem_eraseDups, List.mem_map]

/-- The usage has an entry for each name that occurs, with the number of its occurrences. -/
lemma mem_usage_iff {e : Expr α} {name : String} {k : Nat} :
    (name, k) ∈ e.usage ↔ 0 < k ∧ (e.occurrences.map (·.text)).count name = k := by
  have hoccurs : name ∈ sortTexts (e.occurrences.map (·.text)).eraseDups ↔
      0 < (e.occurrences.map (·.text)).count name := by
    rw [sortTexts, List.mem_mergeSort, List.mem_eraseDups, List.count_pos_iff]
  simp only [usage, List.mem_map, Prod.mk.injEq]
  constructor
  · rintro ⟨other, hmem, rfl, rfl⟩
    exact ⟨hoccurs.mp hmem, rfl⟩
  · rintro ⟨hpos, rfl⟩
    exact ⟨name, hoccurs.mpr hpos, rfl, rfl⟩

/-- The usage has no two entries for one name. -/
lemma nodup_usage (e : Expr α) : (e.usage.map Prod.fst).Nodup := by
  have hnames : e.usage.map Prod.fst = sortTexts (e.occurrences.map (·.text)).eraseDups := by
    simp [usage, Function.comp_def]
  rw [hnames, sortTexts]
  exact (List.mergeSort_perm _ _).nodup_iff.mpr (nodup_eraseDups _)

end Expr

end SumProduct
