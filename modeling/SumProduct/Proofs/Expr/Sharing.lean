import SumProduct.Proofs.Expr.Fold
import SumProduct.Proofs.Expr.Position
import SumProduct.Proofs.Expr.Specialization

/-!
# Simplification with shared parts

Simplification makes no copy of a part in which it has nothing to do: the result holds the very tree
of the expression there. Results are described with the parts that they take over, so that a tree
that was built again is told from the tree itself even if the two are equal.

## Main definitions

* `SumProduct.Shared` — a result of simplification, with the parts that it takes over.
* `SumProduct.Expr.share` — specialization with shared parts.
* `SumProduct.Expr.simplifyNode`, `SumProduct.Expr.simplifyShared` — what simplification does at a
  node, and its fold over an expression.

## Main results

* `SumProduct.Expr.toExpr_share` — the result as an expression is the specialized one.
* `SumProduct.Expr.map_toExpr_simplifyShared` — the fold with shared parts simplifies.
-/

namespace SumProduct

universe u

/-- A result of simplification, with the parts that it takes over. -/
inductive Shared (α : Type u) where
  /-- A part of the expression that is taken over as it is. -/
  | kept (e : Expr α)
  /-- A new constant. -/
  | fresh (value : α)
  /-- A new node over two results. -/
  | rebuilt (op : Op) (left right : Shared α)
  deriving DecidableEq

namespace Shared

variable {α : Type u}

/-- The result as an expression. -/
def toExpr : Shared α → Expr α
  | kept e => e
  | fresh value => .constant value
  | rebuilt op left right => .binary op left.toExpr right.toExpr

/-- The operand on a side; the operands of a part that is taken over are taken over with it. -/
def operand? : Shared α → Expr.Side → Option (Shared α)
  | kept e, side => (e.operand? side).map kept
  | fresh _, _ => none
  | rebuilt _ left _, .left => some left
  | rebuilt _ _ right, .right => some right

/-- The part at a position. -/
def part? : Shared α → List Expr.Side → Option (Shared α)
  | s, [] => some s
  | s, side :: p => (s.operand? side).bind fun t => t.part? p

/-- A node over the results of its operands: a new constant if both are constants, the node itself
if both are the operands themselves, and a new node otherwise. -/
def node [Add α] [Mul α] [DecidableEq α] (op : Op) (left right : Expr α) (a b : Shared α) :
    Shared α :=
  match a.toExpr.value?, b.toExpr.value? with
  | some x, some y => fresh (op.apply x y)
  | _, _ => if a = kept left ∧ b = kept right then kept (.binary op left right) else rebuilt op a b

end Shared

namespace Expr

variable {α : Type u}

/-! ## Results with shared parts -/

/-- An expression has a value when it is a constant. -/
lemma value?_eq_some_iff {e : Expr α} {x : α} : e.value? = some x ↔ e = constant x := by
  cases e <;> simp [value?]

variable [Add α] [Mul α] [DecidableEq α]

/-- A node over results that are not both constants is a node. -/
lemma node_eq_of_not_constants {op : Op} {left right : Expr α} {a b : Shared α}
    (h : ¬ ∃ x y, a.toExpr = constant x ∧ b.toExpr = constant y) :
    Shared.node op left right a b =
      if a = .kept left ∧ b = .kept right then .kept (binary op left right)
      else .rebuilt op a b := by
  unfold Shared.node
  split
  · next x y hx hy => exact absurd ⟨x, y, value?_eq_some_iff.mp hx, value?_eq_some_iff.mp hy⟩ h
  · rfl

/-- As an expression, a node over results is the simplified node over their expressions. -/
lemma toExpr_node (op : Op) (left right : Expr α) (a b : Shared α) :
    (Shared.node op left right a b).toExpr = (combine op a.toExpr b.toExpr).2 := by
  by_cases h : ∃ x y, a.toExpr = constant x ∧ b.toExpr = constant y
  · obtain ⟨x, y, hx, hy⟩ := h
    rw [Shared.node, hx, hy]
    rfl
  · rw [node_eq_of_not_constants h, combine_eq_binary h]
    split_ifs with hkept
    · rw [hkept.1, hkept.2]
      rfl
    · rfl

/-- Specialization, with the parts that are taken over. -/
def share (bound : Name → Option α) : Expr α → Shared α
  | constant value => .kept (constant value)
  | var name => (bound name).elim (.kept (var name)) .fresh
  | binary op left right => .node op left right (left.share bound) (right.share bound)

/-- With its shared parts forgotten, the result is the specialized expression. -/
theorem toExpr_share (bound : Name → Option α) (e : Expr α) :
    (e.share bound).toExpr = e.specialize bound := by
  induction e with
  | constant value => rfl
  | var name => cases h : bound name <;> simp [share, specialize, Shared.toExpr, h]
  | binary op left right ihl ihr => rw [share, toExpr_node, ihl, ihr, specialize]

/-! ## Simplification as a fold -/

/-- What simplification does at a node with the results of its operands. -/
def simplifyNode (env : Environment) :
    Expr Binary64 → List (Shared Binary64) → Except ConversionError (Shared Binary64)
  | constant value, _ => .ok (.kept (constant value))
  | var name, _ => (env.bound name).map fun number => number.elim (.kept (var name)) .fresh
  | binary op left right, results =>
    .ok (.node op left right (results.getD 0 (.kept left)) (results.getD 1 (.kept right)))

/-- Simplification with shared parts. -/
def simplifyShared (e : Expr Binary64) (env : Environment) :
    Except ConversionError (Shared Binary64) :=
  e.foldM (simplifyNode env)

/-- With shared parts forgotten, the fold is simplification; it fails exactly as that does. -/
theorem map_toExpr_simplifyShared (e : Expr Binary64) (env : Environment) :
    (e.simplifyShared env).map Shared.toExpr = e.simplify env := by
  rw [simplify, simplifyShared]
  induction e with
  | constant value => rfl
  | var name =>
    rw [foldM, simplifyNode, simplifyWith, simplifyTraced]
    cases env.bound name with
    | error fault => rfl
    | ok number => cases number <;> rfl
  | binary op left right ihl ihr =>
    rw [simplifyWith] at ihl ihr
    rw [foldM, simplifyWith, simplifyTraced]
    rcases hl : left.simplifyTraced env.bound with ⟨before, outcome⟩
    rcases hr : right.simplifyTraced env.bound with ⟨after, outcome'⟩
    rw [hl] at ihl
    rw [hr] at ihr
    simp only at ihl ihr
    subst ihl ihr
    cases left.foldM (simplifyNode env) with
    | error fault => rfl
    | ok a =>
      cases right.foldM (simplifyNode env) with
      | error fault => rfl
      | ok b => exact congrArg Except.ok (toExpr_node op left right a b)

/-- Simplification with shared parts specializes to the numbers of the environment. -/
theorem simplifyShared_eq_share {e : Expr Binary64} {env : Environment} (hconv : env.Converts e) :
    e.simplifyShared env = .ok (e.share env.numbers) := by
  rw [simplifyShared]
  induction e with
  | constant value => rfl
  | var name =>
    rw [foldM, simplifyNode, hconv.bound_eq (by simp), share]
    rfl
  | binary op left right ihl ihr =>
    have hleft : env.Converts left := fun n hn => hconv n (by simp [hn])
    have hright : env.Converts right := fun n hn => hconv n (by simp [hn])
    rw [foldM, ihl hleft, ihr hright]
    rfl

end Expr

end SumProduct
