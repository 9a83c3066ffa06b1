import Mathlib.Tactic.Common
import SumProduct.Algebra.Canonical
import SumProduct.Algebra.System
import SumProduct.Batch
import SumProduct.Calculus
import SumProduct.Expr.Text
import SumProduct.Proofs.Expr.Walk

/-!
# The fold over a stack as recursion

The loop that folds a tree goes through its nodes in post-order and keeps the results of finished
subtrees on a stack. Nothing that it does to a subtree touches the results below, so it computes
what the recursive fold computes, and it stops at the same visit if a visit fails. Hence every
function of trees that is given by recursion is the fold of what it does at a node: the texts of an
expression, its derivative, its formulas and its column over the rows of a table.

## Main definitions

* `SumProduct.Expr.literalNode`, `SumProduct.Expr.groupedNode`, `SumProduct.Expr.constructorNode` —
  what writing does at a node.
* `SumProduct.Expr.derivativeNode`, `SumProduct.Expr.rowsNode` — what differentiation and batch
  evaluation do at a node.
* `SumProduct.AlgebraSystem.formulaNode`, `SumProduct.Formula.ofNode` — the formula of a node.

## Main results

* `SumProduct.Expr.foldLoop_postorder_append` — the nodes of a tree come to one result on the stack.
* `SumProduct.Expr.foldStack_eq_foldM` — the fold over a stack is the recursive one.
* `SumProduct.Expr.foldStack_eq_of_step` — a function that obeys the recursion is the fold.
* `SumProduct.Expr.foldStack_literalText`, `SumProduct.Expr.foldStack_groupedText`,
  `SumProduct.Expr.foldStack_constructorText` — the texts as folds.
* `SumProduct.Expr.foldStack_derivative`, `SumProduct.Expr.foldStack_evaluateRows` — differentiation
  and batch evaluation as folds.
* `SumProduct.AlgebraSystem.foldStack_formula`, `SumProduct.Formula.foldStack_ofExpr` — the formulas
  as folds.
-/

namespace SumProduct

universe u v

namespace Expr

/-! ## The loop -/

section Loop

variable {α : Type u} {m : Type v → Type v} [Monad m] [LawfulMonad m] {β : Type v}

/-- The loop visits the nodes of a tree as the recursive fold does, and puts the result of the tree
on the stack.

**Proof sketch.** Induction on the tree, for all nodes that follow and all stacks. The operands of a
node leave their results on top of the stack, the right one above the left one, where the visit of
the node takes them. -/
theorem foldLoop_postorder_append (visit : Expr α → List β → m β) (e : Expr α)
    (rest : List (Expr α)) (results : List β) :
    foldLoop visit (e.postorder ++ rest) results =
      e.foldM visit >>= fun result => foldLoop visit rest (result :: results) := by
  induction e generalizing rest results with
  | constant value => simp [foldLoop, foldM, children]
  | var name => simp [foldLoop, foldM, children]
  | binary op left right ihl ihr =>
    rw [postorder_binary, List.append_assoc, List.append_assoc, ihl]
    simp only [ihr, foldM, bind_assoc]
    rfl

/-- The fold over a stack is the recursive fold, and one result is left on the stack. -/
theorem foldStack_eq_foldM (visit : Expr α → List β → m β) (e : Expr α) :
    foldStack visit e = e.foldM visit >>= fun result => pure [result] := by
  have hloop := foldLoop_postorder_append visit e [] []
  rwa [List.append_nil] at hloop

/-- **A function that obeys the recursion of the visits is the fold over a stack.** At a leaf it is
the visit of the leaf, and at any other node it is the visit of the node with what it is for the
operands, left operand first. -/
theorem foldStack_eq_of_step {visit : Expr α → List β → m β} {f : Expr α → m β}
    (hconstant : ∀ value, f (constant value) = visit (constant value) [])
    (hvar : ∀ name, f (var name) = visit (var name) [])
    (hbinary : ∀ op left right, f (binary op left right) = do
      let a ← f left
      let b ← f right
      visit (binary op left right) [a, b]) (e : Expr α) :
    foldStack visit e = (fun result => [result]) <$> f e := by
  have hfold : e.foldM visit = f e := by
    induction e with
    | constant value => exact (hconstant value).symm
    | var name => exact (hvar name).symm
    | binary op left right ihl ihr => rw [foldM, ihl, ihr, hbinary]
  rw [foldStack_eq_foldM, hfold, bind_pure_comp]

end Loop

/-- A function that obeys the recursion of visits without effects is the fold over a stack. -/
theorem foldStack_eq_singleton {α : Type u} {β : Type v} {visit : Expr α → List β → β}
    {f : Expr α → β} (hconstant : ∀ value, f (constant value) = visit (constant value) [])
    (hvar : ∀ name, f (var name) = visit (var name) [])
    (hbinary : ∀ op left right,
      f (binary op left right) = visit (binary op left right) [f left, f right]) (e : Expr α) :
    foldStack (m := Id) visit e = [f e] :=
  foldStack_eq_of_step (m := Id) hconstant hvar hbinary e

/-! ## Texts -/

/-- What the literal form writes for a node with the texts of its operands. -/
def literalNode : Expr Binary64 → List String → String
  | constant value, _ => value.plainText
  | var name, _ => name.text
  | binary op _ _, texts => joinText op (texts.getD 0 "") (texts.getD 1 "")

/-- What the constructor form writes for a node with the texts of its operands. -/
def constructorNode : Expr Binary64 → List String → String
  | constant value, _ => "Constant(" ++ value.fullText ++ ")"
  | var name, _ => "Variable('" ++ name.text ++ "')"
  | binary op _ _, texts =>
    op.kind.name ++ "(" ++ texts.getD 0 "" ++ ", " ++ texts.getD 1 "" ++ ")"

/-- What the grouped form writes for a node, and how tightly the node binds. Of each operand the
text is known and how tightly it binds. A text is put in parentheses when it binds less tightly than
the node, and in second place also when it binds equally. -/
def groupedNode (e : Expr Binary64) (operands : List (String × Nat)) : String × Nat :=
  let own := e.kind.precedence
  let texts := operands.mapIdx fun place operand =>
    groupIf (operand.2 < own || (place == 1 && operand.2 == own)) operand.1
  (literalNode e texts, own)

/-- The literal form is a fold. -/
lemma foldStack_literalText (e : Expr Binary64) :
    foldStack (m := Id) literalNode e = [e.literalText] :=
  foldStack_eq_singleton (fun _ => rfl) (fun _ => rfl) (fun _ _ _ => rfl) e

/-- The constructor form is a fold. -/
lemma foldStack_constructorText (e : Expr Binary64) :
    foldStack (m := Id) constructorNode e = [e.constructorText] :=
  foldStack_eq_singleton (fun _ => rfl) (fun _ => rfl) (fun _ _ _ => rfl) e

/-- The grouped form is a fold, which carries how tightly each node binds. -/
lemma foldStack_groupedText (e : Expr Binary64) :
    foldStack (m := Id) groupedNode e = [(e.groupedText, e.kind.precedence)] := by
  refine foldStack_eq_singleton (f := fun e => (e.groupedText, e.kind.precedence))
    (fun _ => rfl) (fun _ => rfl) (fun op left right => ?_) e
  have hleft : decide (NeedsGroup op .left left) =
      (decide (left.kind.precedence < op.kind.precedence) ||
        (0 == 1 && left.kind.precedence == op.kind.precedence)) := by
    simp [NeedsGroup]
  have hright : decide (NeedsGroup op .right right) =
      (decide (right.kind.precedence < op.kind.precedence) ||
        right.kind.precedence == op.kind.precedence) := by
    rw [Bool.eq_iff_iff]
    simp [NeedsGroup, Nat.le_iff_lt_or_eq]
  rw [groupedText, hleft, hright]
  rfl

/-! ## Derivatives -/

/-- The derivative of a node with the derivatives of its operands. -/
def derivativeNode {α : Type u} [Zero α] [One α] (x : String) :
    Expr α → List (Expr α) → Expr α
  | constant _, _ => constant 0
  | var name, _ => if name.text = x then constant 1 else constant 0
  | binary .add left right, derivatives =>
    binary .add (derivatives.getD 0 left) (derivatives.getD 1 right)
  | binary .mul left right, derivatives =>
    binary .add (binary .mul (derivatives.getD 0 left) right)
      (binary .mul left (derivatives.getD 1 right))

/-- The derivative is a fold. -/
lemma foldStack_derivative {α : Type u} [Zero α] [One α] (x : String) (e : Expr α) :
    foldStack (m := Id) (derivativeNode x) e = [e.derivative x] :=
  foldStack_eq_singleton (fun _ => rfl) (fun _ => rfl) (fun op _ _ => by cases op <;> rfl) e

/-! ## Columns -/

/-- What batch evaluation does at a node with the columns of its operands. -/
def rowsNode (rows : Nat) (read : Name → Except BatchError (List Binary64)) :
    Expr Binary64 → List (List Binary64) → Except BatchError (List Binary64)
  | constant value, _ => .ok (List.replicate rows value)
  | var name, _ => read name
  | binary op _ _, columns => .ok (op.applyRows (columns.getD 0 []) (columns.getD 1 []))

/-- Evaluation over rows is a fold, which ends at the first variable without a column. -/
lemma foldStack_evaluateRows (e : Expr Binary64) (rows : Nat)
    (read : Name → Except BatchError (List Binary64)) :
    foldStack (rowsNode rows read) e = (e.evaluateRows rows read).map fun column => [column] := by
  refine foldStack_eq_of_step (fun _ => rfl) (fun _ => rfl) (fun op left right => ?_) e
  rw [evaluateRows]
  cases left.evaluateRows rows read with
  | error fault => rfl
  | ok a => cases right.evaluateRows rows read <;> rfl

end Expr

/-! ## Formulas -/

/-- The formula of a node in a system with the formulas of its operands. -/
def AlgebraSystem.formulaNode {F : Type u} (S : AlgebraSystem F) : Expr Binary64 → List F → F
  | .constant value, _ => S.number value
  | .var name, _ => S.symbol name.text
  | .binary op _ _, formulas =>
    S.apply op (formulas.getD 0 (S.integer 0)) (formulas.getD 1 (S.integer 0))

/-- The formula of an expression in a system is a fold. -/
lemma AlgebraSystem.foldStack_formula {F : Type u} (S : AlgebraSystem F) (e : Expr Binary64) :
    Expr.foldStack (m := Id) S.formulaNode e = [S.formula e] :=
  Expr.foldStack_eq_singleton (fun _ => rfl) (fun _ => rfl) (fun _ _ _ => rfl) e

/-- The canonical formula of a node with the formulas of its operands. -/
def Formula.ofNode : Expr Binary64 → List Formula → Formula
  | .constant value, _ => number (.ofBinary64 value)
  | .var name, _ => symbol name.text
  | .binary .add _ _, formulas => sumOf formulas
  | .binary .mul _ _, formulas => productOf formulas

/-- The canonical formula of an expression is a fold. -/
lemma Formula.foldStack_ofExpr (e : Expr Binary64) :
    Expr.foldStack (m := Id) ofNode e = [ofExpr e] :=
  Expr.foldStack_eq_singleton (fun _ => rfl) (fun _ => rfl) (fun op _ _ => by cases op <;> rfl) e

end SumProduct
