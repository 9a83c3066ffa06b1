import SumProduct.Binary64.Text
import SumProduct.Expr.Basic

/-!
# Written expressions

The three texts of an expression. The constructor form names every node and says everything about a
tree. The literal form joins operands by operators and drops all grouping. The grouped form adds
parentheses exactly where reading from left to right would group otherwise.

## Main definitions

* `SumProduct.Expr.constructorText` — `Sum(Variable('x'), Constant(3.0))`.
* `SumProduct.Expr.literalText` — `x + 3`.
* `SumProduct.Expr.groupedText` — `(x + 3) * y`.
* `SumProduct.Expr.NeedsGroup` — when an operand is put in parentheses.
* `SumProduct.Expr.bracketStep` — a fold step that brackets every operation.
-/

namespace SumProduct

namespace Expr

/-- The side of an operator that an operand is on. -/
inductive Side where
  /-- Before the operator. -/
  | left
  /-- After the operator. -/
  | right
  deriving DecidableEq

/-- The constructor form. -/
def constructorText : Expr Binary64 → String
  | constant value => "Constant(" ++ value.fullText ++ ")"
  | var name => "Variable('" ++ name.text ++ "')"
  | binary op left right =>
    op.kind.name ++ "(" ++ left.constructorText ++ ", " ++ right.constructorText ++ ")"

/-- Two texts around an operator. -/
def joinText (op : Op) (left right : String) : String :=
  left ++ (" " ++ op.symbol ++ " ") ++ right

/-- The literal form, without parentheses. -/
def literalText : Expr Binary64 → String
  | constant value => value.plainText
  | var name => name.text
  | binary op left right => joinText op left.literalText right.literalText

/-- An operand of `op` needs grouping when it binds less tightly than `op`, and on the right also
when it binds equally, because operators group from the left. -/
def NeedsGroup {α : Type} (op : Op) (side : Side) (operand : Expr α) : Prop :=
  match side with
  | .left => operand.kind.precedence < op.kind.precedence
  | .right => operand.kind.precedence ≤ op.kind.precedence

instance {α : Type} (op : Op) (side : Side) (operand : Expr α) :
    Decidable (NeedsGroup op side operand) := by
  cases side <;> unfold NeedsGroup <;> infer_instance

/-- A text in parentheses, where they are needed. -/
def groupIf (needed : Bool) (text : String) : String :=
  if needed then "(" ++ text ++ ")" else text

/-- The grouped form, with the parentheses that are needed. -/
def groupedText : Expr Binary64 → String
  | constant value => value.plainText
  | var name => name.text
  | binary op left right =>
    joinText op (groupIf (decide (NeedsGroup op .left left)) left.groupedText)
      (groupIf (decide (NeedsGroup op .right right)) right.groupedText)

/-- A node as a label: the operator of an inner node, the constructor form of a leaf. -/
def labelText : Expr Binary64 → String
  | binary op _ _ => op.symbol
  | leaf => leaf.constructorText

/-- One step of a fold that brackets every operation and writes no spaces. -/
def bracketStep (e : Expr Binary64) (operands : List String) : String :=
  match e with
  | binary op _ _ => "[" ++ op.symbol.intercalate operands ++ "]"
  | leaf => leaf.literalText

end Expr

end SumProduct
