import SumProduct.Expr.Basic
import SumProduct.Value

/-!
# Construction

Building expressions from values of any kind. Constants are made of integers and numbers, variables
of texts that are names, and sums and products of expressions alone; the operator forms also take
an integer or number in place of one operand.

## Main definitions

* `SumProduct.ConstructionError` — why nothing can be built.
* `SumProduct.Operand` — an expression or any other value.
* `SumProduct.Expr.ofNumber`, `SumProduct.Expr.ofName` — constants and variables.
* `SumProduct.Operand.join` — sums and products of expressions.
* `SumProduct.Operand.operate` — sums and products with constants made on the way.
* `SumProduct.Instruction`, `SumProduct.Instruction.build` — construction in postfix order.
-/

namespace SumProduct

/-- Why nothing can be built. -/
inductive ConstructionError where
  /-- A constant of a value of this kind. -/
  | notANumber (kind : String)
  /-- A constant of an integer that no number is near to. -/
  | conversion (fault : ConversionError)
  /-- A variable of something that is no name. -/
  | notAName (shown : String)
  /-- A sum or product of something that is no expression. -/
  | notAnExpression (kind : Kind)
  /-- An operation on values of kinds that it is not defined on. -/
  | unsupported (op : Op) (left right : String)
  /-- A product of an expression and a sequence. -/
  | notRepeatable (kind : String)
  /-- Nothing, or no expression, is left at the end. -/
  | incomplete
  deriving DecidableEq

/-- The wording of a failed construction. -/
def ConstructionError.message : ConstructionError → String
  | notANumber kind => "Constant value must be a number, got " ++ kind
  | conversion fault => fault.message
  | notAName shown => "Variable name must be a nonempty string of letters, got " ++ shown
  | notAnExpression kind => kind.name ++ " operands must be Expression instances"
  | unsupported op left right =>
    "unsupported operand type(s) for " ++ op.symbol ++ ": '" ++ left ++ "' and '" ++ right ++ "'"
  | notRepeatable kind => "can't multiply sequence by non-int of type '" ++ kind ++ "'"
  | incomplete => "no expression"

namespace Expr

/-- The constant of a value. -/
def ofNumber : Value → Except ConstructionError (Expr Binary64)
  | .integer i =>
    match Value.integerToBinary64 i with
    | .ok x => .ok (constant x)
    | .error fault => .error (.conversion fault)
  | .real x => .ok (constant x)
  | v => .error (.notANumber v.kindName)

/-- The variable of a value. -/
def ofName : Value → Except ConstructionError (Expr Binary64)
  | .text s =>
    match Name.ofText? s with
    | some name => .ok (var name)
    | none => .error (.notAName (quoted s))
  | v => .error (.notAName v.shown)

end Expr

/-- An expression or any other value. -/
inductive Operand where
  /-- An expression. -/
  | expr (e : Expr Binary64)
  /-- Another value. -/
  | value (v : Value)

namespace Operand

/-- The name of an operand's kind, as messages give it. -/
def kindName : Operand → String
  | expr e => e.kind.name
  | value v => v.kindName

/-- The sum or product of two expressions. -/
def join (op : Op) : Operand → Operand → Except ConstructionError (Expr Binary64)
  | expr a, expr b => .ok (.binary op a b)
  | _, _ => .error (.notAnExpression op.kind)

/-- Whether a value is a sequence, which a product would repeat. -/
def isSequence : Value → Bool
  | .text _ => true
  | .list _ => true
  | _ => false

/-- What an operation says about an operand that it is not defined on. -/
def refusal (op : Op) (left right : Operand) : ConstructionError :=
  match op, left, right with
  | .mul, expr e, value v =>
    if isSequence v then .notRepeatable e.kind.name
    else .unsupported .mul e.kind.name v.kindName
  | op, left, right => .unsupported op left.kindName right.kindName

/-- The expression that an operand stands for in an operation: integers and numbers become
constants. -/
def promote (refused : ConstructionError) : Operand → Except ConstructionError (Expr Binary64)
  | expr e => .ok e
  | value (.integer i) => Expr.ofNumber (.integer i)
  | value (.real x) => Expr.ofNumber (.real x)
  | value _ => .error refused

/-- The sum or product of two operands, at least one of them an expression. -/
def operate (op : Op) (left right : Operand) : Except ConstructionError (Expr Binary64) :=
  match left, right with
  | value _, value _ => .error (refusal op left right)
  | _, _ =>
    match left.promote (refusal op left right) with
    | .error fault => .error fault
    | .ok a =>
      match right.promote (refusal op left right) with
      | .error fault => .error fault
      | .ok b => .ok (.binary op a b)

end Operand

/-! ## Postfix order -/

/-- A step of a construction in postfix order. -/
inductive Instruction where
  /-- Put the constant of a value on the stack. -/
  | constant (v : Value)
  /-- Put the variable of a value on the stack. -/
  | var (v : Value)
  /-- Put a value on the stack as it is. -/
  | raw (v : Value)
  /-- Replace the two topmost operands, the right one on top, by their sum or product. -/
  | join (op : Op)

namespace Instruction

/-- The stack after one step. -/
def step (stack : List Operand) : Instruction → Except ConstructionError (List Operand)
  | constant v => (Expr.ofNumber v).map (.expr · :: stack)
  | var v => (Expr.ofName v).map (.expr · :: stack)
  | raw v => .ok (.value v :: stack)
  | join op =>
    match stack with
    | right :: left :: rest => (left.join op right).map (.expr · :: rest)
    | _ => .error .incomplete

/-- The stack after several steps, or the first fault. -/
def run (stack : List Operand) : List Instruction → Except ConstructionError (List Operand)
  | [] => .ok stack
  | i :: rest =>
    match i.step stack with
    | .error fault => .error fault
    | .ok next => run next rest

/-- The expression that a construction leaves on top of the stack. -/
def build (steps : List Instruction) : Except ConstructionError (Expr Binary64) :=
  match run [] steps with
  | .error fault => .error fault
  | .ok (.expr e :: _) => .ok e
  | .ok _ => .error .incomplete

end Instruction

end SumProduct
