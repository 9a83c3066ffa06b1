import SumProduct.Expr.Walk
import SumProduct.Value

/-!
# Queries that may be refused

Questions about expressions whose answer depends on a name, symbol or number that the caller gives,
or on the variant of the expression, and the reasons for refusing them.

## Main definitions

* `SumProduct.QueryError` — the reasons.
* `SumProduct.Expr.listNodes` — the nodes in an order given by name.
* `SumProduct.Expr.nodesOfOperator` — the nodes of an operator given by its symbol.
* `SumProduct.Op.ofNumber`, `SumProduct.Op.ofRowNumber` — the operator of a variant given by number.
* `SumProduct.Expr.partOf` — a part that only some variants have.
-/

namespace SumProduct

/-- Why a question about an expression has no answer. -/
inductive QueryError where
  /-- No order has this name. -/
  | unknownOrder (shown : String)
  /-- No operator has this symbol. -/
  | unknownOperator (shown : String)
  /-- No variant has this number. -/
  | unknownKind (n : Int)
  /-- The variant has no operands. -/
  | leafKind (kind : Kind)
  /-- The variant has no operands, in an operation on columns. -/
  | leafRows
  /-- The variant has no such part. -/
  | noPart (owner part : String)
  /-- Expressions cannot be changed. -/
  | immutable (owner : String)
  deriving DecidableEq

/-- The wording of a refused question. -/
def QueryError.message : QueryError → String
  | unknownOrder shown => "Invalid traversal_order: " ++ shown
  | unknownOperator shown => "Unknown operator: " ++ shown
  | unknownKind n => integerText n ++ " is not a valid NodeType"
  | leafKind kind =>
    "Not a binary node type: <NodeType." ++ kind.label ++ ": " ++ naturalText kind.number ++ ">"
  | leafRows => "evaluate_binary_op only handles SUM and PRODUCT node types"
  | noPart owner part => "'" ++ owner ++ "' object has no attribute '" ++ part ++ "'"
  | immutable owner => owner ++ " is immutable"

namespace Op

/-- The operator of the variant with a number. -/
def ofNumber (n : Int) : Except QueryError Op :=
  match Kind.ofNumber? n with
  | none => .error (.unknownKind n)
  | some kind =>
    match kind.op? with
    | some op => .ok op
    | none => .error (.leafKind kind)

/-- The operator of the variant with a number, for an operation on columns. -/
def ofRowNumber (n : Int) : Except QueryError Op :=
  match (Kind.ofNumber? n).bind Kind.op? with
  | some op => .ok op
  | none => .error .leafRows

end Op

namespace Expr

variable {α : Type}

/-- The nodes in the order that a value names. -/
def listNodes (order : Value) (e : Expr α) : Except QueryError (List (Expr α)) :=
  match order with
  | .text name =>
    match WalkOrder.ofName? name with
    | some o => .ok (e.nodes o)
    | none => .error (.unknownOrder name)
  | v => .error (.unknownOrder v.display)

/-- The nodes of the operator that a value is the symbol of, level by level. -/
def nodesOfOperator (symbol : Value) (e : Expr α) : Except QueryError (List (Expr α)) :=
  match symbol with
  | .text s =>
    match Op.ofSymbol? s with
    | some op => .ok (e.nodesOfKind op.kind)
    | none => .error (.unknownOperator (quoted s))
  | v => .error (.unknownOperator v.shown)

/-- The nodes of the variant with a number, level by level. -/
def nodesOfNumber (n : Int) (e : Expr α) : List (Expr α) :=
  match Kind.ofNumber? n with
  | some kind => e.nodesOfKind kind
  | none => []

/-- A part of an expression, or the refusal if its variant lacks it. -/
def partOf {β : Type} (e : Expr α) (part : String) (found : Option β) : Except QueryError β :=
  match found with
  | some b => .ok b
  | none => .error (.noPart e.kind.name part)

end Expr

end SumProduct
