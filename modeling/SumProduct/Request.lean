import SumProduct.Algebra.Formula
import SumProduct.Batch
import SumProduct.Expr.Query
import SumProduct.Parser.Basic

/-!
# Requests

The ways in which requests give their expressions, as a text that is read or step by step, and all
the ways in which a request can fail, as one type.

## Main definitions

* `SumProduct.Failure` — the failures of all parts.
* `SumProduct.Failure.message` — their wording.
* `SumProduct.Expr.parseValue`, `SumProduct.Parser.ofValue` — reading what may or may not be a text.
* `SumProduct.Source` — how an expression is given.
* `SumProduct.Source.read` — the expression of a source.
-/

namespace SumProduct

/-! ## Failures -/

/-- A failed request. -/
inductive Failure where
  /-- A text is no expression. -/
  | parser (fault : ParserFault)
  /-- Something that is no text was to be read. -/
  | notText (kind : String)
  /-- A nesting limit was refused. -/
  | limit (fault : LimitError)
  /-- An expression could not be built. -/
  | construction (fault : ConstructionError)
  /-- An expression has no value. -/
  | evaluation (fault : EvaluationError)
  /-- A bound value is no number. -/
  | conversion (fault : ConversionError)
  /-- A batch evaluation failed. -/
  | batch (fault : BatchError)
  /-- A formula is no expression. -/
  | formula (fault : FormulaError)
  /-- A question was refused. -/
  | query (fault : QueryError)
  /-- There is no register with a number. -/
  | noRegister

/-- The wording of a failure. -/
def Failure.message : Failure → String
  | parser fault => fault.message
  | notText kind => "Expression source must be a string, got " ++ kind
  | limit fault => fault.message
  | construction fault => fault.message
  | evaluation fault => fault.message
  | conversion fault => fault.message
  | batch fault => fault.message
  | formula fault => fault.message
  | query fault => fault.message
  | noRegister => "list index out of range"

/-! ## Sources of expressions -/

/-- The expression that a value denotes as a text, within a limit that an optional value sets. The
limit is looked at first. -/
def Expr.parseValue (text : Value) (limit : Option Value) : Except Failure (Expr Binary64) :=
  match NestingLimit.ofOption limit with
  | .error fault => .error (.limit fault)
  | .ok levels =>
    match text with
    | .text s => (Expr.parse s levels).mapError .parser
    | v => .error (.notText v.kindName)

/-- A parser for a value that is a text, within a limit that an optional value sets. -/
def Parser.ofValue (text : Value) (limit : Option Value) : Except Failure Parser :=
  match NestingLimit.ofOption limit with
  | .error fault => .error (.limit fault)
  | .ok levels =>
    match text with
    | .text s => .ok (Parser.new s levels)
    | v => .error (.notText v.kindName)

/-- How an expression is given. -/
inductive Source where
  /-- As a text that is read. -/
  | text (v : Value)
  /-- By its construction. -/
  | steps (steps : List Instruction)

/-- The expression of a source. -/
def Source.read : Source → Except Failure (Expr Binary64)
  | text v => Expr.parseValue v none
  | steps instructions => (Instruction.build instructions).mapError .construction

end SumProduct
