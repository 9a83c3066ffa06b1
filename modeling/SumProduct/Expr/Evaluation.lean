import SumProduct.Bindings
import SumProduct.Expr.Basic
import SumProduct.Value

/-!
# Evaluation

The value of an expression under an assignment of its variables. Reading a variable may fail; the
first failure from left to right is the outcome.

## Main definitions

* `SumProduct.Expr.evaluateWith` — evaluation over any numbers, with any way to read variables.
* `SumProduct.Environment` — bindings of names to values of any kind.
* `SumProduct.EvaluationError` — why a variable has no number.
* `SumProduct.Expr.evaluate` — evaluation in an environment.

## Implementation notes

A bound value is converted to a number only where its variable is met, so an unused binding never
fails.
-/

namespace SumProduct

universe u v

namespace Expr

variable {α : Type u} [Add α] [Mul α]

/-- The value of an expression, where `read` gives the numbers of its variables. -/
def evaluateWith {ε : Type u} (read : Name → Except ε α) : Expr α → Except ε α
  | constant value => .ok value
  | var name => read name
  | binary op left right =>
    match left.evaluateWith read with
    | .error fault => .error fault
    | .ok a =>
      match right.evaluateWith read with
      | .error fault => .error fault
      | .ok b => .ok (op.apply a b)

end Expr

/-- Why an expression has no value in an environment. -/
inductive EvaluationError where
  /-- A variable is not bound. -/
  | missing (name : Name)
  /-- A variable is bound to a value that is no number. -/
  | conversion (fault : ConversionError)
  deriving DecidableEq

/-- The wording for a name that is not bound. -/
def missingText (name : String) : String := "Variable " ++ name ++ " not found in environment"

/-- The wording of a failed evaluation. -/
def EvaluationError.message : EvaluationError → String
  | missing name => missingText name.text
  | conversion fault => fault.message

/-- Bindings of texts, among them names, to values of any kind. -/
abbrev Environment := Bindings String Value

/-- The number that a variable is bound to; `none` if it is not bound. -/
def Environment.bound (env : Environment) (name : Name) :
    Except ConversionError (Option Binary64) :=
  match env.find? name.text with
  | none => .ok none
  | some value =>
    match value.toBinary64 with
    | .ok x => .ok (some x)
    | .error fault => .error fault

/-- The number of a variable that has to be bound. -/
def Environment.read (env : Environment) (name : Name) : Except EvaluationError Binary64 :=
  match env.bound name with
  | .ok (some x) => .ok x
  | .ok none => .error (.missing name)
  | .error fault => .error (.conversion fault)

/-- The value of an expression in an environment. -/
def Expr.evaluate (e : Expr Binary64) (env : Environment) : Except EvaluationError Binary64 :=
  e.evaluateWith env.read

end SumProduct
