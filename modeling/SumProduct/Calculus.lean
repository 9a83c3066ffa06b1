import SumProduct.Expr.Simplification

/-!
# Derivatives

The symbolic derivative by the rules for sums and products, and derivatives taken one after the
other, each with its simplified form and its value. Nothing is cleaned up in a derivative, so it
keeps every zero and one that the rules bring in.

## Main definitions

* `SumProduct.Expr.derivative` — the derivative with respect to one variable.
* `SumProduct.Calculus.Report` — what is said about one derivative.
* `SumProduct.Calculus.reports` — the reports on successive derivatives.
-/

namespace SumProduct

/-! ## One derivative -/

namespace Expr

universe u

variable {α : Type u} [Zero α] [One α]

/-- The derivative with respect to the variable with this name. A text that is no name is the name
of no variable, so everything counts as constant for it. -/
def derivative (x : String) : Expr α → Expr α
  | constant _ => constant 0
  | var name => if name.text = x then constant 1 else constant 0
  | binary .add left right => binary .add (left.derivative x) (right.derivative x)
  | binary .mul left right =>
    binary .add (binary .mul (left.derivative x) right) (binary .mul left (right.derivative x))

end Expr

/-! ## Successive derivatives -/

namespace Calculus

/-- What is said about one derivative. -/
structure Report where
  /-- The derivative. -/
  derivative : Expr Binary64
  /-- Its simplified form in the environment. -/
  simplified : Expr Binary64
  /-- Its value in the environment. -/
  value : Except EvaluationError Binary64

/-- The report on a derivative, unless a bound value that it needs is no number. -/
def report (e : Expr Binary64) (env : Environment) : Except ConversionError Report :=
  (e.simplify env).map fun simplified => ⟨e, simplified, e.evaluate env⟩

/-- The expression to go on with after a derivative: with its constants folded if that is asked for.
Without bindings nothing is converted, so folding never fails. -/
def next (fold : Bool) (e : Expr Binary64) : Expr Binary64 :=
  if fold then
    match e.simplify Bindings.empty with
    | .ok folded => folded
    | .error _ => e
  else e

/-- The reports on the derivatives with respect to each of several names in turn. -/
def reports (fold : Bool) (env : Environment) (e : Expr Binary64) :
    List String → Except ConversionError (List Report)
  | [] => .ok []
  | x :: rest =>
    match report (e.derivative x) env with
    | .error fault => .error fault
    | .ok first => (reports fold env (next fold (e.derivative x)) rest).map (first :: ·)

end Calculus

end SumProduct
