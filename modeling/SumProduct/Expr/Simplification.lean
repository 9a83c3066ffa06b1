import SumProduct.Expr.Evaluation

/-!
# Simplification

Simplification replaces bound variables by constants and computes every operation on two constants.
It changes nothing else: `x * 0` stays as it is while `x` is unbound.

## Main definitions

* `SumProduct.Folding` — one computed operation.
* `SumProduct.Expr.simplifyTraced` — the result together with the operations computed on the way.
* `SumProduct.Expr.simplifyWith` — the result alone.
* `SumProduct.Expr.simplify` — simplification in an environment.
* `SumProduct.Folding.Overflows` — the operations on finite numbers whose result is not finite.
-/

namespace SumProduct

universe u

/-- An operation on two constants that was computed, with its result. -/
structure Folding (α : Type u) where
  /-- The operation. -/
  op : Op
  /-- The left constant. -/
  left : α
  /-- The right constant. -/
  right : α
  /-- The result. -/
  result : α

namespace Expr

variable {α : Type u} [Add α] [Mul α]

/-- A node with simplified operands: a constant with its computation if both operands are constants,
the node over them if not. -/
def combine (op : Op) : Expr α → Expr α → List (Folding α) × Expr α
  | constant a, constant b => ([⟨op, a, b, op.apply a b⟩], constant (op.apply a b))
  | left, right => ([], binary op left right)

/-- Simplification, where `bound` gives the numbers of the variables that have one, and all
operations computed up to the end or to the first failure, in order. -/
def simplifyTraced {ε : Type u} (bound : Name → Except ε (Option α)) :
    Expr α → List (Folding α) × Except ε (Expr α)
  | constant value => ([], .ok (constant value))
  | var name =>
    match bound name with
    | .error fault => ([], .error fault)
    | .ok none => ([], .ok (var name))
    | .ok (some value) => ([], .ok (constant value))
  | binary op left right =>
    match left.simplifyTraced bound with
    | (before, .error fault) => (before, .error fault)
    | (before, .ok a) =>
      match right.simplifyTraced bound with
      | (after, .error fault) => (before ++ after, .error fault)
      | (after, .ok b) =>
        let (here, e) := combine op a b
        (before ++ after ++ here, .ok e)

/-- Simplification, where `bound` gives the numbers of the variables that have one. -/
def simplifyWith {ε : Type u} (bound : Name → Except ε (Option α)) (e : Expr α) :
    Except ε (Expr α) :=
  (e.simplifyTraced bound).2

/-- The operations that simplification computes, in order. -/
def foldings {ε : Type u} (bound : Name → Except ε (Option α)) (e : Expr α) : List (Folding α) :=
  (e.simplifyTraced bound).1

end Expr

/-- An operation overflows when its operands are finite and its result is not. -/
def Folding.Overflows (f : Folding Binary64) : Prop :=
  f.result.isFinite = false ∧ f.left.isFinite = true ∧ f.right.isFinite = true

instance (f : Folding Binary64) : Decidable f.Overflows := by
  unfold Folding.Overflows; infer_instance

/-- The warning about an operation that overflows. -/
def Folding.warning (f : Folding Binary64) : String :=
  "Folding " ++ f.op.symbol ++ " of " ++ f.left.fullText ++ " and " ++ f.right.fullText ++
    " overflowed to " ++ f.result.fullText

/-- Simplification in an environment. -/
def Expr.simplify (e : Expr Binary64) (env : Environment) :
    Except ConversionError (Expr Binary64) :=
  e.simplifyWith env.bound

/-- The warnings that simplification gives, in order. -/
def Expr.simplifyWarnings (e : Expr Binary64) (env : Environment) : List String :=
  ((e.foldings env.bound).filter fun f => decide f.Overflows).map Folding.warning

end SumProduct
