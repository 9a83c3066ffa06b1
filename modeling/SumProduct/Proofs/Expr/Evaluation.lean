import Mathlib.Tactic.Common
import SumProduct.Expr.Evaluation
import SumProduct.Proofs.Expr.Walk

/-!
# Where evaluation fails

Evaluation reads the variables of an expression from left to right and stops at the first one that
cannot be read. So the fault of an evaluation is the first fault among its variables, whatever the
operations are.

## Main definitions

* `SumProduct.faultOf?` — the fault of an outcome.

## Main results

* `SumProduct.Expr.faultOf?_eq_findSome?` — what fails at variables alone fails at the first one.
* `SumProduct.Expr.faultOf?_evaluateWith` — the fault of an evaluation is that of its first
  unreadable variable.
-/

namespace SumProduct

universe u v

/-- The fault of an outcome, if it is one. -/
def faultOf? {ε α : Type u} : Except ε α → Option ε
  | .error fault => some fault
  | .ok _ => none

/-- What is made of a result leaves the fault. -/
@[simp] lemma faultOf?_map {ε α β : Type u} (f : α → β) (outcome : Except ε α) :
    faultOf? (outcome.map f) = faultOf? outcome := by
  cases outcome <;> rfl

/-- An outcome with a fault is that fault. -/
@[simp] lemma faultOf?_eq_some_iff {ε α : Type u} {outcome : Except ε α} {fault : ε} :
    faultOf? outcome = some fault ↔ outcome = .error fault := by
  cases outcome <;> simp [faultOf?]

/-- An outcome without a fault is a result. -/
lemma faultOf?_eq_none_iff {ε α : Type u} {outcome : Except ε α} :
    faultOf? outcome = none ↔ ∃ a, outcome = .ok a := by
  cases outcome <;> simp [faultOf?]

namespace Expr

/-- **What fails at variables alone fails at the first variable that has a fault.** Here `f` may be
any function of trees that succeeds at constants, and that at a node fails as at the left operand,
and if it does not fail there, as at the right one. -/
theorem faultOf?_eq_findSome? {α : Type u} {ε β : Type v} {f : Expr α → Except ε β}
    {fault? : Name → Option ε}
    (hconstant : ∀ value, faultOf? (f (constant value)) = none)
    (hvar : ∀ name, faultOf? (f (var name)) = fault? name)
    (hbinary : ∀ op left right,
      faultOf? (f (binary op left right)) = (faultOf? (f left)).or (faultOf? (f right)))
    (e : Expr α) : faultOf? (f e) = e.occurrences.findSome? fault? := by
  induction e with
  | constant value => simp [hconstant]
  | var name => simp [hvar]
  | binary op left right ihl ihr =>
    rw [hbinary, occurrences_binary, List.findSome?_append, ihl, ihr]

/-- **The fault of an evaluation is that of the first variable that cannot be read.** -/
theorem faultOf?_evaluateWith {ε α : Type u} [Add α] [Mul α] (e : Expr α)
    (read : Name → Except ε α) :
    faultOf? (e.evaluateWith read) = e.occurrences.findSome? fun n => faultOf? (read n) := by
  refine faultOf?_eq_findSome? (fun _ => rfl) (fun _ => rfl) (fun op left right => ?_) e
  rw [evaluateWith]
  cases left.evaluateWith read with
  | error fault => rfl
  | ok a => cases right.evaluateWith read <;> rfl

end Expr

end SumProduct
