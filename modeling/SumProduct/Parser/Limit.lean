import SumProduct.Value

/-!
# Nesting limits

The number of parentheses that may be open at once while an expression is read.

## Main definitions

* `SumProduct.NestingLimit` — a positive number of levels.
* `SumProduct.NestingLimit.standard` — the limit that holds unless another is given.
* `SumProduct.NestingLimit.ofValue` — the limit that a value sets.
-/

namespace SumProduct

/-- A limit on nesting. -/
structure NestingLimit where
  /-- The number of levels. -/
  levels : Nat
  /-- At least one level is allowed. -/
  levels_pos : 0 < levels
  deriving DecidableEq

/-- Why a value sets no limit. -/
inductive LimitError where
  /-- The value is no integer. -/
  | notInteger
  /-- The value is an integer below one. -/
  | notPositive
  deriving DecidableEq

/-- The wording of a refused limit. -/
def LimitError.message : LimitError → String
  | notInteger => "max_nesting_depth must be an integer"
  | notPositive => "max_nesting_depth must be greater than 0"

namespace NestingLimit

/-- The limit that holds unless another is given. -/
def standard : NestingLimit := ⟨200, by decide⟩

/-- The limit that a value sets; truth values are no integers. -/
def ofValue : Value → Except LimitError NestingLimit
  | .integer i => if h : 0 < i.toNat then .ok ⟨i.toNat, h⟩ else .error .notPositive
  | _ => .error .notInteger

/-- The limit that an optional value sets. -/
def ofOption : Option Value → Except LimitError NestingLimit
  | none => .ok standard
  | some v => ofValue v

end NestingLimit

end SumProduct
