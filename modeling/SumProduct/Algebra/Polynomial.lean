import SumProduct.Binary64.Basic
import SumProduct.Expr.Basic

/-!
# Polynomials

Polynomials in sorted form, with coefficients of any kind that can be added and multiplied. Two
polynomials with exact coefficients are equal as functions exactly when their forms are the same.

## Main definitions

* `SumProduct.Monomial` — the powers of the variables, in the order of their names.
* `SumProduct.Polynomial` — terms with coefficients other than zero, in the order of monomials.
* `SumProduct.Polynomial.add`, `SumProduct.Polynomial.mul`, `SumProduct.Polynomial.power` — their
  arithmetic.
* `SumProduct.Polynomial.ofExpr?` — the exact polynomial of an expression with finite constants.
-/

namespace SumProduct

universe u

/-- Variables with positive powers, in the order of their names. -/
abbrev Monomial := List (String × Nat)

/-- Texts in the order of their code points. -/
def compareText (a b : String) : Ordering :=
  if a < b then .lt else if b < a then .gt else .eq

namespace Monomial

/-- Monomials are ordered like words of pairs, a word before its continuations. -/
def compare : Monomial → Monomial → Ordering
  | [], [] => .eq
  | [], _ :: _ => .lt
  | _ :: _, [] => .gt
  | (x, m) :: s, (y, n) :: t =>
    ((compareText x y).then (Ord.compare m n)).then (compare s t)

/-- The product with a power of one variable. -/
def insert (x : String) (n : Nat) : Monomial → Monomial
  | [] => [(x, n)]
  | (y, m) :: rest =>
    match compareText x y with
    | .lt => (x, n) :: (y, m) :: rest
    | .eq => (y, n + m) :: rest
    | .gt => (y, m) :: insert x n rest

/-- The product of two monomials. -/
def mul (a b : Monomial) : Monomial := a.foldr (fun p m => insert p.1 p.2 m) b

end Monomial

/-- Terms with coefficients other than zero, in the order of their monomials. -/
abbrev Polynomial (α : Type u) := List (Monomial × α)

namespace Polynomial

variable {α : Type u} [Zero α] [One α] [Add α] [Mul α] [DecidableEq α]

/-- The sum with one term. -/
def addTerm (m : Monomial) (c : α) : Polynomial α → Polynomial α
  | [] => if c = 0 then [] else [(m, c)]
  | (n, d) :: rest =>
    match m.compare n with
    | .lt => if c = 0 then (n, d) :: rest else (m, c) :: (n, d) :: rest
    | .eq => if c + d = 0 then rest else (n, c + d) :: rest
    | .gt => (n, d) :: addTerm m c rest

/-- The sum of two polynomials. -/
def add (p q : Polynomial α) : Polynomial α := p.foldr (fun t r => addTerm t.1 t.2 r) q

/-- The sum of a polynomial and a multiple of another by one term. -/
def addMultiple (m : Monomial) (c : α) (p q : Polynomial α) : Polynomial α :=
  p.foldr (fun t r => addTerm (m.mul t.1) (c * t.2) r) q

/-- The product of two polynomials. -/
def mul (p q : Polynomial α) : Polynomial α := p.foldr (fun t r => addMultiple t.1 t.2 q r) []

/-- A constant polynomial. -/
def constant (c : α) : Polynomial α := addTerm [] c []

/-- The polynomial of a variable. -/
def ofVariable (x : String) : Polynomial α := [([(x, 1)], 1)]

/-- The polynomial of a sum or product. -/
def apply : Op → Polynomial α → Polynomial α → Polynomial α
  | .add, p, q => add p q
  | .mul, p, q => mul p q

/-- The power with a natural exponent. -/
def power (p : Polynomial α) : Nat → Polynomial α
  | 0 => constant 1
  | n + 1 => mul p (power p n)

end Polynomial

/-- The polynomial that an expression denotes when all arithmetic is exact; `none` if a constant is
not finite. -/
def Polynomial.ofExpr? : Expr Binary64 → Option (Polynomial Rat)
  | .constant value => value.toRat?.map constant
  | .var name => some (ofVariable name.text)
  | .binary op left right =>
    match ofExpr? left, ofExpr? right with
    | some p, some q => some (apply op p q)
    | _, _ => none

end SumProduct
