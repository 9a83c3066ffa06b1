import SumProduct.Algebra.Canonical

/-!
# Equivalence

When two expressions are the same function. Whole constants are exact, so expressions with whole
constants are compared as polynomials. With other constants the numbers are rounded on the way, and
expressions are equivalent when the difference of their canonical formulas vanishes: at once, after
powers that all its terms share are taken out, or after it is expanded.

## Main definitions

* `SumProduct.Formula.toPolynomial?` — the polynomial of a formula.
* `SumProduct.Formula.vanishes` — the formulas that come out as zero.
* `SumProduct.Expr.equivalent` — equivalence of expressions.
-/

namespace SumProduct

namespace Formula

/-! ## Expansion -/

mutual

/-- The polynomial of a formula; `none` if it has a part that is no polynomial. -/
def toPolynomial? : Formula → Option (Polynomial Scalar)
  | number n => some (.constant n)
  | symbol name => some (.ofVariable name)
  | power base exponent =>
    match positiveExponent? exponent with
    | none => none
    | some k => (toPolynomial? base).map fun p => p.power k
  | product args => (toPolynomials? args).map fun ps => ps.foldr Polynomial.mul (.constant 1)
  | sum args => (toPolynomials? args).map fun ps => ps.foldl Polynomial.add []
  | foreign _ => none

/-- The polynomials of several formulas. -/
def toPolynomials? : List Formula → Option (List (Polynomial Scalar))
  | [] => some []
  | f :: rest =>
    match toPolynomial? f with
    | none => none
    | some p => (toPolynomials? rest).map (p :: ·)

end

/-! ## Shared powers -/

/-- The number and the powers that a term consists of. -/
def powers (term : Formula) : Scalar × List (Formula × Nat) :=
  collectProduct 1 [] (factors term)

/-- The exponent of a base among powers. -/
def exponentOf (base : Formula) (ps : List (Formula × Nat)) : Nat :=
  ((ps.find? fun p => p.1.compare base = .eq).map (·.2)).getD 0

/-- The powers that two lists of powers share. -/
def sharedPowers (ps qs : List (Formula × Nat)) : List (Formula × Nat) :=
  (ps.map fun p => (p.1, min p.2 (exponentOf p.1 qs))).filter fun p => p.2 != 0

/-- What is left of a term when powers are taken out of it. -/
def without (shared : List (Formula × Nat)) (term : Formula) : Formula :=
  let (n, ps) := term.powers
  let left := (ps.map fun p => (p.1, p.2 - exponentOf p.1 shared)).filter fun p => p.2 != 0
  ofCollectedProduct n left

/-- A sum without the powers that all its terms share. -/
def withoutSharedPowers : Formula → Formula
  | sum (first :: rest) =>
    let shared := rest.foldl (fun ps term => sharedPowers ps term.powers.2) first.powers.2
    sumOf ((first :: rest).map (without shared))
  | f => f

/-! ## Zero -/

/-- Whether a formula is the number zero. -/
def isZero : Formula → Bool
  | number n => n = 0
  | _ => false

/-- Whether a formula comes out as zero. -/
def vanishes (f : Formula) : Bool :=
  f.isZero || f.withoutSharedPowers.isZero ||
    match f.toPolynomial? with
    | some p => p.isEmpty
    | none => false

end Formula

namespace Expr

/-- Whether all constants are whole numbers. -/
def hasWholeConstants : Expr Binary64 → Bool
  | constant value => value.isIntegral
  | var _ => true
  | binary _ left right => left.hasWholeConstants && right.hasWholeConstants

/-- Whether two expressions are equivalent. -/
def equivalent (a b : Expr Binary64) : Bool :=
  if a.hasWholeConstants && b.hasWholeConstants then
    decide (Polynomial.ofExpr? a = Polynomial.ofExpr? b)
  else ((Formula.ofExpr a).difference (Formula.ofExpr b)).vanishes

end Expr

end SumProduct
