import SumProduct.Algebra.Formula
import SumProduct.Algebra.Polynomial

/-!
# Canonical formulas

Sums and products in canonical form. A canonical sum has its number in front and then terms with
different cofactors, in order; a canonical product has its number in front and then powers of
different bases, in order. A zero number absorbs a product, a unit in front is left out, and a
finite number that multiplies a single sum is distributed over it. Nothing else is expanded.

## Main definitions

* `SumProduct.Formula.compare` — the order of formulas.
* `SumProduct.Formula.sumOf`, `SumProduct.Formula.productOf` — canonical sums and products.
* `SumProduct.Formula.ofExpr` — the canonical formula of an expression.
* `SumProduct.Formula.difference` — the canonical difference of two formulas.

## Implementation notes

Arguments that are themselves sums in a sum, or products in a product, are taken apart after all the
others; with rounded numbers the order in which numbers are combined can be seen.
-/

namespace SumProduct

namespace Formula

/-! ## Order -/

/-- The place of a formula among the kinds of formulas. -/
def place : Formula → Nat
  | number _ => 0
  | symbol _ => 1
  | power _ _ => 2
  | product _ => 3
  | sum _ => 4
  | foreign _ => 5

mutual

/-- The order of formulas: by kind, sums and products by the number of arguments, and then by the
parts from the left. -/
def compare : Formula → Formula → Ordering
  | number a, number b => a.compare b
  | symbol a, symbol b => compareText a b
  | power a m, power b n => (compare a b).then (compare m n)
  | product as, product bs => (Ord.compare as.length bs.length).then (compareArgs as bs)
  | sum as, sum bs => (Ord.compare as.length bs.length).then (compareArgs as bs)
  | foreign a, foreign b => compareText a.className b.className
  | a, b => Ord.compare a.place b.place

/-- The order of lists of formulas, by the first difference. -/
def compareArgs : List Formula → List Formula → Ordering
  | f :: fs, g :: gs => (compare f g).then (compareArgs fs gs)
  | _, _ => .eq

end

/-- Puts a formula into its place in an ordered list. -/
def insertOrdered (f : Formula) : List Formula → List Formula
  | [] => [f]
  | g :: rest => if f.compare g = .gt then g :: insertOrdered f rest else f :: g :: rest

/-- The formulas of a list, in order. -/
def inOrder (fs : List Formula) : List Formula := fs.foldr insertOrdered []

/-! ## Coefficients -/

/-- The factors of a product, or a formula as the only one. -/
def factors : Formula → List Formula
  | product args => args
  | f => [f]

/-- A product of factors without a number; a single factor stands for itself. -/
def ofFactors : List Formula → Formula
  | [f] => f
  | fs => product fs

/-- A product of a number and factors without one; a one is left out. -/
def withCoefficient (c : Scalar) (fs : List Formula) : Formula :=
  if c = 1 then ofFactors fs else product (number c :: fs)

/-- The number in front of a product, and the cofactor that it multiplies. -/
def splitCoefficient : Formula → Scalar × Formula
  | product (number c :: rest) => (c, ofFactors rest)
  | f => (1, f)

/-- A number times an argument of a canonical sum. -/
def times (c : Scalar) : Formula → Formula
  | number n => number (c * n)
  | f => withCoefficient (c * (splitCoefficient f).1) (factors (splitCoefficient f).2)

/-! ## Sums -/

/-- The arguments of a sum; anything else has none. -/
def summands? : Formula → Option (List Formula)
  | sum args => some args
  | _ => none

/-- Arguments of a sum, those of inner sums behind all others. -/
def spreadSums (args : List Formula) : List Formula :=
  args.filter (fun f => f.summands?.isNone) ++ (args.filterMap summands?).flatten

/-- Adds a multiple of a cofactor to collected terms. -/
def collectTerm (cofactor : Formula) (c : Scalar) :
    List (Formula × Scalar) → List (Formula × Scalar)
  | [] => [(cofactor, c)]
  | (f, d) :: rest =>
    if f.compare cofactor = .eq then (f, d + c) :: rest
    else (f, d) :: collectTerm cofactor c rest

/-- Adds arguments to a number and collected terms, one after the other. -/
def collectSum (n : Scalar) (terms : List (Formula × Scalar)) :
    List Formula → Scalar × List (Formula × Scalar)
  | [] => (n, terms)
  | number m :: rest => collectSum (n + m) terms rest
  | f :: rest =>
    collectSum n (collectTerm (splitCoefficient f).2 (splitCoefficient f).1 terms) rest

/-- The canonical sum of a number and collected terms. -/
def ofCollectedSum (n : Scalar) (terms : List (Formula × Scalar)) : Formula :=
  if n = .nan || terms.any (fun t => decide (t.2 = .nan)) then number .nan
  else
    let proper := terms.filter fun t => decide (t.2 ≠ 0)
    let args := inOrder (proper.map fun t => withCoefficient t.2 (factors t.1))
    join .add (if n = 0 then args else number n :: args)

/-- The canonical sum of canonical formulas. -/
def sumOf (args : List Formula) : Formula :=
  let (n, terms) := collectSum 0 [] (spreadSums args)
  ofCollectedSum n terms

/-! ## Products -/

/-- The arguments of a product; anything else has none. -/
def multiplicands? : Formula → Option (List Formula)
  | product args => some args
  | _ => none

/-- Arguments of a product, those of inner products behind all others. -/
def spreadProducts (args : List Formula) : List Formula :=
  args.filter (fun f => f.multiplicands?.isNone) ++ (args.filterMap multiplicands?).flatten

/-- A base and its exponent; what is no power has the exponent one. -/
def splitPower : Formula → Formula × Nat
  | power base exponent =>
    match positiveExponent? exponent with
    | some k => (base, k)
    | none => (power base exponent, 1)
  | f => (f, 1)

/-- A power with a whole exponent; an exponent of one is left out. -/
def ofPower (p : Formula × Nat) : Formula :=
  if p.2 = 1 then p.1 else power p.1 (number (.exact (p.2 : Nat)))

/-- Multiplies collected powers by a power. -/
def collectPower (base : Formula) (k : Nat) : List (Formula × Nat) → List (Formula × Nat)
  | [] => [(base, k)]
  | (f, m) :: rest =>
    if f.compare base = .eq then (f, m + k) :: rest else (f, m) :: collectPower base k rest

/-- Multiplies a number and collected powers by arguments, one after the other. -/
def collectProduct (n : Scalar) (powers : List (Formula × Nat)) :
    List Formula → Scalar × List (Formula × Nat)
  | [] => (n, powers)
  | number m :: rest => collectProduct (n * m) powers rest
  | f :: rest => collectProduct n (collectPower (splitPower f).1 (splitPower f).2 powers) rest

/-- The canonical product of a number and factors in order: a finite number is distributed over a
single sum. -/
def scale (n : Scalar) (fs : List Formula) : Formula :=
  match fs with
  | [] => number n
  | [sum args] =>
    if n ≠ 1 && n.isFinite then sumOf (args.map (times n)) else withCoefficient n [sum args]
  | _ => withCoefficient n fs

/-- The canonical product of a number and collected powers. -/
def ofCollectedProduct (n : Scalar) (powers : List (Formula × Nat)) : Formula :=
  if n = .nan || n = 0 then number n else scale n (inOrder (powers.map ofPower))

/-- The canonical product of canonical formulas. -/
def productOf (args : List Formula) : Formula :=
  let (n, powers) := collectProduct 1 [] (spreadProducts args)
  ofCollectedProduct n powers

/-! ## Expressions -/

/-- The canonical formula of an expression. -/
def ofExpr : Expr Binary64 → Formula
  | .constant value => number (.ofBinary64 value)
  | .var name => symbol name.text
  | .binary .add left right => sumOf [ofExpr left, ofExpr right]
  | .binary .mul left right => productOf [ofExpr left, ofExpr right]

/-- The canonical difference of canonical formulas. -/
def difference (f g : Formula) : Formula := sumOf [f, productOf [number (.exact (-1)), g]]

end Formula

end SumProduct
