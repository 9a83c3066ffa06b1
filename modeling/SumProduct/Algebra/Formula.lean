import SumProduct.Algebra.Scalar
import SumProduct.Construction

/-!
# Formulas

Formulas of a computer-algebra system, with sums and products of any number of arguments and powers,
and the expressions that they denote. A formula can be read when it is built of finite numbers,
variables, sums, products and positive whole powers.

## Main definitions

* `SumProduct.Foreign` — the objects that are neither numbers, symbols, powers, products nor sums.
* `SumProduct.Formula` — formulas.
* `SumProduct.Formula.join` — a sum or product of arguments as they stand.
* `SumProduct.Formula.quotient` — the number that a fraction of integers denotes.
* `SumProduct.FormulaError` — why a formula is no expression.
* `SumProduct.Formula.toExpr` — the expression of a formula.
-/

namespace SumProduct

/-- An object that occurs in formulas and that no expression denotes. -/
structure Foreign where
  /-- The class of the object, as messages name it. -/
  className : String
  deriving DecidableEq

namespace Foreign

/-- The infinity of the complex plane. -/
def complexInfinity : Foreign := ⟨"ComplexInfinity"⟩

/-- The imaginary unit. -/
def imaginaryUnit : Foreign := ⟨"ImaginaryUnit"⟩

/-- The number pi. -/
def pi : Foreign := ⟨"Pi"⟩

/-- The base of the natural logarithm. -/
def euler : Foreign := ⟨"Exp1"⟩

/-- The truth value true. -/
def truth : Foreign := ⟨"BooleanTrue"⟩

/-- A sine. -/
def sine : Foreign := ⟨"sin"⟩

/-- An absolute value. -/
def absolute : Foreign := ⟨"Abs"⟩

end Foreign

/-- A formula. -/
inductive Formula where
  /-- A number. -/
  | number (n : Scalar)
  /-- A symbol with any name. -/
  | symbol (name : String)
  /-- A power. -/
  | power (base exponent : Formula)
  /-- A product. -/
  | product (args : List Formula)
  /-- A sum. -/
  | sum (args : List Formula)
  /-- Any other object. -/
  | foreign (object : Foreign)

/-- Why a formula is no expression. -/
inductive FormulaError where
  /-- A symbol whose name is no name of a variable. -/
  | construction (fault : ConstructionError)
  /-- A number that is not finite, as it is shown. -/
  | unsupportedNumber (shown : String)
  /-- A power whose exponent is no positive whole number. -/
  | unsupportedPower
  /-- An object that no expression denotes. -/
  | unsupported (object : Foreign)
  deriving DecidableEq

namespace FormulaError

/-- The wording of a refusal, without the number that it is about. -/
def summary : FormulaError → String
  | construction fault => fault.message
  | unsupportedNumber _ => "Unsupported number"
  | unsupportedPower => "Only positive integer powers are supported"
  | unsupported object => "Unsupported SymPy expression (" ++ object.className ++ ")"

/-- The wording of a refusal, with the number that it is about. -/
def message : FormulaError → String
  | unsupportedNumber shown => (unsupportedNumber shown).summary ++ ": " ++ shown
  | fault => fault.summary

end FormulaError

namespace Formula

/-! ## Formulas as they stand -/

/-- The number that no operand of an operator changes anything by. -/
def unit : Op → Scalar
  | .add => 0
  | .mul => 1

/-- A sum or product of arguments as they stand: of none the unit, of one that argument. -/
def join (op : Op) : List Formula → Formula
  | [] => number (unit op)
  | [f] => f
  | args =>
    match op with
    | .add => sum args
    | .mul => product args

/-- The quotient of two integers. Over zero it is the infinity of the complex plane, and zero over
zero is not a number. -/
def quotient (p q : Int) : Formula :=
  if q = 0 then if p = 0 then number .nan else foreign .complexInfinity
  else number (.exact (mkRat (p * q.sign) q.natAbs))

/-! ## The expression of a formula -/

/-- The exponent of a power as a positive whole number. Only exact numbers count. -/
def positiveExponent? : Formula → Option Nat
  | number (.exact q) => if q.den = 1 ∧ 0 < q.num then some q.num.toNat else none
  | _ => none

/-- The product of `count + 1` copies of an expression, grouped from the left. -/
def repeated (base : Expr Binary64) : Nat → Expr Binary64
  | 0 => base
  | count + 1 => .binary .mul (repeated base count) base

/-- The constant of a finite number. -/
def ofScalar (n : Scalar) : Except FormulaError (Expr Binary64) :=
  if n.isFinite then .ok (.constant n.toBinary64) else .error (.unsupportedNumber n.text)

/-- The expressions joined by an operator, grouped from the left; of none the constant `unit`. -/
def chain (op : Op) (unit : Binary64) : List (Expr Binary64) → Expr Binary64
  | [] => .constant unit
  | first :: rest => rest.foldl (.binary op) first

mutual

/-- The expression of a formula; of several faults the first from the left counts. -/
def toExpr : Formula → Except FormulaError (Expr Binary64)
  | number n => ofScalar n
  | symbol name =>
    match Expr.ofName (.text name) with
    | .ok e => .ok e
    | .error fault => .error (.construction fault)
  | power base exponent =>
    match positiveExponent? exponent with
    | none => .error .unsupportedPower
    | some k => (toExpr base).map fun e => repeated e (k - 1)
  | product args => (toExprs args).map (chain .mul 1)
  | sum args => (toExprs args).map (chain .add 0)
  | foreign object => .error (.unsupported object)

/-- The expressions of several formulas. -/
def toExprs : List Formula → Except FormulaError (List (Expr Binary64))
  | [] => .ok []
  | f :: rest =>
    match toExpr f with
    | .error fault => .error fault
    | .ok e => (toExprs rest).map (e :: ·)

end

end Formula

end SumProduct
