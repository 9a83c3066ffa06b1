import SumProduct.Text.Class

/-!
# Expressions

Expressions are trees of constants, variables, sums and products. The type of the constants is a
parameter, so that the same operations run on rounded numbers and are reasoned about over any ring.
The names of variables are words of one or more ASCII letters. A name carries the fact that it is
one, so that every expression has well-formed names only.

## Main definitions

* `SumProduct.isWord` — the character sequences that are names.
* `SumProduct.Name` — a text with the proof that it is one.
* `SumProduct.Op` — the two binary operations.
* `SumProduct.Expr` — expressions over a type of constants.
* `SumProduct.Kind` — the four variants of an expression, with their rank in writing.
* `SumProduct.Expr.foldM` — the bottom-up fold, left operand first.
* `SumProduct.Expr.size`, `SumProduct.Expr.depth` — the measures of a tree.
-/

namespace SumProduct

universe u v

/-! ## Names -/

/-- Whether there are one or more characters, all of them ASCII letters. -/
def isWord (text : List Char) : Bool := !text.isEmpty && text.all isLetter

/-- A variable name. -/
structure Name where
  /-- The letters of the name. -/
  text : String
  /-- They are letters, and there is at least one. -/
  isWord_text : isWord text.toList = true
  deriving DecidableEq

/-- The name with this text, if it is one. -/
def Name.ofText? (text : String) : Option Name :=
  if h : isWord text.toList = true then some ⟨text, h⟩ else none

/-! ## Operators and trees -/

/-- The binary operations. -/
inductive Op where
  /-- Addition. -/
  | add
  /-- Multiplication. -/
  | mul
  deriving DecidableEq

/-- The operation on numbers that an operator stands for. -/
def Op.apply {α : Type u} [Add α] [Mul α] : Op → α → α → α
  | add, a, b => a + b
  | mul, a, b => a * b

/-- The character that an operator is written with. -/
def Op.char : Op → Char
  | add => '+'
  | mul => '*'

/-- The operator as text. -/
def Op.symbol (op : Op) : String := String.singleton op.char

/-- The operator that a text stands for. -/
def Op.ofSymbol? (text : String) : Option Op :=
  if text = "+" then some .add else if text = "*" then some .mul else none

/-- An expression over constants of type `α`. -/
inductive Expr (α : Type u) where
  /-- A constant. -/
  | constant (value : α)
  /-- A variable. -/
  | var (name : Name)
  /-- A sum or product of two operands. -/
  | binary (op : Op) (left right : Expr α)
  deriving DecidableEq

/-- The variants of an expression. -/
inductive Kind where
  /-- Constants. -/
  | constant
  /-- Variables. -/
  | var
  /-- Sums. -/
  | sum
  /-- Products. -/
  | product
  deriving DecidableEq

/-- The variant of the expressions that an operator builds. -/
def Op.kind : Op → Kind
  | add => .sum
  | mul => .product

namespace Kind

/-- All variants, in the order of their numbers. -/
def all : List Kind := [constant, var, sum, product]

/-- The number of a variant. -/
def number : Kind → Nat
  | constant => 0
  | var => 1
  | sum => 2
  | product => 3

/-- The variant with a number. -/
def ofNumber? (n : Int) : Option Kind := all.find? fun k => (k.number : Int) == n

/-- The name of the constructor of a variant. -/
def name : Kind → String
  | constant => "Constant"
  | var => "Variable"
  | sum => "Sum"
  | product => "Product"

/-- The label of a variant in tables. -/
def label : Kind → String
  | constant => "CONSTANT"
  | var => "VARIABLE"
  | sum => "SUM"
  | product => "PRODUCT"

/-- How tightly a variant binds: products more than sums, and leaves most. -/
def precedence : Kind → Nat
  | sum => 1
  | product => 2
  | constant => 3
  | var => 3

/-- The operator of a variant with operands. -/
def op? : Kind → Option Op
  | sum => some .add
  | product => some .mul
  | constant => none
  | var => none

end Kind

namespace Expr

variable {α : Type u}

/-- The variant of an expression. -/
def kind : Expr α → Kind
  | constant _ => .constant
  | var _ => .var
  | binary op _ _ => op.kind

/-- The operands, in order. -/
def children : Expr α → List (Expr α)
  | constant _ => []
  | var _ => []
  | binary _ left right => [left, right]

/-- The value of a constant. -/
def value? : Expr α → Option α
  | constant value => some value
  | _ => none

/-- The name of a variable. -/
def name? : Expr α → Option Name
  | var name => some name
  | _ => none

/-- The parts of an expression with operands. -/
def binary? : Expr α → Option (Op × Expr α × Expr α)
  | binary op left right => some (op, left, right)
  | _ => none

/-- The number of nodes. -/
def size : Expr α → Nat
  | constant _ => 1
  | var _ => 1
  | binary _ left right => 1 + left.size + right.size

/-- The number of nodes on the longest path to a leaf. -/
def depth : Expr α → Nat
  | constant _ => 1
  | var _ => 1
  | binary _ left right => 1 + max left.depth right.depth

/-- The bottom-up fold: the left subtree, then the right one, then the node with the two results.
The steps run in a monad, so a step may fail or leave a trace. -/
def foldM {m : Type v → Type v} [Monad m] {β : Type v} (visit : Expr α → List β → m β) :
    Expr α → m β
  | constant value => visit (constant value) []
  | var name => visit (var name) []
  | binary op left right => do
    let a ← left.foldM visit
    let b ← right.foldM visit
    visit (binary op left right) [a, b]

end Expr

end SumProduct
