import SumProduct.Calculus
import SumProduct.Expr.Equality
import SumProduct.Expr.Simplification
import SumProduct.Request

/-!
# Sessions

A session keeps the expressions that its steps yield in registers, numbered in order, and a table
from expressions to values. A step that fails leaves the session as it was.

## Main definitions

* `SumProduct.Session` — registers and table.
* `SumProduct.Session.Argument` — a register or a value.
* `SumProduct.Session.Step`, `SumProduct.Session.step` — what can be asked of a session.
* `SumProduct.Session.Answer` — what it answers.
-/

namespace SumProduct

/-- The text that a value offers as the name of a variable; what is no text offers the empty text,
which is no name. -/
def Value.nameText : Value → String
  | text s => s
  | _ => ""

/-- A session. -/
structure Session where
  /-- The expressions so far, first one first. -/
  registers : Array (Expr Binary64)
  /-- The table. -/
  table : Bindings (Expr Binary64) Value

namespace Session

/-- A session at its start. -/
def start : Session := ⟨#[], Bindings.empty⟩

/-- An argument of a step. -/
inductive Argument where
  /-- The expression in a register. -/
  | register (n : Nat)
  /-- A value. -/
  | value (v : Value)

/-- What can be asked of a session about one expression. -/
inductive Query where
  /-- The value in an environment. -/
  | evaluate (env : Environment)
  /-- The value of a constant. -/
  | value
  /-- The name of a variable. -/
  | name
  /-- The operator. -/
  | operator
  /-- The number of the variant. -/
  | kind
  /-- The operands. -/
  | children
  /-- The result of the operator on two values. -/
  | combine (left right : Value)
  /-- The literal form. -/
  | literal
  /-- The grouped form. -/
  | grouped
  /-- The number of nodes. -/
  | size
  /-- The height. -/
  | depth
  /-- The names of the variables. -/
  | names
  /-- A copy that is made by building the tree again. -/
  | rebuild
  /-- A change of the expression. -/
  | change

/-- A step that yields an expression from one. -/
inductive Transform where
  /-- The left operand. -/
  | left
  /-- The right operand. -/
  | right
  /-- The same expression. -/
  | copy
  /-- The derivative. -/
  | derivative (x : Value)
  /-- The simplified expression. -/
  | simplify (env : Environment)

/-- A step. -/
inductive Step where
  /-- To build the constant of a value. -/
  | constant (v : Value)
  /-- To build the variable of a value. -/
  | var (v : Value)
  /-- To read an expression. -/
  | read (source : Source)
  /-- To join two expressions. -/
  | join (op : Op) (a b : Argument)
  /-- To operate on two arguments. -/
  | operate (op : Op) (a b : Argument)
  /-- To transform an expression. -/
  | transform (a : Argument) (t : Transform)
  /-- To ask about an expression. -/
  | query (a : Argument) (q : Query)
  /-- To tell whether two arguments are equal expressions. -/
  | equal (a b : Argument)
  /-- To tell whether two arguments are no equal expressions. -/
  | notEqual (a b : Argument)
  /-- To tell whether two arguments are expressions with one fingerprint. -/
  | fingerprintEqual (a b : Argument)
  /-- To store a value under an expression. -/
  | put (a : Argument) (v : Value)
  /-- To look up the value stored under an expression. -/
  | get (a : Argument)

/-- What a session answers. -/
inductive Answer where
  /-- An expression, with its register. -/
  | stored (index : Nat) (e : Expr Binary64)
  /-- A number. -/
  | number (x : Binary64)
  /-- A count. -/
  | natural (n : Nat)
  /-- A truth value. -/
  | truth (b : Bool)
  /-- A name or symbol. -/
  | text (s : String)
  /-- A written expression. -/
  | rendering (s : String)
  /-- Several texts. -/
  | texts (ts : List String)
  /-- A stored value, if there is one. -/
  | value (v : Option Value)
  /-- A rebuilt copy: whether it is equal to the first and has its fingerprint. -/
  | rebuilt (equal fingerprint : Bool) (e : Expr Binary64)
  /-- A failure. -/
  | failed (f : Failure)

/-- The operand that an argument stands for. -/
def operand (s : Session) : Argument → Except Failure Operand
  | .value v => .ok (.value v)
  | .register n =>
    match s.registers[n]? with
    | some e => .ok (.expr e)
    | none => .error .noRegister

/-- The expression that an argument stands for; a value has none of the parts of expressions. -/
def expression (s : Session) (part : String) (a : Argument) : Except Failure (Expr Binary64) :=
  match s.operand a with
  | .error fault => .error fault
  | .ok (.expr e) => .ok e
  | .ok (.value v) => .error (.query (.noPart v.kindName part))

/-- Stores the expression of an outcome in the next register. -/
def store (s : Session) : Except Failure (Expr Binary64) → Session × Answer
  | .ok e => ({ s with registers := s.registers.push e }, .stored s.registers.size e)
  | .error fault => (s, .failed fault)

/-- An outcome as an answer. -/
def Answer.ofOutcome {β : Type} (f : β → Answer) : Except Failure β → Answer
  | .ok b => f b
  | .error fault => failed fault

/-- The name of the part that a question is about. -/
def Query.part : Query → String
  | evaluate _ => "evaluate"
  | value => "value"
  | name => "name"
  | operator => "operator"
  | kind => "node_type"
  | children => "children"
  | combine _ _ => "combine"
  | literal => "to_string"
  | grouped => "to_string"
  | size => "size"
  | depth => "depth"
  | names => "variables"
  | rebuild => "copy"
  | change => "set"

/-- The name of the part that a transformation is about. -/
def Transform.part : Transform → String
  | left => "left"
  | right => "right"
  | copy => "copy"
  | derivative _ => "differentiate"
  | simplify _ => "simplify"

/-- The operator of an expression, if it has operands. -/
def operatorOf (e : Expr Binary64) (part : String) :
    Except Failure (Op × Expr Binary64 × Expr Binary64) :=
  (e.partOf part e.binary?).mapError .query

/-- The result of an operator on two values. -/
def combine (op : Op) (left right : Value) : Except Failure Binary64 :=
  match left.toBinary64, right.toBinary64 with
  | .ok a, .ok b => .ok (op.apply a b)
  | .error fault, _ => .error (.conversion fault)
  | _, .error fault => .error (.conversion fault)

/-- The tree built again from its leaves. -/
def rebuild : Expr Binary64 → Expr Binary64
  | .constant value => .constant value
  | .var name => .var name
  | .binary op left right => .binary op (rebuild left) (rebuild right)

/-- The answer to a question about an expression. -/
def answer (e : Expr Binary64) : Query → Answer
  | .evaluate env => .ofOutcome .number ((e.evaluate env).mapError .evaluation)
  | .value => .ofOutcome .number ((e.partOf "value" e.value?).mapError .query)
  | .name => .ofOutcome (fun n => .text n.text) ((e.partOf "name" e.name?).mapError .query)
  | .operator => .ofOutcome (fun p => .text p.1.symbol) (operatorOf e "operator")
  | .kind => .natural e.kind.number
  | .children => .texts (e.children.map Expr.constructorText)
  | .combine left right =>
    .ofOutcome .number ((operatorOf e "combine").bind fun p => combine p.1 left right)
  | .literal => .rendering e.literalText
  | .grouped => .rendering e.groupedText
  | .size => .natural e.size
  | .depth => .natural e.depth
  | .names => .texts e.variableNames
  | .rebuild =>
    let copy := rebuild e
    .rebuilt (copy.equal e)
      (e.fingerprint Fingerprinting.standard == copy.fingerprint Fingerprinting.standard) copy
  | .change => .failed (.query (.immutable e.kind.name))

/-- The outcome of a transformation. -/
def transformed (e : Expr Binary64) : Transform → Except Failure (Expr Binary64)
  | .left => (operatorOf e "left").map fun p => p.2.1
  | .right => (operatorOf e "right").map fun p => p.2.2
  | .copy => .ok e
  | .derivative x => .ok (e.derivative x.nameText)
  | .simplify env => (e.simplify env).mapError .conversion

/-- Whether two operands are equal expressions. -/
def sameOperands : Operand → Operand → Bool
  | .expr a, .expr b => a.equal b
  | _, _ => false

/-- Whether two operands are expressions with one fingerprint. -/
def sameFingerprints : Operand → Operand → Bool
  | .expr a, .expr b =>
    a.fingerprint Fingerprinting.standard == b.fingerprint Fingerprinting.standard
  | _, _ => false

/-- What a function says of two arguments. -/
def onPair {β : Type} (s : Session) (a b : Argument) (f : Operand → Operand → Except Failure β) :
    Except Failure β :=
  match s.operand a with
  | .error fault => .error fault
  | .ok x =>
    match s.operand b with
    | .error fault => .error fault
    | .ok y => f x y

/-- One step of a session. -/
def step (s : Session) : Step → Session × Answer
  | .constant v => s.store ((Expr.ofNumber v).mapError .construction)
  | .var v => s.store ((Expr.ofName v).mapError .construction)
  | .read source => s.store source.read
  | .join op a b => s.store (s.onPair a b fun x y => (x.join op y).mapError .construction)
  | .operate op a b => s.store (s.onPair a b fun x y => (x.operate op y).mapError .construction)
  | .transform a t => s.store ((s.expression t.part a).bind fun e => transformed e t)
  | .query a q =>
    match s.expression q.part a with
    | .error fault => (s, .failed fault)
    | .ok e => (s, answer e q)
  | .equal a b => (s, .ofOutcome .truth (s.onPair a b fun x y => .ok (sameOperands x y)))
  | .notEqual a b => (s, .ofOutcome .truth (s.onPair a b fun x y => .ok (!sameOperands x y)))
  | .fingerprintEqual a b =>
    (s, .ofOutcome .truth (s.onPair a b fun x y => .ok (sameFingerprints x y)))
  | .put a v =>
    match s.expression "put" a with
    | .error fault => (s, .failed fault)
    | .ok e =>
      let table := s.table.insert e v
      ({ s with table := table }, .natural table.size)
  | .get a =>
    match s.expression "get" a with
    | .error fault => (s, .failed fault)
    | .ok e => (s, .value (s.table.find? e))

/-- The answers to several steps. -/
def run (s : Session) : List Step → List Answer
  | [] => []
  | st :: rest => (s.step st).2 :: run (s.step st).1 rest

end Session

end SumProduct
