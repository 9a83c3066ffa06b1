import SumProduct.Expr.Evaluation
import SumProduct.Expr.Text

/-!
# Batch evaluation

Evaluation for many assignments at once. The data give each name a column of numbers; columns of
length one stand for the same number in every row, and all others have the same length. The
result is a column with one value for each row.

## Main definitions

* `SumProduct.Layout` — the dimensions of a nested list.
* `SumProduct.BatchError` — why data make no columns, or an expression has no column.
* `SumProduct.Columns` — columns of one common length.
* `SumProduct.Columns.ofData` — the columns that data describe.
* `SumProduct.Expr.evaluateColumns` — the column of an expression.

## Implementation notes

All columns are prepared, used or not, before the expression is looked at, and they are prepared in
the order of the data. Nothing stands for not-a-number in a column.
-/

namespace SumProduct

/-! ## Nested lists -/

/-- The dimensions that a nested list has throughout: the lengths of its outermost levels as far as
all lists of a level agree. It is ragged if they do not agree to the end. -/
structure Layout where
  /-- The common lengths, outermost first. -/
  dims : List Nat
  /-- Whether there are lists below the common dimensions. -/
  ragged : Bool
  deriving DecidableEq

namespace Layout

/-- A single value. -/
def scalar : Layout := ⟨[], false⟩

/-- The longest common beginning of two lists. -/
def commonBeginning : List Nat → List Nat → List Nat
  | a :: as, b :: bs => if a = b then a :: commonBeginning as bs else []
  | _, _ => []

/-- What two items of a list have in common. -/
def meet (a b : Layout) : Layout :=
  ⟨commonBeginning a.dims b.dims, a.ragged || b.ragged || a.dims != b.dims⟩

/-- The layout of a list from the layouts of its items. -/
def ofItems : List Layout → Layout
  | [] => ⟨[0], false⟩
  | first :: rest =>
    let common := rest.foldl meet first
    ⟨(rest.length + 1) :: common.dims, common.ragged⟩

/-- The most dimensions that a column can be read with before it is refused for having several. -/
def maxDims : Nat := 64

/-- Whether lists are nested deeper than the most dimensions. -/
def tooDeep (l : Layout) : Bool :=
  maxDims < l.dims.length || (l.ragged && l.dims.length = maxDims)

/-- Dimensions in parentheses, with a comma after a single one. -/
def dimsText (dims : List Nat) : String :=
  match dims with
  | [n] => "(" ++ naturalText n ++ ",)"
  | _ => "(" ++ ", ".intercalate (dims.map naturalText) ++ ")"

end Layout

namespace Value

mutual

/-- The layout of a value. -/
def layout : Value → Layout
  | list items => Layout.ofItems (layouts items)
  | integer _ => Layout.scalar
  | real _ => Layout.scalar
  | truth _ => Layout.scalar
  | text _ => Layout.scalar
  | absent => Layout.scalar

/-- The layouts of the items of a list. -/
def layouts : List Value → List Layout
  | [] => []
  | item :: rest => layout item :: layouts rest

end

mutual

/-- The single values in a nested list, in order. -/
def scalars : Value → List Value
  | list items => itemScalars items
  | integer i => [integer i]
  | real x => [real x]
  | truth b => [truth b]
  | text s => [text s]
  | absent => [absent]

/-- The single values in the items of a list, in order. -/
def itemScalars : List Value → List Value
  | [] => []
  | item :: rest => scalars item ++ itemScalars rest

end

/-- The number that a single value stands for in a column. -/
def toEntry : Value → Except ConversionError Binary64
  | absent => .ok .nan
  | v => v.toBinary64

/-- The numbers that single values stand for, up to the first that stands for none. -/
def toEntries : List Value → Except ConversionError (List Binary64)
  | [] => .ok []
  | v :: rest =>
    match v.toEntry with
    | .error fault => .error fault
    | .ok x =>
      match toEntries rest with
      | .error fault => .error fault
      | .ok xs => .ok (x :: xs)

end Value

/-! ## Columns -/

/-- Why there is no column. -/
inductive BatchError where
  /-- A value in the data is no number. -/
  | conversion (fault : ConversionError)
  /-- The lists of a column are nested too deeply. -/
  | tooDeep
  /-- The lists of a column disagree in length below these dimensions. -/
  | ragged (dims : List Nat)
  /-- A column has more than one dimension. -/
  | notFlat (name : String) (dims : List Nat)
  /-- Columns have several lengths other than one. -/
  | lengths (found : List Nat)
  /-- A variable has no column. -/
  | missing (name : Name)
  deriving DecidableEq

/-- The wording of a failed batch evaluation. -/
def BatchError.message : BatchError → String
  | conversion fault => fault.message
  | tooDeep =>
    "setting an array element with a sequence. The requested array would exceed the maximum "
      ++ "number of dimension of " ++ naturalText Layout.maxDims ++ "."
  | ragged dims =>
    "setting an array element with a sequence. The requested array has an inhomogeneous shape "
      ++ "after " ++ naturalText dims.length ++ " dimensions. The detected shape was "
      ++ Layout.dimsText dims ++ " + inhomogeneous part."
  | notFlat name dims =>
    "Column " ++ quoted name ++ " must be one-dimensional, got shape " ++ Layout.dimsText dims
  | lengths found =>
    "Columns have inconsistent lengths: [" ++ ", ".intercalate (found.map naturalText) ++ "]"
  | missing name => missingText name.text

/-- The column that a value describes: a list as it is, a single value as a column of length one. -/
def columnOfValue (name : String) (v : Value) : Except BatchError (List Binary64) :=
  let layout := v.layout
  if layout.tooDeep then .error .tooDeep
  else if layout.ragged then .error (.ragged layout.dims)
  else
    match Value.toEntries v.scalars with
    | .error fault => .error (.conversion fault)
    | .ok xs => if layout.dims.length ≤ 1 then .ok xs else .error (.notFlat name layout.dims)

/-- The columns that the bindings of a list describe, up to the first that is none. -/
def columnsOfEntries : List (String × Value) → Except BatchError (List (String × List Binary64))
  | [] => .ok []
  | (name, v) :: rest =>
    match columnOfValue name v with
    | .error fault => .error fault
    | .ok column =>
      match columnsOfEntries rest with
      | .error fault => .error fault
      | .ok columns => .ok ((name, column) :: columns)

/-- The lengths other than one that occur, each once and in increasing order. -/
def properLengths (columns : List (String × List Binary64)) : List Nat :=
  (((columns.map fun c => c.2.length).filter (· != 1)).eraseDups).mergeSort

/-- A column repeated to the common length if it has length one. -/
def broadcast (rows : Nat) (column : List Binary64) : List Binary64 :=
  match column with
  | [x] => List.replicate rows x
  | _ => column

/-- Columns of one common length. -/
structure Columns where
  /-- The common length. -/
  rows : Nat
  /-- The columns by name. -/
  entries : Bindings String (List Binary64)

namespace Columns

/-- Brings columns to a common length: the one proper length, or one if there is none. -/
def align (columns : Bindings String (List Binary64)) : Except BatchError Columns :=
  match properLengths columns.entries with
  | [] => .ok ⟨1, columns.map (broadcast 1)⟩
  | [rows] => .ok ⟨rows, columns.map (broadcast rows)⟩
  | found => .error (.lengths found)

/-- The columns that data describe. -/
def ofData (data : Environment) : Except BatchError Columns :=
  match columnsOfEntries data.entries with
  | .error fault => .error fault
  | .ok columns => align (.ofList columns)

/-- The column of a variable. -/
def read (columns : Columns) (name : Name) : Except BatchError (List Binary64) :=
  match columns.entries.find? name.text with
  | some column => .ok column
  | none => .error (.missing name)

/-- Whether every number in every column is finite. -/
def allFinite (columns : Columns) : Bool :=
  columns.entries.entries.all fun c => c.2.all Binary64.isFinite

end Columns

/-! ## Evaluation -/

/-- An operation on two columns, row by row. -/
def Op.applyRows (op : Op) (left right : List Binary64) : List Binary64 :=
  List.zipWith op.apply left right

namespace Expr

/-- The column of an expression over the given rows: a constant has the same value in every row. -/
def evaluateRows (rows : Nat) (read : Name → Except BatchError (List Binary64)) :
    Expr Binary64 → Except BatchError (List Binary64)
  | constant value => .ok (List.replicate rows value)
  | var name => read name
  | binary op left right =>
    match left.evaluateRows rows read with
    | .error fault => .error fault
    | .ok a =>
      match right.evaluateRows rows read with
      | .error fault => .error fault
      | .ok b => .ok (op.applyRows a b)

/-- The column of an expression over columns of data. -/
def evaluateColumns (e : Expr Binary64) (columns : Columns) :
    Except BatchError (List Binary64) :=
  e.evaluateRows columns.rows columns.read

/-- Batch evaluation. -/
def evaluateBatch (e : Expr Binary64) (data : Environment) : Except BatchError (List Binary64) :=
  match Columns.ofData data with
  | .error fault => .error fault
  | .ok columns => e.evaluateColumns columns

/-- The warnings of a batch evaluation: one if the data are finite and the result is not. -/
def batchWarnings (e : Expr Binary64) (data : Environment) : List String :=
  match Columns.ofData data with
  | .error _ => []
  | .ok columns =>
    match e.evaluateColumns columns with
    | .error _ => []
    | .ok result =>
      if !result.all Binary64.isFinite && columns.allFinite then
        ["Batch evaluation of " ++ e.literalText ++ " produced non-finite values"]
      else []

end Expr

end SumProduct
