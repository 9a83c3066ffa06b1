import SumProduct.Binary64.Reading
import SumProduct.Binary64.Text
import SumProduct.Text.Quoted

/-!
# Values

The values that callers bind to names or offer as constants, operands and settings. They are of any
kind; where a number is needed, a value is converted when it is used, and the conversion may fail.

## Main definitions

* `SumProduct.Value` — integers, numbers, truth values, texts, nothing, and lists of values.
* `SumProduct.Value.toBinary64` — conversion to a number.
* `SumProduct.ConversionError` — why a conversion fails.
* `SumProduct.Value.shown` — a value as messages show it.
-/

namespace SumProduct

/-- A value of any kind. -/
inductive Value where
  /-- An integer of any size. -/
  | integer (i : Int)
  /-- A binary64 number. -/
  | real (x : Binary64)
  /-- A truth value. -/
  | truth (b : Bool)
  /-- A text. -/
  | text (s : String)
  /-- No value. -/
  | absent
  /-- A list of values. -/
  | list (items : List Value)

/-- Why a value is no number. -/
inductive ConversionError where
  /-- An integer that rounds past the finite numbers. -/
  | tooLarge
  /-- A text that denotes no number. -/
  | unreadable (text : String)
  /-- A value of a kind that holds no numbers. -/
  | wrongKind (kind : String)
  deriving DecidableEq

/-- The wording of a failed conversion. -/
def ConversionError.message : ConversionError → String
  | tooLarge => "int too large to convert to float"
  | unreadable text => "could not convert string to float: " ++ quoted text
  | wrongKind kind => "float() argument must be a string or a real number, not '" ++ kind ++ "'"

namespace Value

/-- The name of a value's kind, as messages give it. -/
def kindName : Value → String
  | integer _ => "int"
  | real _ => "float"
  | truth _ => "bool"
  | text _ => "str"
  | absent => "NoneType"
  | list _ => "list"

mutual

/-- A value as messages show it: texts in quotes, numbers in full form. -/
def shown : Value → String
  | integer i => integerText i
  | real x => x.fullText
  | truth true => "True"
  | truth false => "False"
  | text s => quoted s
  | absent => "None"
  | list items => "[" ++ shownItems items ++ "]"

/-- The items of a list, separated by commas. -/
def shownItems : List Value → String
  | [] => ""
  | [item] => shown item
  | item :: next :: rest => shown item ++ ", " ++ shownItems (next :: rest)

end

/-- A value as running text: a text stands for itself. -/
def display : Value → String
  | text s => s
  | v => v.shown

/-- The number nearest to an integer, unless that is an infinity. -/
def integerToBinary64 (i : Int) : Except ConversionError Binary64 :=
  let x := Binary64.ofInt i
  if x.isFinite then .ok x else .error .tooLarge

/-- Conversion to a number. -/
def toBinary64 : Value → Except ConversionError Binary64
  | integer i => integerToBinary64 i
  | real x => .ok x
  | truth b => .ok (if b then 1 else 0)
  | text s =>
    match Binary64.ofText? s with
    | some x => .ok x
    | none => .error (.unreadable s)
  | v => .error (.wrongKind v.kindName)

end Value

end SumProduct
