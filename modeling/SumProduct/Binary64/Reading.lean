import SumProduct.Binary64.Basic
import SumProduct.Text.Class

/-!
# Reading numbers

Numbers given as free text: an optional sign and digits with an optional point and exponent, or the
name of an infinity or of not-a-number in any case. Digits may be of any script and may be grouped
by single underscores; padding around the number is ignored. What is read is the nearest binary64
number, an infinity where the text is too large.

## Main definitions

* `SumProduct.NumberText.DecimalText` — the digits of a number before they are given a value.
* `SumProduct.Binary64.ofText?` — the number that a text denotes.
-/

namespace SumProduct

namespace NumberText

/-- The same text with the digits of all scripts as ASCII digits. -/
def asciiDigits (text : List Char) : List Char :=
  text.map fun c =>
    match scriptDigit? c with
    | some d => Nat.digitChar d
    | none => c

/-- Drops the underscores of a text if each stands between two digits; `afterDigit` tells whether
the text follows a digit. -/
def dropGroupMarks (afterDigit : Bool) : List Char → Option (List Char)
  | [] => some []
  | '_' :: c :: rest =>
    if afterDigit && isDigit c then (dropGroupMarks true rest).map (c :: ·) else none
  | c :: rest => if c = '_' then none else (dropGroupMarks (isDigit c) rest).map (c :: ·)

/-- Splits off a sign; the flag says whether it is a minus. -/
def sign : List Char → Bool × List Char
  | '-' :: rest => (true, rest)
  | '+' :: rest => (false, rest)
  | text => (false, text)

/-- The digits of a number: before the point, after it, and the exponent. -/
structure DecimalText where
  /-- The digits before the point. -/
  whole : List Char
  /-- The digits after the point. -/
  fraction : List Char
  /-- The power of ten that the number is multiplied by. -/
  exponent : Int

/-- The exponent that ends a number: nothing, or a mark, an optional sign and digits. -/
def exponent? : List Char → Option Int
  | [] => some 0
  | c :: rest =>
    let (negative, digits) := sign rest
    if (c = 'e' || c = 'E') && !digits.isEmpty && digits.all isDigit then
      some (if negative then -(digitsValue digits : Int) else digitsValue digits)
    else none

/-- Splits a text without sign into the digits of a number; there is at least one digit before or
after the point. -/
def decimal? (text : List Char) : Option DecimalText :=
  let whole := text.takeWhile isDigit
  let rest := text.dropWhile isDigit
  let (fraction, rest) :=
    match rest with
    | '.' :: tail => (tail.takeWhile isDigit, tail.dropWhile isDigit)
    | _ => ([], rest)
  if whole.isEmpty && fraction.isEmpty then none
  else (exponent? rest).map fun e => ⟨whole, fraction, e⟩

/-- The number nearest to a decimal text. -/
def DecimalText.value (negative : Bool) (d : DecimalText) : Binary64 :=
  Binary64.ofDecimal negative (digitsValue (d.whole ++ d.fraction)) (d.exponent - d.fraction.length)

/-- The number that a text without sign denotes. -/
def magnitude? (negative : Bool) (text : List Char) : Option Binary64 :=
  let lower := String.ofList (text.map Char.toLower)
  if lower = "inf" || lower = "infinity" then some (.infinite negative)
  else if lower = "nan" then some .nan
  else (decimal? text).map (·.value negative)

end NumberText

/-- The number that a text denotes, if it denotes one. -/
def Binary64.ofText? (text : String) : Option Binary64 := do
  let plain ← NumberText.dropGroupMarks false (dropPadding (NumberText.asciiDigits text.toList))
  let (negative, magnitude) := NumberText.sign plain
  NumberText.magnitude? negative magnitude

end SumProduct
