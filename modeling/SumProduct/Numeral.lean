import SumProduct.Binary64.Basic
import SumProduct.Text.Class

/-!
# Numerals

The numbers of the expression language: digits, optionally followed by a point and more digits.
There is no sign and no exponent.

## Main definitions

* `SumProduct.Numeral` — the digits before and after the point.
* `SumProduct.Numeral.chars` — the numeral as it is written.
* `SumProduct.Numeral.value` — the nearest binary64 number.
* `SumProduct.Numeral.finiteValue?` — the value of a numeral in range.
* `SumProduct.Numeral.split` — the longest numeral that a text begins with.
-/

namespace SumProduct

/-- A numeral. It has a fraction when there are digits after the point. -/
structure Numeral where
  /-- The digits before the point. -/
  whole : List Char
  /-- The digits after the point. -/
  fraction : List Char
  /-- There is a digit before the point. -/
  whole_ne_nil : whole ≠ []
  /-- All characters before the point are digits. -/
  whole_digits : whole.all isDigit = true
  /-- All characters after the point are digits. -/
  fraction_digits : fraction.all isDigit = true
  deriving DecidableEq

namespace Numeral

/-- The numeral as it is written. -/
def chars (n : Numeral) : List Char :=
  if n.fraction = [] then n.whole else n.whole ++ '.' :: n.fraction

/-- The binary64 number nearest to the value of the numeral. -/
def value (n : Numeral) : Binary64 :=
  Binary64.nearest false (digitsValue (n.whole ++ n.fraction)) (tenPow n.fraction.length)

/-- The value of the numeral if it is in range: unless the nearest number is infinite. -/
def finiteValue? (n : Numeral) : Option Binary64 :=
  let x := n.value
  if x.isFinite then some x else none

/-- The fraction that a text begins with, a point and at least one digit, and the text behind it. -/
def splitFraction : List Char → List Char × List Char
  | '.' :: tail =>
    if tail.takeWhile isDigit = [] then ([], '.' :: tail)
    else (tail.takeWhile isDigit, tail.dropWhile isDigit)
  | text => ([], text)

theorem splitFraction_digits (text : List Char) : (splitFraction text).1.all isDigit = true := by
  unfold splitFraction
  split
  · split
    · rfl
    · exact List.all_takeWhile
  · rfl

theorem splitFraction_length_le (text : List Char) :
    (splitFraction text).2.length ≤ text.length := by
  unfold splitFraction
  split
  · split
    · exact Nat.le_refl _
    · exact Nat.le_succ_of_le (List.dropWhile_sublist _).length_le
  · exact Nat.le_refl _

/-- The longest numeral that a text beginning with a digit begins with, and the text behind it. -/
def split (c : Char) (text : List Char) (h : isDigit c = true) : Numeral × List Char :=
  let rest := splitFraction (text.dropWhile isDigit)
  (⟨c :: text.takeWhile isDigit, rest.1, List.cons_ne_nil _ _,
      by rw [List.all_cons, h, List.all_takeWhile]; rfl, splitFraction_digits _⟩,
    rest.2)

theorem split_length_le (c : Char) (text : List Char) (h : isDigit c = true) :
    (split c text h).2.length ≤ text.length :=
  Nat.le_trans (splitFraction_length_le _) (List.dropWhile_sublist _).length_le

end Numeral

end SumProduct
