import SumProduct.Binary64.Shortest
import SumProduct.Text.Class

/-!
# Written numbers

How binary64 numbers are written. Both written forms have the same shortest digits and differ in a
`NumberStyle`: the full form marks every number as one with a fraction or an exponent, the plain
form has neither where it can and never an exponent.

## Main definitions

* `SumProduct.NumberStyle` — the decisions of a written form.
* `SumProduct.Binary64.fullText` — `5.0`, `1e+16`, `1.5e-05`.
* `SumProduct.Binary64.plainText` — `5`, `10000000000000000`, `0.000015`.
-/

namespace SumProduct

/-- The decisions that a written form of numbers makes. -/
structure NumberStyle where
  /-- Whether a number with this exponent of its leading digit is written without an exponent. -/
  positional : Int → Bool
  /-- What follows the digits of a whole number that is written without an exponent. -/
  wholeMark : String

namespace NumberStyle

/-- Full numbers always show that they are no integers, and are positional from `10 ^ -4` up to, and
without, `10 ^ 16`. -/
def full : NumberStyle where
  positional e := decide (-4 ≤ e) && decide (e < 16)
  wholeMark := ".0"

/-- Plain numbers are always positional, and whole ones have no fraction. -/
def plain : NumberStyle where
  positional _ := true
  wholeMark := ""

/-- A run of zeros. -/
def zeros (n : Nat) : List Char := List.replicate n '0'

/-- The digits of a decimal with its point in place and no exponent. -/
def positionalText (style : NumberStyle) (d : Decimal) : List Char :=
  let ds := decimalDigits d.coefficient
  let whole := (ds.length : Int) + d.exponent
  if 0 ≤ d.exponent then ds ++ zeros d.exponent.toNat ++ style.wholeMark.toList
  else if 0 < whole then ds.take whole.toNat ++ '.' :: ds.drop whole.toNat
  else '0' :: '.' :: (zeros (-whole).toNat ++ ds)

/-- An exponent with its sign and at least two digits. -/
def exponentText (e : Int) : List Char :=
  let ds := decimalDigits e.natAbs
  (if e < 0 then '-' else '+') :: (zeros (2 - ds.length) ++ ds)

/-- One digit, the fraction if there is one, and the exponent of the leading digit. -/
def scientificText (d : Decimal) : List Char :=
  let ds := decimalDigits d.coefficient
  let fraction := if ds.length ≤ 1 then [] else '.' :: ds.drop 1
  ds.take 1 ++ fraction ++ 'e' :: exponentText (d.exponent + (ds.length - 1 : Nat))

/-- A decimal in the given style. -/
def decimalText (style : NumberStyle) (d : Decimal) : List Char :=
  if style.positional (d.exponent + ((decimalDigits d.coefficient).length - 1 : Nat)) then
    style.positionalText d
  else scientificText d

/-- The sign in front of a magnitude: nothing for a positive one. -/
def signText (negative : Bool) : List Char := if negative then ['-'] else []

/-- A number in the given style. A zero keeps its sign, and what is not a number has none. -/
def text (style : NumberStyle) : Binary64 → String
  | .finite negative rank =>
    String.ofList (signText negative ++ style.decimalText (Binary64.shortest rank))
  | .infinite negative => String.ofList (signText negative ++ ['i', 'n', 'f'])
  | .nan => "nan"

end NumberStyle

namespace Binary64

/-- The full form: `5.0`, `1e+16`, `1.5e-05`. -/
def fullText (x : Binary64) : String := NumberStyle.full.text x

/-- The plain form: `5`, `10000000000000000`, `0.000015`. -/
def plainText (x : Binary64) : String := NumberStyle.plain.text x

end Binary64

end SumProduct
