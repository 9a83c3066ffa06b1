import SumProduct.Text.Unprintable

/-!
# Quoted text

Text in quotes, as messages show it: on one line and in visible characters. Single quotes are used
unless the text has a single quote and no double quote.

## Main definitions

* `SumProduct.Quoted.quoteFor` — the quote that a text is put in.
* `SumProduct.Quoted.escape` — how one character is written inside the quotes.
* `SumProduct.quoted` — the text in quotes.
-/

namespace SumProduct

namespace Quoted

/-- A lower-case hexadecimal digit. -/
def hexDigit (n : Nat) : Char := Nat.digitChar n

/-- The last `width` hexadecimal digits of a number. -/
def hex : Nat → Nat → List Char
  | 0, _ => []
  | width + 1, n => hex width (n / 16) ++ [hexDigit (n % 16)]

/-- An unprintable character by its code point, in two, four or eight digits. -/
def codePoint (n : Nat) : List Char :=
  if n < 0x100 then '\\' :: 'x' :: hex 2 n
  else if n < 0x10000 then '\\' :: 'u' :: hex 4 n
  else '\\' :: 'U' :: hex 8 n

/-- How a character is written between quotes of the given kind. -/
def escape (quote c : Char) : List Char :=
  if c = quote || c = '\\' then ['\\', c]
  else if c = '\n' then ['\\', 'n']
  else if c = '\r' then ['\\', 'r']
  else if c = '\t' then ['\\', 't']
  else if isUnprintable c then codePoint c.toNat
  else [c]

/-- The quote that a text is put in: double only where that saves escaping a single one. -/
def quoteFor (text : List Char) : Char :=
  if text.contains '\'' && !text.contains '"' then '"' else '\''

/-- The characters of a text in quotes. -/
def chars (text : List Char) : List Char :=
  let quote := quoteFor text
  quote :: (text.flatMap (escape quote) ++ [quote])

end Quoted

/-- A text in quotes, on one line and in visible characters. -/
def quoted (text : String) : String := String.ofList (Quoted.chars text.toList)

end SumProduct
