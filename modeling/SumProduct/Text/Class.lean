/-!
# Classes of characters

The characters that texts are cut and read by: blank characters, which separate lexemes, the ASCII
letters and digits, which names and numbers are made of, and the decimal digits of all scripts.

## Main definitions

* `SumProduct.isBlank`, `SumProduct.isBlankText` — blank characters, and texts of them alone.
* `SumProduct.isDigit`, `SumProduct.isLetter` — the ASCII digits and letters.
* `SumProduct.digitsValue` — the whole number that ASCII digits denote.
* `SumProduct.decimalDigits` — the ASCII digits of a whole number.
* `SumProduct.scriptDigit?` — the value of a decimal digit of any script.
-/

namespace SumProduct

/-! ## Blank characters -/

/-- Whether a character is blank: white space of Unicode, or one of the four information
separators. -/
def isBlank (c : Char) : Bool :=
  let n := c.toNat
  (0x09 ≤ n && n ≤ 0x0d) || (0x1c ≤ n && n ≤ 0x20) || n == 0x85 || n == 0xa0 || n == 0x1680 ||
    (0x2000 ≤ n && n ≤ 0x200a) || n == 0x2028 || n == 0x2029 || n == 0x202f || n == 0x205f ||
    n == 0x3000

/-- Whether a text has no character but blank ones. -/
def isBlankText (text : List Char) : Bool := text.all isBlank

/-- The blank characters that may surround a number given as text: all but the information
separators. -/
def isNumberPadding (c : Char) : Bool := isBlank c && !(0x1c ≤ c.toNat && c.toNat ≤ 0x1f)

/-- Drops the padding at both ends of a text. -/
def dropPadding (text : List Char) : List Char :=
  ((text.dropWhile isNumberPadding).reverse.dropWhile isNumberPadding).reverse

/-! ## Letters and digits -/

/-- Whether a character is an ASCII digit. -/
def isDigit (c : Char) : Bool := 0x30 ≤ c.toNat && c.toNat ≤ 0x39

/-- Whether a character is an ASCII letter. -/
def isLetter (c : Char) : Bool :=
  (0x41 ≤ c.toNat && c.toNat ≤ 0x5a) || (0x61 ≤ c.toNat && c.toNat ≤ 0x7a)

/-- The value of an ASCII digit. -/
def digitValue (c : Char) : Nat := c.toNat - 0x30

/-- The whole number that a run of ASCII digits denotes. -/
def digitsValue (digits : List Char) : Nat :=
  digits.foldl (fun n c => 10 * n + digitValue c) 0

/-- The decimal digits of a whole number, without leading zeros. -/
def decimalDigits (n : Nat) : List Char := Nat.toDigits 10 n

/-- A whole number in decimal digits. -/
def naturalText (n : Nat) : String := String.ofList (decimalDigits n)

/-- An integer in decimal digits, with a sign if it is negative. -/
def integerText (i : Int) : String := (if i < 0 then "-" else "") ++ naturalText i.natAbs

/-! ## Digits of all scripts -/

/-- The zeros of the scripts with decimal digits, in order. The digits of a script are ten
consecutive characters from zero to nine. -/
def scriptZeros : List Nat :=
  [0x30, 0x660, 0x6f0, 0x7c0, 0x966, 0x9e6, 0xa66, 0xae6, 0xb66, 0xbe6, 0xc66, 0xce6, 0xd66,
   0xde6, 0xe50, 0xed0, 0xf20, 0x1040, 0x1090, 0x17e0, 0x1810, 0x1946, 0x19d0, 0x1a80, 0x1a90,
   0x1b50, 0x1bb0, 0x1c40, 0x1c50, 0xa620, 0xa8d0, 0xa900, 0xa9d0, 0xa9f0, 0xaa50, 0xabf0,
   0xff10, 0x104a0, 0x10d30, 0x11066, 0x110f0, 0x11136, 0x111d0, 0x112f0, 0x11450, 0x114d0,
   0x11650, 0x116c0, 0x11730, 0x118e0, 0x11950, 0x11c50, 0x11d50, 0x11da0, 0x16a60, 0x16ac0,
   0x16b50, 0x1d7ce, 0x1d7d8, 0x1d7e2, 0x1d7ec, 0x1d7f6, 0x1e140, 0x1e2f0, 0x1e950, 0x1fbf0]

/-- The value of a decimal digit of any script. -/
def scriptDigit? (c : Char) : Option Nat :=
  (scriptZeros.find? fun first => first ≤ c.toNat && c.toNat < first + 10).map fun first =>
    c.toNat - first

end SumProduct
