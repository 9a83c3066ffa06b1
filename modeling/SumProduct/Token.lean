import SumProduct.Expr.Basic
import SumProduct.Numeral
import SumProduct.SyntaxError
import SumProduct.Text.Class

/-!
# Tokens

The lexemes of the expression language and how a text is cut into them. Blank characters separate
lexemes and are dropped; the four symbols stand alone; a numeral or name has to end at a blank
character, a symbol or the end of the text.

## Main definitions

* `SumProduct.Lexeme` — numerals, names, symbols and the end of the input.
* `SumProduct.Token` — a lexeme with its position.
* `SumProduct.Token.scan` — the tokens of a text, or its first lexical fault.

## Implementation notes

The scan takes the longest numeral or name from the left and then looks at one more character. A
fault reports the whole run of characters up to the next place where a lexeme could end.
-/

namespace SumProduct

/-- A lexeme. -/
inductive Lexeme where
  /-- A number. -/
  | number (numeral : Numeral)
  /-- A variable. -/
  | var (name : Name)
  /-- The sign of an operation. -/
  | operator (op : Op)
  /-- An opening parenthesis. -/
  | leftParen
  /-- A closing parenthesis. -/
  | rightParen
  /-- The end of the input. -/
  | endOfInput
  deriving DecidableEq

namespace Lexeme

/-- The kind of a lexeme. -/
def kind : Lexeme → TokenKind
  | number _ => .number
  | var _ => .var
  | operator .add => .plus
  | operator .mul => .times
  | leftParen => .leftParen
  | rightParen => .rightParen
  | endOfInput => .endOfInput

/-- The characters of a lexeme. -/
def chars : Lexeme → List Char
  | number numeral => numeral.chars
  | var name => name.text.toList
  | operator op => [op.char]
  | leftParen => ['(']
  | rightParen => [')']
  | endOfInput => []

/-- The lexeme of a symbol. -/
def ofSymbol? (c : Char) : Option Lexeme :=
  if c = '+' then some (operator .add)
  else if c = '*' then some (operator .mul)
  else if c = '(' then some leftParen
  else if c = ')' then some rightParen
  else none

end Lexeme

/-- A lexeme and the number of characters before it. -/
structure Token where
  /-- What the token is. -/
  lexeme : Lexeme
  /-- Where it starts. -/
  position : Nat
  deriving DecidableEq

namespace Token

/-- The kind of a token. -/
def kind (t : Token) : TokenKind := t.lexeme.kind

/-- The text of a token. -/
def text (t : Token) : String := String.ofList t.lexeme.chars

/-- Whether a numeral or name may end before this character. -/
def isDelimiter (c : Char) : Bool := isBlank c || (Lexeme.ofSymbol? c).isSome

/-- Whether a text begins with a delimiter or is at its end. -/
def isDelimited : List Char → Bool
  | [] => true
  | c :: _ => isDelimiter c

/-- The characters up to the next delimiter. -/
def run (text : List Char) : List Char := text.takeWhile fun c => !isDelimiter c

/-- The longest name that a text beginning with a letter begins with. -/
def leadingName (c : Char) (rest : List Char) (h : isLetter c = true) : Name where
  text := String.ofList (c :: rest.takeWhile isLetter)
  isWord_text := by
    rw [String.toList_ofList, isWord, List.all_cons, h, List.all_takeWhile]
    rfl

/-- The tokens of the rest of a text that starts at a position. -/
def scanFrom (position : Nat) (text : List Char) : Except SyntaxError (List Token) :=
  match text with
  | [] => .ok [⟨.endOfInput, position⟩]
  | c :: rest =>
    if isBlank c then scanFrom (position + 1) rest
    else
      match Lexeme.ofSymbol? c with
      | some symbol => (scanFrom (position + 1) rest).map (⟨symbol, position⟩ :: ·)
      | none =>
        if h : isDigit c = true then
          let found := Numeral.split c rest h
          have : found.2.length < rest.length + 1 :=
            Nat.lt_succ_of_le (Numeral.split_length_le c rest h)
          if isDelimited found.2 then
            (scanFrom (position + found.1.chars.length) found.2).map
              (⟨.number found.1, position⟩ :: ·)
          else .error ⟨.malformedNumber (String.ofList (run (c :: rest))), position⟩
        else if h : isLetter c = true then
          let tail := rest.dropWhile isLetter
          have : tail.length < rest.length + 1 :=
            Nat.lt_succ_of_le (List.dropWhile_sublist _).length_le
          if isDelimited tail then
            (scanFrom (position + 1 + (rest.takeWhile isLetter).length) tail).map
              (⟨.var (leadingName c rest h), position⟩ :: ·)
          else .error ⟨.malformedVariable (String.ofList (run (c :: rest))), position⟩
        else .error ⟨.invalidCharacter c, position⟩
termination_by text.length
decreasing_by all_goals simp only [List.length_cons]; omega

/-- The tokens of a text, the end of the input last. -/
def scan (text : String) : Except SyntaxError (List Token) := scanFrom 0 text.toList

end Token

end SumProduct
