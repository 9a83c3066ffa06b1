import SumProduct.Expr.Basic
import SumProduct.Text.Class
import SumProduct.Text.Quoted

/-!
# Syntax errors

The reasons why a text is no expression, where they are found, and how they are worded.

## Main definitions

* `SumProduct.TokenKind` — the kinds of tokens.
* `SumProduct.SyntaxFault` — the reasons.
* `SumProduct.SyntaxError` — a reason and its position.
* `SumProduct.located` — a message with the token and position that it is about.
-/

namespace SumProduct

/-- The kinds of tokens. -/
inductive TokenKind where
  /-- Numbers. -/
  | number
  /-- Variables. -/
  | var
  /-- The sign of addition. -/
  | plus
  /-- The sign of multiplication. -/
  | times
  /-- Opening parentheses. -/
  | leftParen
  /-- Closing parentheses. -/
  | rightParen
  /-- The end of the input. -/
  | endOfInput
  deriving DecidableEq

namespace TokenKind

/-- All kinds. -/
def all : List TokenKind := [number, var, plus, times, leftParen, rightParen, endOfInput]

/-- How messages call a kind. -/
def name : TokenKind → String
  | number => "number"
  | var => "variable"
  | plus => "+"
  | times => "*"
  | leftParen => "("
  | rightParen => ")"
  | endOfInput => "end of input"

/-- The label of a kind in tables. -/
def label : TokenKind → String
  | number => "NUMBER"
  | var => "VARIABLE"
  | plus => "PLUS"
  | times => "TIMES"
  | leftParen => "LPAREN"
  | rightParen => "RPAREN"
  | endOfInput => "EOF"

/-- The kind with a label. -/
def ofLabel? (label : String) : Option TokenKind := all.find? fun k => k.label == label

end TokenKind

/-- Why a text is no expression. -/
inductive SyntaxFault where
  /-- The text has no character that is not blank. -/
  | emptyExpression
  /-- A character that no lexeme begins with. -/
  | invalidCharacter (c : Char)
  /-- A run that begins with a digit and is no numeral. -/
  | malformedNumber (run : String)
  /-- A run that begins with a letter and is no name. -/
  | malformedVariable (run : String)
  /-- The text ends where an operand has to begin. -/
  | unexpectedEnd
  /-- A closing parenthesis where an operand has to begin, or after a complete expression. -/
  | unexpectedClose
  /-- Any other token where an operand has to begin. -/
  | operandExpected (token : String)
  /-- A numeral whose nearest number is infinite. -/
  | outOfRange (token : String)
  /-- More parentheses are open than the limit allows. -/
  | tooDeep (limit : Nat)
  /-- A pair of parentheses with nothing between them. -/
  | emptyParentheses
  /-- The text ends while a parenthesis is open. -/
  | missingClose
  /-- Another token where one of a certain kind has to be. -/
  | kindExpected (kind : TokenKind) (token : String)
  /-- The text ends where a token of a certain kind has to be. -/
  | kindExpectedAtEnd (kind : TokenKind)
  /-- More text after a complete expression. -/
  | trailingInput (token : String)
  deriving DecidableEq

namespace SyntaxFault

/-- The wording of a fault. -/
def summary : SyntaxFault → String
  | emptyExpression => "Empty expression"
  | invalidCharacter _ => "Invalid character"
  | malformedNumber _ => "Malformed number"
  | malformedVariable _ => "Malformed variable"
  | unexpectedEnd => "Unexpected end of input"
  | unexpectedClose => "Unbalanced parentheses: unexpected ')'"
  | operandExpected _ => "Expected a number, variable or '('"
  | outOfRange _ => "Numeric literal out of range"
  | tooDeep limit => "Parentheses nested deeper than " ++ naturalText limit ++ " levels"
  | emptyParentheses => "Empty parentheses"
  | missingClose => "Unbalanced parentheses: missing ')'"
  | kindExpected kind _ => "Expected '" ++ kind.name ++ "'"
  | kindExpectedAtEnd kind => "Expected '" ++ kind.name ++ "' but reached end of input"
  | trailingInput _ => "Unexpected trailing input"

/-- The piece of text that a fault is about, if it is about one. -/
def token? : SyntaxFault → Option String
  | emptyExpression => none
  | invalidCharacter c => some (String.singleton c)
  | malformedNumber run => some run
  | malformedVariable run => some run
  | unexpectedEnd => none
  | unexpectedClose => some ")"
  | operandExpected token => some token
  | outOfRange token => some token
  | tooDeep _ => none
  | emptyParentheses => some "()"
  | missingClose => some "("
  | kindExpected _ token => some token
  | kindExpectedAtEnd _ => none
  | trailingInput token => some token

end SyntaxFault

/-- A message followed by the token and the position that it is about, where they are known. -/
def located (summary : String) (token : Option String) (position : Option Int) : String :=
  let details :=
    (token.map fun t => "token " ++ quoted t).toList ++
      (position.map fun p => "position " ++ integerText p).toList
  if details.isEmpty then summary else summary ++ " (" ++ ", ".intercalate details ++ ")"

/-- A fault and its position in the text. -/
structure SyntaxError where
  /-- The reason. -/
  fault : SyntaxFault
  /-- The number of characters before it. -/
  position : Nat
  deriving DecidableEq

/-- The wording of an error. -/
def SyntaxError.message (e : SyntaxError) : String :=
  located e.fault.summary e.fault.token? (some e.position)

end SumProduct
