import SumProduct.Parser.Limit
import SumProduct.Parser.Production

/-!
# Parsers

A parser holds a text, its tokens once it has been cut into them, a cursor among the tokens and the
number of open parentheses. Single steps look at tokens, take them, or read a production; reading
the whole text starts over each time.

## Main definitions

* `SumProduct.Parser` — the state.
* `SumProduct.Parser.Step`, `SumProduct.Parser.step` — what can be asked of a parser.
* `SumProduct.Parser.parse` — reading the whole text.
* `SumProduct.Expr.parse` — the expression that a text denotes.

## Implementation notes

A step that fails leaves the parser as it was at that point: tokens taken stay taken, and
parentheses that were opened stay open.
-/

namespace SumProduct

/-- A parser for a text. -/
structure Parser where
  /-- The text. -/
  source : String
  /-- The nesting limit. -/
  limit : NestingLimit
  /-- The tokens of the text; none before the text has been cut. -/
  tokens : List Token
  /-- The index of the next token. -/
  cursor : Nat
  /-- The number of open parentheses. -/
  nesting : Nat

namespace Parser

/-- A parser that has not looked at its text yet. -/
def new (source : String) (limit : NestingLimit) : Parser := ⟨source, limit, [], 0, 0⟩

/-- The tokens from the cursor on. -/
def remaining (p : Parser) : List Token := p.tokens.drop p.cursor

/-- The next token. -/
def current (p : Parser) : Except ParserFault Token :=
  match p.remaining with
  | [] => .error .noTokens
  | t :: _ => .ok t

/-- The parser behind its next token; the end of the input is never passed. -/
def advance (p : Parser) : Parser :=
  match p.remaining with
  | [] => p
  | t :: _ => if t.lexeme = .endOfInput then p else { p with cursor := p.cursor + 1 }

/-- The parser with these tokens left. -/
def leaving (p : Parser) (rest : List Token) : Parser :=
  { p with cursor := p.tokens.length - rest.length }

/-- What reading in this parser depends on. -/
def settings (p : Parser) : ReadSettings Binary64 := ⟨p.limit.levels, Numeral.finiteValue?⟩

/-- Reads a production at the cursor. -/
def produce (p : Parser) (production : Production) :
    Parser × Except ParserFault (Expr Binary64) :=
  match production.read p.settings p.nesting p.remaining with
  | .done e rest _ => (p.leaving rest, .ok e)
  | .failed fault rest nesting => ({ p.leaving rest with nesting := nesting }, .error fault)

/-- Takes the next token if it is of a kind. -/
def expect (p : Parser) (kind : TokenKind) : Parser × Except ParserFault Token :=
  match p.current with
  | .error fault => (p, .error fault)
  | .ok t =>
    if t.kind = kind then (p.advance, .ok t)
    else if t.kind = .endOfInput then
      (p, .error (.error ⟨.kindExpectedAtEnd kind, t.position⟩))
    else (p, .error (.error ⟨.kindExpected kind t.text, t.position⟩))

/-- Cuts the text into tokens and leaves the cursor where it is. -/
def tokenize (p : Parser) : Parser × Except ParserFault Unit :=
  match Token.scan p.source with
  | .error e => (p, .error (.error e))
  | .ok tokens => ({ p with tokens := tokens }, .ok ())

/-- Whether the parser is at the end of the input; the fault there if not. -/
def atEnd (p : Parser) : Except ParserFault Unit :=
  match p.current with
  | .error fault => .error fault
  | .ok t =>
    match t.lexeme with
    | .endOfInput => .ok ()
    | .rightParen => .error (.error ⟨.unexpectedClose, t.position⟩)
    | _ => .error (.error ⟨.trailingInput t.text, t.position⟩)

/-- Reads the whole text, from its beginning and with no parenthesis open. -/
def parse (p : Parser) : Parser × Except ParserFault (Expr Binary64) :=
  if isBlankText p.source.toList then (p, .error (.error ⟨.emptyExpression, 0⟩))
  else
    match Token.scan p.source with
    | .error e => (p, .error (.error e))
    | .ok tokens =>
      match { p with tokens := tokens, cursor := 0, nesting := 0 }.produce .expression with
      | (q, .error fault) => (q, .error fault)
      | (q, .ok e) =>
        match q.atEnd with
        | .error fault => (q, .error fault)
        | .ok _ => (q, .ok e)

/-! ## Steps -/

/-- What can be asked of a parser. -/
inductive Step where
  /-- To cut the text into tokens. -/
  | tokenize
  /-- To show the next token. -/
  | current
  /-- To take the next token. -/
  | consume
  /-- To take the next token if it is of a kind. -/
  | expect (kind : TokenKind)
  /-- To read the whole text. -/
  | parse
  /-- To read a production at the cursor. -/
  | produce (production : Production)

/-- What a parser answers. -/
inductive Answer where
  /-- The step was done. -/
  | done
  /-- A token. -/
  | token (t : Token)
  /-- An expression. -/
  | expression (e : Expr Binary64)
  /-- A fault. -/
  | fault (f : ParserFault)

namespace Answer

/-- An outcome as an answer. -/
def ofOutcome {β : Type} (f : β → Answer) : Except ParserFault β → Answer
  | .ok b => f b
  | .error e => fault e

end Answer

/-- One step of a parser. -/
def step (p : Parser) : Step → Parser × Answer
  | .tokenize => (p.tokenize.1, .ofOutcome (fun _ => .done) p.tokenize.2)
  | .current => (p, .ofOutcome .token p.current)
  | .consume => (p.advance, .ofOutcome .token p.current)
  | .expect kind => ((p.expect kind).1, .ofOutcome .token (p.expect kind).2)
  | .parse => (p.parse.1, .ofOutcome .expression p.parse.2)
  | .produce production =>
    ((p.produce production).1, .ofOutcome .expression (p.produce production).2)

/-- The parser after each of several steps, with the answer to the step. -/
def run (p : Parser) : List Step → List (Parser × Answer)
  | [] => []
  | s :: rest => p.step s :: run (p.step s).1 rest

end Parser

/-- The expression that a text denotes. -/
def Expr.parse (text : String) (limit : NestingLimit) : Except ParserFault (Expr Binary64) :=
  (Parser.new text limit).parse.2

end SumProduct
