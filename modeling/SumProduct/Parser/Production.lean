import SumProduct.Token

/-!
# Productions

Reading expressions from tokens by recursive descent. The grammar is

* expression: terms joined by `+`,
* term: factors joined by `*`,
* factor: a number, a variable, or an expression in parentheses,

and chains group from the left. A chain can be formed of any operator over any production, which
gives further productions beside those of the grammar.

## Main definitions

* `SumProduct.Production` — factors, and chains of an operator over a production.
* `SumProduct.ReadSettings` — the nesting limit and the constants that numerals stand for.
* `SumProduct.Reading` — an expression and the tokens behind it, or a fault and where it was met.
* `SumProduct.Production.read` — what a production reads from a list of tokens.

## Implementation notes

Every operand takes at least one token, which is why reading ends; the result carries that fact. The
number of open parentheses is passed down, so it is the same again after every success, and a
failure reports the number at the point where it was met.
-/

namespace SumProduct

universe u

/-- A production of the grammar. -/
inductive Production where
  /-- A number, a variable or an expression in parentheses. -/
  | factor
  /-- One or more operands joined by an operator. -/
  | chain (op : Op) (operand : Production)
  deriving DecidableEq

namespace Production

/-- Factors joined by `*`. -/
def term : Production := chain .mul factor

/-- Terms joined by `+`. -/
def expression : Production := chain .add term

/-- The number of chains around the factors. -/
def rank : Production → Nat
  | factor => 0
  | chain _ operand => operand.rank + 1

end Production

/-- Why no expression can be read. -/
inductive ParserFault where
  /-- There is no token to look at, not even the end of the input. -/
  | noTokens
  /-- The tokens do not form an expression. -/
  | error (e : SyntaxError)
  deriving DecidableEq

/-- The wording of a fault. -/
def ParserFault.message : ParserFault → String
  | noTokens => "list index out of range"
  | error e => e.message

/-- What reading depends on. -/
structure ReadSettings (α : Type u) where
  /-- The number of parentheses that may be open at once. -/
  limit : Nat
  /-- The constant that a numeral stands for; `none` if it is out of range. -/
  constant? : Numeral → Option α

/-- What a production reads: an expression and fewer than `bound` tokens behind it, or a fault with
the tokens that were not taken and the number of open parentheses at that point. -/
inductive Reading (α : Type u) (bound : Nat) where
  /-- An expression was read. -/
  | done (e : Expr α) (rest : List Token) (shorter : rest.length < bound)
  /-- A fault was met. -/
  | failed (fault : ParserFault) (rest : List Token) (nesting : Nat)

namespace Reading

variable {α : Type u}

/-- A reading that leaves fewer tokens than asked for. -/
def weaken {m n : Nat} (h : m ≤ n) : Reading α m → Reading α n
  | done e rest shorter => done e rest (Nat.lt_of_lt_of_le shorter h)
  | failed fault rest nesting => failed fault rest nesting

/-- A failure at a token. -/
def failAt {n : Nat} (fault : SyntaxFault) (position : Nat) (rest : List Token) (nesting : Nat) :
    Reading α n :=
  failed (.error ⟨fault, position⟩) rest nesting

/-- The end of a group: the inner expression has been read and a closing parenthesis has to
follow. `start` is the position of the opening one. -/
def close {n : Nat} (start nesting : Nat) : Reading α n → Reading α n
  | failed fault rest inner => failed fault rest inner
  | done _ [] _ => failed .noTokens [] nesting
  | done e (t :: after) shorter =>
    match t.lexeme with
    | .rightParen => done e after (Nat.lt_of_succ_lt shorter)
    | .endOfInput => failAt .missingClose start (t :: after) nesting
    | _ => failAt (.kindExpected .rightParen t.text) t.position (t :: after) nesting

end Reading

namespace Production

variable {α : Type u}

mutual

/-- What a production reads from tokens, where `nesting` parentheses are open before them. -/
def read (s : ReadSettings α) (nesting : Nat) (p : Production) (tokens : List Token) :
    Reading α tokens.length :=
  match p with
  | factor => readFactor s nesting tokens
  | chain op operand =>
    match operand.read s nesting tokens with
    | .failed fault rest inner => .failed fault rest inner
    | .done e rest shorter => (readChain s nesting op operand e rest).weaken shorter
termination_by (tokens.length, p.rank + 1)
decreasing_by
  · simp only [rank]
    exact Prod.Lex.right _ (by omega)
  · simp only [rank]
    exact Prod.Lex.right _ (by omega)
  · exact Prod.Lex.left _ _ shorter

/-- The rest of a chain whose operands so far form `e`. -/
def readChain (s : ReadSettings α) (nesting : Nat) (op : Op) (operand : Production) (e : Expr α)
    (tokens : List Token) : Reading α (tokens.length + 1) :=
  match tokens with
  | [] => .failed .noTokens [] nesting
  | t :: rest =>
    if t.lexeme = .operator op then
      match operand.read s nesting rest with
      | .failed fault rest inner => .failed fault rest inner
      | .done next after shorter =>
        have : after.length < rest.length + 1 := Nat.lt_succ_of_lt shorter
        (readChain s nesting op operand (.binary op e next) after).weaken
          (Nat.succ_le_succ (Nat.le_of_lt this))
    else .done e (t :: rest) (Nat.lt_succ_self _)
termination_by (tokens.length, operand.rank + 2)
decreasing_by
  · exact Prod.Lex.left _ _ (Nat.lt_succ_self _)
  · exact Prod.Lex.left _ _ this

/-- What a factor is read from. -/
def readFactor (s : ReadSettings α) (nesting : Nat) (tokens : List Token) :
    Reading α tokens.length :=
  match tokens with
  | [] => .failed .noTokens [] nesting
  | t :: rest =>
    match t.lexeme with
    | .number numeral =>
      match s.constant? numeral with
      | some value => .done (.constant value) rest (Nat.lt_succ_self _)
      | none => .failAt (.outOfRange t.text) t.position rest nesting
    | .var name => .done (.var name) rest (Nat.lt_succ_self _)
    | .leftParen =>
      if s.limit < nesting + 1 then .failAt (.tooDeep s.limit) t.position rest (nesting + 1)
      else if rest.head?.map (·.lexeme) = some .rightParen then
        .failAt .emptyParentheses t.position rest (nesting + 1)
      else
        ((expression.read s (nesting + 1) rest).close t.position (nesting + 1)).weaken
          (Nat.le_succ _)
    | .endOfInput => .failAt .unexpectedEnd t.position (t :: rest) nesting
    | .rightParen => .failAt .unexpectedClose t.position (t :: rest) nesting
    | .operator _ => .failAt (.operandExpected t.text) t.position (t :: rest) nesting
termination_by (tokens.length, 0)
decreasing_by exact Prod.Lex.left _ _ (Nat.lt_succ_self _)

end

end Production

end SumProduct
