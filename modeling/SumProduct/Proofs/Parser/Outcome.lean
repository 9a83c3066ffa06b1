import SumProduct.Proofs.Parser.Phrase

/-!
# Outcomes of reading

A reading carries a bound on the tokens that are left. Its outcome is the reading without the bound,
and outcomes obey equations that follow the grammar: one for each form of a production and of the
next token. What is proved of reading is proved from these equations.

## Main definitions

* `SumProduct.Outcome`, `SumProduct.Reading.outcome` — a reading without its bound.
* `SumProduct.Outcome.andThen`, `SumProduct.Outcome.close` — how an outcome is taken further.
* `SumProduct.Production.StopsAt` — tokens that do not continue a production.

## Main results

* `SumProduct.Production.outcome_chain`, `SumProduct.Production.chainOutcome_operator`,
  `SumProduct.Production.chainOutcome_stop` — the outcome of a chain.
* `SumProduct.Production.outcome_number`, `SumProduct.Production.outcome_var`,
  `SumProduct.Production.outcome_group` — the outcome of a factor.
* `SumProduct.Production.outcome_empty`, `SumProduct.Production.outcome_operator` — what is refused.
-/

namespace SumProduct

universe u

variable {α : Type u}

/-! ## Outcomes -/

/-- What a reading comes to: an expression and the tokens behind it, or a fault with the tokens that
were not taken and the number of parentheses open there. -/
inductive Outcome (α : Type u) where
  /-- An expression was read. -/
  | done (e : Expr α) (rest : List Token)
  /-- A fault was met. -/
  | failed (fault : ParserFault) (rest : List Token) (nesting : Nat)

/-- A reading without the bound on the tokens left. -/
def Reading.outcome {n : Nat} : Reading α n → Outcome α
  | done e rest _ => .done e rest
  | failed fault rest nesting => .failed fault rest nesting

/-- What comes of an outcome when an expression that was read is taken further. -/
def Outcome.andThen (o : Outcome α) (next : Expr α → List Token → Outcome α) : Outcome α :=
  match o with
  | done e rest => next e rest
  | failed fault rest nesting => failed fault rest nesting

/-- What comes of a group with this inner outcome, where the group starts at a position. -/
def Outcome.close (start nesting : Nat) (o : Outcome α) : Outcome α :=
  o.andThen fun e rest =>
    match rest with
    | [] => failed .noTokens [] nesting
    | t :: after =>
      match t.lexeme with
      | .rightParen => done e after
      | .endOfInput => failed (.error ⟨.missingClose, start⟩) (t :: after) nesting
      | _ =>
        failed (.error ⟨.kindExpected .rightParen t.text, t.position⟩) (t :: after) nesting

namespace Reading

/-- A weaker bound leaves the outcome as it is. -/
@[simp] lemma outcome_weaken {m n : Nat} (h : m ≤ n) (r : Reading α m) :
    (r.weaken h).outcome = r.outcome := by
  cases r <;> rfl

/-- The end of a group is a matter of outcomes. -/
lemma outcome_close {n : Nat} (start nesting : Nat) (r : Reading α n) :
    (r.close start nesting).outcome = r.outcome.close start nesting := by
  cases r with
  | failed fault rest inner => rfl
  | done e rest shorter =>
    cases rest with
    | nil => rfl
    | cons t after =>
      rcases t with ⟨l, position⟩
      cases l <;> rfl

end Reading

namespace Production

variable (s : ReadSettings α) (nesting : Nat)

/-- The outcome of reading a production. -/
def outcome (p : Production) (tokens : List Token) : Outcome α := (p.read s nesting tokens).outcome

/-- The outcome of reading the rest of a chain. -/
def chainOutcome (op : Op) (operand : Production) (e : Expr α) (tokens : List Token) : Outcome α :=
  (readChain s nesting op operand e tokens).outcome

/-- A chain is its first operand and the rest. -/
lemma outcome_chain (op : Op) (operand : Production) (tokens : List Token) :
    (chain op operand).outcome s nesting tokens =
      (operand.outcome s nesting tokens).andThen (chainOutcome s nesting op operand) := by
  rw [outcome, read, outcome]
  cases operand.read s nesting tokens with
  | failed fault rest inner => rfl
  | done e rest shorter => exact Reading.outcome_weaken _ _

/-- A chain goes on with an operand behind its operator. -/
lemma chainOutcome_operator {op : Op} {operand : Production} (e : Expr α) {t : Token}
    (ht : t.lexeme = .operator op) (rest : List Token) :
    chainOutcome s nesting op operand e (t :: rest) =
      (operand.outcome s nesting rest).andThen fun next =>
        chainOutcome s nesting op operand (.binary op e next) := by
  rw [chainOutcome, readChain, if_pos ht, outcome]
  cases operand.read s nesting rest with
  | failed fault rest inner => rfl
  | done next after shorter => exact Reading.outcome_weaken _ _

/-- A chain ends before any other token. -/
lemma chainOutcome_stop {op : Op} {operand : Production} (e : Expr α) {t : Token}
    (ht : t.lexeme ≠ .operator op) (rest : List Token) :
    chainOutcome s nesting op operand e (t :: rest) = .done e (t :: rest) := by
  rw [chainOutcome, readChain, if_neg ht]
  rfl

variable {s nesting}

/-- A numeral in range is a factor. -/
lemma outcome_number {t : Token} {numeral : Numeral} (ht : t.lexeme = .number numeral) {value : α}
    (hvalue : s.constant? numeral = some value) (rest : List Token) :
    factor.outcome s nesting (t :: rest) = .done (.constant value) rest := by
  simp only [outcome, read, readFactor, ht, hvalue]
  rfl

/-- A variable is a factor. -/
lemma outcome_var {t : Token} {name : Name} (ht : t.lexeme = .var name) (rest : List Token) :
    factor.outcome s nesting (t :: rest) = .done (.var name) rest := by
  simp only [outcome, read, readFactor, ht]
  rfl

/-- A parenthesis beyond the limit is refused. -/
lemma outcome_tooDeep {t : Token} (ht : t.lexeme = .leftParen) (hlimit : s.limit < nesting + 1)
    (rest : List Token) :
    factor.outcome s nesting (t :: rest) =
      .failed (.error ⟨.tooDeep s.limit, t.position⟩) rest (nesting + 1) := by
  simp only [outcome, read, readFactor, ht, if_pos hlimit]
  rfl

/-- A parenthesis within the limit opens a group, unless it is closed at once. -/
lemma outcome_group {t : Token} (ht : t.lexeme = .leftParen) (hlimit : nesting < s.limit)
    {rest : List Token} (hrest : rest.head?.map (·.lexeme) ≠ some .rightParen) :
    factor.outcome s nesting (t :: rest) =
      (expression.outcome s (nesting + 1) rest).close t.position (nesting + 1) := by
  have hfits : ¬ s.limit < nesting + 1 := by omega
  simp only [outcome, read, readFactor, ht, if_neg hfits, if_neg hrest, Reading.outcome_weaken,
    Reading.outcome_close]

/-! ## Refusals -/

/-- A factor needs a token. -/
lemma outcome_nil : factor.outcome s nesting [] = .failed .noTokens [] nesting := by
  simp only [outcome, read, readFactor]
  rfl

/-- The rest of a chain needs a token. -/
lemma chainOutcome_nil {op : Op} {operand : Production} {e : Expr α} :
    chainOutcome s nesting op operand e [] = .failed .noTokens [] nesting := by
  rw [chainOutcome, readChain]
  rfl

/-- A numeral out of range is refused. -/
lemma outcome_outOfRange {t : Token} {numeral : Numeral} (ht : t.lexeme = .number numeral)
    (hvalue : s.constant? numeral = none) (rest : List Token) :
    factor.outcome s nesting (t :: rest) =
      .failed (.error ⟨.outOfRange t.text, t.position⟩) rest nesting := by
  simp only [outcome, read, readFactor, ht, hvalue]
  rfl

/-- A parenthesis within the limit is refused if it is closed at once. -/
lemma outcome_empty {t : Token} (ht : t.lexeme = .leftParen) (hlimit : nesting < s.limit)
    {rest : List Token} (hrest : rest.head?.map (·.lexeme) = some .rightParen) :
    factor.outcome s nesting (t :: rest) =
      .failed (.error ⟨.emptyParentheses, t.position⟩) rest (nesting + 1) := by
  simp only [outcome, read, readFactor, ht, if_neg (Nat.not_lt_of_le hlimit), if_pos hrest]
  rfl

/-- An operator is refused as a factor. -/
lemma outcome_operator {t : Token} {op : Op} (ht : t.lexeme = .operator op) (rest : List Token) :
    factor.outcome s nesting (t :: rest) =
      .failed (.error ⟨.operandExpected t.text, t.position⟩) (t :: rest) nesting := by
  simp only [outcome, read, readFactor, ht]
  rfl

/-- A closing parenthesis is refused as a factor. -/
lemma outcome_rightParen {t : Token} (ht : t.lexeme = .rightParen) (rest : List Token) :
    factor.outcome s nesting (t :: rest) =
      .failed (.error ⟨.unexpectedClose, t.position⟩) (t :: rest) nesting := by
  simp only [outcome, read, readFactor, ht]
  rfl

/-- The end of the input is refused as a factor. -/
lemma outcome_endOfInput {t : Token} (ht : t.lexeme = .endOfInput) (rest : List Token) :
    factor.outcome s nesting (t :: rest) =
      .failed (.error ⟨.unexpectedEnd, t.position⟩) (t :: rest) nesting := by
  simp only [outcome, read, readFactor, ht]
  rfl

/-! ## Induction along the reading -/

/-- What has been read is not left. -/
lemma length_lt_of_outcome {p : Production} {tokens after : List Token} {e : Expr α}
    (h : p.outcome s nesting tokens = .done e after) : after.length < tokens.length := by
  unfold outcome at h
  cases hread : p.read s nesting tokens with
  | done f left shorter =>
    rw [hread] at h
    cases h
    exact shorter
  | failed fault left inner =>
    rw [hread] at h
    cases h

/-- To show something of productions at tokens, and something of the rests of chains, it is enough
to show it of a factor where it holds of the group that the factor opens, of a chain where it holds
of the first operand and of the rest behind it, and of the rest of a chain where it holds of the
next operand and of the rest behind that.

**Proof sketch.** Strong induction on the number of tokens, and for a given list of tokens induction
on the production: what is behind an operand is shorter than what it was read from. -/
theorem outcome_induct (s : ReadSettings α) (motive : Nat → Production → List Token → Prop)
    (rest : Nat → Op → Production → Expr α → List Token → Prop)
    (hfactor : ∀ nesting tokens,
      (∀ t inner, tokens = t :: inner → t.lexeme = .leftParen → nesting < s.limit →
        inner.head?.map (·.lexeme) ≠ some .rightParen → motive (nesting + 1) expression inner) →
      motive nesting factor tokens)
    (hchain : ∀ nesting op operand tokens, motive nesting operand tokens →
      (∀ e after, operand.outcome s nesting tokens = .done e after →
        rest nesting op operand e after) →
      motive nesting (chain op operand) tokens)
    (hnil : ∀ nesting op operand e, rest nesting op operand e [])
    (hoperator : ∀ nesting op operand e t tokens, t.lexeme = .operator op →
      motive nesting operand tokens →
      (∀ f after, operand.outcome s nesting tokens = .done f after →
        rest nesting op operand (.binary op e f) after) →
      rest nesting op operand e (t :: tokens))
    (hstop : ∀ nesting op operand e t tokens, t.lexeme ≠ .operator op →
      rest nesting op operand e (t :: tokens)) (nesting : Nat) (p : Production)
    (tokens : List Token) : motive nesting p tokens := by
  suffices h : ∀ n tokens, tokens.length = n → (∀ nesting p, motive nesting p tokens) ∧
      ∀ nesting op operand e, rest nesting op operand e tokens from
    (h _ tokens rfl).1 nesting p
  intro n
  induction n using Nat.strong_induction_on with
  | _ n ih =>
    rintro tokens rfl
    constructor
    · intro nesting p
      induction p with
      | factor =>
        refine hfactor nesting tokens fun t inner htokens _ _ _ => ?_
        exact (ih inner.length (by simp [htokens]) inner rfl).1 _ _
      | chain op operand ihp =>
        exact hchain _ _ _ _ ihp fun e after h =>
          (ih after.length (length_lt_of_outcome h) after rfl).2 _ _ _ _
    · intro nesting op operand e
      cases tokens with
      | nil => exact hnil _ _ _ _
      | cons t tokens =>
        by_cases ht : t.lexeme = .operator op
        · refine hoperator _ _ _ _ _ _ ht ((ih tokens.length (by simp) tokens rfl).1 _ _)
            fun f after h => ?_
          have hshorter := length_lt_of_outcome h
          exact (ih after.length (by simp; omega) after rfl).2 _ _ _ _
        · exact hstop _ _ _ _ _ _ ht

/-! ## Tokens that do not continue a production -/

/-- The operators of the chains of a production. -/
def operators : Production → List Op
  | factor => []
  | chain op operand => op :: operand.operators

/-- A production cannot go on at these tokens: they do not begin with one of its operators. -/
def StopsAt (p : Production) (tokens : List Token) : Prop :=
  ∀ t ∈ tokens.head?, ∀ op ∈ p.operators, t.lexeme ≠ .operator op

/-- Whether a production can go on is decided by the first token. -/
lemma stopsAt_cons {p : Production} {t : Token} {tokens : List Token} :
    p.StopsAt (t :: tokens) ↔ ∀ op ∈ p.operators, t.lexeme ≠ .operator op := by
  simp [StopsAt]

/-! ## Outcomes that are expressions -/

/-- An outcome that is taken further is an expression only if it was one before. -/
lemma andThen_eq_done {o : Outcome α} {next : Expr α → List Token → Outcome α} {e : Expr α}
    {rest : List Token} (h : o.andThen next = .done e rest) :
    ∃ a tokens, o = .done a tokens ∧ next a tokens = .done e rest := by
  cases o with
  | done a tokens => exact ⟨a, tokens, rfl, h⟩
  | failed fault tokens inner => cases h

/-- A closed group is an expression in front of a closing parenthesis. -/
lemma close_eq_done {o : Outcome α} {start inner : Nat} {e : Expr α} {rest : List Token}
    (h : o.close start inner = .done e rest) :
    ∃ t, t.lexeme = .rightParen ∧ o = .done e (t :: rest) := by
  obtain ⟨a, tokens, rfl, hnext⟩ := andThen_eq_done h
  cases tokens with
  | nil => cases hnext
  | cons t after =>
    refine ⟨t, ?_⟩
    rcases t with ⟨l, position⟩
    cases l <;> cases hnext
    exact ⟨rfl, rfl⟩

/-- A factor is a number, a variable, or an expression in parentheses within the limit. -/
lemma factor_eq_done {tokens rest : List Token} {e : Expr α}
    (h : factor.outcome s nesting tokens = .done e rest) :
    ∃ t tail, tokens = t :: tail ∧
      ((∃ numeral value, t.lexeme = .number numeral ∧ s.constant? numeral = some value ∧
          e = .constant value ∧ rest = tail) ∨
        (∃ name, t.lexeme = .var name ∧ e = .var name ∧ rest = tail) ∨
        (t.lexeme = .leftParen ∧ nesting < s.limit ∧
          tail.head?.map (·.lexeme) ≠ some .rightParen ∧ ∃ close, close.lexeme = .rightParen ∧
          expression.outcome s (nesting + 1) tail = .done e (close :: rest))) := by
  cases tokens with
  | nil =>
    rw [outcome_nil] at h
    cases h
  | cons t tail =>
    refine ⟨t, tail, rfl, ?_⟩
    cases ht : t.lexeme with
    | number numeral =>
      cases hvalue : s.constant? numeral with
      | some value =>
        rw [outcome_number ht hvalue] at h
        cases h
        exact .inl ⟨numeral, value, rfl, hvalue, rfl, rfl⟩
      | none =>
        rw [outcome_outOfRange ht hvalue] at h
        cases h
    | var name =>
      rw [outcome_var ht] at h
      cases h
      exact .inr (.inl ⟨name, rfl, rfl, rfl⟩)
    | leftParen =>
      by_cases hlimit : nesting < s.limit
      · by_cases hempty : tail.head?.map (·.lexeme) = some .rightParen
        · rw [outcome_empty ht hlimit hempty] at h
          cases h
        · rw [outcome_group ht hlimit hempty] at h
          exact .inr (.inr ⟨rfl, hlimit, hempty, close_eq_done h⟩)
      · rw [outcome_tooDeep ht (by omega)] at h
        cases h
    | operator op =>
      rw [outcome_operator ht] at h
      cases h
    | rightParen =>
      rw [outcome_rightParen ht] at h
      cases h
    | endOfInput =>
      rw [outcome_endOfInput ht] at h
      cases h

end Production

end SumProduct
