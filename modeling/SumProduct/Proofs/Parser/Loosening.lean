import SumProduct.Proofs.Parser.Progress

/-!
# Reading under a higher limit

Two runs of reading that differ in the nesting limit alone. They agree as long as the lower limit
does not refuse a parenthesis. Where it does, the other run has taken the same tokens, and takes
this parenthesis too.

## Main definitions

* `SumProduct.Outcome.left` — the tokens that are not taken.
* `SumProduct.Outcome.TooDeep` — reading stopped at a parenthesis beyond the limit.
* `SumProduct.Outcome.Loosened` — how the outcomes under two limits are related.

## Main results

* `SumProduct.Production.loosened_outcome` — outcomes under a lower and a higher limit are related
  so.
-/

namespace SumProduct

universe u

variable {α : Type u}

namespace Outcome

/-- The tokens that are not taken. -/
def left : Outcome α → List Token
  | done _ rest => rest
  | failed _ rest _ => rest

/-- Reading stopped at a parenthesis beyond the limit. -/
def TooDeep : Outcome α → Prop
  | failed (.error ⟨.tooDeep _, _⟩) _ _ => True
  | _ => False

/-- The outcome from these tokens under a limit, and the one under a higher limit. -/
inductive Loosened (limit : Nat) (tokens : List Token) : Outcome α → Outcome α → Prop
  /-- The lower limit has not been reached, and the outcomes are the same. -/
  | same {o : Outcome α} (h : ¬ o.TooDeep) : Loosened limit tokens o o
  /-- The lower limit refuses a parenthesis, and the other outcome has it taken. -/
  | further {taken rest : List Token} {t : Token} {nesting : Nat} {o : Outcome α}
      (htokens : tokens = taken ++ t :: rest) (ht : t.lexeme = .leftParen)
      (hleft : o.left <:+ rest) :
      Loosened limit tokens (failed (.error ⟨.tooDeep limit, t.position⟩) rest nesting) o

variable {o : Outcome α} {next : Expr α → List Token → Outcome α} {start nesting : Nat}
  {tokens : List Token}

/-! ## Tokens that are left -/

/-- An outcome that is taken further leaves no more tokens than before. -/
lemma left_andThen_suffix (ho : o.left <:+ tokens)
    (hnext : ∀ e rest, (next e rest).left <:+ rest) : (o.andThen next).left <:+ tokens := by
  cases o with
  | done e rest => exact (hnext e rest).trans ho
  | failed fault rest inner => exact ho

/-- The end of a group is taken from the tokens behind its inner expression. -/
lemma left_close_suffix (ho : o.left <:+ tokens) : (o.close start nesting).left <:+ tokens := by
  refine left_andThen_suffix ho fun e rest => ?_
  cases rest with
  | nil => exact List.suffix_rfl
  | cons t after =>
    rcases t with ⟨l, position⟩
    cases l with
    | rightParen => exact List.suffix_cons _ _
    | number | var | operator | leftParen | endOfInput => exact List.suffix_rfl

end Outcome

namespace Production

open Outcome

variable {s : ReadSettings α} {nesting : Nat}

/-- Reading a production leaves the last of its tokens. -/
lemma left_outcome_suffix (p : Production) (tokens : List Token) :
    (p.outcome s nesting tokens).left <:+ tokens := by
  have hadvances := p.advancesFrom_outcome s nesting tokens
  cases houtcome : p.outcome s nesting tokens <;> rw [houtcome] at hadvances <;>
    obtain ⟨taken, htokens, -⟩ := hadvances <;> exact ⟨taken, htokens.symm⟩

/-- Reading the rest of a chain leaves the last of its tokens. -/
lemma left_chainOutcome_suffix (op : Op) (operand : Production) (e : Expr α) (tokens : List Token) :
    (chainOutcome s nesting op operand e tokens).left <:+ tokens := by
  induction hlength : tokens.length using Nat.strong_induction_on generalizing e tokens with
  | _ n ih =>
    subst hlength
    cases tokens with
    | nil =>
      rw [chainOutcome_nil]
      exact List.suffix_rfl
    | cons t tokens =>
      by_cases ht : t.lexeme = .operator op
      · rw [chainOutcome_operator _ _ _ ht]
        have hoperand : (operand.outcome s nesting tokens).left <:+ tokens :=
          left_outcome_suffix operand tokens
        cases houtcome : operand.outcome s nesting tokens with
        | failed fault rest inner =>
          rw [houtcome] at hoperand
          exact hoperand.trans (List.suffix_cons _ _)
        | done f after =>
          rw [houtcome] at hoperand
          have hshorter := length_lt_of_outcome houtcome
          have hrest := ih after.length (by simp; omega) (.binary op e f) after rfl
          exact hrest.trans (hoperand.trans (List.suffix_cons _ _))
      · rw [chainOutcome_stop _ _ _ ht]
        exact List.suffix_rfl

end Production

/-! ## Two limits -/

namespace Outcome

variable {o o' : Outcome α} {next next' : Expr α → List Token → Outcome α}
  {limit : Nat} {tokens tokens' : List Token}

/-- Outcomes under two limits are the same, or the lower limit refuses a parenthesis. -/
lemma Loosened.cases (h : Loosened limit tokens o o') : ¬ o.TooDeep ∧ o' = o ∨
    ∃ taken t rest nesting, tokens = taken ++ t :: rest ∧ t.lexeme = .leftParen ∧
      o = .failed (.error ⟨.tooDeep limit, t.position⟩) rest nesting ∧ o'.left <:+ rest := by
  cases h with
  | same hdeep => exact .inl ⟨hdeep, rfl⟩
  | further htokens ht hleft => exact .inr ⟨_, _, _, _, htokens, ht, rfl, hleft⟩

/-- Tokens in front may be counted as taken. -/
lemma Loosened.mono (h : Loosened limit tokens o o') (htokens : tokens <:+ tokens') :
    Loosened limit tokens' o o' := by
  obtain ⟨front, rfl⟩ := htokens
  cases h with
  | same hdeep => exact .same hdeep
  | further htaken ht hleft => exact .further (by rw [htaken, List.append_assoc]) ht hleft

/-- Outcomes may be taken further. -/
lemma Loosened.andThen (h : Loosened limit tokens o o') (ho : o.left <:+ tokens)
    (hnext : ∀ e rest, o = .done e rest → Loosened limit rest (next e rest) (next' e rest))
    (hleft : ∀ e rest, (next' e rest).left <:+ rest) :
    Loosened limit tokens (o.andThen next) (o'.andThen next') := by
  cases h with
  | same hdeep =>
    cases o with
    | done e rest => exact (hnext e rest rfl).mono ho
    | failed fault rest inner => exact .same hdeep
  | further htokens ht hrest => exact .further htokens ht (left_andThen_suffix hrest hleft)

/-- A group may be closed. -/
lemma Loosened.close (h : Loosened limit tokens o o') (ho : o.left <:+ tokens)
    (start nesting : Nat) :
    Loosened limit tokens (o.close start nesting) (o'.close start nesting) := by
  refine h.andThen ho (fun e rest _ => .same ?_) fun e rest =>
    left_close_suffix (o := .done e rest) List.suffix_rfl
  -- The limit is not looked at where a group is closed.
  cases rest with
  | nil => exact not_false
  | cons t after =>
    rcases t with ⟨l, position⟩
    cases l <;> exact not_false

end Outcome

namespace Production

open Outcome

variable {s s' : ReadSettings α} {nesting : Nat}

/-- What a factor is read from under two limits, if it is known for the inside of parentheses. -/
lemma loosened_factor (hconstant : s'.constant? = s.constant?) (hlimit : s.limit ≤ s'.limit)
    {tokens : List Token}
    (ih : ∀ t inner, tokens = t :: inner → t.lexeme = .leftParen → nesting < s.limit →
      inner.head?.map (·.lexeme) ≠ some .rightParen →
      Loosened s.limit inner (expression.outcome s (nesting + 1) inner)
        (expression.outcome s' (nesting + 1) inner)) :
    Loosened s.limit tokens (factor.outcome s nesting tokens)
      (factor.outcome s' nesting tokens) := by
  cases tokens with
  | nil =>
    rw [outcome_nil, outcome_nil]
    exact .same not_false
  | cons t tail =>
    cases ht : t.lexeme with
    | number numeral =>
      cases hvalue : s.constant? numeral with
      | some value =>
        rw [outcome_number ht hvalue, outcome_number ht (hconstant ▸ hvalue)]
        exact .same not_false
      | none =>
        rw [outcome_outOfRange ht hvalue, outcome_outOfRange ht (hconstant ▸ hvalue)]
        exact .same not_false
    | var name =>
      rw [outcome_var ht, outcome_var ht]
      exact .same not_false
    | leftParen =>
      by_cases hlow : nesting < s.limit
      · have hhigh : nesting < s'.limit := hlow.trans_le hlimit
        by_cases hempty : tail.head?.map (·.lexeme) = some .rightParen
        · rw [outcome_empty ht hlow hempty, outcome_empty ht hhigh hempty]
          exact .same not_false
        · rw [outcome_group ht hlow hempty, outcome_group ht hhigh hempty]
          have hinner := (ih t tail rfl ht hlow hempty).close (left_outcome_suffix _ _) t.position
            (nesting + 1)
          exact hinner.mono (List.suffix_cons _ _)
      · -- Only here do the limits matter: the higher one may let the parenthesis pass.
        have hleft : (factor.outcome s' nesting (t :: tail)).left <:+ tail := by
          by_cases hhigh : nesting < s'.limit
          · by_cases hempty : tail.head?.map (·.lexeme) = some .rightParen
            · rw [outcome_empty ht hhigh hempty]
              exact List.suffix_rfl
            · rw [outcome_group ht hhigh hempty]
              exact left_close_suffix (left_outcome_suffix _ _)
          · rw [outcome_tooDeep ht (by omega)]
            exact List.suffix_rfl
        rw [outcome_tooDeep ht (by omega)]
        exact .further (List.nil_append _).symm ht hleft
    | operator op =>
      rw [outcome_operator ht, outcome_operator ht]
      exact .same not_false
    | rightParen =>
      rw [outcome_rightParen ht, outcome_rightParen ht]
      exact .same not_false
    | endOfInput =>
      rw [outcome_endOfInput ht, outcome_endOfInput ht]
      exact .same not_false

/-- **A higher limit changes nothing before the lower one is reached.** Two runs with the same
constants, one under a limit that is no lower, have the same outcome, unless the first one refuses a
parenthesis for its limit; then the other has at least this parenthesis taken as well.

**Proof sketch.** Induction along the run under the lower limit. The runs go through the same
productions at the same tokens with the same number of open parentheses; an outcome that the two
share is taken further in the same way, and one that the lower limit has ended stays as it is. -/
theorem loosened_outcome (s s' : ReadSettings α) (hconstant : s'.constant? = s.constant?)
    (hlimit : s.limit ≤ s'.limit) (nesting : Nat) (p : Production) (tokens : List Token) :
    Loosened s.limit tokens (p.outcome s nesting tokens) (p.outcome s' nesting tokens) := by
  refine outcome_induct s
    (fun nesting p tokens =>
      Loosened s.limit tokens (p.outcome s nesting tokens) (p.outcome s' nesting tokens))
    (fun nesting op operand a tokens =>
      Loosened s.limit tokens (chainOutcome s nesting op operand a tokens)
        (chainOutcome s' nesting op operand a tokens))
    ?factor ?chain ?nil ?operator ?stop nesting p tokens
  case factor =>
    intro nesting tokens ih
    exact loosened_factor hconstant hlimit ih
  case chain =>
    intro nesting op operand tokens ihOperand ihRest
    rw [outcome_chain, outcome_chain]
    exact ihOperand.andThen (left_outcome_suffix _ _) ihRest (left_chainOutcome_suffix _ _)
  case nil =>
    intro nesting op operand a
    rw [chainOutcome_nil, chainOutcome_nil]
    exact .same not_false
  case operator =>
    intro nesting op operand a t tokens ht ihOperand ihRest
    rw [chainOutcome_operator _ _ _ ht, chainOutcome_operator _ _ _ ht]
    have hrest := ihOperand.andThen (left_outcome_suffix _ _) ihRest
      fun e => left_chainOutcome_suffix op operand (.binary op a e)
    exact hrest.mono (List.suffix_cons _ _)
  case stop =>
    intro nesting op operand a t tokens ht
    rw [chainOutcome_stop _ _ _ ht, chainOutcome_stop _ _ _ ht]
    exact .same not_false

end Production

end SumProduct
