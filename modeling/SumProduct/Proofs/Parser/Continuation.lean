import Mathlib.Data.List.Induction
import SumProduct.Proofs.Parser.Phrase

/-!
# What tokens may follow others

Whether a token may follow others in an accepted text is decided by two things: whether an operand
is complete before it, and which parentheses are open. An operand has to come at the beginning,
behind an operator and behind an opening parenthesis; behind an operand there is an operator, a
closing parenthesis if one is open, or the end of the input if none is.

## Main definitions

* `SumProduct.Token.EndsOperand` — tokens that end with a complete operand.
* `SumProduct.Token.unclosed` — the opening parentheses that are not closed.
* `SumProduct.Token.Allows`, `SumProduct.Token.Admits` — what may follow tokens.
* `SumProduct.Token.OperandDue` — tokens behind which an operand has to come.

## Main results

* `SumProduct.Phrase.addsOperand` — a phrase that fits the limit may follow wherever an operand is
  due.
* `SumProduct.Phrase.admits` — the tokens of an accepted text may follow one another.
-/

namespace SumProduct

universe u

/-- The lexemes that an operand ends with. -/
def Lexeme.endsOperand : Lexeme → Bool
  | number _ => true
  | var _ => true
  | rightParen => true
  | operator _ => false
  | leftParen => false
  | endOfInput => false

namespace Token

/-- An operand is complete at the end of tokens. -/
def EndsOperand (before : List Token) : Prop :=
  ∃ t ∈ before.getLast?, t.lexeme.endsOperand = true

/-- The open parentheses behind a token, where these are open before it, the innermost first. -/
def openBehind (opened : List Token) (t : Token) : List Token :=
  match t.lexeme with
  | .leftParen => t :: opened
  | .rightParen => opened.tail
  | _ => opened

/-- The opening parentheses among tokens that are not closed, the innermost first. -/
def unclosed (tokens : List Token) : List Token := tokens.foldl openBehind []

variable {α : Type u}

/-- A token may follow others: a numeral in range, a variable or an opening parenthesis within the
limit where an operand has to come, and any other token behind an operand, where a closing
parenthesis needs an open one and the end of the input needs that there is none. -/
def Allows (s : ReadSettings α) (before : List Token) (t : Token) : Prop :=
  match t.lexeme with
  | .number n => ¬ EndsOperand before ∧ ∃ value, s.constant? n = some value
  | .var _ => ¬ EndsOperand before
  | .leftParen => ¬ EndsOperand before ∧ (unclosed before).length < s.limit
  | .operator _ => EndsOperand before
  | .rightParen => EndsOperand before ∧ unclosed before ≠ []
  | .endOfInput => EndsOperand before ∧ unclosed before = []

/-- Each of several tokens may follow those before it. -/
def Admits (s : ReadSettings α) (before : List Token) : List Token → Prop
  | [] => True
  | t :: rest => Allows s before t ∧ Admits s (before ++ [t]) rest

variable {s : ReadSettings α} {before taken : List Token} {t : Token}

/-! ## One more token -/

/-- Whether an operand is complete is decided by the last token. -/
@[simp] lemma endsOperand_append_singleton :
    EndsOperand (before ++ [t]) ↔ t.lexeme.endsOperand = true := by
  simp [EndsOperand]

/-- No operand is complete before the first token. -/
@[simp] lemma not_endsOperand_nil : ¬ EndsOperand [] := by simp [EndsOperand]

/-- No parenthesis is open before the first token. -/
@[simp] lemma unclosed_nil : unclosed [] = [] := rfl

/-- An opening parenthesis is open behind it. -/
lemma openBehind_leftParen {opened : List Token} (ht : t.lexeme = .leftParen) :
    openBehind opened t = t :: opened := by
  simp [openBehind, ht]

/-- An operator leaves the open parentheses as they are. -/
lemma openBehind_operator {opened : List Token} {op : Op} (ht : t.lexeme = .operator op) :
    openBehind opened t = opened := by
  simp [openBehind, ht]

/-- The open parentheses behind one more token. -/
@[simp] lemma unclosed_append_singleton :
    unclosed (before ++ [t]) = openBehind (unclosed before) t := by
  simp [unclosed]

/-- Only opening parentheses among the tokens are open. -/
lemma of_mem_unclosed {tokens : List Token} :
    ∀ start ∈ unclosed tokens, start ∈ tokens ∧ start.lexeme = .leftParen := by
  induction tokens using List.reverseRecOn with
  | nil => simp
  | append_singleton tokens t ih =>
    have hearlier : ∀ start ∈ unclosed tokens, start ∈ tokens ++ [t] ∧ start.lexeme = .leftParen :=
      fun start hstart => (ih start hstart).imp_left (List.mem_append_left [t])
    intro start hstart
    rw [unclosed_append_singleton, openBehind] at hstart
    split at hstart
    case h_1 hlexeme =>
      rcases List.mem_cons.mp hstart with rfl | hmem
      · exact ⟨by simp, hlexeme⟩
      · exact hearlier start hmem
    case h_2 => exact hearlier start (List.mem_of_mem_tail hstart)
    case h_3 => exact hearlier start hstart

/-- Tokens may follow if the first ones may and the others may follow these. -/
lemma admits_append {next : List Token} :
    Admits s before (taken ++ next) ↔ Admits s before taken ∧ Admits s (before ++ taken) next := by
  induction taken generalizing before with
  | nil => simp [Admits]
  | cons t taken ih => simp [Admits, ih, and_assoc]

/-! ## Where an operand is due -/

/-- An operand has to come behind tokens that leave this many parentheses open. -/
structure OperandDue (nesting : Nat) (before : List Token) : Prop where
  /-- No operand is complete. -/
  incomplete : ¬ EndsOperand before
  /-- The number of open parentheses. -/
  length_unclosed : (unclosed before).length = nesting

/-- An operand is due at the beginning. -/
lemma operandDue_nil : OperandDue 0 [] := ⟨not_endsOperand_nil, rfl⟩

/-- An operand is due behind an opening parenthesis. -/
lemma OperandDue.leftParen {nesting : Nat} (h : OperandDue nesting before)
    (ht : t.lexeme = .leftParen) : OperandDue (nesting + 1) (before ++ [t]) where
  incomplete := by
    rw [endsOperand_append_singleton, ht]
    nofun
  length_unclosed := by
    rw [unclosed_append_singleton, openBehind_leftParen ht, List.length_cons, h.length_unclosed]

/-! ## One more operand -/

/-- Tokens may follow others and put a complete operand behind them. -/
structure AddsOperand (s : ReadSettings α) (before taken : List Token) : Prop where
  /-- The tokens may follow. -/
  admits : Admits s before taken
  /-- They end with an operand. -/
  ends : EndsOperand (before ++ taken)
  /-- They close what they open, and nothing else. -/
  closes : unclosed (before ++ taken) = unclosed before

/-- An operand is due behind an operator that is behind an operand. -/
lemma AddsOperand.operandDue {nesting : Nat} {op : Op} (h : AddsOperand s before taken)
    (hdue : OperandDue nesting before) (ht : t.lexeme = .operator op) :
    OperandDue nesting (before ++ taken ++ [t]) where
  incomplete := by
    rw [endsOperand_append_singleton, ht]
    nofun
  length_unclosed := by
    rw [unclosed_append_singleton, openBehind_operator ht, h.closes, hdue.length_unclosed]

/-- A single token that is an operand. -/
lemma addsOperand_singleton (hallows : Allows s before t) (hends : t.lexeme.endsOperand = true)
    (hopen : t.lexeme ≠ .rightParen) : AddsOperand s before [t] where
  admits := ⟨hallows, trivial⟩
  ends := endsOperand_append_singleton.mpr hends
  closes := by
    rw [unclosed_append_singleton]
    cases ht : t.lexeme <;> simp_all [openBehind, Lexeme.endsOperand]

/-- An operand in parentheses is an operand where one is due. -/
lemma AddsOperand.group {left right : Token} (hleft : left.lexeme = .leftParen)
    (hright : right.lexeme = .rightParen) (hbefore : ¬ EndsOperand before)
    (hlimit : (unclosed before).length < s.limit) (h : AddsOperand s (before ++ [left]) taken) :
    AddsOperand s before (left :: taken ++ [right]) := by
  have hcloses : unclosed (before ++ [left] ++ taken) = left :: unclosed before := by
    rw [h.closes, unclosed_append_singleton, openBehind_leftParen hleft]
  have hassoc : before ++ (left :: taken ++ [right]) = before ++ [left] ++ taken ++ [right] := by
    simp
  constructor
  · have hfirst : Allows s before left := by simp [Allows, hleft, hbefore, hlimit]
    have hlast : Allows s (before ++ [left] ++ taken) right := by
      simp only [Allows, hright, hcloses]
      exact ⟨h.ends, List.cons_ne_nil _ _⟩
    rw [List.cons_append, Admits, admits_append]
    exact ⟨hfirst, h.admits, hlast, trivial⟩
  · rw [hassoc, endsOperand_append_singleton, hright]
    rfl
  · rw [hassoc, unclosed_append_singleton, hcloses, openBehind, hright]
    rfl

/-- Operands joined by an operator are an operand. -/
lemma AddsOperand.snoc {sign : Token} {op : Op} {next : List Token}
    (hsign : sign.lexeme = .operator op) (h : AddsOperand s before taken)
    (hnext : AddsOperand s (before ++ taken ++ [sign]) next) :
    AddsOperand s before (taken ++ sign :: next) := by
  have hassoc : before ++ (taken ++ sign :: next) = before ++ taken ++ [sign] ++ next := by simp
  constructor
  · rw [admits_append]
    exact ⟨h.admits, by simpa [Allows, hsign] using h.ends, hnext.admits⟩
  · rw [hassoc]
    exact hnext.ends
  · rw [hassoc, hnext.closes, unclosed_append_singleton, h.closes, openBehind_operator hsign]

end Token

open Token

variable {α : Type u} {s : ReadSettings α} {p : Production} {ls : List Lexeme} {e : Expr α}

/-- **A phrase that fits the limit may follow wherever an operand is due**, and is a complete
operand there.

**Proof sketch.** Induction on the derivation. Inside a group one more parenthesis is open, and
behind an operator the operands so far have closed theirs; so an operand is due there with the
nesting that the limit was checked for. -/
theorem Phrase.addsOperand (h : Phrase s.constant? p ls e) {nesting : Nat}
    {before taken : List Token} (htaken : taken.map (·.lexeme) = ls)
    (hdue : OperandDue nesting before) (hfits : nesting + Lexeme.peak ls ≤ s.limit) :
    AddsOperand s before taken := by
  induction h generalizing nesting before taken with
  | number hvalue =>
    obtain ⟨t, rfl, ht⟩ := List.map_eq_singleton_iff.mp htaken
    refine addsOperand_singleton ?_ (by rw [ht]; rfl) (by simp [ht])
    simp [Allows, ht, hdue.incomplete, hvalue]
  | var name =>
    obtain ⟨t, rfl, ht⟩ := List.map_eq_singleton_iff.mp htaken
    refine addsOperand_singleton ?_ (by rw [ht]; rfl) (by simp [ht])
    simp [Allows, ht, hdue.incomplete]
  | group hinner ih =>
    obtain ⟨front, back, rfl, hfront, hback⟩ := List.map_eq_append_iff.mp htaken
    obtain ⟨left, inner, rfl, hleft, hls⟩ := List.map_eq_cons_iff.mp hfront
    obtain ⟨right, rfl, hright⟩ := List.map_eq_singleton_iff.mp hback
    rw [hinner.peak_group] at hfits
    have hlimit : (unclosed before).length < s.limit := by
      rw [hdue.length_unclosed]
      omega
    exact .group hleft hright hdue.incomplete hlimit (ih hls (hdue.leftParen hleft) (by omega))
  | single _ ih => exact ih htaken hdue hfits
  | @snoc op operand ls ms a b hchain hoperand ihc iho =>
    obtain ⟨front, back, rfl, hfront, hback⟩ := List.map_eq_append_iff.mp htaken
    obtain ⟨sign, next, rfl, hsign, hnext⟩ := List.map_eq_cons_iff.mp hback
    rw [hchain.peak_snoc op hoperand] at hfits
    have hadds := ihc hfront hdue (by omega)
    exact hadds.snoc hsign (iho hnext (hadds.operandDue hdue hsign) (by omega))

/-- The tokens of an expression that fits the limit may follow one another, with the end of the
input behind them. -/
lemma Phrase.admits (h : Phrase s.constant? p ls e) (hfits : Lexeme.peak ls ≤ s.limit)
    {tokens : List Token} (htokens : tokens.map (·.lexeme) = ls ++ [.endOfInput]) :
    Admits s [] tokens := by
  obtain ⟨taken, back, rfl, htaken, hback⟩ := List.map_eq_append_iff.mp htokens
  obtain ⟨last, rfl, hlast⟩ := List.map_eq_singleton_iff.mp hback
  have hadds := h.addsOperand htaken operandDue_nil (by rwa [Nat.zero_add])
  have hend : Allows s ([] ++ taken) last := by
    simp only [Allows, hlast]
    exact ⟨hadds.ends, hadds.closes⟩
  exact admits_append.mpr ⟨hadds.admits, hend, trivial⟩

end SumProduct
