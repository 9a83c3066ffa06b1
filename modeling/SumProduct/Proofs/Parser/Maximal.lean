import SumProduct.Proofs.Parser.Continuation
import SumProduct.Proofs.Parser.History

/-!
# Productions take maximal phrases

A production takes one phrase from the tokens at the cursor, wherever the cursor is and however many
parentheses are counted as open there. The phrase is as long as it can be: one that is longer would
have to go on with an operator of the production, and there is none behind what was taken.

## Main definitions

* `SumProduct.Lexeme.surplus` — the opening parentheses among lexemes less the closing ones.
* `SumProduct.Parser.Takes` — how a parser takes tokens for a production.

## Main results

* `SumProduct.Phrase.mem_operators` — outside parentheses a phrase has operators of its production
  only.
* `SumProduct.Phrase.continues` — a phrase becomes a longer one through an operator only.
* `SumProduct.Parser.produce_takes_maximal_phrase` — what a parser takes for a production.
-/

namespace SumProduct

universe u

/-! ## Operators outside parentheses -/

/-- The opening parentheses among lexemes less the closing ones. -/
def Lexeme.surplus : List Lexeme → Int
  | [] => 0
  | l :: rest => l.turn + surplus rest

/-- The surplus of lexemes one behind the other. -/
lemma Lexeme.surplus_append (front back : List Lexeme) :
    surplus (front ++ back) = surplus front + surplus back := by
  induction front with
  | nil => exact (Int.zero_add _).symm
  | cons l front ih => rw [List.cons_append, surplus, surplus, ih, Int.add_assoc]

namespace Phrase

variable {α β : Type u} {constant? : Numeral → Option α} {p : Production} {ls : List Lexeme}
  {e : Expr α}

/-- A phrase closes as many parentheses as it opens. -/
lemma surplus_eq_zero (h : Phrase constant? p ls e) : Lexeme.surplus ls = 0 := by
  induction h with
  | number | var => rfl
  | group _ ih => simp [Lexeme.surplus, Lexeme.surplus_append, Lexeme.turn, ih]
  | single _ ih => exact ih
  | snoc _ _ ihc iho => simp [Lexeme.surplus, Lexeme.surplus_append, Lexeme.turn, ihc, iho]

/-- A phrase closes no parenthesis before it opens it.

**Proof sketch.** Induction on the derivation. The lexemes at the front of a chain are at the front
of the operands so far; or those are all there, which counts nothing, and the others are an operator
and the front of the last operand. -/
lemma surplus_nonneg (h : Phrase constant? p ls e) {front : List Lexeme} (hfront : front <+: ls) :
    0 ≤ Lexeme.surplus front := by
  induction h generalizing front with
  | number | var =>
    rcases List.prefix_cons_iff.mp hfront with rfl | ⟨more, rfl, hmore⟩
    · exact le_rfl
    · rw [List.prefix_nil.mp hmore]
      exact le_rfl
  | group hinner ih =>
    rcases List.prefix_cons_iff.mp hfront with rfl | ⟨more, rfl, hmore⟩
    · exact le_rfl
    · rcases List.prefix_concat_iff.mp hmore with rfl | hmore
      · exact (hinner.group).surplus_eq_zero.ge
      · exact Int.add_nonneg Int.one_nonneg (ih hmore)
  | single _ ih => exact ih hfront
  | snoc hchain _ ihc iho =>
    obtain ⟨back, hback⟩ := hfront
    rcases List.append_eq_append_iff.mp hback with ⟨next, hls, -⟩ | ⟨next, rfl, hnext⟩
    · exact ihc ⟨next, hls.symm⟩
    · rw [Lexeme.surplus_append, hchain.surplus_eq_zero, Int.zero_add]
      rcases List.prefix_cons_iff.mp ⟨back, hnext.symm⟩ with rfl | ⟨more, rfl, hmore⟩
      · exact le_rfl
      · exact Int.add_nonneg le_rfl (iho hmore)

/-- **Outside parentheses a phrase has operators of its production only.**

**Proof sketch.** Induction on the derivation. Inside a group the parenthesis that opens it is not
closed yet. In a chain the operator is one of the operands so far, the one of the chain, or one of
the last operand. -/
lemma mem_operators (h : Phrase constant? p ls e) {front : List Lexeme} {op : Op}
    (hfront : front ++ [.operator op] <+: ls) (hclosed : Lexeme.surplus front = 0) :
    op ∈ p.operators := by
  induction h generalizing front with
  | number | var =>
    rcases front with _ | ⟨l, front⟩ <;> simp at hfront
  | @group inner a hinner ih =>
    rcases front with _ | ⟨l, front⟩
    · simp at hfront
    · obtain ⟨rfl, hinside⟩ := List.cons_prefix_cons.mp hfront
      have hopen : (0 : Int) ≤ Lexeme.surplus front := by
        rcases List.prefix_concat_iff.mp hinside with heq | hprefix
        · simp at heq
        · exact hinner.surplus_nonneg ((List.prefix_append _ _).trans hprefix)
      rw [Lexeme.surplus, Lexeme.turn] at hclosed
      omega
  | single _ ih => exact List.mem_cons_of_mem _ (ih hfront hclosed)
  | @snoc op' operand ls ms a b hchain _ ihc iho =>
    rcases List.prefix_or_prefix_of_prefix hfront (List.prefix_append _ _) with hearlier | hlater
    · exact ihc hearlier hclosed
    · rcases List.prefix_concat_iff.mp hlater with rfl | ⟨next, rfl⟩
      · exact ihc (List.prefix_refl _) hclosed
      · rw [List.append_assoc, List.prefix_append_right_inj] at hfront
        rw [Lexeme.surplus_append, hchain.surplus_eq_zero, Int.zero_add] at hclosed
        cases next with
        | nil =>
          obtain rfl : op = op' := by simpa using hfront
          exact List.mem_cons_self
        | cons l next =>
          obtain ⟨rfl, hnext⟩ := List.cons_prefix_cons.mp hfront
          have hclosed' : Lexeme.surplus next = 0 := by
            simpa [Lexeme.surplus, Lexeme.turn] using hclosed
          exact List.mem_cons_of_mem _ (iho hnext hclosed')

/-- **A phrase becomes a longer one through an operator only**, whatever constants its numerals
stand for in the one and in the other.

**Proof sketch.** Behind a phrase no parenthesis is open, so what may follow its last operand there
is an operator or the end of the input; the end of the input is in no phrase. -/
lemma continues {constant'? : Numeral → Option β} {p' : Production} {f : Expr β}
    {taken more : List Token} {t : Token} (h : Phrase constant? p (taken.map (·.lexeme)) e)
    (hlonger : Phrase constant'? p' ((taken ++ t :: more).map (·.lexeme)) f) :
    ∃ op ∈ p'.operators, t.lexeme = .operator op := by
  let s : ReadSettings α := ⟨Lexeme.peak (taken.map (·.lexeme)), constant?⟩
  let s' : ReadSettings β := ⟨Lexeme.peak ((taken ++ t :: more).map (·.lexeme)), constant'?⟩
  have hadds : Token.AddsOperand s [] taken :=
    h.addsOperand rfl Token.operandDue_nil (Nat.zero_add _).le
  have hadds' : Token.AddsOperand s' [] (taken ++ t :: more) :=
    hlonger.addsOperand rfl Token.operandDue_nil (Nat.zero_add _).le
  obtain ⟨-, hallows, -⟩ := Token.admits_append.mp hadds'.admits
  have hends : Token.EndsOperand taken := hadds.ends
  have hclosed : Token.unclosed taken = [] := hadds.closes
  rw [List.nil_append, Token.Allows] at hallows
  cases ht : t.lexeme with
  | operator op =>
    refine ⟨op, hlonger.mem_operators ?_ h.surplus_eq_zero, rfl⟩
    rw [List.map_append, List.map_cons, ht, List.prefix_append_right_inj]
    exact List.prefix_append [_] _
  | endOfInput =>
    have hmem : Lexeme.endOfInput ∈ (taken ++ t :: more).map (·.lexeme) := by simp [ht]
    exact absurd hmem hlonger.endOfInput_notMem
  | number n => simp [ht, hends] at hallows
  | var name => simp [ht, hends] at hallows
  | leftParen => simp [ht, hends] at hallows
  | rightParen => simp [ht, hclosed] at hallows

end Phrase

/-! ## What a parser takes -/

/-- Without tokens a production runs out of them at once. -/
lemma Production.outcome_eq_of_nil {α : Type u} (s : ReadSettings α) (nesting : Nat)
    (p : Production) : p.outcome s nesting [] = .failed .noTokens [] nesting := by
  induction p with
  | factor => exact outcome_nil
  | chain op operand ih =>
    rw [outcome_chain, ih]
    rfl

namespace Parser

variable {p q : Parser} {production : Production}

/-- A parser takes tokens for a production with this expression, and is then this other one. -/
structure Takes (p : Parser) (production : Production) (taken : List Token) (e : Expr Binary64)
    (q : Parser) : Prop where
  /-- The tokens are those that are next. -/
  remaining_eq : p.remaining = taken ++ q.remaining
  /-- There is at least one of them. -/
  ne_nil : taken ≠ []
  /-- The cursor is moved behind them, and nothing else is changed. In particular the number of open
  parentheses is the one at the start. -/
  eq_moved : q = { p with cursor := p.cursor + taken.length }
  /-- They are a phrase of the production with the expression. -/
  phrase : Phrase Numeral.finiteValue? production (taken.map (·.lexeme)) e
  /-- The token behind them is no operator of the production. -/
  stops : production.StopsAt q.remaining
  /-- No more of the tokens are a phrase of the production, whatever constants their numerals stand
  for. -/
  maximal : ∀ longer, longer <+: p.remaining → taken.length < longer.length →
    ∀ (constant? : Numeral → Option Binary64) (f : Expr Binary64),
      ¬ Phrase constant? production (longer.map (·.lexeme)) f

/-- The cursor moves by as many tokens as are taken, if there is any token to take. -/
lemma Reaches.cursor_eq (h : p.Reaches q) {taken : List Token}
    (htaken : p.remaining = taken ++ q.remaining) (hne : p.remaining ≠ []) :
    q.cursor = p.cursor + taken.length := by
  have hpos := List.length_pos_of_ne_nil hne
  have hlength := congrArg List.length htaken
  have hcursor := h.cursor_le
  rw [h.tokens_eq] at hcursor
  simp only [remaining, h.tokens_eq, List.length_append, List.length_drop] at hpos hlength
  omega

/-- A parser that reads an expression takes a maximal phrase for it.

**Proof sketch.** A longer phrase would go on with an operator of the production, but the tokens
left do not begin with one. -/
lemma exists_takes_of_ok {e : Expr Binary64} (h : p.produce production = (q, .ok e)) :
    ∃ taken, p.Takes production taken e q := by
  have hreaches := reaches_produce p production
  cases houtcome : production.outcome p.limit.settings p.nesting p.remaining with
  | failed fault rest inner =>
    rw [produce_of_failed houtcome] at h
    cases h
  | done a rest =>
    rw [produce_of_done houtcome] at h hreaches
    cases h
    obtain ⟨taken, htaken, hphrase, -, hstops⟩ :=
      Production.exists_taken_of_outcome _ _ _ _ houtcome
    have hrest : (p.leaving rest).remaining = rest := remaining_leaving htaken
    have hne : taken ≠ [] := by
      obtain ⟨l, ls, hlexemes, -⟩ := hphrase.exists_cons
      rintro rfl
      cases hlexemes
    have hcursor : (p.leaving rest).cursor = p.cursor + taken.length :=
      hreaches.cursor_eq (by rw [hrest, htaken]) (by simp [htaken, hne])
    refine ⟨taken, by rw [hrest, htaken], hne, ?_, ?_, by rwa [hrest], ?_⟩
    · rw [← hcursor]
      rfl
    · rwa [p.limit.constant?_settings] at hphrase
    · intro longer hlonger hlength constant? f hf
      rw [htaken] at hlonger
      obtain ⟨more, rfl⟩ :=
        List.prefix_of_prefix_length_le (List.prefix_append _ _) hlonger hlength.le
      cases more with
      | nil => simp at hlength
      | cons t more =>
        obtain ⟨op, hop, ht⟩ := hphrase.continues hf
        obtain ⟨after, rfl⟩ := (List.prefix_append_right_inj taken).mp hlonger
        exact Production.stopsAt_cons.mp hstops op hop ht

/-- A parser that reports a syntax error has neither put tokens back nor closed parentheses that it
did not open.

**Proof sketch.** There was a token to look at, as otherwise the parser would have run out of them;
so the cursor has moved by the tokens that were taken. -/
lemma le_of_error {err : SyntaxError} (h : p.produce production = (q, .error (.error err))) :
    q.tokens = p.tokens ∧ p.cursor ≤ q.cursor ∧ p.nesting ≤ q.nesting := by
  have hreaches : p.Reaches q := by simpa [h] using reaches_produce p production
  have hne : p.remaining ≠ [] := by
    intro hnil
    have houtcome := production.outcome_eq_of_nil p.limit.settings p.nesting
    rw [← hnil] at houtcome
    rw [produce_of_failed houtcome] at h
    cases h
  obtain ⟨taken, htaken, -, hcount, hnonneg⟩ := hreaches.advances
  have hcursor := hreaches.cursor_eq htaken hne
  have hopened : 0 ≤ Token.surplus taken := by simpa using hnonneg taken.length
  exact ⟨hreaches.tokens_eq, by omega, by omega⟩

/-- **Every production takes one maximal phrase and restores the number of open parentheses**, or
leaves the parser where it failed. This holds of each production, also of chains that the grammar
does not use, wherever the cursor is and however many parentheses are counted as open before.

An expression is read from the next tokens, at least one of them. They are a phrase of the
production with this expression, and no longer phrase of it is next. With a syntax error the cursor
is not moved back and the number of open parentheses is not lower than before. As every operand
takes a token, reading ends whatever the tokens are: in one of these ways, or because it runs out of
tokens, which does not happen with the end of the input ahead.

**Proof sketch.** What is read is a phrase in front of tokens that do not continue it
(`Production.exists_taken_of_outcome`), but a longer phrase would continue it
(`Phrase.continues`). Up to a fault the cursor and the parentheses advance as well
(`Production.advancesFrom_outcome`). -/
theorem produce_takes_maximal_phrase (p : Parser) (production : Production) :
    match p.produce production with
    | (q, .ok e) => ∃ taken, p.Takes production taken e q
    | (q, .error (.error _)) =>
      q.tokens = p.tokens ∧ p.cursor ≤ q.cursor ∧ p.nesting ≤ q.nesting
    | (_, .error .noTokens) => ¬ Production.HasEnd p.remaining := by
  rcases h : p.produce production with ⟨q, answer⟩
  cases answer with
  | ok e => exact exists_takes_of_ok h
  | error fault =>
    cases fault with
    | error err => exact le_of_error h
    | noTokens => exact fun hend => produce_ne_noTokens hend production (by rw [h])

end Parser

end SumProduct
