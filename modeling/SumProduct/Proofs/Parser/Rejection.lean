import SumProduct.Proofs.Parser.Continuation
import SumProduct.Proofs.Parser.Reading

/-!
# What reading rejects

A fault of reading is about a token that may not follow those before it. The tokens before it have
been read, and they begin a phrase that fits the limit. So reading goes on as long as what it has
seen can be completed, and not one token further.

## Main definitions

* `SumProduct.Token.Misplaced` — the error for a token that may not follow others.
* `SumProduct.Production.Begins` — lexemes that begin a phrase that fits the limit.

## Main results

* `SumProduct.Token.Misplaced.not_allows` — a misplaced token may not follow.
* `SumProduct.Production.exists_misplaced_of_failed` — a fault is about the first token that may not
  follow.
-/

namespace SumProduct

universe u

variable {α : Type u}

/-- The lexemes that an operand begins with. -/
def Lexeme.beginsOperand : Lexeme → Bool
  | number _ => true
  | var _ => true
  | leftParen => true
  | operator _ => false
  | rightParen => false
  | endOfInput => false

/-- Neither a closing parenthesis nor the end of the input begins an operand. -/
lemma Lexeme.ne_of_beginsOperand {l : Lexeme} (h : l.beginsOperand = true) :
    l ≠ .rightParen ∧ l ≠ .endOfInput := by
  cases l <;> simp_all [beginsOperand]

namespace Token

/-- The error for a token that may not follow others. -/
inductive Misplaced (s : ReadSettings α) (before : List Token) (t : Token) : SyntaxError → Prop
  /-- The input ends where an operand is due. -/
  | unexpectedEnd (ht : t.lexeme = .endOfInput) (hbefore : ¬ EndsOperand before) :
      Misplaced s before t ⟨.unexpectedEnd, t.position⟩
  /-- The input ends while parentheses are open. The error is at the innermost of them. -/
  | missingClose {start : Token} (ht : t.lexeme = .endOfInput) (hbefore : EndsOperand before)
      (hstart : (unclosed before).head? = some start) :
      Misplaced s before t ⟨.missingClose, start.position⟩
  /-- A parenthesis is closed where it was opened. The error is at the opening one. -/
  | emptyParentheses {start : Token} (ht : t.lexeme = .rightParen)
      (hstart : before.getLast? = some start) (hopen : start.lexeme = .leftParen) :
      Misplaced s before t ⟨.emptyParentheses, start.position⟩
  /-- A parenthesis is closed where an operand is due. -/
  | closeForOperand (ht : t.lexeme = .rightParen) (hbefore : ¬ EndsOperand before)
      (hlast : ∀ start ∈ before.getLast?, start.lexeme ≠ .leftParen) :
      Misplaced s before t ⟨.unexpectedClose, t.position⟩
  /-- A parenthesis is closed while none is open. -/
  | closeForNothing (ht : t.lexeme = .rightParen) (hbefore : EndsOperand before)
      (hopen : unclosed before = []) : Misplaced s before t ⟨.unexpectedClose, t.position⟩
  /-- An operator stands where an operand is due. -/
  | operandExpected {op : Op} (ht : t.lexeme = .operator op) (hbefore : ¬ EndsOperand before) :
      Misplaced s before t ⟨.operandExpected t.text, t.position⟩
  /-- A numeral is out of range. -/
  | outOfRange {numeral : Numeral} (ht : t.lexeme = .number numeral)
      (hvalue : s.constant? numeral = none) : Misplaced s before t ⟨.outOfRange t.text, t.position⟩
  /-- A parenthesis is opened while as many are open as the limit allows. -/
  | tooDeep (ht : t.lexeme = .leftParen) (hlimit : s.limit ≤ (unclosed before).length) :
      Misplaced s before t ⟨.tooDeep s.limit, t.position⟩
  /-- An operand begins behind an operand while parentheses are open. -/
  | closeExpected (ht : t.lexeme.beginsOperand = true) (hbefore : EndsOperand before)
      (hopen : unclosed before ≠ []) :
      Misplaced s before t ⟨.kindExpected .rightParen t.text, t.position⟩
  /-- An operand begins behind an operand while no parenthesis is open. -/
  | trailingInput (ht : t.lexeme.beginsOperand = true) (hbefore : EndsOperand before)
      (hopen : unclosed before = []) : Misplaced s before t ⟨.trailingInput t.text, t.position⟩

variable {s : ReadSettings α} {before : List Token} {t : Token} {err : SyntaxError}

/-- An opening parenthesis is not the end of an operand. -/
lemma not_endsOperand_of_getLast? {start : Token} (hstart : before.getLast? = some start)
    (hopen : start.lexeme = .leftParen) : ¬ EndsOperand before := by
  simp [EndsOperand, hstart, hopen, Lexeme.endsOperand]

/-- Only an operand begins with these lexemes: they may not follow an operand. -/
lemma not_allows_of_beginsOperand (ht : t.lexeme.beginsOperand = true)
    (hbefore : EndsOperand before) : ¬ Allows s before t := by
  cases hlexeme : t.lexeme <;> simp_all [Allows, Lexeme.beginsOperand]

/-- **A misplaced token may not follow** the tokens before it. -/
lemma Misplaced.not_allows (h : Misplaced s before t err) : ¬ Allows s before t := by
  cases h with
  | unexpectedEnd ht hbefore => simp [Allows, ht, hbefore]
  | missingClose ht hbefore hstart =>
    obtain ⟨rest, hopen⟩ := List.head?_eq_some_iff.mp hstart
    simp [Allows, ht, hopen]
  | emptyParentheses ht hstart hopen =>
    simp [Allows, ht, not_endsOperand_of_getLast? hstart hopen]
  | closeForOperand ht hbefore hlast => simp [Allows, ht, hbefore]
  | closeForNothing ht hbefore hopen => simp [Allows, ht, hopen]
  | operandExpected ht hbefore => simpa [Allows, ht] using hbefore
  | outOfRange ht hvalue => simp [Allows, ht, hvalue]
  | tooDeep ht hlimit => simp [Allows, ht, hlimit]
  | closeExpected ht hbefore hopen => exact not_allows_of_beginsOperand ht hbefore
  | trailingInput ht hbefore hopen => exact not_allows_of_beginsOperand ht hbefore

end Token

namespace Production

open Token

variable {s : ReadSettings α} {nesting : Nat} {p operand : Production} {ls ms : List Lexeme}
  {e : Expr α} {op : Op}

/-! ## The beginning of a phrase -/

/-- Lexemes begin a phrase of a production that fits the limit where this many parentheses are
open. -/
def Begins (s : ReadSettings α) (nesting : Nat) (p : Production) (ls : List Lexeme) : Prop :=
  ∃ more e, Phrase s.constant? p (ls ++ more) e ∧ nesting + Lexeme.peak (ls ++ more) ≤ s.limit

/-- A variable is a phrase of every production. -/
lemma phrase_var {constant? : Numeral → Option α} (p : Production) (name : Name) :
    Phrase constant? p [.var name] (.var name) := by
  induction p with
  | factor => exact .var name
  | chain op operand ih => exact .single ih

/-- A phrase that fits the limit is its own beginning. -/
lemma begins_of_phrase (h : Phrase s.constant? p ls e)
    (hfits : nesting + Lexeme.peak ls ≤ s.limit) : Begins s nesting p ls :=
  ⟨[], e, by rwa [List.append_nil], by rwa [List.append_nil]⟩

/-- Nothing begins a phrase, as an operand can follow. -/
lemma begins_nil (hlimit : nesting ≤ s.limit) : Begins s nesting p [] := by
  have hpeak (name : Name) : Lexeme.peak [.var name] = 0 :=
    Lexeme.peak_singleton (by simp) (by simp)
  obtain ⟨name⟩ : Nonempty Name := ⟨⟨"x", by decide⟩⟩
  exact ⟨[.var name], .var name, phrase_var p name, by rwa [List.nil_append, hpeak]⟩

/-- A parenthesis and the beginning of an expression begin a factor. -/
lemma Begins.group (h : Begins s (nesting + 1) expression ls) :
    Begins s nesting factor (.leftParen :: ls) := by
  obtain ⟨more, e, hphrase, hfits⟩ := h
  refine ⟨more ++ [.rightParen], e, ?_, ?_⟩
  · simpa using Phrase.group hphrase
  · have hpeak := hphrase.peak_group
    simp only [List.cons_append, List.append_assoc] at hpeak ⊢
    omega

/-- The beginning of an operand begins a chain. -/
lemma Begins.single (h : Begins s nesting operand ls) : Begins s nesting (chain op operand) ls := by
  obtain ⟨more, e, hphrase, hfits⟩ := h
  exact ⟨more, e, .single hphrase, hfits⟩

/-- A chain that goes on with the beginning of an operand begins a longer chain. -/
lemma Begins.snoc (hchain : Phrase s.constant? (chain op operand) ls e)
    (hfits : nesting + Lexeme.peak ls ≤ s.limit) (h : Begins s nesting operand ms) :
    Begins s nesting (chain op operand) (ls ++ .operator op :: ms) := by
  obtain ⟨more, f, hoperand, hmore⟩ := h
  refine ⟨more, .binary op e f, ?_, ?_⟩
  · simpa using Phrase.snoc hchain hoperand
  · have hpeak := hchain.peak_snoc op hoperand
    rw [List.append_assoc, List.cons_append, hpeak]
    omega

/-! ## Outcomes that are faults -/

/-- An outcome that is taken further is a fault if it was one, or if what follows is one. -/
lemma andThen_eq_failed {o : Outcome α} {next : Expr α → List Token → Outcome α}
    {fault : ParserFault} {rest : List Token} {inner : Nat}
    (h : o.andThen next = .failed fault rest inner) :
    o = .failed fault rest inner ∨
      ∃ e tokens, o = .done e tokens ∧ next e tokens = .failed fault rest inner := by
  cases o with
  | done e tokens => exact .inr ⟨e, tokens, rfl, h⟩
  | failed fault' tokens inner' => exact .inl h

/-- A group is a fault if its inner part is one, or if the token behind that is no closing
parenthesis. -/
lemma close_eq_failed {o : Outcome α} {start inner : Nat} {err : SyntaxError} {rest : List Token}
    {nesting : Nat} (h : o.close start inner = .failed (.error err) rest nesting) :
    o = .failed (.error err) rest nesting ∨ ∃ e t after, o = .done e (t :: after) ∧
      ((t.lexeme = .endOfInput ∧ err = ⟨.missingClose, start⟩) ∨
        (t.lexeme ≠ .endOfInput ∧ t.lexeme ≠ .rightParen ∧
          err = ⟨.kindExpected .rightParen t.text, t.position⟩)) := by
  rcases andThen_eq_failed h with hfailed | ⟨e, tokens, rfl, hnext⟩
  · exact .inl hfailed
  · cases tokens with
    | nil => cases hnext
    | cons t after =>
      refine .inr ⟨e, t, after, rfl, ?_⟩
      rcases t with ⟨l, position⟩
      cases l <;> cases hnext <;> simp

/-- A token behind an expression that does not end a group or the input begins an operand. -/
lemma beginsOperand_of_stopsAt {t : Token} {rest : List Token}
    (hstops : expression.StopsAt (t :: rest)) (hend : t.lexeme ≠ .endOfInput)
    (hclose : t.lexeme ≠ .rightParen) : t.lexeme.beginsOperand = true := by
  cases hlexeme : t.lexeme with
  | number | var | leftParen => rfl
  | operator op => exact absurd hlexeme (stopsAt_cons.mp hstops op (by cases op <;> decide))
  | rightParen => exact absurd hlexeme hclose
  | endOfInput => exact absurd hlexeme hend

/-! ## Rejected tokens -/

/-- A token is rejected behind tokens that begin a phrase: it may not follow them. -/
structure RejectedAt (s : ReadSettings α) (nesting : Nat) (p : Production)
    (before taken : List Token) (t : Token) (err : SyntaxError) : Prop where
  /-- The tokens that were taken begin a phrase. -/
  begins : Begins s nesting p (taken.map (·.lexeme))
  /-- The token may not follow. -/
  misplaced : t.Misplaced s (before ++ taken) err

/-- Among tokens there is one that is rejected. -/
def Rejects (s : ReadSettings α) (nesting : Nat) (p : Production) (before tokens : List Token)
    (err : SyntaxError) : Prop :=
  ∃ taken t after, tokens = taken ++ t :: after ∧ RejectedAt s nesting p before taken t err

variable {before tokens : List Token} {t : Token} {err : SyntaxError}

/-- The first token is rejected if it may not follow. -/
lemma rejects_head (hlimit : nesting ≤ s.limit) (h : t.Misplaced s before err)
    {after : List Token} : Rejects s nesting p before (t :: after) err :=
  ⟨[], t, after, rfl, begins_nil hlimit, by rwa [List.append_nil]⟩

/-- What is rejected in the first operand is rejected in the chain. -/
lemma Rejects.single (h : Rejects s nesting operand before tokens err) :
    Rejects s nesting (chain op operand) before tokens err := by
  obtain ⟨taken, t, after, htokens, hrejected⟩ := h
  exact ⟨taken, t, after, htokens, hrejected.begins.single, hrejected.misplaced⟩

/-- What is rejected inside parentheses is rejected in the factor. -/
lemma Rejects.group {left : Token} (hleft : left.lexeme = .leftParen)
    (h : Rejects s (nesting + 1) expression (before ++ [left]) tokens err) :
    Rejects s nesting factor before (left :: tokens) err := by
  obtain ⟨taken, t, after, rfl, hrejected⟩ := h
  refine ⟨left :: taken, t, after, rfl, ?_, ?_⟩
  · rw [List.map_cons, hleft]
    exact hrejected.begins.group
  · rw [List.append_cons]
    exact hrejected.misplaced

/-- What is rejected in an operand behind others is rejected in the chain. -/
lemma Rejects.snoc {front : List Token} {sign : Token} (hsign : sign.lexeme = .operator op)
    (hchain : Phrase s.constant? (chain op operand) (front.map (·.lexeme)) e)
    (hfits : nesting + Lexeme.peak (front.map (·.lexeme)) ≤ s.limit)
    (h : Rejects s nesting operand (before ++ front ++ [sign]) tokens err) :
    Rejects s nesting (chain op operand) before (front ++ sign :: tokens) err := by
  obtain ⟨taken, t, after, rfl, hrejected⟩ := h
  refine ⟨front ++ sign :: taken, t, after, by simp, ?_, ?_⟩
  · rw [List.map_append, List.map_cons, hsign]
    exact hrejected.begins.snoc hchain hfits
  · simpa using hrejected.misplaced

/-- Behind the inner expression of a group, any token but an operator and a closing parenthesis is
rejected. -/
lemma rejects_unclosed {left : Token} {inner after : List Token} (hdue : OperandDue nesting before)
    (hleft : left.lexeme = .leftParen) (hopen : nesting < s.limit)
    (hinner : Taken s (nesting + 1) expression (inner.map (·.lexeme)) e (t :: after))
    (herr : (t.lexeme = .endOfInput ∧ err = ⟨.missingClose, left.position⟩) ∨
      (t.lexeme ≠ .endOfInput ∧ t.lexeme ≠ .rightParen ∧
        err = ⟨.kindExpected .rightParen t.text, t.position⟩)) :
    Rejects s nesting factor before (left :: (inner ++ t :: after)) err := by
  have hfits := hinner.fits hopen
  have hadds := hinner.phrase.addsOperand rfl (hdue.leftParen hleft) hfits
  have hunclosed : unclosed (before ++ [left] ++ inner) = left :: unclosed before := by
    rw [hadds.closes, unclosed_append_singleton, openBehind_leftParen hleft]
  have hmisplaced : t.Misplaced s (before ++ [left] ++ inner) err := by
    rcases herr with ⟨hend, rfl⟩ | ⟨hend, hclose, rfl⟩
    · exact .missingClose hend hadds.ends (by rw [hunclosed, List.head?_cons])
    · have hbegins := beginsOperand_of_stopsAt hinner.stops hend hclose
      exact .closeExpected hbegins hadds.ends (hunclosed ▸ List.cons_ne_nil _ _)
  exact .group hleft ⟨inner, t, after, rfl, begins_of_phrase hinner.phrase hfits, hmisplaced⟩

/-- No parenthesis at the end of the first tokens is closed by the others at once. -/
def Apart (before tokens : List Token) : Prop :=
  ∀ start ∈ before.getLast?, start.lexeme = .leftParen →
    tokens.head?.map (·.lexeme) ≠ some .rightParen

/-- What a factor rejects, if what it rejects inside parentheses is known.

**Proof sketch.** A token that is no operand is rejected itself, and so is a numeral out of range
and a parenthesis beyond the limit. Behind an opening parenthesis the token is rejected that closes
it at once, that is rejected inside the group, or that stands behind the inner expression and closes
nothing. -/
lemma rejects_factor (hdue : OperandDue nesting before) (hlimit : nesting ≤ s.limit)
    (hapart : Apart before tokens)
    (ih : ∀ left inner, tokens = left :: inner → left.lexeme = .leftParen → nesting < s.limit →
      inner.head?.map (·.lexeme) ≠ some .rightParen → ∀ {err rest deepest},
      expression.outcome s (nesting + 1) inner = .failed (.error err) rest deepest →
      Rejects s (nesting + 1) expression (before ++ [left]) inner err)
    {rest : List Token} {deepest : Nat}
    (h : factor.outcome s nesting tokens = .failed (.error err) rest deepest) :
    Rejects s nesting factor before tokens err := by
  cases tokens with
  | nil =>
    rw [outcome_nil] at h
    cases h
  | cons t tail =>
    cases ht : t.lexeme with
    | number numeral =>
      cases hvalue : s.constant? numeral with
      | some value =>
        rw [outcome_number ht hvalue] at h
        cases h
      | none =>
        rw [outcome_outOfRange ht hvalue] at h
        cases h
        exact rejects_head hlimit (.outOfRange ht hvalue)
    | var name =>
      rw [outcome_var ht] at h
      cases h
    | leftParen =>
      by_cases hopen : nesting < s.limit
      · by_cases hempty : tail.head?.map (·.lexeme) = some .rightParen
        · rw [outcome_empty ht hopen hempty] at h
          cases h
          obtain ⟨close, hhead, hclose⟩ := Option.map_eq_some_iff.mp hempty
          obtain ⟨after, rfl⟩ := List.head?_eq_some_iff.mp hhead
          exact (rejects_head hopen (.emptyParentheses hclose (by simp) ht)).group ht
        · rw [outcome_group ht hopen hempty] at h
          rcases close_eq_failed h with hfailed | ⟨e, u, after, hinner, hlast⟩
          · exact (ih t tail rfl ht hopen hempty hfailed).group ht
          · obtain ⟨taken, rfl, htaken⟩ := exists_taken_of_outcome _ _ _ _ hinner
            exact rejects_unclosed hdue ht hopen htaken hlast
      · rw [outcome_tooDeep ht (by omega)] at h
        cases h
        have hfull : s.limit ≤ (unclosed before).length := by
          rw [hdue.length_unclosed]
          omega
        exact rejects_head hlimit (.tooDeep ht hfull)
    | operator op =>
      rw [outcome_operator ht] at h
      cases h
      exact rejects_head hlimit (.operandExpected ht hdue.incomplete)
    | rightParen =>
      rw [outcome_rightParen ht] at h
      cases h
      have hlast : ∀ start ∈ before.getLast?, start.lexeme ≠ .leftParen :=
        fun start hstart hopen => hapart start hstart hopen (by simp [ht])
      exact rejects_head hlimit (.closeForOperand ht hdue.incomplete hlast)
    | endOfInput =>
      rw [outcome_endOfInput ht] at h
      cases h
      exact rejects_head hlimit (.unexpectedEnd ht hdue.incomplete)

/-- **A fault is about the first token that may not follow.** Where an operand is due, a fault of
reading is the error for a token that is misplaced behind those that were taken, and these begin a
phrase.

**Proof sketch.** Induction along the reading. The operands of a chain so far are a phrase already,
so that an operand is due behind the next operator. -/
theorem rejects_of_failed (s : ReadSettings α) (nesting : Nat) (p : Production)
    (tokens : List Token) (hlimit : nesting ≤ s.limit) (before : List Token)
    (hdue : OperandDue nesting before) (hapart : Apart before tokens) {err : SyntaxError}
    {rest : List Token} {deepest : Nat}
    (h : p.outcome s nesting tokens = .failed (.error err) rest deepest) :
    Rejects s nesting p before tokens err := by
  revert hlimit before err rest deepest
  refine outcome_induct s
    (fun nesting p tokens => nesting ≤ s.limit → ∀ before, OperandDue nesting before →
      Apart before tokens → ∀ {err rest deepest},
      p.outcome s nesting tokens = .failed (.error err) rest deepest →
      Rejects s nesting p before tokens err)
    (fun nesting op operand a tokens => nesting ≤ s.limit → ∀ before,
      OperandDue nesting before → ∀ front : List Token,
      Phrase s.constant? (chain op operand) (front.map (·.lexeme)) a →
      nesting + Lexeme.peak (front.map (·.lexeme)) ≤ s.limit → ∀ {err rest deepest},
      chainOutcome s nesting op operand a tokens = .failed (.error err) rest deepest →
      Rejects s nesting (chain op operand) before (front ++ tokens) err)
    ?factor ?chain ?nil ?operator ?stop nesting p tokens
  case factor =>
    intro nesting tokens ih hlimit before hdue hapart err rest deepest h
    refine rejects_factor hdue hlimit hapart ?_ h
    intro left inner htokens hleft hopen hempty err rest deepest hinner
    refine ih left inner htokens hleft hopen hempty hopen _ (hdue.leftParen hleft) ?_ hinner
    exact fun _ _ _ => hempty
  case chain =>
    intro nesting op operand tokens ihOperand ihRest hlimit before hdue hapart err rest deepest h
    rw [outcome_chain] at h
    rcases andThen_eq_failed h with hfailed | ⟨a, after, hoperand, hrest⟩
    · exact (ihOperand hlimit before hdue hapart hfailed).single
    · obtain ⟨first, rfl, hfirst⟩ := exists_taken_of_outcome _ _ _ _ hoperand
      exact ihRest a after hoperand hlimit before hdue first (.single hfirst.phrase)
        (hfirst.fits hlimit) hrest
  case nil =>
    intro nesting op operand a _ before _ front _ _ err rest deepest h
    rw [chainOutcome_nil] at h
    cases h
  case operator =>
    intro nesting op operand a sign tokens hsign ihOperand ihRest hlimit before hdue front hphrase
      hfits err rest deepest h
    rw [chainOutcome_operator _ _ _ hsign] at h
    rcases andThen_eq_failed h with hfailed | ⟨b, after, hoperand, hrest⟩
    · have hdueNext := (hphrase.addsOperand rfl hdue hfits).operandDue hdue hsign
      have hrejects := ihOperand hlimit _ hdueNext (by simp [Apart, hsign]) hfailed
      exact hrejects.snoc hsign hphrase hfits
    · obtain ⟨next, rfl, hnext⟩ := exists_taken_of_outcome _ _ _ _ hoperand
      have hmap : (front ++ sign :: next).map (·.lexeme) =
          front.map (·.lexeme) ++ .operator op :: next.map (·.lexeme) := by
        simp [hsign]
      have hlonger := hphrase.snoc hnext.phrase
      have hpeak := hphrase.peak_snoc op hnext.phrase
      have hfitsNext := hnext.fits hlimit
      rw [← hmap] at hlonger hpeak
      have hrejects := ihRest b after hoperand hlimit before hdue _ hlonger (by omega) hrest
      rwa [List.append_assoc, List.cons_append] at hrejects
  case stop =>
    intro nesting op operand a t tokens ht _ before _ front _ _ err rest deepest h
    rw [chainOutcome_stop _ _ _ ht] at h
    cases h

end Production

end SumProduct
