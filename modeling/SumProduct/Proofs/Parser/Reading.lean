import SumProduct.Proofs.Parser.Outcome

/-!
# What is read

Reading a production takes one phrase of it from the tokens and stops before a token that cannot
continue it. While the end of the input is among the tokens, reading never runs out of them.

## Main definitions

* `SumProduct.Production.Taken` — a phrase that fits the limit, in front of the tokens left.
* `SumProduct.Production.HasEnd` — tokens with the end of the input among them.

## Main results

* `SumProduct.Production.exists_taken_of_outcome` — what is read is a phrase that fits the limit.
* `SumProduct.Production.not_outOfTokens` — the end of the input is never passed.
-/

namespace SumProduct

universe u

variable {α : Type u}

namespace Production

variable {s : ReadSettings α} {nesting : Nat}

/-! ## Phrases that are taken -/

/-- A phrase with its expression that fits the limit where `nesting` parentheses are open, in front
of tokens that do not continue it. -/
structure Taken (s : ReadSettings α) (nesting : Nat) (p : Production) (ls : List Lexeme)
    (e : Expr α) (rest : List Token) : Prop where
  /-- The lexemes are a phrase. -/
  phrase : Phrase s.constant? p ls e
  /-- No more parentheses are open at once than the limit allows. -/
  fits : nesting ≤ s.limit → nesting + Lexeme.peak ls ≤ s.limit
  /-- The phrase ends before the tokens that are left. -/
  stops : p.StopsAt rest

/-- A single lexeme that is a factor and no parenthesis is taken. -/
lemma taken_leaf {l : Lexeme} {e : Expr α} (hphrase : Phrase s.constant? factor [l] e)
    (hopen : l ≠ .leftParen) (hclose : l ≠ .rightParen) (rest : List Token) :
    Taken s nesting factor [l] e rest where
  phrase := hphrase
  fits hnesting := by rwa [Lexeme.peak_singleton hopen hclose]
  stops := by simp [StopsAt, operators]

/-- What is in parentheses is taken with them. -/
lemma Taken.group {ls : List Lexeme} {e : Expr α} {after : List Token}
    (h : Taken s (nesting + 1) expression ls e after) (hlimit : nesting < s.limit)
    (rest : List Token) :
    Taken s nesting factor (.leftParen :: ls ++ [.rightParen]) e rest where
  phrase := .group h.phrase
  fits _ := by
    have hfits := h.fits hlimit
    rw [h.phrase.peak_group]
    omega
  stops := by simp [StopsAt, operators]

/-- **What is read is a phrase.** The tokens that a production takes are a phrase of it that fits
the limit, and the tokens left do not continue it.

**Proof sketch.** Induction along the reading. For the rest of a chain the operands so far are a
phrase already, in front of tokens that do not continue an operand; each further operand makes it
one longer. -/
theorem exists_taken_of_outcome (s : ReadSettings α) (nesting : Nat) (p : Production)
    (tokens : List Token) {e : Expr α} {rest : List Token}
    (h : p.outcome s nesting tokens = .done e rest) :
    ∃ taken, tokens = taken ++ rest ∧ Taken s nesting p (taken.map (·.lexeme)) e rest := by
  revert e rest
  refine outcome_induct s
    (fun nesting p tokens => ∀ {e rest}, p.outcome s nesting tokens = .done e rest →
      ∃ taken, tokens = taken ++ rest ∧ Taken s nesting p (taken.map (·.lexeme)) e rest)
    (fun nesting op operand a tokens => operand.StopsAt tokens →
      ∀ ls, Phrase s.constant? (chain op operand) ls a →
      (nesting ≤ s.limit → nesting + Lexeme.peak ls ≤ s.limit) →
      ∀ {e rest}, chainOutcome s nesting op operand a tokens = .done e rest →
      ∃ taken, tokens = taken ++ rest ∧
        Taken s nesting (chain op operand) (ls ++ taken.map (·.lexeme)) e rest)
    ?factor ?chain ?nil ?operator ?stop nesting p tokens
  case factor =>
    intro nesting tokens ih e rest h
    obtain ⟨t, tail, rfl, hleaf | hleaf | hgroup⟩ := factor_eq_done h
    · obtain ⟨numeral, value, ht, hvalue, rfl, rfl⟩ := hleaf
      exact ⟨[t], rfl, by simpa [ht] using taken_leaf (.number hvalue) (by simp) (by simp) _⟩
    · obtain ⟨name, ht, rfl, rfl⟩ := hleaf
      exact ⟨[t], rfl, by simpa [ht] using taken_leaf (.var name) (by simp) (by simp) _⟩
    · obtain ⟨ht, hlimit, hempty, close, hclose, hinner⟩ := hgroup
      obtain ⟨inner, rfl, htaken⟩ := ih t tail rfl ht hlimit hempty hinner
      exact ⟨t :: inner ++ [close], by simp, by simpa [ht, hclose] using htaken.group hlimit rest⟩
  case chain =>
    intro nesting op operand tokens ihOperand ihRest e rest h
    rw [outcome_chain] at h
    obtain ⟨a, after, hoperand, hrest⟩ := andThen_eq_done h
    obtain ⟨first, rfl, hfirst⟩ := ihOperand hoperand
    obtain ⟨more, rfl, hmore⟩ :=
      ihRest a after hoperand hfirst.stops _ (.single hfirst.phrase) hfirst.fits hrest
    exact ⟨first ++ more, (List.append_assoc _ _ _).symm, by rwa [List.map_append]⟩
  case nil =>
    intro nesting op operand a _ ls _ _ e rest h
    rw [chainOutcome_nil] at h
    cases h
  case operator =>
    intro nesting op operand a t tokens ht ihOperand ihRest _ ls hls hfits e rest h
    rw [chainOutcome_operator _ _ _ ht] at h
    obtain ⟨b, after, hoperand, hrest⟩ := andThen_eq_done h
    obtain ⟨next, rfl, hnext⟩ := ihOperand hoperand
    have hlonger : nesting ≤ s.limit →
        nesting + Lexeme.peak (ls ++ .operator op :: next.map (·.lexeme)) ≤ s.limit := by
      intro hnesting
      have hleft := hfits hnesting
      have hright := hnext.fits hnesting
      rw [hls.peak_snoc op hnext.phrase]
      omega
    obtain ⟨more, rfl, hmore⟩ :=
      ihRest b after hoperand hnext.stops _ (.snoc hls hnext.phrase) hlonger hrest
    exact ⟨t :: next ++ more, by simp, by simpa [ht] using hmore⟩
  case stop =>
    intro nesting op operand a t tokens ht hstops ls hls hfits e rest h
    rw [chainOutcome_stop _ _ _ ht] at h
    cases h
    refine ⟨[], rfl, by simpa using hls, by simpa using hfits, stopsAt_cons.mpr ?_⟩
    simpa [operators, ht] using stopsAt_cons.mp hstops

/-! ## The end of the input -/

/-- The tokens contain the end of the input. -/
def HasEnd (tokens : List Token) : Prop := ∃ t ∈ tokens, t.lexeme = .endOfInput

/-- A token that is not the end of the input has the end behind it. -/
lemma HasEnd.of_cons {t : Token} {tokens : List Token} (h : HasEnd (t :: tokens))
    (ht : t.lexeme ≠ .endOfInput) : HasEnd tokens := by
  obtain ⟨t', ht', hlexeme⟩ := h
  rcases List.mem_cons.mp ht' with rfl | ht'
  · exact absurd hlexeme ht
  · exact ⟨t', ht', hlexeme⟩

/-- What is taken is never the end of the input. -/
lemma Taken.hasEnd {taken rest : List Token} {p : Production} {e : Expr α}
    (h : Taken s nesting p (taken.map (·.lexeme)) e rest) (hend : HasEnd (taken ++ rest)) :
    HasEnd rest := by
  obtain ⟨t, ht, hlexeme⟩ := hend
  rcases List.mem_append.mp ht with ht | ht
  · exact absurd (hlexeme ▸ List.mem_map_of_mem ht) h.phrase.endOfInput_notMem
  · exact ⟨t, ht, hlexeme⟩

/-- The end of the input is still there when an operand has been read. -/
lemma hasEnd_of_outcome {p : Production} {tokens rest : List Token} {e : Expr α}
    (h : p.outcome s nesting tokens = .done e rest) (hend : HasEnd tokens) : HasEnd rest := by
  obtain ⟨taken, rfl, htaken⟩ := exists_taken_of_outcome s nesting p tokens h
  exact htaken.hasEnd hend

/-- An outcome of running out of tokens. -/
def OutOfTokens (o : Outcome α) : Prop := ∃ rest nesting, o = .failed .noTokens rest nesting

/-- Tokens run out in an outcome that is taken further only before it or behind it. -/
lemma not_outOfTokens_andThen {o : Outcome α} {next : Expr α → List Token → Outcome α}
    (h : ¬ OutOfTokens o) (hnext : ∀ e rest, o = .done e rest → ¬ OutOfTokens (next e rest)) :
    ¬ OutOfTokens (o.andThen next) := by
  cases o with
  | done e rest => exact hnext e rest rfl
  | failed fault rest inner => exact h

/-- Tokens do not run out at the end of a group. -/
lemma not_outOfTokens_close {o : Outcome α} {start inner : Nat} (h : ¬ OutOfTokens o)
    (hend : ∀ e rest, o = .done e rest → HasEnd rest) : ¬ OutOfTokens (o.close start inner) := by
  refine not_outOfTokens_andThen h fun e rest hdone => ?_
  obtain ⟨t, ht, -⟩ := hend e rest hdone
  cases rest with
  | nil => cases ht
  | cons t after =>
    rcases t with ⟨l, position⟩
    rintro ⟨rest', inner', h⟩
    cases l <;> cases h

/-- **Reading never passes the end of the input.**

**Proof sketch.** Induction along the reading. What has been read of the tokens is a phrase, and so
does not contain their end; hence the end is still there whenever a token is looked at. -/
theorem not_outOfTokens (s : ReadSettings α) (nesting : Nat) (p : Production)
    (tokens : List Token) (hend : HasEnd tokens) : ¬ OutOfTokens (p.outcome s nesting tokens) := by
  revert hend
  refine outcome_induct s
    (fun nesting p tokens => HasEnd tokens →
      ¬ OutOfTokens (p.outcome s nesting tokens))
    (fun nesting op operand a tokens => HasEnd tokens →
      ¬ OutOfTokens (chainOutcome s nesting op operand a tokens))
    ?factor ?chain ?nil ?operator ?stop nesting p tokens
  case factor =>
    rintro nesting tokens ih hend ⟨rest, inner, h⟩
    cases tokens with
    | nil => exact absurd hend (by simp [HasEnd])
    | cons t tail =>
      cases ht : t.lexeme with
      | number numeral =>
        cases hvalue : s.constant? numeral with
        | some value =>
          rw [outcome_number ht hvalue] at h
          cases h
        | none =>
          rw [outcome_outOfRange ht hvalue] at h
          cases h
      | leftParen =>
        have htail := hend.of_cons (by simp [ht])
        by_cases hlimit : nesting < s.limit
        · by_cases hempty : tail.head?.map (·.lexeme) = some .rightParen
          · rw [outcome_empty ht hlimit hempty] at h
            cases h
          · rw [outcome_group ht hlimit hempty] at h
            exact not_outOfTokens_close (ih t tail rfl ht hlimit hempty htail)
              (fun e after hdone => hasEnd_of_outcome hdone htail) ⟨rest, inner, h⟩
        · rw [outcome_tooDeep ht (by omega)] at h
          cases h
      | var name =>
        rw [outcome_var ht] at h
        cases h
      | operator op =>
        rw [outcome_operator ht] at h
        cases h
      | rightParen =>
        rw [outcome_rightParen ht] at h
        cases h
      | endOfInput =>
        rw [outcome_endOfInput ht] at h
        cases h
  case chain =>
    intro nesting op operand tokens ihOperand ihRest hend
    rw [outcome_chain]
    exact not_outOfTokens_andThen (ihOperand hend) fun e after h =>
      ihRest e after h (hasEnd_of_outcome h hend)
  case nil =>
    rintro nesting op operand a ⟨t, ht, -⟩
    cases ht
  case operator =>
    intro nesting op operand a t tokens ht ihOperand ihRest hend
    have htail := hend.of_cons (by simp [ht])
    rw [chainOutcome_operator _ _ _ ht]
    exact not_outOfTokens_andThen (ihOperand htail) fun f after h =>
      ihRest f after h (hasEnd_of_outcome h htail)
  case stop =>
    rintro nesting op operand a t tokens ht - ⟨rest, inner, h⟩
    rw [chainOutcome_stop _ _ _ ht] at h
    cases h

end Production

end SumProduct
