import SumProduct.Proofs.Parser.Reading

/-!
# How far reading gets

Reading takes tokens from the front, whether it succeeds or meets a fault. It never takes the end of
the input, and the number of open parentheses that it reports is the number at the start, one more
for each opening parenthesis taken and one less for each closing one. At no point on the way is this
number below the one at the start.

## Main definitions

* `SumProduct.Token.surplus` — the opening parentheses among tokens less the closing ones.
* `SumProduct.Token.Advances` — how tokens and open parentheses may change while tokens are taken.

## Main results

* `SumProduct.Production.advancesFrom_outcome` — reading advances, also up to a fault.
-/

namespace SumProduct

universe u

variable {α : Type u}

/-! ## Counting parentheses -/

/-- By how much a lexeme changes the number of open parentheses. -/
def Lexeme.turn : Lexeme → Int
  | leftParen => 1
  | rightParen => -1
  | _ => 0

namespace Token

/-- The opening parentheses among tokens less the closing ones. -/
def surplus : List Token → Int
  | [] => 0
  | t :: rest => t.lexeme.turn + surplus rest

/-- The surplus of tokens one behind the other. -/
lemma surplus_append (front back : List Token) :
    surplus (front ++ back) = surplus front + surplus back := by
  induction front with
  | nil => exact (Int.zero_add _).symm
  | cons t front ih => rw [List.cons_append, surplus, surplus, ih, Int.add_assoc]

/-- Tokens are taken from the front, but not the end of the input. The number of open parentheses
follows those that are taken, and it is never below the one at the start, however many of the tokens
have been taken. -/
def Advances (tokens rest : List Token) (before after : Nat) : Prop :=
  ∃ taken, tokens = taken ++ rest ∧ (∀ t ∈ taken, t.lexeme ≠ .endOfInput) ∧
    (after : Int) = before + surplus taken ∧ ∀ k, 0 ≤ surplus (taken.take k)

variable {tokens middle rest : List Token} {t : Token} {before between after : Nat}

/-- Nothing may be taken. -/
lemma advances_refl (tokens : List Token) (before : Nat) : Advances tokens tokens before before :=
  ⟨[], rfl, by simp, by simp [surplus], by simp [surplus]⟩

/-- Tokens may be taken in two turns. -/
lemma Advances.trans (h : Advances tokens middle before between)
    (h' : Advances middle rest between after) : Advances tokens rest before after := by
  obtain ⟨taken, rfl, hend, hcount, hnonneg⟩ := h
  obtain ⟨more, rfl, hend', hcount', hnonneg'⟩ := h'
  refine ⟨taken ++ more, (List.append_assoc _ _ _).symm, ?_, ?_, fun k => ?_⟩
  · exact fun t ht => (List.mem_append.mp ht).elim (hend t) (hend' t)
  · rw [surplus_append, hcount', hcount, Int.add_assoc]
  · rw [List.take_append, surplus_append]
    exact Int.add_nonneg (hnonneg k) (hnonneg' _)

/-- A token that is no parenthesis and not the end of the input may be taken. -/
lemma advances_cons (hend : t.lexeme ≠ .endOfInput) (hturn : t.lexeme.turn = 0) :
    Advances (t :: rest) rest before before := by
  refine ⟨[t], rfl, by simpa using hend, by simp [surplus, hturn], fun k => ?_⟩
  cases k <;> simp [surplus, hturn]

/-- An opening parenthesis counts one. -/
lemma advances_leftParen (ht : t.lexeme = .leftParen) :
    Advances (t :: rest) rest before (before + 1) := by
  refine ⟨[t], rfl, by simp [ht], by simp [surplus, ht, Lexeme.turn], fun k => ?_⟩
  cases k <;> simp [surplus, ht, Lexeme.turn]

/-- A group closes what it opens. -/
lemma Advances.group {left right : Token} (hleft : left.lexeme = .leftParen)
    (hright : right.lexeme = .rightParen)
    (h : Advances tokens (right :: rest) (before + 1) (before + 1)) :
    Advances (left :: tokens) rest before before := by
  obtain ⟨taken, rfl, hend, hcount, hnonneg⟩ := h
  have hbalanced : surplus taken = 0 := by omega
  refine ⟨left :: taken ++ [right], by simp, ?_, ?_, fun k => ?_⟩
  · intro t ht
    rcases List.mem_append.mp ht with ht | ht
    · rcases List.mem_cons.mp ht with rfl | ht
      · simp [hleft]
      · exact hend t ht
    · obtain rfl := List.mem_singleton.mp ht
      simp [hright]
  · simp [surplus, surplus_append, hleft, hright, hbalanced, Lexeme.turn]
  · cases k with
    | zero => simp [surplus]
    | succ k =>
      -- The closing parenthesis is at most one of those taken, and the opening one makes up for it.
      have hclose : -1 ≤ surplus ([right].take (k - taken.length)) := by
        cases k - taken.length <;> simp [surplus, hright, Lexeme.turn]
      have hopen := hnonneg k
      rw [List.cons_append, List.take_succ_cons, surplus, List.take_append, surplus_append, hleft,
        Lexeme.turn]
      omega

/-- The end of the input is still there when tokens have been taken. -/
lemma Advances.hasEnd (h : Advances tokens rest before after) (hend : Production.HasEnd tokens) :
    Production.HasEnd rest := by
  obtain ⟨taken, rfl, htaken, -⟩ := h
  obtain ⟨t, ht, hlexeme⟩ := hend
  rcases List.mem_append.mp ht with ht | ht
  · exact absurd hlexeme (htaken t ht)
  · exact ⟨t, ht, hlexeme⟩

/-- Of no tokens none can be taken. -/
lemma Advances.eq_of_nil (h : Advances [] rest before after) : rest = [] ∧ after = before := by
  obtain ⟨taken, htokens, -, hcount, -⟩ := h
  obtain ⟨rfl, rfl⟩ := List.append_eq_nil_iff.mp htokens.symm
  rw [surplus] at hcount
  exact ⟨rfl, by omega⟩

end Token

/-! ## Reading -/

open Token

/-- An outcome is an advance from these tokens and this number of open parentheses, which is also
the number when an expression was read. -/
def Outcome.AdvancesFrom (tokens : List Token) (nesting : Nat) : Outcome α → Prop
  | done _ rest => Advances tokens rest nesting nesting
  | failed _ rest inner => Advances tokens rest nesting inner

namespace Outcome

variable {o : Outcome α} {tokens middle : List Token} {nesting between : Nat}

/-- An advance to an outcome that is a fault, or back at the number of parentheses. -/
lemma AdvancesFrom.of_advances (h : Advances tokens middle nesting nesting)
    (ho : o.AdvancesFrom middle nesting) : o.AdvancesFrom tokens nesting := by
  cases o with
  | done e rest => exact h.trans ho
  | failed fault rest inner => exact h.trans ho

/-- An outcome that is taken further advances if what follows does. -/
lemma AdvancesFrom.andThen {next : Expr α → List Token → Outcome α}
    (h : o.AdvancesFrom tokens nesting)
    (hnext : ∀ e rest, o = .done e rest → (next e rest).AdvancesFrom rest nesting) :
    (o.andThen next).AdvancesFrom tokens nesting := by
  cases o with
  | done e rest => exact .of_advances h (hnext e rest rfl)
  | failed fault rest inner => exact h

/-- A group advances if what is inside its parentheses does. -/
lemma AdvancesFrom.close {left : Token} (hleft : left.lexeme = .leftParen)
    (h : o.AdvancesFrom tokens (nesting + 1)) (start : Nat) :
    (o.close start (nesting + 1)).AdvancesFrom (left :: tokens) nesting := by
  have hopen : Advances (left :: tokens) tokens nesting (nesting + 1) := advances_leftParen hleft
  cases o with
  | failed fault rest inner => exact hopen.trans h
  | done e rest =>
    cases rest with
    | nil => exact hopen.trans h
    | cons t after =>
      rcases t with ⟨l, position⟩
      cases l with
      | rightParen => exact Advances.group hleft rfl h
      | number | var | operator | leftParen | endOfInput => exact hopen.trans h

end Outcome

/-- **Reading advances**, whether it succeeds or meets a fault.

**Proof sketch.** Induction along the reading. Every token that is taken is part of an operand or an
operator between operands; the closing parenthesis of a group is taken behind its opening one. -/
theorem Production.advancesFrom_outcome (s : ReadSettings α) (nesting : Nat) (p : Production)
    (tokens : List Token) : (p.outcome s nesting tokens).AdvancesFrom tokens nesting := by
  refine outcome_induct s
    (fun nesting p tokens => (p.outcome s nesting tokens).AdvancesFrom tokens nesting)
    (fun nesting op operand a tokens =>
      (chainOutcome s nesting op operand a tokens).AdvancesFrom tokens nesting)
    ?factor ?chain ?nil ?operator ?stop nesting p tokens
  case factor =>
    intro nesting tokens ih
    cases tokens with
    | nil =>
      rw [outcome_nil]
      exact advances_refl _ _
    | cons t tail =>
      cases ht : t.lexeme with
      | number numeral =>
        have htaken : Advances (t :: tail) tail nesting nesting :=
          advances_cons (by simp [ht]) (by simp [ht, Lexeme.turn])
        cases hvalue : s.constant? numeral with
        | some value => rwa [outcome_number ht hvalue]
        | none => rwa [outcome_outOfRange ht hvalue]
      | var name =>
        rw [outcome_var ht]
        exact advances_cons (by simp [ht]) (by simp [ht, Lexeme.turn])
      | leftParen =>
        by_cases hlimit : nesting < s.limit
        · by_cases hempty : tail.head?.map (·.lexeme) = some .rightParen
          · rw [outcome_empty ht hlimit hempty]
            exact advances_leftParen ht
          · rw [outcome_group ht hlimit hempty]
            exact (ih t tail rfl ht hlimit hempty).close ht _
        · rw [outcome_tooDeep ht (by omega)]
          exact advances_leftParen ht
      | operator op =>
        rw [outcome_operator ht]
        exact advances_refl _ _
      | rightParen =>
        rw [outcome_rightParen ht]
        exact advances_refl _ _
      | endOfInput =>
        rw [outcome_endOfInput ht]
        exact advances_refl _ _
  case chain =>
    intro nesting op operand tokens ihOperand ihRest
    rw [outcome_chain]
    exact ihOperand.andThen ihRest
  case nil =>
    intro nesting op operand a
    rw [chainOutcome_nil]
    exact advances_refl _ _
  case operator =>
    intro nesting op operand a t tokens ht ihOperand ihRest
    rw [chainOutcome_operator _ _ _ ht]
    have htaken : Advances (t :: tokens) tokens nesting nesting :=
      advances_cons (by simp [ht]) (by simp [ht, Lexeme.turn])
    exact .of_advances htaken (ihOperand.andThen ihRest)
  case stop =>
    intro nesting op operand a t tokens ht
    rw [chainOutcome_stop _ _ _ ht]
    exact advances_refl _ _

end SumProduct
