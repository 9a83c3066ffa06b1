import SumProduct.Proofs.Parser.Outcome

/-!
# Every phrase is read

A phrase of a production that fits the nesting limit is read up to its end, and one that does not
fit is refused for the limit and for nothing else. With the converse, that only phrases are read,
this makes reading decide the grammar.

## Main definitions

* `SumProduct.Production.Decided` — tokens are read if they fit the limit and refused if not.

## Main results

* `SumProduct.Production.decided_of_phrase` — phrases are decided.
-/

namespace SumProduct

universe u

variable {α : Type u}

namespace Production

variable {s : ReadSettings α} {nesting : Nat}

/-- What is left to do for a production when an expression has been read: a chain may go on. -/
def resume (s : ReadSettings α) (nesting : Nat) (p : Production) (e : Expr α)
    (rest : List Token) : Outcome α :=
  match p with
  | factor => .done e rest
  | chain op operand => chainOutcome s nesting op operand e rest

/-- An outcome that refuses a parenthesis for the limit. -/
def Refused (s : ReadSettings α) (o : Outcome α) : Prop :=
  ∃ position rest nesting, o = .failed (.error ⟨.tooDeep s.limit, position⟩) rest nesting

/-- What becomes of tokens that derive an expression and nest parentheses to a depth: they are read
up to their end, where a chain may go on, if they fit the limit, and refused if they do not. -/
structure Decided (s : ReadSettings α) (nesting : Nat) (p : Production) (taken : List Token)
    (depth : Nat) (e : Expr α) (rest : List Token) : Prop where
  /-- Tokens that fit the limit are read. -/
  read : nesting + depth ≤ s.limit →
    p.outcome s nesting (taken ++ rest) = resume s nesting p e rest
  /-- Tokens that do not fit it are refused. -/
  refused : nesting ≤ s.limit → s.limit < nesting + depth →
    Refused s (p.outcome s nesting (taken ++ rest))

/-- Nothing is left to do in front of a token that does not continue the production. -/
lemma resume_eq_done {p : Production} {t : Token} {rest : List Token} (h : p.StopsAt (t :: rest))
    (e : Expr α) : resume s nesting p e (t :: rest) = .done e (t :: rest) := by
  cases p with
  | factor => rfl
  | chain op operand => exact chainOutcome_stop _ _ _ (h t rfl op List.mem_cons_self) _

/-- A refusal is not taken further. -/
lemma Refused.andThen {o : Outcome α} (h : Refused s o)
    (next : Expr α → List Token → Outcome α) : Refused s (o.andThen next) := by
  obtain ⟨position, rest, inner, rfl⟩ := h
  exact ⟨position, rest, inner, rfl⟩

/-- A factor that is one token is read. -/
lemma decided_leaf {t : Token} {rest : List Token} {e : Expr α}
    (h : factor.outcome s nesting (t :: rest) = .done e rest) :
    Decided s nesting factor [t] 0 e rest where
  read _ := h
  refused hnesting hlimit := by omega

/-- A group is read or refused with what is inside it. -/
lemma Decided.group {left right : Token} {inner rest : List Token} {depth : Nat} {e : Expr α}
    (hleft : left.lexeme = .leftParen) (hright : right.lexeme = .rightParen)
    (hinner : (inner ++ right :: rest).head?.map (·.lexeme) ≠ some .rightParen)
    (h : Decided s (nesting + 1) expression inner depth e (right :: rest)) :
    Decided s nesting factor (left :: inner ++ [right]) (depth + 1) e rest := by
  have hstop : expression.StopsAt (right :: rest) := stopsAt_cons.mpr (by simp [hright])
  have htokens : left :: inner ++ [right] ++ rest = left :: (inner ++ right :: rest) := by simp
  constructor
  · intro hfits
    rw [htokens, outcome_group hleft (by omega) hinner, h.read (by omega), resume_eq_done hstop]
    simp [Outcome.close, Outcome.andThen, hright, resume]
  · intro hnesting hlimit
    rw [htokens]
    by_cases hopen : nesting < s.limit
    · rw [outcome_group hleft hopen hinner]
      exact (h.refused hopen (by omega)).andThen _
    · rw [outcome_tooDeep hleft (by omega)]
      exact ⟨_, _, _, rfl⟩

/-- One operand is read or refused as a chain. -/
lemma Decided.single {op : Op} {operand : Production} {taken rest : List Token} {t : Token}
    {depth : Nat} {e : Expr α} (h : Decided s nesting operand taken depth e (t :: rest))
    (hstop : operand.StopsAt (t :: rest)) :
    Decided s nesting (chain op operand) taken depth e (t :: rest) := by
  constructor
  · intro hfits
    rw [outcome_chain, h.read hfits, resume_eq_done hstop]
    rfl
  · intro hnesting hlimit
    rw [outcome_chain]
    exact (h.refused hnesting hlimit).andThen _

/-- A chain with one more operand is read if both parts are, and refused if one of them is. -/
lemma Decided.snoc {op : Op} {operand : Production} {front back rest : List Token}
    {sign t : Token} {m n : Nat} {a b : Expr α} (hsign : sign.lexeme = .operator op)
    (hchain : Decided s nesting (chain op operand) front m a (sign :: (back ++ t :: rest)))
    (hoperand : Decided s nesting operand back n b (t :: rest))
    (hstop : operand.StopsAt (t :: rest)) :
    Decided s nesting (chain op operand) (front ++ sign :: back) (max m n) (.binary op a b)
      (t :: rest) := by
  have htokens : front ++ sign :: back ++ t :: rest = front ++ sign :: (back ++ t :: rest) := by
    simp
  have hfront (hfits : nesting + m ≤ s.limit) :
      (chain op operand).outcome s nesting (front ++ sign :: (back ++ t :: rest)) =
        (operand.outcome s nesting (back ++ t :: rest)).andThen fun next =>
          chainOutcome s nesting op operand (.binary op a next) := by
    rw [hchain.read hfits, resume, chainOutcome_operator _ _ _ hsign]
  constructor
  · intro hfits
    rw [htokens, hfront (by omega), hoperand.read (by omega), resume_eq_done hstop]
    rfl
  · intro hnesting hlimit
    rw [htokens]
    by_cases hfits : nesting + m ≤ s.limit
    · rw [hfront hfits]
      exact (hoperand.refused hnesting (by omega)).andThen _
    · exact hchain.refused hnesting (by omega)

/-- **Every phrase that fits the limit is read, and every other one is refused for the limit.** This
holds of productions whose operators are different from each other, in front of a token that does
not continue their operands.

**Proof sketch.** Induction on the phrase. A chain that is one operand longer is read up to its last
operator by the first hypothesis; the operator is none of the operand, so the last operand is read
in full by the second. A refusal is met in the first part that does not fit, and is not taken
further. -/
theorem decided_of_phrase {p : Production} {ls : List Lexeme} {e : Expr α}
    (h : Phrase s.constant? p ls e) (hp : p.operators.Nodup) {taken : List Token}
    (htaken : taken.map (·.lexeme) = ls) {t : Token} {rest : List Token}
    (ht : ∀ op ∈ p.operators.tail, t.lexeme ≠ .operator op) :
    Decided s nesting p taken (Lexeme.peak ls) e (t :: rest) := by
  induction h generalizing nesting taken t rest with
  | @number numeral value hvalue =>
    obtain ⟨t', rfl, ht'⟩ := List.map_eq_singleton_iff.mp htaken
    rw [Lexeme.peak_singleton (by simp) (by simp)]
    exact decided_leaf (outcome_number ht' hvalue _)
  | var name =>
    obtain ⟨t', rfl, ht'⟩ := List.map_eq_singleton_iff.mp htaken
    rw [Lexeme.peak_singleton (by simp) (by simp)]
    exact decided_leaf (outcome_var ht' _)
  | @group ls e hinner ih =>
    obtain ⟨front, back, rfl, hfront, hback⟩ := List.map_eq_append_iff.mp htaken
    obtain ⟨left, inner, rfl, hleft, hls⟩ := List.map_eq_cons_iff.mp hfront
    obtain ⟨right, rfl, hright⟩ := List.map_eq_singleton_iff.mp hback
    have hfirst : (inner ++ right :: t :: rest).head?.map (·.lexeme) ≠ some .rightParen := by
      obtain ⟨l, ls', rfl, hl, -⟩ := hinner.exists_cons
      obtain ⟨first, inner', rfl, rfl, -⟩ := List.map_eq_cons_iff.mp hls
      simpa using hl
    rw [hinner.peak_group]
    exact .group hleft hright hfirst (ih (by decide) hls (by simp [hright]))
  | @single op operand ls e hoperand ih =>
    have hstop : operand.StopsAt (t :: rest) := stopsAt_cons.mpr ht
    exact (ih hp.of_cons htaken fun op' hop' => ht op' (List.mem_of_mem_tail hop')).single hstop
  | @snoc op operand ls ms a b hchain hoperand ihc iho =>
    obtain ⟨front, back, rfl, hfront, hback⟩ := List.map_eq_append_iff.mp htaken
    obtain ⟨sign, back', rfl, hsign, hback'⟩ := List.map_eq_cons_iff.mp hback
    have hstop : operand.StopsAt (t :: rest) := stopsAt_cons.mpr ht
    -- The operator is none of the operand, so the operands before it end there.
    have hsigns : ∀ op' ∈ operand.operators, sign.lexeme ≠ .operator op' := by
      intro op' hop' heq
      obtain rfl : op = op' := by simpa [hsign] using heq
      exact (List.nodup_cons.mp hp).1 hop'
    rw [hchain.peak_snoc op hoperand]
    exact .snoc hsign (ihc hp hfront hsigns)
      (iho hp.of_cons hback' fun op' hop' => ht op' (List.mem_of_mem_tail hop')) hstop

end Production

end SumProduct
