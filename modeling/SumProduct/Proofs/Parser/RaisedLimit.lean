import Mathlib.Order.Bounds.Basic
import SumProduct.Proofs.Parser.Cursor
import SumProduct.Proofs.Parser.FirstImpossible
import SumProduct.Proofs.Parser.Loosening

/-!
# Raising the nesting limit

The nesting limit is a guard and nothing else. A text that is parsed without reaching the limit is
parsed in the same way under every higher limit, and so is a text with another error. The limit is
reached at the first parenthesis with more parentheses open than it allows, and never if the text
does not open as many.

## Main results

* `SumProduct.Expr.exists_parenthesis_of_parse` — errors of nesting are at the first parenthesis
  with too many open.
* `SumProduct.Expr.parse_raise_limit` — what a higher limit changes.
-/

namespace SumProduct

universe u

variable {α : Type u}

namespace Token

/-! ## How many parentheses are open -/

/-- Only opening parentheses are open, each once. -/
lemma length_unclosed_le_count (tokens : List Token) :
    (unclosed tokens).length ≤ (Lexeme.spell (tokens.map (·.lexeme))).count '(' := by
  induction tokens using List.reverseRecOn with
  | nil => exact Nat.le_refl 0
  | append_singleton tokens t ih =>
    rw [unclosed_append_singleton, openBehind, List.map_append, Lexeme.spell_append,
      List.count_append]
    split
    case h_1 hlexeme =>
      have hone : (Lexeme.spell ([t].map (·.lexeme))).count '(' = 1 := by
        simp [hlexeme, Lexeme.chars]
      rw [List.length_cons, hone]
      exact Nat.succ_le_succ ih
    case h_2 =>
      rw [List.length_tail]
      omega
    case h_3 => exact Nat.le_add_right_of_le ih

/-- The first tokens leave no more parentheses open than all tokens open. -/
lemma length_unclosed_take_le_count (tokens : List Token) (k : Nat) :
    (unclosed (tokens.take k)).length ≤ (Lexeme.spell (tokens.map (·.lexeme))).count '(' := by
  conv_rhs => rw [← List.take_append_drop k tokens, List.map_append, Lexeme.spell_append,
    List.count_append]
  exact Nat.le_add_right_of_le (length_unclosed_le_count _)

/-- Where tokens may follow one another, no more parentheses are open than the limit allows. -/
lemma length_unclosed_take_le {s : ReadSettings α} {tokens : List Token} (h : Admits s [] tokens)
    (k : Nat) : (unclosed (tokens.take k)).length ≤ s.limit := by
  induction k with
  | zero => exact Nat.zero_le _
  | succ k ih =>
    rcases Nat.lt_or_ge k tokens.length with hk | hk
    · have hallows : Allows s (tokens.take k) tokens[k] := by
        rw [← List.take_append_drop k tokens, List.drop_eq_getElem_cons hk] at h
        exact (admits_append.mp h).2.1
      rw [List.take_succ_eq_append_getElem hk, unclosed_append_singleton, openBehind]
      split
      case h_1 hlexeme =>
        rw [Allows, hlexeme] at hallows
        exact hallows.2
      case h_2 =>
        rw [List.length_tail]
        omega
      case h_3 => exact ih
    · rwa [List.take_of_length_le (by omega), ← List.take_of_length_le hk]

/-- Tokens that begin an expression may follow one another. -/
lemma admits_of_begins {s : ReadSettings α} {tokens : List Token}
    (h : Production.Begins s 0 .expression (tokens.map (·.lexeme))) : Admits s [] tokens := by
  obtain ⟨more, e, hphrase, hfits⟩ := h
  -- Only the lexemes count for what may follow, so the tokens behind may stand anywhere.
  have hmap : (tokens ++ more.map (Token.mk · 0)).map (·.lexeme) =
      tokens.map (·.lexeme) ++ more := by
    simp [Function.comp_def]
  exact (admits_append.mp (hphrase.addsOperand hmap operandDue_nil hfits).admits).1

end Token

namespace SyntaxFault

/-- No other fault has the wording for too many levels. -/
lemma exists_tooDeep_of_summary {f : SyntaxFault} {limit : Nat}
    (h : f.summary = (tooDeep limit).summary) : ∃ k, f = .tooDeep k := by
  have hne : f.summary.toList.head? ≠ some 'P' → f.summary ≠ (tooDeep limit).summary :=
    fun hhead heq => summary_tooDeep_ne hhead limit heq.symm
  cases f with
  | tooDeep k => exact ⟨k, rfl⟩
  | _ =>
    refine absurd h (hne ?_)
    unfold summary
    simp

end SyntaxFault

variable {text : String} {limit low high : NestingLimit} {tokens : List Token}

/-- Parsing reports that parentheses are nested too deep only where reading does. -/
lemma tooDeep_of_finish {o : Outcome Binary64} {k position : Nat}
    (h : o.finish = .error (.error ⟨.tooDeep k, position⟩)) : o.TooDeep := by
  cases o with
  | failed fault rest inner =>
    cases h
    trivial
  | done e rest =>
    cases rest with
    | nil => cases h
    | cons t after =>
      rcases t with ⟨l, q⟩
      cases l <;> cases h

/-- Behind parsing, the cursor of a parser is at the tokens that reading leaves. -/
lemma Parser.cursor_parse (hblank : isBlankText text.toList = false)
    (hscan : Token.scan text = .ok tokens) :
    (Parser.new text limit).parse.1.cursor = tokens.length -
      (Production.expression.outcome limit.settings 0 tokens).left.length := by
  rw [parse_fst_of_scan (p := .new text limit) hblank hscan]
  cases houtcome : Production.expression.outcome limit.settings 0 tokens with
  | done e rest =>
    rw [produce_of_done (p := (Parser.new text limit).restart tokens) houtcome]
    rfl
  | failed fault rest inner =>
    rw [produce_of_failed (p := (Parser.new text limit).restart tokens) houtcome]
    rfl

namespace Expr

/-- **Errors of nesting are at the first parenthesis with too many open.** -/
lemma exists_parenthesis_of_parse {k position : Nat}
    (h : Expr.parse text limit = .error (.error ⟨.tooDeep k, position⟩)) :
    isBlankText text.toList = false ∧ k = limit.levels ∧
      ∃ before t after, Token.scan text = .ok (before ++ t :: after) ∧ t.lexeme = .leftParen ∧
        position = t.position ∧
        IsLeast {i | limit.levels < (Token.unclosed ((before ++ t :: after).take (i + 1))).length}
          before.length := by
  have hblank := isBlankText_of_parse h (by simp)
  cases hscan : Token.scan text with
  | error err =>
    rw [parse_of_scan_eq_error hblank hscan] at h
    obtain rfl : err = ⟨.tooDeep k, position⟩ := by simpa using h
    exact absurd (Token.isLexical_of_scanFrom hscan) not_false
  | ok tokens =>
    obtain ⟨err, before, t, after, herr, rfl, hbegins, hmisplaced⟩ :=
      exists_misplaced_of_parse hblank hscan h
    cases herr
    cases hmisplaced with
    | tooDeep ht hlimit =>
      refine ⟨hblank, rfl, before, t, after, rfl, ht, rfl, ?more, ?least⟩
      case more =>
        rw [Set.mem_ofPred_eq, List.take_length_add_append, List.take_succ_cons, List.take_zero,
          Token.unclosed_append_singleton, Token.openBehind_leftParen ht]
        exact Nat.lt_succ_of_le hlimit
      case least =>
        intro j hj
        by_contra hlt
        rw [Set.mem_ofPred_eq, List.take_append_of_le_length (by omega)] at hj
        have hle : (Token.unclosed (before.take (j + 1))).length ≤ limit.levels :=
          Token.length_unclosed_take_le (Token.admits_of_begins hbegins) (j + 1)
        omega

/-- Reading under a limit and under a higher one. -/
lemma loosened_settings (hlimit : low.levels ≤ high.levels) (tokens : List Token) :
    Outcome.Loosened low.levels tokens (Production.expression.outcome low.settings 0 tokens)
      (Production.expression.outcome high.settings 0 tokens) :=
  Production.loosened_outcome low.settings high.settings rfl hlimit 0 _ tokens

/-- Where the lower limit is not what a text is refused for, the higher one gives the same. -/
lemma parse_eq_of_ne_tooDeep (hlimit : low.levels ≤ high.levels)
    (h : ∀ k position, Expr.parse text low ≠ .error (.error ⟨.tooDeep k, position⟩)) :
    Expr.parse text high = Expr.parse text low := by
  cases hblank : isBlankText text.toList with
  | true => rw [parse_of_isBlankText hblank, parse_of_isBlankText hblank]
  | false =>
    cases hscan : Token.scan text with
    | error err => rw [parse_of_scan_eq_error hblank hscan, parse_of_scan_eq_error hblank hscan]
    | ok tokens =>
      rw [parse_of_scan hblank hscan] at h
      rw [parse_of_scan hblank hscan, parse_of_scan hblank hscan]
      rcases (loosened_settings hlimit tokens).cases with ⟨-, heq⟩ | ⟨_, t, _, _, -, -, hlow, -⟩
      · rw [heq]
      · exact absurd (by rw [hlow]; rfl) (h low.levels t.position)

/-- Where the lower limit refuses a parenthesis, the cursor is behind it, and it gets there under
the higher limit as well. -/
lemma cursor_parse_of_tooDeep (hlimit : low.levels ≤ high.levels) {k : Nat}
    {before after : List Token} {t : Token} (hscan : Token.scan text = .ok (before ++ t :: after))
    (hblank : isBlankText text.toList = false)
    (h : Expr.parse text low = .error (.error ⟨.tooDeep k, t.position⟩)) :
    (Parser.new text low).parse.1.cursor = before.length + 1 ∧
      before.length + 1 ≤ (Parser.new text high).parse.1.cursor := by
  rw [parse_of_scan hblank hscan] at h
  rcases (loosened_settings hlimit (before ++ t :: after)).cases with
    ⟨hnot, -⟩ | ⟨taken, u, rest, inner, htokens, -, hlow, hhigh⟩
  · exact absurd (tooDeep_of_finish h) hnot
  · rw [hlow] at h
    have hposition : t.position = u.position := by
      simp only [Outcome.finish, Except.error.injEq, ParserFault.error.injEq,
        SyntaxError.mk.injEq] at h
      exact h.2.symm
    obtain ⟨rfl, rfl, rfl⟩ := (Token.cut_of_scanFrom hscan).eq_of_position_eq htokens hposition
    have hshorter := hhigh.length_le
    rw [Parser.cursor_parse hblank hscan, Parser.cursor_parse hblank hscan, hlow, Outcome.left]
    simp only [List.length_append, List.length_cons]
    omega

/-- **The nesting limit is a sharp guard.** Let `low` be a limit below `high`. If a text is parsed
under `low`, or refused for anything but too many levels, then `high` gives the same expression or
the same error. If it is refused for too many levels, then this is at the first parenthesis behind
which more are open than `low` allows. An error leaves the cursor where it is met: under `low` this
is behind the parenthesis, and under `high` there or later. Under a limit of at least the number of
opening parentheses of the text, this error does not occur.

**Proof sketch.** Reading goes the same way under the two limits until the lower one refuses a
parenthesis (`Production.loosened_outcome`). What is refused is the first impossible token, before
which no more parentheses are open than the limit allows, and no more than the text opens. -/
theorem parse_raise_limit (text : String) (low high : NestingLimit)
    (hlimit : low.levels < high.levels) :
    let refusal (limit : NestingLimit) : String :=
      "Parentheses nested deeper than " ++ naturalText limit.levels ++ " levels"
    ((∀ err, Expr.parse text low = .error (.error err) → err.fault.summary ≠ refusal low) →
      Expr.parse text high = Expr.parse text low) ∧
    (∀ err, Expr.parse text low = .error (.error err) → err.fault.summary = refusal low →
      ∃ before t after, Token.scan text = .ok (before ++ t :: after) ∧
        t.lexeme = .leftParen ∧ err.position = t.position ∧
        IsLeast {k | low.levels < (Token.unclosed ((before ++ t :: after).take (k + 1))).length}
          before.length ∧
        (Parser.new text low).parse.1.cursor = before.length + 1 ∧
        before.length + 1 ≤ (Parser.new text high).parse.1.cursor) ∧
    ∀ limit : NestingLimit, text.toList.count '(' ≤ limit.levels →
      ∀ err, Expr.parse text limit = .error (.error err) → err.fault.summary ≠ refusal limit := by
  intro refusal
  refine ⟨fun hother => ?same, fun err hparse hsummary => ?sharp,
    fun limit hcount err hparse hsummary => ?never⟩
  case same =>
    refine parse_eq_of_ne_tooDeep hlimit.le fun k position hparse => hother _ hparse ?_
    obtain ⟨-, rfl, -⟩ := exists_parenthesis_of_parse hparse
    rfl
  case sharp =>
    obtain ⟨fault, position⟩ := err
    obtain ⟨k, rfl⟩ : ∃ k, fault = .tooDeep k := SyntaxFault.exists_tooDeep_of_summary hsummary
    obtain ⟨hblank, -, before, t, after, hscan, ht, rfl, hleast⟩ :=
      exists_parenthesis_of_parse hparse
    obtain ⟨hlow, hhigh⟩ := cursor_parse_of_tooDeep hlimit.le hscan hblank hparse
    exact ⟨before, t, after, hscan, ht, rfl, hleast, hlow, hhigh⟩
  case never =>
    obtain ⟨fault, position⟩ := err
    obtain ⟨k, rfl⟩ : ∃ k, fault = .tooDeep k := SyntaxFault.exists_tooDeep_of_summary hsummary
    obtain ⟨-, -, before, t, after, hscan, -, -, hdeep, -⟩ := exists_parenthesis_of_parse hparse
    have hopen := Token.length_unclosed_take_le_count (before ++ t :: after) (before.length + 1)
    rw [← (Token.cut_of_scanFrom hscan).count_eq] at hopen
    exact absurd (hdeep.trans_le (hopen.trans hcount)) (Nat.lt_irrefl _)

open Production Token in
/-- The second parenthesis of `((x))` is refused under a limit of one, and nothing is refused for
the limit if it is two; so the standard limit gives the same then. -/
theorem parse_raise_limit_nested :
    let text := "((x))"
    let low : NestingLimit := ⟨1, by decide⟩
    let high : NestingLimit := ⟨2, by decide⟩
    low.levels < high.levels ∧ high.levels < NestingLimit.standard.levels ∧
      Expr.parse text low = .error (.error ⟨.tooDeep 1, 1⟩) ∧
      (∃ before t after, Token.scan text = .ok (before ++ t :: after) ∧ t.position = 1 ∧
        (Parser.new text low).parse.1.cursor = before.length + 1 ∧
        before.length + 1 ≤ (Parser.new text high).parse.1.cursor) ∧
      Expr.parse text .standard = Expr.parse text high := by
  intro text low high
  have hchars : text.toList = ['(', '(', 'x', ')', ')'] := by simp [text]
  have hblank : isBlankText text.toList = false := by rw [hchars]; rfl
  have hcut : Cut 0 ['(', '(', 'x', ')', ')'] [⟨.leftParen, 0⟩, ⟨.leftParen, 1⟩,
      ⟨.var ⟨"x", by decide⟩, 2⟩, ⟨.rightParen, 3⟩, ⟨.rightParen, 4⟩, ⟨.endOfInput, 5⟩] :=
    .symbol rfl (.symbol rfl (.lexeme (l := .var ⟨"x", by decide⟩) nofun (fun _ => rfl)
      (.symbol rfl (.symbol rfl (.done 5)))))
  have hscan := hcut.scanFrom_eq
  rw [← hchars] at hscan
  have hinner (rest : List Token) : factor.outcome low.settings 1 (⟨.leftParen, 1⟩ :: rest) =
      .failed (.error ⟨.tooDeep 1, 1⟩) rest 2 :=
    outcome_tooDeep rfl (by decide) rest
  have hparse : Expr.parse text low = .error (.error ⟨.tooDeep 1, 1⟩) := by
    rw [parse_of_scan hblank hscan, expression, outcome_chain, term, outcome_chain,
      outcome_group rfl (by decide) (by simp), expression, outcome_chain, term, outcome_chain,
      hinner]
    rfl
  have hlow : low.levels < high.levels := by decide
  have hhigh : high.levels < NestingLimit.standard.levels := by decide
  obtain ⟨before, t, after, hscan', -, hposition, -, hcursor, hcursor'⟩ :=
    (parse_raise_limit text low high hlow).2.1 _ hparse rfl
  have hnever := (parse_raise_limit text low high hlow).2.2 high (by rw [hchars]; decide)
  exact ⟨hlow, hhigh, hparse, ⟨before, t, after, hscan', hposition.symm, hcursor, hcursor'⟩,
    (parse_raise_limit text high .standard hhigh).1 hnever⟩

end Expr

end SumProduct
