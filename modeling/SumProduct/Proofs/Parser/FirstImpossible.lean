import Mathlib.Order.Bounds.Basic
import SumProduct.Proofs.Parser.Acceptance
import SumProduct.Proofs.Parser.Rejection
import SumProduct.Proofs.Token.Piece
import SumProduct.Proofs.Token.Spelling

/-!
# The first impossible token

The tokens of a text can be those of an accepted text up to some point. A text that is refused has a
first token with which no accepted text goes on, where the end of the input counts as a token.
Syntax errors are about that token. They point at it, with two exceptions, which point at an opening
parenthesis: a pair of parentheses with nothing between them, and a parenthesis that is not closed.

## Main definitions

* `SumProduct.BeginsAccepted` — lexemes that the tokens of an accepted text begin with.
* `SumProduct.Token.PointsAt` — where the error for an impossible token points.

## Main results

* `SumProduct.Token.Misplaced.not_beginsAccepted` — no accepted text goes on with a misplaced token.
* `SumProduct.Expr.parse_error_first_impossible` — syntax errors are about the first impossible
  token.
-/

namespace SumProduct

universe u

/-! ## Beginnings of accepted texts -/

/-- Lexemes are the first ones of some text that is accepted. -/
def BeginsAccepted (limit : NestingLimit) (front : List Lexeme) : Prop :=
  ∃ text tokens e, Token.scan text = .ok tokens ∧ Expr.parse text limit = .ok e ∧
    front <+: tokens.map (·.lexeme)

/-- A phrase is written by some text. -/
lemma Phrase.exists_spells {α : Type u} {constant? : Numeral → Option α} {p : Production}
    {ls : List Lexeme} {e : Expr α} (h : Phrase constant? p ls e) :
    ∃ text, Token.Spells text ls := by
  induction h with
  | number | var => exact ⟨_, Token.spells_chars (by simp)⟩
  | group _ ih =>
    obtain ⟨text, htext⟩ := ih
    exact ⟨_, htext.group⟩
  | single _ ih => exact ih
  | @snoc op _ _ _ _ _ _ _ ihc iho =>
    obtain ⟨left, hleft⟩ := ihc
    obtain ⟨right, hright⟩ := iho
    exact ⟨_, hleft.join op hright⟩

variable {limit : NestingLimit} {front : List Lexeme}

/-- Accepted texts begin as the phrases do that fit the limit, with the end of the input behind
them. -/
lemma beginsAccepted_iff : BeginsAccepted limit front ↔
    ∃ ls e, Phrase Numeral.finiteValue? .expression ls e ∧ Lexeme.peak ls ≤ limit.levels ∧
      front <+: ls ++ [.endOfInput] := by
  constructor
  · rintro ⟨text, tokens, e, hscan, hparse, hfront⟩
    obtain ⟨tokens', ls, hscan', hlexemes, hphrase, hfinite, hfits⟩ := accepted_of_parse hparse
    obtain rfl := Except.ok.inj (hscan.symm.trans hscan')
    rw [peak_eq_of_scan hscan hlexemes] at hfits
    exact ⟨ls, e, phrase_finiteValue?_iff.mpr ⟨hphrase, hfinite⟩, hfits, hlexemes ▸ hfront⟩
  · rintro ⟨ls, e, hphrase, hfits, hfront⟩
    obtain ⟨chars, hspells⟩ := hphrase.exists_spells
    rw [← String.toList_ofList (l := chars)] at hspells
    obtain ⟨tokens, hscan, hlexemes⟩ := hspells.exists_scan
    rw [← peak_eq_of_scan hscan hlexemes] at hfits
    exact ⟨_, tokens, e, hscan, Expr.parse_eq_ok hscan hlexemes hphrase hfits, hlexemes ▸ hfront⟩

/-- What begins a beginning begins an accepted text. -/
lemma BeginsAccepted.shorten {shorter : List Lexeme} (h : BeginsAccepted limit front)
    (hshorter : shorter <+: front) : BeginsAccepted limit shorter := by
  obtain ⟨text, tokens, e, hscan, hparse, hfront⟩ := h
  exact ⟨text, tokens, e, hscan, hparse, hshorter.trans hfront⟩

/-- The beginning of a phrase begins an accepted text. -/
lemma beginsAccepted_of_begins (h : Production.Begins limit.settings 0 .expression front) :
    BeginsAccepted limit front := by
  obtain ⟨more, e, hphrase, hfits⟩ := h
  rw [limit.constant?_settings] at hphrase
  rw [Nat.zero_add] at hfits
  exact beginsAccepted_iff.mpr ⟨_, e, hphrase, hfits, by simp⟩

/-! ## Where errors point -/

namespace SyntaxFault

/-- The wording for too many levels begins with a `P`. -/
lemma summary_tooDeep_ne {wording : String} (h : wording.toList.head? ≠ some 'P') (limit : Nat) :
    (tooDeep limit).summary ≠ wording := by
  rintro rfl
  unfold summary at h
  simp at h

/-- No other fault has the wording of an empty pair of parentheses or of a missing one. -/
lemma summary_eq_iff {f g : SyntaxFault} (hg : g = .emptyParentheses ∨ g = .missingClose) :
    f.summary = g.summary ↔ f = g := by
  have hhead : g.summary.toList.head? ≠ some 'P' := by
    rcases hg with rfl | rfl <;> unfold summary <;> simp
  cases f with
  | tooDeep limit =>
    have hne : SyntaxFault.tooDeep limit ≠ g := by rcases hg with rfl | rfl <;> simp
    simp only [summary_tooDeep_ne hhead, hne]
  | kindExpected kind | kindExpectedAtEnd kind =>
    rcases hg with rfl | rfl <;> unfold summary <;> cases kind <;> simp [TokenKind.name]
  | _ => rcases hg with rfl | rfl <;> unfold summary <;> simp

end SyntaxFault

namespace Token

variable {s : ReadSettings Binary64} {before : List Token} {t : Token} {err : SyntaxError}

/-- **No accepted text goes on with a misplaced token**, as the tokens of an accepted text may
follow one another. -/
theorem Misplaced.not_beginsAccepted (h : t.Misplaced limit.settings before err) :
    ¬ BeginsAccepted limit ((before ++ [t]).map (·.lexeme)) := by
  intro hbegins
  obtain ⟨ls, e, hphrase, hfits, more, hmore⟩ := beginsAccepted_iff.mp hbegins
  rw [← limit.constant?_settings] at hphrase
  -- Only the lexemes count for what may follow, so the tokens behind may stand anywhere.
  have htokens : (before ++ t :: more.map (⟨·, 0⟩)).map (·.lexeme) = ls ++ [.endOfInput] := by
    rw [← hmore]
    simp [Function.comp_def]
  have hadmits := admits_append.mp (hphrase.admits hfits htokens)
  exact h.not_allows hadmits.2.1

/-- Where the error points for a token that is impossible behind others in a source text: at the
opening parenthesis of an empty pair, at the innermost parenthesis that is not closed at the end,
and otherwise at the token, which is what an error then reports if it reports any. -/
structure PointsAt (source : String) (before : List Token) (t : Token) (err : SyntaxError) :
    Prop where
  /-- An empty pair is reported for a closing parenthesis directly behind an opening one, -/
  empty_iff : err.fault.summary = "Empty parentheses" ↔
    t.lexeme = .rightParen ∧ ∃ start ∈ before.getLast?, start.lexeme = .leftParen
  /-- and the error is at that one. -/
  empty_position : err.fault.summary = "Empty parentheses" →
    ∃ start ∈ before.getLast?, start.lexeme = .leftParen ∧ err.position = start.position
  /-- A missing parenthesis is reported for the end of the input behind an operand while
  parentheses are open, -/
  missing_iff : err.fault.summary = "Unbalanced parentheses: missing ')'" ↔
    t.lexeme = .endOfInput ∧ EndsOperand before ∧ unclosed before ≠ []
  /-- and the error is at the innermost of them. -/
  missing_position : err.fault.summary = "Unbalanced parentheses: missing ')'" →
    ∃ start ∈ (unclosed before).head?, start.lexeme = .leftParen ∧ err.position = start.position
  /-- Every other error is at the token, -/
  position : err.fault.summary ≠ "Empty parentheses" →
    err.fault.summary ≠ "Unbalanced parentheses: missing ')'" → err.position = t.position
  /-- and reports nothing, or the token as it stands in the source. -/
  reported : err.fault.summary ≠ "Empty parentheses" →
    err.fault.summary ≠ "Unbalanced parentheses: missing ')'" → ∀ piece ∈ err.fault.token?,
    piece = t.text ∧
      source.toList.extract err.position (err.position + piece.length) = piece.toList

/-- An empty pair is reported for a closing parenthesis directly behind an opening one. -/
lemma Misplaced.fault_eq_emptyParentheses_iff (h : t.Misplaced s before err) :
    err.fault = .emptyParentheses ↔
      t.lexeme = .rightParen ∧ ∃ start ∈ before.getLast?, start.lexeme = .leftParen := by
  cases h with
  | emptyParentheses ht hstart hopen => simp [ht, hstart, hopen]
  | closeForOperand ht hbefore hlast => simpa [ht] using hlast
  | closeForNothing ht hbefore hopen =>
    simp only [ht, true_and, reduceCtorEq, false_iff, not_exists, not_and]
    exact fun start hstart hleft => not_endsOperand_of_getLast? hstart hleft hbefore
  | closeExpected ht | trailingInput ht => simp [(Lexeme.ne_of_beginsOperand ht).1]
  | unexpectedEnd ht | missingClose ht | operandExpected ht | outOfRange ht | tooDeep ht =>
    simp [ht]

/-- A missing parenthesis is reported at the end of the input. -/
lemma Misplaced.fault_eq_missingClose_iff (h : t.Misplaced s before err) :
    err.fault = .missingClose ↔
      t.lexeme = .endOfInput ∧ EndsOperand before ∧ unclosed before ≠ [] := by
  cases h with
  | missingClose ht hbefore hstart =>
    obtain ⟨rest, hopen⟩ := List.head?_eq_some_iff.mp hstart
    simp [ht, hbefore, hopen]
  | unexpectedEnd ht hbefore => simp [ht, hbefore]
  | closeExpected ht | trailingInput ht => simp [(Lexeme.ne_of_beginsOperand ht).2]
  | emptyParentheses ht | closeForOperand ht | closeForNothing ht | operandExpected ht
  | outOfRange ht | tooDeep ht =>
    simp [ht]

/-- An empty pair is reported at its opening parenthesis. -/
lemma Misplaced.position_of_emptyParentheses (h : t.Misplaced s before err)
    (hfault : err.fault = .emptyParentheses) :
    ∃ start ∈ before.getLast?, start.lexeme = .leftParen ∧ err.position = start.position := by
  cases h with
  | emptyParentheses ht hstart hopen => exact ⟨_, hstart, hopen, rfl⟩
  | _ => cases hfault

/-- A missing parenthesis is reported at the innermost one that is open. -/
lemma Misplaced.position_of_missingClose (h : t.Misplaced s before err)
    (hfault : err.fault = .missingClose) :
    ∃ start ∈ (unclosed before).head?, start.lexeme = .leftParen ∧
      err.position = start.position := by
  cases h with
  | missingClose ht hbefore hstart =>
    have hopen := of_mem_unclosed _ (List.mem_of_mem_head? hstart)
    exact ⟨_, hstart, hopen.2, rfl⟩
  | _ => cases hfault

/-- Every other error is at the token, and reports nothing or the token. -/
lemma Misplaced.position_of_ne (h : t.Misplaced s before err)
    (hempty : err.fault ≠ .emptyParentheses) (hmissing : err.fault ≠ .missingClose) :
    err.position = t.position ∧ ∀ piece ∈ err.fault.token?, piece = t.text := by
  cases h with
  | emptyParentheses => exact absurd rfl hempty
  | missingClose => exact absurd rfl hmissing
  | closeForOperand ht | closeForNothing ht =>
    simp [SyntaxFault.token?, text, ht, Lexeme.chars]
  | _ => simp [SyntaxFault.token?]

/-- An error is at the misplaced token or at one of those before it. -/
lemma Misplaced.exists_position_eq (h : t.Misplaced s before err) :
    ∃ u ∈ before ++ [t], err.position = u.position := by
  by_cases hempty : err.fault = .emptyParentheses
  · obtain ⟨start, hstart, -, hposition⟩ := h.position_of_emptyParentheses hempty
    exact ⟨start, List.mem_append_left _ (List.mem_of_getLast? hstart), hposition⟩
  by_cases hmissing : err.fault = .missingClose
  · obtain ⟨start, hstart, -, hposition⟩ := h.position_of_missingClose hmissing
    have hmem := of_mem_unclosed start (List.mem_of_mem_head? hstart)
    exact ⟨start, List.mem_append_left _ hmem.1, hposition⟩
  exact ⟨t, by simp, (h.position_of_ne hempty hmissing).1⟩

/-- The text of each token is in the source where the token is. -/
lemma extract_eq_text {source : String} {tokens : List Token} (hscan : scan source = .ok tokens) :
    ∀ t ∈ tokens,
      source.toList.extract t.position (t.position + t.text.length) = t.text.toList := by
  intro t ht
  rw [← String.length_toList, toList_text]
  exact (cut_of_scanFrom hscan).extract_eq_chars [] rfl t ht

/-- The error for a misplaced token of a source points as it should. -/
lemma Misplaced.pointsAt (h : t.Misplaced s before err) {source : String}
    (hsource : source.toList.extract t.position (t.position + t.text.length) = t.text.toList) :
    PointsAt source before t err := by
  have hempty : err.fault.summary = "Empty parentheses" ↔ err.fault = .emptyParentheses :=
    SyntaxFault.summary_eq_iff (.inl rfl)
  have hmissing : err.fault.summary = "Unbalanced parentheses: missing ')'" ↔
      err.fault = .missingClose :=
    SyntaxFault.summary_eq_iff (.inr rfl)
  constructor
  case empty_iff => exact hempty.trans h.fault_eq_emptyParentheses_iff
  case empty_position => exact fun hfault => h.position_of_emptyParentheses (hempty.mp hfault)
  case missing_iff => exact hmissing.trans h.fault_eq_missingClose_iff
  case missing_position => exact fun hfault => h.position_of_missingClose (hmissing.mp hfault)
  case position =>
    exact fun hne hne' => (h.position_of_ne (mt hempty.mpr hne) (mt hmissing.mpr hne')).1
  case reported =>
    intro hne hne' piece hpiece
    obtain ⟨hposition, htext⟩ := h.position_of_ne (mt hempty.mpr hne) (mt hmissing.mpr hne')
    obtain rfl := htext piece hpiece
    exact ⟨rfl, hposition ▸ hsource⟩

end Token

/-! ## Errors of parsing -/

/-- What is left when an expression was read and parsing fails. -/
lemma exists_left_of_finish {e : Expr Binary64} {rest : List Token} {err : SyntaxError}
    (h : (Outcome.done e rest).finish = .error (.error err)) : ∃ t after, rest = t :: after ∧
      ((t.lexeme = .rightParen ∧ err = ⟨.unexpectedClose, t.position⟩) ∨
        (t.lexeme ≠ .endOfInput ∧ t.lexeme ≠ .rightParen ∧
          err = ⟨.trailingInput t.text, t.position⟩)) := by
  cases rest with
  | nil => cases h
  | cons t after =>
    refine ⟨t, after, rfl, ?_⟩
    rcases t with ⟨l, position⟩
    cases l <;> cases h <;> simp

namespace Expr

variable {text : String} {tokens : List Token} {fault : ParserFault}

/-- A text with tokens that is refused has a token that is misplaced behind the first ones, and
these begin a phrase.

**Proof sketch.** Reading refused a token, or it took a phrase and left more than the end of the
input. In the second case no parenthesis is open and the token left is no operator. -/
lemma exists_misplaced_of_parse (hblank : isBlankText text.toList = false)
    (hscan : Token.scan text = .ok tokens) (h : Expr.parse text limit = .error fault) :
    ∃ err before t after, fault = .error err ∧ tokens = before ++ t :: after ∧
      Production.Begins limit.settings 0 .expression (before.map (·.lexeme)) ∧
      t.Misplaced limit.settings before err := by
  cases fault with
  | noTokens => exact absurd h parse_ne_noTokens
  | error err =>
    rw [Expr.parse_of_scan hblank hscan] at h
    cases houtcome : Production.expression.outcome limit.settings 0 tokens with
    | failed fault rest inner =>
      rw [houtcome] at h
      cases h
      obtain ⟨before, t, after, htokens, hrejected⟩ :=
        Production.rejects_of_failed limit.settings 0 .expression tokens (Nat.zero_le _) []
          Token.operandDue_nil (by simp [Production.Apart]) houtcome
      exact ⟨err, before, t, after, rfl, htokens, hrejected.begins, hrejected.misplaced⟩
    | done e rest =>
      rw [houtcome] at h
      obtain ⟨t, after, rfl, hleft⟩ := exists_left_of_finish h
      obtain ⟨taken, rfl, htaken⟩ := Production.exists_taken_of_outcome _ _ _ _ houtcome
      have hfits := htaken.fits (Nat.zero_le _)
      have hadds := htaken.phrase.addsOperand rfl Token.operandDue_nil hfits
      refine ⟨err, taken, t, after, rfl, rfl, Production.begins_of_phrase htaken.phrase hfits, ?_⟩
      rcases hleft with ⟨hclose, rfl⟩ | ⟨hend, hclose, rfl⟩
      · exact .closeForNothing hclose hadds.ends hadds.closes
      · have hbegins := Production.beginsOperand_of_stopsAt htaken.stops hend hclose
        exact .trailingInput hbegins hadds.ends hadds.closes

/-- **Syntax errors are about the first impossible token.** If a text that is not blank has no
tokens, its lexical fault is reported, whatever stands before it. If it has tokens and is refused,
the tokens in front of some token `t` begin an accepted text and do not if `t` is added to them; and
the error points at `t`, or at the opening parenthesis that `t` shows to be empty or not closed.

**Proof sketch.** Reading refuses a token that may not follow those before it. What it has taken
until then begins a phrase that fits the limit, and some accepted text is written as that phrase.
The tokens of an accepted text may follow one another, so none goes on with the token. -/
theorem parse_error_first_impossible (text : String) (limit : NestingLimit)
    (hblank : isBlankText text.toList = false) :
    (∀ err, Token.scan text = .error err → Expr.parse text limit = .error (.error err)) ∧
      ∀ tokens fault, Token.scan text = .ok tokens → Expr.parse text limit = .error fault →
        ∃ err before t after, fault = .error err ∧ tokens = before ++ t :: after ∧
          IsLeast {k | ¬ BeginsAccepted limit ((tokens.take (k + 1)).map (·.lexeme))}
            before.length ∧
          Token.PointsAt text before t err := by
  refine ⟨fun err hscan => parse_of_scan_eq_error hblank hscan, fun tokens fault hscan hparse => ?_⟩
  obtain ⟨err, before, t, after, rfl, rfl, hbegins, hmisplaced⟩ :=
    exists_misplaced_of_parse hblank hscan hparse
  refine ⟨err, before, t, after, rfl, rfl, ⟨?impossible, ?least⟩, ?points⟩
  case impossible =>
    have htake : (before ++ t :: after).take (before.length + 1) = before ++ [t] := by
      rw [List.take_length_add_append, List.take_succ_cons, List.take_zero]
    rw [Set.mem_ofPred_eq, htake]
    exact hmisplaced.not_beginsAccepted
  case least =>
    intro k hk
    by_contra hlt
    have htake : (before ++ t :: after).take (k + 1) = before.take (k + 1) :=
      List.take_append_of_le_length (by omega)
    rw [Set.mem_ofPred_eq, htake] at hk
    refine hk ((beginsAccepted_of_begins hbegins).shorten ?_)
    exact (List.take_prefix _ _).map _
  case points =>
    exact hmisplaced.pointsAt (Token.extract_eq_text hscan t (by simp))

open Production Token in
/-- In `((x)+y` the end of the input is the first impossible token, and the innermost parenthesis
that is open there is the first one. -/
theorem parse_error_first_impossible_unclosed :
    let text := "((x)+y"
    let tokens : List Token := [⟨.leftParen, 0⟩, ⟨.leftParen, 1⟩, ⟨.var ⟨"x", by decide⟩, 2⟩,
      ⟨.rightParen, 3⟩, ⟨.operator .add, 4⟩, ⟨.var ⟨"y", by decide⟩, 5⟩, ⟨.endOfInput, 6⟩]
    isBlankText text.toList = false ∧ Token.scan text = .ok tokens ∧
      Expr.parse text .standard = .error (.error ⟨.missingClose, 0⟩) ∧
      ∃ before t after, tokens = before ++ t :: after ∧ t.lexeme = .endOfInput ∧
        IsLeast {k | ¬ BeginsAccepted .standard ((tokens.take (k + 1)).map (·.lexeme))}
          before.length ∧
        PointsAt text before t ⟨.missingClose, 0⟩ := by
  intro text tokens
  have hchars : text.toList = ['(', '(', 'x', ')', '+', 'y'] := by simp [text]
  have hblank : isBlankText text.toList = false := by rw [hchars]; rfl
  have hcut : Cut 0 ['(', '(', 'x', ')', '+', 'y'] tokens :=
    .symbol rfl (.symbol rfl (.lexeme (l := .var ⟨"x", by decide⟩) nofun (fun _ => rfl)
      (.symbol rfl (.symbol rfl (.lexeme (l := .var ⟨"y", by decide⟩) nofun (fun _ => rfl)
        (.done 6))))))
  have hscan : Token.scan text = .ok tokens := by rw [scan, hchars, hcut.scanFrom_eq]
  let s := NestingLimit.standard.settings
  have hinner (rest : List Token) : factor.outcome s 1
      (⟨.leftParen, 1⟩ :: ⟨.var ⟨"x", by decide⟩, 2⟩ :: ⟨.rightParen, 3⟩ :: rest) =
      .done (.var ⟨"x", by decide⟩) rest := by
    rw [outcome_group rfl (by decide) (by simp)]
    simp [expression, term, outcome_chain, outcome_var, chainOutcome_stop, Outcome.andThen,
      Outcome.close]
  have houter : factor.outcome s 0 tokens =
      .failed (.error ⟨.missingClose, 0⟩) [⟨.endOfInput, 6⟩] 1 := by
    rw [outcome_group rfl (by decide) (by simp)]
    simp [expression, term, outcome_chain, hinner, outcome_var, chainOutcome_operator,
      chainOutcome_stop, Outcome.andThen, Outcome.close]
  have hparse : Expr.parse text .standard = .error (.error ⟨.missingClose, 0⟩) := by
    rw [Expr.parse_of_scan hblank hscan, expression, outcome_chain, term, outcome_chain, houter]
    rfl
  obtain ⟨err, before, t, after, herr, htokens, hleast, hpoints⟩ :=
    (parse_error_first_impossible text .standard hblank).2 tokens _ hscan hparse
  cases herr
  exact ⟨hblank, hscan, hparse, before, t, after, htokens, (hpoints.missing_iff.mp rfl).1, hleast,
    hpoints⟩

end Expr

end SumProduct
