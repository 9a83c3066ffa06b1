import SumProduct.Proofs.Parser.FirstImpossible
import SumProduct.Proofs.Token.Spacing

/-!
# Tokens in other places

Reading looks at the lexemes of tokens and copies their positions into errors. So it commutes with
moving the tokens to other positions. Two texts with the same kinds and texts of tokens are
therefore parsed alike, whatever blank characters stand between the tokens: as one expression, or
with one error at tokens of the same index.

## Main definitions

* `SumProduct.Token.relocate`, `SumProduct.Outcome.relocate` — tokens and outcomes with other
  positions.

## Main results

* `SumProduct.Production.outcome_relocate` — reading commutes with other positions.
* `SumProduct.Expr.parse_relocate` — so does parsing.
* `SumProduct.Expr.parse_respaced` — blank characters between tokens do not matter.
-/

namespace SumProduct

universe u

variable {α : Type u} {f : Nat → Nat}

/-! ## Other positions -/

/-- A token at another position. -/
def Token.relocate (f : Nat → Nat) (t : Token) : Token := { t with position := f t.position }

/-- An error at another position. -/
def SyntaxError.relocate (f : Nat → Nat) (e : SyntaxError) : SyntaxError :=
  { e with position := f e.position }

/-- A fault with its error at another position. -/
def ParserFault.relocate (f : Nat → Nat) : ParserFault → ParserFault
  | noTokens => noTokens
  | error e => error (e.relocate f)

namespace Outcome

/-- An outcome with all its tokens and its error at other positions. -/
def relocate (f : Nat → Nat) : Outcome α → Outcome α
  | done e rest => done e (rest.map (Token.relocate f))
  | failed fault rest nesting =>
    failed (fault.relocate f) (rest.map (Token.relocate f)) nesting

/-- An outcome may be taken further after its tokens have been moved. -/
lemma relocate_andThen {o : Outcome α} {next next' : Expr α → List Token → Outcome α}
    (h : ∀ e rest, o = done e rest →
      next' e (rest.map (Token.relocate f)) = (next e rest).relocate f) :
    (o.relocate f).andThen next' = (o.andThen next).relocate f := by
  cases o with
  | done e rest => exact h e rest rfl
  | failed fault rest nesting => rfl

/-- A group may be closed after its tokens have been moved. -/
lemma relocate_close (o : Outcome α) (start nesting : Nat) :
    (o.relocate f).close (f start) nesting = (o.close start nesting).relocate f := by
  refine relocate_andThen fun e rest _ => ?_
  cases rest with
  | nil => rfl
  | cons t after =>
    rcases t with ⟨l, position⟩
    cases l <;> rfl

end Outcome

namespace Production

open Token

/-- What a factor is read from may be moved, if this is known for the inside of parentheses. -/
lemma factor_relocate {s : ReadSettings α} {nesting : Nat} {tokens : List Token}
    (ih : ∀ t inner, tokens = t :: inner → t.lexeme = .leftParen → nesting < s.limit →
      inner.head?.map (·.lexeme) ≠ some .rightParen →
      expression.outcome s (nesting + 1) (inner.map (relocate f)) =
        (expression.outcome s (nesting + 1) inner).relocate f) :
    factor.outcome s nesting (tokens.map (relocate f)) =
      (factor.outcome s nesting tokens).relocate f := by
  cases tokens with
  | nil =>
    rw [List.map_nil, outcome_nil]
    rfl
  | cons t tail =>
    rw [List.map_cons]
    cases ht : t.lexeme with
    | number numeral =>
      cases hvalue : s.constant? numeral with
      | some value =>
        rw [outcome_number ht hvalue, outcome_number (t := t.relocate f) ht hvalue]
        rfl
      | none =>
        rw [outcome_outOfRange ht hvalue, outcome_outOfRange (t := t.relocate f) ht hvalue]
        rfl
    | var name =>
      rw [outcome_var ht, outcome_var (t := t.relocate f) ht]
      rfl
    | leftParen =>
      have hhead : (tail.map (relocate f)).head?.map (·.lexeme) = tail.head?.map (·.lexeme) := by
        cases tail <;> rfl
      by_cases hlimit : nesting < s.limit
      · by_cases hempty : tail.head?.map (·.lexeme) = some .rightParen
        · rw [outcome_empty ht hlimit hempty,
            outcome_empty (t := t.relocate f) ht hlimit (hhead.trans hempty)]
          rfl
        · rw [outcome_group ht hlimit hempty,
            outcome_group (t := t.relocate f) ht hlimit (by rwa [hhead]),
            ih t tail rfl ht hlimit hempty]
          exact Outcome.relocate_close _ _ _
      · have hdeep : s.limit < nesting + 1 := by omega
        rw [outcome_tooDeep ht hdeep, outcome_tooDeep (t := t.relocate f) ht hdeep]
        rfl
    | operator op =>
      rw [outcome_operator ht, outcome_operator (t := t.relocate f) ht]
      rfl
    | rightParen =>
      rw [outcome_rightParen ht, outcome_rightParen (t := t.relocate f) ht]
      rfl
    | endOfInput =>
      rw [outcome_endOfInput ht, outcome_endOfInput (t := t.relocate f) ht]
      rfl

/-- **Reading commutes with other positions.**

**Proof sketch.** Induction along the reading. Which equation of reading applies is decided by the
lexeme of the next token, and positions occur in the errors alone. -/
theorem outcome_relocate (s : ReadSettings α) (f : Nat → Nat) (nesting : Nat) (p : Production)
    (tokens : List Token) :
    p.outcome s nesting (tokens.map (relocate f)) = (p.outcome s nesting tokens).relocate f := by
  refine outcome_induct s
    (fun nesting p tokens =>
      p.outcome s nesting (tokens.map (relocate f)) = (p.outcome s nesting tokens).relocate f)
    (fun nesting op operand a tokens =>
      chainOutcome s nesting op operand a (tokens.map (relocate f)) =
        (chainOutcome s nesting op operand a tokens).relocate f)
    ?factor ?chain ?nil ?operator ?stop nesting p tokens
  case factor =>
    intro nesting tokens ih
    exact factor_relocate ih
  case chain =>
    intro nesting op operand tokens ihOperand ihRest
    rw [outcome_chain, outcome_chain, ihOperand]
    exact Outcome.relocate_andThen ihRest
  case nil =>
    intro nesting op operand a
    rw [List.map_nil, chainOutcome_nil]
    rfl
  case operator =>
    intro nesting op operand a t tokens ht ihOperand ihRest
    rw [List.map_cons, chainOutcome_operator _ _ _ ht,
      chainOutcome_operator (t := t.relocate f) _ _ _ ht, ihOperand]
    exact Outcome.relocate_andThen ihRest
  case stop =>
    intro nesting op operand a t tokens ht
    rw [List.map_cons, chainOutcome_stop _ _ _ ht, chainOutcome_stop (t := t.relocate f) _ _ _ ht]
    rfl

end Production

/-! ## Parsing -/

/-- What parsing makes of an outcome does not depend on positions either. -/
lemma finish_relocate (o : Outcome Binary64) :
    (o.relocate f).finish = o.finish.mapError (ParserFault.relocate f) := by
  cases o with
  | failed fault rest nesting => rfl
  | done e rest =>
    cases rest with
    | nil => rfl
    | cons t after =>
      rcases t with ⟨l, position⟩
      cases l <;> rfl

/-- Tokens with the same lexemes are the same tokens in other places, if no two of the first ones
are at one position. -/
lemma Token.exists_relocate {tokens tokens' : List Token}
    (hlexemes : tokens.map (·.lexeme) = tokens'.map (·.lexeme))
    (hpositions : tokens.Pairwise fun t u => t.position < u.position) :
    ∃ f, tokens' = tokens.map (relocate f) := by
  induction tokens generalizing tokens' with
  | nil => exact ⟨id, by simpa using hlexemes.symm⟩
  | cons t tokens ih =>
    cases tokens' with
    | nil => cases hlexemes
    | cons t' tokens' =>
      obtain ⟨hlexeme, htail⟩ := List.cons.inj hlexemes
      change t.lexeme = t'.lexeme at hlexeme
      obtain ⟨hfirst, hrest⟩ := List.pairwise_cons.mp hpositions
      obtain ⟨f, rfl⟩ := ih htail hrest
      refine ⟨Function.update f t.position t'.position, ?_⟩
      rw [List.map_cons, relocate, Function.update_self, hlexeme]
      congr 1
      refine List.map_congr_left fun u hu => ?_
      rw [relocate, relocate, Function.update_of_ne (hfirst u hu).ne']

namespace Expr

variable {text text' : String} {limit : NestingLimit} {tokens tokens' : List Token}

/-- **Parsing commutes with other positions.** -/
theorem parse_relocate (hblank : isBlankText text.toList = false)
    (hblank' : isBlankText text'.toList = false) (hscan : Token.scan text = .ok tokens)
    (hscan' : Token.scan text' = .ok (tokens.map (Token.relocate f))) :
    Expr.parse text' limit = (Expr.parse text limit).mapError (ParserFault.relocate f) := by
  rw [parse_of_scan hblank hscan, parse_of_scan hblank' hscan', Production.outcome_relocate,
    finish_relocate]

/-- The error of a text with tokens is at one of them. -/
lemma exists_index_of_parse (hblank : isBlankText text.toList = false)
    (hscan : Token.scan text = .ok tokens) {fault : ParserFault}
    (h : Expr.parse text limit = .error fault) :
    ∃ err, fault = .error err ∧ ∃ (i : Nat) (t : Token), tokens[i]? = some t ∧
      err.position = t.position := by
  obtain ⟨err, before, t, after, rfl, rfl, -, hmisplaced⟩ :=
    exists_misplaced_of_parse hblank hscan h
  obtain ⟨u, hu, hposition⟩ := hmisplaced.exists_position_eq
  have hmem : u ∈ before ++ t :: after := by
    rw [List.append_cons]
    exact List.mem_append_left after hu
  obtain ⟨i, hi⟩ := List.mem_iff_getElem?.mp hmem
  exact ⟨err, rfl, i, u, hi, hposition⟩

/-- Texts with the same kinds and texts of tokens are parsed as the same expression, or refused for
the same fault at tokens of the same index. -/
lemma parse_congr (limit : NestingLimit) (hblank : isBlankText text.toList = false)
    (hblank' : isBlankText text'.toList = false) (hscan : Token.scan text = .ok tokens)
    (hscan' : Token.scan text' = .ok tokens')
    (hcontent : tokens'.map Token.content = tokens.map Token.content) :
    (∃ e, Expr.parse text limit = .ok e ∧ Expr.parse text' limit = .ok e) ∨
      ∃ (err err' : SyntaxError) (i : Nat) (t t' : Token),
        Expr.parse text limit = .error (.error err) ∧
        Expr.parse text' limit = .error (.error err') ∧ err'.fault = err.fault ∧
        tokens[i]? = some t ∧ tokens'[i]? = some t' ∧ err.position = t.position ∧
        err'.position = t'.position := by
  obtain ⟨f, rfl⟩ := Token.exists_relocate (Token.map_content_eq_iff.mp hcontent).symm
    (Token.cut_of_scanFrom hscan).pairwise_position
  have hparse' : Expr.parse text' limit = _ := parse_relocate hblank hblank' hscan hscan'
  cases hparse : Expr.parse text limit with
  | ok e => exact .inl ⟨e, rfl, by rw [hparse', hparse]; rfl⟩
  | error fault =>
    obtain ⟨err, rfl, i, t, ht, hposition⟩ := exists_index_of_parse hblank hscan hparse
    refine .inr ⟨err, err.relocate f, i, t, t.relocate f, rfl, ?_, rfl, ht, ?_, hposition, ?_⟩
    · rw [hparse', hparse]
      rfl
    · rw [List.getElem?_map, ht]
      rfl
    · rw [SyntaxError.relocate, Token.relocate, hposition]

/-- A text that is parsed as an expression is parsed as the same one when it has other tokens of
the same lexemes. -/
lemma parse_eq_ok_of_lexemes_eq {e : Expr Binary64} (h : Expr.parse text limit = .ok e)
    (hscan : Token.scan text = .ok tokens) (hscan' : Token.scan text' = .ok tokens')
    (hlexemes : tokens'.map (·.lexeme) = tokens.map (·.lexeme)) :
    Expr.parse text' limit = .ok e := by
  obtain ⟨tokens, ls, hscan'', hls, hphrase, hfinite, hfits⟩ := accepted_of_parse h
  obtain rfl := Except.ok.inj (hscan.symm.trans hscan'')
  have hls' := hlexemes.trans hls
  rw [peak_eq_of_scan hscan hls, ← peak_eq_of_scan hscan' hls'] at hfits
  exact parse_eq_ok hscan' hls' (phrase_finiteValue?_iff.mpr ⟨hphrase, hfinite⟩) hfits

/-- **Blank characters between tokens do not matter.** Take a text that is not blank and has tokens.
Any other such text with the same kinds and texts of tokens is parsed as the same expression, or
both are refused with the same message and token, each at its token of one and the same index. And
when the tokens are written one behind the other with blank characters between them, and perhaps at
both ends, the text that comes of it has tokens of the same kinds and texts; if the first text is
parsed as an expression, this one is parsed as the same expression.

**Proof sketch.** Tokens of the same kinds and texts are the same lexemes in other places, and
parsing commutes with moving them (`parse_relocate`). The error of a text with tokens is at one of
them, so it moves with this token. -/
theorem parse_respaced (text : String) (limit : NestingLimit) (tokens : List Token)
    (hblank : isBlankText text.toList = false) (hscan : Token.scan text = .ok tokens) :
    (∀ text' tokens', isBlankText text'.toList = false → Token.scan text' = .ok tokens' →
      tokens'.map Token.content = tokens.map Token.content →
      (∃ e, Expr.parse text limit = .ok e ∧ Expr.parse text' limit = .ok e) ∨
        ∃ (err err' : SyntaxError) (i : Nat) (t t' : Token),
          Expr.parse text limit = .error (.error err) ∧
          Expr.parse text' limit = .error (.error err') ∧
          err'.fault.summary = err.fault.summary ∧ err'.fault.token? = err.fault.token? ∧
          tokens[i]? = some t ∧ tokens'[i]? = some t' ∧ err.position = t.position ∧
          err'.position = t'.position) ∧
    ∀ before inner after, inner.length + 2 = tokens.length → isBlankText before = true →
      (∀ gap ∈ inner, gap ≠ [] ∧ isBlankText gap = true) → isBlankText after = true →
      let respaced := String.ofList (Token.spaced (before :: inner ++ [after]) tokens)
      (∃ tokens', Token.scan respaced = .ok tokens' ∧
        tokens'.map Token.content = tokens.map Token.content) ∧
      ∀ e, Expr.parse text limit = .ok e → Expr.parse respaced limit = .ok e := by
  constructor
  · intro text' tokens' hblank' hscan' hcontent
    rcases parse_congr limit hblank hblank' hscan hscan' hcontent with
      hok | ⟨err, err', i, t, t', herr, herr', hfault, hplaces⟩
    · exact .inl hok
    · exact .inr ⟨err, err', i, t, t', herr, herr', by rw [hfault], by rw [hfault], hplaces⟩
  · intro before inner after hlength hbefore hinner hafter respaced
    obtain ⟨tokens', hscan', hlexemes⟩ :=
      Token.exists_scan_spaced hscan hlength hbefore hinner hafter
    exact ⟨⟨tokens', hscan', Token.map_content_eq_iff.mpr hlexemes⟩,
      fun e h => parse_eq_ok_of_lexemes_eq h hscan hscan' hlexemes⟩

open Production Token in
/-- The text `x)` is refused at its second token, and so is the text with a wide blank in front of
it and a line break and a space between its tokens. The tokens of `x*x` may be written with a tab
behind the first and a line break behind the second one. -/
theorem parse_respaced_blanks :
    let x : Name := ⟨"x", by decide⟩
    let closed : List Token := [⟨.var x, 0⟩, ⟨.rightParen, 1⟩, ⟨.endOfInput, 2⟩]
    let product : List Token := [⟨.var x, 0⟩, ⟨.operator .mul, 1⟩, ⟨.var x, 2⟩, ⟨.endOfInput, 3⟩]
    isBlankText "x)".toList = false ∧ Token.scan "x)" = .ok closed ∧
      Expr.parse "x)" .standard = .error (.error ⟨.unexpectedClose, 1⟩) ∧
      (∃ err, Expr.parse "\u2003x\n )" .standard = .error (.error err) ∧
        err.fault.summary = "Unbalanced parentheses: unexpected ')'" ∧
        err.fault.token? = some ")" ∧ err.position = 4) ∧
      isBlankText "x*x".toList = false ∧ Token.scan "x*x" = .ok product ∧
      Token.spaced [[], ['\t'], ['\n'], []] product = "x\t*\nx".toList ∧
      Expr.parse "x\t*\nx" .standard = .ok (binary .mul (var x) (var x)) := by
  intro x closed product
  have hclosedCut : Cut 0 ['x', ')'] closed :=
    .lexeme (l := .var ⟨"x", by decide⟩) nofun (fun _ => rfl) (.symbol rfl (.done 2))
  have hspreadCut : Cut 0 ['\u2003', 'x', '\n', ' ', ')']
      [⟨.var ⟨"x", by decide⟩, 1⟩, ⟨.rightParen, 4⟩, ⟨.endOfInput, 5⟩] :=
    .blank (c := '\u2003') (by decide) (.lexeme (l := .var ⟨"x", by decide⟩) nofun (fun _ => rfl)
      (.blank (c := '\n') (by decide) (.blank (c := ' ') (by decide) (.symbol rfl (.done 5)))))
  have hproductCut : Cut 0 ['x', '*', 'x'] product :=
    .lexeme (l := .var ⟨"x", by decide⟩) nofun (fun _ => rfl) (.symbol rfl
      (.lexeme (l := .var ⟨"x", by decide⟩) nofun (fun _ => rfl) (.done 3)))
  have hclosed : Token.scan "x)" = .ok closed := hclosedCut.scanFrom_eq
  have hproduct : Token.scan "x*x" = .ok product := hproductCut.scanFrom_eq
  have hrefused : Expr.parse "x)" .standard = .error (.error ⟨.unexpectedClose, 1⟩) := by
    rw [parse_of_scan (by decide) hclosed]
    simp [closed, expression, term, outcome_chain, outcome_var, chainOutcome_stop,
      Outcome.andThen, Outcome.finish]
  have haccepted : Expr.parse "x*x" .standard = .ok (binary .mul (var x) (var x)) := by
    rw [parse_of_scan (by decide) hproduct]
    simp [product, expression, term, outcome_chain, outcome_var, chainOutcome_operator,
      chainOutcome_stop, Outcome.andThen, Outcome.finish]
  obtain ⟨hother, -⟩ := parse_respaced "x)" .standard closed (by decide) hclosed
  obtain ⟨-, hrespaced⟩ := parse_respaced "x*x" .standard product (by decide) hproduct
  have hspaced : Token.spaced ([] :: [['\t'], ['\n']] ++ [[]]) product = "x\t*\nx".toList := by
    decide
  refine ⟨by decide, hclosed, hrefused, ?_, by decide, hproduct, hspaced, ?_⟩
  · rcases hother "\u2003x\n )" _ (by decide) hspreadCut.scanFrom_eq rfl with
      ⟨e, h, -⟩ | ⟨err, err', i, t, t', h, h', hsummary, htoken, hi, hi', hposition, hposition'⟩
    · cases hrefused.symm.trans h
    · cases hrefused.symm.trans h
      -- The error of the first text is at its second token.
      obtain rfl : i = 1 := by
        rcases i with _ | _ | _ | i
        · cases hi
          cases hposition
        · rfl
        · cases hi
          cases hposition
        · cases hi
      cases hi'
      exact ⟨err', h', hsummary, htoken, hposition'⟩
  · have h := (hrespaced [] [['\t'], ['\n']] [] rfl rfl (by decide) rfl).2 _ haccepted
    rwa [hspaced, String.ofList_toList] at h

end Expr

end SumProduct
