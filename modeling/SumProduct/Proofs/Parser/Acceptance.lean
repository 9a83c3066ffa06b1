import Mathlib.Data.List.Basic
import SumProduct.Parser.Basic
import SumProduct.Proofs.Parser.Completeness
import SumProduct.Proofs.Parser.Reading
import SumProduct.Proofs.Token.Cut

/-!
# Which texts are expressions

A text is accepted as an expression when its tokens are a phrase of the grammar that derives the
expression, its numerals are in range, and its parentheses fit the nesting limit. Parsing finds
exactly the expression that is accepted, and for every other text it reports an error.

## Main definitions

* `SumProduct.Accepted` — the texts that denote an expression.

## Main results

* `SumProduct.Phrase.unique` — a phrase of the grammar derives one expression only.
* `SumProduct.Expr.parse_eq_ok` — parsing a text whose tokens are a phrase that fits the limit.
* `SumProduct.Expr.parse_eq_tooDeep` — parsing a text whose tokens are a phrase that does not.
* `SumProduct.Expr.parse_decides_accepted` — parsing decides which texts are accepted.
-/

namespace SumProduct

/-! ## The grammar is unambiguous -/

/-- A phrase of the grammar derives one expression only.

**Proof sketch.** With a limit that is large enough, each of two expressions is what is read from
tokens with these lexemes. -/
theorem Phrase.unique {α : Type} {constant? : Numeral → Option α} {ls : List Lexeme} {e f : Expr α}
    (he : Phrase constant? .expression ls e) (hf : Phrase constant? .expression ls f) : e = f := by
  let s : ReadSettings α := ⟨Lexeme.peak ls, constant?⟩
  let taken : List Token := ls.map fun l => ⟨l, 0⟩
  let last : Token := ⟨.endOfInput, 0⟩
  have htaken : taken.map (·.lexeme) = ls := by simp [taken, Function.comp_def]
  have hlast {p : Production} : p.StopsAt [last] := Production.stopsAt_cons.mpr (by simp [last])
  have hread {a : Expr α} (ha : Phrase constant? .expression ls a) :
      Production.expression.outcome s 0 (taken ++ [last]) = .done a [last] := by
    have hdecided : Production.Decided s 0 .expression taken (Lexeme.peak ls) a [last] :=
      Production.decided_of_phrase ha (by decide) htaken (by simp [last])
    rw [hdecided.read (by simp [s]), Production.resume_eq_done hlast]
  have hsame := (hread he).symm.trans (hread hf)
  cases hsame
  rfl

/-- A numeral is in range when its value is finite. -/
lemma Numeral.finiteValue?_eq_some {n : Numeral} {x : Binary64} :
    n.finiteValue? = some x ↔ n.value.isFinite = true ∧ n.value = x := by
  by_cases h : n.value.isFinite = true <;> simp [finiteValue?, h]

/-- A phrase whose numerals are in range is a phrase whose numerals are finite. -/
lemma phrase_finiteValue?_iff {p : Production} {ls : List Lexeme} {e : Expr Binary64} :
    Phrase Numeral.finiteValue? p ls e ↔
      Phrase (fun n => some n.value) p ls e ∧ ∀ n, .number n ∈ ls → n.value.isFinite = true := by
  constructor
  · intro h
    induction h with
    | @number numeral value hvalue =>
      obtain ⟨hfinite, rfl⟩ := Numeral.finiteValue?_eq_some.mp hvalue
      refine ⟨.number rfl, fun n hn => ?_⟩
      obtain rfl : n = numeral := by simpa using hn
      exact hfinite
    | var name => exact ⟨.var name, by simp⟩
    | group _ ih => exact ⟨.group ih.1, by simpa using ih.2⟩
    | single _ ih => exact ⟨.single ih.1, ih.2⟩
    | snoc _ _ ihc iho =>
      refine ⟨.snoc ihc.1 iho.1, fun n hn => ?_⟩
      rcases List.mem_append.mp hn with hn | hn
      · exact ihc.2 n hn
      · exact iho.2 n (by simpa using hn)
  · rintro ⟨h, hfinite⟩
    induction h with
    | number hvalue =>
      exact .number (Numeral.finiteValue?_eq_some.mpr ⟨hfinite _ (by simp), Option.some.inj hvalue⟩)
    | var name => exact .var name
    | group _ ih => exact .group (ih fun n hn => hfinite n (by simp [hn]))
    | single _ ih => exact .single (ih hfinite)
    | snoc _ _ ihc iho =>
      exact .snoc (ihc fun n hn => hfinite n (by simp [hn]))
        (iho fun n hn => hfinite n (by simp [hn]))

/-! ## Parsing as an outcome -/

/-- What reading an expression depends on when a text is parsed. -/
def NestingLimit.settings (limit : NestingLimit) : ReadSettings Binary64 :=
  ⟨limit.levels, Numeral.finiteValue?⟩

/-- When a text is parsed, numerals stand for their values. -/
lemma NestingLimit.constant?_settings (limit : NestingLimit) :
    limit.settings.constant? = Numeral.finiteValue? := by
  rw [settings]

/-- What parsing makes of the outcome of reading an expression: nothing but the end of the input may
be left. -/
def Outcome.finish : Outcome Binary64 → Except ParserFault (Expr Binary64)
  | failed fault _ _ => .error fault
  | done _ [] => .error .noTokens
  | done e (t :: _) =>
    match t.lexeme with
    | .endOfInput => .ok e
    | .rightParen => .error (.error ⟨.unexpectedClose, t.position⟩)
    | _ => .error (.error ⟨.trailingInput t.text, t.position⟩)

/-- Parsing gives an expression when it was read up to the end of the input. -/
lemma exists_done_of_finish {o : Outcome Binary64} {e : Expr Binary64} (h : o.finish = .ok e) :
    ∃ t rest, o = .done e (t :: rest) ∧ t.lexeme = .endOfInput := by
  cases o with
  | failed fault rest nesting => cases h
  | done a rest =>
    cases rest with
    | nil => cases h
    | cons t rest =>
      rcases t with ⟨l, position⟩
      cases l <;> cases h
      exact ⟨_, _, rfl, rfl⟩

/-- Parsing runs out of tokens when reading does, or when no token is left. -/
lemma of_finish_eq_noTokens {o : Outcome Binary64} (h : o.finish = .error .noTokens) :
    Production.OutOfTokens o ∨ ∃ e, o = .done e [] := by
  cases o with
  | failed fault rest nesting =>
    cases h
    exact .inl ⟨rest, nesting, rfl⟩
  | done a rest =>
    cases rest with
    | nil => exact .inr ⟨a, rfl⟩
    | cons t rest =>
      rcases t with ⟨l, position⟩
      cases l <;> cases h

namespace Parser

/-- A parser has a production behind it when its outcome is an expression. -/
lemma produce_of_done {p : Parser} {production : Production} {e : Expr Binary64} {rest : List Token}
    (h : production.outcome p.limit.settings p.nesting p.remaining = .done e rest) :
    p.produce production = (p.leaving rest, .ok e) := by
  rw [Production.outcome] at h
  rw [produce, settings, ← NestingLimit.settings]
  cases hread : production.read p.limit.settings p.nesting p.remaining <;> rw [hread] at h <;>
    cases h
  rfl

/-- A parser reports the fault of an outcome. -/
lemma produce_of_failed {p : Parser} {production : Production} {fault : ParserFault}
    {rest : List Token} {nesting : Nat}
    (h : production.outcome p.limit.settings p.nesting p.remaining = .failed fault rest nesting) :
    p.produce production = ({ p.leaving rest with nesting := nesting }, .error fault) := by
  rw [Production.outcome] at h
  rw [produce, settings, ← NestingLimit.settings]
  cases hread : production.read p.limit.settings p.nesting p.remaining <;> rw [hread] at h <;>
    cases h
  rfl

/-- The cursor is set by counting the tokens left, which are the last ones. -/
lemma remaining_leaving {p : Parser} {taken rest : List Token} (h : p.remaining = taken ++ rest) :
    (p.leaving rest).remaining = rest := by
  have hsuffix : rest <:+ p.tokens := .trans ⟨taken, h.symm⟩ (List.drop_suffix _ _)
  exact (List.suffix_iff_eq_drop.mp hsuffix).symm

/-- A parser is at the end of the input where an outcome finishes. -/
lemma finish_done (p : Parser) (e : Expr Binary64) :
    (Outcome.done e p.remaining).finish = p.atEnd.map fun _ => e := by
  rw [atEnd, current]
  cases p.remaining with
  | nil => rfl
  | cons t rest =>
    rcases t with ⟨l, position⟩
    cases l <;> rfl

end Parser

variable {text : String} {limit : NestingLimit} {tokens : List Token} {e : Expr Binary64}

/-- A blank text is no expression. -/
lemma Expr.parse_of_isBlankText (h : isBlankText text.toList = true) :
    Expr.parse text limit = .error (.error ⟨.emptyExpression, 0⟩) := by
  rw [Expr.parse, Parser.parse, Parser.new, if_pos h]

/-- A text is not blank if parsing it comes to anything else than that. -/
lemma Expr.isBlankText_of_parse {x : Except ParserFault (Expr Binary64)}
    (h : Expr.parse text limit = x) (hx : x ≠ .error (.error ⟨.emptyExpression, 0⟩)) :
    isBlankText text.toList = false := by
  by_contra hblank
  exact hx (h.symm.trans (Expr.parse_of_isBlankText (by simpa using hblank)))

/-- A text without tokens is no expression. -/
lemma Expr.parse_of_scan_eq_error (h : isBlankText text.toList = false) {fault : SyntaxError}
    (hscan : Token.scan text = .error fault) : Expr.parse text limit = .error (.error fault) := by
  simp [Expr.parse, Parser.parse, Parser.new, h, hscan]

/-- Parsing a text reads an expression from its tokens and looks at what is left. -/
lemma Expr.parse_of_scan (h : isBlankText text.toList = false)
    (hscan : Token.scan text = .ok tokens) :
    Expr.parse text limit = (Production.expression.outcome limit.settings 0 tokens).finish := by
  let p : Parser := ⟨text, limit, tokens, 0, 0⟩
  simp only [Expr.parse, Parser.parse, Parser.new, h, hscan, Bool.false_eq_true, ↓reduceIte]
  cases houtcome : Production.expression.outcome limit.settings 0 tokens with
  | failed fault rest inner =>
    rw [Parser.produce_of_failed (p := p) houtcome]
    rfl
  | done a rest =>
    obtain ⟨taken, htokens, -⟩ := Production.exists_taken_of_outcome _ _ _ _ houtcome
    have hremaining : (p.leaving rest).remaining = rest := Parser.remaining_leaving htokens
    rw [Parser.produce_of_done (p := p) houtcome, ← hremaining, Parser.finish_done, hremaining]
    cases hend : (p.leaving rest).atEnd <;> simp only [hend] <;> rfl

/-- Parsing fails before any token is looked at, or comes to what is read from the tokens. -/
lemma Expr.parse_cases (text : String) (limit : NestingLimit) :
    (∃ err : SyntaxError, Expr.parse text limit = .error (.error err)) ∨
      ∃ tokens, Token.scan text = .ok tokens ∧
        Expr.parse text limit = (Production.expression.outcome limit.settings 0 tokens).finish := by
  cases hblank : isBlankText text.toList with
  | true => exact .inl ⟨_, Expr.parse_of_isBlankText hblank⟩
  | false =>
    cases hscan : Token.scan text with
    | error fault => exact .inl ⟨fault, Expr.parse_of_scan_eq_error hblank hscan⟩
    | ok tokens => exact .inr ⟨tokens, rfl, Expr.parse_of_scan hblank hscan⟩

/-! ## Texts whose tokens are a phrase -/

/-- A text with a cut into lexemes that are a phrase is not blank. -/
lemma isBlankText_eq_false {α : Type} {constant? : Numeral → Option α} {p : Production}
    {ls : List Lexeme} {f : Expr α} (hscan : Token.scan text = .ok tokens)
    (hlexemes : tokens.map (·.lexeme) = ls ++ [.endOfInput]) (h : Phrase constant? p ls f) :
    isBlankText text.toList = false := by
  by_contra hblank
  have hcut := Token.cut_of_isBlankText (Bool.eq_true_of_not_eq_false hblank) 0
  obtain rfl := Except.ok.inj (hscan.symm.trans hcut.scanFrom_eq)
  obtain ⟨l, ls', rfl, -⟩ := h.exists_cons
  simp at hlexemes

/-- The tokens of a text are nested as deep as the text. -/
lemma peak_eq_of_scan {ls : List Lexeme} (hscan : Token.scan text = .ok tokens)
    (hlexemes : tokens.map (·.lexeme) = ls ++ [.endOfInput]) :
    Nesting.peak text = Lexeme.peak ls := by
  rw [Nesting.peak, (Token.cut_of_scanFrom hscan).peakFrom_eq, hlexemes, Lexeme.spell_append,
    Lexeme.peak]
  simp [Lexeme.chars]

/-- Reading an expression decides the tokens of a text that are a phrase. -/
lemma decided_of_scan (limit : NestingLimit) {ls : List Lexeme}
    (hlexemes : tokens.map (·.lexeme) = ls ++ [.endOfInput])
    (h : Phrase Numeral.finiteValue? .expression ls e) :
    ∃ taken last, tokens = taken ++ [last] ∧ last.lexeme = .endOfInput ∧
      Production.Decided limit.settings 0 .expression taken (Lexeme.peak ls) e [last] := by
  obtain ⟨taken, back, rfl, htaken, hback⟩ := List.map_eq_append_iff.mp hlexemes
  obtain ⟨last, rfl, hlast⟩ := List.map_eq_singleton_iff.mp hback
  rw [← limit.constant?_settings] at h
  exact ⟨taken, last, rfl, hlast,
    Production.decided_of_phrase h (by decide) htaken (by simp [hlast])⟩

/-- A text whose tokens are a phrase that fits the limit is parsed as the expression that the phrase
derives. -/
theorem Expr.parse_eq_ok {ls : List Lexeme} (hscan : Token.scan text = .ok tokens)
    (hlexemes : tokens.map (·.lexeme) = ls ++ [.endOfInput])
    (h : Phrase Numeral.finiteValue? .expression ls e) (hfits : Nesting.peak text ≤ limit.levels) :
    Expr.parse text limit = .ok e := by
  rw [peak_eq_of_scan hscan hlexemes] at hfits
  rw [Expr.parse_of_scan (isBlankText_eq_false hscan hlexemes h) hscan]
  obtain ⟨taken, last, rfl, hlast, hdecided⟩ := decided_of_scan limit hlexemes h
  have hstop : Production.expression.StopsAt [last] :=
    Production.stopsAt_cons.mpr (by simp [hlast])
  rw [hdecided.read (by rw [Nat.zero_add]; exact hfits), Production.resume_eq_done hstop]
  simp [Outcome.finish, hlast]

/-- A text whose tokens are a phrase that does not fit the limit is refused for that. -/
theorem Expr.parse_eq_tooDeep {ls : List Lexeme} (hscan : Token.scan text = .ok tokens)
    (hlexemes : tokens.map (·.lexeme) = ls ++ [.endOfInput])
    (h : Phrase Numeral.finiteValue? .expression ls e) (hdeep : limit.levels < Nesting.peak text) :
    ∃ position, Expr.parse text limit = .error (.error ⟨.tooDeep limit.levels, position⟩) := by
  rw [peak_eq_of_scan hscan hlexemes] at hdeep
  rw [Expr.parse_of_scan (isBlankText_eq_false hscan hlexemes h) hscan]
  obtain ⟨taken, last, rfl, hlast, hdecided⟩ := decided_of_scan limit hlexemes h
  obtain ⟨position, rest, nesting, hrefused⟩ :=
    hdecided.refused (Nat.zero_le _) (by rw [Nat.zero_add]; exact hdeep)
  exact ⟨position, by rw [hrefused]; rfl⟩

/-! ## Accepted texts -/

/-- A text is accepted as an expression: it has tokens, the lexemes before the end of the input are
a phrase of the grammar that derives the expression, the numbers among them are finite, and no more
parentheses are open at once than the limit allows. -/
def Accepted (limit : NestingLimit) (text : String) (e : Expr Binary64) : Prop :=
  ∃ tokens ls, Token.scan text = .ok tokens ∧ tokens.map (·.lexeme) = ls ++ [.endOfInput] ∧
    Phrase (fun n => some n.value) .expression ls e ∧
    (∀ n, .number n ∈ ls → n.value.isFinite = true) ∧ Nesting.peak text ≤ limit.levels

/-- A text is accepted as one expression only, as its tokens are a phrase of one only. -/
lemma Accepted.unique {e f : Expr Binary64} (he : Accepted limit text e)
    (hf : Accepted limit text f) : e = f := by
  obtain ⟨tokens, ls, hscan, hlexemes, hphrase, -⟩ := he
  obtain ⟨tokens', ls', hscan', hlexemes', hphrase', -⟩ := hf
  obtain rfl := Except.ok.inj (hscan.symm.trans hscan')
  obtain rfl := List.append_cancel_right (hlexemes.symm.trans hlexemes')
  exact hphrase.unique hphrase'

/-- What is parsed is read up to the end of the input.

**Proof sketch.** The tokens of a text have the end of the input last and nowhere else, and reading
stopped there. -/
lemma exists_done_of_parse (h : Expr.parse text limit = .ok e) :
    ∃ front last, Token.scan text = .ok (front ++ [last]) ∧ last.lexeme = .endOfInput ∧
      Production.expression.outcome limit.settings 0 (front ++ [last]) = .done e [last] := by
  rcases Expr.parse_cases text limit with ⟨err, herr⟩ | ⟨tokens, hscan, hparse⟩
  · rw [herr] at h
    cases h
  · obtain ⟨t, rest, houtcome, ht⟩ := exists_done_of_finish (hparse.symm.trans h)
    obtain ⟨taken, rfl, -⟩ := Production.exists_taken_of_outcome _ _ _ _ houtcome
    obtain ⟨ls, hlexemes, hend⟩ := (Token.cut_of_scanFrom hscan).exists_lexemes
    -- The end of the input is in neither front, so both end before its first occurrence.
    rw [List.map_append, List.map_cons, ht] at hlexemes
    obtain ⟨-, -, hrest⟩ := (List.append_cons_inj_of_notMem hend (by simp)).mp hlexemes.symm
    obtain rfl : rest = [] := List.map_eq_nil_iff.mp hrest.symm
    exact ⟨taken, t, hscan, ht, houtcome⟩

/-- What is parsed is accepted, as the phrase that was taken is all that stands before the end of
the input. -/
lemma accepted_of_parse (h : Expr.parse text limit = .ok e) : Accepted limit text e := by
  obtain ⟨front, last, hscan, hlast, houtcome⟩ := exists_done_of_parse h
  have hlexemes : (front ++ [last]).map (·.lexeme) = front.map (·.lexeme) ++ [.endOfInput] := by
    rw [List.map_append, List.map_singleton, hlast]
  obtain ⟨taken, hfront, htaken⟩ := Production.exists_taken_of_outcome _ _ _ _ houtcome
  obtain rfl : front = taken := List.append_cancel_right hfront
  have hphrase := htaken.phrase
  have hfits := htaken.fits (Nat.zero_le _)
  rw [limit.constant?_settings, phrase_finiteValue?_iff] at hphrase
  rw [Nat.zero_add, ← peak_eq_of_scan hscan hlexemes] at hfits
  exact ⟨_, _, hscan, hlexemes, hphrase.1, hphrase.2, hfits⟩

/-- The end of the input is among the tokens of a text. -/
lemma hasEnd_of_scan (hscan : Token.scan text = .ok tokens) : Production.HasEnd tokens := by
  obtain ⟨ls, hlexemes, -⟩ := (Token.cut_of_scanFrom hscan).exists_lexemes
  have hmem : Lexeme.endOfInput ∈ tokens.map (·.lexeme) := by simp [hlexemes]
  exact List.mem_map.mp hmem

/-- Parsing never runs out of tokens. -/
lemma parse_ne_noTokens : Expr.parse text limit ≠ .error .noTokens := by
  intro h
  rcases Expr.parse_cases text limit with ⟨err, herr⟩ | ⟨tokens, hscan, hparse⟩
  · rw [herr] at h
    cases h
  · have hend := hasEnd_of_scan hscan
    rcases of_finish_eq_noTokens (hparse.symm.trans h) with hout | ⟨a, hdone⟩
    · exact Production.not_outOfTokens _ _ _ _ hend hout
    · obtain ⟨t, ht, -⟩ := Production.hasEnd_of_outcome hdone hend
      cases ht

/-- **Parsing decides which texts are expressions.** It gives an expression exactly if the text is
accepted as this expression, which no text is for two of them, and a syntax error if the text is
accepted as none. -/
theorem Expr.parse_decides_accepted (text : String) (limit : NestingLimit) :
    (∀ e, Expr.parse text limit = .ok e ↔ Accepted limit text e) ∧
      (∀ e f, Accepted limit text e → Accepted limit text f → e = f) ∧
      ((∀ e, ¬ Accepted limit text e) →
        ∃ err : SyntaxError, Expr.parse text limit = .error (.error err)) := by
  refine ⟨fun e => ⟨accepted_of_parse, ?_⟩, fun e f he hf => he.unique hf, fun hnone => ?_⟩
  · rintro ⟨tokens, ls, hscan, hlexemes, hphrase, hfinite, hfits⟩
    exact Expr.parse_eq_ok hscan hlexemes (phrase_finiteValue?_iff.mpr ⟨hphrase, hfinite⟩) hfits
  · cases hparse : Expr.parse text limit with
    | ok e => exact absurd (accepted_of_parse hparse) (hnone e)
    | error fault =>
      cases fault with
      | noTokens => exact absurd hparse parse_ne_noTokens
      | error err => exact ⟨err, rfl⟩

end SumProduct
