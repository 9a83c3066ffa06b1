import Mathlib.Data.List.Induction
import SumProduct.Proofs.Parser.Acceptance
import SumProduct.Proofs.Parser.Progress

/-!
# The cursor of a parser

Steps may be asked of one parser in any order, and a step that fails leaves the parser where it
failed. Still the cursor is always at a token of the text once the text has been cut, and at zero
before that.

## Main definitions

* `SumProduct.Parser.after` — the parser after several steps.
* `SumProduct.Parser.Step.Cuts` — a step that cuts the text into tokens.
* `SumProduct.Parser.CursorValid` — where the cursor may be, before and after the text is cut.
* `SumProduct.Parser.Reaches` — how reading a production moves the cursor.
* `SumProduct.Parser.Moves` — what a step may do to a parser.
* `SumProduct.Parser.NestingCounted` — what becomes of the number of open parentheses in a step.

## Main results

* `SumProduct.Parser.moves_step` — every step is a move.
* `SumProduct.Parser.CursorValid.step` — each move keeps the cursor valid.
* `SumProduct.Parser.run_keeps_cursor_valid` — so do all steps, and tokens run out only where there
  are none.
-/

namespace SumProduct

namespace Parser

variable {p q : Parser} {source : String}

/-! ## Runs -/

/-- The parser after several steps. -/
def after (p : Parser) (steps : List Step) : Parser :=
  steps.foldl (fun q s => (q.step s).1) p

/-- The parser after one more step. -/
lemma after_concat (p : Parser) (steps : List Step) (s : Step) :
    p.after (steps ++ [s]) = ((p.after steps).step s).1 :=
  List.foldl_concat _ _ _ _

/-- A run over one more step ends with this step of the parser after the others. -/
lemma run_concat (p : Parser) (steps : List Step) (s : Step) :
    p.run (steps ++ [s]) = p.run steps ++ [(p.after steps).step s] := by
  induction steps generalizing p with
  | nil => rfl
  | cons t steps ih =>
    rw [List.cons_append, run, ih, run]
    rfl

/-! ## Reading a production -/

/-- The parser with these tokens, from their beginning and with no parenthesis open. -/
def restart (p : Parser) (tokens : List Token) : Parser :=
  { p with tokens := tokens, cursor := 0, nesting := 0 }

/-- A parser comes to another by taking tokens for a production. -/
structure Reaches (p q : Parser) : Prop where
  /-- The text stays. -/
  source_eq : q.source = p.source
  /-- The limit stays. -/
  limit_eq : q.limit = p.limit
  /-- The tokens stay. -/
  tokens_eq : q.tokens = p.tokens
  /-- The cursor is set within the tokens. -/
  cursor_le : q.cursor ≤ q.tokens.length
  /-- The number of open parentheses follows the tokens that are taken, and is never below the one
  at the start. -/
  advances : Token.Advances p.remaining q.remaining p.nesting q.nesting

/-- The number of open parentheses of one parser comes to that of another along the tokens between
their cursors: it is raised by each opening parenthesis and lowered by each closing one, and it is
at no point below zero. -/
def Counts (p q : Parser) : Prop :=
  ∃ taken, p.remaining = taken ++ q.remaining ∧
    (q.nesting : Int) = p.nesting + Token.surplus taken ∧
    ∀ k, 0 ≤ (p.nesting : Int) + Token.surplus (taken.take k)

/-- Parentheses are counted from a parser to itself. -/
lemma counts_refl (p : Parser) : p.Counts p :=
  ⟨[], rfl, by simp [Token.surplus], by simp [Token.surplus]⟩

/-- Parentheses are counted where tokens are taken for a production. -/
lemma Reaches.counts (h : p.Reaches q) : p.Counts q := by
  obtain ⟨taken, htaken, -, hcount, hnonneg⟩ := h.advances
  exact ⟨taken, htaken, hcount, fun k => Int.add_nonneg (Int.natCast_nonneg _) (hnonneg k)⟩

/-- A parser that leaves the tokens behind those that are taken has come there. -/
lemma reaches_leaving {rest : List Token} {nesting : Nat}
    (h : Token.Advances p.remaining rest p.nesting nesting) :
    p.Reaches { p.leaving rest with nesting := nesting } := by
  have hremaining : (p.leaving rest).remaining = rest := remaining_leaving h.choose_spec.1
  refine ⟨rfl, rfl, rfl, Nat.sub_le _ _, ?_⟩
  change Token.Advances p.remaining (p.leaving rest).remaining p.nesting nesting
  rwa [hremaining]

/-- A parser reads a production by taking tokens, whether it succeeds or not. -/
lemma reaches_produce (p : Parser) (production : Production) :
    p.Reaches (p.produce production).1 := by
  have hadvances := production.advancesFrom_outcome p.limit.settings p.nesting p.remaining
  cases houtcome : production.outcome p.limit.settings p.nesting p.remaining with
  | done e rest =>
    rw [houtcome] at hadvances
    rw [produce_of_done houtcome]
    exact reaches_leaving hadvances
  | failed fault rest nesting =>
    rw [houtcome] at hadvances
    rw [produce_of_failed houtcome]
    exact reaches_leaving hadvances

/-- A parser runs out of tokens in a production only if the end of the input is not ahead. -/
lemma produce_ne_noTokens (hend : Production.HasEnd p.remaining) (production : Production) :
    (p.produce production).2 ≠ .error .noTokens := by
  have hnot := production.not_outOfTokens p.limit.settings p.nesting p.remaining hend
  cases houtcome : production.outcome p.limit.settings p.nesting p.remaining with
  | done e rest =>
    rw [produce_of_done houtcome]
    simp
  | failed fault rest nesting =>
    rw [produce_of_failed houtcome]
    intro h
    obtain rfl := Except.error.inj h
    exact hnot ⟨rest, nesting, houtcome⟩

/-- Without tokens reading a production leaves the parser as it is. -/
lemma Reaches.eq_of_tokens_eq_nil (h : p.Reaches q) (htokens : p.tokens = [])
    (hcursor : p.cursor = 0) : q = p := by
  have hnil : q.tokens = [] := h.tokens_eq.trans htokens
  have hzero : q.cursor = 0 := by simpa [hnil] using h.cursor_le
  have hadvances := h.advances
  rw [remaining, htokens, List.drop_nil] at hadvances
  obtain ⟨-, hnesting⟩ := hadvances.eq_of_nil
  obtain ⟨hsource, hlimit, -⟩ := h
  cases p
  cases q
  simp_all

/-! ## Reading the whole text -/

/-- What a parser makes of the whole text does not depend on the steps before. -/
lemma parse_snd (p : Parser) : p.parse.2 = Expr.parse p.source p.limit := by
  cases hblank : isBlankText p.source.toList with
  | true => simp only [Expr.parse, parse, new, hblank, ↓reduceIte]
  | false =>
    simp only [Expr.parse, parse, new, hblank, Bool.false_eq_true, ↓reduceIte]
    cases Token.scan p.source <;> rfl

/-- A blank text is not cut. -/
lemma parse_fst_of_isBlankText (h : isBlankText p.source.toList = true) : p.parse.1 = p := by
  rw [parse, if_pos h]

/-- A text without tokens is not cut. -/
lemma parse_fst_of_scan_eq_error {fault : SyntaxError} (h : Token.scan p.source = .error fault) :
    p.parse.1 = p := by
  rw [parse, h]
  split <;> rfl

/-- Any other text is cut and read from its beginning. -/
lemma parse_fst_of_scan {tokens : List Token} (hblank : isBlankText p.source.toList = false)
    (h : Token.scan p.source = .ok tokens) :
    p.parse.1 = ((p.restart tokens).produce .expression).1 := by
  -- Whatever is found behind the expression, the parser stays where reading it stopped.
  simp only [parse, hblank, h, Bool.false_eq_true, ↓reduceIte, restart]
  split
  · simp only [*]
  · split <;> simp only [*]

/-! ## The cursor -/

/-- A step cuts the text into tokens, where it has any: it is asked to, or to read the whole text
and the text is not blank. -/
def Step.Cuts (source : String) (s : Step) : Prop :=
  (s = .tokenize ∨ s = .parse ∧ isBlankText source.toList = false) ∧
    ∃ tokens, Token.scan source = .ok tokens

/-- Before the text has been cut, a parser has no tokens and its cursor is at zero; afterwards its
tokens are those of the text and its cursor is at one of them. -/
def CursorValid (source : String) (cut : Prop) (p : Parser) : Prop :=
  (¬ cut ∧ p.tokens = [] ∧ p.cursor = 0) ∨
    (cut ∧ Token.scan source = .ok p.tokens ∧ p.cursor < p.tokens.length)

/-- The end of the input is the last token of a text, so it is ahead of any token. -/
lemma hasEnd_remaining_iff (hscan : Token.scan source = .ok p.tokens) :
    Production.HasEnd p.remaining ↔ p.cursor < p.tokens.length := by
  obtain ⟨ls, hlexemes, -⟩ := (Token.cut_of_scanFrom hscan).exists_lexemes
  obtain ⟨front, back, htokens, -, hback⟩ := List.map_eq_append_iff.mp hlexemes
  obtain ⟨last, rfl, hlast⟩ := List.map_eq_singleton_iff.mp hback
  constructor
  · rintro ⟨t, ht, -⟩
    have hpos := List.length_pos_of_mem ht
    rw [remaining, List.length_drop] at hpos
    omega
  · intro hcursor
    have hfront : p.cursor ≤ front.length := by
      rw [htokens, List.length_append, List.length_singleton] at hcursor
      omega
    refine ⟨last, ?_, hlast⟩
    rw [remaining, htokens, List.drop_append_of_le_length hfront]
    simp

/-! ## Steps -/

/-- What a step may do to a parser. -/
inductive Moves (p : Parser) : Step → Parser → Prop
  /-- Nothing happens, and the text is not cut. -/
  | stay {s : Step} (hs : ¬ s.Cuts p.source) : Moves p s p
  /-- One token is taken, but not the end of the input. -/
  | take {s : Step} (hs : s = .consume ∨ ∃ kind, s = .expect kind) {t : Token} {rest : List Token}
      (hremaining : p.remaining = t :: rest) (ht : t.lexeme ≠ .endOfInput) :
      Moves p s { p with cursor := p.cursor + 1 }
  /-- The text is cut, and the cursor stays. -/
  | tokenize {tokens : List Token} (hscan : Token.scan p.source = .ok tokens) :
      Moves p .tokenize { p with tokens := tokens }
  /-- A production is read at the cursor. -/
  | produce {production : Production} {q : Parser} (hq : p.Reaches q) :
      Moves p (.produce production) q
  /-- The text is cut and read from its beginning. -/
  | parse {tokens : List Token} {q : Parser} (hblank : isBlankText p.source.toList = false)
      (hscan : Token.scan p.source = .ok tokens) (hq : (p.restart tokens).Reaches q) :
      Moves p .parse q

/-- Only two steps can cut the text. -/
lemma Step.not_cuts {s : Step} (htokenize : s ≠ .tokenize) (hparse : s ≠ .parse) :
    ¬ s.Cuts source := by
  rintro ⟨rfl | ⟨rfl, -⟩, -⟩
  · exact htokenize rfl
  · exact hparse rfl

/-- Taking a token does not cut the text. -/
lemma Step.not_cuts_of_take {s : Step} (hs : s = .consume ∨ ∃ kind, s = .expect kind) :
    ¬ s.Cuts source := by
  rcases hs with rfl | ⟨kind, rfl⟩ <;> exact not_cuts (by simp) (by simp)

/-- A text without tokens is not cut. -/
lemma Step.not_cuts_of_scan_eq_error {fault : SyntaxError} (h : Token.scan source = .error fault)
    (s : Step) : ¬ s.Cuts source := by
  rintro ⟨-, tokens, hscan⟩
  cases h.symm.trans hscan

/-- Without a token none is taken. -/
lemma advance_of_nil (h : p.remaining = []) : p.advance = p := by
  simp only [advance, h]

/-- Taking a token is a move. -/
lemma moves_advance {s : Step} (hs : s = .consume ∨ ∃ kind, s = .expect kind) :
    p.Moves s p.advance := by
  have hstay : p.Moves s p := .stay (Step.not_cuts_of_take hs)
  cases hremaining : p.remaining with
  | nil => rwa [advance_of_nil hremaining]
  | cons t rest =>
    by_cases ht : t.lexeme = .endOfInput
    · simpa only [advance, hremaining, if_pos ht] using hstay
    · simpa only [advance, hremaining, if_neg ht] using Moves.take hs hremaining ht

/-- **Every step is a move.** -/
lemma moves_step (p : Parser) (s : Step) : p.Moves s (p.step s).1 := by
  cases s with
  | tokenize =>
    rw [step, Parser.tokenize]
    cases hscan : Token.scan p.source with
    | error fault => exact .stay (Step.not_cuts_of_scan_eq_error hscan _)
    | ok tokens => exact .tokenize hscan
  | current => exact .stay (Step.not_cuts (by simp) (by simp))
  | consume => exact moves_advance (.inl rfl)
  | expect kind =>
    have hstay : p.Moves (.expect kind) p := .stay (Step.not_cuts_of_take (.inr ⟨kind, rfl⟩))
    rw [step, Parser.expect]
    cases p.current with
    | error fault => exact hstay
    | ok t =>
      dsimp only
      split_ifs
      · exact moves_advance (.inr ⟨kind, rfl⟩)
      · exact hstay
      · exact hstay
  | parse =>
    rw [step]
    cases hblank : isBlankText p.source.toList with
    | true =>
      rw [parse_fst_of_isBlankText hblank]
      exact .stay (by simp [Step.Cuts, hblank])
    | false =>
      cases hscan : Token.scan p.source with
      | error fault =>
        rw [parse_fst_of_scan_eq_error hscan]
        exact .stay (Step.not_cuts_of_scan_eq_error hscan _)
      | ok tokens =>
        rw [parse_fst_of_scan hblank hscan]
        exact .parse hblank hscan (reaches_produce _ _)
  | produce production => exact .produce (reaches_produce p production)

/-- A move keeps the text and the limit. -/
lemma Moves.source_limit {s : Step} (h : p.Moves s q) :
    q.source = p.source ∧ q.limit = p.limit := by
  cases h with
  | stay | take | tokenize => exact ⟨rfl, rfl⟩
  | produce hq => exact ⟨hq.source_eq, hq.limit_eq⟩
  | parse hblank hscan hq => exact ⟨hq.source_eq, hq.limit_eq⟩

/-- What becomes of the number of open parentheses in a step: reading a production counts them from
the cursor, and reading the whole text does so from its beginning if the text is cut. Any other step
leaves the number as it is. -/
def NestingCounted (p : Parser) : Step → Parser → Prop
  | .produce _, q => p.Counts q
  | .parse, q => q = p ∨ (p.restart q.tokens).Counts q
  | _, q => q.nesting = p.nesting

/-- A move counts parentheses. -/
lemma Moves.nestingCounted {s : Step} (h : p.Moves s q) : p.NestingCounted s q := by
  cases h with
  | stay =>
    cases s with
    | produce production => exact counts_refl p
    | parse => exact .inl rfl
    | tokenize | current | consume | expect => rfl
  | take hs => rcases hs with rfl | ⟨kind, rfl⟩ <;> rfl
  | tokenize => rfl
  | produce hq => exact hq.counts
  | parse hblank hscan hq =>
    have htokens := hq.tokens_eq
    rw [restart] at htokens
    exact .inr (htokens ▸ hq.counts)

/-! ## Valid cursors -/

section Valid

variable {cut : Prop}

/-- With a valid cursor there are no tokens, or the end of the input is ahead. -/
lemma CursorValid.empty_or_hasEnd (h : CursorValid source cut p) :
    (p.tokens = [] ∧ p.cursor = 0) ∨ Production.HasEnd p.remaining := by
  rcases h with ⟨-, hempty⟩ | ⟨-, hscan, hcursor⟩
  · exact .inl hempty
  · exact .inr ((hasEnd_remaining_iff hscan).mpr hcursor)

/-- A cursor among the same tokens is valid if the end of the input is ahead of it too. -/
lemma CursorValid.of_hasEnd (h : CursorValid source cut p) (htokens : q.tokens = p.tokens)
    (hempty : p.tokens = [] → p.cursor = 0 → q.cursor = 0)
    (hend : Production.HasEnd p.remaining → Production.HasEnd q.remaining) :
    CursorValid source cut q := by
  rcases h with ⟨hcut, hnil, hzero⟩ | ⟨hcut, hscan, hcursor⟩
  · exact .inl ⟨hcut, htokens.trans hnil, hempty hnil hzero⟩
  · have hscan' : Token.scan source = .ok q.tokens := by rw [htokens, hscan]
    have hahead := hend ((hasEnd_remaining_iff hscan).mpr hcursor)
    exact .inr ⟨hcut, hscan', (hasEnd_remaining_iff hscan').mp hahead⟩

/-- Reading a production keeps a cursor valid. -/
lemma CursorValid.reaches (h : CursorValid source cut p) (hq : p.Reaches q) :
    CursorValid source cut q :=
  h.of_hasEnd hq.tokens_eq (fun hnil hzero => hq.eq_of_tokens_eq_nil hnil hzero ▸ hzero)
    hq.advances.hasEnd

/-- Once the text is cut, the cursor is valid at the first token. -/
lemma cursorValid_of_scan (hcut : cut) (hscan : Token.scan source = .ok p.tokens)
    (hzero : p.cursor = 0) : CursorValid source cut p := by
  have hend : Production.HasEnd p.remaining := by
    rw [remaining, hzero]
    exact hasEnd_of_scan hscan
  exact .inr ⟨hcut, hscan, (hasEnd_remaining_iff hscan).mp hend⟩

/-- **Each move keeps the cursor valid.** -/
theorem CursorValid.step {s : Step} (h : CursorValid source cut p) (hsource : p.source = source)
    (hq : p.Moves s q) : CursorValid source (cut ∨ s.Cuts source) q := by
  subst hsource
  cases hq with
  | stay hs => rwa [or_iff_left hs]
  | @take _ hs t rest hremaining ht =>
    rw [or_iff_left (Step.not_cuts_of_take hs)]
    have hrest : p.tokens.drop (p.cursor + 1) = rest := by
      rw [← List.drop_drop, show p.tokens.drop p.cursor = t :: rest from hremaining]
      rfl
    refine h.of_hasEnd rfl (fun hnil => ?_) fun hend => ?_
    · simp [remaining, hnil] at hremaining
    · rw [hremaining] at hend
      rw [remaining, hrest]
      exact hend.of_cons ht
  | @tokenize tokens hscan =>
    have hcuts : Step.tokenize.Cuts p.source := ⟨.inl rfl, tokens, hscan⟩
    rcases h with ⟨-, -, hzero⟩ | ⟨-, hscan', hcursor⟩
    · exact cursorValid_of_scan (.inr hcuts) hscan hzero
    · obtain rfl := Except.ok.inj (hscan'.symm.trans hscan)
      exact .inr ⟨.inr hcuts, hscan, hcursor⟩
  | produce hq =>
    rw [or_iff_left (Step.not_cuts (by simp) (by simp))]
    exact h.reaches hq
  | @parse tokens _ hblank hscan hq =>
    have hcuts : Step.parse.Cuts p.source := ⟨.inr ⟨rfl, hblank⟩, tokens, hscan⟩
    have hrestart : CursorValid p.source (cut ∨ Step.parse.Cuts p.source) (p.restart tokens) :=
      cursorValid_of_scan (.inr hcuts) hscan rfl
    exact hrestart.reaches hq

/-! ## Running out of tokens -/

/-- An answer is a fault only if the outcome is that fault. -/
lemma Answer.ofOutcome_eq_fault {β : Type} {f : β → Answer} {x : Except ParserFault β}
    {fault : ParserFault} (hf : ∀ b, f b ≠ .fault fault) (h : ofOutcome f x = .fault fault) :
    x = .error fault := by
  cases x with
  | ok b => exact absurd h (hf b)
  | error fault' =>
    obtain rfl := Answer.fault.inj h
    rfl

/-- With the end of the input ahead there is a token. -/
lemma current_ne_noTokens (h : Production.HasEnd p.remaining) : p.current ≠ .error .noTokens := by
  obtain ⟨t, ht, -⟩ := h
  rw [current]
  cases hremaining : p.remaining with
  | nil => simp [hremaining] at ht
  | cons t rest => simp

/-- No token of a kind is asked of a parser that has run out of them. -/
lemma current_of_expect {kind : TokenKind} (h : (p.expect kind).2 = .error .noTokens) :
    p.current = .error .noTokens := by
  rw [expect] at h
  cases hcurrent : p.current with
  | error fault => rwa [hcurrent] at h
  | ok t =>
    rw [hcurrent] at h
    dsimp only at h
    split_ifs at h <;> simp at h

/-- Cutting the text, or reading all of it, never runs out of tokens. -/
lemma step_ne_noTokens {s : Step} (hs : s = .tokenize ∨ s = .parse) :
    (p.step s).2 ≠ .fault .noTokens := by
  intro h
  rcases hs with rfl | rfl
  · have hfault := Answer.ofOutcome_eq_fault (by simp) h
    rw [Parser.tokenize] at hfault
    cases hscan : Token.scan p.source <;> simp [hscan] at hfault
  · have hfault := Answer.ofOutcome_eq_fault (by simp) h
    exact parse_ne_noTokens (p.parse_snd.symm.trans hfault)

/-- A step that runs out of tokens does not have the end of the input ahead. -/
lemma not_hasEnd_of_step {s : Step} (h : (p.step s).2 = .fault .noTokens) :
    ¬ Production.HasEnd p.remaining := by
  intro hend
  cases s with
  | tokenize => exact step_ne_noTokens (.inl rfl) h
  | parse => exact step_ne_noTokens (.inr rfl) h
  | current => exact current_ne_noTokens hend (Answer.ofOutcome_eq_fault (by simp) h)
  | consume => exact current_ne_noTokens hend (Answer.ofOutcome_eq_fault (by simp) h)
  | expect kind =>
    exact current_ne_noTokens hend (current_of_expect (Answer.ofOutcome_eq_fault (by simp) h))
  | produce production =>
    exact produce_ne_noTokens hend production (Answer.ofOutcome_eq_fault (by simp) h)

/-- Without tokens only a cut changes the parser. -/
lemma Moves.eq_of_tokens_eq_nil {s : Step} (h : p.Moves s q) (hs : ¬ s.Cuts p.source)
    (htokens : p.tokens = []) (hcursor : p.cursor = 0) : q = p := by
  cases h with
  | stay => rfl
  | take _ hremaining => simp [remaining, htokens] at hremaining
  | tokenize hscan => exact absurd ⟨.inl rfl, _, hscan⟩ hs
  | produce hq => exact hq.eq_of_tokens_eq_nil htokens hcursor
  | parse hblank hscan => exact absurd ⟨.inr ⟨rfl, hblank⟩, _, hscan⟩ hs

/-- **Tokens run out only where there are none**, and then nothing changes. -/
lemma CursorValid.of_noTokens {s : Step} (h : CursorValid source cut p)
    (hfault : (p.step s).2 = .fault .noTokens) : p.tokens = [] ∧ (p.step s).1 = p := by
  rcases h.empty_or_hasEnd with ⟨htokens, hcursor⟩ | hend
  · have hnot : ¬ s.Cuts p.source := fun hs =>
      step_ne_noTokens (hs.1.imp_right And.left) hfault
    exact ⟨htokens, (moves_step p s).eq_of_tokens_eq_nil hnot htokens hcursor⟩
  · exact absurd hend (not_hasEnd_of_step hfault)

end Valid

/-! ## All steps -/

/-- After any steps the parser is still for its text and limit, and its cursor is valid.

**Proof sketch.** Induction on the steps, with the last one set apart. -/
lemma after_new (source : String) (limit : NestingLimit) (steps : List Step) :
    ((new source limit).after steps).source = source ∧
      ((new source limit).after steps).limit = limit ∧
      CursorValid source (∃ s ∈ steps, s.Cuts source) ((new source limit).after steps) := by
  induction steps using List.reverseRecOn with
  | nil => exact ⟨rfl, rfl, .inl ⟨by simp, rfl, rfl⟩⟩
  | append_singleton steps s ih =>
    obtain ⟨hsource, hlimit, hvalid⟩ := ih
    have hmoves := moves_step ((new source limit).after steps) s
    have hkept := hmoves.source_limit
    have hcut : (∃ t ∈ steps ++ [s], t.Cuts source) ↔
        (∃ t ∈ steps, t.Cuts source) ∨ s.Cuts source := by
      simp [or_and_right, exists_or]
    rw [after_concat]
    refine ⟨hkept.1.trans hsource, hkept.2.trans hlimit, ?_⟩
    rw [hcut]
    exact hvalid.step hsource hmoves

/-- **The cursor of a parser is always valid.** Whatever steps have been asked of a parser, and
whether they succeeded or not, its tokens are those of its text and the cursor is at one of them if
one of the steps has cut the text; otherwise there are no tokens and the cursor is at zero. In any
further step the number of open parentheses is at no point below zero. If the step runs out of
tokens, there are none, and the parser stays as it is. -/
theorem run_keeps_cursor_valid (source : String) (limit : NestingLimit) (steps : List Step)
    (s : Step) :
    let p := (new source limit).after steps
    (new source limit).run (steps ++ [s]) = (new source limit).run steps ++ [p.step s] ∧
      p.source = source ∧ p.limit = limit ∧ CursorValid source (∃ t ∈ steps, t.Cuts source) p ∧
      p.NestingCounted s (p.step s).1 ∧
      ((p.step s).2 = .fault .noTokens → p.tokens = [] ∧ (p.step s).1 = p) := by
  intro p
  obtain ⟨hsource, hlimit, hvalid⟩ := after_new source limit steps
  exact ⟨run_concat _ steps s, hsource, hlimit, hvalid, (moves_step p s).nestingCounted,
    hvalid.of_noTokens⟩

end Parser

end SumProduct
