import Mathlib.Data.List.SplitBy
import SumProduct.Proofs.Token.Partial

/-!
# The pieces of a text

Where a text can be cut is a matter of its delimiters alone: each blank character and each symbol is
a piece, and so is each maximal run of other characters. The scan looks at a text from the left and
takes the longest numeral or name it finds, and yet it comes to the same: it succeeds exactly if
each run is a numeral or a name as a whole, and its tokens are the runs and symbols in their places.

## Main definitions

* `SumProduct.Token.pieces` — the pieces of a text.
* `SumProduct.Token.solidPieces` — the runs and symbols of a text with their positions.
* `SumProduct.Token.IsRun`, `SumProduct.Token.IsNumeralOrName` — runs, and what a run has to be.
* `SumProduct.Token.IsMalformed` — runs that are not what they have to be.

## Main results

* `SumProduct.Token.exists_partialCut` — a text is cut up to its first malformed run.
* `SumProduct.Token.PartialCut.exists_pieces` — the pieces up to there.
* `SumProduct.Token.exists_cut_iff` — which texts can be cut.
* `SumProduct.Token.Cut.map_eq_solidPieces` — the tokens of a text are its runs and symbols.
* `SumProduct.Token.scan_cuts_into_pieces` — what the scan recognises, and that it loses nothing.
-/

namespace SumProduct

namespace Token

/-! ## Pieces -/

/-- The pieces of a text: each delimiter alone, and the maximal runs of other characters. -/
def pieces (text : List Char) : List (List Char) :=
  text.splitBy fun c d => !isDelimiter c && !isDelimiter d

/-- A piece is a run when it has no delimiter. -/
def IsRun (piece : List Char) : Prop := ∀ c ∈ piece, isDelimiter c = false

/-- Digits, optionally with a point and more digits, or letters. -/
def IsNumeralOrName (run : List Char) : Prop := (∃ n : Numeral, n.chars = run) ∨ isWord run = true

/-- Pieces that follow each other with their positions, where the first one has a position. -/
def locate (position : Nat) : List (List Char) → List (Nat × List Char)
  | [] => []
  | piece :: rest => (position, piece) :: locate (position + piece.length) rest

/-- The pieces of a text that are not blank, with their positions, where the text has a position. -/
def solidPiecesFrom (position : Nat) (text : List Char) : List (Nat × List Char) :=
  (locate position (pieces text)).filter fun p => !isBlankText p.2

/-- The runs and symbols of a text with their positions. -/
def solidPieces (text : List Char) : List (Nat × List Char) := solidPiecesFrom 0 text

example : pieces "12* x.1".toList = [['1', '2'], ['*'], [' '], ['x', '.', '1']] := by decide

variable {position : Nat} {c : Char} {l : Lexeme} {run text : List Char} {tokens : List Token}

/-- The pieces of a text without characters. -/
lemma pieces_nil : pieces [] = [] := rfl

/-- A delimiter is a piece of its own. -/
lemma pieces_delimiter (hc : isDelimiter c = true) (text : List Char) :
    pieces (c :: text) = [c] :: pieces text := by
  have happend : pieces ([c] ++ text) = pieces [c] ++ pieces text :=
    List.splitBy_append (by simp [hc])
  rw [← List.singleton_append, happend]
  rfl

/-- A run in front of a delimiter is a piece. -/
lemma pieces_run (hne : run ≠ []) (hrun : IsRun run) (htext : isDelimited text = true) :
    pieces (run ++ text) = run :: pieces text := by
  have hdelimiter : ∀ d ∈ text.head?, isDelimiter d = true := by
    cases text with
    | nil => simp
    | cons d rest => simpa [isDelimited] using htext
  have happend : pieces (run ++ text) = pieces run ++ pieces text :=
    List.splitBy_append fun c _ d hd => by simp [hdelimiter d hd]
  have hwhole : pieces run = [run] := by
    refine List.splitBy_of_isChain hne (List.Pairwise.isChain ?_)
    exact List.pairwise_of_forall_mem_list fun c hc d hd => by simp [hrun c hc, hrun d hd]
  rw [happend, hwhole, List.singleton_append]

/-! ## Lexemes as pieces -/

/-- A word is a run. -/
lemma isRun_chars (hword : l.isWord = true) : IsRun l.chars := by
  intro c hc
  cases l with
  | number n =>
    rcases Numeral.isDigit_of_mem_chars hc with hdigit | rfl
    · exact isDelimiter_of_isDigit hdigit
    · decide
  | var n =>
    obtain ⟨d, ds, htext, hd, hds⟩ := n.exists_letters
    have hall : n.text.toList.all isLetter = true := by simp [htext, hd, hds]
    exact isDelimiter_of_isLetter (List.all_eq_true.mp hall c hc)
  | operator _ | leftParen | rightParen | endOfInput => cases hword

/-- A word is a numeral or a name. -/
lemma isNumeralOrName_chars (hword : l.isWord = true) : IsNumeralOrName l.chars := by
  cases l with
  | number n => exact .inl ⟨n, rfl⟩
  | var n => exact .inr n.isWord_text
  | operator _ | leftParen | rightParen | endOfInput => cases hword

/-- A lexeme but the end of the input is a numeral, a name or a symbol. -/
lemma numeral_name_or_symbol (hl : l ≠ .endOfInput) :
    (l.kind = .number ∧ ∃ n : Numeral, n.chars = l.chars) ∨
      (l.kind = .var ∧ SumProduct.isWord l.chars = true) ∨
      ∃ c, l.chars = [c] ∧ Lexeme.ofSymbol? c = some l := by
  cases l with
  | number n => exact .inl ⟨rfl, n, rfl⟩
  | var n => exact .inr (.inl ⟨rfl, n.isWord_text⟩)
  | operator _ | leftParen | rightParen => exact .inr (.inr (Lexeme.exists_ofSymbol? rfl hl))
  | endOfInput => exact absurd rfl hl

/-- The characters of a lexeme but the end of the input are a run that is a numeral or a name, or
the character of a symbol. -/
lemma run_or_symbol (hl : l ≠ .endOfInput) :
    (l.isWord = true ∧ IsRun l.chars ∧ IsNumeralOrName l.chars) ∨
      ∃ c, l.chars = [c] ∧ Lexeme.ofSymbol? c = some l := by
  cases hword : l.isWord with
  | true => exact .inl ⟨rfl, isRun_chars hword, isNumeralOrName_chars hword⟩
  | false => exact .inr (Lexeme.exists_ofSymbol? hword hl)

/-- A numeral or name is the characters of a lexeme. -/
lemma IsNumeralOrName.exists_lexeme (h : IsNumeralOrName run) :
    ∃ l : Lexeme, l ≠ .endOfInput ∧ l.chars = run := by
  rcases h with ⟨n, hn⟩ | hword
  · exact ⟨.number n, nofun, hn⟩
  · exact ⟨.var ⟨String.ofList run, by rwa [String.toList_ofList]⟩, nofun, String.toList_ofList⟩

/-- Every lexeme but the end of the input has characters. -/
lemma chars_ne_nil (hl : l ≠ .endOfInput) : l.chars ≠ [] := by
  rcases numeral_name_or_symbol hl with ⟨-, n, hn⟩ | ⟨-, hword⟩ | ⟨c, hchars, -⟩
  · rw [← hn, Numeral.chars]
    split <;> simp [n.whole_ne_nil]
  · intro hnil
    rw [hnil] at hword
    cases hword
  · simp [hchars]

/-- The characters of a lexeme that is cut off are a piece. -/
lemma pieces_chars (hl : l ≠ .endOfInput) (hword : l.isWord = true → isDelimited text = true) :
    pieces (l.chars ++ text) = l.chars :: pieces text := by
  rcases run_or_symbol hl with ⟨hisWord, hrun, -⟩ | ⟨c, hchars, hc⟩
  · exact pieces_run (chars_ne_nil hl) hrun (hword hisWord)
  · rw [hchars]
    exact pieces_delimiter (isDelimiter_of_ofSymbol? hc) text

/-- The characters of a lexeme are not blank. -/
lemma isBlankText_chars (hl : l ≠ .endOfInput) : isBlankText l.chars = false := by
  obtain ⟨c, cs, hchars⟩ := List.exists_cons_of_ne_nil (chars_ne_nil hl)
  have hc : isBlank c = false := by
    rcases run_or_symbol hl with ⟨-, hrun, -⟩ | ⟨d, hd, hsymbol⟩
    · have hdelimiter := hrun c (by simp [hchars])
      simp only [isDelimiter, Bool.or_eq_false_iff] at hdelimiter
      exact hdelimiter.1
    · obtain ⟨rfl, -⟩ : d = c ∧ cs = [] := by simpa [hchars] using hd.symm
      exact isBlank_of_ofSymbol? (by simp [hsymbol])
  simp [isBlankText, hchars, hc]

/-! ## How far a text can be cut -/

/-- A delimiter is no run. -/
lemma not_isRun_delimiter (hc : isDelimiter c = true) : ¬ IsRun [c] := fun hrun =>
  absurd ((hrun c (List.mem_singleton.mpr rfl)).symm.trans hc) (by decide)

/-- A text that does not begin with a delimiter begins with a run in front of one. -/
lemma exists_run (hc : isDelimiter c = false) (text : List Char) :
    ∃ run rest, c :: text = run ++ rest ∧ run ≠ [] ∧ IsRun run ∧ isDelimited rest = true := by
  refine ⟨run (c :: text), (c :: text).dropWhile fun d => !isDelimiter d,
    List.takeWhile_append_dropWhile.symm, by simp [Token.run, hc], fun d hd => ?_, ?_⟩
  · simpa using List.all_eq_true.mp List.all_takeWhile d hd
  · cases hrest : (c :: text).dropWhile fun d => !isDelimiter d with
    | nil => rfl
    | cons d rest =>
      have hhead := List.head?_dropWhile_not (fun d => !isDelimiter d) (c :: text)
      simpa [hrest, isDelimited] using hhead

/-- A run in front of a delimiter that is no numeral and no name. -/
structure IsMalformed (run after : List Char) : Prop where
  /-- It has characters. -/
  ne_nil : run ≠ []
  /-- None of them is a delimiter. -/
  isRun : IsRun run
  /-- There is a delimiter or nothing behind it. -/
  isDelimited : isDelimited after = true
  /-- It is no word as a whole. -/
  not_isNumeralOrName : ¬ IsNumeralOrName run

/-- A malformed run is a piece. -/
lemma IsMalformed.pieces_append {after : List Char} (h : IsMalformed run after) :
    pieces (run ++ after) = run :: pieces after :=
  pieces_run h.ne_nil h.isRun h.isDelimited

/-- A text is cut up to its end or up to a malformed run.

**Proof sketch.** Induction on the length of the text. A delimiter at its beginning is dropped or a
symbol. Any other character begins a run, which is a lexeme in front of a delimiter or malformed. -/
lemma exists_partialCut (text : List Char) (position : Nat) :
    ∃ stop rest found, PartialCut stop rest position text found ∧
      (rest = [] ∨ ∃ run after, rest = run ++ after ∧ IsMalformed run after) := by
  match text with
  | [] => exact ⟨position, [], [], .done, .inl rfl⟩
  | c :: text =>
    cases hc : isDelimiter c with
    | true =>
      obtain ⟨stop, rest, found, hcut, hrest⟩ := exists_partialCut text (position + 1)
      -- A delimiter that is not blank is a symbol.
      by_cases hblank : isBlank c = true
      · exact ⟨stop, rest, found, .blank hblank hcut, hrest⟩
      · simp only [isDelimiter, hblank, Bool.false_or] at hc
        obtain ⟨l, hl⟩ := Option.isSome_iff_exists.mp hc
        exact ⟨stop, rest, ⟨l, position⟩ :: found, .symbol hl hcut, hrest⟩
    | false =>
      obtain ⟨run, after, htext, hne, hrun, hdelimited⟩ := exists_run hc text
      rw [htext]
      by_cases hwhole : IsNumeralOrName run
      · obtain ⟨l, hl, rfl⟩ := hwhole.exists_lexeme
        have hshorter : after.length < text.length + 1 := by
          rw [← List.length_cons, htext, List.length_append]
          exact Nat.lt_add_of_pos_left (List.length_pos_iff.mpr hne)
        obtain ⟨stop, rest, found, hcut, hrest⟩ :=
          exists_partialCut after (position + l.chars.length)
        exact ⟨stop, rest, ⟨l, position⟩ :: found, .lexeme hl (fun _ => hdelimited) hcut, hrest⟩
      · have hmalformed : IsMalformed run after := ⟨hne, hrun, hdelimited, hwhole⟩
        exact ⟨position, run ++ after, [], .done, .inr ⟨run, after, rfl, hmalformed⟩⟩
termination_by text.length
decreasing_by all_goals simp only [List.length_cons]; omega

/-! ## Tokens and pieces -/

/-- The pieces of a text without their positions. -/
lemma map_snd_locate (position : Nat) (pieces : List (List Char)) :
    (locate position pieces).map (·.2) = pieces := by
  induction pieces generalizing position with
  | nil => rfl
  | cons piece pieces ih => rw [locate, List.map_cons, ih]

/-- The pieces in front of the rest of a text that is cut up to there: their runs are numerals and
names, and the tokens are those that are not blank. -/
lemma PartialCut.exists_pieces {stop : Nat} {rest : List Char}
    (h : PartialCut stop rest position text tokens) :
    ∃ before, locate position (pieces text) = before ++ locate stop (pieces rest) ∧
      (∀ p ∈ before, IsRun p.2 → IsNumeralOrName p.2) ∧
      tokens.map (fun t => (t.position, t.lexeme.chars)) =
        before.filter fun p => !isBlankText p.2 := by
  induction h with
  | done => exact ⟨[], rfl, by simp, rfl⟩
  | @blank position c text tokens hc _ ih =>
    obtain ⟨before, hpieces, hwhole, hsolid⟩ := ih
    have hdelimiter := isDelimiter_of_isBlank hc
    have hblank : isBlankText [c] = true := by simp [isBlankText, hc]
    refine ⟨(position, [c]) :: before, ?_, ?_, ?_⟩
    · rw [pieces_delimiter hdelimiter, locate, List.length_singleton, hpieces, List.cons_append]
    · exact List.forall_mem_cons.mpr
        ⟨fun hrun => absurd hrun (not_isRun_delimiter hdelimiter), hwhole⟩
    · rw [hsolid, List.filter_cons_of_neg (by simp [hblank])]
  | @lexeme position l text tokens hl hword _ ih =>
    obtain ⟨before, hpieces, hwhole, hsolid⟩ := ih
    refine ⟨(position, l.chars) :: before, ?_, ?_, ?_⟩
    · rw [pieces_chars hl hword, locate, hpieces, List.cons_append]
    · refine List.forall_mem_cons.mpr ⟨fun hrun => ?_, hwhole⟩
      rcases run_or_symbol hl with ⟨-, -, hword⟩ | ⟨c, hchars, hc⟩
      · exact hword
      · rw [hchars] at hrun
        exact absurd hrun (not_isRun_delimiter (isDelimiter_of_ofSymbol? hc))
    · rw [List.map_cons, hsolid, List.filter_cons_of_pos (by simp [isBlankText_chars hl])]

/-! ## Which texts can be cut -/

/-- The runs of a text that is cut are numerals and names. -/
lemma Cut.isNumeralOrName_of_mem_pieces (h : Cut position text tokens) :
    ∀ piece ∈ pieces text, IsRun piece → IsNumeralOrName piece := by
  obtain ⟨found, -, hcut⟩ := h.exists_partialCut
  obtain ⟨before, hpieces, hwhole, -⟩ := hcut.exists_pieces
  rw [pieces_nil, locate, List.append_nil] at hpieces
  rw [← map_snd_locate position (pieces text), hpieces]
  exact List.forall_mem_map.mpr hwhole

/-- A text whose runs are numerals and names is cut. -/
lemma exists_cut (text : List Char)
    (h : ∀ piece ∈ pieces text, IsRun piece → IsNumeralOrName piece) (position : Nat) :
    ∃ tokens, Cut position text tokens := by
  obtain ⟨stop, rest, found, hcut, rfl | ⟨run, after, rfl, hrun⟩⟩ := exists_partialCut text position
  · exact ⟨_, hcut.cut (.done stop)⟩
  · -- The malformed run would be one of the pieces.
    obtain ⟨before, hpieces, -⟩ := hcut.exists_pieces
    have hmem : run ∈ pieces text := by
      rw [← map_snd_locate position (pieces text), hpieces, hrun.pieces_append]
      simp [locate]
    exact absurd (h run hmem hrun.isRun) hrun.not_isNumeralOrName

/-- A text is cut if and only if each of its runs is a numeral or a name. -/
lemma exists_cut_iff : (∃ tokens, Cut position text tokens) ↔
    ∀ piece ∈ pieces text, IsRun piece → IsNumeralOrName piece :=
  ⟨fun ⟨_, h⟩ => h.isNumeralOrName_of_mem_pieces, fun h => exists_cut text h position⟩

/-- The tokens of a cut are the solid pieces of the text in their places, and the end of the input
behind them. -/
lemma Cut.map_eq_solidPieces (h : Cut position text tokens) :
    ∃ front : List Token, tokens = front ++ [⟨.endOfInput, position + text.length⟩] ∧
      front.map (fun t => (t.position, t.lexeme.chars)) = solidPiecesFrom position text ∧
      ∀ t ∈ front, t.lexeme ≠ .endOfInput := by
  obtain ⟨front, htokens, hcut⟩ := h.exists_partialCut
  obtain ⟨before, hpieces, -, hsolid⟩ := hcut.exists_pieces
  rw [pieces_nil, locate, List.append_nil] at hpieces
  exact ⟨front, htokens, by rw [hsolid, solidPiecesFrom, hpieces], hcut.ne_endOfInput⟩

/-! ## The places of the tokens -/

/-- What a text has behind its beginning. -/
lemma extract_append {before : List Char} (hbefore : before.length = position) (text : List Char)
    (stop : Nat) : (before ++ text).extract position stop = text.take (stop - position) := by
  rw [List.extract_eq_take_drop, ← hbefore, List.drop_left]

/-- The characters of each token are in the text where the token is. -/
lemma Cut.extract_eq_chars (h : Cut position text tokens) (before : List Char)
    (hbefore : before.length = position) :
    ∀ t ∈ tokens,
      (before ++ text).extract t.position (t.position + t.lexeme.chars.length) =
        t.lexeme.chars := by
  induction h generalizing before with
  | done position => simp [Lexeme.chars]
  | @blank position c text tokens _ _ ih =>
    rw [List.append_cons]
    exact ih _ (by simp [hbefore])
  | @lexeme position l text tokens _ _ _ ih =>
    refine List.forall_mem_cons.mpr ⟨?_, ?_⟩
    · rw [extract_append hbefore, Nat.add_sub_cancel_left, List.take_left]
    · rw [← List.append_assoc]
      exact ih _ (by simp [hbefore])

/-- There are only blank characters in front of the first token. -/
lemma Cut.exists_head (h : Cut position text tokens) :
    ∃ t rest, tokens = t :: rest ∧ position ≤ t.position ∧
      isBlankText (text.take (t.position - position)) = true := by
  induction h with
  | done position => exact ⟨_, _, rfl, Nat.le_refl _, by simp [isBlankText]⟩
  | @blank position c text tokens hc _ ih =>
    obtain ⟨t, rest, htokens, hle, hblank⟩ := ih
    refine ⟨t, rest, htokens, by omega, ?_⟩
    rw [show t.position - position = t.position - (position + 1) + 1 by omega, List.take_succ_cons]
    simp only [isBlankText, List.all_cons, hc, Bool.true_and] at hblank ⊢
    exact hblank
  | @lexeme position l text tokens _ _ _ _ =>
    exact ⟨_, _, rfl, Nat.le_refl _, by simp [isBlankText]⟩

/-- Each token begins behind the one before it, with only blank characters between them. -/
lemma Cut.isChain (h : Cut position text tokens) (before : List Char)
    (hbefore : before.length = position) :
    tokens.IsChain fun t u => t.position + t.lexeme.chars.length ≤ u.position ∧ isBlankText
      ((before ++ text).extract (t.position + t.lexeme.chars.length) u.position) = true := by
  induction h generalizing before with
  | done position => exact .singleton _
  | @blank position c text tokens _ _ ih =>
    rw [List.append_cons]
    exact ih _ (by simp [hbefore])
  | @lexeme position l text tokens _ _ hrest ih =>
    -- What is between this token and the next one is the beginning of the text behind this one.
    have hfront : (before ++ l.chars).length = position + l.chars.length := by simp [hbefore]
    have hchain := ih _ hfront
    rw [List.append_assoc] at hchain
    obtain ⟨t, rest, rfl, hle, hblank⟩ := hrest.exists_head
    refine List.isChain_cons_cons.mpr ⟨⟨hle, ?_⟩, hchain⟩
    rwa [← List.append_assoc, extract_append hfront]

/-- No token begins before the text does. -/
lemma Cut.le_position (h : Cut position text tokens) : ∀ t ∈ tokens, position ≤ t.position := by
  induction h with
  | done position => simp
  | blank _ _ ih => exact fun t ht => Nat.le_of_succ_le (ih t ht)
  | lexeme _ _ _ ih =>
    refine List.forall_mem_cons.mpr ⟨Nat.le_refl _, fun t ht => ?_⟩
    exact Nat.le_of_add_right_le (ih t ht)

/-- The positions of the tokens are strictly increasing. -/
lemma Cut.pairwise_position (h : Cut position text tokens) :
    tokens.Pairwise fun t u => t.position < u.position := by
  induction h with
  | done position => exact List.pairwise_singleton _ _
  | blank _ _ ih => exact ih
  | @lexeme position l text tokens hl _ hrest ih =>
    refine List.pairwise_cons.mpr ⟨fun t ht => ?_, ih⟩
    have hpositive := List.length_pos_iff.mpr (chars_ne_nil hl)
    exact Nat.lt_of_lt_of_le (Nat.lt_add_of_pos_right hpositive) (hrest.le_position t ht)

/-- Tokens of a text that are at the same position are the same one. -/
lemma Cut.eq_of_position_eq {before before' : List Token} {t t' : Token}
    {after after' : List Token} (h : Cut position text (before ++ t :: after))
    (htokens : before ++ t :: after = before' ++ t' :: after')
    (hposition : t.position = t'.position) :
    before = before' ∧ t = t' ∧ after = after' := by
  obtain ⟨-, hlater, hearlier⟩ := List.pairwise_append.mp h.pairwise_position
  have hnotBefore : t'.position ∉ before.map (·.position) := by
    intro hmem
    obtain ⟨u, hu, heq⟩ := List.mem_map.mp hmem
    have hlt := hearlier u hu t (by simp)
    omega
  have hnotAfter : t'.position ∉ after.map (·.position) := by
    intro hmem
    obtain ⟨u, hu, heq⟩ := List.mem_map.mp hmem
    have hlt := (List.pairwise_cons.mp hlater).1 u hu
    omega
  have hmap := congrArg (List.map (·.position)) htokens
  simp only [List.map_append, List.map_cons] at hmap
  obtain ⟨hlength, -, -⟩ := (List.append_cons_inj_of_notMem hnotBefore hnotAfter).mp hmap
  have hbefore := congrArg List.length hlength
  simp only [List.length_map] at hbefore
  obtain ⟨rfl, hcons⟩ := List.append_inj htokens hbefore
  exact ⟨rfl, List.cons.inj hcons⟩

/-- **The scan recognises the lexical language and loses nothing.** It succeeds exactly if every run
of a text is a numeral or a name. Its tokens are then the runs and symbols of the text in their
places, each of the kind that its characters have, with the end of the input behind them. The text
of a token is in the source where the token is, and only blank characters are between the tokens. -/
theorem scan_cuts_into_pieces (source : String) :
    ((∃ tokens, scan source = .ok tokens) ↔
        ∀ piece ∈ pieces source.toList, IsRun piece → IsNumeralOrName piece) ∧
      ∀ tokens, scan source = .ok tokens →
        (∃ front : List Token, tokens = front ++ [⟨.endOfInput, source.length⟩] ∧
          front.map (fun t => (t.position, t.text.toList)) = solidPieces source.toList ∧
          ∀ t ∈ front, (t.kind = .number ∧ ∃ n : Numeral, n.chars = t.text.toList) ∨
            (t.kind = .var ∧ SumProduct.isWord t.text.toList = true) ∨
            ∃ c, t.text.toList = [c] ∧ Lexeme.ofSymbol? c = some t.lexeme) ∧
        (∀ t ∈ tokens, source.toList.extract t.position (t.position + t.text.length) =
          t.text.toList) ∧
        (tokens.Pairwise fun t u => t.position < u.position) ∧
        tokens.IsChain fun t u => t.position + t.text.length ≤ u.position ∧
          isBlankText (source.toList.extract (t.position + t.text.length) u.position) = true := by
  have htext : ∀ t : Token, t.text.toList = t.lexeme.chars := fun t => String.toList_ofList
  have hlength : ∀ t : Token, t.text.length = t.lexeme.chars.length := fun t => by
    rw [← String.length_toList, htext]
  simp only [scan, scanFrom_eq_ok_iff, htext, hlength]
  refine ⟨exists_cut_iff, fun tokens hcut => ⟨?_, ?_, ?_, ?_⟩⟩
  · obtain ⟨front, htokens, hmap, hends⟩ := hcut.map_eq_solidPieces
    rw [Nat.zero_add, String.length_toList] at htokens
    exact ⟨front, htokens, hmap, fun t ht => numeral_name_or_symbol (hends t ht)⟩
  · simpa using hcut.extract_eq_chars [] rfl
  · exact hcut.pairwise_position
  · simpa using hcut.isChain [] rfl

end Token

end SumProduct
