import SumProduct.Proofs.Parser.Phrase

/-!
# How a text is cut

The scan of a text as a relation: blank characters are dropped, and every other piece of the text is
the characters of one lexeme, which has to be delimited if it is a word. The relation says nothing
of how long a piece is looked for, and yet the text has one cut at most.

## Main definitions

* `SumProduct.Token.Cut` — the tokens that a text is cut into.
* `SumProduct.Lexeme.isWord` — the lexemes that need a delimiter behind them.
* `SumProduct.SyntaxFault.IsLexical` — the faults of a text that has no cut.

## Main results

* `SumProduct.Token.scanned_scanFrom` — the scan gives a cut or a lexical fault.
* `SumProduct.Token.scanFrom_eq_ok_iff` — the scan finds the cut.
* `SumProduct.Token.Cut.exists_lexemes` — the end of the input comes last, and only there.
* `SumProduct.Token.Cut.peakFrom_eq` — the parentheses of the text are those of the tokens.
-/

namespace SumProduct

/-- Numerals and names are words. -/
def Lexeme.isWord : Lexeme → Bool
  | number _ => true
  | var _ => true
  | operator _ => false
  | leftParen => false
  | rightParen => false
  | endOfInput => false

/-- The faults of cutting a text into tokens. -/
def SyntaxFault.IsLexical : SyntaxFault → Prop
  | invalidCharacter _ => True
  | malformedNumber _ => True
  | malformedVariable _ => True
  | _ => False

/-- Every other lexeme but the end of the input is a symbol. -/
lemma Lexeme.exists_ofSymbol? {l : Lexeme} (hword : l.isWord = false) (hl : l ≠ .endOfInput) :
    ∃ c, l.chars = [c] ∧ ofSymbol? c = some l := by
  cases l with
  | number _ | var _ => cases hword
  | operator op => cases op <;> exact ⟨_, rfl, rfl⟩
  | leftParen | rightParen => exact ⟨_, rfl, rfl⟩
  | endOfInput => exact absurd rfl hl

/-- A symbol is no word and not the end of the input. -/
lemma Lexeme.isWord_of_ofSymbol? {l : Lexeme} {c : Char} (h : ofSymbol? c = some l) :
    l.isWord = false ∧ l ≠ .endOfInput := by
  unfold ofSymbol? at h
  split_ifs at h <;> cases h <;> exact ⟨rfl, by simp⟩

namespace Token

/-- The tokens that a text is cut into, where so many characters stand before it. -/
inductive Cut : Nat → List Char → List Token → Prop
  /-- The end of the text. -/
  | done (position : Nat) : Cut position [] [⟨.endOfInput, position⟩]
  /-- A blank character is dropped. -/
  | blank {position : Nat} {c : Char} {text : List Char} {tokens : List Token}
      (hc : isBlank c = true) (hrest : Cut (position + 1) text tokens) :
      Cut position (c :: text) tokens
  /-- The characters of a lexeme, with a delimiter behind a word. -/
  | lexeme {position : Nat} {l : Lexeme} {text : List Char} {tokens : List Token}
      (hl : l ≠ .endOfInput) (hword : l.isWord = true → isDelimited text = true)
      (hrest : Cut (position + l.chars.length) text tokens) :
      Cut position (l.chars ++ text) (⟨l, position⟩ :: tokens)

/-- A symbol in front of a text that is cut. -/
lemma Cut.symbol {position : Nat} {c : Char} {l : Lexeme} {text : List Char} {tokens : List Token}
    (hl : Lexeme.ofSymbol? c = some l) (hrest : Cut (position + 1) text tokens) :
    Cut position (c :: text) (⟨l, position⟩ :: tokens) := by
  have hchars := Lexeme.chars_of_ofSymbol? hl
  obtain ⟨hword, hend⟩ := Lexeme.isWord_of_ofSymbol? hl
  have hcut : Cut position (l.chars ++ text) (⟨l, position⟩ :: tokens) :=
    .lexeme hend (by simp [hword]) (by rwa [hchars])
  rwa [hchars] at hcut

/-! ## Equations of the scan -/

/-- The scan at the end of a text. -/
lemma scanFrom_nil (position : Nat) : scanFrom position [] = .ok [⟨.endOfInput, position⟩] :=
  scanFrom.eq_def position []

/-- The scan at a character. -/
lemma scanFrom_cons (position : Nat) (c : Char) (rest : List Char) :
    scanFrom position (c :: rest) =
      if isBlank c then scanFrom (position + 1) rest
      else
        match Lexeme.ofSymbol? c with
        | some symbol => (scanFrom (position + 1) rest).map (⟨symbol, position⟩ :: ·)
        | none =>
          if h : isDigit c = true then
            if isDelimited (Numeral.split c rest h).2 then
              (scanFrom (position + (Numeral.split c rest h).1.chars.length)
                (Numeral.split c rest h).2).map
                  (⟨.number (Numeral.split c rest h).1, position⟩ :: ·)
            else .error ⟨.malformedNumber (String.ofList (run (c :: rest))), position⟩
          else if h : isLetter c = true then
            if isDelimited (rest.dropWhile isLetter) then
              (scanFrom (position + 1 + (rest.takeWhile isLetter).length)
                (rest.dropWhile isLetter)).map (⟨.var (leadingName c rest h), position⟩ :: ·)
            else .error ⟨.malformedVariable (String.ofList (run (c :: rest))), position⟩
          else .error ⟨.invalidCharacter c, position⟩ :=
  scanFrom.eq_def position (c :: rest)

/-! ## Words and what is behind them -/

/-- A text in front of a delimited text is delimited if it is so alone. -/
lemma isDelimited_append {text rest : List Char} (htext : isDelimited text = true)
    (hrest : isDelimited rest = true) : isDelimited (text ++ rest) = true := by
  cases text with
  | nil => exact hrest
  | cons c text => exact htext

/-- A blank text is delimited. -/
lemma isDelimited_of_isBlankText {gap : List Char} (h : isBlankText gap = true) :
    isDelimited gap = true := by
  cases gap with
  | nil => rfl
  | cons c gap =>
    simp only [isBlankText, List.all_cons, Bool.and_eq_true] at h
    exact isDelimiter_of_isBlank h.1

/-- Behind a run of characters of a class, the run is what the text begins with. -/
lemma takeWhile_append_of_head {p : Char → Bool} {run text : List Char} (hrun : run.all p = true)
    (htext : ∀ c ∈ text.head?, p c = false) :
    (run ++ text).takeWhile p = run ∧ (run ++ text).dropWhile p = text := by
  have hall := List.all_eq_true.mp hrun
  rw [List.takeWhile_append_of_pos hall, List.dropWhile_append_of_pos hall]
  cases text with
  | nil => simp
  | cons c rest =>
    have hc := htext c rfl
    simp [hc]

/-- A delimited text does not go on with a digit. -/
lemma head_not_isDigit {text : List Char} (h : isDelimited text = true) :
    ∀ c ∈ text.head?, isDigit c = false := by
  intro c hc
  cases text with
  | nil => cases hc
  | cons d rest =>
    obtain rfl : d = c := by simpa using hc
    by_contra hdigit
    rw [isDelimited, isDelimiter_of_isDigit (by simpa using hdigit)] at h
    cases h

/-- A delimited text does not go on with a letter. -/
lemma head_not_isLetter {text : List Char} (h : isDelimited text = true) :
    ∀ c ∈ text.head?, isLetter c = false := by
  intro c hc
  cases text with
  | nil => cases hc
  | cons d rest =>
    obtain rfl : d = c := by simpa using hc
    by_contra hletter
    rw [isDelimited, isDelimiter_of_isLetter (by simpa using hletter)] at h
    cases h

/-- A delimited text does not go on with a fraction. -/
lemma splitFraction_of_isDelimited {text : List Char} (h : isDelimited text = true) :
    Numeral.splitFraction text = ([], text) := by
  unfold Numeral.splitFraction
  split
  · rw [isDelimited] at h
    exact absurd h (by decide)
  · rfl

/-- A text begins with no fraction, or with a point, digits and the rest. -/
lemma splitFraction_cases (text : List Char) :
    Numeral.splitFraction text = ([], text) ∨ ∃ fraction rest, fraction ≠ [] ∧
      text = '.' :: (fraction ++ rest) ∧ Numeral.splitFraction text = (fraction, rest) := by
  unfold Numeral.splitFraction
  split
  · next tail =>
    split
    · exact .inl rfl
    · next hne => exact .inr ⟨_, _, hne, by rw [List.takeWhile_append_dropWhile], rfl⟩
  · exact .inl rfl

/-- The numeral that a text begins with and the text behind it are the text. -/
lemma chars_split_append (c : Char) (text : List Char) (h : isDigit c = true) :
    (Numeral.split c text h).1.chars ++ (Numeral.split c text h).2 = c :: text := by
  have htext := List.takeWhile_append_dropWhile (p := isDigit) (l := text)
  rcases splitFraction_cases (text.dropWhile isDigit) with
    hnone | ⟨fraction, rest, hne, hdrop, hsome⟩
  · simp [Numeral.split, Numeral.chars, hnone, htext]
  · rw [hdrop] at htext
    simp [Numeral.split, Numeral.chars, hsome, hne, htext]

/-- In front of a delimiter, the numeral that its characters begin with is the whole numeral. -/
lemma split_chars {n : Numeral} {text : List Char} (htext : isDelimited text = true) {c : Char}
    {cs : List Char} (hwhole : n.whole = c :: cs) (hc : isDigit c = true)
    {rest : List Char} (hrest : n.chars ++ text = c :: rest) :
    Numeral.split c rest hc = (n, text) := by
  obtain ⟨whole, fraction, hne, hdigits, hfraction⟩ := n
  obtain rfl : whole = c :: cs := hwhole
  simp only [List.all_cons, Bool.and_eq_true] at hdigits
  simp only [Numeral.chars] at hrest
  by_cases hempty : fraction = []
  · subst hempty
    obtain rfl : cs ++ text = rest := by simpa using hrest
    obtain ⟨htake, hdrop⟩ := takeWhile_append_of_head hdigits.2 (head_not_isDigit htext)
    simp [Numeral.split, htake, hdrop, splitFraction_of_isDelimited htext]
  · obtain rfl : cs ++ '.' :: (fraction ++ text) = rest := by simpa [hempty] using hrest
    have hpoint : ∀ c ∈ ('.' :: (fraction ++ text)).head?, isDigit c = false := by
      simp [show isDigit '.' = false by decide]
    obtain ⟨htake, hdrop⟩ := takeWhile_append_of_head hdigits.2 hpoint
    obtain ⟨htake', hdrop'⟩ := takeWhile_append_of_head hfraction (head_not_isDigit htext)
    simp [Numeral.split, Numeral.splitFraction, htake, hdrop, htake', hdrop', hempty]

/-- The name that a text begins with and the text behind it are the text. -/
lemma chars_leadingName_append (c : Char) (text : List Char) (h : isLetter c = true) :
    Lexeme.chars (.var (leadingName c text h)) ++ text.dropWhile isLetter = c :: text := by
  simp [Lexeme.chars, leadingName]

/-- The name that a text begins with takes its first letter and those that follow. -/
lemma length_chars_leadingName (c : Char) (text : List Char) (h : isLetter c = true) :
    (Lexeme.chars (.var (leadingName c text h))).length = 1 + (text.takeWhile isLetter).length := by
  simp [Lexeme.chars, leadingName, Nat.add_comm]

/-! ## The scan finds the cut -/

/-- The scan takes the characters of a lexeme from the front of a text.

**Proof sketch.** A symbol is one character. A word begins with a digit or letter; what is behind it
begins with neither, so the longest run is the word itself. -/
lemma scanFrom_lexeme {l : Lexeme} (hl : l ≠ .endOfInput) {text : List Char}
    (hword : l.isWord = true → isDelimited text = true) (position : Nat) :
    scanFrom position (l.chars ++ text) =
      (scanFrom (position + l.chars.length) text).map (⟨l, position⟩ :: ·) := by
  cases l with
  | number n =>
    have htext := hword rfl
    obtain ⟨c, cs, hwhole⟩ := List.exists_cons_of_ne_nil n.whole_ne_nil
    have hc : isDigit c = true := by
      have hdigits := n.whole_digits
      rw [hwhole, List.all_cons, Bool.and_eq_true] at hdigits
      exact hdigits.1
    obtain ⟨rest, hrest⟩ : ∃ rest, n.chars ++ text = c :: rest := by
      unfold Numeral.chars
      split <;> exact ⟨_, by rw [hwhole]; rfl⟩
    have hsplit := split_chars htext hwhole hc hrest
    rw [Lexeme.chars, hrest, scanFrom_cons]
    simp [isBlank_of_isDigit hc, ofSymbol?_of_isDigit hc, hc, hsplit, htext]
  | var n =>
    have htext := hword rfl
    obtain ⟨c, cs, hname, hc, hcs⟩ := n.exists_letters
    obtain ⟨htake, hdrop⟩ := takeWhile_append_of_head hcs (head_not_isLetter htext)
    have hdigit : isDigit c = false := by
      by_contra h
      exact absurd (hc.symm.trans (isLetter_of_isDigit (by simpa using h))) (by decide)
    have hleading : leadingName c (cs ++ text) hc = n := by
      cases n
      simp_all [leadingName, ← String.toList_inj]
    rw [Lexeme.chars, hname, List.cons_append, scanFrom_cons]
    simp [isBlank_of_isLetter hc, ofSymbol?_of_isLetter hc, hdigit, hc, htake, hdrop, htext,
      hleading, Nat.add_assoc, Nat.add_comm 1]
  | operator _ | leftParen | rightParen =>
    obtain ⟨c, hchars, hc⟩ := Lexeme.exists_ofSymbol? rfl hl
    rw [hchars, List.singleton_append, scanFrom_cons]
    simp [isBlank_of_ofSymbol? (c := c) (by simp [hc]), hc]
  | endOfInput => exact absurd rfl hl

/-- The cut of a text is what the scan gives. -/
lemma Cut.scanFrom_eq {position : Nat} {text : List Char} {tokens : List Token}
    (h : Cut position text tokens) : scanFrom position text = .ok tokens := by
  induction h with
  | done position => exact scanFrom_nil position
  | blank hc _ ih => rw [scanFrom_cons, if_pos hc, ih]
  | lexeme hl hword _ ih =>
    rw [scanFrom_lexeme hl hword, ih]
    rfl

/-- What a scan may give: the tokens of a cut, or a lexical fault. -/
inductive Scanned (position : Nat) (text : List Char) : Except SyntaxError (List Token) → Prop
  /-- The text has a cut. -/
  | ok {tokens : List Token} (h : Cut position text tokens) : Scanned position text (.ok tokens)
  /-- The text has a character that begins nothing, or a malformed word. -/
  | error {err : SyntaxError} (h : err.fault.IsLexical) : Scanned position text (.error err)

/-- A blank character in front changes nothing. -/
lemma Scanned.blank {position : Nat} {c : Char} {text : List Char}
    {x : Except SyntaxError (List Token)} (hc : isBlank c = true)
    (h : Scanned (position + 1) text x) : Scanned position (c :: text) x := by
  cases h with
  | ok hcut => exact .ok (.blank hc hcut)
  | error hfault => exact .error hfault

/-- What is scanned of the rest of a text is scanned of the text with a token in front. -/
lemma Scanned.map {position position' : Nat} {text text' : List Char}
    {x : Except SyntaxError (List Token)} {f : List Token → List Token}
    (h : Scanned position text x)
    (hf : ∀ tokens, Cut position text tokens → Cut position' text' (f tokens)) :
    Scanned position' text' (x.map f) := by
  cases h with
  | ok hcut => exact .ok (hf _ hcut)
  | error hfault => exact .error hfault

/-- **The scan gives a cut or a lexical fault.** -/
lemma scanned_scanFrom (position : Nat) (text : List Char) :
    Scanned position text (scanFrom position text) := by
  induction position, text using scanFrom.induct with
  | case1 position =>
    rw [scanFrom_nil]
    exact .ok (.done position)
  | case2 position c text hc ih =>
    rw [scanFrom_cons, if_pos hc]
    exact ih.blank hc
  | case3 position c text hc l hl ih =>
    rw [scanFrom_cons, if_neg hc, hl]
    exact ih.map fun _ hcut => .symbol hl hcut
  | case4 position c text hc hsymbol hdigit _ _ hdelimited =>
    rename_i ih
    rw [scanFrom_cons, if_neg hc, hsymbol]
    simp only [dif_pos hdigit]
    rw [if_pos hdelimited, ← chars_split_append c text hdigit]
    exact ih.map fun _ hcut => .lexeme (l := .number _) nofun (fun _ => hdelimited) hcut
  | case5 position c text hc hsymbol hdigit _ _ =>
    rename_i hdelimited
    rw [scanFrom_cons, if_neg hc, hsymbol]
    simp only [dif_pos hdigit]
    rw [if_neg hdelimited]
    exact .error trivial
  | case6 position c text hc hsymbol hdigit hletter _ _ hdelimited =>
    rename_i ih
    rw [scanFrom_cons, if_neg hc, hsymbol]
    simp only [dif_neg hdigit, dif_pos hletter]
    rw [if_pos hdelimited, ← chars_leadingName_append c text hletter]
    refine ih.map fun _ hcut => .lexeme nofun (fun _ => hdelimited) ?_
    rw [length_chars_leadingName, ← Nat.add_assoc]
    exact hcut
  | case7 position c text hc hsymbol hdigit hletter _ _ =>
    rename_i hdelimited
    rw [scanFrom_cons, if_neg hc, hsymbol]
    simp only [dif_neg hdigit, dif_pos hletter]
    rw [if_neg hdelimited]
    exact .error trivial
  | case8 position c text hc hsymbol hdigit hletter =>
    rw [scanFrom_cons, if_neg hc, hsymbol]
    simp only [dif_neg hdigit, dif_neg hletter]
    exact .error trivial

/-- The tokens that the scan gives are a cut. -/
lemma cut_of_scanFrom {position : Nat} {text : List Char} {tokens : List Token}
    (h : scanFrom position text = .ok tokens) : Cut position text tokens := by
  have hscanned := scanned_scanFrom position text
  rw [h] at hscanned
  cases hscanned with
  | ok hcut => exact hcut

/-- The fault that the scan meets is lexical. -/
lemma isLexical_of_scanFrom {position : Nat} {text : List Char} {err : SyntaxError}
    (h : scanFrom position text = .error err) : err.fault.IsLexical := by
  have hscanned := scanned_scanFrom position text
  rw [h] at hscanned
  cases hscanned with
  | error hfault => exact hfault

/-- The scan finds the cut of a text. -/
theorem scanFrom_eq_ok_iff {position : Nat} {text : List Char} {tokens : List Token} :
    scanFrom position text = .ok tokens ↔ Cut position text tokens :=
  ⟨cut_of_scanFrom, Cut.scanFrom_eq⟩

/-! ## The tokens of a cut -/

/-- The text of a token has the characters of its lexeme. -/
lemma toList_text (t : Token) : t.text.toList = t.lexeme.chars := String.toList_ofList

/-- The end of the input comes last, and only there. -/
lemma Cut.exists_lexemes {position : Nat} {text : List Char} {tokens : List Token}
    (h : Cut position text tokens) :
    ∃ ls, tokens.map (·.lexeme) = ls ++ [.endOfInput] ∧ Lexeme.endOfInput ∉ ls := by
  induction h with
  | done position => exact ⟨[], rfl, by simp⟩
  | blank _ _ ih => exact ih
  | @lexeme _ l _ _ hl _ _ ih =>
    obtain ⟨ls, htokens, hend⟩ := ih
    exact ⟨l :: ls, by simp [htokens], by simp [hend, hl.symm]⟩

/-- A front that two texts have in common keeps them at the same nesting. -/
lemma peakFrom_append_congr {front text text' : List Char}
    (h : ∀ opened, Nesting.peakFrom opened text = Nesting.peakFrom opened text') (opened : Nat) :
    Nesting.peakFrom opened (front ++ text) = Nesting.peakFrom opened (front ++ text') := by
  induction front generalizing opened with
  | nil => exact h opened
  | cons c front ih =>
    rw [List.cons_append, List.cons_append]
    by_cases hleft : c = '('
    · rw [hleft, Nesting.peakFrom, Nesting.peakFrom, ih]
    by_cases hright : c = ')'
    · rw [hright, Nesting.peakFrom, Nesting.peakFrom, ih]
    rw [Nesting.peakFrom_cons hleft hright, Nesting.peakFrom_cons hleft hright, ih]

/-- The parentheses of a text are those of its tokens. -/
lemma Cut.peakFrom_eq {position : Nat} {text : List Char} {tokens : List Token}
    (h : Cut position text tokens) (opened : Nat) :
    Nesting.peakFrom opened text =
      Nesting.peakFrom opened (Lexeme.spell (tokens.map (·.lexeme))) := by
  induction h generalizing opened with
  | done position => rfl
  | @blank _ c _ _ hc _ ih =>
    rw [Nesting.peakFrom_cons (ne_of_class hc (by decide)) (ne_of_class hc (by decide)), ih]
  | lexeme _ _ _ ih => exact peakFrom_append_congr ih opened

/-- A text and its tokens open as many parentheses. -/
lemma Cut.count_eq {position : Nat} {text : List Char} {tokens : List Token}
    (h : Cut position text tokens) :
    text.count '(' = (Lexeme.spell (tokens.map (·.lexeme))).count '(' := by
  induction h with
  | done position => rfl
  | @blank _ c _ _ hc _ ih =>
    rw [List.count_cons_of_ne (ne_of_class hc (by decide)), ih]
  | lexeme _ _ _ ih => simp [ih]

/-- Blank characters in front of a text are dropped. -/
lemma Cut.blanks {gap : List Char} (hgap : isBlankText gap = true) {position : Nat}
    {text : List Char} {tokens : List Token} (h : Cut (position + gap.length) text tokens) :
    Cut position (gap ++ text) tokens := by
  induction gap generalizing position with
  | nil => exact h
  | cons c gap ih =>
    simp only [isBlankText, List.all_cons, Bool.and_eq_true] at hgap
    rw [List.length_cons, ← Nat.add_assoc, Nat.add_right_comm] at h
    exact .blank hgap.1 (ih hgap.2 h)

/-- A blank text is cut into nothing but the end of the input. -/
lemma cut_of_isBlankText {text : List Char} (h : isBlankText text = true) (position : Nat) :
    Cut position text [⟨.endOfInput, position + text.length⟩] := by
  simpa using Cut.blanks h (.done (position + text.length))

end Token

end SumProduct
