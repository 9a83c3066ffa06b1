import SumProduct.Proofs.Token.Cut

/-!
# Partial cuts

A text may be cut up to some place and be left alone from there on. What is cut off in front are
blank characters and lexemes, as in a whole cut, and the scan finds these lexemes whatever becomes
of the rest.

## Main definitions

* `SumProduct.Token.PartialCut` — the tokens that a text is cut into up to the rest of it.

## Main results

* `SumProduct.Token.PartialCut.scanFrom_eq` — the scan puts these tokens in front of what it makes
  of the rest.
* `SumProduct.Token.PartialCut.exists_front` — the rest may be exchanged for any other, if this
  leaves words delimited.
-/

namespace SumProduct

namespace Token

/-- The tokens that a text is cut into up to the rest of it, where so many characters stand before
the rest and before the text. -/
inductive PartialCut (stop : Nat) (rest : List Char) : Nat → List Char → List Token → Prop
  /-- The rest itself. -/
  | done : PartialCut stop rest stop rest []
  /-- A blank character is dropped. -/
  | blank {position : Nat} {c : Char} {text : List Char} {found : List Token}
      (hc : isBlank c = true) (hrest : PartialCut stop rest (position + 1) text found) :
      PartialCut stop rest position (c :: text) found
  /-- The characters of a lexeme, with a delimiter behind a word. -/
  | lexeme {position : Nat} {l : Lexeme} {text : List Char} {found : List Token}
      (hl : l ≠ .endOfInput) (hword : l.isWord = true → isDelimited text = true)
      (hrest : PartialCut stop rest (position + l.chars.length) text found) :
      PartialCut stop rest position (l.chars ++ text) (⟨l, position⟩ :: found)

variable {stop position : Nat} {rest text : List Char} {found tokens : List Token}

/-- A symbol in front of a text that is cut up to its rest. -/
lemma PartialCut.symbol {c : Char} {l : Lexeme} (hl : Lexeme.ofSymbol? c = some l)
    (h : PartialCut stop rest (position + 1) text found) :
    PartialCut stop rest position (c :: text) (⟨l, position⟩ :: found) := by
  have hchars := Lexeme.chars_of_ofSymbol? hl
  obtain ⟨hword, hend⟩ := Lexeme.isWord_of_ofSymbol? hl
  have hcut : PartialCut stop rest position (l.chars ++ text) (⟨l, position⟩ :: found) :=
    .lexeme hend (by simp [hword]) (by rwa [hchars])
  rwa [hchars] at hcut

/-- The tokens of a partial cut are lexemes of the text. -/
lemma PartialCut.ne_endOfInput (h : PartialCut stop rest position text found) :
    ∀ t ∈ found, t.lexeme ≠ .endOfInput := by
  induction h with
  | done => simp
  | blank _ _ ih => exact ih
  | lexeme hl _ _ ih => exact List.forall_mem_cons.mpr ⟨hl, ih⟩

/-- The scan of a text puts the tokens of a partial cut in front of what it makes of the rest. -/
lemma PartialCut.scanFrom_eq (h : PartialCut stop rest position text found) :
    scanFrom position text = (scanFrom stop rest).map (found ++ ·) := by
  induction h with
  | done => cases scanFrom stop rest <;> rfl
  | blank hc _ ih => rw [scanFrom_cons, if_pos hc, ih]
  | lexeme hl hword _ ih =>
    rw [scanFrom_lexeme hl hword, ih]
    cases scanFrom stop rest <;> rfl

/-- A partial cut is completed by a cut of the rest. -/
lemma PartialCut.cut (h : PartialCut stop rest position text found) (hrest : Cut stop rest tokens) :
    Cut position text (found ++ tokens) :=
  cut_of_scanFrom (by rw [h.scanFrom_eq, hrest.scanFrom_eq]; rfl)

/-- A cut is a partial one up to the end of the text, and the end of the input behind it. -/
lemma Cut.exists_partialCut (h : Cut position text tokens) :
    ∃ found, tokens = found ++ [⟨.endOfInput, position + text.length⟩] ∧
      PartialCut (position + text.length) [] position text found := by
  induction h with
  | done position => exact ⟨[], rfl, .done⟩
  | @blank position c text tokens hc _ ih =>
    obtain ⟨found, htokens, hcut⟩ := ih
    rw [Nat.add_right_comm, Nat.add_assoc, ← List.length_cons (a := c)] at htokens hcut
    exact ⟨found, htokens, .blank hc hcut⟩
  | @lexeme position l text tokens hl hword _ ih =>
    obtain ⟨found, rfl, hcut⟩ := ih
    rw [Nat.add_assoc, ← List.length_append] at hcut ⊢
    exact ⟨⟨l, position⟩ :: found, rfl, .lexeme hl hword hcut⟩

/-- What a partial cut has cut off is what stands before the rest. The rest may be exchanged for
another one, unless this takes a delimiter away from the last word. -/
lemma PartialCut.exists_front (h : PartialCut stop rest position text found) :
    ∃ front, text = front ++ rest ∧ stop = position + front.length ∧
      ∀ rest', (isDelimited rest = true → isDelimited rest' = true) →
        PartialCut stop rest' position (front ++ rest') found := by
  induction h with
  | done => exact ⟨[], rfl, rfl, fun rest' _ => .done⟩
  | @blank position c text found hc _ ih =>
    obtain ⟨front, rfl, hstop, hcut⟩ := ih
    exact ⟨c :: front, rfl, by rw [hstop, List.length_cons]; omega,
      fun rest' hrest' => .blank hc (hcut rest' hrest')⟩
  | @lexeme position l text found hl hword _ ih =>
    obtain ⟨front, rfl, hstop, hcut⟩ := ih
    refine ⟨l.chars ++ front, by rw [List.append_assoc], ?_, fun rest' hrest' => ?_⟩
    · rw [hstop, List.length_append, Nat.add_assoc]
    · rw [List.append_assoc]
      refine .lexeme hl (fun h => ?_) (hcut rest' hrest')
      -- Only where the front has been used up does the delimiter belong to the rest.
      cases front with
      | nil => exact hrest' (hword h)
      | cons c front => exact hword h

end Token

end SumProduct
