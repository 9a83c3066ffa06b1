import SumProduct.Proofs.Token.Cut

/-!
# Texts that spell lexemes

A text spells lexemes when it is cut into them wherever it stands, as long as a delimiter or the end
follows. Texts that spell lexemes can be put together: an operator between spaces and parentheses
are delimiters on all sides.

## Main definitions

* `SumProduct.Token.Spells` — the texts that are cut into given lexemes.

## Main results

* `SumProduct.Token.spells_chars`, `SumProduct.Token.Spells.join`, `SumProduct.Token.Spells.group` —
  texts of one lexeme, of two operands and of a group.
* `SumProduct.Token.Spells.blanks_between` — texts with blank characters between them.
* `SumProduct.Token.Spells.exists_scan` — the scan of a text that spells lexemes.
-/

namespace SumProduct

namespace Token

/-- A text spells lexemes: wherever it stands in front of a delimiter, it is cut into tokens of
these lexemes, and what follows is cut as if it stood alone. -/
def Spells (text : List Char) (ls : List Lexeme) : Prop :=
  ∀ position rest tokens, isDelimited rest = true → Cut (position + text.length) rest tokens →
    ∃ front, front.map (·.lexeme) = ls ∧ Cut position (text ++ rest) (front ++ tokens)

/-- The characters of a lexeme spell it. -/
lemma spells_chars {l : Lexeme} (hl : l ≠ .endOfInput) : Spells l.chars [l] := by
  intro position rest tokens hrest hcut
  exact ⟨[⟨l, position⟩], rfl, .lexeme hl (fun _ => hrest) hcut⟩

/-- Blank characters in front of a text. -/
lemma Spells.blanks_left {gap text : List Char} {ls : List Lexeme} (h : Spells text ls)
    (hgap : isBlankText gap = true) : Spells (gap ++ text) ls := by
  intro position rest tokens hrest hcut
  rw [List.length_append, ← Nat.add_assoc] at hcut
  obtain ⟨front, hfront, htext⟩ := h _ _ _ hrest hcut
  rw [List.append_assoc]
  exact ⟨front, hfront, .blanks hgap htext⟩

/-- Blank characters behind a text. -/
lemma Spells.blanks_right {gap text : List Char} {ls : List Lexeme} (h : Spells text ls)
    (hgap : isBlankText gap = true) : Spells (text ++ gap) ls := by
  intro position rest tokens hrest hcut
  rw [List.length_append, ← Nat.add_assoc] at hcut
  obtain ⟨front, hfront, htext⟩ :=
    h _ _ _ (isDelimited_append (isDelimited_of_isBlankText hgap) hrest) (.blanks hgap hcut)
  rw [List.append_assoc]
  exact ⟨front, hfront, htext⟩

/-- Two texts with blank characters between them. -/
lemma Spells.blanks_between {gap s t : List Char} {ls ms : List Lexeme} (hs : Spells s ls)
    (hne : gap ≠ []) (hgap : isBlankText gap = true) (ht : Spells t ms) :
    Spells (s ++ (gap ++ t)) (ls ++ ms) := by
  intro position rest tokens hrest hcut
  rw [List.length_append, ← Nat.add_assoc] at hcut
  obtain ⟨back, rfl, hback⟩ := ht.blanks_left hgap _ _ _ hrest hcut
  have hdelimited : isDelimited (gap ++ t ++ rest) = true := by
    have hfirst := isDelimited_of_isBlankText hgap
    obtain ⟨c, gap, rfl⟩ := List.exists_cons_of_ne_nil hne
    exact hfirst
  obtain ⟨front, rfl, hfront⟩ := hs _ _ _ hdelimited hback
  exact ⟨front ++ back, by simp, by simpa using hfront⟩

/-- Two texts around an operator between spaces. -/
lemma Spells.join {s t : List Char} {ls ms : List Lexeme} (hs : Spells s ls) (op : Op)
    (ht : Spells t ms) : Spells (s ++ ' ' :: op.char :: ' ' :: t) (ls ++ .operator op :: ms) := by
  intro position rest tokens hrest hcut
  have hlength : position + (s ++ ' ' :: op.char :: ' ' :: t).length =
      position + s.length + 1 + 1 + 1 + t.length := by
    simp only [List.length_append, List.length_cons]
    omega
  rw [hlength] at hcut
  obtain ⟨back, rfl, hback⟩ := ht _ _ _ hrest hcut
  have hop : Lexeme.ofSymbol? op.char = some (.operator op) := by cases op <;> rfl
  have hspace : isBlank ' ' = true := by decide
  have hright := Cut.blank hspace (.symbol hop (.blank hspace hback))
  obtain ⟨front, rfl, hfront⟩ := hs _ _ _ (by simp [isDelimited, isDelimiter, hspace]) hright
  exact ⟨front ++ ⟨.operator op, position + s.length + 1⟩ :: back, by simp, by simpa using hfront⟩

/-- A text in parentheses. -/
lemma Spells.group {s : List Char} {ls : List Lexeme} (hs : Spells s ls) :
    Spells ('(' :: s ++ [')']) (.leftParen :: ls ++ [.rightParen]) := by
  intro position rest tokens hrest hcut
  have hlength : position + ('(' :: s ++ [')']).length = position + 1 + s.length + 1 := by
    simp only [List.length_append, List.length_cons, List.length_nil]
    omega
  rw [hlength] at hcut
  have hclose : Lexeme.ofSymbol? ')' = some .rightParen := rfl
  have hopen : Lexeme.ofSymbol? '(' = some .leftParen := rfl
  obtain ⟨inner, rfl, hinner⟩ := hs _ _ _ (by simp [isDelimited, isDelimiter, hclose])
    (Cut.symbol hclose hcut)
  exact ⟨⟨.leftParen, position⟩ :: inner ++ [⟨.rightParen, position + 1 + s.length⟩], by simp,
    by simpa using Cut.symbol hopen hinner⟩

/-- The scan of a text that spells lexemes gives tokens of these lexemes and the end of the input.
-/
lemma Spells.exists_scan {text : String} {ls : List Lexeme} (h : Spells text.toList ls) :
    ∃ tokens, scan text = .ok tokens ∧ tokens.map (·.lexeme) = ls ++ [.endOfInput] := by
  obtain ⟨front, rfl, hcut⟩ := h 0 [] _ rfl (.done _)
  rw [List.append_nil] at hcut
  exact ⟨_, hcut.scanFrom_eq, by simp⟩

end Token

end SumProduct
