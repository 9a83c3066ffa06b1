import Mathlib.Tactic.Common
import SumProduct.Token

/-!
# Character classes

Digits, letters, blank characters and the four symbols are classes without common characters, and
the characters of numerals and names are digits, letters and the point.

## Main results

* `SumProduct.isBlank_of_isDigit`, `SumProduct.isLetter_of_isDigit`,
  `SumProduct.isBlank_of_isLetter`, `SumProduct.isBlank_of_ofSymbol?` — the classes are disjoint.
* `SumProduct.Lexeme.chars_of_ofSymbol?` — a symbol is written with the character it stands for.
* `SumProduct.Numeral.notMem_chars`, `SumProduct.Name.notMem_text` — symbols occur in no word.
* `SumProduct.Name.text_injective` — a name is known from its text.
-/

namespace SumProduct

variable {c d : Char}

/-! ## Disjoint classes -/

/-- A digit is not blank. -/
lemma isBlank_of_isDigit (h : isDigit c = true) : isBlank c = false := by
  simp only [isDigit, isBlank, Bool.and_eq_true, decide_eq_true_eq, Bool.or_eq_false_iff,
    Bool.and_eq_false_iff, decide_eq_false_iff_not, beq_eq_false_iff_ne] at h ⊢
  omega

/-- A letter is not blank. -/
lemma isBlank_of_isLetter (h : isLetter c = true) : isBlank c = false := by
  simp only [isLetter, isBlank, Bool.and_eq_true, decide_eq_true_eq, Bool.or_eq_true,
    Bool.or_eq_false_iff, Bool.and_eq_false_iff, decide_eq_false_iff_not,
    beq_eq_false_iff_ne] at h ⊢
  omega

/-- A digit is no letter. -/
lemma isLetter_of_isDigit (h : isDigit c = true) : isLetter c = false := by
  simp only [isDigit, isLetter, Bool.and_eq_true, decide_eq_true_eq, Bool.or_eq_false_iff,
    Bool.and_eq_false_iff, decide_eq_false_iff_not] at h ⊢
  omega

/-- A symbol is one of four characters. -/
lemma isSome_ofSymbol?_iff :
    (Lexeme.ofSymbol? c).isSome ↔ c = '+' ∨ c = '*' ∨ c = '(' ∨ c = ')' := by
  unfold Lexeme.ofSymbol?
  split_ifs <;> simp_all

/-- A character of a class is different from a character outside it. -/
lemma ne_of_class {p : Char → Bool} (h : p c = true) (hd : p d = false) : c ≠ d := by
  rintro rfl
  exact absurd (h.symm.trans hd) (by decide)

/-- A digit is no symbol. -/
lemma ofSymbol?_of_isDigit (h : isDigit c = true) : Lexeme.ofSymbol? c = none := by
  rw [← Option.not_isSome_iff_eq_none, isSome_ofSymbol?_iff]
  rintro (hc | hc | hc | hc) <;> exact ne_of_class h (by decide) hc

/-- A letter is no symbol. -/
lemma ofSymbol?_of_isLetter (h : isLetter c = true) : Lexeme.ofSymbol? c = none := by
  rw [← Option.not_isSome_iff_eq_none, isSome_ofSymbol?_iff]
  rintro (hc | hc | hc | hc) <;> exact ne_of_class h (by decide) hc

/-- A symbol is not blank. -/
lemma isBlank_of_ofSymbol? (h : (Lexeme.ofSymbol? c).isSome) : isBlank c = false := by
  rcases isSome_ofSymbol?_iff.mp h with rfl | rfl | rfl | rfl <;> decide

/-- A digit ends no word. -/
lemma isDelimiter_of_isDigit (h : isDigit c = true) : Token.isDelimiter c = false := by
  simp [Token.isDelimiter, isBlank_of_isDigit h, ofSymbol?_of_isDigit h]

/-- A letter ends no word. -/
lemma isDelimiter_of_isLetter (h : isLetter c = true) : Token.isDelimiter c = false := by
  simp [Token.isDelimiter, isBlank_of_isLetter h, ofSymbol?_of_isLetter h]

/-- A blank character ends a word. -/
lemma isDelimiter_of_isBlank (h : isBlank c = true) : Token.isDelimiter c = true := by
  simp [Token.isDelimiter, h]

/-- A symbol ends a word. -/
lemma isDelimiter_of_ofSymbol? {l : Lexeme} (h : Lexeme.ofSymbol? c = some l) :
    Token.isDelimiter c = true := by
  simp [Token.isDelimiter, h]

/-! ## Characters of lexemes -/

/-- A symbol is written with the character that it was found by. -/
lemma Lexeme.chars_of_ofSymbol? {l : Lexeme} (h : ofSymbol? c = some l) : l.chars = [c] := by
  unfold ofSymbol? at h
  split_ifs at h with hplus htimes hleft hright
  all_goals cases h; simp_all [chars, Op.char]

/-- A numeral has digits and the point only. -/
lemma Numeral.isDigit_of_mem_chars {n : Numeral} (h : c ∈ n.chars) :
    isDigit c = true ∨ c = '.' := by
  have hwhole := List.all_eq_true.mp n.whole_digits
  have hfraction := List.all_eq_true.mp n.fraction_digits
  unfold chars at h
  split at h
  · exact .inl (hwhole c h)
  · rcases List.mem_append.mp h with h | h
    · exact .inl (hwhole c h)
    · rcases List.mem_cons.mp h with h | h
      · exact .inr h
      · exact .inl (hfraction c h)

/-- A character that is neither a digit nor the point occurs in no numeral. -/
lemma Numeral.notMem_chars (n : Numeral) (hdigit : isDigit c = false) (hpoint : c ≠ '.') :
    c ∉ n.chars := by
  intro h
  rcases isDigit_of_mem_chars h with h | h
  · exact absurd (h.symm.trans hdigit) (by decide)
  · exact hpoint h

/-- Names with the same text are the same. -/
lemma Name.text_injective : Function.Injective Name.text := by
  rintro ⟨x, hx⟩ ⟨y, hy⟩ rfl
  rfl

/-- A name is a letter and more letters. -/
lemma Name.exists_letters (n : Name) :
    ∃ c cs, n.text.toList = c :: cs ∧ isLetter c = true ∧ cs.all isLetter = true := by
  have hword := n.isWord_text
  unfold isWord at hword
  cases htext : n.text.toList with
  | nil => simp [htext] at hword
  | cons c cs =>
    simp only [htext, List.all_cons, Bool.and_eq_true] at hword
    exact ⟨c, cs, rfl, hword.2.1, hword.2.2⟩

/-- A character that is no letter occurs in no name. -/
lemma Name.notMem_text (n : Name) (hletter : isLetter c = false) : c ∉ n.text.toList := by
  intro h
  obtain ⟨d, cs, htext, hd, hcs⟩ := n.exists_letters
  have hall : (d :: cs).all isLetter = true := by simp [hd, hcs]
  rw [← htext] at hall
  exact absurd ((List.all_eq_true.mp hall c h).symm.trans hletter) (by decide)

end SumProduct
