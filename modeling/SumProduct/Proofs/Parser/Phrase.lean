import Mathlib.Algebra.Order.Ring.Nat
import SumProduct.Parser.Production
import SumProduct.Proofs.Text.Class
import SumProduct.Proofs.Text.Nesting

/-!
# Phrases

The grammar of expressions, independent of how expressions are read. A phrase of a production is a
sequence of lexemes that derives an expression: factors are numbers, variables and expressions in
parentheses; a chain is one or more operands joined by an operator, grouped from the left.
Parentheses leave no trace in the expression.

## Main definitions

* `SumProduct.Phrase` — the lexemes that derive an expression.
* `SumProduct.Lexeme.spell` — the characters of lexemes one after the other.
* `SumProduct.Lexeme.peak` — the largest number of parentheses open at once in lexemes.

## Main results

* `SumProduct.Phrase.balanced` — phrases close the parentheses that they open.
* `SumProduct.Phrase.peak_group`, `SumProduct.Phrase.peak_snoc` — how deep parentheses are nested in
  a phrase.
-/

namespace SumProduct

universe u

/-- The characters of lexemes one after the other. -/
def Lexeme.spell (lexemes : List Lexeme) : List Char := lexemes.flatMap Lexeme.chars

/-- The largest number of parentheses open at once in lexemes. -/
def Lexeme.peak (lexemes : List Lexeme) : Nat := Nesting.peakFrom 0 (spell lexemes)

open Production in
/-- The lexemes of a production that derive an expression, where `constant?` gives the constants
that numerals stand for. -/
inductive Phrase {α : Type u} (constant? : Numeral → Option α) :
    Production → List Lexeme → Expr α → Prop
  /-- A number is a factor. -/
  | number {numeral : Numeral} {value : α} (hvalue : constant? numeral = some value) :
      Phrase constant? factor [.number numeral] (.constant value)
  /-- A variable is a factor. -/
  | var (name : Name) : Phrase constant? factor [.var name] (.var name)
  /-- An expression in parentheses is a factor. -/
  | group {ls : List Lexeme} {e : Expr α} (hinner : Phrase constant? expression ls e) :
      Phrase constant? factor (.leftParen :: ls ++ [.rightParen]) e
  /-- One operand is a chain. -/
  | single {op : Op} {operand : Production} {ls : List Lexeme} {e : Expr α}
      (hoperand : Phrase constant? operand ls e) : Phrase constant? (chain op operand) ls e
  /-- A chain with one more operand is a chain. -/
  | snoc {op : Op} {operand : Production} {ls ms : List Lexeme} {a b : Expr α}
      (hchain : Phrase constant? (chain op operand) ls a)
      (hoperand : Phrase constant? operand ms b) :
      Phrase constant? (chain op operand) (ls ++ .operator op :: ms) (.binary op a b)

variable {α : Type u} {constant? : Numeral → Option α} {p : Production} {ls : List Lexeme}
  {e : Expr α}

/-! ## The lexemes of a phrase -/

/-- A phrase begins with a number, a variable or an opening parenthesis. -/
lemma Phrase.exists_cons (h : Phrase constant? p ls e) :
    ∃ l rest, ls = l :: rest ∧ l ≠ .rightParen ∧ l ≠ .endOfInput ∧ ∀ op, l ≠ .operator op := by
  induction h with
  | number | var | group => exact ⟨_, _, rfl, by simp, by simp, by simp⟩
  | single _ ih => exact ih
  | snoc _ _ ihc _ =>
    obtain ⟨l, rest, rfl, hl⟩ := ihc
    exact ⟨l, _, rfl, hl⟩

/-- The end of the input is in no phrase. -/
lemma Phrase.endOfInput_notMem (h : Phrase constant? p ls e) : .endOfInput ∉ ls := by
  induction h with
  | number | var => simp
  | group _ ih => simpa using ih
  | single _ ih => exact ih
  | snoc _ _ ihc iho => simp [ihc, iho]

/-! ## Nesting -/

/-- The characters of lexemes put together. -/
@[simp] lemma Lexeme.spell_append (ls ms : List Lexeme) : spell (ls ++ ms) = spell ls ++ spell ms :=
  List.flatMap_append

/-- The characters of a lexeme and those behind it. -/
@[simp] lemma Lexeme.spell_cons (l : Lexeme) (ls : List Lexeme) :
    spell (l :: ls) = l.chars ++ spell ls :=
  List.flatMap_cons

/-- No lexemes have no characters. -/
@[simp] lemma Lexeme.spell_nil : spell [] = [] := rfl

/-- Only the parentheses are written with parentheses. -/
lemma Lexeme.notMem_chars {l : Lexeme} (hopen : l ≠ .leftParen) (hclose : l ≠ .rightParen) :
    '(' ∉ l.chars ∧ ')' ∉ l.chars := by
  cases l with
  | number n =>
    exact ⟨n.notMem_chars (by decide) (by decide), n.notMem_chars (by decide) (by decide)⟩
  | var n => exact ⟨n.notMem_text (by decide), n.notMem_text (by decide)⟩
  | operator op => cases op <;> decide
  | leftParen => exact absurd rfl hopen
  | rightParen => exact absurd rfl hclose
  | endOfInput => decide

/-- Every other lexeme is a balanced text. -/
lemma Lexeme.balanced_chars {l : Lexeme} (hopen : l ≠ .leftParen) (hclose : l ≠ .rightParen) :
    Nesting.Balanced l.chars 0 :=
  Nesting.balanced_zero (notMem_chars hopen hclose).1 (notMem_chars hopen hclose).2

/-- A lexeme that is no parenthesis opens none. -/
lemma Lexeme.peak_singleton {l : Lexeme} (hopen : l ≠ .leftParen) (hclose : l ≠ .rightParen) :
    peak [l] = 0 := by
  simpa [peak] using (balanced_chars hopen hclose).peakFrom_eq

/-- An operator between two balanced sequences. -/
lemma Lexeme.balanced_operator {ls ms : List Lexeme} {m n : Nat}
    (hleft : Nesting.Balanced (spell ls) m) (op : Op) (hright : Nesting.Balanced (spell ms) n) :
    Nesting.Balanced (spell (ls ++ .operator op :: ms)) (max m n) := by
  have hop : Nesting.Balanced (chars (.operator op)) 0 := balanced_chars (by simp) (by simp)
  rw [spell_append, spell_cons]
  simpa using hleft.append (hop.append hright)

/-- A balanced sequence in parentheses. -/
lemma Lexeme.balanced_group {ls : List Lexeme} {n : Nat} (h : Nesting.Balanced (spell ls) n) :
    Nesting.Balanced (spell (.leftParen :: ls ++ [.rightParen])) (n + 1) := by
  simpa [chars] using h.group

/-- A phrase closes the parentheses that it opens, and no others. -/
theorem Phrase.balanced (h : Phrase constant? p ls e) :
    Nesting.Balanced (Lexeme.spell ls) (Lexeme.peak ls) := by
  have hexists : ∃ n, Nesting.Balanced (Lexeme.spell ls) n := by
    induction h with
    | number | var =>
      exact ⟨0, by simpa using Lexeme.balanced_chars (by simp) (by simp)⟩
    | group _ ih => exact ih.imp' (· + 1) fun n hn => Lexeme.balanced_group hn
    | single _ ih => exact ih
    | snoc _ _ ihc iho =>
      obtain ⟨m, hm⟩ := ihc
      obtain ⟨n, hn⟩ := iho
      exact ⟨max m n, Lexeme.balanced_operator hm _ hn⟩
  obtain ⟨n, hn⟩ := hexists
  rwa [Lexeme.peak, hn.peakFrom_eq]

/-- Parentheses around a phrase are one level more. -/
lemma Phrase.peak_group (h : Phrase constant? p ls e) :
    Lexeme.peak (.leftParen :: ls ++ [.rightParen]) = Lexeme.peak ls + 1 :=
  (Lexeme.balanced_group h.balanced).peakFrom_eq

/-- Two phrases around an operator are nested as deep as the deeper one. -/
lemma Phrase.peak_snoc {q : Production} {ms : List Lexeme} {f : Expr α}
    (hleft : Phrase constant? p ls e) (op : Op) (hright : Phrase constant? q ms f) :
    Lexeme.peak (ls ++ .operator op :: ms) = max (Lexeme.peak ls) (Lexeme.peak ms) :=
  (Lexeme.balanced_operator hleft.balanced op hright.balanced).peakFrom_eq

end SumProduct
