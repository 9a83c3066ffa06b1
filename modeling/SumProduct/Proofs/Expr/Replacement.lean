import SumProduct.Proofs.Expr.Grouped
import SumProduct.Proofs.Token.Replacement

/-!
# Replacing a variable by an expression

Replacing the tokens of a variable in a text by another text in parentheses replaces the variable in
the expression by the other expression: what is in parentheses is an operand as a whole, whatever
operators are around it or in it.

## Main definitions

* `SumProduct.Expr.substitute` — the expression with a variable replaced by an expression.

## Main results

* `SumProduct.Phrase.substitute` — replacing a variable in a derivation.
* `SumProduct.Phrase.peak_replace_le` — how deep parentheses are nested after that.
* `SumProduct.Expr.parse_replaceVariable` — replacing a variable in a text.
-/

namespace SumProduct

universe u

variable {α : Type u}

/-- The expression with each leaf of one variable replaced by an expression. -/
def Expr.substitute : Expr α → Name → Expr α → Expr α
  | constant value, _, _ => constant value
  | var name, v, f => if name = v then f else var name
  | binary op left right, v, f => binary op (left.substitute v f) (right.substitute v f)

/-! ## Derivations -/

namespace Phrase

variable {constant? : Numeral → Option α} {p : Production} {ls ms : List Lexeme} {e f : Expr α}

/-- **An expression in parentheses may stand for a variable.** Where the lexemes of a phrase of some
production have a variable replaced by an expression in parentheses, they are a phrase of the same
production, and derive the expression with the variable replaced.

**Proof sketch.** Induction on the derivation. A variable and an expression in parentheses are both
factors; all other steps of the derivation stay as they are. -/
theorem substitute (h : Phrase constant? p ls e) (hf : Phrase constant? .expression ms f)
    (v : Name) :
    Phrase constant? p (ls.flatMap (·.replace v ms)) (e.substitute v f) := by
  induction h with
  | number hvalue => simpa [Expr.substitute] using Phrase.number hvalue
  | var name =>
    rw [List.flatMap_singleton, Lexeme.replace, Expr.substitute]
    by_cases hname : name = v
    · rw [if_pos (congrArg _ hname), if_pos hname]
      exact .group hf
    · rw [if_neg (by simpa using hname), if_neg hname]
      exact .var name
  | group _ ih => simpa using Phrase.group ih
  | single _ ih => exact .single ih
  | snoc _ _ ihc iho => simpa [Expr.substitute] using Phrase.snoc ihc iho

/-- Parentheses are nested no deeper than in the phrase, one level more, and in the expression that
is put in. -/
lemma peak_replace_le (h : Phrase constant? p ls e) (hf : Phrase constant? .expression ms f)
    (v : Name) :
    Lexeme.peak (ls.flatMap (·.replace v ms)) ≤ Lexeme.peak ls + 1 + Lexeme.peak ms := by
  induction h with
  | number hvalue =>
    rw [List.flatMap_singleton, Lexeme.replace_of_ne (by simp)]
    omega
  | var name =>
    rw [List.flatMap_singleton, Lexeme.replace]
    split
    · rw [hf.peak_group]
      omega
    · omega
  | @group ls e hinner ih =>
    have hpeak := (hinner.substitute hf v).peak_group
    have hflat : List.flatMap (·.replace v ms) (.leftParen :: ls ++ [.rightParen]) =
        .leftParen :: ls.flatMap (·.replace v ms) ++ [.rightParen] := by
      simp
    rw [hflat, hpeak, hinner.peak_group]
    omega
  | single _ ih => exact ih
  | @snoc op operand ls ms' a b hchain hoperand ihc iho =>
    have hpeak := (hchain.substitute hf v).peak_snoc op (hoperand.substitute hf v)
    have hflat : List.flatMap (·.replace v ms) (ls ++ .operator op :: ms') =
        ls.flatMap (·.replace v ms) ++ .operator op :: ms'.flatMap (·.replace v ms) := by
      simp
    rw [hflat, hpeak, hchain.peak_snoc op hoperand]
    omega

end Phrase

namespace Expr

/-- **Replacing a variable in a text replaces it in the expression.** Let two texts be parsed under
some limits. Replacing every token of a variable in the first by the second in parentheses gives a
text that is parsed under every limit that allows the nesting of the first text, one level more, and
the nesting of the second. It is parsed as the expression of the first text with every leaf of the
variable replaced by the expression of the second.

**Proof sketch.** The tokens of the new text are those of the first with the tokens of the second,
in parentheses, in the place of the variable (`Token.exists_scan_replaceVariable`). They derive the
expression with the variable replaced (`Phrase.substitute`), as an expression in parentheses is a
factor like the variable itself; so the derivation around it does not matter. -/
theorem parse_replaceVariable (text inner : String) (v : Name)
    (textLimit innerLimit limit : NestingLimit) (e f : Expr Binary64)
    (htext : Expr.parse text textLimit = .ok e) (hinner : Expr.parse inner innerLimit = .ok f)
    (hfits : Nesting.peak text + 1 + Nesting.peak inner ≤ limit.levels) :
    Expr.parse (Token.replaceVariable v inner text) limit = .ok (e.substitute v f) := by
  obtain ⟨tokens, ls, hscan, hlexemes, hphrase, hfinite, -⟩ := accepted_of_parse htext
  obtain ⟨tokens', ms, hscan', hlexemes', hphrase', hfinite', -⟩ := accepted_of_parse hinner
  have hls := phrase_finiteValue?_iff.mpr ⟨hphrase, hfinite⟩
  have hms := phrase_finiteValue?_iff.mpr ⟨hphrase', hfinite'⟩
  obtain ⟨replaced, hreplaced, hmap⟩ :=
    Token.exists_scan_replaceVariable v hscan' hlexemes' hscan hlexemes
  refine Expr.parse_eq_ok hreplaced hmap (hls.substitute hms v) ?_
  rw [peak_eq_of_scan hscan hlexemes, peak_eq_of_scan hscan' hlexemes'] at hfits
  rw [peak_eq_of_scan hreplaced hmap]
  exact (hls.peak_replace_le hms v).trans hfits

open Token in
/-- Replacing `x` by `a + b` in `x * y + x` gives `(a + b) * y + (a + b)`, where the parentheses
keep the sum together as an operand of the product and of the sum. -/
theorem parse_replaceVariable_sum :
    let x : Name := ⟨"x", by decide⟩
    let y : Expr Binary64 := var ⟨"y", by decide⟩
    let f : Expr Binary64 := binary .add (var ⟨"a", by decide⟩) (var ⟨"b", by decide⟩)
    let limit : NestingLimit := ⟨1, by decide⟩
    Expr.parse "x * y + x" limit = .ok (binary .add (binary .mul (var x) y) (var x)) ∧
      Expr.parse "a + b" limit = .ok f ∧
      Nesting.peak "x * y + x" + 1 + Nesting.peak "a + b" ≤ limit.levels ∧
      replaceVariable x "a + b" "x * y + x" = "(a + b) * y + (a + b)" ∧
      Expr.parse "(a + b) * y + (a + b)" limit = .ok (binary .add (binary .mul f y) f) := by
  intro x y f limit
  have htext : Expr.parse "x * y + x" limit = .ok (binary .add (binary .mul (var x) y) (var x)) :=
    ((denotes_groupedText (e := binary .add (binary .mul (var x) y) (var x))
      (by simp [y])).loosen.parse limit).1 (by decide +kernel)
  have hinner : Expr.parse "a + b" limit = .ok f :=
    ((denotes_groupedText (e := f) (by simp [f])).loosen.parse limit).1 (by decide +kernel)
  have hpeak : Nesting.peak "x * y + x" + 1 + Nesting.peak "a + b" ≤ limit.levels := by
    decide +kernel
  have hblank : isBlank ' ' = true := by decide
  have hchars : "x * y + x".toList = ['x', ' ', '*', ' ', 'y', ' ', '+', ' ', 'x'] := by simp
  have hcut : Cut 0 ['x', ' ', '*', ' ', 'y', ' ', '+', ' ', 'x'] [⟨.var x, 0⟩,
      ⟨.operator .mul, 2⟩, ⟨.var ⟨"y", by decide⟩, 4⟩, ⟨.operator .add, 6⟩, ⟨.var x, 8⟩,
      ⟨.endOfInput, 9⟩] :=
    .lexeme (l := .var ⟨"x", by decide⟩) (by simp) (fun _ => rfl) (.blank hblank (.symbol rfl
      (.blank hblank (.lexeme (l := .var ⟨"y", by decide⟩) (by simp) (fun _ => rfl) (.blank hblank
        (.symbol rfl (.blank hblank (.lexeme (l := .var ⟨"x", by decide⟩) (by simp) (fun _ => rfl)
          (.done 9)))))))))
  have hreplaced : replaceVariable x "a + b" "x * y + x" = "(a + b) * y + (a + b)" := by
    rw [replaceVariable, scan, hchars, hcut.scanFrom_eq]
    decide +kernel
  refine ⟨htext, hinner, hpeak, hreplaced, ?_⟩
  rw [← hreplaced]
  exact parse_replaceVariable "x * y + x" "a + b" x limit limit limit _ f htext hinner hpeak

end Expr

end SumProduct
