import SumProduct.Expr.Simplification
import SumProduct.Proofs.Expr.Grouped

/-!
# What the grouped form is read back as

The grammar has no text for infinity or for what is no number. They are written as the words `inf`
and `nan`, which are names of variables too, so the grouped form of an expression with such a
constant is the grouped form of another expression and is read back as that one. Constants with a
sign are refused, because no lexeme is written with a minus.

## Main definitions

* `SumProduct.Binary64.word?` — the numbers that are written as names.
* `SumProduct.Binary64.Signed` — the numbers that are written with a minus.
* `SumProduct.Expr.reread` — the expression with variables in place of the former.

## Main results

* `SumProduct.Expr.groupedText_reread` — both expressions have the same grouped form.
* `SumProduct.Expr.parse_groupedText_reread` — what the grouped form of any expression is read back
  as, and when this is no other expression.
* `SumProduct.Expr.parse_groupedText_overflow` — an expression that is read back as another one.
-/

namespace SumProduct

/-! ## Numbers that are no numerals -/

namespace Binary64

/-- The name that a number is written as, if it is written as one: positive infinity and what is no
number are. -/
def word? : Binary64 → Option Name
  | infinite false => some ⟨"inf", by decide⟩
  | nan => some ⟨"nan", by decide⟩
  | infinite true => none
  | finite _ _ => none

/-- The numbers with a sign: the negative ones, negative zero and negative infinity. -/
def Signed (x : Binary64) : Prop := (∃ rank, x = finite true rank) ∨ x = infinite true

/-- A number that is written as a name is written like the variable of this name. -/
lemma plainText_of_word? {x : Binary64} {n : Name} (h : x.word? = some n) :
    x.plainText = n.text := by
  rcases x with _ | negative | _
  · cases h
  · cases negative <;> cases h
    rfl
  · cases h
    rfl

/-- Exactly positive infinity and what is no number are written as names. -/
lemma word?_eq_none_iff {x : Binary64} : x.word? = none ↔ x ≠ infinite false ∧ x ≠ nan := by
  rcases x with _ | negative | _
  · simp [word?]
  · cases negative <;> simp [word?]
  · simp [word?]

/-- A number is written as a numeral, with a sign, or as a name. -/
lemma unsigned_of_not_signed {x : Binary64} (hsign : ¬ x.Signed) (hword : x.word? = none) :
    x.Unsigned := by
  rcases x with ⟨negative, rank⟩ | negative | _
  · cases negative with
    | false => exact ⟨rank, rfl⟩
    | true => exact absurd (.inl ⟨rank, rfl⟩) hsign
  · cases negative with
    | false => cases hword
    | true => exact absurd (.inr rfl) hsign
  · cases hword

/-- A number with a sign is written with a minus. -/
lemma Signed.minus_mem {x : Binary64} (h : x.Signed) : '-' ∈ x.plainText.toList := by
  rcases h with ⟨rank, rfl⟩ | rfl <;>
    simp [plainText, NumberStyle.text, NumberStyle.signText]

end Binary64

/-! ## Texts with a minus -/

/-- A character of a text that is cut is blank or belongs to a lexeme. -/
lemma Token.Cut.mem_text {position : Nat} {text : List Char} {tokens : List Token} {c : Char}
    (h : Cut position text tokens) (hc : c ∈ text) :
    isBlank c = true ∨ ∃ t ∈ tokens, c ∈ t.lexeme.chars := by
  induction h with
  | done position => cases hc
  | blank hblank _ ih =>
    rcases List.mem_cons.mp hc with rfl | hc
    · exact .inl hblank
    · exact ih hc
  | @lexeme position l text tokens _ _ _ ih =>
    rcases List.mem_append.mp hc with hc | hc
    · exact .inr ⟨⟨l, position⟩, List.mem_cons_self, hc⟩
    · exact (ih hc).imp_right fun ⟨t, ht, hmem⟩ => ⟨t, List.mem_cons_of_mem _ ht, hmem⟩

/-- No lexeme is written with a minus. -/
lemma Lexeme.minus_notMem_chars (l : Lexeme) : '-' ∉ l.chars := by
  cases l with
  | number n => exact n.notMem_chars (by decide) (by decide)
  | var n => exact n.notMem_text (by decide)
  | operator op => cases op <;> decide
  | leftParen | rightParen | endOfInput => decide

/-- A text with a minus is no expression. -/
lemma Expr.parse_ne_ok_of_minus_mem {text : String} (h : '-' ∈ text.toList) (limit : NestingLimit)
    (e : Expr Binary64) : Expr.parse text limit ≠ .ok e := by
  intro hparse
  obtain ⟨tokens, ls, hscan, -⟩ := accepted_of_parse hparse
  rcases (Token.cut_of_scanFrom hscan).mem_text h with hblank | ⟨t, -, hmem⟩
  · exact absurd hblank (by decide)
  · exact t.lexeme.minus_notMem_chars hmem

namespace Expr

/-! ## The expression that is read back -/

/-- The expression with variables in place of the constants that are written as names. -/
def reread : Expr Binary64 → Expr Binary64
  | constant x => (x.word?.map var).getD (constant x)
  | var name => var name
  | binary op left right => binary op left.reread right.reread

variable {e : Expr Binary64}

/-- A variable binds as tightly as the constant that it stands for. -/
lemma precedence_reread (e : Expr Binary64) : e.reread.kind.precedence = e.kind.precedence := by
  cases e with
  | constant x => cases hword : x.word? <;> simp [reread, hword, kind, Kind.precedence]
  | var name => rfl
  | binary op left right => rfl

/-- An expression needs grouping where the one that is read back does. -/
lemma needsGroup_reread_iff (op : Op) (side : Side) (e : Expr Binary64) :
    NeedsGroup op side e.reread ↔ NeedsGroup op side e := by
  cases side <;> simp only [NeedsGroup, precedence_reread]

/-- The expression that is read back has the same grouped form. -/
theorem groupedText_reread (e : Expr Binary64) : e.reread.groupedText = e.groupedText := by
  induction e with
  | constant x =>
    cases hword : x.word? with
    | none => simp [reread, hword]
    | some n => simp [reread, hword, groupedText, Binary64.plainText_of_word? hword]
  | var name => rfl
  | binary op left right ihl ihr =>
    simp only [reread, groupedText, ihl, ihr, needsGroup_reread_iff]

/-- The constants that are left are those that are not written as names. -/
lemma constants_reread (e : Expr Binary64) :
    e.reread.constants = e.constants.filter fun x => x.word?.isNone := by
  induction e with
  | constant x => cases hword : x.word? <;> simp [reread, hword]
  | var name => simp [reread]
  | binary op left right ihl ihr => simp [reread, ihl, ihr]

/-- An expression is read back as itself when no constant is written as a name. -/
lemma reread_eq_self_iff : e.reread = e ↔ ∀ x ∈ e.constants, x.word? = none := by
  induction e with
  | constant x => cases hword : x.word? <;> simp [reread, hword]
  | var name => simp [reread]
  | binary op left right ihl ihr =>
    simp only [reread, binary.injEq, true_and, ihl, ihr, constants_binary, List.mem_append, or_imp,
      forall_and]

/-- The grouped form has a minus when a constant has a sign. -/
lemma minus_mem_groupedText {x : Binary64} (hx : x ∈ e.constants) (hsign : x.Signed) :
    '-' ∈ e.groupedText.toList := by
  have hgroup (needed : Bool) {text : String} (h : '-' ∈ text.toList) :
      '-' ∈ (groupIf needed text).toList := by
    cases needed <;> simp [groupIf, h]
  induction e with
  | constant value =>
    obtain rfl : x = value := by simpa using hx
    exact hsign.minus_mem
  | var name => simp at hx
  | binary op left right ihl ihr =>
    rw [constants_binary, List.mem_append] at hx
    simp only [groupedText, joinText, String.toList_append, List.mem_append]
    rcases hx with hx | hx
    · exact .inl (.inl (hgroup _ (ihl hx)))
    · exact .inr (hgroup _ (ihr hx))

/-- The grouped form is read exactly if no constant has a sign and the parentheses fit the limit,
and then as the expression with variables in place of the constants that are written as names.

**Proof sketch.** The grouped form is also that of the latter expression (`groupedText_reread`),
whose constants are numerals, so that parsing undoes it. -/
theorem parse_groupedText_eq_ok_iff (e f : Expr Binary64) (limit : NestingLimit) :
    Expr.parse e.groupedText limit = .ok f ↔
      f = e.reread ∧ (∀ x ∈ e.constants, ¬ x.Signed) ∧
        Nesting.peak e.groupedText ≤ limit.levels := by
  by_cases hsigns : ∀ x ∈ e.constants, ¬ x.Signed
  · have hunsigned : ∀ x ∈ e.reread.constants, x.Unsigned := by
      intro x hx
      rw [constants_reread, List.mem_filter, Option.isNone_iff_eq_none] at hx
      exact Binary64.unsigned_of_not_signed (hsigns x hx.1) hx.2
    obtain ⟨hread, hdeep⟩ := (denotes_groupedText hunsigned).loosen.parse limit
    rw [groupedText_reread] at hread hdeep
    rcases Nat.lt_or_ge limit.levels (Nesting.peak e.groupedText) with hpeak | hpeak
    · obtain ⟨position, hrefused⟩ := hdeep hpeak
      simp [hrefused, Nat.not_le_of_lt hpeak]
    · rw [hread hpeak, Except.ok.injEq]
      exact ⟨fun h => ⟨h.symm, hsigns, hpeak⟩, fun h => h.1.symm⟩
  · refine ⟨fun h => ?_, fun h => absurd h.2.1 hsigns⟩
    push Not at hsigns
    obtain ⟨x, hx, hsign⟩ := hsigns
    exact absurd h (parse_ne_ok_of_minus_mem (minus_mem_groupedText hx hsign) limit f)

/-- **What grouped text is read back as.** Whatever the constants of an expression are, its grouped
form is read exactly if none of them has a sign and the parentheses fit the limit, and then as the
expression with variables in place of positive infinity and of what is no number. So it is never
read as another expression exactly if no constant is one of these two, or if it is not read at all.
-/
theorem parse_groupedText_reread (e : Expr Binary64) (limit : NestingLimit) :
    (∀ f, Expr.parse e.groupedText limit = .ok f ↔
      f = e.reread ∧ (∀ x ∈ e.constants, ¬ x.Signed) ∧
        Nesting.peak e.groupedText ≤ limit.levels) ∧
      ((∀ f, Expr.parse e.groupedText limit = .ok f → f = e) ↔
        (∀ x ∈ e.constants, x ≠ .infinite false ∧ x ≠ .nan) ∨
          (∃ x ∈ e.constants, x.Signed) ∨ limit.levels < Nesting.peak e.groupedText) := by
  refine ⟨fun f => parse_groupedText_eq_ok_iff e f limit, ?_⟩
  simp only [parse_groupedText_eq_ok_iff, ← Binary64.word?_eq_none_iff]
  rw [← reread_eq_self_iff, ← Nat.not_le]
  constructor
  · intro h
    by_contra! hnone
    exact hnone.1 (h e.reread ⟨rfl, hnone.2⟩)
  · rintro (hself | ⟨x, hx, hsign⟩ | hdeep) f ⟨rfl, hsigns, hpeak⟩
    · exact hself
    · exact absurd hsign (hsigns x hx)
    · exact absurd hpeak hdeep

/-- Simplifying `x * x + y` with `x` at `10 ^ 200` gives infinity plus `y`, whose grouped form
`inf + y` is read back as the sum of two variables. -/
theorem parse_groupedText_overflow :
    let x : Expr Binary64 := var ⟨"x", by decide⟩
    let y : Expr Binary64 := var ⟨"y", by decide⟩
    let e := binary .add (constant (.infinite false)) y
    let f := binary .add (var ⟨"inf", by decide⟩) y
    (binary .add (binary .mul x x) y).simplify
        ⟨[("x", .real (Binary64.ofDecimal false 1 200))], by decide⟩ = .ok e ∧
      e.groupedText = "inf + y" ∧ Expr.parse e.groupedText .standard = .ok f ∧ f ≠ e := by
  intro x y e f
  refine ⟨by decide +kernel, by decide +kernel, ?_, by simp [e, f]⟩
  have hpeak : Nesting.peak e.groupedText ≤ NestingLimit.standard.levels := by decide +kernel
  have hsigns : ∀ z ∈ e.constants, ¬ z.Signed := by
    intro z hz
    obtain rfl : z = .infinite false := by simpa [e, y] using hz
    simp [Binary64.Signed]
  exact (parse_groupedText_eq_ok_iff e f .standard).mpr ⟨rfl, hsigns, hpeak⟩

end Expr

end SumProduct
