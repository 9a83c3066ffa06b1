import SumProduct.Proofs.Expr.Grouped
import SumProduct.Proofs.Text.Gauge

/-!
# The grouped form has the fewest parentheses

Every pair of parentheses in the grouped form of an expression stands in each text that derives the
expression: an operand that binds too loosely for its side can only be derived there as a group. So
no text of the expression has fewer parentheses, or nests them less, and a limit that lets one text
of the expression pass lets the grouped form pass.

## Main definitions

* `SumProduct.Expr.groupCost` — the measure of the parentheses that an expression needs.

## Main results

* `SumProduct.Phrase.groupCost_le` — every phrase has the parentheses that its expression needs.
* `SumProduct.Expr.measures_groupedText` — the grouped form has no more than these.
* `SumProduct.Expr.parse_groupedText_minimal` — the grouped form of a parsed expression has no more
  parentheses than its text.
-/

namespace SumProduct

open Nesting

/-! ## Needed parentheses -/

/-- The measure of the parentheses that an expression needs: those of its operands, each one more
when the operand needs grouping. -/
def Expr.groupCost {α : Type} (g : Gauge) : Expr α → Nat
  | constant _ => 0
  | var _ => 0
  | binary op left right =>
    g.join (left.groupCost g + (decide (NeedsGroup op .left left)).toNat)
      (right.groupCost g + (decide (NeedsGroup op .right right)).toNat)

section NeedsGroup

variable {α : Type} {op : Op} {side : Expr.Side} {e : Expr α}

/-- What needs grouping before an operator needs it after the operator as well. -/
lemma Expr.NeedsGroup.right (h : NeedsGroup op .left e) : NeedsGroup op .right e := Nat.le_of_lt h

/-- An operation needs no grouping before its own operator. -/
lemma Expr.not_needsGroup_binary (op : Op) (left right : Expr α) :
    ¬ NeedsGroup op .left (binary op left right) :=
  Nat.lt_irrefl _

/-- A leaf needs no grouping. -/
lemma Expr.not_needsGroup_leaf (h : e.kind.op? = none) : ¬ NeedsGroup op side e := by
  unfold NeedsGroup
  cases hkind : e.kind <;> rw [hkind] at h <;> cases h <;> cases op <;> cases side <;> decide

/-- A chain that stands on a side of an operator is a chain of the operands of its own operator, and
what needs grouping on that side needs it before the chain's own operator. -/
lemma Op.production_eq_chain {op' : Op} {operand : Production}
    (h : .chain op' operand = op.production side) :
    operand = op'.operand ∧ (Expr.NeedsGroup op side e → Expr.NeedsGroup op' .left e) := by
  cases op <;> cases side <;> cases h
  · exact ⟨rfl, id⟩
  · exact ⟨rfl, Nat.lt_succ_of_le⟩
  · exact ⟨rfl, id⟩

end NeedsGroup

/-! ## Phrases -/

/-- Every lexeme that is no parenthesis measures zero. -/
lemma Lexeme.measures_chars (g : Gauge) {l : Lexeme} (hopen : l ≠ .leftParen)
    (hclose : l ≠ .rightParen) : g.Measures l.chars 0 :=
  g.plain (notMem_chars hopen hclose).1 (notMem_chars hopen hclose).2

section Phrase

variable {α : Type} {constant? : Numeral → Option α} {p : Production} {ls : List Lexeme}
  {e : Expr α}

/-- **Every phrase has the parentheses that its expression needs**, and one pair more around an
expression that needs grouping where the phrase stands.

**Proof sketch.** Induction on the derivation. A group has one pair more than its inside, which is
enough wherever it stands. A chain of one operand needs grouping at most where the operand does. A
longer chain is joined from phrases on the two sides of its operator. -/
theorem Phrase.groupCost_le (h : Phrase constant? p ls e) (g : Gauge) (op : Op) (side : Expr.Side)
    (hp : p = op.production side) :
    ∃ m, g.Measures (Lexeme.spell ls) m ∧
      e.groupCost g + (decide (Expr.NeedsGroup op side e)).toNat ≤ m := by
  induction h generalizing op side with
  | @number n value hvalue =>
    have hcost : ¬ Expr.NeedsGroup op side (.constant value) := Expr.not_needsGroup_leaf rfl
    refine ⟨0, ?_, by simp [Expr.groupCost, hcost]⟩
    simpa using Lexeme.measures_chars g (l := .number n) (by simp) (by simp)
  | var name =>
    have hcost : ¬ Expr.NeedsGroup op side (.var name : Expr α) := Expr.not_needsGroup_leaf rfl
    refine ⟨0, ?_, by simp [Expr.groupCost, hcost]⟩
    simpa using Lexeme.measures_chars g (l := .var name) (by simp) (by simp)
  | @group ls e _ ih =>
    -- The inside is an expression, which is what stands before a `+`.
    obtain ⟨m, hm, hle⟩ := ih .add .left rfl
    refine ⟨m + 1, by simpa [Lexeme.chars] using g.group hm, ?_⟩
    exact Nat.add_le_add (Nat.le_of_add_right_le hle) (Bool.toNat_le _)
  | @single op' operand ls e _ ih =>
    obtain ⟨rfl, hneeds⟩ := Op.production_eq_chain (e := e) hp
    -- The operand of a chain is what stands after its operator.
    obtain ⟨m, hm, hle⟩ := ih op' .right rfl
    refine ⟨m, hm, (Nat.add_le_add_left (Bool.toNat_le_toNat ?_) _).trans hle⟩
    exact Bool.le_iff_imp.mpr fun h => decide_eq_true (hneeds (of_decide_eq_true h)).right
  | @snoc op' operand ls ms a b _ _ ihc iho =>
    obtain ⟨rfl, hneeds⟩ := Op.production_eq_chain (e := .binary op' a b) hp
    obtain ⟨m, hm, hlem⟩ := ihc op' .left op'.production_kind.symm
    obtain ⟨n, hn, hlen⟩ := iho op' .right rfl
    have hnone : ¬ Expr.NeedsGroup op side (.binary op' a b) := fun h =>
      Expr.not_needsGroup_binary op' a b (hneeds h)
    refine ⟨g.join m n, ?_, ?_⟩
    · obtain ⟨hopen, hclose⟩ := Lexeme.notMem_chars (l := .operator op') (by simp) (by simp)
      simpa using Gauge.around hm hopen hclose hn
    · simpa [Expr.groupCost, hnone] using g.join_le_join hlem hlen

end Phrase

/-! ## The grouped form -/

section GroupedText

variable {g : Gauge} {text : String} {n : Nat} {e : Expr Binary64}

/-- Parentheses where they are needed add one. -/
lemma Expr.measures_groupIf (needed : Bool) (h : g.Measures text.toList n) :
    g.Measures (groupIf needed text).toList (n + needed.toNat) := by
  cases needed with
  | false => exact h
  | true => simpa [groupIf] using g.group h

/-- **The grouped form has the parentheses that the expression needs, and no more.** -/
theorem Expr.measures_groupedText (g : Gauge) (h : ∀ x ∈ e.constants, x.Unsigned) :
    g.Measures e.groupedText.toList (e.groupCost g) := by
  induction e with
  | constant value =>
    obtain ⟨rank, rfl⟩ := h value (by simp)
    obtain ⟨n, hchars, -⟩ := Binary64.exists_numeral rank
    rw [groupedText, hchars]
    exact Lexeme.measures_chars g (l := .number n) (by simp) (by simp)
  | var name => exact Lexeme.measures_chars g (l := .var name) (by simp) (by simp)
  | binary op left right ihl ihr =>
    rw [constants_binary] at h
    have hleft := measures_groupIf (decide (NeedsGroup op .left left))
      (ihl fun x hx => h x (List.mem_append_left _ hx))
    have hright := measures_groupIf (decide (NeedsGroup op .right right))
      (ihr fun x hx => h x (List.mem_append_right _ hx))
    have hopen : '(' ∉ (" " ++ op.symbol ++ " ").toList := by cases op <;> decide
    have hclose : ')' ∉ (" " ++ op.symbol ++ " ").toList := by cases op <;> decide
    rw [groupedText, joinText, String.toList_append, String.toList_append, List.append_assoc]
    exact Gauge.around hleft hopen hclose hright

/-- The peak of the grouped form is the nesting that the expression needs. -/
lemma Expr.peak_groupedText (h : ∀ x ∈ e.constants, x.Unsigned) :
    peak e.groupedText = e.groupCost .depth :=
  Balanced.peakFrom_eq (measures_groupedText .depth h)

end GroupedText

/-! ## Parsed texts -/

/-- The value of a numeral in range has a clear sign bit. -/
lemma Numeral.unsigned_of_finiteValue? {n : Numeral} {x : Binary64} (h : n.finiteValue? = some x) :
    x.Unsigned := by
  obtain ⟨hfinite, rfl⟩ := finiteValue?_eq_some.mp h
  rw [value, Binary64.nearest, Binary64.ofRank] at hfinite ⊢
  split at hfinite
  · next hrank => exact ⟨_, dif_pos hrank⟩
  · cases hfinite

/-- The constants of a phrase with numerals in range have a clear sign bit. -/
lemma Phrase.unsigned_constants {p : Production} {ls : List Lexeme} {e : Expr Binary64}
    (h : Phrase Numeral.finiteValue? p ls e) : ∀ x ∈ e.constants, x.Unsigned := by
  induction h with
  | number hvalue => simpa using Numeral.unsigned_of_finiteValue? hvalue
  | var name => simp
  | group _ ih => exact ih
  | single _ ih => exact ih
  | snoc _ _ ihc iho =>
    rw [Expr.constants_binary]
    exact fun x hx => (List.mem_append.mp hx).elim (ihc x) (iho x)

/-- The tokens of a text open as many parentheses as the text. -/
lemma count_eq_of_scan {text : String} {tokens : List Token} {ls : List Lexeme}
    (hscan : Token.scan text = .ok tokens)
    (hlexemes : tokens.map (·.lexeme) = ls ++ [.endOfInput]) :
    text.toList.count '(' = (Lexeme.spell ls).count '(' := by
  rw [(Token.cut_of_scanFrom hscan).count_eq, hlexemes, Lexeme.spell_append]
  simp [Lexeme.chars]

/-- **The grouped form has the fewest parentheses.** When a text is parsed as an expression, the
grouped form of the expression is parsed as the same expression with the same limit, it has at most
as many parentheses as the text, and at most as many of them are open at once.

**Proof sketch.** The tokens of the text are a phrase, which has the parentheses that the expression
needs; the grouped form has these only. -/
theorem Expr.parse_groupedText_minimal (text : String) (limit : NestingLimit) (e : Expr Binary64)
    (h : Expr.parse text limit = .ok e) :
    Expr.parse e.groupedText limit = .ok e ∧
      e.groupedText.toList.count '(' ≤ text.toList.count '(' ∧
      peak e.groupedText ≤ peak text := by
  obtain ⟨tokens, ls, hscan, hlexemes, hphrase, hfinite, hfits⟩ := accepted_of_parse h
  have hrange : Phrase Numeral.finiteValue? .expression ls e :=
    phrase_finiteValue?_iff.mpr ⟨hphrase, hfinite⟩
  have hconstants := hrange.unsigned_constants
  have hcount : e.groupedText.toList.count '(' ≤ text.toList.count '(' := by
    obtain ⟨m, hm, hle⟩ := hrange.groupCost_le .total .add .left rfl
    calc e.groupedText.toList.count '(' = e.groupCost .total :=
          measures_groupedText .total hconstants
      _ ≤ m := Nat.le_of_add_right_le hle
      _ = (Lexeme.spell ls).count '(' := hm.symm
      _ = text.toList.count '(' := (count_eq_of_scan hscan hlexemes).symm
  have hpeak : peak e.groupedText ≤ peak text := by
    obtain ⟨m, hm, hle⟩ := hrange.groupCost_le .depth .add .left rfl
    calc peak e.groupedText = e.groupCost .depth :=
          peak_groupedText hconstants
      _ ≤ m := Nat.le_of_add_right_le hle
      _ = Lexeme.peak ls := (Balanced.peakFrom_eq hm).symm
      _ = peak text := (peak_eq_of_scan hscan hlexemes).symm
  have hdenotes : Denotes .expression e.groupedText e := (denotes_groupedText hconstants).loosen
  exact ⟨(hdenotes.parse limit).1 (hpeak.trans hfits), hcount, hpeak⟩

/-- The text `(x) + ((y + (x)))` opens four parentheses and nests three; the grouped form of its
expression needs one, because a sum stands after an operator. -/
theorem Expr.parse_groupedText_minimal_redundant :
    let x : Name := ⟨"x", by decide⟩
    let y : Name := ⟨"y", by decide⟩
    let e : Expr Binary64 := binary .add (var x) (binary .add (var y) (var x))
    let text := "(x) + ((y + (x)))"
    let limit : NestingLimit := ⟨3, by decide⟩
    Expr.parse text limit = .ok e ∧
      (Expr.parse e.groupedText limit = .ok e ∧
        e.groupedText.toList.count '(' ≤ text.toList.count '(' ∧
        peak e.groupedText ≤ peak text) ∧
      text.toList.count '(' = 4 ∧ e.groupedText.toList.count '(' = 1 := by
  intro x y e text limit
  have hvar (n : Name) : Denotes .factor n.text (var n) :=
    ⟨_, Token.spells_chars (l := .var n) nofun, .var n⟩
  have hgroup {s : String} {a : Expr Binary64} (h : Denotes .factor s a) :
      Denotes .factor ("(" ++ s ++ ")") a := (h.of_factor .add .left).group
  have hx := hgroup (hvar x)
  have hright := (((hvar y).of_factor .add .left).join (hx.of_factor .add .right)).group
  have hjoined := (hx.of_factor .add .left).join ((hgroup hright).of_factor .add .right)
  have htext : Denotes .expression text e := hjoined
  have hparse : Expr.parse text limit = .ok e := (htext.parse limit).1 (by decide +kernel)
  exact ⟨hparse, parse_groupedText_minimal text limit e hparse, by decide +kernel,
    by decide +kernel⟩

end SumProduct
