import SumProduct.Expr.Text
import SumProduct.Proofs.Binary64.Written
import SumProduct.Proofs.Expr.Walk
import SumProduct.Proofs.Parser.Acceptance
import SumProduct.Proofs.Token.Spelling

/-!
# Grouped text is read back

The grouped form of an expression is a text of the grammar that derives the expression, provided
that its constants are finite and have no sign. Hence parsing it gives the expression back, unless
its parentheses are nested deeper than the limit allows.

## Main definitions

* `SumProduct.Kind.production` — the tightest production that derives a variant of expressions.
* `SumProduct.Denotes` — the texts that spell a phrase of a production.

## Main results

* `SumProduct.Expr.denotes_groupedText` — the grouped form of an expression denotes it.
* `SumProduct.Expr.parse_groupedText` — parsing undoes the grouped form, up to the nesting limit.
-/

namespace SumProduct

/-! ## Productions of operands -/

/-- The tightest production that derives the expressions of a variant. -/
def Kind.production : Kind → Production
  | sum => .expression
  | product => .term
  | constant => .factor
  | var => .factor

/-- The production of the operands of an operator. -/
def Op.operand : Op → Production
  | add => .term
  | mul => .factor

/-- The production of what stands on a side of an operator: a chain before it, an operand after. -/
def Op.production (op : Op) : Expr.Side → Production
  | .left => op.kind.production
  | .right => op.operand

/-- What an operator builds is a chain of its operands. -/
lemma Op.production_kind (op : Op) : op.kind.production = .chain op op.operand := by
  cases op <;> rfl

section Phrase

variable {α : Type} {constant? : Numeral → Option α} {ls : List Lexeme} {e : Expr α}

/-- A phrase is also one of every production for variants that bind no tighter. -/
lemma Phrase.loosen {tight : Kind} (h : Phrase constant? tight.production ls e) (loose : Kind)
    (hkinds : loose.precedence ≤ tight.precedence) : Phrase constant? loose.production ls e := by
  cases tight <;> cases loose <;> first
    | exact h
    | exact .single h
    | exact .single (.single h)
    | exact absurd hkinds (by decide)

/-- A phrase is an operand of every operator that binds less tightly. -/
lemma Phrase.loosen_operand {tight : Kind} (h : Phrase constant? tight.production ls e) (op : Op)
    (hkinds : op.kind.precedence < tight.precedence) : Phrase constant? op.operand ls e := by
  cases op with
  | add => exact h.loosen .product hkinds
  | mul => exact h.loosen .var hkinds

/-- A phrase stands on every side of an operator that needs no parentheses around it. -/
lemma Phrase.of_not_needsGroup {op : Op} {side : Expr.Side}
    (h : Phrase constant? e.kind.production ls e) (hneeds : ¬ Expr.NeedsGroup op side e) :
    Phrase constant? (op.production side) ls e := by
  cases side with
  | left => exact h.loosen op.kind (Nat.le_of_not_lt hneeds)
  | right => exact h.loosen_operand op (Nat.lt_of_not_le hneeds)

/-- A factor stands on every side of an operator. -/
lemma Phrase.of_factor (h : Phrase constant? .factor ls e) (op : Op) (side : Expr.Side) :
    Phrase constant? (op.production side) ls e := by
  have hleaf : Phrase constant? Kind.var.production ls e := h
  cases side with
  | left => exact hleaf.loosen op.kind (by cases op <;> decide)
  | right => exact hleaf.loosen_operand op (by cases op <;> decide)

end Phrase

/-! ## Texts of the grammar -/

/-- A text denotes an expression as a production: it spells a phrase of the production that derives
the expression, with numerals in range. -/
def Denotes (p : Production) (text : String) (e : Expr Binary64) : Prop :=
  ∃ ls, Token.Spells text.toList ls ∧ Phrase Numeral.finiteValue? p ls e

section Denotes

variable {p : Production} {text : String} {e : Expr Binary64}

/-- A text that denotes an expression as tightly as it can also does so at the top. -/
lemma Denotes.loosen (h : Denotes e.kind.production text e) : Denotes .expression text e := by
  obtain ⟨ls, hspells, hphrase⟩ := h
  exact ⟨ls, hspells, hphrase.loosen .sum (by cases e.kind <;> decide)⟩

/-- A text that denotes an expression as a factor stands on every side of an operator. -/
lemma Denotes.of_factor (h : Denotes .factor text e) (op : Op) (side : Expr.Side) :
    Denotes (op.production side) text e := by
  obtain ⟨ls, hspells, hphrase⟩ := h
  exact ⟨ls, hspells, hphrase.of_factor op side⟩

/-- A text of an expression in parentheses denotes the expression as a factor. -/
lemma Denotes.group (h : Denotes .expression text e) : Denotes .factor ("(" ++ text ++ ")") e := by
  obtain ⟨ls, hspells, hphrase⟩ := h
  exact ⟨_, by simpa using hspells.group, .group hphrase⟩

/-- Texts of two operands around an operator denote the operation. -/
lemma Denotes.join {op : Op} {left right : String} {a b : Expr Binary64}
    (ha : Denotes (op.production .left) left a) (hb : Denotes (op.production .right) right b) :
    Denotes op.kind.production (Expr.joinText op left right) (.binary op a b) := by
  obtain ⟨ls, hleft, hls⟩ := ha
  obtain ⟨ms, hright, hms⟩ := hb
  rw [Op.production, op.production_kind] at hls
  rw [op.production_kind]
  refine ⟨_, ?_, hls.snoc hms⟩
  simpa [Expr.joinText, Op.symbol] using hleft.join op hright

/-- An operand in parentheses where they are needed stands on its side of the operator. -/
lemma Denotes.groupIf (h : Denotes e.kind.production text e) (op : Op) (side : Expr.Side) :
    Denotes (op.production side) (Expr.groupIf (decide (Expr.NeedsGroup op side e)) text) e := by
  by_cases hneeds : Expr.NeedsGroup op side e
  · simpa [Expr.groupIf, hneeds] using h.loosen.group.of_factor op side
  · obtain ⟨ls, hspells, hphrase⟩ := h
    exact ⟨ls, by simpa [Expr.groupIf, hneeds] using hspells, hphrase.of_not_needsGroup hneeds⟩

/-- A text that denotes an expression is parsed as the expression if it fits the limit, and refused
for the limit if not. -/
lemma Denotes.parse (h : Denotes .expression text e) (limit : NestingLimit) :
    (Nesting.peak text ≤ limit.levels → Expr.parse text limit = .ok e) ∧
      (limit.levels < Nesting.peak text →
        ∃ position, Expr.parse text limit = .error (.error ⟨.tooDeep limit.levels, position⟩)) := by
  obtain ⟨ls, hspells, hphrase⟩ := h
  obtain ⟨tokens, hscan, hlexemes⟩ := hspells.exists_scan
  exact ⟨Expr.parse_eq_ok hscan hlexemes hphrase, Expr.parse_eq_tooDeep hscan hlexemes hphrase⟩

end Denotes

/-! ## The grouped form -/

/-- The finite numbers with a clear sign bit. -/
def Binary64.Unsigned (x : Binary64) : Prop := ∃ rank, x = finite false rank

/-- The plain form of a finite number with a clear sign bit denotes it as a factor. -/
lemma Binary64.Unsigned.denotes {x : Binary64} (h : x.Unsigned) :
    Denotes .factor x.plainText (.constant x) := by
  obtain ⟨rank, rfl⟩ := h
  obtain ⟨n, hchars, hvalue⟩ := Binary64.exists_numeral rank
  refine ⟨[.number n], ?_, .number (Numeral.finiteValue?_eq_some.mpr ⟨by rw [hvalue]; rfl, hvalue⟩)⟩
  rw [hchars]
  exact Token.spells_chars (l := .number n) nofun

namespace Expr

/-- **The grouped form of an expression denotes it.**

**Proof sketch.** Induction on the expression. An operand that is not put in parentheses binds
tightly enough to be one: on the left as tightly as the operator, whose chain it begins, on the
right more tightly. -/
theorem denotes_groupedText {e : Expr Binary64} (h : ∀ x ∈ e.constants, x.Unsigned) :
    Denotes e.kind.production e.groupedText e := by
  induction e with
  | constant value => exact (h value (by simp)).denotes
  | var name => exact ⟨[.var name], Token.spells_chars (l := .var name) nofun, .var name⟩
  | binary op left right ihl ihr =>
    rw [constants_binary] at h
    have hleft := ihl fun x hx => h x (List.mem_append_left _ hx)
    have hright := ihr fun x hx => h x (List.mem_append_right _ hx)
    exact (hleft.groupIf op .left).join (hright.groupIf op .right)

/-- **Parsing undoes the grouped form, exactly up to the nesting limit.** -/
theorem parse_groupedText (e : Expr Binary64) (limit : NestingLimit)
    (h : ∀ x ∈ e.constants, x.Unsigned) :
    (Nesting.peak e.groupedText ≤ limit.levels → Expr.parse e.groupedText limit = .ok e) ∧
      (limit.levels < Nesting.peak e.groupedText →
        ∃ position, Expr.parse e.groupedText limit =
          .error (.error ⟨.tooDeep limit.levels, position⟩)) := by
  obtain ⟨ls, hspells, hphrase⟩ := denotes_groupedText h
  have hsum := hphrase.loosen .sum (by cases e.kind <;> decide)
  exact Denotes.parse ⟨ls, hspells, hsum⟩ limit

/-- The grouped form of `x * (y + 0.5 * (x + y))` nests two parentheses: it is read back with a
limit of two levels and refused with one. -/
theorem parse_groupedText_nested :
    let x : Expr Binary64 := var ⟨"x", by decide⟩
    let y : Expr Binary64 := var ⟨"y", by decide⟩
    let half : Binary64 := .finite false ⟨1022 * binade, by decide⟩
    let e := binary .mul x (binary .add y (binary .mul (constant half) (binary .add x y)))
    (∀ z ∈ e.constants, z.Unsigned) ∧ Nesting.peak e.groupedText = 2 ∧
      Expr.parse e.groupedText ⟨2, by decide⟩ = .ok e ∧
      ∃ position, Expr.parse e.groupedText ⟨1, by decide⟩ =
        .error (.error ⟨.tooDeep 1, position⟩) := by
  intro x y half e
  have hconstants : ∀ z ∈ e.constants, z.Unsigned := by
    intro z hz
    obtain rfl : z = half := by simpa [e, x, y] using hz
    exact ⟨_, rfl⟩
  have hpeak : Nesting.peak e.groupedText = 2 := by decide +kernel
  exact ⟨hconstants, hpeak, (parse_groupedText e ⟨2, by decide⟩ hconstants).1 hpeak.le,
    (parse_groupedText e ⟨1, by decide⟩ hconstants).2 (by rw [hpeak]; decide)⟩

end Expr

end SumProduct
