import SumProduct.Proofs.Expr.GroupedMinimal

/-!
# What the literal form is read back as

The literal form of an expression has no parentheses, so the parser groups its operands by
precedence and from the left, whatever the expression was. The result is an expression with the same
literal form in which no operand needs grouping. There is one such expression for each literal form,
and so an expression is read back as itself exactly if none of its operands needs grouping.

## Main definitions

* `SumProduct.Expr.LeftGrouped` — the expressions without an operand that needs grouping.
* `SumProduct.Expr.graft` — what the texts of two expressions around an operator are read as.
* `SumProduct.Expr.regroup` — what the literal form of an expression is read as.

## Main results

* `SumProduct.Expr.literalText_regroup`, `SumProduct.Expr.leftGrouped_regroup` — the expression that
  is read has the same literal form, and no operand of it needs grouping.
* `SumProduct.Expr.parse_literalText` — reading the literal form.
-/

namespace SumProduct

open Nesting

namespace Expr

variable {α : Type} {op : Op} {left right a b e : Expr α}

/-! ## Operands that need grouping -/

/-- No operand needs grouping: there is no sum right under a product, and no right operand of the
same variant as the node above it. -/
def LeftGrouped (e : Expr α) : Prop :=
  ∀ op left right, binary op left right ∈ e.postorder →
    (op = .mul → left.kind ≠ .sum ∧ right.kind ≠ .sum) ∧ right.kind ≠ op.kind

/-- What the two operands of a node must not be is what needs grouping there. -/
lemma not_needsGroup_iff :
    (¬ NeedsGroup op .left left ∧ ¬ NeedsGroup op .right right) ↔
      (op = .mul → left.kind ≠ .sum ∧ right.kind ≠ .sum) ∧ right.kind ≠ op.kind := by
  cases op <;> cases hleft : left.kind <;> cases hright : right.kind <;>
    simp [NeedsGroup, hleft, hright, Op.kind, Kind.precedence]

/-- A constant has no operands. -/
@[simp] lemma leftGrouped_constant (value : α) : (constant value).LeftGrouped := by
  simp [LeftGrouped]

/-- A variable has no operands. -/
@[simp] lemma leftGrouped_var (name : Name) : (var name : Expr α).LeftGrouped := by
  simp [LeftGrouped]

/-- No operand of a node needs grouping if its own two do not and none does below these. -/
lemma leftGrouped_binary_iff :
    (binary op left right).LeftGrouped ↔
      ((op = .mul → left.kind ≠ .sum ∧ right.kind ≠ .sum) ∧ right.kind ≠ op.kind) ∧
        left.LeftGrouped ∧ right.LeftGrouped := by
  simp only [LeftGrouped, postorder_binary, List.mem_append, List.mem_singleton]
  constructor
  · intro h
    exact ⟨h _ _ _ (.inr rfl), fun _ _ _ hmem => h _ _ _ (.inl (.inl hmem)),
      fun _ _ _ hmem => h _ _ _ (.inl (.inr hmem))⟩
  · rintro ⟨hnode, hleft, hright⟩ op' l r ((hmem | hmem) | heq)
    · exact hleft _ _ _ hmem
    · exact hright _ _ _ hmem
    · cases heq
      exact hnode

/-- On the right of a sum there must be no sum. -/
@[simp] lemma leftGrouped_sum_iff :
    (binary .add left right).LeftGrouped ↔
      right.kind ≠ .sum ∧ left.LeftGrouped ∧ right.LeftGrouped := by
  simp [leftGrouped_binary_iff, Op.kind]

/-- Under a product there must be no sum, and on its right no product. -/
@[simp] lemma leftGrouped_product_iff :
    (binary .mul left right).LeftGrouped ↔
      ((left.kind ≠ .sum ∧ right.kind ≠ .sum) ∧ right.kind ≠ .product) ∧
        left.LeftGrouped ∧ right.LeftGrouped := by
  simp [leftGrouped_binary_iff, Op.kind]

/-- No parentheses are needed where no operand needs grouping. -/
lemma groupCost_of_leftGrouped (g : Gauge) (h : e.LeftGrouped) : e.groupCost g = 0 := by
  induction e with
  | constant value => rfl
  | var name => rfl
  | binary op left right ihl ihr =>
    obtain ⟨hnode, hl, hr⟩ := leftGrouped_binary_iff.mp h
    obtain ⟨hleft, hright⟩ := not_needsGroup_iff.mpr hnode
    simp [groupCost, ihl hl, ihr hr, hleft, hright, g.zero_join]

/-- Where no operand needs grouping, the grouped form is the literal form. -/
lemma groupedText_of_leftGrouped {e : Expr Binary64} (h : e.LeftGrouped) :
    e.groupedText = e.literalText := by
  induction e with
  | constant value => rfl
  | var name => rfl
  | binary op left right ihl ihr =>
    obtain ⟨hnode, hl, hr⟩ := leftGrouped_binary_iff.mp h
    obtain ⟨hleft, hright⟩ := not_needsGroup_iff.mpr hnode
    simp [groupedText, literalText, groupIf, ihl hl, ihr hr, hleft, hright]

/-! ## Trees joined as texts -/

/-- The tree that the texts of two trees around an operator are read as. Its root is the last of the
operators that bind the least: one of the right tree, the operator itself, or one of the left. -/
def graft (op : Op) (a b : Expr α) : Expr α :=
  match op, a, b with
  | op, a, binary .add left right => binary .add (graft op a left) right
  | .add, a, b => binary .add a b
  | .mul, binary .add left right, b => binary .add left (graft .mul right b)
  | .mul, a, binary .mul left right => binary .mul (graft .mul a left) right
  | .mul, a, b => binary .mul a b
termination_by a.size + b.size
decreasing_by all_goals simp only [size]; omega

/-- A tree that is no sum is a leaf or a product. -/
lemma kind_ne_sum_iff : e.kind ≠ .sum ↔ ∀ left right, e ≠ binary .add left right := by
  rcases e with _ | _ | ⟨_ | _, _, _⟩ <;> simp [kind, Op.kind]

/-- A tree that is neither a sum nor a product is a leaf. -/
lemma kind_ne_product_iff : e.kind ≠ .product ↔ ∀ left right, e ≠ binary .mul left right := by
  rcases e with _ | _ | ⟨_ | _, _, _⟩ <;> simp [kind, Op.kind]

/-- A product of trees that are no sums is read as no sum. -/
lemma kind_graft_mul (ha : a.kind ≠ .sum) (hb : b.kind ≠ .sum) : (graft .mul a b).kind ≠ .sum := by
  generalize hop : Op.mul = op
  fun_cases graft op a b with
  | case1 => exact absurd rfl hb
  | case2 => cases hop
  | case3 => exact absurd rfl ha
  | case4 => nofun
  | case5 => nofun

/-- No operand of the tree that is read needs grouping if none of the two trees does. -/
lemma leftGrouped_graft (ha : a.LeftGrouped) (hb : b.LeftGrouped) : (graft op a b).LeftGrouped := by
  fun_induction graft op a b with
  | case1 op a left right ih =>
    obtain ⟨hright, hl, hr⟩ := leftGrouped_sum_iff.mp hb
    exact leftGrouped_sum_iff.mpr ⟨hright, ih ha hl, hr⟩
  | case2 a b hb' => exact leftGrouped_sum_iff.mpr ⟨kind_ne_sum_iff.mpr hb', ha, hb⟩
  | case3 left right b hb' ih =>
    obtain ⟨hright, hl, hr⟩ := leftGrouped_sum_iff.mp ha
    refine leftGrouped_sum_iff.mpr ⟨?_, hl, ih hr hb⟩
    exact kind_graft_mul hright (kind_ne_sum_iff.mpr hb')
  | case4 a left right ha' ih =>
    obtain ⟨⟨⟨hleft, hright⟩, hproduct⟩, hl, hr⟩ := leftGrouped_product_iff.mp hb
    refine leftGrouped_product_iff.mpr ⟨⟨⟨?_, hright⟩, hproduct⟩, ih ha hl, hr⟩
    exact kind_graft_mul (kind_ne_sum_iff.mpr ha') hleft
  | case5 a b hb' ha' hb'' =>
    have hsum := kind_ne_sum_iff.mpr hb'
    have hproduct := kind_ne_product_iff.mpr hb''
    exact leftGrouped_product_iff.mpr ⟨⟨⟨kind_ne_sum_iff.mpr ha', hsum⟩, hproduct⟩, ha, hb⟩

/-- The texts of the two trees around the operator are the text of the tree. -/
lemma literalText_graft (op : Op) (a b : Expr Binary64) :
    (graft op a b).literalText = joinText op a.literalText b.literalText := by
  fun_induction graft op a b <;> simp_all [literalText, joinText, String.append_assoc]

/-- The constants of the tree are those of both. -/
lemma constants_graft (op : Op) (a b : Expr α) :
    (graft op a b).constants = a.constants ++ b.constants := by
  fun_induction graft op a b <;> simp_all

/-- Where none of two operands needs grouping, the tree is the operation on them. -/
lemma graft_eq_binary (h : (binary op a b).LeftGrouped) : graft op a b = binary op a b := by
  fun_cases graft op a b with
  | case1 _ a l r => cases op <;> simp [kind, Op.kind] at h
  | case2 => rfl
  | case3 => simp [kind, Op.kind] at h
  | case4 => simp [kind, Op.kind] at h
  | case5 => rfl

/-! ## The tree that is read -/

/-- The tree that the literal form of a tree is read as. -/
def regroup : Expr α → Expr α
  | constant value => constant value
  | var name => var name
  | binary op left right => graft op left.regroup right.regroup

/-- No operand of the tree that is read needs grouping. -/
theorem leftGrouped_regroup (e : Expr α) : e.regroup.LeftGrouped := by
  induction e with
  | constant value => exact leftGrouped_constant value
  | var name => exact leftGrouped_var name
  | binary op left right ihl ihr => exact leftGrouped_graft ihl ihr

/-- The tree that is read has the same literal form. -/
theorem literalText_regroup (e : Expr Binary64) : e.regroup.literalText = e.literalText := by
  induction e with
  | constant value => rfl
  | var name => rfl
  | binary op left right ihl ihr => rw [regroup, literalText_graft, ihl, ihr, literalText]

/-- The tree that is read has the same constants. -/
lemma constants_regroup (e : Expr α) : e.regroup.constants = e.constants := by
  induction e with
  | constant value => rfl
  | var name => rfl
  | binary op left right ihl ihr => rw [regroup, constants_graft, ihl, ihr, constants_binary]

/-- A tree is read as itself exactly if no operand of it needs grouping. -/
lemma regroup_eq_self_iff : e.regroup = e ↔ e.LeftGrouped := by
  refine ⟨fun h => h ▸ leftGrouped_regroup e, fun h => ?_⟩
  induction e with
  | constant value => rfl
  | var name => rfl
  | binary op left right ihl ihr =>
    obtain ⟨-, hl, hr⟩ := leftGrouped_binary_iff.mp h
    rw [regroup, ihl hl, ihr hr, graft_eq_binary h]

/-! ## Reading the literal form -/

section Reading

variable {e : Expr Binary64}

/-- The literal form is always read, as the tree without operands that need grouping.

**Proof sketch.** The literal form is also that of the latter tree, where it is the grouped form. No
parenthesis is open there, so that every limit is enough. -/
lemma parse_literalText_eq_ok (h : ∀ x ∈ e.constants, x.Unsigned) (limit : NestingLimit) :
    Expr.parse e.literalText limit = .ok e.regroup := by
  have hconstants : ∀ x ∈ e.regroup.constants, x.Unsigned := by rwa [constants_regroup]
  have hgrouped := leftGrouped_regroup e
  have htext : e.regroup.groupedText = e.literalText := by
    rw [groupedText_of_leftGrouped hgrouped, literalText_regroup]
  have hpeak : peak e.regroup.groupedText ≤ limit.levels := by
    rw [peak_groupedText hconstants, groupCost_of_leftGrouped .depth hgrouped]
    exact Nat.zero_le _
  rw [← htext]
  exact ((denotes_groupedText hconstants).loosen.parse limit).1 hpeak

/-- The literal form is the grouped form exactly if no operand needs grouping: if it is, it is read
as the expression, but whatever is read from it has no operand that needs grouping. -/
lemma literalText_eq_groupedText_iff (h : ∀ x ∈ e.constants, x.Unsigned) :
    e.literalText = e.groupedText ↔ e.LeftGrouped := by
  refine ⟨fun heq => ?_, fun hgrouped => (groupedText_of_leftGrouped hgrouped).symm⟩
  let limit : NestingLimit := ⟨peak e.groupedText + 1, Nat.succ_pos _⟩
  have hread : Expr.parse e.groupedText limit = .ok e :=
    ((denotes_groupedText h).loosen.parse limit).1 (Nat.le_succ _)
  have hregroup : Expr.parse e.groupedText limit = .ok e.regroup := by
    rw [← heq, parse_literalText_eq_ok h]
  exact regroup_eq_self_iff.mp (Except.ok.inj (hregroup.symm.trans hread))

end Reading

/-- **What the literal form is read back as.** For constants that are finite and have a clear sign
bit, the literal form is read with every nesting limit, as an expression with the same literal form.
It is read as the expression itself exactly if no operand needs grouping, and this is also when the
literal form and the grouped form are the same text. -/
theorem parse_literalText (e : Expr Binary64) (h : ∀ x ∈ e.constants, x.Unsigned) :
    (∀ limit, ∃ f, Expr.parse e.literalText limit = .ok f ∧ f.literalText = e.literalText ∧
        (f = e ↔ e.LeftGrouped)) ∧
      (e.literalText = e.groupedText ↔ e.LeftGrouped) :=
  ⟨fun limit => ⟨e.regroup, parse_literalText_eq_ok h limit, literalText_regroup e,
    regroup_eq_self_iff⟩, literalText_eq_groupedText_iff h⟩

/-- The literal form of `(x + 3) * 2` is `x + 3 * 2`, which is read as the sum of `x` and a
product: a sum stands under the product. -/
theorem parse_literalText_sum_under_product :
    let x : Expr Binary64 := var ⟨"x", by decide⟩
    let two : Expr Binary64 := constant (.finite false ⟨1024 * binade, by decide⟩)
    let three : Expr Binary64 := constant (.finite false ⟨1024 * binade + twoPow 51, by decide⟩)
    let e := binary .mul (binary .add x three) two
    (∀ z ∈ e.constants, z.Unsigned) ∧ e.literalText = "x + 3 * 2" ∧ ¬ e.LeftGrouped ∧
      e.literalText ≠ e.groupedText ∧
      ∀ limit, ∃ f, Expr.parse e.literalText limit = .ok f ∧ f ≠ e ∧
        f.literalText = e.literalText := by
  intro x two three e
  have hconstants : ∀ z ∈ e.constants, z.Unsigned := by
    simp [e, x, two, three, Binary64.Unsigned]
  have hgrouped : ¬ e.LeftGrouped := by simp [e, kind, Op.kind]
  obtain ⟨hread, htext⟩ := parse_literalText e hconstants
  refine ⟨hconstants, by decide +kernel, hgrouped, mt htext.mp hgrouped, fun limit => ?_⟩
  obtain ⟨f, hparse, hliteral, hself⟩ := hread limit
  exact ⟨f, hparse, mt hself.mp hgrouped, hliteral⟩

end Expr

end SumProduct
