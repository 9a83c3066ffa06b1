import SumProduct.Journal.Tracing
import SumProduct.Proofs.Expr.Evaluation
import SumProduct.Proofs.Expr.Simplification
import SumProduct.Proofs.Journal.Delivery

/-!
# Overflow in simplification

Simplification warns about an operation on two finite constants whose result is not finite, and is
silent about operations on constants that are not finite already. A value that is not finite is
never absorbed: whatever is computed from it is not finite either, up to the constant that is left
in the result. So the warnings tell whether the result has such a constant.

## Main definitions

* `SumProduct.Expr.HasNonfinite` — an expression has an infinite constant or one that is no number.
* `SumProduct.Expr.FiniteInputs` — the constants of an expression and the values of its variables
  are finite.
* `SumProduct.Expr.foldsToNonfinite`, `SumProduct.Expr.isMinimalNonfinite` — a subtree is computed
  to a number that is not finite, and no smaller subtree of it is.

## Main results

* `SumProduct.Op.isFinite_of_isFinite_apply` — operations do not absorb what is not finite.
* `SumProduct.Expr.exists_overflows_iff` — an operation overflows exactly if the result has a
  constant that is not finite.
* `SumProduct.Expr.length_overflows_eq` — one operation overflows for each minimal subtree that is
  computed to a number that is not finite.
* `SumProduct.Expr.simplify_reports_overflow` — the same for the warnings in a journal.
-/

namespace SumProduct

namespace Binary64

/-- The sum of two infinities is not finite. -/
lemma isFinite_add_infinite (s t : Bool) : (add (infinite s) (infinite t)).isFinite = false := by
  rw [add]
  split_ifs <;> rfl

/-- An infinity times a finite number is not finite. -/
lemma isFinite_scaleInfinite (s : Bool) (rank : Nat) : (scaleInfinite s rank).isFinite = false := by
  rw [scaleInfinite]
  split_ifs <;> rfl

end Binary64

/-- The operands of an operation with a finite result are finite. -/
lemma Op.isFinite_of_isFinite_apply (op : Op) {a b : Binary64}
    (h : (op.apply a b).isFinite = true) : a.isFinite = true ∧ b.isFinite = true := by
  cases op with
  | add =>
    change (Binary64.add a b).isFinite = true at h
    cases a <;> cases b
    case finite.finite => exact ⟨rfl, rfl⟩
    case infinite.infinite => simp [Binary64.isFinite_add_infinite] at h
    all_goals cases h
  | mul =>
    change (Binary64.mul a b).isFinite = true at h
    cases a <;> cases b
    case finite.finite => exact ⟨rfl, rfl⟩
    case finite.infinite | infinite.finite =>
      simp [Binary64.mul, Binary64.isFinite_scaleInfinite] at h
    all_goals cases h

namespace Expr

/-! ## Constants that are not finite -/

/-- An expression has a constant that is infinite or no number. -/
def HasNonfinite (e : Expr Binary64) : Prop := ∃ x ∈ e.constants, x.isFinite = false

/-- The numbers that simplification starts from are finite: the constants of the expression, and
what is bound to its variables. -/
structure FiniteInputs (env : Environment) (e : Expr Binary64) : Prop where
  /-- The constants are finite. -/
  constants : ∀ x ∈ e.constants, x.isFinite = true
  /-- The values of the variables are finite numbers. -/
  values : ∀ n ∈ e.occurrences, ∀ value, env.find? n.text = some value →
    ∃ x, value.toBinary64 = .ok x ∧ x.isFinite = true

variable {env : Environment} {op : Op} {e left right : Expr Binary64}

/-- A constant is not finite when its value is not. -/
@[simp] lemma hasNonfinite_constant {x : Binary64} :
    HasNonfinite (constant x) ↔ x.isFinite = false := by
  simp [HasNonfinite]

/-- A node has a constant that is not finite when one of its operands has. -/
lemma hasNonfinite_binary :
    HasNonfinite (binary op left right) ↔ HasNonfinite left ∨ HasNonfinite right := by
  simp only [HasNonfinite, constants_binary, List.mem_append, or_and_right, exists_or]

/-- Only an operation on two constants is computed. -/
lemma combine_eq (op : Op) (left right : Expr Binary64) :
    (∃ a b, left = constant a ∧ right = constant b ∧
        combine op left right = ([⟨op, a, b, op.apply a b⟩], constant (op.apply a b))) ∨
      combine op left right = ([], binary op left right) := by
  unfold combine
  split
  · exact .inl ⟨_, _, rfl, rfl, rfl⟩
  · exact .inr rfl

/-- A node whose operation is computed becomes the constant of the result. -/
lemma snd_combine_of_mem {f : Folding Binary64} (h : f ∈ (combine op left right).1) :
    (combine op left right).2 = constant f.result := by
  rcases combine_eq op left right with ⟨a, b, -, -, hcombine⟩ | hcombine
  · rw [hcombine, List.mem_singleton] at h
    rw [hcombine, h]
  · rw [hcombine] at h
    cases h

/-- **What is not finite is not absorbed.** A node that is simplified over its operands has a
constant that is not finite exactly if one of the operands has, or if its operation overflows. -/
lemma hasNonfinite_combine_iff (op : Op) (left right : Expr Binary64) :
    HasNonfinite (combine op left right).2 ↔ HasNonfinite left ∨ HasNonfinite right ∨
      ∃ f ∈ (combine op left right).1, f.Overflows := by
  rcases combine_eq op left right with ⟨a, b, rfl, rfl, h⟩ | h
  · have habsorb := op.isFinite_of_isFinite_apply (a := a) (b := b)
    -- either an operand is not finite, and then `habsorb` says that the result is not, or both are
    -- finite, and then to overflow is to have a result that is not
    simp only [h, hasNonfinite_constant, List.mem_singleton, exists_eq_left, Folding.Overflows]
    cases ha : a.isFinite <;> cases hb : b.isFinite <;> simp_all
  · simp [h, hasNonfinite_binary]

/-! ## Finite inputs -/

/-- The inputs of a node are finite when those of its operands are. -/
lemma finiteInputs_binary_iff :
    FiniteInputs env (binary op left right) ↔ FiniteInputs env left ∧ FiniteInputs env right := by
  constructor
  · rintro ⟨hconst, hval⟩
    simp only [constants_binary, List.mem_append, or_imp, forall_and] at hconst
    simp only [occurrences_binary, List.mem_append, or_imp, forall_and] at hval
    exact ⟨⟨hconst.1, hval.1⟩, hconst.2, hval.2⟩
  · rintro ⟨⟨hconstl, hvall⟩, hconstr, hvalr⟩
    refine ⟨fun x hx => ?_, fun n hn => ?_⟩
    · exact (List.mem_append.mp (constants_binary op left right ▸ hx)).elim (hconstl x) (hconstr x)
    · exact (List.mem_append.mp (occurrences_binary op left right ▸ hn)).elim (hvall n) (hvalr n)

/-- Finite values are numbers. -/
lemma FiniteInputs.converts (h : FiniteInputs env e) : env.Converts e := fun n hn value hvalue => by
  obtain ⟨x, hx, -⟩ := h.values n hn value hvalue
  exact ⟨x, hx⟩

/-- A constant that is among finite inputs stays finite. -/
lemma FiniteInputs.not_hasNonfinite_constant {value : Binary64}
    (h : FiniteInputs env (constant value)) : ¬ HasNonfinite (constant value) := by
  simpa using h.constants value (by simp)

/-- A variable among finite inputs becomes a finite constant or stays a variable. -/
lemma FiniteInputs.not_hasNonfinite_var {n : Name} (h : FiniteInputs env (var n)) :
    ¬ HasNonfinite ((var n).specialize env.numbers) := by
  rw [specialize, Environment.numbers]
  cases hfind : env.find? n.text with
  | none => simp [HasNonfinite]
  | some value =>
    obtain ⟨x, hx, hfinite⟩ := h.values n (by simp) value hfind
    simp [hx, hfinite, Except.toOption]

/-! ## Overflows -/

/-- **An operation overflows exactly if the result has a constant that is not finite.**

**Proof sketch.** Induction on the expression. At a node, a constant that is not finite comes from
an operand or from an overflow of the node itself (`hasNonfinite_combine_iff`), and no such constant
that comes from an operand is lost. -/
theorem exists_overflows_iff (h : FiniteInputs env e) :
    (∃ f ∈ e.foldings env.bound, f.Overflows) ↔ HasNonfinite (e.specialize env.numbers) := by
  induction e with
  | constant value =>
    exact iff_of_false (by simp [foldings, simplifyTraced]) h.not_hasNonfinite_constant
  | var name =>
    refine iff_of_false ?_ h.not_hasNonfinite_var
    rw [foldings, simplifyTraced, h.converts.bound_eq (by simp)]
    cases env.numbers name <;> simp
  | binary op left right ihl ihr =>
    obtain ⟨hleft, hright⟩ := finiteInputs_binary_iff.mp h
    rw [foldings_binary fun n hn => h.converts.bound_eq hn, specialize, hasNonfinite_combine_iff,
      ← ihl hleft, ← ihr hright]
    simp only [List.mem_append, or_and_right, exists_or, or_assoc]

/-! ## Minimal subtrees -/

/-- A subtree is computed to a number that is not finite: it has operands, all its variables are
bound, and its value is infinite or no number. -/
def foldsToNonfinite (env : Environment) (t : Expr Binary64) : Bool :=
  match t.binary?, t.evaluate env with
  | some _, .ok x => !x.isFinite
  | _, _ => false

/-- A subtree is computed to a number that is not finite, and no smaller subtree of it is. -/
def isMinimalNonfinite (env : Environment) (t : Expr Binary64) : Bool :=
  t.foldsToNonfinite env && !t.children.any fun c => c.postorder.any fun s => s.foldsToNonfinite env

/-- An expression with a value is fully bound. -/
lemma fullyBound_of_evaluate {x : Binary64} (h : e.evaluate env = .ok x) : FullyBound env e := by
  have hnone := faultOf?_eq_none_iff.mpr ⟨x, h⟩
  rw [evaluate, faultOf?_evaluateWith, List.findSome?_eq_none_iff] at hnone
  intro n hn
  obtain ⟨y, hy⟩ := faultOf?_eq_none_iff.mp (hnone n hn)
  rw [Environment.read, Environment.bound] at hy
  cases hfind : env.find? n.text with
  | none => simp [hfind] at hy
  | some value => rfl

/-- A subtree is computed to a number that is not finite when simplification leaves such a constant
for it. -/
lemma foldsToNonfinite_iff (h : FiniteInputs env e) :
    e.foldsToNonfinite env = true ↔
      ∃ x, e.specialize env.numbers = constant x ∧ x.isFinite = false := by
  cases e with
  | constant value =>
    refine iff_of_false (by simp [foldsToNonfinite, binary?]) ?_
    rintro ⟨x, hx, hfinite⟩
    exact h.not_hasNonfinite_constant (by rwa [← specialize, hx, hasNonfinite_constant])
  | var name =>
    refine iff_of_false (by simp [foldsToNonfinite, binary?]) ?_
    rintro ⟨x, hx, hfinite⟩
    exact h.not_hasNonfinite_var (by rwa [hx, hasNonfinite_constant])
  | binary op left right =>
    by_cases hbound : FullyBound env (binary op left right)
    · obtain ⟨x, hx, hconstant⟩ := hbound.specialize_eq h.converts
      simp [foldsToNonfinite, binary?, hx, hconstant]
    · refine iff_of_false ?_ ?_
      · cases hx : (binary op left right).evaluate env with
        | error fault => simp [foldsToNonfinite, hx]
        | ok x => exact absurd (fullyBound_of_evaluate hx) hbound
      · rintro ⟨x, hx, -⟩
        exact hbound ((specialize_numbers_eq_constant_iff h.converts).mp ⟨x, hx⟩)

/-- Some subtree is computed to a number that is not finite exactly if the result has such a
constant. -/
lemma any_foldsToNonfinite_iff (h : FiniteInputs env e) :
    (e.postorder.any fun t => t.foldsToNonfinite env) = true ↔
      HasNonfinite (e.specialize env.numbers) := by
  induction e with
  | constant value =>
    exact iff_of_false (by simp [foldsToNonfinite, binary?]) h.not_hasNonfinite_constant
  | var name => exact iff_of_false (by simp [foldsToNonfinite, binary?]) h.not_hasNonfinite_var
  | binary op left right ihl ihr =>
    obtain ⟨hleft, hright⟩ := finiteInputs_binary_iff.mp h
    simp only [postorder_binary, List.any_append, Bool.or_eq_true, ihl hleft, ihr hright,
      List.any_cons, List.any_nil, Bool.or_false, foldsToNonfinite_iff h, specialize]
    have hnode := hasNonfinite_combine_iff op (left.specialize env.numbers)
      (right.specialize env.numbers)
    constructor
    · rintro ((hoperand | hoperand) | ⟨x, hx, hfinite⟩)
      · exact hnode.mpr (.inl hoperand)
      · exact hnode.mpr (.inr (.inl hoperand))
      · rwa [hx, hasNonfinite_constant]
    · intro hresult
      obtain hoperand | hoperand | ⟨f, hf, hoverflow⟩ := hnode.mp hresult
      · exact .inl (.inl hoperand)
      · exact .inl (.inr hoperand)
      · exact .inr ⟨f.result, snd_combine_of_mem hf, hoverflow.1⟩

/-- A node is a minimal subtree that is computed to a number that is not finite exactly if its
operation overflows. -/
lemma isMinimalNonfinite_binary_iff (h : FiniteInputs env (binary op left right)) :
    isMinimalNonfinite env (binary op left right) = true ↔
      ∃ f ∈ (combine op (left.specialize env.numbers) (right.specialize env.numbers)).1,
        f.Overflows := by
  obtain ⟨hleft, hright⟩ := finiteInputs_binary_iff.mp h
  simp only [isMinimalNonfinite, children, List.any_cons, List.any_nil, Bool.or_false,
    Bool.and_eq_true, Bool.not_eq_true', ← Bool.not_eq_true, Bool.or_eq_true,
    any_foldsToNonfinite_iff hleft, any_foldsToNonfinite_iff hright, foldsToNonfinite_iff h,
    specialize]
  rcases combine_eq op (left.specialize env.numbers) (right.specialize env.numbers) with
    ⟨a, b, ha, hb, hcombine⟩ | hcombine
  · rw [hcombine, ha, hb]
    simp [Folding.Overflows]
  · simp [hcombine]

/-- **One operation overflows for each minimal subtree that is computed to a number that is not
finite.**

**Proof sketch.** Induction on the expression: the operations of the operands come first, and that
of the node overflows exactly if the node is such a subtree (`isMinimalNonfinite_binary_iff`). -/
theorem length_overflows_eq (h : FiniteInputs env e) :
    ((e.foldings env.bound).filter fun f => decide f.Overflows).length =
      e.postorder.countP (isMinimalNonfinite env) := by
  induction e with
  | constant value =>
    simp [foldings, simplifyTraced, isMinimalNonfinite, foldsToNonfinite, binary?]
  | var name =>
    rw [foldings, simplifyTraced, h.converts.bound_eq (by simp)]
    cases env.numbers name <;> simp [isMinimalNonfinite, foldsToNonfinite, binary?]
  | binary op left right ihl ihr =>
    obtain ⟨hleft, hright⟩ := finiteInputs_binary_iff.mp h
    rw [foldings_binary fun n hn => h.converts.bound_eq hn, List.filter_append, List.filter_append,
      List.length_append, List.length_append, ihl hleft, ihr hright, postorder_binary,
      List.countP_append, List.countP_append, List.countP_singleton]
    simp only [isMinimalNonfinite_binary_iff h, Nat.add_left_cancel_iff]
    rcases combine_eq op (left.specialize env.numbers) (right.specialize env.numbers) with
      ⟨a, b, ha, hb, hcombine⟩ | hcombine
    · by_cases hflows : Folding.Overflows ⟨op, a, b, op.apply a b⟩ <;> simp [hcombine, hflows]
    · simp [hcombine]

/-! ## Warnings -/

/-- There is a warning exactly if the result has a constant that is not finite. -/
lemma simplifyWarnings_ne_nil_iff (h : FiniteInputs env e) :
    e.simplifyWarnings env ≠ [] ↔ HasNonfinite (e.specialize env.numbers) := by
  simp [← exists_overflows_iff h, simplifyWarnings, List.filter_eq_nil_iff]

/-- **Simplification reports overflow.** Let the constants of the expression and the values of its
variables be finite, and let the journal pass warnings on. Simplifying succeeds. Some warning
arrives exactly if the result has a constant that is not finite, and where all variables are bound
this is so exactly if the value of the expression is not finite. There is one warning for each
minimal subtree that is computed to a number that is not finite, and each is delivered as a message
of its own.

**Proof sketch.** The warnings are those of the operations that overflow, and with finite inputs an
operation overflows exactly if the result has a constant that is not finite
(`exists_overflows_iff`). They are counted by `length_overflows_eq`. If all variables are bound, the
result is the constant of the value. -/
theorem simplify_reports_overflow (e : Expr Binary64) (env : Environment) (h : FiniteInputs env e)
    (j : Journal) (hlevel : j.currentLevel.allows .minimal = true) :
    ∃ s, (j.simplify e env).2.2 = .ok s ∧ e.simplify env = .ok s ∧
      ((j.simplify e env).2.1 ≠ [] ↔ HasNonfinite s) ∧
      (j.simplify e env).2.1 = ((e.simplifyWarnings env).flatMap fun text =>
        Journal.deliver j.opened.handlers ⟨.warning, text⟩) ∧
      (e.simplifyWarnings env).length = e.postorder.countP (isMinimalNonfinite env) ∧
      (FullyBound env e → ∃ x, e.evaluate env = .ok x ∧
        ((j.simplify e env).2.1 ≠ [] ↔ x.isFinite = false)) := by
  have hsimplify := simplify_eq_specialize h.converts
  have hwarned : (j.simplify e env).2.1 ≠ [] ↔ HasNonfinite (e.specialize env.numbers) :=
    (Journal.snd_warnings_ne_nil_iff hlevel _).trans (simplifyWarnings_ne_nil_iff h)
  refine ⟨e.specialize env.numbers, ?_, hsimplify, hwarned, Journal.snd_warnings hlevel _, ?_,
    fun hbound => ?_⟩
  · change (e.simplify env).mapError Failure.conversion = _
    rw [hsimplify]
    rfl
  · rw [simplifyWarnings, List.length_map, length_overflows_eq h]
  · obtain ⟨x, hvalue, hconstant⟩ := hbound.specialize_eq h.converts
    exact ⟨x, hvalue, by rw [hwarned, hconstant, hasNonfinite_constant]⟩

/-- With `x` bound to ten, both products in `(x * 1e308 + x * 1e308) * (y + 1)` overflow. Their sum
is infinite as well, but that is no news. -/
theorem simplify_reports_overflow_twice :
    let huge : Binary64 := Binary64.nearest false (tenPow 308) 1
    let scaled : Expr Binary64 := binary .mul (var ⟨"x", by decide⟩) (constant huge)
    let rest : Expr Binary64 :=
      binary .add (var ⟨"y", by decide⟩) (constant (Binary64.ofInt 1))
    let e := binary .mul (binary .add scaled scaled) rest
    let env : Environment := ⟨[("x", .integer 10)], by decide⟩
    let j := Journal.unused
    FiniteInputs env e ∧ j.currentLevel.allows .minimal = true ∧
      e.simplify env = .ok (binary .mul (constant (.infinite false)) rest) ∧
      (j.simplify e env).2.1 ≠ [] ∧ e.postorder.countP (isMinimalNonfinite env) = 2 ∧
      (e.simplifyWarnings env).length = 2 := by
  intro huge scaled rest e env j
  have hfinite : FiniteInputs env e :=
    ⟨by decide +kernel, fun n _ value hvalue => by
      obtain ⟨-, rfl⟩ : n.text = "x" ∧ value = .integer 10 := by
        simpa [env] using Bindings.mem_entries_of_find? hvalue
      exact ⟨Binary64.ofInt 10, by decide +kernel, by decide +kernel⟩⟩
  have hlevel : j.currentLevel.allows .minimal = true := by decide
  have hresult : e.simplify env = .ok (binary .mul (constant (.infinite false)) rest) := by
    decide +kernel
  have htwo : e.postorder.countP (isMinimalNonfinite env) = 2 := by decide +kernel
  obtain ⟨s, -, hs, hwarned, -, hcount, -⟩ := simplify_reports_overflow e env hfinite j hlevel
  obtain rfl := Except.ok.inj (hresult.symm.trans hs)
  exact ⟨hfinite, hlevel, hresult, hwarned.mpr ⟨.infinite false, by simp, rfl⟩, htwo,
    hcount.trans htwo⟩

end Expr

end SumProduct
