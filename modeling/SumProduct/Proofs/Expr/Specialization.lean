import Mathlib.Tactic.Common
import SumProduct.Expr.Simplification
import SumProduct.Proofs.Expr.Walk

/-!
# Specialization

Simplification and evaluation where no bound value fails to be a number: a partial assignment of
numbers to variables then says all about the bindings. The specialized expression has the bound
variables as constants and every operation on two constants computed.

## Main definitions

* `SumProduct.Expr.specialize` — the expression specialized to a partial assignment.
* `SumProduct.Environment.numbers` — the partial assignment that an environment stands for.
* `SumProduct.Environment.Converts` — the bound values that an expression needs are numbers.

## Main results

* `SumProduct.Expr.simplify_eq_specialize` — what simplification gives, it gives by specializing.
* `SumProduct.Expr.occurrences_specialize` — the variables left are the unbound ones.
* `SumProduct.Expr.specialize_eq_constant` — a fully bound expression becomes its value.
* `SumProduct.Expr.specialize_eq_constant_iff` — no other expression becomes a constant.
* `SumProduct.Expr.foldings_binary` — the operations that are computed on the way.
-/

namespace SumProduct

universe u

namespace Expr

section Specialize

variable {α : Type u} [Add α] [Mul α] (bound : Name → Option α)

/-- The expression with bound variables as constants and all operations on constants computed. -/
def specialize : Expr α → Expr α
  | constant value => constant value
  | var name => ((bound name).map constant).getD (var name)
  | binary op left right => (combine op left.specialize right.specialize).2

variable {bound}

/-- A node over simplified operands is the node itself unless both operands are constants. -/
lemma combine_eq_binary {op : Op} {left right : Expr α}
    (h : ¬ ∃ a b, left = constant a ∧ right = constant b) :
    (combine op left right).2 = binary op left right := by
  cases left with
  | constant a =>
    cases right with
    | constant b => exact absurd ⟨a, b, rfl, rfl⟩ h
    | var _ | binary _ _ _ => rfl
  | var _ | binary _ _ _ => rfl

/-- Computing an operation on constants loses no variable. -/
lemma occurrences_combine (op : Op) (left right : Expr α) :
    (combine op left right).2.occurrences = left.occurrences ++ right.occurrences := by
  by_cases h : ∃ a b, left = constant a ∧ right = constant b
  · obtain ⟨a, b, rfl, rfl⟩ := h
    simp [combine]
  · rw [combine_eq_binary h, occurrences_binary]

/-- The variables that are left are the unbound ones, in their order. -/
theorem occurrences_specialize (e : Expr α) :
    (e.specialize bound).occurrences = e.occurrences.filter fun n => (bound n).isNone := by
  induction e with
  | constant value => simp [specialize]
  | var name => cases h : bound name <;> simp [specialize, h]
  | binary op left right ihl ihr =>
    rw [specialize, occurrences_combine, ihl, ihr, occurrences_binary, List.filter_append]

/-- An expression whose variables are all bound becomes the constant of its value. -/
theorem specialize_eq_constant {ε : Type u} {e : Expr α} {read : Name → Except ε α}
    (hread : ∀ n ∈ e.occurrences, ∃ x, bound n = some x ∧ read n = .ok x) :
    ∃ x, e.evaluateWith read = .ok x ∧ e.specialize bound = constant x := by
  induction e with
  | constant value => exact ⟨value, rfl, rfl⟩
  | var name =>
    obtain ⟨x, hbound, hread⟩ := hread name (by simp)
    exact ⟨x, hread, by simp [specialize, hbound]⟩
  | binary op left right ihl ihr =>
    simp only [occurrences_binary, List.mem_append] at hread
    obtain ⟨a, hla, hca⟩ := ihl fun n hn => hread n (.inl hn)
    obtain ⟨b, hrb, hcb⟩ := ihr fun n hn => hread n (.inr hn)
    exact ⟨op.apply a b, by simp [evaluateWith, hla, hrb], by simp [specialize, hca, hcb, combine]⟩

/-- An expression becomes a constant only if all its variables are bound. -/
theorem specialize_eq_constant_iff {e : Expr α} :
    (∃ x, e.specialize bound = constant x) ↔ ∀ n ∈ e.occurrences, (bound n).isSome := by
  constructor
  · rintro ⟨x, hx⟩ n hn
    have hnone := congrArg occurrences hx
    rw [occurrences_specialize, occurrences_constant, List.filter_eq_nil_iff] at hnone
    simpa [Option.isSome_iff_ne_none] using hnone n hn
  · intro hbound
    have hread : ∀ n ∈ e.occurrences, ∃ x, bound n = some x ∧
        (fun n => (bound n).elim (Except.error PUnit.unit) Except.ok) n = Except.ok x := by
      intro n hn
      obtain ⟨x, hx⟩ := Option.isSome_iff_exists.mp (hbound n hn)
      exact ⟨x, hx, by simp [hx]⟩
    obtain ⟨x, -, hx⟩ := specialize_eq_constant hread
    exact ⟨x, hx⟩

/-- No operation on two constants is left. -/
theorem binary_constants_notMem_specialize (e : Expr α) (op : Op) (a b : α) :
    binary op (constant a) (constant b) ∉ (e.specialize bound).postorder := by
  induction e with
  | constant value => simp [specialize]
  | var name => cases h : bound name <;> simp [specialize, h]
  | binary op' left right ihl ihr =>
    rw [specialize]
    by_cases h : ∃ x y, left.specialize bound = constant x ∧ right.specialize bound = constant y
    · obtain ⟨x, y, hx, hy⟩ := h
      simp [hx, hy, combine]
    · rw [combine_eq_binary h, postorder_binary]
      simp only [List.mem_append, List.mem_singleton, not_or]
      refine ⟨⟨ihl, ihr⟩, fun heq => h ⟨a, b, ?_⟩⟩
      rw [binary.injEq] at heq
      exact ⟨heq.2.1.symm, heq.2.2.symm⟩

/-- Simplification with bindings that never fail is specialization. -/
theorem simplifyWith_eq_specialize {ε : Type u} {e : Expr α}
    {read : Name → Except ε (Option α)} (hread : ∀ n ∈ e.occurrences, read n = .ok (bound n)) :
    e.simplifyWith read = .ok (e.specialize bound) := by
  induction e with
  | constant value => rfl
  | var name =>
    rw [simplifyWith, simplifyTraced, hread name (by simp), specialize]
    cases bound name <;> rfl
  | binary op left right ihl ihr =>
    simp only [occurrences_binary, List.mem_append] at hread
    have hleft := ihl fun n hn => hread n (.inl hn)
    have hright := ihr fun n hn => hread n (.inr hn)
    rw [simplifyWith] at hleft hright
    rw [simplifyWith, simplifyTraced, specialize]
    rcases hl : left.simplifyTraced read with ⟨before, outcome⟩
    rcases hr : right.simplifyTraced read with ⟨after, outcome'⟩
    rw [hl] at hleft
    rw [hr] at hright
    simp only at hleft hright
    subst hleft hright
    rfl

/-- The operations computed at a node are those computed at its operands and, if the operands
become constants, the operation of the node. -/
lemma foldings_binary {ε : Type u} {op : Op} {left right : Expr α}
    {read : Name → Except ε (Option α)}
    (hread : ∀ n ∈ (binary op left right).occurrences, read n = .ok (bound n)) :
    (binary op left right).foldings read = left.foldings read ++ right.foldings read ++
      (combine op (left.specialize bound) (right.specialize bound)).1 := by
  simp only [occurrences_binary, List.mem_append] at hread
  have hleft : left.simplifyTraced read = (left.foldings read, .ok (left.specialize bound)) :=
    Prod.ext rfl (simplifyWith_eq_specialize fun n hn => hread n (.inl hn))
  have hright : right.simplifyTraced read = (right.foldings read, .ok (right.specialize bound)) :=
    Prod.ext rfl (simplifyWith_eq_specialize fun n hn => hread n (.inr hn))
  rw [foldings, simplifyTraced, hleft, hright]

end Specialize

end Expr

/-! ## Environments -/

/-- The numbers that an environment binds variables to. -/
def Environment.numbers (env : Environment) (name : Name) : Option Binary64 :=
  (env.find? name.text).bind fun value => value.toBinary64.toOption

/-- The values that an environment binds the variables of an expression to are numbers. -/
def Environment.Converts (env : Environment) (e : Expr Binary64) : Prop :=
  ∀ n ∈ e.occurrences, ∀ value, env.find? n.text = some value → ∃ x, value.toBinary64 = .ok x

namespace Environment

variable {env : Environment} {e : Expr Binary64} {n : Name}

/-- A binding that an expression needs is read as the number that it stands for. -/
lemma Converts.bound_eq (hconv : env.Converts e) (hn : n ∈ e.occurrences) :
    env.bound n = .ok (env.numbers n) := by
  rw [bound, numbers]
  cases hfind : env.find? n.text with
  | none => rfl
  | some value =>
    obtain ⟨x, hx⟩ := hconv n hn value hfind
    simp [hx, Except.toOption]

/-- A variable has a number when it is bound. -/
lemma Converts.isSome_numbers (hconv : env.Converts e) (hn : n ∈ e.occurrences) :
    (env.numbers n).isSome = (env.find? n.text).isSome := by
  rw [numbers]
  cases hfind : env.find? n.text with
  | none => rfl
  | some value =>
    obtain ⟨x, hx⟩ := hconv n hn value hfind
    simp [hx, Except.toOption]

/-- Evaluation reads the number of a variable that has one. -/
lemma Converts.read_eq (hconv : env.Converts e) (hn : n ∈ e.occurrences) {x : Binary64}
    (hx : env.numbers n = some x) : env.read n = .ok x := by
  rw [read, hconv.bound_eq hn, hx]

end Environment

/-- What simplification gives, it gives by specializing. -/
theorem Expr.simplify_eq_specialize {e : Expr Binary64} {env : Environment}
    (hconv : env.Converts e) : e.simplify env = .ok (e.specialize env.numbers) :=
  simplifyWith_eq_specialize fun _ hn => hconv.bound_eq hn

end SumProduct
