import Mathlib.Tactic.Linarith
import SumProduct.Proofs.Expr.Derivative
import SumProduct.Proofs.Expr.FirstFault

/-!
# The size of derivatives

The rule for products copies both operands, so a derivative is larger than its expression, but not
by much. With `k` leaves it has at most `k * k + 3 * k - 3` nodes: what a product adds is linear in
its leaves, and the squares of the operands leave room for that. The bound is met by the chains of
products from the left. The derivative is at most twice as deep, and everything in its leaves comes
from the expression or is zero or one, so it has a value wherever the expression has one.

## Main results

* `SumProduct.Expr.size_derivative_le`, `SumProduct.Expr.size_derivative_chain` — the number of
  nodes, and the chains that have as many as there can be.
* `SumProduct.Expr.depth_derivative_le` — the depth.
* `SumProduct.Expr.derivative_adds_little` — these, with the variables, constants and values.
* `SumProduct.Expr.derivative_adds_little_unread` — where only the derivative misses a variable.
-/

namespace SumProduct

namespace Expr

universe u

section Size

variable {α : Type u} [Zero α] [One α]

/-- The derivative of a leaf is a leaf. -/
lemma size_derivative_of_isLeaf {e : Expr α} (h : e.isLeaf) (x : String) :
    (e.derivative x).size = 1 := by
  cases e with
  | constant value => rfl
  | var name =>
    rw [derivative]
    split <;> rfl
  | binary op left right => cases h

/-- The derivative of a product has its operands and their derivatives, and three more nodes. -/
lemma size_derivative_mul (left right : Expr α) (x : String) :
    ((binary .mul left right).derivative x).size =
      (left.derivative x).size + (right.derivative x).size + left.size + right.size + 3 := by
  simp only [derivative, size]
  omega

/-- **The derivative of an expression with `k` leaves has at most `k * k + 3 * k - 3` nodes.**

**Proof sketch.** Induction on the expression. With `a` and `b` leaves in the operands, the squares
of both leave `2 * a * b` of the square of `a + b`. A product adds `2 * (a + b)` to the derivatives
of its operands and a sum less, and `a + b - 1 ≤ a * b`. -/
theorem size_derivative_le (e : Expr α) (x : String) :
    (e.derivative x).size + 3 ≤ e.leaves.length * e.leaves.length + 3 * e.leaves.length := by
  induction e with
  | constant value => exact le_rfl
  | var name => rw [size_derivative_of_isLeaf rfl, leaves, List.length_singleton]
  | binary op left right ihl ihr =>
    have hproduct : left.leaves.length + right.leaves.length ≤
        left.leaves.length * right.leaves.length + 1 := by
      have hle := Nat.add_sub_one_le_mul left.length_leaves_pos.ne' right.length_leaves_pos.ne'
      omega
    have hleft := left.size_add_one
    have hright := right.size_add_one
    rw [leaves, List.length_append]
    cases op with
    | add =>
      simp only [derivative, size]
      nlinarith only [ihl, ihr, hproduct]
    | mul =>
      rw [size_derivative_mul]
      nlinarith only [ihl, ihr, hproduct, hleft, hright]

/-- A product with a leaf on the right meets the bound if its left operand does. -/
lemma size_derivative_mul_leaf {e leaf : Expr α} {x : String} (hleaf : leaf.isLeaf)
    (h : (e.derivative x).size + 3 = e.leaves.length * e.leaves.length + 3 * e.leaves.length) :
    ((binary .mul e leaf).derivative x).size + 3 =
      (binary .mul e leaf).leaves.length * (binary .mul e leaf).leaves.length +
        3 * (binary .mul e leaf).leaves.length := by
  have hsize := e.size_add_one
  have hleafsize := leaf.size_add_one
  rw [leaves_of_isLeaf hleaf, List.length_singleton] at hleafsize
  rw [size_derivative_mul, size_derivative_of_isLeaf hleaf, leaves, leaves_of_isLeaf hleaf,
    List.length_append, List.length_singleton]
  linarith only [h, hsize, hleafsize]

/-- **Every chain of products from the left meets the bound**, whatever its leaves are.

**Proof sketch.** Induction on the leaves behind the first, for all trees that meet the bound in the
place of the first leaf. -/
theorem size_derivative_chain {first : Expr α} {rest : List (Expr α)} (x : String)
    (hfirst : first.isLeaf) (hrest : ∀ leaf ∈ rest, leaf.isLeaf) :
    (rest.foldl (binary .mul) first).leaves = first :: rest ∧
      ((rest.foldl (binary .mul) first).derivative x).size + 3 =
        (rest.length + 1) * (rest.length + 1) + 3 * (rest.length + 1) := by
  have hchain (e : Expr α)
      (h : (e.derivative x).size + 3 = e.leaves.length * e.leaves.length + 3 * e.leaves.length) :
      (rest.foldl (binary .mul) e).leaves = e.leaves ++ rest ∧
        ((rest.foldl (binary .mul) e).derivative x).size + 3 =
          (e.leaves ++ rest).length * (e.leaves ++ rest).length +
            3 * (e.leaves ++ rest).length := by
    induction rest generalizing e with
    | nil => simpa using h
    | cons leaf rest ih =>
      have hleaf := hrest leaf List.mem_cons_self
      have hnext := ih (fun l hl => hrest l (List.mem_cons_of_mem leaf hl)) _
        (size_derivative_mul_leaf hleaf h)
      rwa [leaves, leaves_of_isLeaf hleaf, List.append_assoc] at hnext
  have hall := hchain first (by
    rw [size_derivative_of_isLeaf hfirst, leaves_of_isLeaf hfirst, List.length_singleton])
  rw [leaves_of_isLeaf hfirst] at hall
  exact hall

/-- **The derivative is less than twice as deep as the expression.** A product puts two nodes over
the derivatives of its operands where the expression has one. -/
theorem depth_derivative_le (e : Expr α) (x : String) :
    (e.derivative x).depth + 1 ≤ 2 * e.depth := by
  induction e with
  | constant value => exact le_rfl
  | var name =>
    rw [derivative]
    split <;> exact le_rfl
  | binary op left right ihl ihr =>
    have hleft := left.depth_pos
    have hright := right.depth_pos
    cases op <;> simp only [derivative, depth] <;> omega

end Size

/-! ## Values -/

/-- A variable is missing for an evaluation only if it occurs and nothing is bound to it. -/
lemma missing_of_evaluate {e : Expr Binary64} {env : Environment} {n : Name}
    (h : e.evaluate env = .error (.missing n)) :
    n ∈ e.occurrences ∧ env.find? n.text = none := by
  rw [evaluate, ← faultOf?_eq_some_iff, faultOf?_evaluateWith] at h
  obtain ⟨m, hm, hfault⟩ := List.exists_of_findSome?_eq_some h
  rw [Environment.faultOf?_read, Environment.evaluationFault?] at hfault
  cases hbound : env.find? m.text with
  | none =>
    simp only [hbound, Option.some.injEq, EvaluationError.missing.injEq] at hfault
    exact ⟨hfault ▸ hm, hfault ▸ hbound⟩
  | some value => simp [hbound] at hfault

/-- The derivative has a value wherever the expression has one. -/
lemma exists_evaluate_derivative {e : Expr Binary64} {env : Environment} {value : Binary64}
    (x : String) (h : e.evaluate env = .ok value) :
    ∃ rate, (e.derivative x).evaluate env = .ok rate := by
  have hread : faultOf? (e.evaluate env) = none := faultOf?_eq_none_iff.mpr ⟨value, h⟩
  rw [evaluate, faultOf?_evaluateWith, List.findSome?_eq_none_iff] at hread
  rw [evaluate, ← faultOf?_eq_none_iff, faultOf?_evaluateWith, List.findSome?_eq_none_iff]
  exact fun n hn => hread n (mem_occurrences_of_mem_derivative hn)

/-- **Derivatives stay small and introduce nothing new.** The derivative of an expression with `k`
leaves has at most `k * k + 3 * k - 3` nodes, and exactly as many if the expression is a chain of
products from the left. Its depth is at most twice that of the expression less one. Its variables
are among those of the expression, and its constants among those of the expression, zero and one.

A variable that the derivative misses occurs in the expression and is not bound. If an expression is
evaluated and misses no variable, the derivative has a value, unless the evaluation of the
expression has come to a value that is no number before any variable that is not bound. -/
theorem derivative_adds_little (e : Expr Binary64) (x : String) :
    ((e.derivative x).size ≤ e.leaves.length * e.leaves.length + 3 * e.leaves.length - 3 ∧
      ∀ (first : Expr Binary64) (rest : List (Expr Binary64)), first.isLeaf →
        (∀ leaf ∈ rest, leaf.isLeaf) → e = rest.foldl (binary .mul) first →
        e.leaves = first :: rest ∧
          (e.derivative x).size = e.leaves.length * e.leaves.length + 3 * e.leaves.length - 3) ∧
    (e.derivative x).depth ≤ 2 * e.depth - 1 ∧
    (∀ name ∈ (e.derivative x).variableNames, name ∈ e.variableNames) ∧
    (∀ z ∈ (e.derivative x).constants, z = 0 ∨ z = 1 ∨ z ∈ e.constants) ∧
    ∀ env : Environment,
      (∀ n, (e.derivative x).evaluate env = .error (.missing n) →
        n ∈ e.occurrences ∧ env.find? n.text = none) ∧
      ((∀ n, e.evaluate env ≠ .error (.missing n)) →
        (∃ rate, (e.derivative x).evaluate env = .ok rate) ∨
          ∃ fault, e.evaluate env = .error (.conversion fault)) := by
  refine ⟨⟨Nat.le_sub_of_add_le (size_derivative_le e x), ?chain⟩,
    Nat.le_sub_of_add_le (depth_derivative_le e x), ?names,
    fun z => mem_constants_of_mem_derivative, fun env => ⟨fun n h => ?missing, fun h => ?value⟩⟩
  case chain =>
    rintro first rest hfirst hrest rfl
    obtain ⟨hleaves, hsize⟩ := size_derivative_chain x hfirst hrest
    refine ⟨hleaves, ?_⟩
    rw [hleaves, List.length_cons]
    exact Nat.eq_sub_of_add_eq hsize
  case names =>
    intro name hname
    obtain ⟨n, hn, htext⟩ := mem_variableNames_iff.mp hname
    exact mem_variableNames_iff.mpr ⟨n, mem_occurrences_of_mem_derivative hn, htext⟩
  case missing =>
    obtain ⟨hoccurs, hbound⟩ := missing_of_evaluate h
    exact ⟨mem_occurrences_of_mem_derivative hoccurs, hbound⟩
  case value =>
    cases hevaluate : e.evaluate env with
    | ok value => exact .inl (exists_evaluate_derivative x hevaluate)
    | error fault =>
      cases fault with
      | missing n => exact absurd hevaluate (h n)
      | conversion fault => exact .inr ⟨fault, rfl⟩

/-- The derivative of `x * 2.5 * y` has fifteen nodes, as many as three leaves allow. With `x` and
`y` bound to numbers it has a value. -/
theorem derivative_adds_little_chain :
    let x : Expr Binary64 := var ⟨"x", by decide⟩
    let y : Expr Binary64 := var ⟨"y", by decide⟩
    let factor : Expr Binary64 := constant (Binary64.nearest false 5 2)
    let e := binary .mul (binary .mul x factor) y
    let env : Environment := ⟨[("x", .integer 3), ("y", .text "0.5")], by decide⟩
    (e.derivative "x").size = 15 ∧ (∀ n, e.evaluate env ≠ .error (.missing n)) ∧
      ∃ rate, (e.derivative "x").evaluate env = .ok rate := by
  intro x y factor e env
  obtain ⟨⟨-, hchain⟩, -, -, -, hvalues⟩ := derivative_adds_little e "x"
  obtain ⟨hleaves, hsize⟩ := hchain x [factor, y] rfl (by simp [factor, y, isLeaf, children]) rfl
  obtain ⟨value, hvalue⟩ : ∃ value, e.evaluate env = .ok value :=
    faultOf?_eq_none_iff.mp (by decide +kernel)
  have hread (n : Name) : e.evaluate env ≠ .error (.missing n) := by simp [hvalue]
  exact ⟨hsize, hread, ((hvalues env).2 hread).resolve_right (by simp [hvalue])⟩

/-- In `a * b` with `a` bound to an integer past the finite numbers and `b` not bound, the
evaluation ends at `a` and misses no variable. The derivative `1 * b + a * 0` comes to `b` first and
misses it. -/
theorem derivative_adds_little_unread :
    let a : Expr Binary64 := var ⟨"a", by decide⟩
    let b : Name := ⟨"b", by decide⟩
    let e := binary .mul a (var b)
    let env : Environment := ⟨[("a", .integer (tenPow 400))], by decide⟩
    (∀ n, e.evaluate env ≠ .error (.missing n)) ∧
      (e.derivative "a").evaluate env = .error (.missing b) := by
  intro a b e env
  have hrefused : e.evaluate env = .error (.conversion .tooLarge) := by decide +kernel
  exact ⟨fun n => by simp [hrefused], by decide +kernel⟩

end Expr

end SumProduct
