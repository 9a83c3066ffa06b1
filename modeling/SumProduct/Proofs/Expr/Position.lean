import Mathlib.Tactic.Common
import SumProduct.Expr.Text
import SumProduct.Proofs.Expr.Walk

/-!
# Positions in a tree

An occurrence of a subtree is given by the way to it from the root, which turns into the left or the
right operand at each node. The walks list subtrees and variables; here they are tied to where these
stand.

## Main definitions

* `SumProduct.Expr.subtree?` — the subtree that a position leads to.
* `SumProduct.Expr.LeftOf` — the order of positions from left to right.

## Main results

* `SumProduct.Expr.mem_postorder_iff`, `SumProduct.Expr.mem_occurrences_iff` — what the walks list
  has a position.
* `SumProduct.Expr.findSome?_occurrences_eq_some_iff` — what is found first is found at the leftmost
  variable.
-/

namespace SumProduct

universe u v

namespace Expr

/-- A position lies to the left of another when their ways part at a node and the first turns left
there. -/
inductive LeftOf : List Side → List Side → Prop
  /-- The ways part at the root. -/
  | part {p q : List Side} : LeftOf (.left :: p) (.right :: q)
  /-- The ways part further down. -/
  | cons {side : Side} {p q : List Side} (h : LeftOf p q) : LeftOf (side :: p) (side :: q)

variable {α : Type u} {β : Type v}

/-- The operand on a side. -/
def operand? : Expr α → Side → Option (Expr α)
  | constant _, _ => none
  | var _, _ => none
  | binary _ left _, .left => some left
  | binary _ _ right, .right => some right

/-- The subtree at a position. -/
def subtree? : Expr α → List Side → Option (Expr α)
  | e, [] => some e
  | e, side :: p => (e.operand? side).bind fun t => t.subtree? p

/-- The walk over the nodes lists the subtrees at all positions. -/
lemma mem_postorder_iff {e t : Expr α} : t ∈ e.postorder ↔ ∃ p, e.subtree? p = some t := by
  constructor
  · intro h
    induction e with
    | constant _ | var _ => exact ⟨[], by simpa [subtree?, eq_comm] using h⟩
    | binary op left right ihl ihr =>
      rw [postorder_binary, List.mem_append, List.mem_append, List.mem_singleton] at h
      rcases h with (h | h) | rfl
      · exact (ihl h).imp' (.left :: ·) fun _ => id
      · exact (ihr h).imp' (.right :: ·) fun _ => id
      · exact ⟨[], rfl⟩
  · rintro ⟨p, hp⟩
    induction p generalizing e with
    | nil =>
      obtain rfl : e = t := Option.some.inj hp
      cases e <;> simp
    | cons side p ih =>
      cases e with
      | constant _ | var _ => cases hp
      | binary op left right => cases side <;> simp [ih hp]

/-- The walk over the nodes lists the root. -/
lemma self_mem_postorder (e : Expr α) : e ∈ e.postorder := mem_postorder_iff.mpr ⟨[], rfl⟩

/-- The walk over the variables lists the variable leaves at all positions. -/
lemma mem_occurrences_iff {e : Expr α} {n : Name} :
    n ∈ e.occurrences ↔ ∃ p, e.subtree? p = some (var n) := by
  have hname (t : Expr α) : t.name? = some n ↔ t = var n := by
    cases t <;> simp [name?]
  simp only [occurrences, List.mem_filterMap, hname, mem_postorder_iff]
  constructor
  · rintro ⟨t, h, rfl⟩
    exact h
  · exact fun h => ⟨_, h, rfl⟩

/-- **What is found first among the variables is found at the leftmost leaf that has it.**

**Proof sketch.** Induction on the tree. What is found in a node is found in its left operand, or in
its right operand after nothing was found in the left one, all of whose leaves lie further to the
left. -/
theorem findSome?_occurrences_eq_some_iff {e : Expr α} {f : Name → Option β} {b : β} :
    e.occurrences.findSome? f = some b ↔
      ∃ p n, e.subtree? p = some (var n) ∧ f n = some b ∧
        ∀ q m, LeftOf q p → e.subtree? q = some (var m) → f m = none := by
  induction e with
  | constant value =>
    refine iff_of_false (by simp) ?_
    rintro ⟨_ | ⟨side, p⟩, n, hp, -⟩ <;> cases hp
  | var name =>
    rw [occurrences_var, List.findSome?_singleton]
    constructor
    · intro h
      refine ⟨[], name, rfl, h, fun q m hq => ?_⟩
      cases hq
    · rintro ⟨_ | ⟨side, p⟩, n, hp, h, -⟩ <;> cases hp
      exact h
  | binary op left right ihl ihr =>
    rw [occurrences_binary, List.findSome?_append, Option.or_eq_some_iff, ihl, ihr]
    constructor
    · rintro (⟨p, n, hp, hn, hleft⟩ | ⟨hnone, p, n, hp, hn, hleft⟩)
      · refine ⟨.left :: p, n, hp, hn, fun q m hq hm => ?_⟩
        cases hq with
        | cons hq => exact hleft _ m hq hm
      · refine ⟨.right :: p, n, hp, hn, fun q m hq hm => ?_⟩
        cases hq with
        | part => exact List.findSome?_eq_none_iff.mp hnone m (mem_occurrences_iff.mpr ⟨_, hm⟩)
        | cons hq => exact hleft _ m hq hm
    · rintro ⟨_ | ⟨_ | _, p⟩, n, hp, hn, hleft⟩
      · cases hp
      · exact .inl ⟨p, n, hp, hn, fun q m hq hm => hleft (.left :: q) m hq.cons hm⟩
      · refine .inr ⟨?_, p, n, hp, hn, fun q m hq hm => hleft (.right :: q) m hq.cons hm⟩
        refine List.findSome?_eq_none_iff.mpr fun m hm => ?_
        obtain ⟨q, hq⟩ := mem_occurrences_iff.mp hm
        exact hleft (.left :: q) m .part hq

end Expr

end SumProduct
