import Mathlib.Algebra.BigOperators.Group.List.Basic
import Mathlib.Algebra.Group.Finsupp
import Mathlib.Order.Basic
import Mathlib.Tactic.Common

/-!
# Ordered lists of entries

A function that is zero almost everywhere can be kept as a list of the keys where it is not, each
with its value, in the order of the keys. Such a list is determined by the function. Monomials and
polynomials are both kept in this way.

## Main definitions

* `SumProduct.Entries.toFinsupp` — the function that a list of entries stands for.
* `SumProduct.Entries.Canonical` — ascending keys with values other than zero.
* `SumProduct.Entries.insert` — adding a value at a key.

## Main results

* `SumProduct.Entries.Canonical.insert` — adding a value keeps a list canonical.
* `SumProduct.Entries.Canonical.ext` — canonical lists that stand for the same function are equal.
-/

namespace SumProduct

universe u v

namespace Entries

variable {κ : Type u} {ν : Type v}

/-! ## The function of a list -/

section ToFinsupp

variable [AddCommMonoid ν]

/-- The function that is zero but at the keys of a list; values of the same key are added. -/
noncomputable def toFinsupp (l : List (κ × ν)) : κ →₀ ν :=
  (l.map fun t => Finsupp.single t.1 t.2).sum

/-- No entries stand for zero. -/
@[simp] lemma toFinsupp_nil : toFinsupp ([] : List (κ × ν)) = 0 := rfl

/-- One more entry adds its value at its key. -/
@[simp] lemma toFinsupp_cons (t : κ × ν) (l : List (κ × ν)) :
    toFinsupp (t :: l) = Finsupp.single t.1 t.2 + toFinsupp l := by
  rw [toFinsupp, List.map_cons, List.sum_cons, toFinsupp]

/-- The function is zero where there is no key. -/
lemma toFinsupp_eq_zero {l : List (κ × ν)} {k : κ} (h : ∀ t ∈ l, t.1 ≠ k) :
    toFinsupp l k = 0 := by
  induction l with
  | nil => rfl
  | cons t l ih =>
    rw [List.forall_mem_cons] at h
    rw [toFinsupp_cons, Finsupp.add_apply, Finsupp.single_eq_of_ne' h.1, ih h.2, add_zero]

end ToFinsupp

/-! ## Canonical lists -/

/-- The keys are ascending and no value is zero. -/
structure Canonical [Zero ν] (cmp : κ → κ → Ordering) (l : List (κ × ν)) : Prop where
  /-- The keys are ascending. -/
  ascending : l.Pairwise fun s t => cmp s.1 t.1 = .lt
  /-- No value is zero. -/
  nonzero : ∀ t ∈ l, t.2 ≠ 0

section Canonical

variable {cmp : κ → κ → Ordering}

/-- The empty list is canonical. -/
lemma canonical_nil [Zero ν] : Canonical cmp ([] : List (κ × ν)) := ⟨.nil, by simp⟩

/-- A canonical list is one entry whose key is before those of a canonical list. -/
lemma canonical_cons [Zero ν] {t : κ × ν} {l : List (κ × ν)} :
    Canonical cmp (t :: l) ↔
      (∀ s ∈ l, cmp t.1 s.1 = .lt) ∧ t.2 ≠ 0 ∧ Canonical cmp l := by
  constructor
  · rintro ⟨hascending, hnonzero⟩
    rw [List.pairwise_cons] at hascending
    rw [List.forall_mem_cons] at hnonzero
    exact ⟨hascending.1, hnonzero.1, hascending.2, hnonzero.2⟩
  · rintro ⟨hlt, hne, hascending, hnonzero⟩
    exact ⟨.cons hlt hascending, List.forall_mem_cons.mpr ⟨hne, hnonzero⟩⟩

variable [Std.TransCmp cmp]

/-- A key is not before itself. -/
lemma ne_of_lt {a b : κ} (h : cmp a b = .lt) : a ≠ b := by
  rintro rfl
  cases h.symm.trans Std.ReflCmp.compare_self

variable [AddCommMonoid ν] {l l' : List (κ × ν)}

/-- The entries of a canonical list are the keys with their values, where these are not zero. -/
lemma Canonical.mem_iff (h : Canonical cmp l) {k : κ} {v : ν} :
    (k, v) ∈ l ↔ v ≠ 0 ∧ toFinsupp l k = v := by
  induction l with
  | nil => simp [eq_comm]
  | cons t l ih =>
    obtain ⟨k', w⟩ := t
    obtain ⟨hlt, hne, h⟩ := canonical_cons.mp h
    rw [List.mem_cons, ih h, toFinsupp_cons, Finsupp.add_apply, Prod.mk.injEq]
    by_cases hk : k' = k
    · subst hk
      -- The keys behind are larger, so the first key is not among them.
      have hzero : toFinsupp l k' = 0 := toFinsupp_eq_zero fun s hs => (ne_of_lt (hlt s hs)).symm
      rw [hzero, Finsupp.single_eq_same, add_zero]
      constructor
      · rintro (⟨-, rfl⟩ | ⟨hv, rfl⟩)
        · exact ⟨hne, rfl⟩
        · exact absurd rfl hv
      · rintro ⟨-, rfl⟩
        exact .inl ⟨rfl, rfl⟩
    · rw [Finsupp.single_eq_of_ne' hk, zero_add]
      exact or_iff_right fun heq => hk heq.1.symm

/-- **A canonical list is determined by its function.** -/
theorem Canonical.ext (h : Canonical cmp l) (h' : Canonical cmp l')
    (heq : ∀ k, toFinsupp l k = toFinsupp l' k) : l = l' := by
  have hmem (t : κ × ν) : t ∈ l ↔ t ∈ l' := by
    rw [h.mem_iff (k := t.1) (v := t.2), h'.mem_iff, heq]
  have hnodup {l : List (κ × ν)} (h : Canonical cmp l) : l.Nodup :=
    h.ascending.imp fun hlt heq => ne_of_lt hlt (congrArg Prod.fst heq)
  have hperm : l.Perm l' := (List.perm_ext_iff_of_nodup (hnodup h) (hnodup h')).mpr hmem
  refine hperm.eq_of_pairwise (fun s t _ _ hst hts => ?_) h.ascending h'.ascending
  exact absurd rfl (ne_of_lt (Std.TransCmp.lt_trans hst hts))

end Canonical

/-! ## Adding a value -/

/-- Adds a value at a key of a list in order; an entry that would become zero is left out. -/
def insert [Zero ν] [Add ν] [DecidableEq ν] (cmp : κ → κ → Ordering) (k : κ) (v : ν) :
    List (κ × ν) → List (κ × ν)
  | [] => if v = 0 then [] else [(k, v)]
  | (k', w) :: rest =>
    match cmp k k' with
    | .lt => if v = 0 then (k', w) :: rest else (k, v) :: (k', w) :: rest
    | .eq => if v + w = 0 then rest else (k', v + w) :: rest
    | .gt => (k', w) :: insert cmp k v rest

section Insert

variable {cmp : κ → κ → Ordering} [AddCommMonoid ν] [DecidableEq ν] {k : κ} {v : ν}
  {l : List (κ × ν)}

/-- Adding a value at a key adds it to the function. -/
lemma toFinsupp_insert [Std.LawfulEqCmp cmp] (k : κ) (v : ν) (l : List (κ × ν)) :
    toFinsupp (insert cmp k v l) = Finsupp.single k v + toFinsupp l := by
  induction l with
  | nil =>
    rw [insert]
    split_ifs with hv <;> simp [hv]
  | cons t l ih =>
    obtain ⟨k', w⟩ := t
    rw [insert]
    cases hcmp : cmp k k' with
    | lt =>
      dsimp only
      split_ifs with hv <;> simp [hv]
    | eq =>
      obtain rfl := Std.LawfulEqCmp.eq_of_compare hcmp
      have hsum : Finsupp.single k (v + w) = Finsupp.single k v + Finsupp.single k w :=
        Finsupp.single_add k v w
      dsimp only
      rw [toFinsupp_cons, ← add_assoc, ← hsum]
      split_ifs with hv <;> simp [hv]
    | gt => simp [ih, add_left_comm]

/-- The only key that can be new is the one a value is added at. -/
lemma keys_insert_subset (k : κ) (v : ν) (l : List (κ × ν)) :
    (insert cmp k v l).map Prod.fst ⊆ k :: l.map Prod.fst := by
  induction l with
  | nil =>
    rw [insert]
    split_ifs <;> simp
  | cons t l ih =>
    obtain ⟨k', w⟩ := t
    intro x hx
    rw [insert] at hx
    cases hcmp : cmp k k' <;> rw [hcmp] at hx <;> dsimp only at hx
    case lt => split_ifs at hx <;> simp_all
    case eq => split_ifs at hx <;> simp_all
    case gt =>
      rcases List.mem_cons.mp hx with rfl | hx
      · simp
      · have hkey := ih hx
        simp only [List.mem_cons, List.map_cons] at hkey ⊢
        exact hkey.imp_right .inr

/-- **Adding a value keeps a list canonical.** -/
lemma Canonical.insert [Std.TransCmp cmp] (h : Canonical cmp l) (k : κ) (v : ν) :
    Canonical cmp (insert cmp k v l) := by
  induction l with
  | nil =>
    rw [Entries.insert]
    split_ifs with hv
    · exact h
    · exact canonical_cons.mpr ⟨by simp, hv, h⟩
  | cons t rest ih =>
    obtain ⟨k', w⟩ := t
    obtain ⟨hlt, hne, hrest⟩ := canonical_cons.mp h
    rw [Entries.insert]
    cases hcmp : cmp k k' with
    | lt =>
      dsimp only
      split_ifs with hv
      · exact h
      · refine canonical_cons.mpr ⟨?_, hv, h⟩
        exact List.forall_mem_cons.mpr
          ⟨hcmp, fun s hs => Std.TransCmp.lt_trans hcmp (hlt s hs)⟩
    | eq =>
      dsimp only
      split_ifs with hv
      · exact hrest
      · exact canonical_cons.mpr ⟨hlt, hv, hrest⟩
    | gt =>
      refine canonical_cons.mpr ⟨fun s hs => ?_, hne, ih hrest⟩
      rcases List.mem_cons.mp (keys_insert_subset k v rest (List.mem_map_of_mem hs)) with hk | hk
      · rw [hk]
        exact Std.OrientedCmp.lt_of_gt hcmp
      · obtain ⟨s', hs', hk⟩ := List.mem_map.mp hk
        rw [← hk]
        exact hlt s' hs'

end Insert

end Entries

end SumProduct
