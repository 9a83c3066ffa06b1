import Mathlib.Data.List.Nodup
import Mathlib.Tactic.Common
import SumProduct.Bindings

/-!
# Laws of bindings

What a map binds after a binding has been added, after another map has been laid over it, and after
its values have been replaced. As each key occurs once, the order of the pairs does not matter to
what is bound.

## Main results

* `SumProduct.Bindings.find?_insert`, `SumProduct.Bindings.find?_override` — what is bound.
* `SumProduct.Bindings.ofList_entries` — the pairs of a map build the map.
* `SumProduct.Bindings.find?_congr_of_perm` — the order of the pairs does not matter.
-/

namespace SumProduct

universe u v w

/-- A list whose repetitions are erased has none. -/
lemma nodup_eraseDups {κ : Type u} [BEq κ] [LawfulBEq κ] (keys : List κ) :
    keys.eraseDups.Nodup := by
  cases keys with
  | nil => exact List.nodup_nil
  | cons k rest =>
    rw [List.eraseDups_cons]
    exact List.nodup_cons.mpr ⟨by simp, nodup_eraseDups (rest.filter fun l => !l == k)⟩
termination_by keys.length
decreasing_by exact Nat.lt_succ_of_le (List.length_filter_le _ _)

namespace Bindings

variable {κ : Type u} {α : Type v} {β : Type w}

/-! ## Other values -/

/-- Replacing the values twice is replacing them by the images of their images. -/
lemma map_map {γ : Type w} (g : β → γ) (f : α → β) (b : Bindings κ α) :
    (b.map f).map g = b.map fun value => g (f value) := by
  ext1
  simp [map]

variable [BEq κ]

/-- A key is bound to the image of its value. -/
@[simp] lemma find?_map (f : α → β) (b : Bindings κ α) (key : κ) :
    (b.map f).find? key = (b.find? key).map f := by
  simp only [find?, map, List.find?_map, Option.map_map]
  rfl

variable [LawfulBEq κ] {b c : Bindings κ α} {key : κ} {value : α}

/-! ## Keys -/

/-- A key has no value when it is not among the keys. -/
lemma find?_eq_none_iff : b.find? key = none ↔ key ∉ b.keys := by
  simp only [find?, keys, Option.map_eq_none_iff, List.find?_eq_none, List.mem_map, beq_iff_eq,
    not_exists, not_and]

/-- What a map binds is among its pairs. -/
lemma mem_entries_of_find? (h : b.find? key = some value) : (key, value) ∈ b.entries := by
  obtain ⟨p, hp, rfl⟩ := Option.map_eq_some_iff.mp h
  obtain rfl : p.1 = key := by simpa using List.find?_some hp
  exact List.mem_of_find?_eq_some hp

/-- The pairs of a map are what it binds. -/
lemma find?_eq_some_iff : b.find? key = some value ↔ (key, value) ∈ b.entries := by
  refine ⟨mem_entries_of_find?, fun h => ?_⟩
  cases hfind : b.find? key with
  | none => exact absurd (List.mem_map_of_mem h) (find?_eq_none_iff.mp hfind)
  | some other =>
    have hsame : (key, other) = (key, value) :=
      List.inj_on_of_nodup_map b.nodup_keys (mem_entries_of_find? hfind) h rfl
    rw [(Prod.mk.inj hsame).2]

/-- The order of the pairs does not matter to what a map binds. -/
lemma find?_congr_of_perm (hperm : b.entries.Perm c.entries) (key : κ) :
    b.find? key = c.find? key := by
  ext value
  rw [find?_eq_some_iff, find?_eq_some_iff, hperm.mem_iff]

/-! ## Adding bindings -/

/-- Adding a binding binds its key to its value and leaves all other keys as they are. -/
lemma find?_insert [DecidableEq κ] (b : Bindings κ α) (key : κ) (value : α) (other : κ) :
    (b.insert key value).find? other = if key = other then some value else b.find? other := by
  simp only [insert, find?]
  generalize b.entries = entries
  induction entries with
  | nil => by_cases h : key = other <;> simp [insertEntry, h]
  | cons p rest ih =>
    rw [insertEntry]
    by_cases hp : p.1 = key
    · subst hp
      by_cases h : p.1 = other <;> simp [h]
    · simp only [beq_iff_eq, hp, if_false, List.find?_cons]
      by_cases h : p.1 = other
      · have hkey : key ≠ other := fun heq => hp (h.trans heq.symm)
        simp [h, hkey]
      · rw [beq_false_of_ne h]
        exact ih

/-- A binding of a new key is put behind the others. -/
lemma insertEntry_of_notMem {entries : List (κ × α)} (h : key ∉ entries.map Prod.fst) :
    insertEntry key value entries = entries ++ [(key, value)] := by
  induction entries with
  | nil => rfl
  | cons p rest ih =>
    rw [List.map_cons, List.mem_cons, not_or] at h
    rw [insertEntry, if_neg (by simpa using Ne.symm h.1), ih h.2, List.cons_append]

/-- Bindings of new keys are put behind the others, in their order. -/
lemma entries_foldl_insert {pairs : List (κ × α)}
    (h : ((b.entries ++ pairs).map Prod.fst).Nodup) :
    (pairs.foldl (fun b p => b.insert p.1 p.2) b).entries = b.entries ++ pairs := by
  induction pairs generalizing b with
  | nil => exact (List.append_nil _).symm
  | cons p rest ih =>
    have hnew : p.1 ∉ b.entries.map Prod.fst := by
      rw [List.map_append, List.map_cons] at h
      exact fun hmem => List.disjoint_of_nodup_append h hmem List.mem_cons_self
    have hinsert : (b.insert p.1 p.2).entries = b.entries ++ [p] := insertEntry_of_notMem hnew
    rw [List.foldl_cons, ih (by rwa [hinsert, List.append_assoc]), hinsert, List.append_assoc]
    rfl

/-- The pairs of a map build the map. -/
lemma ofList_entries (b : Bindings κ α) : ofList b.entries = b :=
  Bindings.ext (entries_foldl_insert (b := empty) b.nodup_keys)

/-! ## One map over another -/

/-- A map laid over another one: its own bindings count, and those of the other map count for the
keys that it does not bind. -/
lemma find?_override [DecidableEq κ] (b c : Bindings κ α) (key : κ) :
    (b.override c).find? key = (c.find? key).or (b.find? key) := by
  obtain ⟨entries, hkeys⟩ := c
  simp only [override]
  induction entries generalizing b with
  | nil => rfl
  | cons p rest ih =>
    obtain ⟨hp, hrest⟩ := List.nodup_cons.mp hkeys
    rw [List.foldl_cons, ih _ hrest, find?_insert]
    have hcons : find? ⟨p :: rest, hkeys⟩ key =
        if p.1 = key then some p.2 else find? ⟨rest, hrest⟩ key := by
      by_cases h : p.1 = key <;> simp [find?, h]
    rw [hcons]
    split_ifs with h
    · have hnone : find? ⟨rest, hrest⟩ key = none := find?_eq_none_iff.mpr (h ▸ hp)
      rw [hnone]
      rfl
    · rfl

end Bindings

end SumProduct
