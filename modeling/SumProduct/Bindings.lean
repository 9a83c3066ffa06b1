/-!
# Bindings

Finite maps that keep their keys in the order of first insertion. Binding a key again replaces its
value and leaves it in its place. A map carries the fact that each key occurs once.

## Main definitions

* `SumProduct.Bindings` — the pairs of a finite map, in order.
* `SumProduct.Bindings.insert`, `SumProduct.Bindings.ofList` — building a map.
* `SumProduct.Bindings.map` — the map with other values.
* `SumProduct.Bindings.find?` — the value of a key.
-/

namespace SumProduct

universe u v w

/-- A finite map from `κ` to `α` as its pairs in order of first insertion. -/
@[ext] structure Bindings (κ : Type u) (α : Type v) where
  /-- The pairs. -/
  entries : List (κ × α)
  /-- Each key occurs once. -/
  nodup_keys : (entries.map Prod.fst).Nodup

namespace Bindings

variable {κ : Type u} {α : Type v} {β : Type w}

/-- The map that binds nothing. -/
def empty : Bindings κ α := ⟨[], List.nodup_nil⟩

/-- The number of keys. -/
def size (b : Bindings κ α) : Nat := b.entries.length

/-- The keys in order of first insertion. -/
def keys (b : Bindings κ α) : List κ := b.entries.map Prod.fst

/-- The map with each value replaced by its image. -/
def map (f : α → β) (b : Bindings κ α) : Bindings κ β where
  entries := b.entries.map fun p => (p.1, f p.2)
  nodup_keys := by
    rw [List.map_map]
    exact b.nodup_keys

variable [BEq κ]

/-- The value that a key is bound to. -/
def find? (b : Bindings κ α) (key : κ) : Option α :=
  (b.entries.find? fun p => p.1 == key).map (·.2)

/-- The pairs with one key bound to a value: in its place if it is bound, else at the end. -/
def insertEntry (key : κ) (value : α) : List (κ × α) → List (κ × α)
  | [] => [(key, value)]
  | (k, v) :: rest =>
    if k == key then (k, value) :: rest else (k, v) :: insertEntry key value rest

variable [LawfulBEq κ]

/-- The keys after a binding has been added: the same ones, or one more at the end. -/
theorem keys_insertEntry (key : κ) (value : α) (entries : List (κ × α)) :
    (insertEntry key value entries).map Prod.fst = entries.map Prod.fst ∨
      key ∉ entries.map Prod.fst ∧
        (insertEntry key value entries).map Prod.fst = entries.map Prod.fst ++ [key] := by
  induction entries with
  | nil => simp [insertEntry]
  | cons p rest ih =>
    rw [insertEntry]
    by_cases hp : p.1 = key
    · simp [hp]
    · rcases ih with ih | ⟨hmem, ih⟩
      · simp [hp, ih]
      · exact .inr ⟨by simpa [Ne.symm hp] using hmem, by simp [hp, ih]⟩

/-- Binds a key to a value. -/
def insert (b : Bindings κ α) (key : κ) (value : α) : Bindings κ α where
  entries := insertEntry key value b.entries
  nodup_keys := by
    rcases keys_insertEntry key value b.entries with h | ⟨hnew, h⟩
    · rw [h]
      exact b.nodup_keys
    · rw [h, List.nodup_append]
      refine ⟨b.nodup_keys, by simp, fun k hk l hl heq => hnew ?_⟩
      rwa [← List.mem_singleton.mp hl, ← heq]

/-- The map that a list of pairs builds from the left, so that the last value of a key counts. -/
def ofList (pairs : List (κ × α)) : Bindings κ α :=
  pairs.foldl (fun b p => b.insert p.1 p.2) empty

/-- The first map with the bindings of the second laid over it. -/
def override (b c : Bindings κ α) : Bindings κ α :=
  c.entries.foldl (fun b p => b.insert p.1 p.2) b

end Bindings

end SumProduct
