import SumProduct.Proofs.Text.Nesting

/-!
# Measuring parentheses

Two numbers say how many parentheses a text has: how many are opened in all, and how many are open
at once. Both are found in the same way when texts are put together, except that the first adds up
where the second takes the larger one. A gauge is what the two have in common.

## Main definitions

* `SumProduct.Nesting.Gauge` — a way to measure the parentheses of texts.
* `SumProduct.Nesting.Gauge.total`, `SumProduct.Nesting.Gauge.depth` — all opening parentheses, and
  those that are open at once.

## Main results

* `SumProduct.Nesting.Gauge.around` — the measure of two texts with something between them.
-/

namespace SumProduct

namespace Nesting

/-- A way to measure the parentheses of texts: texts without parentheses measure zero, parentheses
around a text add one, and the measures of two texts are joined to that of both. -/
structure Gauge where
  /-- The measure of two texts one after the other. -/
  join : Nat → Nat → Nat
  /-- The texts of a measure. -/
  Measures : List Char → Nat → Prop
  /-- A text without parentheses behind another changes nothing. -/
  join_zero (m : Nat) : join m 0 = m
  /-- A text without parentheses in front of another changes nothing. -/
  zero_join (n : Nat) : join 0 n = n
  /-- Larger measures are joined to larger ones. -/
  join_le_join {m m' n n' : Nat} (hm : m ≤ m') (hn : n ≤ n') : join m n ≤ join m' n'
  /-- Texts without parentheses measure zero. -/
  plain {text : List Char} (hopen : '(' ∉ text) (hclose : ')' ∉ text) : Measures text 0
  /-- Texts one after the other. -/
  append {s t : List Char} {m n : Nat} (hs : Measures s m) (ht : Measures t n) :
    Measures (s ++ t) (join m n)
  /-- A text in parentheses measures one more. -/
  group {text : List Char} {n : Nat} (h : Measures text n) : Measures ('(' :: text ++ [')']) (n + 1)

namespace Gauge

/-- The gauge that counts the opening parentheses. -/
def total : Gauge where
  join := (· + ·)
  Measures text n := text.count '(' = n
  join_zero := Nat.add_zero
  zero_join := Nat.zero_add
  join_le_join := Nat.add_le_add
  plain hopen _ := List.count_eq_zero.mpr hopen
  append hs ht := by rw [List.count_append, hs, ht]
  group h := by rw [List.count_append, List.count_cons_self, h]; rfl

/-- The gauge that counts the parentheses open at once. -/
def depth : Gauge where
  join := max
  Measures := Balanced
  join_zero := Nat.max_zero
  zero_join := Nat.zero_max
  join_le_join := max_le_max
  plain := balanced_zero
  append := Balanced.append
  group := Balanced.group

variable {g : Gauge} {s middle t : List Char} {m n : Nat}

/-- What is between two texts does not count if it has no parentheses. -/
lemma around (hs : g.Measures s m) (hopen : '(' ∉ middle) (hclose : ')' ∉ middle)
    (ht : g.Measures t n) : g.Measures (s ++ (middle ++ t)) (g.join m n) := by
  have hmiddle := g.append (g.plain hopen hclose) ht
  rw [g.zero_join] at hmiddle
  exact g.append hs hmiddle

end Gauge

end Nesting

end SumProduct
