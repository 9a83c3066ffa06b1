import Mathlib.Algebra.Order.Ring.Nat

/-!
# Nesting of parentheses

How many parentheses are open at once in a text. A closing parenthesis that closes nothing leaves
the count at zero.

## Main definitions

* `SumProduct.Nesting.peak` — the largest number of parentheses open at once in a text.
* `SumProduct.Nesting.Balanced` — texts that close what they open and open nothing else.

## Main results

* `SumProduct.Nesting.Balanced.append`, `SumProduct.Nesting.Balanced.group` — the peak of texts put
  together and of texts in parentheses.
-/

namespace SumProduct

namespace Nesting

/-- The largest number of parentheses open at once in a text, where `opened` are open before it. -/
def peakFrom (opened : Nat) : List Char → Nat
  | [] => opened
  | '(' :: rest => peakFrom (opened + 1) rest
  | ')' :: rest => max opened (peakFrom (opened - 1) rest)
  | _ :: rest => peakFrom opened rest

/-- The largest number of parentheses open at once in a text. -/
def peak (text : String) : Nat := peakFrom 0 text.toList

/-- The parentheses that are open at the beginning count. -/
lemma le_peakFrom (opened : Nat) (text : List Char) : opened ≤ peakFrom opened text := by
  fun_induction peakFrom opened text with
  | case1 opened => exact le_rfl
  | case2 opened rest ih => exact (Nat.le_succ opened).trans ih
  | case3 opened rest ih => exact le_max_left _ _
  | case4 opened c rest hopen hclose ih => exact ih

/-- A character that is no parenthesis changes nothing. -/
lemma peakFrom_cons {c : Char} (hopen : c ≠ '(') (hclose : c ≠ ')') (opened : Nat)
    (rest : List Char) : peakFrom opened (c :: rest) = peakFrom opened rest := by
  rw [peakFrom]
  · exact hopen
  · exact hclose

/-- Characters that are no parentheses change nothing. -/
lemma peakFrom_append {text : List Char} (hopen : '(' ∉ text) (hclose : ')' ∉ text)
    (opened : Nat) (rest : List Char) :
    peakFrom opened (text ++ rest) = peakFrom opened rest := by
  induction text with
  | nil => rfl
  | cons c text ih =>
    simp only [List.mem_cons, not_or] at hopen hclose
    rw [List.cons_append, peakFrom_cons (Ne.symm hopen.1) (Ne.symm hclose.1),
      ih hopen.2 hclose.2]

/-! ## Balanced texts -/

/-- A text is balanced with a depth when it closes what it opens, closes nothing else, and opens so
many parentheses at once: whatever is open before it and whatever follows. -/
def Balanced (text : List Char) (depth : Nat) : Prop :=
  ∀ opened rest, peakFrom opened (text ++ rest) = max (opened + depth) (peakFrom opened rest)

/-- The depth of a balanced text is its peak. -/
lemma Balanced.peakFrom_eq {text : List Char} {depth : Nat} (h : Balanced text depth) :
    peakFrom 0 text = depth := by
  have hnil := h 0 []
  rwa [List.append_nil, peakFrom, zero_add, max_eq_left (Nat.zero_le _)] at hnil

/-- A text without parentheses is balanced. -/
lemma balanced_zero {text : List Char} (hopen : '(' ∉ text) (hclose : ')' ∉ text) :
    Balanced text 0 := by
  intro opened rest
  rw [peakFrom_append hopen hclose, add_zero, max_eq_right (le_peakFrom _ _)]

/-- Balanced texts one after the other are balanced. -/
lemma Balanced.append {s t : List Char} {m n : Nat} (hs : Balanced s m) (ht : Balanced t n) :
    Balanced (s ++ t) (max m n) := by
  intro opened rest
  rw [List.append_assoc, hs, ht, ← max_assoc, Nat.add_max_add_left]

/-- A balanced text in parentheses is balanced, one level deeper. -/
lemma Balanced.group {text : List Char} {depth : Nat} (h : Balanced text depth) :
    Balanced ('(' :: text ++ [')']) (depth + 1) := by
  intro opened rest
  rw [List.append_assoc, List.cons_append, peakFrom, h, List.cons_append, peakFrom,
    Nat.add_sub_cancel, List.nil_append]
  omega

end Nesting

end SumProduct
