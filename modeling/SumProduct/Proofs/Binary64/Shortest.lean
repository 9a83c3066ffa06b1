import SumProduct.Binary64.Shortest
import SumProduct.Proofs.Binary64.Rounding

/-!
# Shortest decimals are read back

Whatever the search for a shortest decimal comes to, the decimal lies between the midpoints around
the rank that was asked for: each candidate has been compared with the midpoints, the exact decimal
that ends the search is the magnitude itself, and trailing zeros make no difference to a value.

## Main results

* `SumProduct.Binary64.readsBack_iff` — decimals that read back are those that are rounded.
* `SumProduct.Binary64.readsBack_shortest` — the shortest decimal of a rank reads back.
* `SumProduct.Binary64.nearest_shortest` — the number nearest to it is the one of that rank.
-/

namespace SumProduct

/-- Fives and twos make tens. -/
lemma fivePow_mul_twoPow (n : Nat) : fivePow n * twoPow n = tenPow n := (Nat.mul_pow 5 2 n).symm

/-- The denominator of a decimal is positive. -/
lemma Decimal.denominator_pos (d : Decimal) : 0 < d.denominator := tenPow_pos _

/-- A decimal with one trailing zero less has the same value. -/
lemma Decimal.strip_eq (d : Decimal) (h : d.coefficient % 10 = 0) :
    d.numerator * Decimal.denominator ⟨d.coefficient / 10, d.exponent + 1⟩ =
      Decimal.numerator ⟨d.coefficient / 10, d.exponent + 1⟩ * d.denominator := by
  have hten : d.coefficient = 10 * (d.coefficient / 10) := by omega
  simp only [numerator, denominator]
  rcases lt_or_ge d.exponent 0 with hneg | hpos
  · have hnum : d.exponent.toNat = 0 := by omega
    have hnum' : (d.exponent + 1).toNat = 0 := by omega
    have hden : (-d.exponent).toNat = (-(d.exponent + 1)).toNat + 1 := by omega
    rw [hnum, hnum', hden, tenPow_succ]
    nth_rewrite 1 [hten]
    ring
  · have hden : (-d.exponent).toNat = 0 := by omega
    have hden' : (-(d.exponent + 1)).toNat = 0 := by omega
    have hnum : (d.exponent + 1).toNat = d.exponent.toNat + 1 := by omega
    rw [hnum, hden, hden', tenPow_succ]
    nth_rewrite 1 [hten]
    ring

namespace Binary64

variable {rank : Nat}

/-- Quotients of the same value are rounded alike. -/
lemma RoundsTo.congr {n d n' d' : Nat} (hd : 0 < d) (hd' : 0 < d') (heq : n * d' = n' * d)
    (h : RoundsTo rank n d) : RoundsTo rank n' d' := by
  have hbelow (bound : Nat) : bound * d ≤ 2 * n ↔ bound * d' ≤ 2 * n' :=
    calc bound * d ≤ 2 * n ↔ bound * d * d' ≤ 2 * n * d' := (Nat.mul_le_mul_right_iff hd').symm
      _ ↔ bound * d' * d ≤ 2 * n' * d := by
        rw [Nat.mul_right_comm, Nat.mul_assoc 2 n, heq, Nat.mul_assoc 2 n']
      _ ↔ bound * d' ≤ 2 * n' := Nat.mul_le_mul_right_iff hd
  have habove (bound : Nat) : 2 * n ≤ bound * d ↔ 2 * n' ≤ bound * d' :=
    calc 2 * n ≤ bound * d ↔ 2 * n * d' ≤ bound * d * d' := (Nat.mul_le_mul_right_iff hd').symm
      _ ↔ 2 * n' * d ≤ bound * d' * d := by
        rw [Nat.mul_right_comm bound, Nat.mul_assoc 2 n, heq, Nat.mul_assoc 2 n']
      _ ↔ 2 * n' ≤ bound * d' := Nat.mul_le_mul_right_iff hd
  unfold RoundsTo at h ⊢
  simpa only [← Nat.not_le, hbelow, habove] using h

/-- Decimals that read back are those that are rounded to the rank. -/
lemma readsBack_iff {d : Decimal} :
    ReadsBack rank d ↔ RoundsTo rank (d.numerator * unitsPerOne) d.denominator := by
  have hvalue : 2 * unitsPerOne * d.numerator = 2 * (d.numerator * unitsPerOne) := by ring
  simp only [ReadsBack, RoundsTo, hvalue]

/-- A positive magnitude is rounded to its rank. -/
lemma roundsTo_unitsOfRank (hrank : 0 < rank) {d : Nat} (hd : 0 < d) :
    RoundsTo rank (unitsOfRank rank * d) d := by
  have hpred := unitsOfRank_lt_succ (rank - 1)
  rw [Nat.sub_add_cancel hrank] at hpred
  have hnext := unitsOfRank_lt_succ rank
  have hlow : (unitsOfRank (rank - 1) + unitsOfRank rank) * d < 2 * (unitsOfRank rank * d) := by
    rw [← Nat.mul_assoc]
    exact Nat.mul_lt_mul_of_pos_right (by omega) hd
  have hhigh : 2 * (unitsOfRank rank * d) < (unitsOfRank rank + unitsOfRank (rank + 1)) * d := by
    rw [← Nat.mul_assoc]
    exact Nat.mul_lt_mul_of_pos_right (by omega) hd
  unfold RoundsTo
  split_ifs
  · exact ⟨hlow.le, hhigh.le⟩
  · exact ⟨hlow, hhigh⟩

/-! ## The search -/

/-- A neighbour on a grid is chosen only if it reads back. -/
lemma readsBack_of_onGrid? {exponent : Int} {d : Decimal} (h : onGrid? rank exponent = some d) :
    ReadsBack rank d := by
  simpa using List.find?_some h

/-- What the search finds reads back. -/
lemma readsBack_of_search {fuel : Nat} {exponent : Int} {d : Decimal}
    (h : search rank fuel exponent = some d) : ReadsBack rank d := by
  induction fuel generalizing exponent with
  | zero => cases h
  | succ fuel ih =>
    rw [search, Option.orElse_eq_some] at h
    rcases h with hgrid | ⟨-, hfiner⟩
    · exact readsBack_of_onGrid? hgrid
    · exact ih hfiner

/-- The exact decimal of a positive magnitude reads back. -/
lemma readsBack_exactDecimal (hrank : 0 < rank) : ReadsBack rank (exactDecimal rank) := by
  rw [readsBack_iff]
  have hnum : (exactDecimal rank).numerator * unitsPerOne = unitsOfRank rank * tenPow 1074 :=
    calc (exactDecimal rank).numerator * unitsPerOne
        = unitsOfRank rank * fivePow 1074 * tenPow 0 * twoPow 1074 := rfl
      _ = unitsOfRank rank * tenPow 1074 := by
        rw [tenPow_zero, Nat.mul_one, Nat.mul_assoc, fivePow_mul_twoPow]
  rw [hnum]
  exact roundsTo_unitsOfRank hrank (tenPow_pos _)

/-- Trailing zeros can be dropped from a decimal that reads back. -/
lemma readsBack_stripZeros (fuel : Nat) {d : Decimal} (h : ReadsBack rank d) :
    ReadsBack rank (d.stripZeros fuel) := by
  induction fuel generalizing d with
  | zero => exact h
  | succ fuel ih =>
    rw [Decimal.stripZeros]
    split_ifs with hzero
    · refine ih (readsBack_iff.mpr ?_)
      refine (readsBack_iff.mp h).congr d.denominator_pos (Decimal.denominator_pos _) ?_
      rw [Nat.mul_right_comm, Decimal.strip_eq d hzero, Nat.mul_right_comm]
    · exact h

/-- The shortest decimal of a rank reads back. -/
theorem readsBack_shortest (rank : Nat) : ReadsBack rank (shortest rank) := by
  rw [shortest]
  split_ifs with hzero
  · subst hzero
    simp [ReadsBack, unitsOfRank, Decimal.numerator]
  · have hfound : ReadsBack rank
        ((search rank 17 (leadingExponent rank)).getD (exactDecimal rank)) := by
      cases hsearch : search rank 17 (leadingExponent rank) with
      | some d => exact readsBack_of_search hsearch
      | none => exact readsBack_exactDecimal (Nat.pos_of_ne_zero hzero)
    rw [Decimal.trim]
    split_ifs
    · exact hfound
    · exact readsBack_stripZeros _ hfound

/-- The number nearest to a decimal that reads back as a rank is the number of that rank. -/
lemma nearest_of_readsBack {rank : Fin rankCount} {d : Decimal} (h : ReadsBack rank d) :
    nearest false d.numerator d.denominator = finite false rank := by
  have hrank := nearestRank_of_roundsTo d.denominator_pos (readsBack_iff.mp h)
  rw [nearest, hrank, ofRank, dif_pos rank.isLt]

/-- **The number nearest to the shortest decimal of a rank is the number of that rank.** -/
theorem nearest_shortest (rank : Fin rankCount) :
    nearest false (shortest rank).numerator (shortest rank).denominator = finite false rank :=
  nearest_of_readsBack (readsBack_shortest rank)

end Binary64

end SumProduct
