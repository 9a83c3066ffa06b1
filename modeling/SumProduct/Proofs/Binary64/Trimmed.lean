import SumProduct.Proofs.Binary64.Shortest

/-!
# Whole numbers and trailing zeros

A decimal that is trimmed has no trailing zero left, so it has digits behind the point only if its
value is no whole number. For the shortest decimal of a number this is the case exactly if the
number is none: on a grid that is finer than the whole numbers the search meets a whole number
itself before any neighbour, and a whole number that reads back as a number is that number.

## Main definitions

* `SumProduct.Decimal.IsWhole` — the decimals whose value is a whole number.

## Main results

* `SumProduct.Decimal.trim_coefficient_mod_ten` — no trailing zero is left.
* `SumProduct.Decimal.IsWhole.exponent_trim_nonneg` — whole decimals have no digits behind the
  point.
* `SumProduct.Binary64.exponent_shortest_nonneg_iff` — the same for the shortest decimal of a
  number.
* `SumProduct.Binary64.shortest_coefficient_mod_ten` — which has no trailing zero either.
-/

namespace SumProduct

/-- The powers of ten of a sum are multiplied. -/
lemma tenPow_add (m n : ℕ) : tenPow (m + n) = tenPow m * tenPow n := Nat.pow_add 10 m n

namespace Decimal

variable {d : Decimal}

/-! ## Trailing zeros -/

/-- Zeros that are stripped from the coefficient raise the exponent by their number. -/
lemma exists_stripZeros (fuel : ℕ) (d : Decimal) :
    ∃ t : ℕ, (d.stripZeros fuel).exponent = d.exponent + t ∧
      d.coefficient = (d.stripZeros fuel).coefficient * tenPow t := by
  induction fuel generalizing d with
  | zero => exact ⟨0, by simp [stripZeros], by simp [stripZeros, tenPow_zero]⟩
  | succ fuel ih =>
    rw [stripZeros]
    split_ifs with hzero
    · obtain ⟨t, hexponent, hcoefficient⟩ := ih ⟨d.coefficient / 10, d.exponent + 1⟩
      refine ⟨t + 1, ?_, ?_⟩
      · rw [hexponent]
        push_cast
        ring
      · calc d.coefficient = 10 * (d.coefficient / 10) := by omega
          _ = 10 * ((stripZeros fuel ⟨d.coefficient / 10, d.exponent + 1⟩).coefficient *
              tenPow t) := congrArg (10 * ·) hcoefficient
          _ = _ := by rw [tenPow_succ, Nat.mul_left_comm]
    · exact ⟨0, by simp, by simp [tenPow_zero]⟩

/-- With as much fuel as the coefficient has binary digits, all trailing zeros are stripped. -/
lemma stripZeros_coefficient_mod_ten {fuel : ℕ} (hpos : d.coefficient ≠ 0)
    (hfuel : d.coefficient < 2 ^ fuel) : (d.stripZeros fuel).coefficient % 10 ≠ 0 := by
  induction fuel generalizing d with
  | zero => omega
  | succ fuel ih =>
    rw [Nat.pow_succ] at hfuel
    rw [stripZeros]
    split_ifs with hzero
    · refine ih ?_ ?_
      · show d.coefficient / 10 ≠ 0
        omega
      · show d.coefficient / 10 < 2 ^ fuel
        omega
    · exact hzero

/-- No trailing zero is left in a decimal that is trimmed. -/
theorem trim_coefficient_mod_ten (h : d.coefficient ≠ 0) : d.trim.coefficient % 10 ≠ 0 := by
  rw [trim, if_neg h]
  exact stripZeros_coefficient_mod_ten h ((Nat.log2_lt h).mp (Nat.lt_succ_self _))

/-- Trimming moves trailing zeros of the coefficient into the exponent. -/
lemma exists_trim (d : Decimal) :
    ∃ t : ℕ, d.trim.exponent = d.exponent + t ∧ d.coefficient = d.trim.coefficient * tenPow t := by
  rw [trim]
  split_ifs
  · exact ⟨0, by simp, by simp [tenPow_zero]⟩
  · exact exists_stripZeros _ d

/-! ## Whole decimals -/

/-- The value of a decimal is a whole number. -/
def IsWhole (d : Decimal) : Prop := d.denominator ∣ d.numerator

/-- The denominator of a decimal with digits in front of the point alone. -/
lemma denominator_eq_one (h : 0 ≤ d.exponent) : d.denominator = 1 := by
  rw [denominator, show (-d.exponent).toNat = 0 by omega, tenPow_zero]

/-- The numerator of a decimal with digits behind the point. -/
lemma numerator_eq_coefficient (h : d.exponent < 0) : d.numerator = d.coefficient := by
  rw [numerator, show d.exponent.toNat = 0 by omega, tenPow_zero, Nat.mul_one]

/-- A whole decimal has no digits behind the point once it is trimmed.

**Proof sketch.** Otherwise fewer zeros are stripped than there are digits behind the point, and the
value being whole gives one more trailing zero. -/
theorem IsWhole.exponent_trim_nonneg (hwhole : d.IsWhole) (h : d.coefficient ≠ 0) :
    0 ≤ d.trim.exponent := by
  by_contra hneg
  obtain ⟨t, hexponent, hcoefficient⟩ := d.exists_trim
  have hlast := trim_coefficient_mod_ten h
  obtain ⟨value, hvalue⟩ := hwhole
  have hplaces : (-d.exponent).toNat = t + ((-d.trim.exponent).toNat - 1 + 1) := by omega
  rw [numerator_eq_coefficient (by omega), denominator, hplaces, hcoefficient, tenPow_add,
    Nat.mul_assoc, Nat.mul_comm, tenPow_succ] at hvalue
  have hdigit := Nat.eq_of_mul_eq_mul_left (tenPow_pos t) hvalue
  rw [Nat.mul_assoc] at hdigit
  omega

end Decimal

namespace Binary64

variable {rank : ℕ}

/-! ## Whole numbers -/

/-- The spacing of a binade below that of the whole numbers divides one. -/
lemma unitsPerOne_eq_mul {shift : ℕ} (h : shift ≤ 1074) :
    unitsPerOne = twoPow (1074 - shift) * twoPow shift := by
  rw [← twoPow_add, Nat.sub_add_cancel h, unitsPerOne]

/-- The magnitude below a step is at most one step less. -/
lemma IsStep.le_units_pred {shift step : ℕ} (h : IsStep shift step) :
    step * twoPow shift ≤ unitsOfRank (shift * binade + step - 1) + twoPow shift := by
  by_cases hinner : 0 < shift → binade < step
  · rw [h.units_pred hinner, ← Nat.add_one_mul]
    exact Nat.mul_le_mul_right _ (by omega)
  · obtain ⟨hshift, hstep⟩ := Classical.not_imp.mp hinner
    obtain ⟨lower, rfl⟩ := Nat.exists_eq_succ_of_ne_zero hshift.ne'
    obtain rfl := Nat.le_antisymm (Nat.le_of_not_lt hstep) (h.le hshift)
    rw [unitsOfRank_pred_binade, twoPow_succ]
    have hpos : 0 < binade := twoPow_pos 52
    calc binade * (2 * twoPow lower) ≤ (2 * binade - 1 + 2) * twoPow lower := by
          rw [← Nat.mul_assoc, Nat.mul_comm binade 2]
          exact Nat.mul_le_mul_right _ (by omega)
      _ = (2 * binade - 1) * twoPow lower + 2 * twoPow lower := Nat.add_mul _ _ _

/-- A whole number of steps that is rounded to a step of the binade is that step: the midpoints are
at most half a step away. -/
lemma IsStep.eq_of_roundsTo {shift step steps : ℕ} (h : IsStep shift step)
    (hround : RoundsTo (shift * binade + step) (steps * twoPow shift) 1) : steps = step := by
  obtain ⟨⟨hlow, hhigh⟩, -⟩ := hround.bounds
  have hpred := h.le_units_pred
  have hpos := twoPow_pos shift
  rw [h.units, Nat.mul_one] at hlow
  rw [h.units, h.units_succ, Nat.mul_one, Nat.add_one_mul step] at hhigh
  rcases Nat.lt_trichotomy steps step with hlt | heq | hgt
  · have hgap : (steps + 1) * twoPow shift ≤ step * twoPow shift := Nat.mul_le_mul_right _ hlt
    rw [Nat.add_one_mul] at hgap
    omega
  · exact heq
  · have hgap : (step + 1) * twoPow shift ≤ steps * twoPow shift := Nat.mul_le_mul_right _ hgt
    rw [Nat.add_one_mul] at hgap
    omega

/-- A whole number is rounded to whole magnitudes only.

**Proof sketch.** Where the spacing is one or more, every magnitude is whole. Where it is less, the
whole number is itself a number of steps, so it is rounded to itself. -/
lemma dvd_units_of_roundsTo {n : ℕ} (h : RoundsTo rank (n * unitsPerOne) 1) :
    unitsPerOne ∣ unitsOfRank rank := by
  obtain ⟨shift, step, hstep, rfl⟩ := exists_step rank
  rw [hstep.units]
  rcases Nat.le_total shift 1074 with hfine | hcoarse
  · rw [unitsPerOne_eq_mul hfine, ← Nat.mul_assoc] at h
    obtain rfl := hstep.eq_of_roundsTo h
    rw [unitsPerOne_eq_mul hfine, Nat.mul_assoc]
    exact Nat.dvd_mul_left _ _
  · obtain ⟨coarser, rfl⟩ := Nat.exists_eq_add_of_le hcoarse
    rw [twoPow_add, ← unitsPerOne, Nat.mul_left_comm]
    exact Nat.dvd_mul_right _ _

/-! ## The search -/

/-- A decimal that reads back as a positive magnitude is not zero. -/
lemma ReadsBack.coefficient_ne_zero {d : Decimal} (h : ReadsBack rank d) (hrank : 0 < rank) :
    d.coefficient ≠ 0 := by
  intro hzero
  obtain ⟨⟨hlow, -⟩, -⟩ := (readsBack_iff.mp h).bounds
  have hmagnitude : 0 < unitsOfRank rank := Nat.zero_lt_of_lt
    (show unitsOfRank (rank - 1) < unitsOfRank rank by
      have hpred := unitsOfRank_lt_succ (rank - 1)
      rwa [Nat.sub_add_cancel hrank] at hpred)
  have hpos : 0 < (unitsOfRank (rank - 1) + unitsOfRank rank) * d.denominator :=
    Nat.mul_pos (by omega) d.denominator_pos
  rw [Decimal.numerator, hzero, Nat.zero_mul, Nat.zero_mul] at hlow
  omega

/-- On a grid finer than the whole numbers, what is found for a whole number is the number
itself. -/
lemma isWhole_of_onGrid? {exponent : ℤ} {d : Decimal} (hrank : 0 < rank)
    (hwhole : unitsPerOne ∣ unitsOfRank rank) (h : onGrid? rank exponent = some d) : d.IsWhole := by
  rcases lt_or_ge exponent 0 with hneg | hpos
  · obtain ⟨value, hvalue⟩ := hwhole
    have hone : 0 < unitsPerOne := twoPow_pos 1074
    have hgrid : gridFloor rank exponent = (value * tenPow (-exponent).toNat, .lt) := by
      rw [gridFloor, show exponent.toNat = 0 by omega, tenPow_zero, Nat.mul_one, hvalue,
        Nat.mul_assoc]
      simp [Nat.mul_div_cancel_left _ hone, Nat.compare_eq_lt, hone]
    have hreads : ReadsBack rank ⟨value * tenPow (-exponent).toNat, exponent⟩ := by
      rw [readsBack_iff]
      have hscaled : Decimal.numerator ⟨value * tenPow (-exponent).toNat, exponent⟩ * unitsPerOne =
          unitsOfRank rank * tenPow (-exponent).toNat := by
        rw [Decimal.numerator_eq_coefficient hneg, hvalue]
        ring
      rw [hscaled]
      exact roundsTo_unitsOfRank hrank (tenPow_pos _)
    have hfound : d = ⟨value * tenPow (-exponent).toNat, exponent⟩ := by
      simpa [onGrid?, hgrid, hreads] using h.symm
    rw [hfound, Decimal.IsWhole, Decimal.numerator_eq_coefficient hneg]
    exact Nat.dvd_mul_left _ _
  · have hmem := List.mem_of_find?_eq_some h
    have hexponent : d.exponent = exponent := by
      split_ifs at hmem <;> simp only [List.mem_cons, List.not_mem_nil, or_false] at hmem <;>
        rcases hmem with rfl | rfl <;> rfl
    rw [Decimal.IsWhole, Decimal.denominator_eq_one (by omega)]
    exact Nat.one_dvd _

/-- What the search finds for a whole number is whole. -/
lemma isWhole_of_search {fuel : ℕ} {exponent : ℤ} {d : Decimal} (hrank : 0 < rank)
    (hwhole : unitsPerOne ∣ unitsOfRank rank) (h : search rank fuel exponent = some d) :
    d.IsWhole := by
  induction fuel generalizing exponent with
  | zero => cases h
  | succ fuel ih =>
    rw [search, Option.orElse_eq_some] at h
    rcases h with hgrid | ⟨-, hfiner⟩
    · exact isWhole_of_onGrid? hrank hwhole hgrid
    · exact ih hfiner

/-- The exact decimal of a whole number is whole. -/
lemma isWhole_exactDecimal (hwhole : unitsPerOne ∣ unitsOfRank rank) :
    (exactDecimal rank).IsWhole := by
  obtain ⟨value, hvalue⟩ := hwhole
  have hnumerator : (exactDecimal rank).numerator = unitsOfRank rank * fivePow 1074 :=
    Decimal.numerator_eq_coefficient (show (-1074 : ℤ) < 0 by decide)
  have hdenominator : (exactDecimal rank).denominator = tenPow 1074 := rfl
  rw [Decimal.IsWhole, hnumerator, hdenominator, hvalue, unitsPerOne, ← fivePow_mul_twoPow]
  exact ⟨value, by ring⟩

/-- The shortest decimal of a positive number is a trimmed one, of a whole number a whole one. -/
lemma exists_shortest_eq_trim (hrank : 0 < rank) :
    ∃ d : Decimal, shortest rank = d.trim ∧ d.coefficient ≠ 0 ∧
      (unitsPerOne ∣ unitsOfRank rank → d.IsWhole) := by
  rw [shortest, if_neg hrank.ne']
  cases hsearch : search rank 17 (leadingExponent rank) with
  | some d =>
    exact ⟨d, rfl, (readsBack_of_search hsearch).coefficient_ne_zero hrank,
      fun hwhole => isWhole_of_search hrank hwhole hsearch⟩
  | none =>
    exact ⟨exactDecimal rank, rfl, (readsBack_exactDecimal hrank).coefficient_ne_zero hrank,
      isWhole_exactDecimal⟩

/-- **The shortest decimal of a number has digits behind the point only if the number is not
whole.** -/
theorem exponent_shortest_nonneg_iff :
    0 ≤ (shortest rank).exponent ↔ unitsPerOne ∣ unitsOfRank rank := by
  constructor
  · intro hpos
    have hround := readsBack_iff.mp (readsBack_shortest rank)
    rw [Decimal.denominator_eq_one hpos] at hround
    exact dvd_units_of_roundsTo hround
  · intro hwhole
    rcases Nat.eq_zero_or_pos rank with rfl | hrank
    · exact le_rfl
    · obtain ⟨d, hd, hne, himp⟩ := exists_shortest_eq_trim hrank
      rw [hd]
      exact (himp hwhole).exponent_trim_nonneg hne

/-- The shortest decimal of a positive number has no trailing zero. -/
lemma shortest_coefficient_mod_ten (hrank : 0 < rank) : (shortest rank).coefficient % 10 ≠ 0 := by
  obtain ⟨d, hd, hne, -⟩ := exists_shortest_eq_trim hrank
  rw [hd]
  exact Decimal.trim_coefficient_mod_ten hne

/-- A shortest decimal with places behind the point does not end in a zero. -/
lemma shortest_last_ne_zero (h : (shortest rank).exponent < 0) :
    (shortest rank).coefficient % 10 ≠ 0 := by
  refine shortest_coefficient_mod_ten (Nat.pos_of_ne_zero fun hzero => ?_)
  rw [hzero] at h
  exact absurd h (by decide)

end Binary64

end SumProduct
