import Mathlib.Order.Monotone.Basic
import Mathlib.Tactic.Linarith
import Mathlib.Tactic.Ring
import SumProduct.Binary64.Basic

/-!
# Rounding to a rank

Every rank is a step of a binade, and its magnitude is the number of the step times a power of two.
From this follow the distances to the neighbouring ranks, and that a quotient between the midpoints
to the neighbours of a rank is rounded to the rank.

## Main definitions

* `SumProduct.Binary64.RoundsTo` — the quotients between the midpoints around a rank.

## Main results

* `SumProduct.Binary64.exists_step` — every rank is a step of a binade.
* `SumProduct.Binary64.unitsOfRank_strictMono` — a higher rank has a greater magnitude.
* `SumProduct.Binary64.nearestRank_of_roundsTo` — what lies between the midpoints is rounded.
-/

namespace SumProduct

/-! ## Powers -/

/-- A power of two is positive. -/
lemma twoPow_pos (n : Nat) : 0 < twoPow n := Nat.two_pow_pos n

/-- The next power of two is twice as large. -/
lemma twoPow_succ (n : Nat) : twoPow (n + 1) = 2 * twoPow n := Nat.pow_succ'

/-- The powers of two of a sum are multiplied. -/
lemma twoPow_add (m n : Nat) : twoPow (m + n) = twoPow m * twoPow n := Nat.pow_add 2 m n

/-- A power of ten is positive. -/
lemma tenPow_pos (n : Nat) : 0 < tenPow n := Nat.pow_pos (by decide)

/-- The power of ten without a factor. -/
lemma tenPow_zero : tenPow 0 = 1 := rfl

/-- The next power of ten is ten times as large. -/
lemma tenPow_succ (n : Nat) : tenPow (n + 1) = 10 * tenPow n := Nat.pow_succ'

/-- A binade has an even number of ranks, and at least two. -/
lemma exists_binade : ∃ half, 0 < half ∧ binade = 2 * half :=
  ⟨twoPow 51, twoPow_pos 51, twoPow_succ 51⟩

namespace Binary64

/-! ## Steps of a binade -/

/-- The steps `step` of the binade with this shift: from `binade` on, except in the first one, and
below the next one. -/
structure IsStep (shift step : Nat) : Prop where
  /-- Steps below `binade` belong to lower binades. -/
  le : 0 < shift → binade ≤ step
  /-- Steps from twice `binade` on belong to higher binades. -/
  lt : step < 2 * binade

/-- Every rank is a step of a binade. -/
lemma exists_step (rank : Nat) :
    ∃ shift step, IsStep shift step ∧ rank = shift * binade + step := by
  obtain ⟨half, hhalf, hbinade⟩ := exists_binade
  have hrank := Nat.div_add_mod rank binade
  have hmod := Nat.mod_lt rank (show 0 < binade by omega)
  rcases hdiv : rank / binade with _ | shift
  · rw [hdiv, Nat.mul_zero] at hrank
    exact ⟨0, rank, ⟨by omega, by omega⟩, by omega⟩
  · rw [hdiv, Nat.mul_succ, Nat.mul_comm] at hrank
    exact ⟨shift, binade + rank % binade, ⟨by omega, by omega⟩, by omega⟩

/-- The magnitude of a rank in the binade that division finds. -/
lemma unitsOfRank_of_div {rank k : Nat} (h : rank / binade = k) :
    unitsOfRank rank = (rank - (k - 1) * binade) * twoPow (k - 1) := by
  simp only [unitsOfRank, h]

/-- The magnitude of a rank is the step times a power of two. This also holds of the rank that the
next binade begins with. -/
lemma unitsOfRank_eq {shift step : Nat} (hle : 0 < shift → binade ≤ step)
    (hlt : step ≤ 2 * binade) : unitsOfRank (shift * binade + step) = step * twoPow shift := by
  obtain ⟨half, hhalf, hbinade⟩ := exists_binade
  have hpos : 0 < binade := by omega
  have hdiv : (shift * binade + step) / binade = shift + step / binade := by
    rw [Nat.mul_comm, Nat.mul_add_div hpos]
  rcases lt_or_ge step binade with hfirst | hbig
  · obtain rfl : shift = 0 := by
      by_contra h
      exact absurd (hle (Nat.pos_of_ne_zero h)) (by omega)
    rw [unitsOfRank_of_div (hdiv.trans (by rw [Nat.div_eq_of_lt hfirst]))]
    simp
  rcases Nat.lt_or_eq_of_le hlt with hinner | rfl
  · have hone : step / binade = 1 := Nat.div_eq_of_lt_le (by omega) (by omega)
    rw [unitsOfRank_of_div (hdiv.trans (by rw [hone])), Nat.add_sub_cancel, Nat.add_sub_cancel_left]
  · have htwo : 2 * binade / binade = 2 := Nat.mul_div_cancel _ hpos
    rw [unitsOfRank_of_div (hdiv.trans (by rw [htwo]))]
    have hleft : shift * binade + 2 * binade - (shift + 2 - 1) * binade = binade := by
      rw [show shift + 2 - 1 = shift + 1 by omega, Nat.add_mul]
      omega
    rw [hleft, show shift + 2 - 1 = shift + 1 by omega, twoPow_succ]
    ring

/-- The magnitude of a step. -/
lemma IsStep.units {shift step : Nat} (h : IsStep shift step) :
    unitsOfRank (shift * binade + step) = step * twoPow shift :=
  unitsOfRank_eq h.le h.lt.le

/-- The magnitude above a step is one step more. -/
lemma IsStep.units_succ {shift step : Nat} (h : IsStep shift step) :
    unitsOfRank (shift * binade + step + 1) = (step + 1) * twoPow shift := by
  rw [Nat.add_assoc, unitsOfRank_eq (fun hpos => (h.le hpos).trans (Nat.le_succ _)) h.lt]

/-- The magnitude below a step that does not begin its binade is one step less. -/
lemma IsStep.units_pred {shift step : Nat} (h : IsStep shift step)
    (hstep : 0 < shift → binade < step) :
    unitsOfRank (shift * binade + step - 1) = (step - 1) * twoPow shift := by
  rcases Nat.eq_zero_or_pos step with rfl | hpos
  · obtain rfl : shift = 0 := by
      by_contra hne
      exact Nat.not_lt_zero _ (hstep (Nat.pos_of_ne_zero hne))
    simp [unitsOfRank]
  · rw [Nat.add_sub_assoc hpos, unitsOfRank_eq (fun hshift => Nat.le_sub_one_of_lt (hstep hshift))
      ((Nat.sub_le _ _).trans h.lt.le)]

/-- The magnitude below the first step of a binade is the last step of the binade below. -/
lemma unitsOfRank_pred_binade (shift : Nat) :
    unitsOfRank ((shift + 1) * binade + binade - 1) = (2 * binade - 1) * twoPow shift := by
  obtain ⟨half, hhalf, hbinade⟩ := exists_binade
  have hrank : (shift + 1) * binade + binade - 1 = shift * binade + (2 * binade - 1) := by
    rw [Nat.add_one_mul]
    omega
  rw [hrank, unitsOfRank_eq (fun _ => by omega) (Nat.sub_le _ _)]

/-- The next rank has a greater magnitude. -/
lemma unitsOfRank_lt_succ (rank : Nat) : unitsOfRank rank < unitsOfRank (rank + 1) := by
  obtain ⟨shift, step, hstep, rfl⟩ := exists_step rank
  rw [hstep.units, hstep.units_succ]
  exact Nat.mul_lt_mul_of_pos_right (Nat.lt_succ_self _) (twoPow_pos _)

/-- A higher rank has a greater magnitude. -/
lemma unitsOfRank_strictMono : StrictMono unitsOfRank :=
  strictMono_nat_of_lt_succ unitsOfRank_lt_succ

/-! ## Rounding -/

/-- The quotient `n / d` lies between the midpoints of a rank and its neighbours; the midpoints
belong to an even rank. -/
def RoundsTo (rank n d : Nat) : Prop :=
  if rank % 2 = 0 then
    (unitsOfRank (rank - 1) + unitsOfRank rank) * d ≤ 2 * n ∧
      2 * n ≤ (unitsOfRank rank + unitsOfRank (rank + 1)) * d
  else
    (unitsOfRank (rank - 1) + unitsOfRank rank) * d < 2 * n ∧
      2 * n < (unitsOfRank rank + unitsOfRank (rank + 1)) * d

/-- An odd rank needs strict bounds, an even one does not. -/
lemma RoundsTo.bounds {rank n d : Nat} (h : RoundsTo rank n d) :
    ((unitsOfRank (rank - 1) + unitsOfRank rank) * d ≤ 2 * n ∧
      2 * n ≤ (unitsOfRank rank + unitsOfRank (rank + 1)) * d) ∧
    (rank % 2 = 1 → (unitsOfRank (rank - 1) + unitsOfRank rank) * d < 2 * n ∧
      2 * n < (unitsOfRank rank + unitsOfRank (rank + 1)) * d) := by
  unfold RoundsTo at h
  split_ifs at h with heven
  · exact ⟨h, fun hodd => absurd heven (by omega)⟩
  · exact ⟨⟨h.1.le, h.2.le⟩, fun _ => h⟩

/-- A quotient within a half of an integer is rounded to it; exactly a half away only if the integer
is even. -/
lemma roundDiv_eq {m n d : Nat} (hlow : 2 * (m * d) ≤ 2 * n + d) (hhigh : 2 * n ≤ 2 * (m * d) + d)
    (hodd : m % 2 = 1 → 2 * (m * d) < 2 * n + d ∧ 2 * n < 2 * (m * d) + d) (hd : 0 < d) :
    roundDiv n d = m := by
  have hn := Nat.div_add_mod' n d
  have hrest := Nat.mod_lt n hd
  have hle : m ≤ n / d + 1 := by
    refine Nat.le_of_lt_succ (Nat.lt_of_mul_lt_mul_right (a := d) ?_)
    rw [Nat.succ_mul, Nat.add_one_mul]
    omega
  have hge : n / d ≤ m := by
    refine Nat.le_of_lt_succ (Nat.lt_of_mul_lt_mul_right (a := d) ?_)
    rw [Nat.succ_mul]
    omega
  have hsucc := Nat.add_one_mul (n / d) d
  simp only [roundDiv]
  obtain rfl | rfl : m = n / d ∨ m = n / d + 1 := by omega
  · split_ifs <;> omega
  · split_ifs <;> omega

/-- A quotient is scaled with the power of two that leaves it at least `binade` and less than twice
`binade`, if it is large enough for that. -/
lemma log2_sub_eq {q shift : Nat} (hle : 0 < shift → binade * twoPow shift ≤ q)
    (hlt : q < 2 * binade * twoPow shift) : Nat.log2 q - 52 = shift := by
  have hlow : binade * twoPow shift = twoPow (52 + shift) := (twoPow_add 52 shift).symm
  have hhigh : 2 * binade * twoPow shift = twoPow (53 + shift) := by
    rw [twoPow_add 53 shift, twoPow_succ 52, binade]
  rw [hlow] at hle
  rw [hhigh] at hlt
  rcases Nat.eq_zero_or_pos q with rfl | hq
  · rcases Nat.eq_zero_or_pos shift with rfl | hshift
    · simp
    · exact absurd (hle hshift) (Nat.not_le_of_lt (twoPow_pos _))
  · have hupper : Nat.log2 q < 53 + shift := (Nat.log2_lt hq.ne').mpr hlt
    have hlower (hshift : 0 < shift) : 52 + shift ≤ Nat.log2 q :=
      (Nat.le_log2 hq.ne').mpr (hle hshift)
    omega

/-- Rounding a quotient that is scaled with a power of two. -/
lemma nearestRank_eq {shift step n d : Nat} (hd : 0 < d)
    (hle : 0 < shift → binade * (d * twoPow shift) ≤ n)
    (hlt : n < 2 * (binade * (d * twoPow shift))) (hround : roundDiv n (d * twoPow shift) = step) :
    nearestRank n d = shift * binade + step := by
  have hshift : Nat.log2 (n / d) - 52 = shift := by
    refine log2_sub_eq (fun h => (Nat.le_div_iff_mul_le hd).mpr ?_)
      ((Nat.div_lt_iff_lt_mul hd).mpr ?_)
    · calc binade * twoPow shift * d = binade * (d * twoPow shift) := by ring
        _ ≤ n := hle h
    · calc n < 2 * (binade * (d * twoPow shift)) := hlt
        _ = 2 * binade * twoPow shift * d := by ring
  rw [nearestRank, hshift, hround]

/-- Whole binades do not change the parity of a rank. -/
lemma rank_mod_two (shift step : Nat) : (shift * binade + step) % 2 = step % 2 := by
  obtain ⟨half, -, hbinade⟩ := exists_binade
  rw [hbinade, Nat.mul_left_comm, Nat.mul_add_mod]

/-- Rounding to a step that does not begin its binade. -/
lemma nearestRank_inner {shift step n d : Nat} (hd : 0 < d) (hstep : IsStep shift step)
    (hinner : 0 < shift → binade < step) (h : RoundsTo (shift * binade + step) n d) :
    nearestRank n d = shift * binade + step := by
  obtain ⟨⟨hlow, hhigh⟩, hodd⟩ := h.bounds
  rw [rank_mod_two] at hodd
  rw [hstep.units, hstep.units_succ] at hhigh hodd
  rw [hstep.units, hstep.units_pred hinner] at hlow
  rw [hstep.units_pred hinner] at hodd
  have hbelow : ((step - 1) * twoPow shift + step * twoPow shift) * d =
      (step - 1) * (d * twoPow shift) + step * (d * twoPow shift) := by ring
  have habove : (step * twoPow shift + (step + 1) * twoPow shift) * d =
      2 * (step * (d * twoPow shift)) + d * twoPow shift := by ring
  rw [hbelow] at hlow hodd
  rw [habove] at hhigh hodd
  have hunit : 0 < d * twoPow shift := Nat.mul_pos hd (twoPow_pos _)
  have hlast : (step + 1) * (d * twoPow shift) ≤ 2 * binade * (d * twoPow shift) :=
    Nat.mul_le_mul_right _ hstep.lt
  have hfirst (hshift : 0 < shift) :
      (binade + 1) * (d * twoPow shift) ≤ step * (d * twoPow shift) :=
    Nat.mul_le_mul_right _ (hinner hshift)
  have hpred : step * (d * twoPow shift) ≤ (step - 1) * (d * twoPow shift) + d * twoPow shift := by
    rw [← Nat.add_one_mul]
    exact Nat.mul_le_mul_right _ (by omega)
  rw [Nat.add_one_mul, Nat.mul_assoc] at hlast
  simp only [Nat.add_one_mul] at hfirst
  refine nearestRank_eq hd (fun hshift => ?_) ?_ (roundDiv_eq ?_ ?_ (fun h => ?_) hunit)
  · have hle := hfirst hshift
    omega
  · omega
  · omega
  · omega
  · have hstrict := hodd h
    omega

/-- Rounding to the first step of a binade other than the lowest. -/
lemma nearestRank_first {shift n d : Nat} (hd : 0 < d)
    (h : RoundsTo ((shift + 1) * binade + binade) n d) :
    nearestRank n d = (shift + 1) * binade + binade := by
  obtain ⟨half, hhalf, hbinade⟩ := exists_binade
  have hstep : IsStep (shift + 1) binade := ⟨fun _ => le_rfl, by omega⟩
  obtain ⟨⟨hlow, hhigh⟩, -⟩ := h.bounds
  rw [hstep.units, unitsOfRank_pred_binade, twoPow_succ] at hlow
  rw [hstep.units, hstep.units_succ, twoPow_succ] at hhigh
  have hunit : 0 < d * twoPow shift := Nat.mul_pos hd (twoPow_pos _)
  have hbelow : ((2 * binade - 1) * twoPow shift + binade * (2 * twoPow shift)) * d +
      d * twoPow shift = 4 * (binade * (d * twoPow shift)) := by
    have hpred : 2 * binade - 1 + 1 = 2 * binade := by omega
    calc ((2 * binade - 1) * twoPow shift + binade * (2 * twoPow shift)) * d + d * twoPow shift
        = (2 * binade - 1 + 1) * (d * twoPow shift) + 2 * (binade * (d * twoPow shift)) := by ring
      _ = 4 * (binade * (d * twoPow shift)) := by rw [hpred]; ring
  have habove : (binade * (2 * twoPow shift) + (binade + 1) * (2 * twoPow shift)) * d =
      4 * (binade * (d * twoPow shift)) + 2 * (d * twoPow shift) := by ring
  have hwide : d * twoPow shift ≤ binade * (d * twoPow shift) :=
    Nat.le_mul_of_pos_left _ (by omega)
  have hdouble : d * twoPow (shift + 1) = 2 * (d * twoPow shift) := by
    rw [twoPow_succ]
    ring
  have hscaled : binade * (d * twoPow (shift + 1)) = 2 * (binade * (d * twoPow shift)) := by
    rw [hdouble]
    ring
  rcases lt_or_ge n (2 * (binade * (d * twoPow shift))) with hlt | hge
  · -- Below the step the quotient belongs to the binade below, where the rank is step `2 * binade`.
    have htop : 2 * binade * (d * twoPow shift) = 2 * (binade * (d * twoPow shift)) :=
      Nat.mul_assoc _ _ _
    have hround : nearestRank n d = shift * binade + 2 * binade :=
      nearestRank_eq hd (fun _ => by omega) hlt
        (roundDiv_eq (by omega) (by omega) (fun hodd => by omega) hunit)
    rw [hround, Nat.add_one_mul shift]
    omega
  · refine nearestRank_eq hd (fun _ => by omega) (by omega) ?_
    exact roundDiv_eq (by omega) (by omega) (fun hodd => by omega) (by omega)

/-- **What lies between the midpoints around a rank is rounded to it.**

**Proof sketch.** A quotient that lies in the binade of the rank is scaled with its power of two,
and there the midpoints are half a step away. The only other quotients are those just below the
first step of a binade: they are scaled with the power of two of the binade below, where the rank is
one step more than the last. -/
theorem nearestRank_of_roundsTo {rank n d : Nat} (hd : 0 < d) (h : RoundsTo rank n d) :
    nearestRank n d = rank := by
  obtain ⟨shift, step, hstep, rfl⟩ := exists_step rank
  by_cases hinner : 0 < shift → binade < step
  · exact nearestRank_inner hd hstep hinner h
  · obtain ⟨hshift, hstep'⟩ := Classical.not_imp.mp hinner
    obtain ⟨lower, rfl⟩ := Nat.exists_eq_succ_of_ne_zero hshift.ne'
    obtain rfl := Nat.le_antisymm (Nat.le_of_not_lt hstep') (hstep.le hshift)
    exact nearestRank_first hd h

end Binary64

end SumProduct
