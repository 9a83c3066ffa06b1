import Mathlib.Data.Nat.Prime.Basic
import SumProduct.Algebra.Scalar
import SumProduct.Proofs.Binary64.Nearest
import SumProduct.Proofs.Binary64.Shortest

/-!
# Numbers of formulas that are binary64 numbers

A number of a formula is rounded when it becomes a constant, an exact one even twice. If its value
is that of a binary64 number, then neither rounding changes it: such a value has a significand of at
most 53 bits, and its magnitude is read back as its own rank.

## Main results

* `SumProduct.Binary64.exact_ofRat` — the number nearest to the value of a number has that value.
* `SumProduct.Scalar.round_exact` — the value of a number has 53 significant bits.
* `SumProduct.Scalar.exact_toBinary64` — numbers that are binary64 numbers keep their value.
-/

namespace SumProduct

namespace Binary64

/-! ## Magnitudes as quotients -/

/-- The absolute value of a finite number is its magnitude. -/
lemma abs_exact_finite (negative : Bool) (rank : Fin rankCount) :
    |(finite negative rank).exact| = unitsOfRank rank / unitsPerOne := by
  have hmagnitude : (0 : ℚ) ≤ unitsOfRank rank / unitsPerOne :=
    div_nonneg (Nat.cast_nonneg _) unitsPerOne_pos.le
  cases negative with
  | false => rw [exact_finite_false, abs_of_nonneg hmagnitude]
  | true => rw [exact_finite_true, abs_neg, abs_of_nonneg hmagnitude]

/-- The numerator of a rational whose absolute value is known as a quotient. -/
lemma natAbs_num_mul {q : ℚ} {u d : ℕ} (hd : 0 < d) (h : |q| = u / d) :
    q.num.natAbs * d = u * q.den := by
  have hq : |q| = q.num.natAbs / q.den := by
    nth_rewrite 1 [← Rat.num_div_den q]
    rw [abs_div, Nat.abs_cast, Nat.cast_natAbs, Int.cast_abs]
  have hd' : (d : ℚ) ≠ 0 := Nat.cast_ne_zero.mpr hd.ne'
  have hden : (q.den : ℚ) ≠ 0 := Nat.cast_ne_zero.mpr q.den_ne_zero
  rw [hq, div_eq_div_iff hden hd'] at h
  exact_mod_cast h

/-- Every magnitude is rounded to its rank, zero included. -/
lemma nearestRank_unitsOfRank (rank : ℕ) {d : ℕ} (hd : 0 < d) :
    nearestRank (unitsOfRank rank * d) d = rank := by
  refine nearestRank_of_roundsTo hd ?_
  rcases Nat.eq_zero_or_pos rank with rfl | hrank
  · simp [RoundsTo, unitsOfRank]
  · exact roundsTo_unitsOfRank hrank hd

/-- **The number nearest to the value of a finite number has the same value.** -/
theorem exact_ofRat {x : Binary64} (h : x.isFinite = true) :
    (ofRat x.exact).isFinite = true ∧ (ofRat x.exact).exact = x.exact := by
  rcases x with ⟨negative, rank⟩ | _ | _
  · have habs := abs_exact_finite negative rank
    have hscaled := natAbs_num_mul (twoPow_pos 1074) habs
    generalize (finite negative rank).exact = q at *
    have hrank : ofRat q = finite (decide (q.num < 0)) rank := by
      rw [ofRat, nearest, unitsPerOne, hscaled, nearestRank_unitsOfRank rank q.den_pos, ofRank,
        dif_pos rank.isLt]
    rw [hrank]
    refine ⟨rfl, ?_⟩
    rcases lt_or_ge q 0 with hneg | hpos
    · rw [decide_eq_true (Rat.num_neg.mpr hneg), exact_finite_true, ← habs, abs_of_neg hneg,
        neg_neg]
    · rw [decide_eq_false (not_lt_of_ge (Rat.num_nonneg.mpr hpos)), exact_finite_false, ← habs,
        abs_of_nonneg hpos]
  · cases h
  · cases h

end Binary64

namespace Scalar

open Binary64

/-! ## Significands of 53 bits -/

/-- What divides a power of two is one. -/
lemma exists_eq_twoPow {d n : ℕ} (h : d ∣ twoPow n) : ∃ j, d = twoPow j := by
  obtain ⟨j, -, hj⟩ := (Nat.dvd_prime_pow Nat.prime_two).mp h
  exact ⟨j, hj⟩

/-- A lower power of two divides a higher one. -/
lemma twoPow_dvd {m n : ℕ} (h : m ≤ n) : twoPow m ∣ twoPow n := by
  obtain ⟨k, rfl⟩ := Nat.exists_eq_add_of_le h
  exact ⟨twoPow k, twoPow_add m k⟩

/-- A number of steps that is scaled by powers of two is a number of as few bits times a power of
two. -/
lemma exists_significand {a step n m : ℕ} (hstep : step < 2 * binade)
    (h : a * twoPow n = step * twoPow m) : ∃ o t, o < 2 * binade ∧ a = o * twoPow t := by
  rcases Nat.le_total n m with hle | hle
  · obtain ⟨t, rfl⟩ := Nat.exists_eq_add_of_le hle
    refine ⟨step, t, hstep, Nat.eq_of_mul_eq_mul_right (twoPow_pos n) ?_⟩
    rw [h, twoPow_add]
    ring
  · obtain ⟨t, rfl⟩ := Nat.exists_eq_add_of_le hle
    have hstep' : a * twoPow t = step := by
      refine Nat.eq_of_mul_eq_mul_right (twoPow_pos m) ?_
      rw [← h, twoPow_add]
      ring
    refine ⟨a, 0, ?_, by rw [show twoPow 0 = 1 from rfl, Nat.mul_one]⟩
    have hle : a * 1 ≤ a * twoPow t := Nat.mul_le_mul_left a (twoPow_pos t)
    omega

/-- Scaling a number of at most 53 bits up by 54 bits leaves the lowest of its 53 bits whole. -/
lemma twoPow_dvd_scaled {o t : ℕ} (h : o < 2 * binade) :
    twoPow (Nat.log2 (o * twoPow t * twoPow 54) - 52) ∣ o * twoPow t * twoPow 54 := by
  rcases Nat.eq_zero_or_pos o with rfl | hpos
  · simp
  · have hne : o * twoPow t * twoPow 54 ≠ 0 :=
      (Nat.mul_pos (Nat.mul_pos hpos (twoPow_pos t)) (twoPow_pos 54)).ne'
    have hlt : o * twoPow t * twoPow 54 < twoPow (53 + t + 54) := by
      have hbits : 2 * binade = twoPow 53 := (twoPow_succ 52).symm
      rw [twoPow_add, twoPow_add, ← hbits]
      exact Nat.mul_lt_mul_of_pos_right (Nat.mul_lt_mul_of_pos_right h (twoPow_pos t))
        (twoPow_pos 54)
    have hlog : Nat.log2 (o * twoPow t * twoPow 54) < 53 + t + 54 := (Nat.log2_lt hne).mpr hlt
    obtain ⟨c, hc⟩ : twoPow (Nat.log2 (o * twoPow t * twoPow 54) - 52) ∣ twoPow (t + 54) :=
      twoPow_dvd (by omega)
    refine ⟨o * c, ?_⟩
    rw [Nat.mul_left_comm, ← hc, twoPow_add, ← Nat.mul_assoc]

/-- A whole quotient is not rounded. -/
lemma roundDiv_mul (m : ℕ) {d : ℕ} (hd : 0 < d) : roundDiv (m * d) d = m := by
  simp [roundDiv, Nat.mul_div_cancel _ hd, hd]

/-- Rounding to 53 significant bits leaves a quotient as it is whose numerator has no more and whose
denominator is a power of two. -/
lemma round_eq_self {q : ℚ} {o t j : ℕ} (ho : o < 2 * binade)
    (hnum : q.num.natAbs = o * twoPow t) (hden : q.den = twoPow j) : round q = q := by
  have hlog : Nat.log2 (twoPow j) = j := Nat.log2_two_pow
  have hdiv : q.num.natAbs * twoPow (j + 54) / twoPow j = o * twoPow t * twoPow 54 := by
    rw [hnum, twoPow_add, Nat.mul_left_comm, Nat.mul_div_cancel_left _ (twoPow_pos j)]
  obtain ⟨m, hm⟩ := twoPow_dvd_scaled (t := t) ho
  simp only [round, hden, hlog, hdiv]
  generalize Nat.log2 (o * twoPow t * twoPow 54) - 52 = shift at hm ⊢
  have hsteps : roundDiv (q.num.natAbs * twoPow (j + 54)) (twoPow j * twoPow shift) = m := by
    have hscaled : q.num.natAbs * twoPow (j + 54) = m * (twoPow j * twoPow shift) := by
      calc q.num.natAbs * twoPow (j + 54) = twoPow j * (o * twoPow t * twoPow 54) := by
            rw [hnum, twoPow_add, Nat.mul_left_comm]
        _ = m * (twoPow j * twoPow shift) := by
          rw [hm]
          ring
    rw [hscaled, roundDiv_mul m (Nat.mul_pos (twoPow_pos j) (twoPow_pos shift))]
  have hvalue : m * twoPow shift = q.num.natAbs * twoPow 54 := by
    rw [hnum, hm, Nat.mul_comm]
  have hpow : ((twoPow 54 : ℕ) : ℚ) ≠ 0 := Nat.cast_ne_zero.mpr (twoPow_pos 54).ne'
  rw [hsteps, hvalue, Rat.mkRat_eq_div, twoPow_add, ← hden, Nat.cast_mul (q.num.natAbs),
    ← mul_assoc, Int.sign_mul_natAbs, Nat.cast_mul, Int.cast_mul, Int.cast_natCast,
    mul_div_mul_right _ _ hpow, Rat.num_div_den]

/-- **The value of a binary64 number has 53 significant bits.** -/
theorem round_exact {x : Binary64} (h : x.isFinite = true) : round x.exact = x.exact := by
  rcases x with ⟨negative, rank⟩ | _ | _
  · have hscaled := natAbs_num_mul (twoPow_pos 1074) (abs_exact_finite negative rank)
    generalize (finite negative rank).exact = q at *
    have hcoprime : q.den.Coprime q.num.natAbs := q.reduced.symm
    have hdvd : q.den ∣ q.num.natAbs * twoPow 1074 := by
      rw [hscaled]
      exact Nat.dvd_mul_left _ _
    obtain ⟨j, hj⟩ := exists_eq_twoPow (hcoprime.dvd_of_dvd_mul_left hdvd)
    obtain ⟨shift, step, hstep, hrank⟩ := exists_step rank
    rw [hrank, hstep.units, hj, Nat.mul_assoc, ← twoPow_add] at hscaled
    obtain ⟨o, t, ho, ha⟩ := exists_significand hstep.lt hscaled
    exact round_eq_self ho ha hj
  · cases h
  · cases h

/-- **A number of a formula whose value is that of a binary64 number keeps it.** -/
theorem exact_toBinary64 {n : Scalar} {x : Binary64} (hx : x.isFinite = true)
    (hn : n.value? = some x.exact) :
    n.toBinary64.isFinite = true ∧ n.toBinary64.exact = x.exact := by
  cases n with
  | exact q =>
    obtain rfl : q = x.exact := Option.some.inj hn
    rw [toBinary64, round_exact hx]
    exact exact_ofRat hx
  | rounded q =>
    obtain rfl : q = x.exact := Option.some.inj hn
    exact exact_ofRat hx
  | infinite negative => cases hn
  | nan => cases hn

end Scalar

end SumProduct
