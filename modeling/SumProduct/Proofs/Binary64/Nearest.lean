import Mathlib.Algebra.Order.Field.Basic
import Mathlib.Algebra.Order.Ring.Rat
import Mathlib.Tactic.Linarith
import Mathlib.Tactic.NormNum
import SumProduct.Proofs.Binary64.Rounding
import SumProduct.Proofs.Expr.Polynomial

/-!
# Rounding to the nearest number

Every quotient lies between the midpoints around some rank, so rounding a quotient is rounding to
the nearest magnitude, and of two that are equally near to the one with the even significand. The
quotients from the midpoint above the last finite magnitude on are those that round to infinity.

## Main definitions

* `SumProduct.Binary64.significand` — the whole number of steps that a magnitude consists of.
* `SumProduct.Binary64.IsNearest` — a finite number nearest to a rational, ties to even.
* `SumProduct.Binary64.overflowBound` — the least rational that rounds to infinity.

## Main results

* `SumProduct.Binary64.roundsTo_nearestRank` — every quotient is rounded between its midpoints.
* `SumProduct.Binary64.nearestRank_mono` — a greater quotient is not rounded to a lower rank.
* `SumProduct.Binary64.nearest_spec` — a quotient rounds to the nearest number, or it is from the
  bound on and rounds to infinity.
-/

namespace SumProduct

namespace Binary64

/-! ## Every quotient is rounded -/

/-- Every quotient lies between the midpoints around some rank.

**Proof sketch.** Take the first rank whose magnitude is above the quotient, and the rank below it.
The midpoint between the two decides which of them it is, and on the midpoint the parity does. -/
lemma exists_roundsTo (n : ℕ) {d : ℕ} (hd : 0 < d) : ∃ rank, RoundsTo rank n d := by
  have habove : ∃ k, n < unitsOfRank k * d := by
    refine ⟨n + 1, ?_⟩
    calc n < n + 1 := Nat.lt_succ_self n
      _ ≤ unitsOfRank (n + 1) := unitsOfRank_strictMono.id_le _
      _ ≤ unitsOfRank (n + 1) * d := Nat.le_mul_of_pos_right _ hd
  obtain ⟨rank, hrank⟩ : ∃ rank, Nat.find habove = rank + 1 := by
    refine Nat.exists_eq_succ_of_ne_zero fun hzero => ?_
    have h := Nat.find_spec habove
    rw [hzero] at h
    simp [unitsOfRank] at h
  have hbelow : unitsOfRank rank * d ≤ n :=
    Nat.le_of_not_lt (Nat.find_min habove (by omega))
  have habove' := Nat.find_spec habove
  rw [hrank] at habove'
  have hlow : (unitsOfRank (rank - 1) + unitsOfRank rank) * d ≤ 2 * n := by
    have hpred := Nat.mul_le_mul_right d (unitsOfRank_strictMono.monotone (Nat.sub_le rank 1))
    rw [Nat.add_mul]
    omega
  have hlow' : 0 < rank → (unitsOfRank (rank - 1) + unitsOfRank rank) * d < 2 * n := by
    intro hpos
    have hpred := Nat.mul_lt_mul_of_pos_right
      (unitsOfRank_strictMono (Nat.sub_lt hpos Nat.one_pos)) hd
    rw [Nat.add_mul]
    omega
  have hhigh : 2 * n < (unitsOfRank (rank + 1) + unitsOfRank (rank + 1 + 1)) * d := by
    have hnext := Nat.mul_lt_mul_of_pos_right (unitsOfRank_lt_succ (rank + 1)) hd
    rw [Nat.add_mul]
    omega
  rcases lt_trichotomy (2 * n) ((unitsOfRank rank + unitsOfRank (rank + 1)) * d) with
    hlt | heq | hgt
  · refine ⟨rank, ?_⟩
    unfold RoundsTo
    split_ifs with heven
    · exact ⟨hlow, hlt.le⟩
    · exact ⟨hlow' (by omega), hlt⟩
  · rcases Nat.mod_two_eq_zero_or_one rank with heven | hodd
    · exact ⟨rank, by rw [RoundsTo, if_pos heven]; exact ⟨hlow, heq.le⟩⟩
    · refine ⟨rank + 1, ?_⟩
      rw [RoundsTo, if_pos (by omega), Nat.add_sub_cancel]
      exact ⟨heq.ge, hhigh.le⟩
  · refine ⟨rank + 1, ?_⟩
    unfold RoundsTo
    rw [Nat.add_sub_cancel]
    split_ifs
    · exact ⟨hgt.le, hhigh.le⟩
    · exact ⟨hgt, hhigh⟩

/-- **Every quotient is rounded to the rank between whose midpoints it lies.** -/
theorem roundsTo_nearestRank (n : ℕ) {d : ℕ} (hd : 0 < d) : RoundsTo (nearestRank n d) n d := by
  obtain ⟨rank, hrank⟩ := exists_roundsTo n hd
  rwa [nearestRank_of_roundsTo hd hrank]

/-! ## Distances -/

section Distances

variable {rank n d : ℕ}

/-- The bounds of a quotient that is rounded, as bounds of a rational. -/
lemma RoundsTo.bounds_div (hd : 0 < d) (h : RoundsTo rank n d) :
    ((unitsOfRank (rank - 1) : ℚ) + unitsOfRank rank ≤ 2 * (n / d) ∧
      2 * (n / d) ≤ (unitsOfRank rank : ℚ) + unitsOfRank (rank + 1)) ∧
    (rank % 2 = 1 → (unitsOfRank (rank - 1) : ℚ) + unitsOfRank rank < 2 * (n / d) ∧
      2 * (n / d) < (unitsOfRank rank : ℚ) + unitsOfRank (rank + 1)) := by
  have hd' : (0 : ℚ) < d := Nat.cast_pos.mpr hd
  obtain ⟨⟨hlow, hhigh⟩, hodd⟩ := h.bounds
  rw [← mul_div_assoc]
  refine ⟨⟨?_, ?_⟩, fun hrank => ⟨?_, ?_⟩⟩
  · rw [le_div_iff₀ hd']
    exact_mod_cast hlow
  · rw [div_le_iff₀ hd']
    exact_mod_cast hhigh
  · rw [lt_div_iff₀ hd']
    exact_mod_cast (hodd hrank).1
  · rw [div_lt_iff₀ hd']
    exact_mod_cast (hodd hrank).2

/-- A rank below has at most the magnitude of the one just below. -/
lemma unitsOfRank_le_pred {other : ℕ} (h : other < rank) :
    (unitsOfRank other : ℚ) ≤ unitsOfRank (rank - 1) ∧ (unitsOfRank other : ℚ) < unitsOfRank rank :=
  ⟨Nat.cast_le.mpr (unitsOfRank_strictMono.monotone (by omega)),
    Nat.cast_lt.mpr (unitsOfRank_strictMono h)⟩

/-- A rank above has at least the magnitude of the one just above. -/
lemma unitsOfRank_succ_le {other : ℕ} (h : rank < other) :
    (unitsOfRank (rank + 1) : ℚ) ≤ unitsOfRank other ∧ (unitsOfRank rank : ℚ) < unitsOfRank other :=
  ⟨Nat.cast_le.mpr (unitsOfRank_strictMono.monotone (by omega)),
    Nat.cast_lt.mpr (unitsOfRank_strictMono h)⟩

/-- No magnitude is nearer to a quotient than the one that it is rounded to. -/
lemma RoundsTo.dist_le (hd : 0 < d) (h : RoundsTo rank n d) (other : ℕ) :
    |(n / d : ℚ) - unitsOfRank rank| ≤ |(n / d : ℚ) - unitsOfRank other| := by
  obtain ⟨⟨hlow, hhigh⟩, -⟩ := h.bounds_div hd
  rcases lt_trichotomy other rank with hlt | rfl | hgt
  · obtain ⟨hpred, hother⟩ := unitsOfRank_le_pred hlt
    rw [abs_of_nonneg (a := (n / d : ℚ) - unitsOfRank other) (by linarith), abs_le]
    constructor <;> linarith
  · exact le_rfl
  · obtain ⟨hnext, hother⟩ := unitsOfRank_succ_le hgt
    rw [abs_of_nonpos (a := (n / d : ℚ) - unitsOfRank other) (by linarith), abs_le]
    constructor <;> linarith

/-- Where another magnitude is as near to a quotient, the quotient is rounded to the even rank. -/
lemma RoundsTo.even_of_dist_eq (hd : 0 < d) (h : RoundsTo rank n d) {other : ℕ}
    (hne : other ≠ rank)
    (heq : |(n / d : ℚ) - unitsOfRank other| = |(n / d : ℚ) - unitsOfRank rank|) :
    rank % 2 = 0 := by
  by_contra hodd
  obtain ⟨hlow, hhigh⟩ := (h.bounds_div hd).2 (by omega)
  rcases Nat.lt_or_gt_of_ne hne with hlt | hgt
  · obtain ⟨hpred, hother⟩ := unitsOfRank_le_pred hlt
    rw [abs_of_nonneg (a := (n / d : ℚ) - unitsOfRank other) (by linarith), eq_comm,
      abs_eq (by linarith)] at heq
    rcases heq with heq | heq <;> linarith
  · obtain ⟨hnext, hother⟩ := unitsOfRank_succ_le hgt
    rw [abs_of_nonpos (a := (n / d : ℚ) - unitsOfRank other) (by linarith), eq_comm,
      abs_eq (by linarith)] at heq
    rcases heq with heq | heq <;> linarith

/-- A greater quotient is not rounded to a lower rank.

**Proof sketch.** Otherwise both quotients would be the midpoint between two consecutive ranks, and
one of the two is odd. -/
lemma RoundsTo.mono {rank' n' d' : ℕ} (hd : 0 < d) (hd' : 0 < d') (h : RoundsTo rank n d)
    (h' : RoundsTo rank' n' d') (hle : (n / d : ℚ) ≤ n' / d') : rank ≤ rank' := by
  by_contra hlt
  have hlt : rank' < rank := Nat.lt_of_not_le hlt
  obtain ⟨⟨hlow, -⟩, hodd⟩ := h.bounds_div hd
  obtain ⟨⟨-, hhigh⟩, hodd'⟩ := h'.bounds_div hd'
  obtain ⟨hpred, -⟩ := unitsOfRank_le_pred hlt
  obtain ⟨hnext, -⟩ := unitsOfRank_succ_le hlt
  rcases Nat.mod_two_eq_zero_or_one rank with heven | hrank
  · rcases Nat.mod_two_eq_zero_or_one rank' with heven' | hrank'
    · -- The ranks are not consecutive, so there is room between the midpoints.
      obtain ⟨-, hgap⟩ := unitsOfRank_succ_le (show rank' + 1 < rank by omega)
      linarith
    · obtain ⟨-, hstrict⟩ := hodd' hrank'
      linarith
  · obtain ⟨hstrict, -⟩ := hodd hrank
    linarith

end Distances

/-- **A greater quotient is not rounded to a lower rank.** -/
theorem nearestRank_mono {n d n' d' : ℕ} (hd : 0 < d) (hd' : 0 < d')
    (hle : (n / d : ℚ) ≤ n' / d') : nearestRank n d ≤ nearestRank n' d' :=
  (roundsTo_nearestRank n hd).mono hd hd' (roundsTo_nearestRank n' hd') hle

/-! ## Numbers -/

/-- The number of steps that the magnitude of a rank consists of, where a step is what it is apart
from the next one: the factor of the magnitude (`unitsOfRank`) that stands before a power of two. -/
def significand (rank : ℕ) : ℕ := rank - (rank / binade - 1) * binade

/-- The significand is even for every second rank. -/
lemma significand_mod_two (rank : ℕ) : significand rank % 2 = rank % 2 := by
  obtain ⟨half, -, hbinade⟩ := exists_binade
  have hle : (rank / binade - 1) * binade ≤ rank :=
    (Nat.mul_le_mul_right _ (Nat.sub_le _ _)).trans (Nat.div_mul_le_self rank binade)
  have heven : (rank / binade - 1) * binade = 2 * ((rank / binade - 1) * half) := by
    rw [hbinade]
    ring
  unfold significand
  omega

/-- One consists of a positive number of units. -/
lemma unitsPerOne_pos : (0 : ℚ) < unitsPerOne := Nat.cast_pos.mpr (twoPow_pos 1074)

/-- The exact value of a number without sign. -/
lemma exact_finite_false (rank : Fin rankCount) :
    (finite false rank).exact = unitsOfRank rank / unitsPerOne := by
  rw [exact, toRat?, units?, Option.map_some, Option.getD_some, Rat.mkRat_eq_div, Int.cast_natCast]

/-- The exact value of a number with a sign. -/
lemma exact_finite_true (rank : Fin rankCount) :
    (finite true rank).exact = -(unitsOfRank rank / unitsPerOne) := by
  rw [exact, toRat?, units?, Option.map_some, Option.getD_some, Rat.mkRat_eq_div, Int.cast_neg,
    Int.cast_natCast, neg_div]

/-- A number is nearest to a rational: it is finite, no finite number is nearer, and where another
one is as near, its significand is even. -/
structure IsNearest (x : Binary64) (q : ℚ) : Prop where
  /-- The number is finite. -/
  isFinite : x.isFinite = true
  /-- No finite number is nearer. -/
  dist_le : ∀ y : Binary64, y.isFinite = true → |q - x.exact| ≤ |q - y.exact|
  /-- Of two numbers that are as near it is the even one. -/
  even : ∀ y : Binary64, y.isFinite = true → y.exact ≠ x.exact →
    |q - y.exact| = |q - x.exact| → ∃ negative rank, x = finite negative rank ∧
      significand rank % 2 = 0

/-- The distance of a quotient to a magnitude, in units. -/
lemma dist_eq_units (n d units : ℕ) :
    |(n / d : ℚ) - units / unitsPerOne| =
      |((n * unitsPerOne : ℕ) / d : ℚ) - units| / unitsPerOne := by
  have hone := unitsPerOne_pos
  have hscaled : (n / d : ℚ) - units / unitsPerOne =
      (((n * unitsPerOne : ℕ) / d : ℚ) - units) / unitsPerOne := by
    rw [Nat.cast_mul, sub_div, mul_div_right_comm, mul_div_cancel_right₀ _ hone.ne']
  rw [hscaled, abs_div, abs_of_pos hone]

/-- What is not negative is no nearer to the negative of a magnitude than to the magnitude, and as
near only if one of the two is zero. -/
lemma dist_le_dist_neg {q u : ℚ} (hq : 0 ≤ q) (hu : 0 ≤ u) :
    |q - u| ≤ |q - -u| ∧ (|q - -u| = |q - u| → q = 0 ∨ u = 0) := by
  rw [abs_of_nonneg (a := q - -u) (by linarith)]
  refine ⟨abs_le.mpr ⟨by linarith, by linarith⟩, fun heq => ?_⟩
  rw [eq_comm, abs_eq (by linarith)] at heq
  rcases heq with heq | heq
  · exact .inr (by linarith)
  · exact .inl (by linarith)

section Nearest

variable {n d : ℕ} {rank : Fin rankCount} (hd : 0 < d)
  (h : RoundsTo rank (n * unitsPerOne) d)
include hd h

/-- No number without sign is nearer to a quotient than the one that it is rounded to. -/
lemma RoundsTo.exact_dist_le (other : Fin rankCount) :
    |(n / d : ℚ) - (finite false rank).exact| ≤ |(n / d : ℚ) - (finite false other).exact| := by
  rw [exact_finite_false, exact_finite_false, dist_eq_units, dist_eq_units]
  exact div_le_div_of_nonneg_right (h.dist_le hd other) unitsPerOne_pos.le

/-- Where another number without sign is as near, the quotient is rounded to the even one. -/
lemma RoundsTo.even_of_exact_dist_eq {other : Fin rankCount} (hne : other ≠ rank)
    (heq : |(n / d : ℚ) - (finite false other).exact| =
      |(n / d : ℚ) - (finite false rank).exact|) : significand rank % 2 = 0 := by
  rw [exact_finite_false, exact_finite_false, dist_eq_units, dist_eq_units,
    div_left_inj' unitsPerOne_pos.ne'] at heq
  rw [significand_mod_two]
  exact h.even_of_dist_eq hd (fun hval => hne (Fin.ext hval)) heq

/-- Zero is rounded to zero. -/
lemma RoundsTo.exact_eq_zero (hq : (n / d : ℚ) = 0) : (finite false rank).exact = 0 := by
  have hzero := h.exact_dist_le hd ⟨0, by decide +kernel⟩
  have hunits : unitsOfRank 0 = 0 := by simp [unitsOfRank]
  have hexact : (finite false ⟨0, by decide +kernel⟩).exact = 0 := by
    rw [exact_finite_false, hunits, Nat.cast_zero, zero_div]
  rw [hq, hexact, sub_zero, abs_zero, zero_sub, abs_neg] at hzero
  exact abs_nonpos_iff.mp hzero

/-- What a quotient is rounded to without overflow is nearest to it.

**Proof sketch.** Among the numbers without sign this is `RoundsTo.exact_dist_le` and
`RoundsTo.even_of_exact_dist_eq`. A number with a sign is no nearer than its magnitude, and as near
only if that is zero or if zero is rounded. -/
theorem RoundsTo.isNearest : (finite false rank).IsNearest (n / d) := by
  have hq : (0 : ℚ) ≤ n / d := div_nonneg (Nat.cast_nonneg _) (Nat.cast_nonneg _)
  have hmagnitude : ∀ other : Fin rankCount, 0 ≤ (finite false other).exact := by
    intro other
    rw [exact_finite_false]
    exact div_nonneg (Nat.cast_nonneg _) unitsPerOne_pos.le
  have hsign : ∀ other : Fin rankCount,
      (finite true other).exact = -(finite false other).exact := by
    intro other
    rw [exact_finite_true, exact_finite_false]
  refine ⟨rfl, fun y hy => ?_, fun y hy hne heq => ⟨false, rank, rfl, ?_⟩⟩
  · rcases y with ⟨negative, other⟩ | _ | _
    · cases negative with
      | false => exact h.exact_dist_le hd other
      | true =>
        rw [hsign]
        exact (h.exact_dist_le hd other).trans (dist_le_dist_neg hq (hmagnitude other)).1
    · cases hy
    · cases hy
  · rcases y with ⟨negative, other⟩ | _ | _
    · cases negative with
      | false => exact h.even_of_exact_dist_eq hd (fun hother => hne (by rw [hother])) heq
      | true =>
        rw [hsign] at hne heq
        obtain ⟨hle, hzero⟩ := dist_le_dist_neg hq (hmagnitude other)
        by_cases hother : other = rank
        · subst hother
          have hexact : (finite false other).exact = 0 :=
            (hzero heq).elim (h.exact_eq_zero hd) id
          have hneg : -(finite false other).exact = (finite false other).exact := by
            simp only [hexact, neg_zero]
          exact absurd hneg hne
        · exact h.even_of_exact_dist_eq hd hother
            (le_antisymm (hle.trans_eq heq) (h.exact_dist_le hd other))
    · cases hy
    · cases hy

end Nearest

/-! ## Overflow -/

/-- The midpoint between the last finite magnitude and the next power of two, which is the least
rational that rounds to infinity. -/
def overflowBound : ℚ := 2 ^ 1024 - 2 ^ 970

/-- The midpoint between the last finite magnitude and the next power of two, in units. -/
lemma unitsOfRank_rankCount :
    unitsOfRank (rankCount - 1) + unitsOfRank rankCount = (twoPow 54 - 1) * twoPow 2045 := by
  have hlast : rankCount - 1 = 2045 * binade + (2 * binade - 1) := by decide +kernel
  have hcount : rankCount = 2045 * binade + 2 * binade := by decide +kernel
  have hsteps : 2 * binade - 1 + 2 * binade = twoPow 54 - 1 := by decide +kernel
  have hpos : 0 < binade := twoPow_pos 52
  rw [hlast, unitsOfRank_eq (fun _ => by omega) (by omega), hcount,
    unitsOfRank_eq (fun _ => by omega) le_rfl, ← Nat.add_mul, hsteps]

/-- The midpoint above the last finite magnitude is the bound. -/
lemma overflowBound_eq :
    (unitsOfRank (rankCount - 1) : ℚ) + unitsOfRank rankCount =
      2 * (overflowBound * unitsPerOne) := by
  have hpow : ∀ k, ((twoPow k : ℕ) : ℚ) = 2 ^ k := fun k => by simp [twoPow]
  have hhigh : (2 : ℚ) ^ 2045 = 2 * (2 ^ 970 * 2 ^ 1074) := by
    rw [← pow_add, ← pow_succ']
  have hbound : (2 : ℚ) ^ 1024 = 2 ^ 54 * 2 ^ 970 := by
    rw [← pow_add]
  rw [← Nat.cast_add, unitsOfRank_rankCount, Nat.cast_mul, Nat.cast_sub (twoPow_pos 54),
    overflowBound, unitsPerOne, hpow, hpow, hpow, hhigh, hbound, Nat.cast_one]
  generalize (2 : ℚ) ^ 970 = a
  generalize (2 : ℚ) ^ 1074 = b
  ring

/-- Exactly the quotients from the bound on are rounded to a rank past the finite ones. -/
lemma rankCount_le_nearestRank_iff {n d : ℕ} (hd : 0 < d) :
    rankCount ≤ nearestRank (n * unitsPerOne) d ↔ overflowBound ≤ n / d := by
  have hone := unitsPerOne_pos
  obtain ⟨⟨hlow, hhigh⟩, hodd⟩ := (roundsTo_nearestRank (n * unitsPerOne) hd).bounds_div hd
  generalize nearestRank (n * unitsPerOne) d = rank at *
  have hbound := overflowBound_eq
  have hscaled : ((n * unitsPerOne : ℕ) / d : ℚ) = n / d * unitsPerOne := by
    push_cast
    ring
  rw [hscaled] at hlow hhigh hodd
  rw [← mul_le_mul_iff_left₀ hone]
  constructor
  · intro hrank
    have hpred : (unitsOfRank (rankCount - 1) : ℚ) ≤ unitsOfRank (rank - 1) :=
      Nat.cast_le.mpr (unitsOfRank_strictMono.monotone (by omega))
    have hself : (unitsOfRank rankCount : ℚ) ≤ unitsOfRank rank :=
      Nat.cast_le.mpr (unitsOfRank_strictMono.monotone hrank)
    linarith
  · intro hq
    by_contra hrank
    rcases Nat.lt_or_ge rank (rankCount - 1) with hlt | hge
    · obtain ⟨hnext, hself⟩ := unitsOfRank_succ_le hlt
      obtain ⟨-, hlast⟩ := unitsOfRank_succ_le (show rankCount - 1 < rankCount by decide +kernel)
      linarith
    · obtain rfl : rank = rankCount - 1 := by omega
      obtain ⟨-, hstrict⟩ := hodd (by decide +kernel)
      rw [show rankCount - 1 + 1 = rankCount by decide +kernel] at hstrict
      linarith

/-- **A quotient rounds to the nearest number, unless it is from the bound on.** -/
theorem nearest_spec (n : ℕ) {d : ℕ} (hd : 0 < d) :
    (overflowBound ≤ n / d ∧ nearest false n d = infinite false) ∨
      ((n / d : ℚ) < overflowBound ∧ ∃ rank : Fin rankCount,
        nearest false n d = finite false rank ∧ (finite false rank).IsNearest (n / d)) := by
  have hbound := rankCount_le_nearestRank_iff (n := n) hd
  rcases Nat.lt_or_ge (nearestRank (n * unitsPerOne) d) rankCount with hlt | hge
  · refine .inr ⟨lt_of_not_ge (mt hbound.mpr (Nat.not_le_of_lt hlt)), ⟨_, hlt⟩, ?_,
      RoundsTo.isNearest hd (roundsTo_nearestRank _ hd)⟩
    rw [nearest, ofRank, dif_pos hlt]
  · refine .inl ⟨hbound.mp hge, ?_⟩
    rw [nearest, ofRank, dif_neg (Nat.not_lt_of_le hge)]

end Binary64

end SumProduct
