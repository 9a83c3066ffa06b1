import SumProduct.Proofs.Binary64.Trimmed
import SumProduct.Proofs.Expr.Numeral

/-!
# What a written number is read back as

A decimal with its point in place is a numeral. If the decimal identifies a number, the numeral is
read as that number, wherever the point has come to stand and however many zeros have been needed
for it. The plain form of a number is made in this way of its shortest decimal. It has a fraction
exactly if the number is not whole, and the fraction has no trailing zero.

## Main results

* `SumProduct.Decimal.IsNumeral.fraction_eq_nil_iff` — when a decimal is written without a point.
* `SumProduct.Expr.parse_positionalText` — every decimal that identifies a number is read as it.
* `SumProduct.Expr.parse_plainText` — reading the plain form of a number.
-/

namespace SumProduct

open Binary64

namespace Decimal

variable {d : Decimal} {n : Numeral}

/-- The fraction of a numeral has a digit for each place behind the point. -/
lemma IsNumeral.length_fraction (h : d.IsNumeral n) :
    n.fraction.length = (-d.exponent).toNat :=
  Nat.pow_right_injective (show 2 ≤ 10 by decide) h.denominator

/-- A decimal without places behind the point is written without a point. -/
lemma IsNumeral.fraction_eq_nil_iff (h : d.IsNumeral n) : n.fraction = [] ↔ 0 ≤ d.exponent := by
  rw [← List.length_eq_zero_iff, h.length_fraction]
  omega

/-- A fraction ends in a zero only if the coefficient does. -/
lemma IsNumeral.getLast?_fraction_ne (h : d.IsNumeral n)
    (hlast : d.exponent < 0 → d.coefficient % 10 ≠ 0) :
    ∀ c ∈ n.fraction.getLast?, c ≠ '0' := by
  rintro c hc rfl
  obtain ⟨front, hfraction⟩ := List.getLast?_eq_some_iff.mp hc
  have hneg : d.exponent < 0 := by
    by_contra hpos
    rw [h.fraction_eq_nil_iff.mpr (by omega)] at hc
    cases hc
  have hzero : digitsValue ['0'] = 0 := by decide
  have hvalue := h.numerator
  rw [hfraction, ← List.append_assoc, digitsValue_append, hzero, numerator_eq_coefficient hneg,
    List.length_singleton, tenPow_succ, tenPow_zero] at hvalue
  have hmod := hlast hneg
  omega

/-- The numeral of a decimal that reads back as a number stands for this number. -/
lemma IsNumeral.finiteValue? (h : d.IsNumeral n) {rank : Fin rankCount} (hd : ReadsBack rank d) :
    n.finiteValue? = some (finite false rank) := by
  have hvalue : n.value = finite false rank := by
    rw [Numeral.value, h.numerator, h.denominator, nearest_of_readsBack hd]
  exact Numeral.finiteValue?_eq_some.mpr ⟨by rw [hvalue]; rfl, hvalue⟩

end Decimal

namespace Expr

/-- A decimal that reads back as a number is read as the constant of this number when it is written
with its point in place. -/
theorem parse_positionalText {rank : Fin rankCount} {d : Decimal} (h : ReadsBack rank d)
    (limit : NestingLimit) :
    Expr.parse (String.ofList (NumberStyle.plain.positionalText d)) limit =
      .ok (.constant (finite false rank)) := by
  obtain ⟨n, hn⟩ := d.exists_numeral
  rw [hn.chars, ← Numeral.text]
  exact parse_text_of_some (hn.finiteValue? h) limit

/-- The exact value of a number is a natural exactly if its magnitude is a whole number of ones. -/
lemma exists_exact_eq_natCast_iff (rank : Fin rankCount) :
    (∃ k : ℕ, (finite false rank).exact = k) ↔ unitsPerOne ∣ unitsOfRank rank := by
  rw [exact_finite_false]
  constructor
  · rintro ⟨k, hk⟩
    rw [div_eq_iff unitsPerOne_pos.ne'] at hk
    exact ⟨k, by rw [Nat.mul_comm]; exact_mod_cast hk⟩
  · rintro ⟨k, hk⟩
    refine ⟨k, ?_⟩
    rw [div_eq_iff unitsPerOne_pos.ne', hk, Nat.cast_mul, mul_comm]

/-- **What a written number is read back as.** The plain form of a finite number without sign is a
numeral, without a trailing zero in its fraction, and without a fraction exactly if the number is
whole. It is one token, and with every nesting limit it is read as the constant of the number. The
latter is also true of every other decimal that identifies the number.

**Proof sketch.** The shortest decimal is trimmed, and it is whole if the number is. Writing it with
its point in place keeps the numerator and the denominator, so that the numeral stands for what is
nearest to the decimal. -/
theorem parse_plainText (rank : Fin rankCount) :
    (∃ n : Numeral, (finite false rank).plainText = n.text ∧
      (∀ c ∈ n.fraction.getLast?, c ≠ '0') ∧
      (n.fraction = [] ↔ ∃ k : ℕ, (finite false rank).exact = k) ∧
      Token.scan (finite false rank).plainText =
        .ok [⟨.number n, 0⟩, ⟨.endOfInput, (finite false rank).plainText.length⟩]) ∧
    (∀ limit, Expr.parse (finite false rank).plainText limit =
      .ok (.constant (finite false rank))) ∧
    ∀ d : Decimal, ReadsBack rank d → ∀ limit,
      Expr.parse (String.ofList (NumberStyle.plain.positionalText d)) limit =
        .ok (.constant (finite false rank)) := by
  obtain ⟨n, hn⟩ := (shortest rank).exists_numeral
  have htext : (finite false rank).plainText = n.text := by
    rw [← String.toList_inj, toList_plainText, hn.chars, Numeral.text, String.toList_ofList]
  have hlength : n.text.length = n.chars.length := String.length_ofList
  have hwhole : n.fraction = [] ↔ ∃ k : ℕ, (finite false rank).exact = k := by
    rw [hn.fraction_eq_nil_iff, exponent_shortest_nonneg_iff, exists_exact_eq_natCast_iff]
  have hlast : (shortest rank).exponent < 0 → (shortest rank).coefficient % 10 ≠ 0 := by
    intro hneg
    refine shortest_coefficient_mod_ten (Nat.pos_of_ne_zero fun hzero => ?_)
    rw [hzero] at hneg
    exact absurd hneg (by decide)
  refine ⟨⟨n, htext, hn.getLast?_fraction_ne hlast, hwhole, ?_⟩, fun limit => ?_,
    fun d hd limit => parse_positionalText hd limit⟩
  · rw [htext, hlength]
    exact Token.scan_text n
  · rw [htext]
    exact parse_text_of_some (hn.finiteValue? (readsBack_shortest rank)) limit

/-- The least positive number is written with a fraction, and `3e-324` identifies it as well. -/
theorem parse_plainText_least :
    let least : Fin rankCount := ⟨1, by decide +kernel⟩
    let three : Decimal := ⟨3, -324⟩
    (∃ n : Numeral, (finite false least).plainText = n.text ∧ n.fraction ≠ []) ∧
      ReadsBack least three ∧ shortest least ≠ three ∧ ∀ limit,
        Expr.parse (finite false least).plainText limit = .ok (.constant (finite false least)) ∧
          Expr.parse (String.ofList (NumberStyle.plain.positionalText three)) limit =
            .ok (.constant (finite false least)) := by
  intro least three
  obtain ⟨⟨n, htext, -, hwhole, -⟩, hread, hother⟩ := parse_plainText least
  have hfraction : n.fraction ≠ [] := by
    rw [Ne, hwhole, exists_exact_eq_natCast_iff]
    decide +kernel
  have hthree : ReadsBack least three := by decide +kernel
  exact ⟨⟨n, htext, hfraction⟩, hthree, by decide +kernel,
    fun limit => ⟨hread limit, hother three hthree limit⟩⟩

end Expr

end SumProduct
