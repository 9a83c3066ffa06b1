import SumProduct.Binary64.Text
import SumProduct.Numeral
import SumProduct.Proofs.Binary64.Shortest

/-!
# Written numbers are numerals

The plain form of a finite number without sign is a numeral, and the numeral stands for the same
number. The point in a run of digits changes neither the digits nor their number, so the numerator
and the denominator of the numeral are those of the decimal that was written.

## Main definitions

* `SumProduct.Decimal.IsNumeral` — a numeral with the text and the value of a decimal.

## Main results

* `SumProduct.Decimal.exists_numeral` — a decimal with its point in place is a numeral.
* `SumProduct.Binary64.exists_numeral` — the plain form of a number is a numeral of that number.
-/

namespace SumProduct

/-! ## Digits -/

/-- The value of digits in terms of the digits of a base. -/
lemma digitsValue_eq (digits : List Char) : digitsValue digits = Nat.ofDigitChars 10 digits 0 := by
  rw [Nat.ofDigitChars_eq_foldl]
  rfl

/-- The digits of a whole number denote it. -/
lemma digitsValue_decimalDigits (n : Nat) : digitsValue (decimalDigits n) = n := by
  rw [digitsValue_eq, decimalDigits, Nat.ofDigitChars_ten_toDigits]

/-- Zeros behind digits multiply by a power of ten. -/
lemma digitsValue_append_zeros (digits : List Char) (n : Nat) :
    digitsValue (digits ++ NumberStyle.zeros n) = digitsValue digits * tenPow n := by
  rw [digitsValue_eq, digitsValue_eq, Nat.ofDigitChars_append, NumberStyle.zeros,
    Nat.ofDigitChars_replicate_zero, Nat.mul_comm]
  rfl

/-- Zeros in front of digits change nothing. -/
lemma digitsValue_zeros_append (n : Nat) (digits : List Char) :
    digitsValue (NumberStyle.zeros n ++ digits) = digitsValue digits := by
  rw [digitsValue_eq, digitsValue_eq, Nat.ofDigitChars_append, NumberStyle.zeros,
    Nat.ofDigitChars_replicate_zero, Nat.mul_zero]

/-- The digits of a whole number are digits. -/
lemma all_isDigit_decimalDigits (n : Nat) : (decimalDigits n).all isDigit = true := by
  refine List.all_eq_true.mpr fun c hc => ?_
  have hdigit := Nat.isDigit_of_mem_toDigits (by decide) (by decide) hc
  simpa [Char.isDigit, isDigit, UInt32.le_iff_toNat_le] using hdigit

/-- Zeros are digits. -/
lemma all_isDigit_zeros (n : Nat) : (NumberStyle.zeros n).all isDigit = true :=
  List.all_eq_true.mpr fun c hc => by rw [List.eq_of_mem_replicate hc]; decide

/-! ## Numerals -/

/-- A numeral is a decimal with its point in place: the text and the value are the same. -/
structure Decimal.IsNumeral (d : Decimal) (n : Numeral) : Prop where
  /-- The decimal is written with the characters of the numeral. -/
  chars : NumberStyle.plain.positionalText d = n.chars
  /-- The digits of the numeral are the numerator. -/
  numerator : digitsValue (n.whole ++ n.fraction) = d.numerator
  /-- The digits behind the point are the denominator. -/
  denominator : tenPow n.fraction.length = d.denominator

/-- Digits with further zeros behind them are a numeral. -/
lemma Decimal.exists_numeral_whole (d : Decimal) (h : 0 ≤ d.exponent) :
    ∃ n, d.IsNumeral n := by
  let n : Numeral :=
    { whole := decimalDigits d.coefficient ++ NumberStyle.zeros d.exponent.toNat
      fraction := []
      whole_ne_nil := by simp [decimalDigits]
      whole_digits := by
        rw [List.all_append, all_isDigit_decimalDigits, all_isDigit_zeros]
        rfl
      fraction_digits := rfl }
  refine ⟨n, ?_, ?_, ?_⟩
  · simp [NumberStyle.positionalText, NumberStyle.plain, h, n, Numeral.chars]
  · rw [List.append_nil, digitsValue_append_zeros, digitsValue_decimalDigits, numerator]
  · rw [denominator, show (-d.exponent).toNat = 0 by omega]
    rfl

/-- Digits with the point among them are a numeral. -/
lemma Decimal.exists_numeral_split (d : Decimal) (h : d.exponent < 0)
    (hwhole : 0 < ((decimalDigits d.coefficient).length : Int) + d.exponent) :
    ∃ n, d.IsNumeral n := by
  have hdigits := List.all_eq_true.mp (all_isDigit_decimalDigits d.coefficient)
  let point := (((decimalDigits d.coefficient).length : Int) + d.exponent).toNat
  have hpoint : 0 < point ∧ point < (decimalDigits d.coefficient).length := by omega
  let n : Numeral :=
    { whole := (decimalDigits d.coefficient).take point
      fraction := (decimalDigits d.coefficient).drop point
      whole_ne_nil := List.ne_nil_of_length_pos (by rw [List.length_take]; omega)
      whole_digits := List.all_eq_true.mpr fun c hc => hdigits c (List.mem_of_mem_take hc)
      fraction_digits := List.all_eq_true.mpr fun c hc => hdigits c (List.mem_of_mem_drop hc) }
  refine ⟨n, ?_, ?_, ?_⟩
  · have hfraction : (decimalDigits d.coefficient).drop point ≠ [] :=
      List.ne_nil_of_length_pos (by rw [List.length_drop]; omega)
    rw [Numeral.chars, if_neg hfraction, NumberStyle.positionalText, if_neg (by omega),
      if_pos hwhole]
  · rw [List.take_append_drop, digitsValue_decimalDigits, numerator,
      show d.exponent.toNat = 0 by omega, tenPow_zero, Nat.mul_one]
  · rw [denominator, List.length_drop]
    congr 1
    omega

/-- Digits with the point in front of them, and zeros between, are a numeral. -/
lemma Decimal.exists_numeral_fraction (d : Decimal)
    (h : ((decimalDigits d.coefficient).length : Int) + d.exponent ≤ 0) :
    ∃ n, d.IsNumeral n := by
  have hlength : 0 < (decimalDigits d.coefficient).length := Nat.length_toDigits_pos
  let gap := (-(((decimalDigits d.coefficient).length : Int) + d.exponent)).toNat
  let n : Numeral :=
    { whole := NumberStyle.zeros 1
      fraction := NumberStyle.zeros gap ++ decimalDigits d.coefficient
      whole_ne_nil := by simp [NumberStyle.zeros]
      whole_digits := all_isDigit_zeros 1
      fraction_digits := by
        rw [List.all_append, all_isDigit_decimalDigits, all_isDigit_zeros]
        rfl }
  refine ⟨n, ?_, ?_, ?_⟩
  · have hfraction : NumberStyle.zeros gap ++ decimalDigits d.coefficient ≠ [] :=
      List.append_ne_nil_of_right_ne_nil _ (List.ne_nil_of_length_pos hlength)
    rw [Numeral.chars, if_neg hfraction, NumberStyle.positionalText, if_neg (by omega),
      if_neg (by omega)]
    rfl
  · rw [digitsValue_zeros_append, digitsValue_zeros_append, digitsValue_decimalDigits, numerator,
      show d.exponent.toNat = 0 by omega, tenPow_zero, Nat.mul_one]
  · rw [denominator, List.length_append, NumberStyle.zeros, List.length_replicate]
    congr 1
    omega

/-- **A decimal with its point in place is a numeral.** -/
theorem Decimal.exists_numeral (d : Decimal) : ∃ n, d.IsNumeral n := by
  rcases lt_or_ge d.exponent 0 with hneg | hpos
  · rcases lt_or_ge 0 (((decimalDigits d.coefficient).length : Int) + d.exponent) with hsplit | hgap
    · exact d.exists_numeral_split hneg hsplit
    · exact d.exists_numeral_fraction hgap
  · exact d.exists_numeral_whole hpos

/-- The plain form of a finite number without sign is its shortest decimal with the point in place.
-/
lemma Binary64.toList_plainText (rank : Fin rankCount) :
    (finite false rank).plainText.toList = NumberStyle.plain.positionalText (shortest rank) := by
  simp [plainText, NumberStyle.text, NumberStyle.signText, NumberStyle.decimalText,
    NumberStyle.plain]

/-- **The plain form of a finite number without sign is a numeral of that number.** -/
theorem Binary64.exists_numeral (rank : Fin rankCount) :
    ∃ n : Numeral, (finite false rank).plainText.toList = n.chars ∧
      n.value = finite false rank := by
  obtain ⟨n, hn⟩ := (shortest rank).exists_numeral
  refine ⟨n, ?_, ?_⟩
  · rw [toList_plainText, hn.chars]
  · rw [Numeral.value, hn.numerator, hn.denominator, nearest_shortest]

end SumProduct
