import SumProduct.Proofs.Binary64.Nearest
import SumProduct.Proofs.Binary64.Written
import SumProduct.Proofs.Parser.Acceptance

/-!
# What a numeral is read as

A numeral of any length has an exact value, a rational. A text that consists of a numeral is read as
the constant nearest to this value, or it is out of range: which of the two depends on the value
alone, and the bound is the midpoint above the greatest finite number.

## Main definitions

* `SumProduct.Numeral.toRat` — the exact value of a numeral.
* `SumProduct.Numeral.pad` — the numeral with further zeros on both sides.

## Main results

* `SumProduct.Numeral.finiteValue?_spec` — a numeral stands for the number nearest to its value.
* `SumProduct.Token.scan_text` — a numeral is one token.
* `SumProduct.Expr.parse_numeral` — reading a numeral.
-/

namespace SumProduct

open Binary64

/-! ## The exact value -/

/-- Powers of ten as rationals. -/
lemma cast_tenPow (k : ℕ) : (tenPow k : ℚ) = 10 ^ k := Nat.cast_pow 10 k

/-- The value of digits that follow others: these move up by as many places. -/
lemma digitsValue_append (front back : List Char) :
    digitsValue (front ++ back) = digitsValue front * tenPow back.length + digitsValue back := by
  simp only [digitsValue_eq]
  rw [Nat.ofDigitChars_append, Nat.ofDigitChars_eq_ofDigitChars_zero, Nat.mul_comm]
  rfl

namespace Numeral

/-- The exact value of a numeral: that of the digits before the point, and that of the digits after
it, scaled down by their number. -/
def toRat (n : Numeral) : ℚ := digitsValue n.whole + digitsValue n.fraction / 10 ^ n.fraction.length

/-- The numeral as a text. -/
def text (n : Numeral) : String := String.ofList n.chars

/-- The same numeral with zeros in front of it and behind its fraction. -/
def pad (leading trailing : ℕ) (n : Numeral) : Numeral where
  whole := NumberStyle.zeros leading ++ n.whole
  fraction := n.fraction ++ NumberStyle.zeros trailing
  whole_ne_nil := List.append_ne_nil_of_right_ne_nil _ n.whole_ne_nil
  whole_digits := by
    rw [List.all_append, all_isDigit_zeros, n.whole_digits]
    rfl
  fraction_digits := by
    rw [List.all_append, all_isDigit_zeros, n.fraction_digits]
    rfl

/-- Zeros in front of a numeral and behind its fraction leave its value as it is. -/
lemma toRat_pad (leading trailing : ℕ) (n : Numeral) :
    (n.pad leading trailing).toRat = n.toRat := by
  have hpow : (10 : ℚ) ^ trailing ≠ 0 := pow_ne_zero _ (by norm_num)
  unfold toRat pad
  rw [digitsValue_zeros_append, digitsValue_append_zeros, List.length_append, Nat.cast_mul,
    cast_tenPow, pow_add, NumberStyle.zeros, List.length_replicate, mul_div_mul_right _ _ hpow]

/-- The value of a numeral as a quotient of whole numbers. -/
lemma toRat_eq_div (n : Numeral) :
    n.toRat = (digitsValue (n.whole ++ n.fraction) : ℚ) / tenPow n.fraction.length := by
  have hpow : (10 : ℚ) ^ n.fraction.length ≠ 0 := pow_ne_zero _ (by norm_num)
  rw [digitsValue_append, Nat.cast_add, Nat.cast_mul, cast_tenPow, add_div,
    mul_div_cancel_right₀ _ hpow, toRat]

/-! ## The nearest number -/

/-- The rank that the value of a numeral is rounded to. -/
def rank (n : Numeral) : ℕ :=
  nearestRank (digitsValue (n.whole ++ n.fraction) * unitsPerOne) (tenPow n.fraction.length)

/-- A numeral stands for the number of its rank, if that is finite. -/
lemma finiteValue?_eq (n : Numeral) :
    n.finiteValue? = if h : n.rank < rankCount then some (finite false ⟨n.rank, h⟩) else none := by
  have hvalue : n.value = ofRank false n.rank := rfl
  unfold finiteValue?
  rw [hvalue, ofRank]
  split_ifs <;> rfl

/-- A greater value is not rounded to a lower rank. -/
lemma rank_mono {m n : Numeral} (h : m.toRat ≤ n.toRat) : m.rank ≤ n.rank := by
  have hm : 0 < tenPow m.fraction.length := tenPow_pos _
  have hn : 0 < tenPow n.fraction.length := tenPow_pos _
  rw [toRat_eq_div, toRat_eq_div] at h
  refine nearestRank_mono hm hn ?_
  rw [Nat.cast_mul, Nat.cast_mul, mul_div_right_comm, mul_div_right_comm]
  exact mul_le_mul_of_nonneg_right h unitsPerOne_pos.le

/-- What a numeral stands for depends on its value alone. -/
lemma finiteValue?_congr {m n : Numeral} (h : m.toRat = n.toRat) :
    m.finiteValue? = n.finiteValue? := by
  have hrank : m.rank = n.rank := le_antisymm (rank_mono h.le) (rank_mono h.ge)
  simp only [finiteValue?_eq, hrank]

/-- A numeral of lower value than one in range is in range, and stands for no greater number. -/
lemma finiteValue?_mono {m n : Numeral} (h : m.toRat ≤ n.toRat) {y : Binary64}
    (hy : n.finiteValue? = some y) : ∃ x, m.finiteValue? = some x ∧ x.exact ≤ y.exact := by
  have hle := rank_mono h
  rw [finiteValue?_eq] at hy
  split_ifs at hy with hn
  cases hy
  have hm : m.rank < rankCount := hle.trans_lt hn
  refine ⟨finite false ⟨m.rank, hm⟩, by rw [finiteValue?_eq, dif_pos hm], ?_⟩
  rw [exact_finite_false, exact_finite_false]
  exact div_le_div_of_nonneg_right (Nat.cast_le.mpr (unitsOfRank_strictMono.monotone hle))
    unitsPerOne_pos.le

/-- **A numeral stands for the number nearest to its value, or it is out of range.** -/
theorem finiteValue?_spec (n : Numeral) :
    (overflowBound ≤ n.toRat ∧ n.finiteValue? = none) ∨
      (n.toRat < overflowBound ∧ ∃ rank : Fin rankCount,
        n.finiteValue? = some (finite false rank) ∧ (finite false rank).IsNearest n.toRat) := by
  have hspec := nearest_spec (digitsValue (n.whole ++ n.fraction)) (tenPow_pos n.fraction.length)
  rw [← toRat_eq_div, ← value] at hspec
  rcases hspec with ⟨hbound, hvalue⟩ | ⟨hbound, rank, hvalue, hnearest⟩
  · refine .inl ⟨hbound, ?_⟩
    rw [finiteValue?, hvalue]
    rfl
  · refine .inr ⟨hbound, rank, ?_, hnearest⟩
    rw [finiteValue?, hvalue]
    rfl

end Numeral

/-! ## Reading -/

/-- The characters of a numeral are one token. -/
lemma Token.scan_text (n : Numeral) :
    scan n.text = .ok [⟨.number n, 0⟩, ⟨.endOfInput, n.chars.length⟩] := by
  have hcut : Cut 0 (Lexeme.chars (.number n) ++ [])
      [⟨.number n, 0⟩, ⟨.endOfInput, n.chars.length⟩] := by
    refine .lexeme nofun (fun _ => rfl) ?_
    rw [Nat.zero_add]
    exact .done _
  rw [List.append_nil] at hcut
  rw [scan, Numeral.text, String.toList_ofList]
  exact hcut.scanFrom_eq

namespace Expr

variable {n : Numeral}

/-- Reading a numeral is reading an expression from its token. -/
lemma parse_text (n : Numeral) (limit : NestingLimit) :
    Expr.parse n.text limit = (Production.expression.outcome limit.settings 0
      [⟨.number n, 0⟩, ⟨.endOfInput, n.chars.length⟩]).finish := by
  have hscan := Token.scan_text n
  have hphrase : Phrase some .factor [.number n] (.constant n) := .number rfl
  exact parse_of_scan (isBlankText_eq_false hscan rfl hphrase) hscan

/-- A numeral in range is read as its number. -/
lemma parse_text_of_some {x : Binary64} (h : n.finiteValue? = some x) (limit : NestingLimit) :
    Expr.parse n.text limit = .ok (.constant x) := by
  rw [← limit.constant?_settings] at h
  rw [parse_text, Production.expression, Production.term, Production.outcome_chain,
    Production.outcome_chain, Production.outcome_number rfl h, Outcome.andThen,
    Production.chainOutcome_stop _ _ _ (by simp), Outcome.andThen,
    Production.chainOutcome_stop _ _ _ (by simp)]
  rfl

/-- A numeral out of range is refused. -/
lemma parse_text_of_none (h : n.finiteValue? = none) (limit : NestingLimit) :
    Expr.parse n.text limit = .error (.error ⟨.outOfRange n.text, 0⟩) := by
  rw [← limit.constant?_settings] at h
  rw [parse_text, Production.expression, Production.term, Production.outcome_chain,
    Production.outcome_chain, Production.outcome_outOfRange rfl h]
  rfl

/-- A numeral is read as an expression exactly if it is in range, and then as its number. -/
lemma parse_text_eq_ok_iff {e : Expr Binary64} {limit : NestingLimit} :
    Expr.parse n.text limit = .ok e ↔ ∃ x, n.finiteValue? = some x ∧ e = .constant x := by
  cases h : n.finiteValue? with
  | none => simp [parse_text_of_none h]
  | some x => simp [parse_text_of_some h, eq_comm]

/-- A numeral is refused exactly if its value is from the bound on. -/
lemma parse_text_eq_outOfRange_iff {limit : NestingLimit} :
    Expr.parse n.text limit = .error (.error ⟨.outOfRange n.text, 0⟩) ↔
      overflowBound ≤ n.toRat := by
  rcases n.finiteValue?_spec with ⟨hbound, hnone⟩ | ⟨hbound, rank, hsome, -⟩
  · simp [parse_text_of_none hnone, hbound]
  · simp [parse_text_of_some hsome, hbound]

/-- Wherever a numeral stands among tokens, it is read as it is read alone. -/
lemma factor_outcome_numeral (n : Numeral) (limit : NestingLimit) (nesting position : ℕ)
    (rest : List Token) :
    (∀ e, Expr.parse n.text limit = .ok e →
        Production.factor.outcome limit.settings nesting (⟨.number n, position⟩ :: rest) =
          .done e rest) ∧
      (overflowBound ≤ n.toRat →
        Production.factor.outcome limit.settings nesting (⟨.number n, position⟩ :: rest) =
          .failed (.error ⟨.outOfRange n.text, position⟩) rest nesting) := by
  rcases n.finiteValue?_spec with ⟨hbound, hnone⟩ | ⟨hbound, rank, hsome, -⟩
  · refine ⟨fun e he => ?_, fun _ => ?_⟩
    · rw [parse_text_of_none hnone] at he
      cases he
    · rw [← limit.constant?_settings] at hnone
      exact Production.outcome_outOfRange rfl hnone rest
  · refine ⟨fun e he => ?_, fun h => absurd h (not_le_of_gt hbound)⟩
    rw [parse_text_of_some hsome] at he
    cases he
    rw [← limit.constant?_settings] at hsome
    exact Production.outcome_number rfl hsome rest

/-- **What a numeral is read as.** A numeral of any length is out of range exactly if its exact
value is at least `2 ^ 1024 - 2 ^ 970`. Otherwise it is read as the constant nearest to this value,
of two that are as near as the even one, and always as one with a clear sign bit. The same happens
wherever a numeral stands among tokens. So what is read depends on the exact value alone, further
zeros on either side change nothing, and of a lower value it is no greater constant.

**Proof sketch.** All of this is known of the number that a numeral stands for: the value lies
between the midpoints around the rank of the number, and the ranks follow the values. Reading a
single token goes through the two chains of the grammar without finding an operator. -/
theorem parse_numeral (n : Numeral) (limit : NestingLimit) :
    (Expr.parse n.text limit = .error (.error ⟨.outOfRange n.text, 0⟩) ↔
        overflowBound ≤ n.toRat) ∧
      (n.toRat < overflowBound → ∃ rank,
        Expr.parse n.text limit = .ok (.constant (finite false rank)) ∧
          (finite false rank).IsNearest n.toRat) ∧
      (∀ nesting position rest,
        (∀ e, Expr.parse n.text limit = .ok e →
            Production.factor.outcome limit.settings nesting (⟨.number n, position⟩ :: rest) =
              .done e rest) ∧
          (overflowBound ≤ n.toRat →
            Production.factor.outcome limit.settings nesting (⟨.number n, position⟩ :: rest) =
              .failed (.error ⟨.outOfRange n.text, position⟩) rest nesting)) ∧
      (∀ m : Numeral, m.toRat = n.toRat →
        ∀ e, Expr.parse m.text limit = .ok e ↔ Expr.parse n.text limit = .ok e) ∧
      (∀ leading trailing e, Expr.parse (n.pad leading trailing).text limit = .ok e ↔
        Expr.parse n.text limit = .ok e) ∧
      ∀ m : Numeral, m.toRat ≤ n.toRat → ∀ y, Expr.parse n.text limit = .ok (.constant y) →
        ∃ x, Expr.parse m.text limit = .ok (.constant x) ∧ x.exact ≤ y.exact := by
  have hcongr : ∀ m : Numeral, m.toRat = n.toRat →
      ∀ e, Expr.parse m.text limit = .ok e ↔ Expr.parse n.text limit = .ok e := by
    intro m h e
    rw [parse_text_eq_ok_iff, parse_text_eq_ok_iff, Numeral.finiteValue?_congr h]
  refine ⟨parse_text_eq_outOfRange_iff, fun h => ?_, factor_outcome_numeral n limit, hcongr,
    fun leading trailing => hcongr _ (Numeral.toRat_pad leading trailing n), fun m h y hy => ?_⟩
  · rcases n.finiteValue?_spec with ⟨hbound, -⟩ | ⟨-, rank, hsome, hnearest⟩
    · exact absurd h (not_lt_of_ge hbound)
    · exact ⟨rank, parse_text_of_some hsome limit, hnearest⟩
  · obtain ⟨_, hsome, heq⟩ := parse_text_eq_ok_iff.mp hy
    cases heq
    obtain ⟨x, hx, hle⟩ := Numeral.finiteValue?_mono h hsome
    exact ⟨x, parse_text_of_some hx limit, hle⟩

/-- The bound itself is out of range, and the whole number below it, with a nine behind the point,
is read as the nearest constant. -/
theorem parse_numeral_overflowBound :
    let bound : ℕ := twoPow 1024 - twoPow 970
    let atBound : Numeral := ⟨decimalDigits bound, [], by simp [decimalDigits],
      all_isDigit_decimalDigits _, rfl⟩
    let belowBound : Numeral := ⟨decimalDigits (bound - 1), ['9'], by simp [decimalDigits],
      all_isDigit_decimalDigits _, by decide⟩
    atBound.toRat = overflowBound ∧ belowBound.toRat < overflowBound ∧ ∀ limit,
      Expr.parse atBound.text limit = .error (.error ⟨.outOfRange atBound.text, 0⟩) ∧
        ∃ rank, Expr.parse belowBound.text limit = .ok (.constant (finite false rank)) ∧
          (finite false rank).IsNearest belowBound.toRat := by
  intro bound atBound belowBound
  have hpow : ∀ k, ((twoPow k : ℕ) : ℚ) = 2 ^ k := fun k => Nat.cast_pow 2 k
  have hle : twoPow 970 < twoPow 1024 := by decide +kernel
  have hbound : (bound : ℚ) = overflowBound := by
    rw [Nat.cast_sub hle.le, hpow, hpow, overflowBound]
  have hpred : ((bound - 1 : ℕ) : ℚ) = overflowBound - 1 := by
    rw [Nat.cast_sub (Nat.sub_pos_of_lt hle), hbound, Nat.cast_one]
  have hat : atBound.toRat = overflowBound := by
    have hfraction : digitsValue ([] : List Char) = 0 := rfl
    rw [Numeral.toRat, digitsValue_decimalDigits, hbound, hfraction, Nat.cast_zero, zero_div,
      add_zero]
  have hbelowBound : belowBound.toRat < overflowBound := by
    have hfraction : digitsValue ['9'] = 9 := by decide
    simp only [Numeral.toRat, belowBound, digitsValue_decimalDigits, hpred, hfraction]
    norm_num
    linarith
  refine ⟨hat, hbelowBound, fun limit => ?_⟩
  obtain ⟨hrefused, -⟩ := parse_numeral atBound limit
  obtain ⟨-, hread, -⟩ := parse_numeral belowBound limit
  exact ⟨hrefused.mpr hat.ge, hread hbelowBound⟩

end Expr

end SumProduct
