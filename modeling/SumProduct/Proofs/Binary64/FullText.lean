import SumProduct.Proofs.Expr.ConstantText
import SumProduct.Proofs.Expr.Equality

/-!
# The full form identifies a number

The full form of a number is a sign and the shortest decimal of its magnitude, with the point in
place or with an exponent, or a word for what has no digits. All of this can be told from the text:
an exponent has a mark of its own, and the zero that marks a whole number cannot be mistaken for a
fraction, because no fraction ends in a zero.

## Main definitions

* `SumProduct.Binary64.magnitudeText` — the full form without the sign.

## Main results

* `SumProduct.NumberStyle.scientificText_injective` — a decimal is known from its form with an
  exponent.
* `SumProduct.Binary64.positionalText_shortest_inj` — a magnitude is known from its shortest decimal
  with the point in place.
* `SumProduct.Binary64.fullText_injective` — a number is known from its full form.
* `SumProduct.Binary64.notMem_fullText` — the characters of full forms.
-/

namespace SumProduct

/-- What stands up to the first mark in a text, and what stands behind it. -/
lemma eq_of_append_mark_eq {mark : Char} {a b s t : List Char} (ha : mark ∉ a) (hb : mark ∉ b)
    (h : a ++ mark :: s = b ++ mark :: t) : a = b ∧ s = t := by
  induction a generalizing b with
  | nil =>
    cases b with
    | nil => exact ⟨rfl, (List.cons.inj h).2⟩
    | cons c b => exact absurd ((List.cons.inj h).1 ▸ List.mem_cons_self) hb
  | cons c a ih =>
    cases b with
    | nil => exact absurd ((List.cons.inj h).1 ▸ List.mem_cons_self) ha
    | cons c' b =>
      obtain ⟨rfl, htail⟩ := List.cons.inj h
      obtain ⟨rfl, hst⟩ :=
        ih (List.not_mem_of_not_mem_cons ha) (List.not_mem_of_not_mem_cons hb) htail
      exact ⟨rfl, hst⟩

/-- A character that is no digit occurs in no digits. -/
lemma notMem_of_all_isDigit {c : Char} {digits : List Char} (h : digits.all isDigit = true)
    (hc : isDigit c = false) : c ∉ digits := by
  intro hmem
  exact absurd ((List.all_eq_true.mp h c hmem).symm.trans hc) (by decide)

namespace NumberStyle

/-! ## With an exponent -/

/-- One digit of a decimal and the fraction behind it. -/
def significandText (d : Decimal) : List Char :=
  (decimalDigits d.coefficient).take 1 ++
    if (decimalDigits d.coefficient).length ≤ 1 then []
    else '.' :: (decimalDigits d.coefficient).drop 1

/-- Without the point these are the digits of the decimal. -/
lemma filter_significandText (d : Decimal) :
    (significandText d).filter (· ≠ '.') = decimalDigits d.coefficient := by
  have hpoint : '.' ∉ decimalDigits d.coefficient :=
    notMem_of_all_isDigit (all_isDigit_decimalDigits _) (by decide)
  have hkeep (digits : List Char) (h : ∀ c ∈ digits, c ∈ decimalDigits d.coefficient) :
      digits.filter (· ≠ '.') = digits := by
    refine List.filter_eq_self.mpr fun c hc => ?_
    have hne : c ≠ '.' := fun heq => hpoint (heq ▸ h c hc)
    simpa using hne
  rw [significandText, List.filter_append, hkeep _ fun c => List.mem_of_mem_take]
  split_ifs with hlength
  · rw [List.filter_nil, List.append_nil, List.take_of_length_le hlength]
  · have hmark : decide ('.' ≠ '.') = false := by decide
    rw [List.filter_cons, hmark, hkeep _ fun c => List.mem_of_mem_drop]
    exact List.take_append_drop 1 _

/-- An exponent is known from its form. -/
lemma exponentText_injective : Function.Injective exponentText := by
  intro e e' h
  obtain ⟨hsign, hdigits⟩ := List.cons.inj h
  have habs : e.natAbs = e'.natAbs := by
    have hvalue := congrArg digitsValue hdigits
    rwa [digitsValue_zeros_append, digitsValue_zeros_append, digitsValue_decimalDigits,
      digitsValue_decimalDigits] at hvalue
  split_ifs at hsign with he he' he'
  · omega
  · exact absurd hsign (by decide)
  · exact absurd hsign (by decide)
  · omega

/-- The form with an exponent is the significand and, behind a mark, the exponent. -/
lemma scientificText_eq (d : Decimal) :
    scientificText d = significandText d ++ 'e' ::
      exponentText (d.exponent + ((decimalDigits d.coefficient).length - 1 : Nat)) := rfl

/-- An exponent has a sign and digits only. -/
lemma notMem_exponentText {c : Char} (hdigit : isDigit c = false) (hplus : c ≠ '+')
    (hminus : c ≠ '-') (e : Int) : c ∉ exponentText e := by
  rw [exponentText, List.mem_cons, List.mem_append]
  rintro (h | h | h)
  · split_ifs at h
    · exact hminus h
    · exact hplus h
  · exact notMem_of_all_isDigit (all_isDigit_zeros _) hdigit h
  · exact notMem_of_all_isDigit (all_isDigit_decimalDigits _) hdigit h

/-- The significand has digits and the point only. -/
lemma notMem_significandText {c : Char} (hdigit : isDigit c = false) (hpoint : c ≠ '.')
    (d : Decimal) : c ∉ significandText d := by
  have hdigits := notMem_of_all_isDigit (all_isDigit_decimalDigits d.coefficient) hdigit
  rw [significandText, List.mem_append]
  rintro (h | h)
  · exact hdigits (List.mem_of_mem_take h)
  · split_ifs at h with hlength
    · cases h
    · rcases List.mem_cons.mp h with h | h
      · exact hpoint h
      · exact hdigits (List.mem_of_mem_drop h)

/-- **A decimal is known from its form with an exponent.** -/
lemma scientificText_injective : Function.Injective scientificText := by
  intro d d' h
  rw [scientificText_eq, scientificText_eq] at h
  obtain ⟨hsignificand, hexponent⟩ := eq_of_append_mark_eq
    (notMem_significandText (by decide) (by decide) d)
    (notMem_significandText (by decide) (by decide) d') h
  have hdigits : decimalDigits d.coefficient = decimalDigits d'.coefficient := by
    rw [← filter_significandText, ← filter_significandText, hsignificand]
  have hcoefficient : d.coefficient = d'.coefficient := by
    rw [← digitsValue_decimalDigits d.coefficient, hdigits, digitsValue_decimalDigits]
  have hlast : d.exponent = d'.exponent := by
    have hleading := exponentText_injective hexponent
    rw [hdigits] at hleading
    omega
  cases d
  cases d'
  exact congrArg₂ Decimal.mk hcoefficient hlast

/-! ## With the point in place -/

/-- With the point in place, a full decimal is its numeral with a zero for a missing fraction. -/
lemma positionalText_full {d : Decimal} {n : Numeral} (h : d.IsNumeral n) :
    full.positionalText d =
      n.whole ++ '.' :: if n.fraction = [] then ['0'] else n.fraction := by
  have hchars := h.chars
  rw [Numeral.chars] at hchars
  by_cases hwhole : 0 ≤ d.exponent
  · have hfraction := h.fraction_eq_nil_iff.mpr hwhole
    rw [if_pos hfraction] at hchars ⊢
    rw [← hchars]
    simp [positionalText, hwhole, full, plain]
  · have hfraction : n.fraction ≠ [] := mt h.fraction_eq_nil_iff.mp hwhole
    rw [if_neg hfraction] at hchars ⊢
    rw [← hchars]
    simp [positionalText, hwhole]

/-- A decimal with the point in place has digits and the point only. -/
lemma notMem_positionalText {c : Char} (hdigit : isDigit c = false) (hpoint : c ≠ '.')
    (d : Decimal) : c ∉ full.positionalText d := by
  obtain ⟨n, hn⟩ := d.exists_numeral
  rw [positionalText_full hn, List.mem_append, List.mem_cons]
  rintro (h | h | h)
  · exact notMem_of_all_isDigit n.whole_digits hdigit h
  · exact hpoint h
  · split_ifs at h
    · rw [List.mem_singleton.mp h] at hdigit
      exact absurd hdigit (by decide)
    · exact notMem_of_all_isDigit n.fraction_digits hdigit h

end NumberStyle

namespace Binary64

open NumberStyle

/-- The fraction that is written for a missing one is no fraction of a shortest decimal. -/
lemma fraction_shortest_ne {rank : Nat} {n : Numeral} (h : (shortest rank).IsNumeral n) :
    n.fraction ≠ ['0'] := by
  intro hzero
  exact h.getLast?_fraction_ne shortest_last_ne_zero '0' (by rw [hzero]; rfl) rfl

/-- **A magnitude is known from its shortest decimal with the point in place.** -/
lemma positionalText_shortest_inj {m n : Fin rankCount}
    (h : full.positionalText (shortest m) = full.positionalText (shortest n)) : m = n := by
  obtain ⟨k, hk⟩ := (shortest m).exists_numeral
  obtain ⟨l, hl⟩ := (shortest n).exists_numeral
  rw [positionalText_full hk, positionalText_full hl] at h
  obtain ⟨hwhole, hpadded⟩ := eq_of_append_mark_eq
    (notMem_of_all_isDigit k.whole_digits (by decide))
    (notMem_of_all_isDigit l.whole_digits (by decide)) h
  have hfraction : k.fraction = l.fraction := by
    split_ifs at hpadded with hkzero hlzero hlzero
    · rw [hkzero, hlzero]
    · exact absurd hpadded.symm (fraction_shortest_ne hl)
    · exact absurd hpadded (fraction_shortest_ne hk)
    · exact hpadded
  have hnumber : finite false m = finite false n := by
    rw [← nearest_shortest m, ← nearest_shortest n, ← hk.numerator, ← hk.denominator,
      ← hl.numerator, ← hl.denominator, hwhole, hfraction]
  exact (finite.inj hnumber).2

/-- A magnitude is known from its shortest decimal in the full style. -/
lemma decimalText_shortest_inj {m n : Fin rankCount}
    (h : full.decimalText (shortest m) = full.decimalText (shortest n)) : m = n := by
  have hmixed (d d' : Decimal) : full.positionalText d ≠ scientificText d' := by
    intro heq
    refine notMem_positionalText (c := 'e') (by decide) (by decide) d ?_
    rw [heq, scientificText_eq]
    exact List.mem_append_right _ List.mem_cons_self
  rw [decimalText, decimalText] at h
  split_ifs at h
  · exact positionalText_shortest_inj h
  · exact absurd h (hmixed _ _)
  · exact absurd h.symm (hmixed _ _)
  · have hnumber : finite false m = finite false n := by
      rw [← nearest_shortest m, ← nearest_shortest n, scientificText_injective h]
    exact (finite.inj hnumber).2

/-! ## Signs and words -/

/-- The full form without the sign. -/
def magnitudeText : Binary64 → List Char
  | finite _ rank => full.decimalText (shortest rank)
  | infinite _ => ['i', 'n', 'f']
  | nan => ['n', 'a', 'n']

/-- The full form is the sign and the form of the magnitude. -/
lemma toList_fullText (x : Binary64) :
    x.fullText.toList = signText x.signBit ++ x.magnitudeText := by
  cases x with
  | nan => rfl
  | finite negative rank | infinite negative =>
    rw [fullText, text, String.toList_ofList]
    rfl

/-- A decimal begins with a digit. -/
lemma exists_decimalText_eq_cons (d : Decimal) :
    ∃ c cs, full.decimalText d = c :: cs ∧ isDigit c = true := by
  have hdigits {digits : List Char} (hne : digits ≠ []) (hall : digits.all isDigit = true)
      (tail : List Char) : ∃ c cs, digits ++ tail = c :: cs ∧ isDigit c = true := by
    obtain ⟨c, cs, rfl⟩ := List.exists_cons_of_ne_nil hne
    exact ⟨c, cs ++ tail, rfl, List.all_eq_true.mp hall c List.mem_cons_self⟩
  rw [decimalText]
  split_ifs
  · obtain ⟨n, hn⟩ := d.exists_numeral
    rw [positionalText_full hn]
    exact hdigits n.whole_ne_nil n.whole_digits _
  · have hne : decimalDigits d.coefficient ≠ [] := List.ne_nil_of_length_pos Nat.length_toDigits_pos
    have hall := all_isDigit_decimalDigits d.coefficient
    obtain ⟨c, cs, hcons⟩ := List.exists_cons_of_ne_nil hne
    rw [hcons, List.all_cons, Bool.and_eq_true] at hall
    rw [scientificText, hcons]
    exact ⟨c, _, rfl, hall.1⟩

/-- The form of a magnitude does not begin with a minus. -/
lemma exists_magnitudeText_eq_cons (x : Binary64) :
    ∃ c cs, x.magnitudeText = c :: cs ∧ c ≠ '-' := by
  cases x with
  | finite negative rank =>
    obtain ⟨c, cs, htext, hdigit⟩ := exists_decimalText_eq_cons (shortest rank)
    exact ⟨c, cs, htext, ne_of_class hdigit (by decide)⟩
  | infinite negative => exact ⟨'i', _, rfl, by decide⟩
  | nan => exact ⟨'n', _, rfl, by decide⟩

/-- The sign can be told from the form of the magnitude. -/
lemma signText_append_magnitudeText_inj {x y : Binary64}
    (h : signText x.signBit ++ x.magnitudeText = signText y.signBit ++ y.magnitudeText) :
    x.signBit = y.signBit ∧ x.magnitudeText = y.magnitudeText := by
  obtain ⟨c, cs, hx, hc⟩ := x.exists_magnitudeText_eq_cons
  obtain ⟨c', cs', hy, hc'⟩ := y.exists_magnitudeText_eq_cons
  rw [hx, hy] at h ⊢
  cases hsign : x.signBit <;> cases hsign' : y.signBit <;> rw [hsign, hsign'] at h
  · exact ⟨rfl, h⟩
  · exact absurd (List.cons.inj h).1 hc
  · exact absurd (List.cons.inj h).1.symm hc'
  · exact ⟨rfl, (List.cons.inj h).2⟩

/-- A number is known from its sign and the form of its magnitude. -/
lemma eq_of_magnitudeText_eq {x y : Binary64} (hsign : x.signBit = y.signBit)
    (h : x.magnitudeText = y.magnitudeText) : x = y := by
  have hword {rank : Fin rankCount} {c : Char} {cs : List Char} (hc : isDigit c = false) :
      full.decimalText (shortest rank) ≠ c :: cs := by
    obtain ⟨c', cs', htext, hdigit⟩ := exists_decimalText_eq_cons (shortest rank)
    intro heq
    rw [htext] at heq
    exact ne_of_class hdigit hc (List.cons.inj heq).1
  cases x with
  | finite negative m =>
    cases y with
    | finite negative' n =>
      obtain rfl : negative = negative' := hsign
      rw [decimalText_shortest_inj h]
    | infinite | nan => exact absurd h (hword (by decide))
  | infinite negative =>
    cases y with
    | finite => exact absurd h.symm (hword (by decide))
    | infinite negative' => rw [show negative = negative' from hsign]
    | nan => simp [magnitudeText] at h
  | nan =>
    cases y with
    | finite => exact absurd h.symm (hword (by decide))
    | infinite => simp [magnitudeText] at h
    | nan => rfl

/-- **A number is known from its full form.** -/
theorem fullText_injective : Function.Injective fullText := by
  intro x y h
  have htext := congrArg String.toList h
  rw [toList_fullText, toList_fullText] at htext
  obtain ⟨hsign, hmagnitude⟩ := signText_append_magnitudeText_inj htext
  exact eq_of_magnitudeText_eq hsign hmagnitude

/-- Full forms have digits, the point, the marks of signs and exponents, and the letters of words
only. -/
lemma notMem_fullText {c : Char} (hdigit : isDigit c = false)
    (hc : c ∉ ['.', '-', '+', 'e', 'i', 'n', 'f', 'a']) (x : Binary64) : c ∉ x.fullText.toList := by
  simp only [List.mem_cons, List.not_mem_nil, or_false, not_or] at hc
  obtain ⟨hpoint, hminus, hplus, he, hi, hn, hf, ha⟩ := hc
  have hsign : c ∉ signText x.signBit := by
    cases x.signBit <;> simp [signText, hminus]
  rw [toList_fullText, List.mem_append]
  rintro (h | h)
  · exact hsign h
  · cases x with
    | finite negative rank =>
      rw [magnitudeText, decimalText] at h
      split_ifs at h
      · exact notMem_positionalText hdigit hpoint _ h
      · rw [scientificText_eq, List.mem_append, List.mem_cons] at h
        rcases h with h | h | h
        · exact notMem_significandText hdigit hpoint _ h
        · exact he h
        · exact notMem_exponentText hdigit hplus hminus _ h
    | infinite negative => simp [magnitudeText, hi, hn, hf] at h
    | nan => simp [magnitudeText, hn, ha] at h

end Binary64

end SumProduct
