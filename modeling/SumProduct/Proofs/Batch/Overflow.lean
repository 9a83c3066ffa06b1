import SumProduct.Proofs.Batch.Rowwise
import SumProduct.Proofs.Expr.Overflow

/-!
# Overflow in batches

Where the constants of an expression and the columns that it mentions are finite, a value of the
batch that is not finite comes from an operation that overflows in its row, and simplification with
the bindings of this row warns about it. Batch evaluation warns about such a value only if all other
columns are finite as well: a cell that is no number silences the warning even in a column that the
expression does not mention.

## Main definitions

* `SumProduct.Expr.FiniteColumns` — the constants and the columns that an expression needs are
  finite.
* `SumProduct.Environment.AllFinite` — all columns are finite.

## Main results

* `SumProduct.Expr.simplify_row` — simplification warns in the rows whose value is not finite.
* `SumProduct.Expr.evaluateBatch_reports_overflow` — when batch evaluation warns.
* `SumProduct.Expr.evaluateBatch_reports_overflow_silenced` — a column without use silences it.
-/

namespace SumProduct

/-- All columns of the data are finite. -/
def Environment.AllFinite (data : Environment) : Prop :=
  ∀ p ∈ data.entries, ∀ x ∈ p.2.numbers, x.isFinite = true

namespace Expr

open Environment

/-- The numbers that batch evaluation starts from are finite: the constants of the expression, and
the columns of its variables. Other columns may have any cells. -/
structure FiniteColumns (data : Environment) (e : Expr Binary64) : Prop where
  /-- The constants are finite. -/
  constants : ∀ x ∈ e.constants, x.isFinite = true
  /-- The variables have columns of finite numbers. -/
  columns : ∀ n ∈ e.occurrences, ∃ v, data.find? n.text = some v ∧
    ∀ x ∈ v.numbers, x.isFinite = true

variable {data : Environment} {e : Expr Binary64} {n i : Nat}

/-! ## Rows of finite columns -/

/-- A column of finite numbers is a column of numbers. -/
lemma isColumn_of_finite {v : Value} (h : ∀ x ∈ v.numbers, x.isFinite = true) : v.IsColumn :=
  fun _ hcell => (Value.exists_toBinary64_of_finite (h _ (List.mem_map_of_mem hcell))).imp
    fun _ hx => hx.1

/-- Every row of finite columns has finite values. -/
lemma FiniteColumns.row (h : FiniteColumns data e) (hrows : data.HasRows n) (hi : i < n) :
    FiniteInputs (data.row n i) e where
  constants := h.constants
  values name hname value hvalue := by
    obtain ⟨v, hv, hfinite⟩ := h.columns name hname
    rw [Environment.row, Bindings.find?_map, hv, Option.map_some] at hvalue
    obtain rfl := Option.some.inj hvalue
    have hlength := hrows.length_eq _ (Bindings.mem_entries_of_find? hv)
    have hcell := List.mem_of_getElem? (Value.getElem?_cells hlength hi)
    exact Value.exists_toBinary64_of_finite (hfinite _ (List.mem_map_of_mem hcell))

/-- **Simplification warns in the rows whose value is not finite.** With the bindings of a row it
gives the value of the row. -/
theorem simplify_row (h : FiniteColumns data e) (hrows : data.HasRows n) (hi : i < n)
    {x : Binary64} (hx : e.evaluate (data.row n i) = .ok x) :
    e.simplify (data.row n i) = .ok (constant x) ∧
      (e.simplifyWarnings (data.row n i) ≠ [] ↔ x.isFinite = false) := by
  have hinputs := h.row hrows hi
  obtain ⟨y, hy, hconstant⟩ := (fullyBound_of_evaluate hx).specialize_eq hinputs.converts
  obtain rfl := Except.ok.inj (hx.symm.trans hy)
  constructor
  · rw [simplify_eq_specialize hinputs.converts, hconstant]
  · rw [simplifyWarnings_ne_nil_iff hinputs, hconstant, hasNonfinite_constant]

/-! ## Columns of one length -/

/-- Repeating a column to some rows does not change which numbers it has. -/
lemma mem_broadcast_iff (hn : 0 < n) {column : List Binary64} {x : Binary64} :
    x ∈ broadcast n column ↔ x ∈ column := by
  unfold broadcast
  split
  · simp [List.mem_replicate, hn.ne']
  · rfl

/-- The columns of at least one row are finite when the data are. -/
lemma allFinite_iff (hn : 0 < n) :
    Columns.allFinite ⟨n, data.map fun v => broadcast n v.numbers⟩ = true ↔ data.AllFinite := by
  simp [Columns.allFinite, AllFinite, Bindings.map, mem_broadcast_iff hn]

/-! ## Warnings -/

/-- The text of the warning of a batch evaluation. -/
def batchWarning (e : Expr Binary64) : String :=
  "Batch evaluation of " ++ e.literalText ++ " produced non-finite values"

/-- Batch evaluation warns once, if a value is not finite and all columns are finite. -/
lemma batchWarnings_eq {columns : Columns} {values : List Binary64}
    (hcolumns : Columns.ofData data = .ok columns) (hvalues : e.evaluateBatch data = .ok values) :
    e.batchWarnings data =
      if !values.all Binary64.isFinite && columns.allFinite then [e.batchWarning] else [] := by
  have hcolumn : e.evaluateColumns columns = .ok values := by
    rw [← hvalues, evaluateBatch, hcolumns]
  simp only [batchWarnings, hcolumns, hcolumn]
  rfl

/-- Batch evaluation warns exactly if a value is not finite and all columns are finite, used or
not. -/
lemma batchWarnings_ne_nil_iff {values : List Binary64}
    (hcolumns : Columns.ofData data = .ok ⟨n, data.map fun v => broadcast n v.numbers⟩)
    (hvalues : e.evaluateBatch data = .ok values) (hlength : values.length = n) :
    e.batchWarnings data ≠ [] ↔ data.AllFinite ∧ ∃ x ∈ values, x.isFinite = false := by
  have hnonfinite : (!values.all Binary64.isFinite) = true ↔ ∃ x ∈ values, x.isFinite = false := by
    simp
  rw [batchWarnings_eq hcolumns hvalues, ite_ne_right_iff, Bool.and_eq_true, hnonfinite,
    and_iff_left (List.cons_ne_nil _ _), and_comm]
  -- a column without rows is finite whatever the data are, but then there is no value either
  refine and_congr_left fun ⟨x, hx, _⟩ => allFinite_iff ?_
  exact hlength ▸ List.length_pos_of_mem hx

/-- **When batch evaluation reports overflow.** Let the data describe columns, and let the constants
of the expression and the columns that it mentions be finite; all other columns may hold anything.
Batch evaluation succeeds. Simplifying with the bindings of a row gives the value of the row and
warns exactly if it is not finite, so some value is not finite exactly if simplification warns in
some row. Where the journal passes warnings on, the warning of batch evaluation arrives exactly if
some value is not finite and every column of the data is finite, also those that the expression does
not mention.

**Proof sketch.** The columns that the expression mentions hold numbers, so the values are those of
the rows (`evaluateRows_of_isColumn`), and every row has finite inputs, so simplification warns in
the rows whose value is not finite (`simplify_row`). The warning depends on all columns at once, and
these are as finite as the data (`allFinite_iff`). -/
theorem evaluateBatch_reports_overflow (e : Expr Binary64) (data : Environment)
    (hdata : ∃ columns, Columns.ofData data = .ok columns) (h : FiniteColumns data e) :
    ∃ n values, data.HasRows n ∧ e.evaluateBatch data = .ok values ∧ values.length = n ∧
      (∀ i (hi : i < values.length), e.simplify (data.row n i) = .ok (constant values[i]) ∧
        (e.simplifyWarnings (data.row n i) ≠ [] ↔ values[i].isFinite = false)) ∧
      ((∃ x ∈ values, x.isFinite = false) ↔ ∃ i < n, e.simplifyWarnings (data.row n i) ≠ []) ∧
      ∀ j : Journal, j.currentLevel.allows .minimal = true →
        (j.evaluateBatch e data).2.2 = .ok values ∧
        ((j.evaluateBatch e data).2.1 ≠ [] ↔
          data.AllFinite ∧ ∃ x ∈ values, x.isFinite = false) ∧
        ((j.evaluateBatch e data).2.1 ≠ [] → (j.evaluateBatch e data).2.1 =
          Journal.deliver j.opened.handlers ⟨.warning, e.batchWarning⟩) := by
  obtain ⟨columns, hcolumns⟩ := hdata
  obtain ⟨n, hrows, rfl⟩ := Columns.exists_hasRows_of_ofData hcolumns
  obtain ⟨values, hvalues, rfl, hrow⟩ := evaluateRows_of_isColumn hrows fun name hname =>
    (h.columns name hname).imp fun v hv => ⟨hv.1, isColumn_of_finite hv.2⟩
  rw [← evaluateBatch_of_ofData hcolumns] at hvalues
  have hrowwise (i : Nat) (hi : i < values.length) :
      e.simplify (data.row values.length i) = .ok (constant values[i]) ∧
        (e.simplifyWarnings (data.row values.length i) ≠ [] ↔ values[i].isFinite = false) :=
    simplify_row h hrows hi (hrow i _ (List.getElem?_eq_getElem hi))
  refine ⟨values.length, values, hrows, hvalues, rfl, hrowwise, ?_, fun j hlevel => ⟨?_, ?_, ?_⟩⟩
  · rw [List.exists_mem_iff_getElem]
    constructor
    · rintro ⟨i, hi, hfinite⟩
      exact ⟨i, hi, (hrowwise i hi).2.mpr hfinite⟩
    · rintro ⟨i, hi, hwarned⟩
      exact ⟨i, hi, (hrowwise i hi).2.mp hwarned⟩
  · change (e.evaluateBatch data).mapError Failure.batch = _
    rw [hvalues]
    rfl
  · exact (Journal.snd_warnings_ne_nil_iff hlevel _).trans
      (batchWarnings_ne_nil_iff hcolumns hvalues rfl)
  · change (j.warnings (e.batchWarnings data)).2 ≠ [] → (j.warnings (e.batchWarnings data)).2 = _
    rw [Journal.snd_warnings hlevel, batchWarnings_eq hcolumns hvalues]
    split_ifs <;> simp

/-- In the second row of the data, `x * y` overflows, and batch evaluation reports it. -/
theorem evaluateBatch_reports_overflow_secondRow :
    let huge : Binary64 := Binary64.nearest false (tenPow 308) 1
    let e : Expr Binary64 := binary .mul (var ⟨"x", by decide⟩) (var ⟨"y", by decide⟩)
    let data : Environment :=
      ⟨[("x", .list [.integer 1, .real huge]), ("y", .integer 10)], by decide⟩
    let j := Journal.unused
    (∃ columns, Columns.ofData data = .ok columns) ∧ FiniteColumns data e ∧ data.AllFinite ∧
      j.currentLevel.allows .minimal = true ∧
      e.evaluateBatch data = .ok [Binary64.ofInt 10, .infinite false] ∧
      (j.evaluateBatch e data).2.1 = Journal.deliver j.opened.handlers ⟨.warning, e.batchWarning⟩ ∧
      ∃ i < 2, e.simplifyWarnings (data.row 2 i) ≠ [] := by
  intro huge e data j
  have hdata : ∃ columns, Columns.ofData data = .ok columns :=
    faultOf?_eq_none_iff.mp (by decide +kernel)
  have hfinite : FiniteColumns data e := by
    refine ⟨by decide +kernel, fun n hn => ?_⟩
    obtain rfl | rfl : n = ⟨"x", by decide⟩ ∨ n = ⟨"y", by decide⟩ := by simpa [e] using hn
    · exact ⟨_, rfl, by decide +kernel⟩
    · exact ⟨_, rfl, by decide +kernel⟩
  have hall : data.AllFinite := by
    unfold AllFinite
    decide +kernel
  have hlevel : j.currentLevel.allows .minimal = true := by decide
  have hresult : e.evaluateBatch data = .ok [Binary64.ofInt 10, .infinite false] := by
    decide +kernel
  obtain ⟨n, values, -, hvalues, hlength, -, hrows, hreport⟩ :=
    evaluateBatch_reports_overflow e data hdata hfinite
  obtain rfl := Except.ok.inj (hresult.symm.trans hvalues)
  obtain rfl : 2 = n := hlength
  obtain ⟨-, hwarned, htext⟩ := hreport j hlevel
  have hinfinite : ∃ x ∈ [Binary64.ofInt 10, .infinite false], x.isFinite = false :=
    ⟨.infinite false, by simp, rfl⟩
  exact ⟨hdata, hfinite, hall, hlevel, hresult, htext (hwarned.mpr ⟨hall, hinfinite⟩),
    hrows.mp hinfinite⟩

/-- A column that `x * 10` does not mention has a cell that is no number. Batch evaluation is then
silent about the overflow, and simplification with the bindings of the row is not. -/
theorem evaluateBatch_reports_overflow_silenced :
    let huge : Binary64 := Binary64.nearest false (tenPow 308) 1
    let e : Expr Binary64 :=
      binary .mul (var ⟨"x", by decide⟩) (constant (Binary64.ofInt 10))
    let data : Environment := ⟨[("x", .real huge), ("z", .real .nan)], by decide⟩
    let j := Journal.unused
    (∃ columns, Columns.ofData data = .ok columns) ∧ FiniteColumns data e ∧
      j.currentLevel.allows .minimal = true ∧ e.evaluateBatch data = .ok [.infinite false] ∧
      e.simplifyWarnings (data.row 1 0) ≠ [] ∧ (j.evaluateBatch e data).2.1 = [] := by
  intro huge e data j
  have hfinite : FiniteColumns data e := by
    refine ⟨by decide +kernel, fun n hn => ?_⟩
    obtain rfl : n = ⟨"x", by decide⟩ := by simpa [e] using hn
    exact ⟨_, rfl, by decide +kernel⟩
  have hsilent : e.batchWarnings data = [] := by decide +kernel
  refine ⟨faultOf?_eq_none_iff.mp (by decide +kernel), hfinite, by decide, by decide +kernel,
    by decide +kernel, ?_⟩
  change (j.warnings (e.batchWarnings data)).2 = []
  rw [hsilent]
  rfl

end Expr

end SumProduct
