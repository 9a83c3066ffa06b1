import SumProduct.Proofs.Batch.Column
import SumProduct.Proofs.Expr.Evaluation
import SumProduct.Proofs.Expr.Simplification

/-!
# Batches row by row

Batch evaluation of a table does in each row what evaluation does with the bindings of that row.
Every column that comes up on the way has the length of the table, so that no operation meets
columns of different lengths.

## Main definitions

* `SumProduct.Environment.row` — the bindings of one row of a table.

## Main results

* `SumProduct.Expr.length_of_evaluateRows` — all columns on the way have the same length.
* `SumProduct.Expr.getElem?_of_evaluateRows` — a column has in each row the value of that row.
* `SumProduct.Expr.evaluateBatch_rowwise` — batch evaluation is evaluation row by row.
-/

namespace SumProduct

/-! ## Rows of a table -/

/-- The cell of a column in a row, where `n` is the number of rows: a column of this length has one
for each row, and any other column has its first one in all rows. -/
def Value.cellAt (n i : Nat) (v : Value) : Value :=
  v.cells.getD (if v.cells.length = n then i else 0) .absent

/-- A row has a cell of each column whose length is one or the number of rows. -/
lemma Value.getElem?_cells {n i : Nat} {v : Value}
    (hlength : v.cells.length = 1 ∨ v.cells.length = n) (hi : i < n) :
    v.cells[if v.cells.length = n then i else 0]? = some (v.cellAt n i) := by
  have hindex : (if v.cells.length = n then i else 0) < v.cells.length := by split_ifs <;> omega
  rw [cellAt, List.getD_eq_getElem?_getD, List.getElem?_eq_getElem hindex, Option.getD_some]

/-- The bindings of row `i` of a table with `n` rows. -/
def Environment.row (data : Environment) (n i : Nat) : Environment := data.map (Value.cellAt n i)

/-- The column of a variable of a table that is brought to `n` rows. -/
def Environment.readColumn (data : Environment) (n : Nat) (name : Name) :
    Except BatchError (List Binary64) :=
  match data.find? name.text with
  | some v => .ok (broadcast n v.numbers)
  | none => .error (.missing name)

/-- A column of length one is repeated to the number of rows, and one that has this length already
is left as it is. -/
lemma broadcast_eq {n : Nat} {column : List Binary64} (h : column.length = 1 ∨ column.length = n) :
    (broadcast n column).length = n ∧
      ∀ i < n, (broadcast n column)[i]? = column[if column.length = n then i else 0]? := by
  unfold broadcast
  split
  · next x =>
    refine ⟨List.length_replicate, fun i hi => ?_⟩
    rw [List.getElem?_replicate_of_lt hi]
    split_ifs with hn
    · obtain rfl : i = 0 := by
        rw [List.length_singleton] at hn
        omega
      rfl
    · rfl
  · next hmany =>
    have hn : column.length = n := by
      refine h.resolve_left fun hone => ?_
      obtain ⟨x, hx⟩ := List.length_eq_one_iff.mp hone
      exact hmany x hx
    exact ⟨hn, fun i _ => by rw [if_pos hn]⟩

namespace Expr

/-! ## Columns of an expression -/

section Rows

variable {rows : Nat} {read : Name → Except BatchError (List Binary64)}
  {e left right : Expr Binary64} {op : Op} {values : List Binary64}

/-- **The fault of an evaluation over rows is that of the first variable without a column.** -/
theorem faultOf?_evaluateRows (e : Expr Binary64) (rows : Nat)
    (read : Name → Except BatchError (List Binary64)) :
    faultOf? (e.evaluateRows rows read) = e.occurrences.findSome? fun n => faultOf? (read n) := by
  refine faultOf?_eq_findSome? (fun _ => rfl) (fun _ => rfl) (fun op left right => ?_) e
  rw [evaluateRows]
  cases left.evaluateRows rows read with
  | error fault => rfl
  | ok a => cases right.evaluateRows rows read <;> rfl

/-- The column of a node is the operation on the columns of its operands. -/
lemma evaluateRows_binary_eq_ok (h : (binary op left right).evaluateRows rows read = .ok values) :
    ∃ a b, left.evaluateRows rows read = .ok a ∧ right.evaluateRows rows read = .ok b ∧
      values = op.applyRows a b := by
  rw [evaluateRows] at h
  cases hleft : left.evaluateRows rows read with
  | error fault => simp [hleft] at h
  | ok a =>
    cases hright : right.evaluateRows rows read with
    | error fault => simp [hleft, hright] at h
    | ok b => exact ⟨a, b, rfl, rfl, by simpa [hleft, hright] using h.symm⟩

/-- Where the columns of all variables have the same length, the column of every expression has this
length. -/
theorem length_of_evaluateRows
    (hread : ∀ name column, read name = .ok column → column.length = rows)
    (h : e.evaluateRows rows read = .ok values) : values.length = rows := by
  induction e generalizing values with
  | constant value =>
    cases h
    exact List.length_replicate
  | var name => exact hread name values h
  | binary op left right ihl ihr =>
    obtain ⟨a, b, hleft, hright, rfl⟩ := evaluateRows_binary_eq_ok h
    rw [Op.applyRows, List.length_zipWith, ihl hleft, ihr hright, Nat.min_self]

/-- **A column has in each row the value of that row.** If each variable of an expression is read in
a row as the number in that row of its column, then so is the expression evaluated. -/
theorem getElem?_of_evaluateRows {ε : Type} {scalar : Name → Except ε Binary64} {i : Nat}
    (hi : i < rows)
    (hscalar : ∀ n ∈ e.occurrences, ∀ column, read n = .ok column →
      ∃ x, column[i]? = some x ∧ scalar n = .ok x)
    (h : e.evaluateRows rows read = .ok values) :
    ∃ x, values[i]? = some x ∧ e.evaluateWith scalar = .ok x := by
  induction e generalizing values with
  | constant value =>
    cases h
    exact ⟨value, List.getElem?_replicate_of_lt hi, rfl⟩
  | var name => exact hscalar name (by simp) values h
  | binary op left right ihl ihr =>
    simp only [occurrences_binary, List.mem_append] at hscalar
    obtain ⟨a, b, hleft, hright, rfl⟩ := evaluateRows_binary_eq_ok h
    obtain ⟨x, hx, hxvalue⟩ := ihl (fun n hn => hscalar n (.inl hn)) hleft
    obtain ⟨y, hy, hyvalue⟩ := ihr (fun n hn => hscalar n (.inr hn)) hright
    refine ⟨op.apply x y, ?_, by rw [evaluateWith, hxvalue, hyvalue]⟩
    rw [Op.applyRows, List.getElem?_zipWith, hx, hy]

end Rows

end Expr

/-! ## Tables with a number of rows -/

namespace Environment

variable {data data' : Environment} {n : Nat} {e : Expr Binary64}

/-- The columns of a table with `n` rows have `n` numbers. -/
lemma HasRows.length_readColumn (h : data.HasRows n) {name : Name} {column : List Binary64}
    (hcolumn : data.readColumn n name = .ok column) : column.length = n := by
  rw [readColumn] at hcolumn
  cases hfind : data.find? name.text with
  | none => simp [hfind] at hcolumn
  | some v =>
    obtain rfl : broadcast n v.numbers = column := by simpa [hfind] using hcolumn
    have hlength := h.length_eq _ (Bindings.mem_entries_of_find? hfind)
    exact (broadcast_eq (by simpa using hlength)).1

/-- A variable whose value is a column of numbers is read in a row as the number in that row of its
column. -/
lemma HasRows.read_row (h : data.HasRows n) {i : Nat} (hi : i < n) {name : Name}
    (hnumbers : ∀ v, data.find? name.text = some v → v.IsColumn) {column : List Binary64}
    (hcolumn : data.readColumn n name = .ok column) :
    ∃ x, column[i]? = some x ∧ (data.row n i).read name = .ok x := by
  rw [readColumn] at hcolumn
  cases hfind : data.find? name.text with
  | none => simp [hfind] at hcolumn
  | some v =>
    obtain rfl : broadcast n v.numbers = column := by simpa [hfind] using hcolumn
    have hmem := Bindings.mem_entries_of_find? hfind
    have hlength : v.cells.length = 1 ∨ v.cells.length = n := h.length_eq _ hmem
    have hcell := Value.getElem?_cells hlength hi
    obtain ⟨x, hx⟩ := hnumbers v hfind _ (List.mem_of_getElem? hcell)
    refine ⟨x, ?_, ?_⟩
    · rw [(broadcast_eq (by simpa using hlength)).2 i hi, Value.length_numbers, Value.numbers,
        List.getElem?_map, hcell, Option.map_some, Value.number_eq hx]
    · have hbound : (data.row n i).bound name = .ok (some x) := by
        rw [bound, row, Bindings.find?_map, hfind, Option.map_some]
        simp only [hx]
      rw [read, hbound]

/-- The columns of a table with a number of rows. -/
lemma Tabular.ofData_of_hasRows (hdata : data.Tabular) (h : data.HasRows n) :
    Columns.ofData data = .ok ⟨n, data.map fun v => broadcast n v.numbers⟩ := by
  rw [hdata.ofData_eq, Columns.align_of_hasRows h]

/-- The columns of a table are read as its values describe them. -/
lemma read_columns (data : Environment) (n : Nat) :
    Columns.read ⟨n, data.map fun v => broadcast n v.numbers⟩ = data.readColumn n := by
  funext name
  rw [Columns.read, readColumn, Bindings.find?_map]
  cases data.find? name.text <;> rfl

/-- Batch evaluation of data that describe columns is evaluation over their rows. -/
lemma evaluateBatch_of_ofData
    (h : Columns.ofData data = .ok ⟨n, data.map fun v => broadcast n v.numbers⟩)
    (e : Expr Binary64) : e.evaluateBatch data = e.evaluateRows n (data.readColumn n) := by
  rw [Expr.evaluateBatch, h, ← read_columns]
  rfl

/-- Batch evaluation of a table with a number of rows is evaluation over these rows. -/
lemma Tabular.evaluateBatch_of_hasRows (hdata : data.Tabular) (h : data.HasRows n)
    (e : Expr Binary64) : e.evaluateBatch data = e.evaluateRows n (data.readColumn n) :=
  evaluateBatch_of_ofData (hdata.ofData_of_hasRows h) e

/-- Batch evaluation of an uneven table is refused. -/
lemma Tabular.evaluateBatch_of_uneven (hdata : data.Tabular) (h : data.Uneven)
    (e : Expr Binary64) :
    e.evaluateBatch data = .error (.lengths (properLengths data.columns.entries)) := by
  rw [Expr.evaluateBatch, hdata.ofData_eq, Columns.align_of_uneven h]

end Environment

namespace Expr

open Environment

/-- Evaluation over rows in which each variable has a column of numbers gives the values of the
rows, whatever is in the other columns. -/
lemma evaluateRows_of_isColumn {data : Environment} {n : Nat} {e : Expr Binary64}
    (hrows : data.HasRows n)
    (hcolumns : ∀ name ∈ e.occurrences, ∃ v, data.find? name.text = some v ∧ v.IsColumn) :
    ∃ values, e.evaluateRows n (data.readColumn n) = .ok values ∧ values.length = n ∧
      ∀ i x, values[i]? = some x → e.evaluate (data.row n i) = .ok x := by
  have hfault : faultOf? (e.evaluateRows n (data.readColumn n)) = none := by
    rw [faultOf?_evaluateRows, List.findSome?_eq_none_iff]
    intro name hname
    obtain ⟨v, hv, -⟩ := hcolumns name hname
    rw [readColumn, hv]
    rfl
  obtain ⟨values, hvalues⟩ := faultOf?_eq_none_iff.mp hfault
  have hlength : values.length = n :=
    length_of_evaluateRows (fun name column => hrows.length_readColumn) hvalues
  refine ⟨values, hvalues, hlength, fun i x hx => ?_⟩
  have hi : i < n := hlength ▸ (List.getElem?_eq_some_iff.mp hx).1
  have hread (name : Name) (hname : name ∈ e.occurrences) (column : List Binary64)
      (hcolumn : data.readColumn n name = .ok column) :
      ∃ x, column[i]? = some x ∧ (data.row n i).read name = .ok x := by
    obtain ⟨v, hv, hnumbers⟩ := hcolumns name hname
    exact hrows.read_row hi (fun v' hv' => Option.some.inj (hv.symm.trans hv') ▸ hnumbers) hcolumn
  obtain ⟨y, hy, hvalue⟩ := getElem?_of_evaluateRows hi hread hvalues
  obtain rfl : x = y := Option.some.inj (hx.symm.trans hy)
  exact hvalue

/-- Batch evaluation of a table with rows and a column for each variable. -/
lemma evaluateBatch_of_fullyBound {data : Environment} {n : Nat} {e : Expr Binary64}
    (hdata : data.Tabular) (hrows : data.HasRows n) (hbound : FullyBound data e) :
    ∃ values, e.evaluateBatch data = .ok values ∧ values.length = n ∧
      ∀ i x, values[i]? = some x → e.evaluate (data.row n i) = .ok x := by
  rw [hdata.evaluateBatch_of_hasRows hrows]
  refine evaluateRows_of_isColumn hrows fun name hname => ?_
  obtain ⟨v, hv⟩ := Option.isSome_iff_exists.mp (hbound name hname)
  exact ⟨v, hv, hdata _ (Bindings.mem_entries_of_find? hv)⟩

/-- Batch evaluation of a table with rows in which the first variable without a column is given. -/
lemma evaluateBatch_of_missing {data : Environment} {n : Nat} {e : Expr Binary64} {name : Name}
    (hdata : data.Tabular) (hrows : data.HasRows n)
    (hname : e.occurrences.find? (fun m => (data.find? m.text).isNone) = some name) :
    e.evaluateBatch data = .error (.missing name) := by
  obtain ⟨hmissing, front, back, hsplit, hfront⟩ := List.find?_eq_some_iff_append.mp hname
  rw [hdata.evaluateBatch_of_hasRows hrows, ← faultOf?_eq_some_iff, faultOf?_evaluateRows,
    List.findSome?_eq_some_iff]
  refine ⟨front, name, back, hsplit, ?_, fun m hm => ?_⟩
  · rw [readColumn, Option.isNone_iff_eq_none.mp hmissing]
    rfl
  · obtain ⟨v, hv⟩ : ∃ v, data.find? m.text = some v := by
      simpa [← Option.isSome_iff_exists, Option.isSome_iff_ne_none] using hfront m hm
    rw [readColumn, hv]
    rfl

/-- The order of the columns of a table does not matter to batch evaluation. -/
lemma evaluateBatch_of_perm {data data' : Environment} (e : Expr Binary64) (hdata : data.Tabular)
    (hperm : data.entries.Perm data'.entries) :
    e.evaluateBatch data = e.evaluateBatch data' := by
  have hdata' : data'.Tabular := fun p hp => hdata p (hperm.mem_iff.mpr hp)
  by_cases huneven : data.Uneven
  · rw [hdata.evaluateBatch_of_uneven huneven,
      hdata'.evaluateBatch_of_uneven (huneven.of_perm hperm), Columns.properLengths_of_perm hperm]
  · obtain ⟨n, hrows⟩ := exists_hasRows huneven
    have hread : data.readColumn n = data'.readColumn n := by
      funext name
      rw [readColumn, readColumn, Bindings.find?_congr_of_perm hperm]
    rw [hdata.evaluateBatch_of_hasRows hrows,
      hdata'.evaluateBatch_of_hasRows (hrows.of_perm hperm), hread]

/-- Over the columns of a table, all columns of expressions have the common length. -/
lemma length_of_evaluateColumns {data : Environment} {columns : Columns} {e : Expr Binary64}
    {values : List Binary64} (hdata : data.Tabular) (hcolumns : Columns.ofData data = .ok columns)
    (h : e.evaluateColumns columns = .ok values) : values.length = columns.rows := by
  by_cases huneven : data.Uneven
  · rw [hdata.ofData_eq, Columns.align_of_uneven huneven] at hcolumns
    cases hcolumns
  · obtain ⟨n, hrows⟩ := exists_hasRows huneven
    rw [hdata.ofData_of_hasRows hrows] at hcolumns
    cases hcolumns
    rw [evaluateColumns, read_columns] at h
    exact length_of_evaluateRows (fun name column => hrows.length_readColumn) h

/-- **Batch evaluation of a table is evaluation row by row.** A table with two columns of different
lengths other than one is refused. Every other table has exactly one number of rows. The first
variable of the expression without a column is reported as missing, however many rows there are; if
there is none, the result has as many numbers as there are rows, and each is the value of the
expression with the bindings of its row. No operation ever meets columns of different lengths, and
the order of the columns of the table does not matter.

**Proof sketch.** Preparing the columns of a table is a matter of their lengths
(`Tabular.ofData_eq`), after which all columns have the same length. What is evaluated over the rows
then fails like evaluation does, at the first variable that cannot be read
(`faultOf?_evaluateRows`), and agrees with it in each row (`getElem?_of_evaluateRows`). -/
theorem evaluateBatch_rowwise (e : Expr Binary64) (data : Environment) (hdata : data.Tabular) :
    (data.Uneven → ∃ found, e.evaluateBatch data = .error (.lengths found)) ∧
      (¬ data.Uneven → ∃ n, data.HasRows n ∧ (∀ m, data.HasRows m → m = n) ∧
        (∀ name, e.occurrences.find? (fun m => (data.find? m.text).isNone) = some name →
          e.evaluateBatch data = .error (.missing name)) ∧
        (FullyBound data e → ∃ values, e.evaluateBatch data = .ok values ∧ values.length = n ∧
          ∀ i (hi : i < values.length), e.evaluate (data.row n i) = .ok values[i])) ∧
      (∀ columns, Columns.ofData data = .ok columns → ∀ op left right a b,
        binary op left right ∈ e.postorder → left.evaluateColumns columns = .ok a →
        right.evaluateColumns columns = .ok b →
        a.length = columns.rows ∧ b.length = columns.rows) ∧
      ∀ data' : Environment, data.entries.Perm data'.entries →
        e.evaluateBatch data = e.evaluateBatch data' := by
  refine ⟨fun huneven => ⟨_, hdata.evaluateBatch_of_uneven huneven e⟩, fun heven => ?_, ?_,
    fun data' => evaluateBatch_of_perm e hdata⟩
  · obtain ⟨n, hrows⟩ := exists_hasRows heven
    refine ⟨n, hrows, fun m hm => hm.unique hrows,
      fun name hname => evaluateBatch_of_missing hdata hrows hname, fun hbound => ?_⟩
    obtain ⟨values, hvalues, hlength, hrow⟩ := evaluateBatch_of_fullyBound hdata hrows hbound
    exact ⟨values, hvalues, hlength, fun i hi => hrow i _ (List.getElem?_eq_getElem hi)⟩
  · intro columns hcolumns op left right a b _ hleft hright
    exact ⟨length_of_evaluateColumns hdata hcolumns hleft,
      length_of_evaluateColumns hdata hcolumns hright⟩

/-- With three rows for `x`, one number for `y` and a column of length one for `z`, the columns of
`x * (y + z)` are read in any order, and the values are those of the rows. -/
theorem evaluateBatch_rowwise_broadcast :
    let x : Name := ⟨"x", by decide⟩
    let y : Name := ⟨"y", by decide⟩
    let z : Name := ⟨"z", by decide⟩
    let e : Expr Binary64 := binary .mul (var x) (binary .add (var y) (var z))
    let data : Environment := ⟨[("y", .integer 2), ("x", .list [.real 0, .real 1, .truth true]),
      ("z", .list [.real (.infinite false)])], by decide⟩
    let data' : Environment := .ofList data.entries.reverse
    data.Tabular ∧ data.HasRows 3 ∧
      e.evaluateBatch data = .ok [.nan, .infinite false, .infinite false] ∧
      e.evaluate (data.row 3 0) = .ok .nan ∧ e.evaluate (data.row 3 2) = .ok (.infinite false) ∧
      e.evaluateBatch data' = .ok [.nan, .infinite false, .infinite false] := by
  intro x y z e data data'
  have hdata : data.Tabular := by
    intro p hp cell hcell
    simp only [data, List.mem_cons, List.not_mem_nil, or_false] at hp
    rcases hp with rfl | rfl | rfl <;>
      simp only [Value.cells, List.mem_cons, List.not_mem_nil, or_false] at hcell
    · exact ⟨.ofInt 2, by rw [hcell]; decide +kernel⟩
    · rcases hcell with rfl | rfl | rfl <;> exact ⟨_, rfl⟩
    · exact ⟨_, by rw [hcell]; rfl⟩
  have hrows : data.HasRows 3 := ⟨by decide, by decide⟩
  have heven : ¬ data.Uneven := by unfold Environment.Uneven; decide
  have hbound : FullyBound data e := by
    intro m hm
    obtain rfl | rfl | rfl : m = x ∨ m = y ∨ m = z := by simpa [e] using hm
    all_goals rfl
  have hresult : e.evaluateBatch data = .ok [.nan, .infinite false, .infinite false] := by
    decide +kernel
  obtain ⟨-, hvalues, -, horder⟩ := evaluateBatch_rowwise e data hdata
  obtain ⟨n, hn, -, -, hrow⟩ := hvalues heven
  obtain ⟨values, hok, -, hrow⟩ := hrow hbound
  obtain rfl : n = 3 := hn.unique hrows
  obtain rfl : [.nan, .infinite false, .infinite false] = values :=
    Except.ok.inj (hresult.symm.trans hok)
  exact ⟨hdata, hrows, hresult, hrow 0 (by decide), hrow 2 (by decide),
    (horder data' data.entries.reverse_perm.symm).symm.trans hresult⟩

end Expr

end SumProduct
