import Mathlib.Data.List.Sort
import Mathlib.Tactic.Common
import SumProduct.Batch
import SumProduct.Proofs.Bindings

/-!
# Tables as columns

Data are a table when each name has a column of numbers: a list of them, or a single one. The
columns of a table are prepared without a fault of their own. They are brought to a common length
unless two of them have different lengths other than one.

## Main definitions

* `SumProduct.Value.cells`, `SumProduct.Value.IsColumn` — the cells of a column of numbers.
* `SumProduct.Environment.Tabular` — data whose values are columns of numbers.
* `SumProduct.Environment.Uneven`, `SumProduct.Environment.HasRows` — whether columns have a common
  length, and which one.

## Main results

* `SumProduct.Environment.Tabular.ofData_eq` — preparing a table is a matter of lengths.
* `SumProduct.Columns.align_of_hasRows`, `SumProduct.Columns.align_of_uneven` — how it ends.
* `SumProduct.Columns.exists_hasRows_of_ofData` — what the columns of any data are.
-/

namespace SumProduct

/-! ## Values as columns -/

namespace Value

/-- The cells of a column: the items of a list, or a single value alone. -/
def cells : Value → List Value
  | list items => items
  | v => [v]

/-- A value is a column of numbers when each of its cells is a number. -/
def IsColumn (v : Value) : Prop := ∀ cell ∈ v.cells, ∃ x, cell.toBinary64 = .ok x

/-- The number of a cell. -/
def number (cell : Value) : Binary64 := cell.toBinary64.toOption.getD .nan

/-- The numbers of a column. -/
def numbers (v : Value) : List Binary64 := v.cells.map number

/-- A column has a number for each cell. -/
@[simp] lemma length_numbers (v : Value) : v.numbers.length = v.cells.length :=
  List.length_map _

/-- A cell that is a number stands for it. -/
lemma number_eq {cell : Value} {x : Binary64} (h : cell.toBinary64 = .ok x) : cell.number = x := by
  rw [number, h]
  rfl

section Cell

variable {cell : Value} {x : Binary64} (h : cell.toBinary64 = .ok x)

include h in
/-- A number has no dimensions. -/
lemma layout_of_number : cell.layout = Layout.scalar := by
  cases cell with
  | list items => cases h
  | integer _ | real _ | truth _ | text _ | absent => rw [layout]

include h in
/-- A number is the same in a column and alone. -/
lemma toEntry_of_number : cell.toEntry = .ok x := by
  cases cell with
  | absent => cases h
  | integer _ | real _ | truth _ | text _ | list _ => exact h

end Cell

/-- What has no dimensions is its only single value. -/
lemma scalars_of_layout {cell : Value} (h : cell.layout = Layout.scalar) :
    cell.scalars = [cell] := by
  cases cell with
  | list items =>
    rw [layout] at h
    cases hlayouts : layouts items <;> simp [hlayouts, Layout.ofItems, Layout.scalar] at h
  | integer _ | real _ | truth _ | text _ | absent => rw [scalars]

/-- A list of items without dimensions has them as single values. -/
lemma itemScalars_of_layout {items : List Value}
    (h : ∀ cell ∈ items, cell.layout = Layout.scalar) : itemScalars items = items := by
  induction items with
  | nil => rw [itemScalars]
  | cons cell rest ih =>
    obtain ⟨hcell, hrest⟩ := List.forall_mem_cons.mp h
    rw [itemScalars, scalars_of_layout hcell, ih hrest]
    rfl

/-! ## The column of a value -/

section Items

variable {items : List Value} (h : ∀ cell ∈ items, ∃ x, cell.toBinary64 = .ok x)

include h in
/-- A list of numbers has one dimension. -/
lemma layout_list : (list items).layout = ⟨[items.length], false⟩ := by
  have hlayouts : layouts items = List.replicate items.length Layout.scalar := by
    induction items with
    | nil => rw [layouts]; rfl
    | cons cell rest ih =>
      obtain ⟨⟨x, hx⟩, hrest⟩ := List.forall_mem_cons.mp h
      rw [layouts, layout_of_number hx, ih hrest]
      rfl
  have hmeet (n : Nat) : (List.replicate n Layout.scalar).foldl Layout.meet Layout.scalar =
      Layout.scalar := by
    induction n with
    | zero => rfl
    | succ n ih => exact ih
  rw [layout, hlayouts]
  cases items with
  | nil => rfl
  | cons cell rest =>
    rw [List.length_cons, List.replicate_succ, Layout.ofItems, hmeet, List.length_replicate]
    rfl

include h in
/-- A list of numbers has its items as single values. -/
lemma itemScalars_of_numbers : itemScalars items = items :=
  itemScalars_of_layout fun cell hcell => (h cell hcell).elim fun _ hx => layout_of_number hx

include h in
/-- A list of numbers has a number for each item. -/
lemma toEntries_of_numbers : toEntries items = .ok (items.map number) := by
  induction items with
  | nil => rfl
  | cons cell rest ih =>
    obtain ⟨⟨x, hx⟩, hrest⟩ := List.forall_mem_cons.mp h
    rw [toEntries, toEntry_of_number hx, ih hrest, List.map_cons, number_eq hx]

end Items

/-- A value that is a column of numbers describes the column of these numbers. -/
lemma IsColumn.columnOfValue_eq {v : Value} (h : v.IsColumn) (name : String) :
    columnOfValue name v = .ok v.numbers := by
  have hshape : v.layout.ragged = false ∧ v.layout.dims.length ≤ 1 ∧ v.scalars = v.cells := by
    cases v with
    | list items =>
      have hitems : ∀ cell ∈ items, ∃ x, cell.toBinary64 = .ok x := h
      rw [layout_list hitems, scalars, itemScalars_of_numbers hitems]
      exact ⟨rfl, Nat.le_refl 1, rfl⟩
    | integer _ | real _ | truth _ | text _ | absent =>
      rw [layout, scalars]
      exact ⟨rfl, Nat.zero_le 1, rfl⟩
  obtain ⟨hragged, hdims, hscalars⟩ := hshape
  have hdeep : v.layout.tooDeep = false := by
    have hlimit : ¬ Layout.maxDims < v.layout.dims.length := by
      rw [Layout.maxDims]
      omega
    simp [Layout.tooDeep, hragged, hlimit]
  simp [columnOfValue, hdeep, hragged, hscalars, toEntries_of_numbers h, hdims, numbers]

/-! ## Values that describe a column -/

/-- What stands for a number in a column stands for its number: nothing stands for not-a-number. -/
lemma number_of_toEntry {cell : Value} {x : Binary64} (h : cell.toEntry = .ok x) :
    cell.number = x := by
  cases cell with
  | absent =>
    obtain rfl := Except.ok.inj h
    rfl
  | integer _ | real _ | truth _ | text _ | list _ => exact number_eq h

/-- A cell with a finite number is a number. -/
lemma exists_toBinary64_of_finite {cell : Value} (h : cell.number.isFinite = true) :
    ∃ x, cell.toBinary64 = .ok x ∧ x.isFinite = true := by
  rw [number] at h
  cases hcell : cell.toBinary64 with
  | error fault =>
    rw [hcell] at h
    cases h
  | ok x =>
    rw [hcell] at h
    exact ⟨x, rfl, h⟩

/-- Single values that stand for numbers stand for the numbers of the cells. -/
lemma eq_map_number_of_toEntries {items : List Value} {xs : List Binary64}
    (h : toEntries items = .ok xs) : xs = items.map number := by
  induction items generalizing xs with
  | nil =>
    obtain rfl := Except.ok.inj h
    rfl
  | cons cell rest ih =>
    rw [toEntries] at h
    cases hcell : cell.toEntry with
    | error fault => simp [hcell] at h
    | ok x =>
      cases hrest : toEntries rest with
      | error fault => simp [hcell, hrest] at h
      | ok ys =>
        obtain rfl : x :: ys = xs := by simpa [hcell, hrest] using h
        rw [List.map_cons, number_of_toEntry hcell, ih hrest]

/-- Items have no dimension in common and agree throughout only if none of them has dimensions. -/
lemma layout_eq_scalar_of_foldl_meet {first : Layout} {items : List Value}
    (h : (layouts items).foldl Layout.meet first = Layout.scalar) :
    first = Layout.scalar ∧ ∀ cell ∈ items, cell.layout = Layout.scalar := by
  induction items generalizing first with
  | nil =>
    rw [layouts] at h
    exact ⟨h, nofun⟩
  | cons cell rest ih =>
    rw [layouts, List.foldl_cons] at h
    obtain ⟨hmeet, hrest⟩ := ih h
    obtain ⟨dims, ragged⟩ := first
    rcases hcell : cell.layout with ⟨dims', ragged'⟩
    simp only [Layout.meet, hcell, Layout.scalar, Layout.mk.injEq, Bool.or_eq_false_iff,
      bne_eq_false_iff_eq] at hmeet
    -- neither is ragged and they have the same dimensions, so all of these are common
    obtain ⟨hdims, ⟨rfl, rfl⟩, rfl⟩ := hmeet
    obtain rfl : dims = [] := by
      cases dims with
      | nil => rfl
      | cons n ns => simp [Layout.commonBeginning] at hdims
    exact ⟨rfl, List.forall_mem_cons.mpr ⟨hcell, hrest⟩⟩

/-- A value of at most one dimension has its cells as single values. -/
lemma scalars_eq_cells {v : Value} (hragged : v.layout.ragged = false)
    (hdims : v.layout.dims.length ≤ 1) : v.scalars = v.cells := by
  cases v with
  | list items =>
    rw [layout] at hragged hdims
    rw [scalars, cells]
    cases items with
    | nil => rw [itemScalars]
    | cons cell rest =>
      rw [layouts, Layout.ofItems] at hragged hdims
      have hscalar : (layouts rest).foldl Layout.meet cell.layout = Layout.scalar := by
        generalize (layouts rest).foldl Layout.meet cell.layout = common at hragged hdims
        obtain ⟨dims, ragged⟩ := common
        simp_all [Layout.scalar]
      obtain ⟨hcell, hrest⟩ := layout_eq_scalar_of_foldl_meet hscalar
      exact itemScalars_of_layout (List.forall_mem_cons.mpr ⟨hcell, hrest⟩)
  | integer _ | real _ | truth _ | text _ | absent => rw [scalars]; rfl

/-- A value that describes a column describes that of the numbers of its cells. -/
lemma eq_numbers_of_columnOfValue {v : Value} {name : String} {column : List Binary64}
    (h : columnOfValue name v = .ok column) : column = v.numbers := by
  simp only [columnOfValue] at h
  cases hentries : toEntries v.scalars with
  | error fault =>
    simp only [hentries] at h
    split_ifs at h
  | ok xs =>
    simp only [hentries] at h
    split_ifs at h with hdeep hragged hdims
    obtain rfl := Except.ok.inj h
    rw [eq_map_number_of_toEntries hentries, scalars_eq_cells (by simpa using hragged) hdims]
    rfl

end Value

/-! ## Tables -/

namespace Environment

/-- All values of the data are columns of numbers. -/
def Tabular (data : Environment) : Prop := ∀ p ∈ data.entries, p.2.IsColumn

/-- Two columns of the data have different lengths, neither of which is one. -/
def Uneven (data : Environment) : Prop :=
  ∃ p ∈ data.entries, ∃ q ∈ data.entries,
    p.2.cells.length ≠ 1 ∧ q.2.cells.length ≠ 1 ∧ p.2.cells.length ≠ q.2.cells.length

/-- The number of rows of the data: the only length of a column other than one, or one if there is
none. -/
structure HasRows (data : Environment) (n : Nat) : Prop where
  /-- Each column has this length or length one. -/
  length_eq : ∀ p ∈ data.entries, p.2.cells.length = 1 ∨ p.2.cells.length = n
  /-- The number is one or the length of a column. -/
  attained : n = 1 ∨ ∃ p ∈ data.entries, p.2.cells.length = n

/-- The columns of numbers that the values of a table are. -/
def columns (data : Environment) : Bindings String (List Binary64) := data.map Value.numbers

variable {data data' : Environment} {m n : Nat}

/-- The columns of a table are prepared, and what is left is to bring them to a common length. -/
theorem Tabular.ofData_eq (h : data.Tabular) :
    Columns.ofData data = Columns.align data.columns := by
  have hentries (entries : List (String × Value)) (hcolumns : ∀ p ∈ entries, p.2.IsColumn) :
      columnsOfEntries entries = .ok (entries.map fun p => (p.1, p.2.numbers)) := by
    induction entries with
    | nil => rfl
    | cons p rest ih =>
      obtain ⟨hp, hrest⟩ := List.forall_mem_cons.mp hcolumns
      rw [columnsOfEntries, hp.columnOfValue_eq, ih hrest]
      rfl
  rw [Columns.ofData, hentries data.entries h]
  exact congrArg Columns.align data.columns.ofList_entries

/-! ## The number of rows -/

/-- Data have one number of rows only. -/
lemma HasRows.unique (hm : data.HasRows m) (hn : data.HasRows n) : m = n := by
  rcases hm.attained with rfl | ⟨p, hp, rfl⟩
  · rcases hn.attained with rfl | ⟨q, hq, rfl⟩
    · rfl
    · exact ((hm.length_eq q hq).elim id id).symm
  · rcases hn.length_eq p hp with hone | hlength
    · rcases hn.attained with rfl | ⟨q, hq, rfl⟩
      · exact hone
      · rcases hm.length_eq q hq with hq' | hq'
        · rw [hone, hq']
        · exact hq'.symm
    · exact hlength

/-- Data that are not uneven have a number of rows. -/
lemma exists_hasRows (h : ¬ data.Uneven) : ∃ n, data.HasRows n := by
  by_cases hone : ∀ p ∈ data.entries, p.2.cells.length = 1
  · exact ⟨1, fun p hp => .inl (hone p hp), .inl rfl⟩
  · push Not at hone
    obtain ⟨p, hp, hlength⟩ := hone
    refine ⟨p.2.cells.length, fun q hq => ?_, .inr ⟨p, hp, rfl⟩⟩
    by_contra hq'
    rw [not_or] at hq'
    exact h ⟨p, hp, q, hq, hlength, hq'.1, Ne.symm hq'.2⟩

/-- The order of the columns does not matter to the number of rows. -/
lemma HasRows.of_perm (h : data.HasRows n) (hperm : data.entries.Perm data'.entries) :
    data'.HasRows n where
  length_eq p hp := h.length_eq p (hperm.mem_iff.mpr hp)
  attained := h.attained.imp_right fun ⟨p, hp, hlength⟩ => ⟨p, hperm.mem_iff.mp hp, hlength⟩

/-- The order of the columns does not matter to uneven lengths. -/
lemma Uneven.of_perm (h : data.Uneven) (hperm : data.entries.Perm data'.entries) :
    data'.Uneven := by
  obtain ⟨p, hp, q, hq, hlengths⟩ := h
  exact ⟨p, hperm.mem_iff.mp hp, q, hperm.mem_iff.mp hq, hlengths⟩

end Environment

/-! ## Lengths other than one -/

/-- The proper lengths are the lengths of columns other than one. -/
lemma mem_properLengths {columns : List (String × List Binary64)} {k : Nat} :
    k ∈ properLengths columns ↔ k ≠ 1 ∧ ∃ c ∈ columns, c.2.length = k := by
  simp [properLengths, and_comm]

/-- The proper lengths are in increasing order. -/
lemma sortedLT_properLengths (columns : List (String × List Binary64)) :
    (properLengths columns).SortedLT := by
  let lengths := ((columns.map fun c => c.2.length).filter (· != 1)).eraseDups
  have hsorted : lengths.mergeSort.Pairwise fun a b => decide (a ≤ b) = true := by
    refine List.pairwise_mergeSort (fun a b c hab hbc => ?_) (fun a b => ?_) lengths
    · exact decide_eq_true ((of_decide_eq_true hab).trans (of_decide_eq_true hbc))
    · rw [Bool.or_eq_true, decide_eq_true_iff, decide_eq_true_iff]
      exact le_total a b
  have hnodup : lengths.mergeSort.Nodup :=
    (List.mergeSort_perm lengths _).nodup_iff.mpr (nodup_eraseDups _)
  rw [List.sortedLT_iff_pairwise]
  exact (hsorted.and hnodup).imp fun h => lt_of_le_of_ne (of_decide_eq_true h.1) h.2

namespace Columns

open Environment

variable {data data' : Environment} {n : Nat}

/-- The proper lengths of the columns of data in terms of the values. -/
lemma mem_properLengths_columns {k : Nat} :
    k ∈ properLengths data.columns.entries ↔ k ≠ 1 ∧ ∃ p ∈ data.entries, p.2.cells.length = k := by
  rw [mem_properLengths]
  simp [columns, Bindings.map]

/-- The proper lengths are determined by which lengths occur. -/
lemma properLengths_eq {lengths : List Nat} (hsorted : lengths.SortedLT)
    (h : ∀ k, k ∈ lengths ↔ k ≠ 1 ∧ ∃ p ∈ data.entries, p.2.cells.length = k) :
    properLengths data.columns.entries = lengths :=
  (sortedLT_properLengths _).eq_of_mem_iff hsorted fun k => by
    rw [mem_properLengths_columns, h]

/-- The order of the columns does not matter to the proper lengths. -/
lemma properLengths_of_perm (hperm : data.entries.Perm data'.entries) :
    properLengths data.columns.entries = properLengths data'.columns.entries :=
  properLengths_eq (sortedLT_properLengths _) fun k => by
    simp only [mem_properLengths_columns, hperm.mem_iff]

/-- Columns with a number of rows are brought to this length. -/
theorem align_of_hasRows (h : data.HasRows n) :
    align data.columns = .ok ⟨n, data.map fun v => broadcast n v.numbers⟩ := by
  have haligned : data.columns.map (broadcast n) = data.map fun v => broadcast n v.numbers :=
    Bindings.map_map _ _ data
  by_cases hone : n = 1
  · subst hone
    have hlengths : properLengths data.columns.entries = [] :=
      properLengths_eq List.Pairwise.nil.sortedLT fun k => by
        simp only [List.not_mem_nil, false_iff, not_and, not_exists]
        rintro hk p hp rfl
        exact hk ((h.length_eq p hp).elim id id)
    rw [align, hlengths, ← haligned]
  · have hlengths : properLengths data.columns.entries = [n] :=
      properLengths_eq (List.pairwise_singleton _ n).sortedLT fun k => by
        rw [List.mem_singleton]
        constructor
        · rintro rfl
          exact ⟨hone, h.attained.resolve_left hone⟩
        · rintro ⟨hk, p, hp, rfl⟩
          exact (h.length_eq p hp).resolve_left hk
    rw [align, hlengths, ← haligned]

/-- Uneven columns are not brought to a common length. -/
theorem align_of_uneven (h : data.Uneven) :
    align data.columns = .error (.lengths (properLengths data.columns.entries)) := by
  obtain ⟨p, hp, q, hq, hone, hone', hne⟩ := h
  have hmem := mem_properLengths_columns.mpr ⟨hone, p, hp, rfl⟩
  have hmem' := mem_properLengths_columns.mpr ⟨hone', q, hq, rfl⟩
  rw [align]
  split
  · next hnil =>
    rw [hnil] at hmem
    cases hmem
  · next n hsingle =>
    rw [hsingle, List.mem_singleton] at hmem hmem'
    exact absurd (hmem.trans hmem'.symm) hne
  · rfl

/-! ## Data that describe columns -/

/-- The bindings of a list that describe columns describe those of the numbers of their values. -/
lemma eq_map_numbers_of_columnsOfEntries {entries : List (String × Value)}
    {columns : List (String × List Binary64)} (h : columnsOfEntries entries = .ok columns) :
    columns = entries.map fun p => (p.1, p.2.numbers) := by
  induction entries generalizing columns with
  | nil =>
    obtain rfl := Except.ok.inj h
    rfl
  | cons p rest ih =>
    obtain ⟨name, v⟩ := p
    rw [columnsOfEntries] at h
    cases hcolumn : columnOfValue name v with
    | error fault => simp [hcolumn] at h
    | ok column =>
      cases hrest : columnsOfEntries rest with
      | error fault => simp [hcolumn, hrest] at h
      | ok others =>
        obtain rfl : (name, column) :: others = columns := by simpa [hcolumn, hrest] using h
        rw [List.map_cons, Value.eq_numbers_of_columnOfValue hcolumn, ih hrest]

/-- **Data that describe columns have a number of rows**, and the columns are the numbers of the
values brought to this length, also where a cell stands for not-a-number. -/
theorem exists_hasRows_of_ofData {columns : Columns} (h : ofData data = .ok columns) :
    ∃ n, data.HasRows n ∧ columns = ⟨n, data.map fun v => broadcast n v.numbers⟩ := by
  rw [ofData] at h
  cases hprepared : columnsOfEntries data.entries with
  | error fault => simp [hprepared] at h
  | ok prepared =>
    have hbuilt : Bindings.ofList prepared = data.columns := by
      rw [eq_map_numbers_of_columnsOfEntries hprepared]
      exact data.columns.ofList_entries
    simp only [hprepared, hbuilt] at h
    by_cases huneven : data.Uneven
    · rw [align_of_uneven huneven] at h
      cases h
    · obtain ⟨n, hrows⟩ := exists_hasRows huneven
      rw [align_of_hasRows hrows] at h
      exact ⟨n, hrows, (Except.ok.inj h).symm⟩

end Columns

end SumProduct
