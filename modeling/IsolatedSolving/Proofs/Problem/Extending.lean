import IsolatedSolving.Proofs.Problem.Building

/-! Another column of a matrix.

A column that fits brings its coefficients to the ends of its rows, in the order in which they are given
(`Receives`). One that does not fit is refused, and the matrix stays as it was. So a call does all or
nothing as long as there is a number for the column. The coefficients are stored before the columns are
counted: behind the last number the count stops the call by a fault, and they stay in the matrix under
the number of a column that it does not have (`addColumn_extends`). -/
namespace IsolatedSolving.SparseMatrix

/-- Columns and values are as many, in the whole and in each row, and the columns can be counted. -/
structure Shaped (m : SparseMatrix) : Prop where
  columns : 0 ≤ m.columns
  rows : m.indices.length = m.rowCount
  lengths : ∀ row ∈ m.indices.zip m.values, row.1.length = row.2.length

/-- The second matrix has the entries of the first, and in each row behind them those of the column, in
their order and under the next number. -/
structure Receives (m : SparseMatrix) (c : Column) (after : SparseMatrix) : Prop where
  rowCount : after.rowCount = m.rowCount
  rows : after.indices.length = after.rowCount
  lengths : ∀ row ∈ after.indices.zip after.values, row.1.length = row.2.length
  entries : ∀ row, after.entries row =
    m.entries row ++ (valuesIn (c.rows.zip c.values) row).map fun value => (m.columns, value)

/-- What adding a column comes to: it is refused, or added under the next number, or there is no such
number and its coefficients are stored all the same. -/
inductive Extended (m : SparseMatrix) (c : Column) :
    EStateM.Result (Stop BuildError) SparseMatrix Int32 → Prop
  | refused {error : BuildError} (hfits : ¬c.Fits m) : Extended m c (.error (.error error) m)
  | added {after : SparseMatrix} (hfits : c.Fits m) (hbelow : m.columns < Int32.maxValue)
    (hreceives : m.Receives c after) (hshaped : after.Shaped)
    (hcolumns : after.columns.toInt = m.columns.toInt + 1) : Extended m c (.ok m.columns after)
  | overfull {after : SparseMatrix} (hfits : c.Fits m) (hfull : m.columns = Int32.maxValue)
    (hreceives : m.Receives c after) (hcolumns : after.columns = m.columns) :
    Extended m c (.error (.fault .countOverflow) after)

section Columns
variable {m after : SparseMatrix} {c : Column}

/-- A row of a matrix in shape, or beyond its rows. -/
theorem Shaped.length_row (h : m.Shaped) (row : Nat) :
    (m.indices.getD row []).length = (m.values.getD row []).length := by
  rw [List.getD_eq_getElem?_getD, List.getD_eq_getElem?_getD]
  by_cases hrow : row < m.rowCount
  · obtain ⟨columns, hcolumns⟩ : ∃ columns, m.indices[row]? = some columns :=
      ⟨_, List.getElem?_eq_getElem (h.rows.symm ▸ hrow)⟩
    obtain ⟨values, hvalues⟩ : ∃ values, m.values[row]? = some values :=
      ⟨_, List.getElem?_eq_getElem hrow⟩
    have hmem : (columns, values) ∈ m.indices.zip m.values :=
      List.mem_of_getElem? (List.getElem?_zip_eq_some.mpr ⟨hcolumns, hvalues⟩)
    rw [hcolumns, hvalues]
    exact h.lengths _ hmem
  · rw [List.getElem?_eq_none (h.rows.symm ▸ Nat.le_of_not_lt hrow),
      List.getElem?_eq_none (Nat.le_of_not_lt hrow)]
    rfl

/-- Rows that are not there have no coefficients in a column that fits. -/
theorem Shaped.valuesIn_of_le (h : m.Shaped) (hfits : c.Fits m) {row : Nat} (hrow : m.rowCount ≤ row) :
    valuesIn (c.rows.zip c.values) row = [] := by
  have hother : ∀ entry ∈ c.rows.zip c.values, entry.1.toInt.toNat ≠ row := fun entry hentry =>
    Nat.ne_of_lt (Nat.lt_of_lt_of_le (h.rows ▸ lt_of_fits hfits h.rows entry hentry) hrow)
  rw [valuesIn, List.filter_eq_nil_iff.mpr fun entry hentry => by simpa using hother entry hentry]
  rfl

/-- What is put behind the lists is put behind each of them. -/
theorem getD_mapIdx_append {α : Type} (xs : List (List α)) (f : Nat → List α) (row : Nat)
    (h : xs.length ≤ row → f row = []) :
    (xs.mapIdx fun i ys => ys ++ f i).getD row [] = xs.getD row [] ++ f row := by
  rw [List.getD_eq_getElem?_getD, List.getD_eq_getElem?_getD, List.getElem?_mapIdx]
  cases hget : xs[row]? with
  | none =>
    rw [h (List.getElem?_eq_none_iff.mp hget)]
    rfl
  | some ys => rfl

theorem receives_withEntries (h : m.Shaped) (hfits : c.Fits m) :
    m.Receives c (m.withEntries m.columns (c.rows.zip c.values)) where
  rowCount := List.length_mapIdx
  rows := List.length_mapIdx.trans (h.rows.trans List.length_mapIdx.symm)
  lengths := by
    intro row hrow
    obtain ⟨old, hmem, added, rfl⟩ := exists_of_mem_withEntries hrow
    rw [List.length_append, List.length_append, List.length_map, h.lengths old hmem]
  entries row := by
    have hvalues := getD_mapIdx_append m.values (valuesIn (c.rows.zip c.values)) row
      (h.valuesIn_of_le hfits)
    have hindices := getD_mapIdx_append m.indices
      (fun i => (valuesIn (c.rows.zip c.values) i).map fun _ => m.columns) row fun hle => by
        rw [h.valuesIn_of_le hfits (h.rows ▸ hle)]
        rfl
    have hadded (values : List Binary64) : (values.map fun _ => m.columns).zip values =
        values.map fun value => (m.columns, value) :=
      (congrArg _ (List.map_id values).symm).trans List.zip_map'
    rw [entries, withEntries, hvalues, hindices, List.zip_append (h.length_row row), hadded]
    rfl

/-- A column with coefficients leaves no matrix as it was. -/
theorem Receives.ne (h : m.Receives c after) (hfits : c.Fits m) (hrows : c.rows ≠ []) :
    after ≠ m := by
  rintro rfl
  obtain ⟨row, rest, hcons⟩ := List.exists_cons_of_ne_nil hrows
  obtain ⟨value, others, hvalues⟩ := List.exists_cons_of_length_pos
    (Nat.lt_of_lt_of_eq (List.length_pos_iff.mpr hrows) hfits.1)
  have hentries := List.self_eq_append_right.mp (h.entries row.toInt.toNat)
  rw [hcons, hvalues, List.zip_cons_cons, valuesIn_cons, if_pos rfl] at hentries
  cases hentries

/-- **Another column is all or nothing up to the last number.** A column that does not fit is refused,
and one that fits is added under the next number. Only if there is no such number the call stops by a
fault. A call that does not succeed leaves the matrix as it was, but for one case: behind the last
number, a column that fits leaves all its coefficients, if it has any. -/
theorem addColumn_extends (h : m.Shaped) (c : Column) :
    Extended m c (addColumn c.rows c.values m) ∧
    ((∃ stop after, addColumn c.rows c.values m = .error stop after ∧ after ≠ m) ↔
      c.Fits m ∧ m.columns = Int32.maxValue ∧ c.rows ≠ []) := by
  by_cases hfits : c.Fits m
  · have hreceives := receives_withEntries h hfits
    by_cases hfull : m.columns = Int32.maxValue
    · rw [addColumn_full hfits h.rows hfull]
      refine ⟨.overfull hfits hfull hreceives rfl, fun ⟨_, _, hstop, hne⟩ => ⟨hfits, hfull, ?_⟩,
        fun ⟨_, _, hrows⟩ => ⟨_, _, rfl, hreceives.ne hfits hrows⟩⟩
      rintro hnone
      obtain ⟨rfl, rfl⟩ := EStateM.Result.error.inj hstop
      rw [hnone] at hne
      exact hne (withEntries_nil m m.columns)
    · have hbelow := Int32.lt_of_le_of_ne m.columns.le_maxValue hfull
      have hnext := Problem.toInt_succ hbelow
      rw [addColumn_eq hfits h.rows hfull]
      refine ⟨.added hfits hbelow ⟨hreceives.rowCount, hreceives.rows, hreceives.lengths,
        hreceives.entries⟩ ⟨?_, hreceives.rows, hreceives.lengths⟩ hnext, ?_⟩
      · have hsign := Int32.le_iff_toInt_le.mp h.columns
        rw [Int32.le_iff_toInt_le]
        show _ ≤ (m.columns + 1).toInt
        omega
      · exact iff_of_false (fun ⟨_, _, hstop, _⟩ => nomatch hstop) fun ⟨_, hmax, _⟩ => hfull hmax
  · obtain ⟨error, hrefused⟩ := addColumn_refused hfits
    rw [hrefused]
    refine ⟨.refused hfits, iff_of_false ?_ fun hcase => hfits hcase.1⟩
    rintro ⟨stop, after, hstop, hne⟩
    obtain ⟨-, rfl⟩ := EStateM.Result.error.inj hstop
    exact hne rfl

end Columns

/-! ### At the last number -/

/-- A matrix of a row without coefficients that has so many columns. -/
def barren (columns : Int32) : SparseMatrix := ⟨[[]], [[]], columns⟩

/-- A column with these values, all in the first row. -/
def stacked (values : List Binary64) : Column :=
  ⟨.continuous, .zero, .zero, .one, values.map fun _ => 0, values⟩

theorem shaped_barren {columns : Int32} (h : 0 ≤ columns) : (barren columns).Shaped :=
  ⟨h, rfl, by simp [barren]⟩

/-- The column with the last number is added, also with two coefficients in one row. -/
theorem addColumn_extends_last :
    ∃ after, addColumn [0, 0] [.one, .zero] (barren 2147483646) = .ok 2147483646 after ∧
      after.Shaped ∧ after.columns = Int32.maxValue ∧
      after.entries 0 = [(2147483646, .one), (2147483646, .zero)] := by
  have hshaped : (barren 2147483646).Shaped := shaped_barren (by decide)
  obtain ⟨hextended, -⟩ := addColumn_extends hshaped (stacked [.one, .zero])
  have hfits : (stacked [.one, .zero]).Fits (barren 2147483646) := checkColumn_ok_iff.mp rfl
  generalize hresult : addColumn (stacked [.one, .zero]).rows (stacked [.one, .zero]).values
    (barren 2147483646) = result at hextended
  cases hextended with
  | refused hnot => exact absurd hfits hnot
  | overfull _ hfull => exact absurd hfull (by decide)
  | added _ _ hreceives hafter hcolumns =>
    exact ⟨_, hresult, hafter, Int32.toInt_inj.mp hcolumns, hreceives.entries 0⟩

/-- The next column is neither added nor refused: its coefficient stays in the row, in a column that
the matrix does not have. -/
theorem barren_overfull :
    (barren Int32.maxValue).Shaped ∧ (stacked [.one]).Fits (barren Int32.maxValue) ∧
    ∃ after, addColumn [0] [.one] (barren Int32.maxValue) = .error (.fault .countOverflow) after ∧
      after ≠ barren Int32.maxValue ∧ after.entries 0 = [(Int32.maxValue, .one)] ∧
      after.columns = Int32.maxValue :=
  ⟨shaped_barren (by decide), checkColumn_ok_iff.mp rfl, _, rfl, by decide, rfl, rfl⟩

end IsolatedSolving.SparseMatrix
