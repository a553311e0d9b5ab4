import IsolatedSolving.Proofs.Problem.Consistency
import IsolatedSolving.Solver.Basic

/-! Building keeps problems consistent.

Whichever way a row or a column is added, it `Fits` the problem or is refused, and a refusal changes
nothing. A row that fits goes behind the others unless it restricts nothing. A column that fits goes
behind the other columns, and its coefficients behind those that its rows have already, in the order in
which they are given, also when a row is named twice (`scatter_eq`). `Edited` lists these ways for one
edit. As long as there is a number for another column, each of them keeps the parts of a problem
together (`Built.after`), so they fit together after any edits of an empty problem
(`edited_build`). -/
namespace IsolatedSolving

/-- The state that a step leaves, whether it succeeds or not. -/
def stateOf {ε σ α : Type} : EStateM.Result ε σ α → σ
  | .ok _ s => s
  | .error _ s => s

/-! ### Rows and columns -/

/-- A row to add. -/
structure Row where
  columns : List Int32
  values : List Binary64
  lower : Binary64
  upper : Binary64

/-- A column to add. -/
structure Column where
  kind : VariableKind
  objective : Binary64
  lower : Binary64
  upper : Binary64
  rows : List Int32
  values : List Binary64

/-- One value for each of the columns, all of which are there. -/
def Row.Fits (r : Row) (m : SparseMatrix) : Prop :=
  r.columns.length = r.values.length ∧ ∀ c ∈ r.columns, 0 ≤ c ∧ c < m.columns

/-- One value for each of the rows, all of which are there. -/
def Column.Fits (c : Column) (m : SparseMatrix) : Prop :=
  c.rows.length = c.values.length ∧ ∀ r ∈ c.rows, 0 ≤ r ∧ r.toInt < m.rowCount

namespace SparseMatrix

/-- The values for a row, in their order. -/
def valuesIn (entries : List (Int32 × Binary64)) (row : Nat) : List Binary64 :=
  (entries.filter fun (r, _) => r.toInt.toNat == row).map Prod.snd

/-- The matrix with these entries of a column behind those that its rows have. -/
def withEntries (m : SparseMatrix) (column : Int32) (entries : List (Int32 × Binary64)) :
    SparseMatrix :=
  { m with
    indices := m.indices.mapIdx fun row cs => cs ++ (valuesIn entries row).map fun _ => column
    values := m.values.mapIdx fun row vs => vs ++ valuesIn entries row }

theorem withEntries_nil (m : SparseMatrix) (column : Int32) : m.withEntries column [] = m := by
  have hsame {α : Type} (xs : List (List α)) : xs.mapIdx (fun _ ys => ys ++ []) = xs := by
    refine List.ext_getElem? fun i => ?_
    rw [List.getElem?_mapIdx]
    cases xs[i]? <;> simp
  show SparseMatrix.mk (m.values.mapIdx fun _ vs => vs ++ []) (m.indices.mapIdx fun _ cs => cs ++ [])
    m.columns = m
  rw [hsame, hsame]

theorem valuesIn_cons (row : Int32) (value : Binary64) (rest : List (Int32 × Binary64)) (i : Nat) :
    valuesIn ((row, value) :: rest) i =
      if row.toInt.toNat = i then value :: valuesIn rest i else valuesIn rest i := by
  rw [valuesIn, List.filter_cons]
  by_cases hrow : row.toInt.toNat = i
  · rw [if_pos hrow, if_pos (beq_iff_eq.mpr hrow)]
    rfl
  · rw [if_neg hrow, if_neg (mt beq_iff_eq.mp hrow)]
    rfl

/-- Adding to all lists is adding to one of them first. -/
theorem mapIdx_modify {α : Type} (xs : List (List α)) (row : Nat) (x : α) {f g : Nat → List α}
    (hfg : ∀ i, f i = if row = i then x :: g i else g i) :
    (xs.modify row (· ++ [x])).mapIdx (fun i ys => ys ++ g i) =
      xs.mapIdx (fun i ys => ys ++ f i) := by
  refine List.ext_getElem? fun i => ?_
  rw [List.getElem?_mapIdx, List.getElem?_mapIdx, List.getElem?_modify, hfg]
  cases xs[i]? with
  | none => rfl
  | some ys =>
    by_cases hrow : row = i
    · simp [hrow]
    · simp [hrow]

/-- The first entry is stored before the others. -/
theorem withEntries_cons (m : SparseMatrix) (column row : Int32) (value : Binary64)
    (rest : List (Int32 × Binary64)) :
    (m.pushEntry row.toInt.toNat column value).withEntries column rest =
      m.withEntries column ((row, value) :: rest) := by
  have hvalues := mapIdx_modify m.values row.toInt.toNat value (valuesIn_cons row value rest)
  have hindices := mapIdx_modify m.indices row.toInt.toNat column
    (f := fun i => (valuesIn ((row, value) :: rest) i).map fun _ => column)
    (g := fun i => (valuesIn rest i).map fun _ => column) fun i => by
      rw [valuesIn_cons]
      split <;> rfl
  rw [withEntries, withEntries, ← hvalues, ← hindices]
  rfl

/-- **All entries of a column are stored,** if their rows are there. -/
theorem scatter_eq {m : SparseMatrix} (column : Int32) {entries : List (Int32 × Binary64)}
    (h : ∀ entry ∈ entries, entry.1.toInt.toNat < m.indices.length) :
    scatter column entries m = .ok () (m.withEntries column entries) := by
  induction entries generalizing m with
  | nil => rw [scatter, withEntries_nil]
  | cons entry rest ih =>
    obtain ⟨row, value⟩ := entry
    obtain ⟨hrow, hrest⟩ := List.forall_mem_cons.mp h
    have hlength : (m.pushEntry row.toInt.toNat column value).indices.length = m.indices.length :=
      List.length_modify _ _ _
    rw [scatter, if_pos hrow, ← withEntries_cons]
    -- A stored entry adds no row, so the rows of the others are there as before.
    exact ih fun entry hentry => hlength ▸ hrest entry hentry

/-- Entries of a column come behind those that are there, as many as values. -/
theorem exists_of_mem_withEntries {m : SparseMatrix} {column : Int32}
    {entries : List (Int32 × Binary64)} {row : List Int32 × List Binary64}
    (h : row ∈ (m.withEntries column entries).indices.zip (m.withEntries column entries).values) :
    ∃ old ∈ m.indices.zip m.values, ∃ added : List Binary64,
      row = (old.1 ++ added.map fun _ => column, old.2 ++ added) := by
  obtain ⟨i, hi⟩ := List.mem_iff_getElem?.mp h
  obtain ⟨hindices, hvalues⟩ := List.getElem?_zip_eq_some.mp hi
  rw [withEntries, List.getElem?_mapIdx, Option.map_eq_some_iff] at hindices hvalues
  obtain ⟨cs, hcs, hcolumns⟩ := hindices
  obtain ⟨vs, hvs, hcoefficients⟩ := hvalues
  exact ⟨(cs, vs), List.mem_of_getElem? (List.getElem?_zip_eq_some.mpr ⟨hcs, hvs⟩), valuesIn entries i,
    Prod.ext hcolumns.symm hcoefficients.symm⟩

theorem checkRow_ok_iff {m : SparseMatrix} {r : Row} :
    m.checkRow r.columns r.values = .ok () ↔ r.Fits m := by
  rw [checkRow, Row.Fits]
  split
  · next hlength => exact iff_of_false nofun fun h => hlength h.1
  · next hlength =>
    rw [and_iff_right (Decidable.not_not.mp hlength)]
    split
    · next c hfound =>
      refine iff_of_false nofun fun h => ?_
      have hbad := List.find?_some hfound
      obtain ⟨hsign, hlt⟩ := h c (List.mem_of_find?_eq_some hfound)
      simp [Int32.not_lt.mpr hsign, Int32.not_le.mpr hlt] at hbad
    · next hnone =>
      refine iff_of_true rfl fun c hc => ?_
      have hgood := List.find?_eq_none.mp hnone c hc
      simpa using hgood

theorem checkColumn_ok_iff {m : SparseMatrix} {c : Column} :
    m.checkColumn c.rows c.values = .ok () ↔ c.Fits m := by
  rw [checkColumn, Column.Fits]
  split
  · next hlength => exact iff_of_false nofun fun h => hlength h.1
  · next hlength =>
    rw [and_iff_right (Decidable.not_not.mp hlength)]
    split
    · next r hfound =>
      refine iff_of_false nofun fun h => ?_
      have hbad := List.find?_some hfound
      obtain ⟨hsign, hlt⟩ := h r (List.mem_of_find?_eq_some hfound)
      simp [Int32.not_lt.mpr hsign, Int.not_le.mpr hlt] at hbad
    · next hnone =>
      refine iff_of_true rfl fun r hr => ?_
      have hgood := List.find?_eq_none.mp hnone r hr
      simpa using hgood

section Column
variable {m : SparseMatrix} {c : Column}

theorem addColumn_refused (h : ¬c.Fits m) :
    ∃ e, addColumn c.rows c.values m = .error (.error e) m := by
  cases hcheck : m.checkColumn c.rows c.values with
  | error e => exact ⟨e, by simp only [addColumn, hcheck]⟩
  | ok _ => exact absurd (checkColumn_ok_iff.mp hcheck) h

/-- The rows that are named have lists of columns. -/
theorem lt_of_fits (h : c.Fits m) (hindices : m.indices.length = m.rowCount) :
    ∀ entry ∈ c.rows.zip c.values, entry.1.toInt.toNat < m.indices.length := by
  intro entry hentry
  obtain ⟨hsign, hlt⟩ := h.2 entry.1 (List.of_mem_zip hentry).1
  have hnat := Int32.le_iff_toInt_le.mp hsign
  have hzero : (0 : Int32).toInt = 0 := rfl
  omega

theorem addColumn_eq (h : c.Fits m) (hindices : m.indices.length = m.rowCount)
    (hbelow : m.columns ≠ Int32.maxValue) :
    addColumn c.rows c.values m = .ok m.columns
      { m.withEntries m.columns (c.rows.zip c.values) with columns := m.columns + 1 } := by
  simp only [addColumn, checkColumn_ok_iff.mpr h, scatter_eq _ (lt_of_fits h hindices), if_neg hbelow]

/-- Without a number for another column the coefficients are stored before the fault. -/
theorem addColumn_full (h : c.Fits m) (hindices : m.indices.length = m.rowCount)
    (hmax : m.columns = Int32.maxValue) :
    addColumn c.rows c.values m =
      .error (.fault .countOverflow) (m.withEntries m.columns (c.rows.zip c.values)) := by
  simp only [addColumn, checkColumn_ok_iff.mpr h, scatter_eq _ (lt_of_fits h hindices), if_pos hmax]

end Column

/-- Storing entries does not change the count of columns, whether it succeeds or not. -/
theorem columns_scatter (column : Int32) (entries : List (Int32 × Binary64)) (m : SparseMatrix) :
    (stateOf (scatter column entries m)).columns = m.columns := by
  induction entries generalizing m with
  | nil => rfl
  | cons entry rest ih =>
    rw [scatter]
    split
    · exact ih _
    · rfl

/-- Without a number for another column, the count of columns stays. -/
theorem columns_addColumn (c : Column) {m : SparseMatrix} (hmax : m.columns = Int32.maxValue) :
    (stateOf (addColumn c.rows c.values m)).columns = m.columns := by
  have hstored := columns_scatter m.columns (c.rows.zip c.values) m
  rw [addColumn]
  split
  · rfl
  · generalize scatter m.columns (c.rows.zip c.values) m = stored at hstored
    cases stored with
    | error stop m' => exact hstored
    | ok _ m' =>
      dsimp only
      rw [if_pos hmax]
      exact hstored

end SparseMatrix

namespace Problem

/-- The problem with a row behind its rows. -/
def withRow (p : Problem) (r : Row) : Problem :=
  { p with
    matrix := p.matrix.pushRow r.columns r.values
    rowLower := p.rowLower ++ [r.lower]
    rowUpper := p.rowUpper ++ [r.upper] }

/-- The problem with a column behind its columns. -/
def withColumn (p : Problem) (c : Column) : Problem :=
  { p with
    matrix :=
      { p.matrix.withEntries p.matrix.columns (c.rows.zip c.values) with
        columns := p.matrix.columns + 1 }
    objective := p.objective ++ [c.objective]
    columnLower := p.columnLower ++ [c.lower]
    columnUpper := p.columnUpper ++ [c.upper]
    kinds := p.kinds ++ [c.kind] }

section Adding
variable {p : Problem} {r : Row} {c : Column}

theorem addRow_refused (h : ¬r.Fits p.matrix) :
    ∃ e, addRow r.columns r.values r.lower r.upper p = .error (.error e) p := by
  rw [addRow]
  cases hcheck : p.matrix.checkRow r.columns r.values with
  | error e => exact ⟨e, rfl⟩
  | ok _ => exact absurd (SparseMatrix.checkRow_ok_iff.mp hcheck) h

theorem addRow_eq (h : r.Fits p.matrix) :
    addRow r.columns r.values r.lower r.upper p =
      if unrestricted r.lower r.upper then .ok none p else .ok (some p.rowCount) (p.withRow r) := by
  rw [addRow, SparseMatrix.checkRow_ok_iff.mpr h]
  rfl

theorem addColumn_refused (h : ¬c.Fits p.matrix) :
    ∃ e, addColumn c.kind c.objective c.lower c.upper c.rows c.values p = .error (.error e) p := by
  obtain ⟨e, hrefused⟩ := SparseMatrix.addColumn_refused h
  exact ⟨e, by simp only [addColumn, onMatrix, hrefused]⟩

theorem addColumn_eq (h : c.Fits p.matrix) (hindices : p.matrix.indices.length = p.rowCount)
    (hbelow : p.matrix.columns ≠ Int32.maxValue) :
    addColumn c.kind c.objective c.lower c.upper c.rows c.values p =
      .ok p.matrix.columns (p.withColumn c) := by
  simp only [addColumn, onMatrix, SparseMatrix.addColumn_eq h hindices hbelow]
  rfl

theorem addColumn_full (h : c.Fits p.matrix) (hindices : p.matrix.indices.length = p.rowCount)
    (hmax : p.matrix.columns = Int32.maxValue) :
    addColumn c.kind c.objective c.lower c.upper c.rows c.values p =
      .error (.fault .countOverflow)
        { p with matrix := p.matrix.withEntries p.matrix.columns (c.rows.zip c.values) } := by
  simp only [addColumn, onMatrix, SparseMatrix.addColumn_full h hindices hmax]

theorem columns_addRow (columns : List Int32) (values : List Binary64) (lower upper : Binary64)
    (p : Problem) :
    (stateOf (addRow columns values lower upper p)).matrix.columns = p.matrix.columns := by
  rw [addRow]
  split
  · rfl
  · split <;> rfl

theorem columns_addColumn (hmax : p.matrix.columns = Int32.maxValue) :
    (stateOf (addColumn c.kind c.objective c.lower c.upper c.rows c.values p)).matrix.columns =
      p.matrix.columns := by
  have hmatrix := SparseMatrix.columns_addColumn c hmax
  rw [addColumn, onMatrix]
  generalize SparseMatrix.addColumn c.rows c.values p.matrix = added at hmatrix
  cases added <;> exact hmatrix

end Adding

/-! ### Parts that fit together -/

theorem toInt_succ {x : Int32} (h : x < Int32.maxValue) : (x + 1).toInt = x.toInt + 1 := by
  have hlt : x.toInt < 2147483647 := Int32.lt_iff_toInt_lt.mp h
  have hle := Int32.le_toInt x
  rw [Int32.toInt_add]
  exact Int.bmod_eq_of_le (by show _ ≤ x.toInt + 1; omega) (by show x.toInt + 1 < _; omega)

/-- Positions of columns are numbers of columns. -/
theorem toInt_ofNat_column {p : Problem} (hcolumns : 0 ≤ p.matrix.columns) {i : Nat}
    (hi : i < p.columnCount) : (Int32.ofNat i).toInt = i := by
  have hbound := p.matrix.columns.toInt_lt
  rw [toInt_columns hcolumns] at hbound
  exact Int32.toInt_ofNat_of_lt (by omega)

namespace Consistent
variable {p : Problem} {r : Row} {c : Column}

theorem withRow (h : p.Consistent) (hr : r.Fits p.matrix) : (p.withRow r).Consistent := by
  have hzip : (p.matrix.indices ++ [r.columns]).zip (p.matrix.values ++ [r.values]) =
      p.matrix.indices.zip p.matrix.values ++ [(r.columns, r.values)] := List.zip_append h.indices
  have hsucc {α : Type} {xs : List α} (hxs : xs.length = p.rowCount) (x : α) :
      (xs ++ [x]).length = (p.withRow r).rowCount := by
    have hcount : (p.withRow r).rowCount = p.rowCount + 1 := List.length_append
    rw [List.length_append, hxs, hcount]
    rfl
  constructor
  case columns => exact h.columns
  case objective => exact h.objective
  case columnLower => exact h.columnLower
  case columnUpper => exact h.columnUpper
  case kinds => exact h.kinds
  case rowLower => exact hsucc h.rowLower _
  case rowUpper => exact hsucc h.rowUpper _
  case indices => exact hsucc h.indices _
  case start => exact h.start
  case entries =>
    intro row hrow
    rcases List.mem_append.mp (hzip ▸ hrow) with hold | hnew
    · exact h.entries row hold
    · rw [List.mem_singleton.mp hnew]
      exact ⟨hr.1, fun c hc => (namesColumn_iff h.columns).mpr (hr.2 c hc)⟩

theorem withColumn (h : p.Consistent) (hstart : p.start = [])
    (hbelow : p.matrix.columns < Int32.maxValue) : (p.withColumn c).Consistent := by
  have hnext : (p.withColumn c).matrix.columns.toInt = p.matrix.columns.toInt + 1 :=
    toInt_succ hbelow
  have hold := toInt_columns h.columns
  have hcolumns : 0 ≤ (p.withColumn c).matrix.columns := by
    rw [Int32.le_iff_toInt_le, hnext, hold]
    exact Int.natCast_nonneg (p.columnCount + 1)
  have hcount : (p.withColumn c).columnCount = p.columnCount + 1 := by
    have hnew := toInt_columns hcolumns
    omega
  have hsucc {α : Type} {xs : List α} (hxs : xs.length = p.columnCount) (x : α) :
      (xs ++ [x]).length = (p.withColumn c).columnCount := by
    rw [List.length_append, hxs, hcount]
    rfl
  have hrows : (p.withColumn c).rowCount = p.rowCount := List.length_mapIdx
  constructor
  case columns => exact hcolumns
  case objective => exact hsucc h.objective _
  case columnLower => exact hsucc h.columnLower _
  case columnUpper => exact hsucc h.columnUpper _
  case kinds => exact hsucc h.kinds _
  case rowLower => exact h.rowLower.trans hrows.symm
  case rowUpper => exact h.rowUpper.trans hrows.symm
  case indices => exact List.length_mapIdx.trans (h.indices.trans hrows.symm)
  case start => exact .inl hstart
  case entries =>
    intro row hrow
    obtain ⟨old, hmem, added, rfl⟩ := SparseMatrix.exists_of_mem_withEntries hrow
    obtain ⟨hlengths, hnames⟩ := h.entries old hmem
    refine ⟨by simp [hlengths], fun i hi => ?_⟩
    rw [namesColumn_iff hcolumns, Int32.lt_iff_toInt_lt, hnext]
    -- A row names its old columns, below the old count, and maybe the one that is new.
    rcases List.mem_append.mp hi with hi | hi
    · obtain ⟨hnonneg, hlt⟩ := (namesColumn_iff h.columns).mp (hnames i hi)
      have hlt := Int32.lt_iff_toInt_lt.mp hlt
      exact ⟨hnonneg, by omega⟩
    · obtain ⟨-, -, rfl⟩ := List.mem_map.mp hi
      exact ⟨h.columns, by omega⟩

end Consistent

end Problem

/-! ### Edits -/

/-- A row or a column to add. -/
inductive Part where
  | row (r : Row)
  | column (c : Column)

namespace Edit
open Problem (Consistent)

/-- What an edit is to add. -/
def part : Edit → Part
  | column kind objective lower upper rows values =>
    .column ⟨kind, objective, lower, upper, rows, values⟩
  | boolean objective rows values => .column ⟨.binary, objective, .zero, .one, rows, values⟩
  | dense values lower upper =>
    .row ⟨(List.range values.length).map Int32.ofNat, values, lower, upper⟩
  | between columns values lower upper => .row ⟨columns, values, lower, upper⟩
  | atMost columns values upper => .row ⟨columns, values, .negLargest, upper⟩
  | atLeast columns values lower => .row ⟨columns, values, lower, .largest⟩
  | equal columns values value => .row ⟨columns, values, value, value⟩

/-- What is to be added fits. With one coefficient for each variable, all that matters is how many
there are. -/
def Fits (p : Problem) : Edit → Prop
  | dense values _ _ => values.length = p.columnCount
  | e => match e.part with
    | .row r => r.Fits p.matrix
    | .column c => c.Fits p.matrix

/-- The problem after an edit, whether it succeeds or not. -/
def after (e : Edit) (p : Problem) : Problem := stateOf (e.apply p)

/-- What an edit of a problem comes to: it is refused, or skipped, or adds a row behind the rows or a
column behind the columns. -/
inductive Edited (p : Problem) (e : Edit) : EStateM.Result (Stop BuildError) Problem Added → Prop
  | refused {error : BuildError} (hfits : ¬e.Fits p) : Edited p e (.error (.error error) p)
  | skipped {r : Row} (hpart : e.part = .row r) (hfits : e.Fits p)
    (hbounds : Problem.unrestricted r.lower r.upper = true) : Edited p e (.ok (.row none) p)
  | row {r : Row} (hpart : e.part = .row r) (hfits : e.Fits p)
    (hbounds : Problem.unrestricted r.lower r.upper = false) :
    Edited p e (.ok (.row (some p.rowCount)) (p.withRow r))
  | column {c : Column} {index : Int32} (hpart : e.part = .column c) (hfits : e.Fits p)
    (hindex : index.toInt = p.columnCount) : Edited p e (.ok (.column index) (p.withColumn c))

section Edited
variable {p : Problem} {e : Edit}

theorem map_apply {α β : Type} {step : Building Problem α} (f : α → β) (p : Problem) :
    (f <$> step) p = match step p with
      | .ok a p' => .ok (f a) p'
      | .error stop p' => .error stop p' := by
  show EStateM.map f step p = _
  rw [EStateM.map]
  cases step p <;> rfl

theorem apply_column {c : Column} (hpart : e.part = .column c) :
    e.apply = .column <$>
      Problem.addColumn c.kind c.objective c.lower c.upper c.rows c.values := by
  cases e <;> cases hpart <;> rfl

/-- A row is added as every row is, if there are as many coefficients as there should be. -/
theorem apply_row {r : Row} (hpart : e.part = .row r) (hfits : e.Fits p) :
    e.apply p = (Added.row <$> Problem.addRow r.columns r.values r.lower r.upper) p := by
  cases e <;> cases hpart
  case dense values lower upper =>
    have hlength : ¬values.length ≠ p.columnCount := Decidable.not_not.mpr hfits
    rw [apply, map_apply, applyDense, if_neg hlength, map_apply]
  all_goals rfl

theorem fits_column {c : Column} (hpart : e.part = .column c) : e.Fits p ↔ c.Fits p.matrix := by
  cases e <;> cases hpart <;> rfl

/-- The columns that a row for all variables names are there. -/
theorem Fits.row {r : Row} (hpart : e.part = .row r) (hfits : e.Fits p)
    (hcolumns : 0 ≤ p.matrix.columns) : r.Fits p.matrix := by
  cases e <;> cases hpart
  case dense values lower upper =>
    refine ⟨by simp, fun c hc => (Problem.namesColumn_iff hcolumns).mp ?_⟩
    obtain ⟨i, hi, rfl⟩ := List.mem_map.mp hc
    have hlt : i < p.columnCount := hfits ▸ List.mem_range.mp hi
    rw [Problem.namesColumn, Bool.and_eq_true, decide_eq_true_eq, decide_eq_true_eq,
      Int32.le_iff_toInt_le, Problem.toInt_ofNat_column hcolumns hlt]
    exact ⟨Int.natCast_nonneg i, Int.ofNat_lt.mpr hlt⟩
  all_goals exact hfits

theorem refused_row {r : Row} (hpart : e.part = .row r) (hfits : ¬e.Fits p) :
    ∃ error, e.apply p = .error (.error error) p := by
  cases e <;> cases hpart
  case dense values lower upper =>
    have hlength : values.length ≠ p.columnCount := hfits
    exact ⟨_, by rw [apply, map_apply, applyDense, if_pos hlength]⟩
  all_goals
    obtain ⟨error, hrefused⟩ := Problem.addRow_refused hfits
    exact ⟨error, by rw [apply, map_apply, hrefused]⟩

theorem edited (h : p.Consistent) (hbelow : p.matrix.columns < Int32.maxValue) (e : Edit) :
    Edited p e (e.apply p) := by
  by_cases hfits : e.Fits p
  · cases hpart : e.part with
    | row r =>
      rw [apply_row hpart hfits, map_apply, Problem.addRow_eq (hfits.row hpart h.columns)]
      cases hbounds : Problem.unrestricted r.lower r.upper with
      | true => exact .skipped hpart hfits hbounds
      | false => exact .row hpart hfits hbounds
    | column c =>
      rw [apply_column hpart, map_apply, Problem.addColumn_eq ((fits_column hpart).mp hfits) h.indices
        (Int32.ne_of_lt hbelow)]
      exact .column hpart hfits (Problem.toInt_columns h.columns)
  · have hrefused : ∃ error, e.apply p = .error (.error error) p := by
      cases hpart : e.part with
      | row r => exact refused_row hpart hfits
      | column c =>
        obtain ⟨error, hrefused⟩ := Problem.addColumn_refused (mt (fits_column hpart).mpr hfits)
        exact ⟨error, by rw [apply_column hpart, map_apply, hrefused]⟩
    obtain ⟨error, hrefused⟩ := hrefused
    rw [hrefused]
    exact .refused hfits

end Edited

end Edit

/-! ### Problems that are built -/

/-- What holds of a problem that is built by edits: its parts fit together, and it has no start. -/
structure Problem.Built (p : Problem) : Prop where
  consistent : p.Consistent
  start : p.start = []

theorem Problem.built_empty : Built .empty := ⟨validate_eq_ok_iff.mp rfl, rfl⟩

namespace Edit
variable {p : Problem}

/-- An edit keeps the parts together, also one that fails. -/
theorem Built.after (h : p.Built) (hbelow : p.matrix.columns < Int32.maxValue) (e : Edit) :
    (e.after p).Built := by
  have hedited := edited h.consistent hbelow e
  rw [Edit.after]
  generalize e.apply p = result at hedited
  cases hedited with
  | refused => exact h
  | skipped => exact h
  | row hpart hfits => exact ⟨h.consistent.withRow (hfits.row hpart h.consistent.columns), h.start⟩
  | column => exact ⟨h.consistent.withColumn h.start hbelow, h.start⟩

theorem stateOf_map {α β : Type} {step : Building Problem α} (f : α → β) (p : Problem) :
    stateOf ((f <$> step) p) = stateOf (step p) := by
  rw [map_apply]
  cases step p <;> rfl

/-- Without a number for another column, none is added. -/
theorem columns_after (hmax : p.matrix.columns = Int32.maxValue) (e : Edit) :
    (e.after p).matrix.columns = p.matrix.columns := by
  cases hpart : e.part with
  | column c =>
    rw [after, apply_column hpart, stateOf_map]
    exact Problem.columns_addColumn hmax
  | row r =>
    by_cases hfits : e.Fits p
    · rw [after, apply_row hpart hfits, stateOf_map]
      exact Problem.columns_addRow _ _ _ _ _
    · obtain ⟨error, hrefused⟩ := refused_row hpart hfits
      rw [after, hrefused]
      rfl

/-- If there is a number for another column after an edit, there was one before. -/
theorem below_of_after {e : Edit} (h : (e.after p).matrix.columns < Int32.maxValue) :
    p.matrix.columns < Int32.maxValue := by
  refine Int32.lt_of_le_of_ne p.matrix.columns.le_maxValue fun hmax => ?_
  rw [columns_after hmax, hmax] at h
  exact Int32.lt_irrefl h

/-- The problem after edits. -/
def afterAll (edits : List Edit) (p : Problem) : Problem := edits.foldl (fun p e => e.after p) p

theorem below_of_afterAll {edits : List Edit}
    (h : (afterAll edits p).matrix.columns < Int32.maxValue) : p.matrix.columns < Int32.maxValue := by
  induction edits generalizing p with
  | nil => exact h
  | cons e rest ih => exact below_of_after (ih h)

/-- So do any edits. -/
theorem Built.afterAll (h : p.Built) {edits : List Edit}
    (hbelow : (afterAll edits p).matrix.columns < Int32.maxValue) : (afterAll edits p).Built := by
  induction edits generalizing p with
  | nil => exact h
  | cons e rest ih =>
    -- The count never leaves its largest value, so there was a number before each edit.
    have hrest : (Edit.afterAll rest (e.after p)).matrix.columns < Int32.maxValue := hbelow
    exact ih (Built.after h (below_of_after (below_of_afterAll hrest)) e) hrest

/-- With either kind of solver, an edit changes the problem and nothing else. -/
theorem solver_edit (e : Edit) (s : Solver) : (s.edit e).2 = s.withProblem (e.after s.problem) := by
  rw [Solver.edit, after]
  cases e.apply s.problem <;> rfl

/-- The problem that edits build. -/
def build (edits : List Edit) : Problem := afterAll edits .empty

/-- **Building keeps a problem valid and is all or nothing.** After any edits, of which some may have
failed, and while there is a number for another column, the problem is accepted. The next edit is
refused and changes nothing, or skipped and changes nothing, or it adds just its row or its column
behind what is there, under the next number; and the problem is accepted again. With either kind of
solver the edit comes to the same, and nothing but the problem is changed. -/
theorem edited_build {done : List Edit} (hbelow : (build done).matrix.columns < Int32.maxValue)
    (e : Edit) :
    (build done).validate = .ok () ∧ Edited (build done) e (e.apply (build done)) ∧
    (build (done ++ [e])).validate = .ok () ∧
    ∀ s : Solver, s.problem = build done →
      (s.edit e).2 = s.withProblem (build (done ++ [e])) ∧
      ∀ added, (s.edit e).1 = .ok added ↔
        e.apply (build done) = .ok added (build (done ++ [e])) := by
  have hbuilt : (build done).Built := Built.afterAll Problem.built_empty hbelow
  have hnext : build (done ++ [e]) = e.after (build done) := List.foldl_append
  refine ⟨Problem.validate_eq_ok_iff.mpr hbuilt.consistent, edited hbuilt.consistent hbelow e, ?_, ?_⟩
  · rw [hnext]
    exact Problem.validate_eq_ok_iff.mpr (Built.after hbuilt hbelow e).consistent
  · intro s hs
    rw [hnext]
    refine ⟨hs ▸ solver_edit e s, fun added => ?_⟩
    rw [Solver.edit, after, hs]
    cases e.apply (build done) with
    | ok a p => simp [stateOf]
    | error stop p => simp

/-- A column after one that was refused, with two coefficients in the same row. -/
theorem edited_build_twice :
    ∃ done e, (build done).matrix.indices = [[0]] ∧ (build done).validate = .ok () ∧
      e.apply (build done) = .ok (.column 1) (build (done ++ [e])) ∧
      (build (done ++ [e])).matrix.indices = [[0, 1, 1]] ∧ (build (done ++ [e])).validate = .ok () := by
  have hbelow : (build [.boolean .one [] [], .atLeast [0] [.one] .one,
      .boolean .one [1] [.one]]).matrix.columns < Int32.maxValue := by decide
  obtain ⟨hbefore, -, hafter, -⟩ := edited_build hbelow (.boolean .one [0, 0] [.one, .zero])
  exact ⟨_, _, rfl, hbefore, rfl, rfl, hafter⟩

end Edit

end IsolatedSolving
