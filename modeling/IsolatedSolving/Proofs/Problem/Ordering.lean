import IsolatedSolving.Proofs.Problem.Building

/-! Building in any order.

A plan says which rows and columns a problem is to have, and which coefficients. Rows are added in their
order and columns in theirs, but the two may be mixed, and whatever of a row and a column comes later
brings the coefficient that they share (`Plan.Order`). A row brings its coefficients by column, a column
in any order. After so many rows and columns the problem is the corner of the plan with just those
(`Plan.corner`), whichever way it was reached: a row grows the corner downwards (`corner_row`), a column
to the right (`corner_column`). So all orders build the same problem (`Plan.build_order`). -/
namespace IsolatedSolving

/-! ### Plans -/

/-- A row without its coefficients. At least one of its bounds restricts something. -/
structure BareRow where
  lower : Binary64
  upper : Binary64
  restricts : Problem.unrestricted lower upper = false

/-- A column without its coefficients. -/
structure BareColumn where
  kind : VariableKind
  objective : Binary64
  lower : Binary64
  upper : Binary64

/-- The rows and columns of a problem, and the coefficients that a row and a column share. -/
structure Plan where
  rows : List BareRow
  columns : List BareColumn
  coefficient : Nat → Nat → Option Binary64

/-- The numbers of columns and rows are below this, and so is the count of columns. -/
def numberLimit : Nat := 0x80000000

/-- Coefficients with the numbers of their columns, or of their rows. -/
abbrev Entries := List (Nat × Binary64)

/-- The numbers as they are passed to a call. -/
def Entries.numbers (es : Entries) : List Int32 := es.map fun e => Int32.ofNat e.1

def Entries.values (es : Entries) : List Binary64 := es.map Prod.snd

/-- The coefficients under the first numbers, in order. -/
def Entries.collect (coefficient : Nat → Option Binary64) (count : Nat) : Entries :=
  (List.range count).filterMap fun n => (coefficient n).map fun v => (n, v)

namespace Plan

variable (plan : Plan)

/-- The coefficients of a row in the first columns, by column. -/
def rowEntries (row columns : Nat) : Entries :=
  .collect (plan.coefficient row) columns

/-- The coefficients of a column in the first rows, by row. -/
def columnEntries (column rows : Nat) : Entries :=
  .collect (plan.coefficient · column) rows

/-- The first rows and columns of the plan as a problem. -/
def corner (rows columns : Nat) : Problem :=
  { Problem.empty with
    matrix :=
      { values := (List.range rows).map fun row => (plan.rowEntries row columns).values
        indices := (List.range rows).map fun row => (plan.rowEntries row columns).numbers
        columns := Int32.ofNat columns }
    objective := (plan.columns.take columns).map BareColumn.objective
    columnLower := (plan.columns.take columns).map BareColumn.lower
    columnUpper := (plan.columns.take columns).map BareColumn.upper
    rowLower := (plan.rows.take rows).map BareRow.lower
    rowUpper := (plan.rows.take rows).map BareRow.upper
    kinds := (plan.columns.take columns).map BareColumn.kind }

/-- The whole plan as a problem. -/
def problem : Problem := plan.corner plan.rows.length plan.columns.length

/-- The call that adds a row with these coefficients. -/
def addRow (row : BareRow) (entries : Entries) : Edit :=
  .between entries.numbers entries.values row.lower row.upper

/-- The call that adds a column with these coefficients. -/
def addColumn (column : BareColumn) (entries : Entries) : Edit :=
  .column column.kind column.objective column.lower column.upper entries.numbers entries.values

/-- Calls that complete the plan when so many rows and columns are there. A column brings its
coefficients in any order, as long as there are numbers for their rows. -/
inductive Order (plan : Plan) : Nat → Nat → List Edit → Prop
  | done : Order plan plan.rows.length plan.columns.length []
  | row {rows columns : Nat} {row : BareRow} {rest : List Edit}
    (hrow : plan.rows[rows]? = some row) (hrest : Order plan (rows + 1) columns rest) :
    Order plan rows columns (addRow row (plan.rowEntries rows columns) :: rest)
  | column {rows columns : Nat} {column : BareColumn} {entries : Entries} {rest : List Edit}
    (hcolumn : plan.columns[columns]? = some column)
    (hentries : entries.Perm (plan.columnEntries columns rows))
    (hnumbers : ∀ e ∈ entries, e.1 < numberLimit) (hrest : Order plan rows (columns + 1) rest) :
    Order plan rows columns (addColumn column entries :: rest)

end Plan

/-! ### Entries -/

namespace Entries

variable {coefficient : Nat → Option Binary64} {count n : Nat}

theorem collect_succ (coefficient : Nat → Option Binary64) (count : Nat) :
    collect coefficient (count + 1) =
      collect coefficient count ++ ((coefficient count).map fun v => (count, v)).toList := by
  rw [collect, List.range_succ, List.filterMap_append, ← collect]
  cases h : coefficient count with
  | none => rw [List.filterMap_cons_none (by rw [h]; rfl)]; rfl
  | some v => rw [List.filterMap_cons_some (by rw [h]; rfl)]; rfl

theorem lt_of_mem_collect {e : Nat × Binary64} (h : e ∈ collect coefficient count) : e.1 < count := by
  obtain ⟨n, hn, hsome⟩ := List.mem_filterMap.mp h
  obtain ⟨v, -, rfl⟩ := Option.map_eq_some_iff.mp hsome
  exact List.mem_range.mp hn

/-- There is at most one coefficient under a number. -/
theorem filter_collect (hn : n < count) :
    (collect coefficient count).filter (fun e => e.1 == n) =
      ((coefficient n).map fun v => (n, v)).toList := by
  induction count with
  | zero => exact absurd hn (Nat.not_lt_zero n)
  | succ count ih =>
    rw [collect_succ, List.filter_append]
    rcases Nat.lt_or_eq_of_le (Nat.le_of_lt_succ hn) with hlt | rfl
    · have hlast : (((coefficient count).map fun v => (count, v)).toList.filter
          fun e => e.1 == n) = [] := by
        refine List.filter_eq_nil_iff.mpr fun e he => ?_
        obtain ⟨v, -, rfl⟩ := Option.map_eq_some_iff.mp (Option.mem_toList.mp he)
        simpa using Nat.ne_of_gt hlt
      rw [ih hlt, hlast, List.append_nil]
    · have hothers : (collect coefficient n).filter (fun e => e.1 == n) = [] :=
        List.filter_eq_nil_iff.mpr fun e he => by simpa using Nat.ne_of_lt (lt_of_mem_collect he)
      rw [hothers, List.nil_append]
      exact List.filter_eq_self.mpr fun e he => by
        obtain ⟨v, -, rfl⟩ := Option.map_eq_some_iff.mp (Option.mem_toList.mp he)
        exact beq_self_eq_true n

theorem length_numbers (es : Entries) : es.numbers.length = es.values.length := by
  rw [numbers, values, List.length_map, List.length_map]

theorem toInt_number {n : Nat} (h : n < numberLimit) : (Int32.ofNat n).toInt = n :=
  Int32.toInt_ofNat_of_lt h

/-- What is passed for a number is its coefficients. -/
theorem valuesIn_zip {es : Entries} (h : ∀ e ∈ es, e.1 < numberLimit) (n : Nat) :
    SparseMatrix.valuesIn (es.numbers.zip es.values) n =
      (es.filter fun e => e.1 == n).map Prod.snd := by
  induction es with
  | nil => rfl
  | cons e es ih =>
    obtain ⟨he, hes⟩ := List.forall_mem_cons.mp h
    have hnat : (Int32.ofNat e.1).toInt.toNat = e.1 := by rw [toInt_number he, Int.toNat_natCast]
    have hcons : (numbers (e :: es)).zip (values (e :: es)) =
        (Int32.ofNat e.1, e.2) :: (numbers es).zip (values es) := rfl
    rw [hcons, SparseMatrix.valuesIn_cons, hnat, ih hes, List.filter_cons]
    by_cases hn : e.1 = n
    · rw [if_pos hn, if_pos (beq_iff_eq.mpr hn), List.map_cons]
    · rw [if_neg hn, if_neg (mt beq_iff_eq.mp hn)]

/-- Whatever the order in which they are passed, a number gets its one coefficient. -/
theorem valuesIn_perm {es : Entries} (hperm : es.Perm (collect coefficient count))
    (hnumbers : ∀ e ∈ es, e.1 < numberLimit) (hn : n < count) :
    SparseMatrix.valuesIn (es.numbers.zip es.values) n = (coefficient n).toList := by
  have hfilter := hperm.filter (fun e => e.1 == n)
  rw [filter_collect hn] at hfilter
  rw [valuesIn_zip hnumbers]
  cases hc : coefficient n with
  | none =>
    rw [hc] at hfilter
    rw [List.Perm.eq_nil hfilter]
    rfl
  | some v =>
    rw [hc] at hfilter
    rw [List.perm_singleton.mp hfilter]
    rfl

end Entries

namespace Plan

/-! ### Growing the corner -/

section Corner
variable {plan : Plan} {rows columns : Nat}

theorem map_take_succ {α β : Type} (f : α → β) {xs : List α} {n : Nat} {x : α} (h : xs[n]? = some x) :
    (xs.take (n + 1)).map f = (xs.take n).map f ++ [f x] := by
  rw [List.take_add_one, h, List.map_append]
  rfl

theorem mapIdx_map_range {α : Type} {n : Nat} {f g : Nat → List α} {added : Nat → List α}
    (h : ∀ i < n, f i ++ added i = g i) :
    ((List.range n).map f).mapIdx (fun i xs => xs ++ added i) = (List.range n).map g := by
  refine List.ext_getElem (by simp) fun i hi _ => ?_
  rw [List.length_mapIdx, List.length_map, List.length_range] at hi
  simp [h i hi]

/-- A row with its coefficients in the columns that are there comes below the corner. -/
theorem corner_row {row : BareRow} (hrow : plan.rows[rows]? = some row) :
    (plan.corner rows columns).withRow
        ⟨(plan.rowEntries rows columns).numbers, (plan.rowEntries rows columns).values, row.lower,
          row.upper⟩ =
      plan.corner (rows + 1) columns := by
  rw [Problem.withRow, corner, corner, map_take_succ BareRow.lower hrow,
    map_take_succ BareRow.upper hrow, List.range_succ, List.map_append, List.map_append]
  rfl

/-- A column with its coefficients in the rows that are there comes to the right of the corner. -/
theorem corner_column {column : BareColumn} {entries : Entries}
    (hcolumn : plan.columns[columns]? = some column)
    (hentries : entries.Perm (plan.columnEntries columns rows))
    (hnumbers : ∀ e ∈ entries, e.1 < numberLimit) :
    (plan.corner rows columns).withColumn
        ⟨column.kind, column.objective, column.lower, column.upper, entries.numbers,
          entries.values⟩ =
      plan.corner rows (columns + 1) := by
  have hentry (row : Nat) (hrow : row < rows) :
      SparseMatrix.valuesIn (entries.numbers.zip entries.values) row =
        (plan.coefficient row columns).toList :=
    Entries.valuesIn_perm hentries hnumbers hrow
  -- Each row gets the coefficient that is new to it, which has the largest number of all.
  have hvalues : ((List.range rows).map fun row => (plan.rowEntries row columns).values).mapIdx
        (fun row vs => vs ++ SparseMatrix.valuesIn (entries.numbers.zip entries.values) row) =
      (List.range rows).map fun row => (plan.rowEntries row (columns + 1)).values :=
    mapIdx_map_range fun row hrow => by
      rw [hentry row hrow, rowEntries, rowEntries, Entries.collect_succ, Entries.values,
        Entries.values, List.map_append]
      cases plan.coefficient row columns <;> rfl
  have hindices : ((List.range rows).map fun row => (plan.rowEntries row columns).numbers).mapIdx
        (fun row cs => cs ++ (SparseMatrix.valuesIn (entries.numbers.zip entries.values) row).map
          fun _ => Int32.ofNat columns) =
      (List.range rows).map fun row => (plan.rowEntries row (columns + 1)).numbers :=
    mapIdx_map_range fun row hrow => by
      rw [hentry row hrow, rowEntries, rowEntries, Entries.collect_succ, Entries.numbers,
        Entries.numbers, List.map_append]
      cases plan.coefficient row columns <;> rfl
  have hcount : Int32.ofNat columns + 1 = Int32.ofNat (columns + 1) := (Int32.ofNat_add ..).symm
  rw [Problem.withColumn, corner, corner, map_take_succ BareColumn.objective hcolumn,
    map_take_succ BareColumn.lower hcolumn, map_take_succ BareColumn.upper hcolumn,
    map_take_succ BareColumn.kind hcolumn, ← hvalues, ← hindices, ← hcount]
  rfl

end Corner

/-! ### One call -/

section Calls
variable {plan : Plan} {rows columns : Nat}

theorem columns_corner (h : columns < numberLimit) :
    (plan.corner rows columns).matrix.columns.toInt = columns :=
  Entries.toInt_number h

theorem rowCount_corner : (plan.corner rows columns).rowCount = rows := by
  simp [corner, Problem.rowCount, SparseMatrix.rowCount]

/-- The call for the next row succeeds. -/
theorem apply_addRow {row : BareRow} (hrow : plan.rows[rows]? = some row)
    (hcolumns : columns < numberLimit) :
    (addRow row (plan.rowEntries rows columns)).apply (plan.corner rows columns) =
      .ok (.row (some rows)) (plan.corner (rows + 1) columns) := by
  have hfits : (Row.mk (plan.rowEntries rows columns).numbers (plan.rowEntries rows columns).values
      row.lower row.upper).Fits (plan.corner rows columns).matrix := by
    refine ⟨Entries.length_numbers _, fun c hc => ?_⟩
    obtain ⟨e, he, rfl⟩ := List.mem_map.mp hc
    have hlt := Entries.lt_of_mem_collect he
    rw [Int32.le_iff_toInt_le, Int32.lt_iff_toInt_lt, columns_corner hcolumns,
      Entries.toInt_number (by omega)]
    exact ⟨Int.natCast_nonneg e.1, Int.ofNat_lt.mpr hlt⟩
  rw [addRow, Edit.apply, Edit.map_apply, Problem.addRow_eq hfits, row.restricts,
    if_neg Bool.false_ne_true, corner_row hrow, rowCount_corner]

/-- The next column fits, whether or not there is a number for it. -/
theorem fits_column (column : BareColumn) {entries : Entries}
    (hentries : entries.Perm (plan.columnEntries columns rows))
    (hnumbers : ∀ e ∈ entries, e.1 < numberLimit) :
    (Column.mk column.kind column.objective column.lower column.upper entries.numbers
      entries.values).Fits (plan.corner rows columns).matrix := by
  refine ⟨Entries.length_numbers _, fun r hr => ?_⟩
  obtain ⟨e, he, rfl⟩ := List.mem_map.mp hr
  have hlt : e.1 < rows := Entries.lt_of_mem_collect (hentries.mem_iff.mp he)
  have hcount : (plan.corner rows columns).matrix.rowCount = rows := rowCount_corner
  rw [hcount, Int32.le_iff_toInt_le, Entries.toInt_number (hnumbers e he)]
  exact ⟨Int.natCast_nonneg e.1, Int.ofNat_lt.mpr hlt⟩

theorem length_indices_corner :
    (plan.corner rows columns).matrix.indices.length = (plan.corner rows columns).rowCount := by
  rw [rowCount_corner]
  simp [corner]

/-- The call for the next column succeeds while there is a number for it. -/
theorem apply_addColumn {column : BareColumn} {entries : Entries}
    (hcolumn : plan.columns[columns]? = some column)
    (hentries : entries.Perm (plan.columnEntries columns rows))
    (hnumbers : ∀ e ∈ entries, e.1 < numberLimit) (hbelow : columns + 1 < numberLimit) :
    (addColumn column entries).apply (plan.corner rows columns) =
      .ok (.column (Int32.ofNat columns)) (plan.corner rows (columns + 1)) := by
  have hmax : (plan.corner rows columns).matrix.columns ≠ Int32.maxValue := by
    intro heq
    have hvalue : (plan.corner rows columns).matrix.columns.toInt = columns :=
      columns_corner (Nat.lt_of_succ_lt hbelow)
    rw [heq] at hvalue
    have hlargest : Int32.maxValue.toInt + 1 = numberLimit := rfl
    omega
  rw [addColumn, Edit.apply, Edit.map_apply,
    Problem.addColumn_eq (fits_column column hentries hnumbers) length_indices_corner hmax,
    corner_column hcolumn hentries hnumbers]
  rfl

/-- Once all numbers are taken, the call for the next column stops by a fault. -/
theorem apply_addColumn_full {column : BareColumn} {entries : Entries}
    (hentries : entries.Perm (plan.columnEntries columns rows))
    (hnumbers : ∀ e ∈ entries, e.1 < numberLimit) (hfull : columns + 1 = numberLimit) :
    ∃ p, (addColumn column entries).apply (plan.corner rows columns) =
      .error (.fault .countOverflow) p := by
  have hmax : (plan.corner rows columns).matrix.columns = Int32.maxValue := by
    have hvalue : (plan.corner rows columns).matrix.columns.toInt = columns :=
      columns_corner (hfull ▸ Nat.lt_succ_self columns)
    have hlargest : Int32.maxValue.toInt + 1 = numberLimit := rfl
    exact Int32.toInt_inj.mp (by omega)
  have hstops := Problem.addColumn_full
    (fits_column column hentries hnumbers) length_indices_corner hmax
  exact ⟨_, by rw [addColumn, Edit.apply, Edit.map_apply, hstops]⟩

end Calls

/-! ### All calls -/

section Runs
variable {plan : Plan} {rows columns : Nat} {edits : List Edit}

/-- Calls one after the other: what stops stops all, and what changed until then is kept. -/
theorem mapM_apply_cons (e : Edit) (rest : List Edit) (p : Problem) :
    (e :: rest).mapM Edit.apply p =
      match e.apply p with
      | .error stop q => .error stop q
      | .ok answer q =>
        match rest.mapM Edit.apply q with
        | .error stop r => .error stop r
        | .ok answers r => .ok (answer :: answers) r := by
  rw [List.mapM_cons]
  show EStateM.bind e.apply _ p = _
  rw [EStateM.bind]
  cases e.apply p with
  | error stop q => rfl
  | ok answer q =>
    show EStateM.bind (rest.mapM Edit.apply) _ q = _
    rw [EStateM.bind]
    cases hrest : rest.mapM Edit.apply q with
    | error stop r => simp only [hrest]
    | ok answers r =>
      simp only [hrest]
      rfl

theorem Order.le (h : plan.Order rows columns edits) : columns ≤ plan.columns.length := by
  induction h with
  | done => exact Nat.le_refl _
  | row _ _ ih => exact ih
  | column _ _ _ _ ih => exact Nat.le_of_succ_le ih

/-- From the corner that is there, any order builds the whole plan. -/
theorem Order.run (h : plan.Order rows columns edits) (hcount : plan.columns.length < numberLimit) :
    ∃ answers, edits.mapM Edit.apply (plan.corner rows columns) = .ok answers plan.problem := by
  induction h with
  | done => exact ⟨[], rfl⟩
  | row hrow hrest ih =>
    obtain ⟨answers, hanswers⟩ := ih
    have happly := apply_addRow hrow (Nat.lt_of_le_of_lt hrest.le hcount)
    exact ⟨_, by rw [mapM_apply_cons, happly]; simp only [hanswers]; rfl⟩
  | column hcolumn hentries hnumbers hrest ih =>
    obtain ⟨answers, hanswers⟩ := ih
    have happly := apply_addColumn hcolumn hentries hnumbers (Nat.lt_of_le_of_lt hrest.le hcount)
    exact ⟨_, by rw [mapM_apply_cons, happly]; simp only [hanswers]; rfl⟩

/-- With more columns than numbers, any order takes the last number and then stops. -/
theorem Order.stop (h : plan.Order rows columns edits) (hcount : numberLimit ≤ plan.columns.length)
    (hcolumns : columns < numberLimit) :
    ∃ p, edits.mapM Edit.apply (plan.corner rows columns) = .error (.fault .countOverflow) p := by
  induction h with
  | done => omega
  | row hrow hrest ih =>
    obtain ⟨p, hp⟩ := ih hcolumns
    exact ⟨p, by rw [mapM_apply_cons, apply_addRow hrow hcolumns]; simp only [hp]⟩
  | column hcolumn hentries hnumbers hrest ih =>
    rcases Nat.lt_or_eq_of_le hcolumns with hlt | hfull
    · obtain ⟨p, hp⟩ := ih hlt
      have happly := apply_addColumn hcolumn hentries hnumbers hlt
      exact ⟨p, by rw [mapM_apply_cons, happly]; simp only [hp]⟩
    · obtain ⟨p, hp⟩ := apply_addColumn_full hentries hnumbers hfull
      exact ⟨p, by rw [mapM_apply_cons, hp]⟩

end Runs

/-! ### Rows first, or columns first -/

section Passes
variable {plan : Plan} {rows columns : Nat} {rest : List Edit}

/-- Calls for all rows, each with its coefficients in the first columns. -/
def addRows (plan : Plan) (columns : Nat) : List Edit :=
  plan.rows.zipIdx.map fun (bare, r) => addRow bare (plan.rowEntries r columns)

/-- Calls for all columns, each with its coefficients in the first rows, by row. -/
def addColumns (plan : Plan) (rows : Nat) : List Edit :=
  plan.columns.zipIdx.map fun (bare, c) => addColumn bare (plan.columnEntries c rows)

/-- All columns without coefficients, and then row after row. -/
def rowByRow (plan : Plan) : List Edit := plan.addColumns 0 ++ plan.addRows plan.columns.length

/-- All rows without coefficients, and then column after column. -/
def columnByColumn (plan : Plan) : List Edit := plan.addRows 0 ++ plan.addColumns plan.rows.length

theorem Order.addRows (h : plan.Order plan.rows.length columns rest) :
    plan.Order 0 columns (plan.addRows columns ++ rest) := by
  -- Going back from the last row, the calls from some row on come before the rest.
  have hfrom (n r : Nat) (hn : r + n = plan.rows.length) : plan.Order r columns
      (((plan.rows.drop r).zipIdx r).map (fun (bare, r) => addRow bare (plan.rowEntries r columns)) ++
        rest) := by
    induction n generalizing r with
    | zero =>
      rw [List.drop_of_length_le (by omega), show r = plan.rows.length by omega]
      exact h
    | succ n ih =>
      have hlt : r < plan.rows.length := by omega
      rw [List.drop_eq_getElem_cons hlt, List.zipIdx_cons, List.map_cons, List.cons_append]
      exact .row (List.getElem?_eq_getElem hlt) (ih (r + 1) (by omega))
  exact hfrom plan.rows.length 0 (Nat.zero_add _)

theorem Order.addColumns (hrows : rows ≤ numberLimit) (h : plan.Order rows plan.columns.length rest) :
    plan.Order rows 0 (plan.addColumns rows ++ rest) := by
  have hfrom (n c : Nat) (hn : c + n = plan.columns.length) : plan.Order rows c
      (((plan.columns.drop c).zipIdx c).map
        (fun (bare, c) => addColumn bare (plan.columnEntries c rows)) ++ rest) := by
    induction n generalizing c with
    | zero =>
      rw [List.drop_of_length_le (by omega), show c = plan.columns.length by omega]
      exact h
    | succ n ih =>
      have hlt : c < plan.columns.length := by omega
      rw [List.drop_eq_getElem_cons hlt, List.zipIdx_cons, List.map_cons, List.cons_append]
      refine .column (List.getElem?_eq_getElem hlt) (.refl _) (fun e he => ?_)
        (ih (c + 1) (by omega))
      exact Nat.lt_of_lt_of_le (Entries.lt_of_mem_collect he) hrows
  exact hfrom plan.columns.length 0 (Nat.zero_add _)

theorem order_rowByRow (plan : Plan) : plan.Order 0 0 plan.rowByRow := by
  have hrows : plan.Order 0 plan.columns.length (plan.addRows plan.columns.length ++ []) :=
    Order.addRows .done
  rw [List.append_nil] at hrows
  exact Order.addColumns (Nat.zero_le _) hrows

theorem order_columnByColumn (h : plan.rows.length ≤ numberLimit) :
    plan.Order 0 0 plan.columnByColumn := by
  have hcolumns : plan.Order plan.rows.length 0 (plan.addColumns plan.rows.length ++ []) :=
    Order.addColumns h .done
  rw [List.append_nil] at hcolumns
  exact Order.addRows hcolumns

end Passes

/-- **The order of building does not matter.** Whatever the order in which the rows and columns of a plan
are added to an empty problem, all calls succeed as long as there is a number for each column, and build
the same problem; otherwise the call for the first column without a number stops all. Going row by row is
such an order, and so is going column by column if there is a number for each row. -/
theorem build_order (plan : Plan) {edits : List Edit} (h : plan.Order 0 0 edits) :
    (plan.columns.length < numberLimit →
      ∃ answers, edits.mapM Edit.apply .empty = .ok answers plan.problem) ∧
    (numberLimit ≤ plan.columns.length →
      ∃ p, edits.mapM Edit.apply .empty = .error (.fault .countOverflow) p) ∧
    plan.Order 0 0 plan.rowByRow ∧
    (plan.rows.length ≤ numberLimit → plan.Order 0 0 plan.columnByColumn) :=
  ⟨h.run, fun hcount => h.stop hcount (by decide), plan.order_rowByRow, order_columnByColumn⟩

/-- Two rows and three columns, with a coefficient in all places but one. -/
def gapped : Plan where
  rows := [⟨.zero, .one, by decide⟩, ⟨.negInfinity, .one, by decide⟩]
  columns := [⟨.integer, .one, .zero, .one⟩, ⟨.continuous, .zero, .zero, .infinity⟩,
    ⟨.binary, .one, .zero, .one⟩]
  coefficient
    | 0, 1 => none
    | _, 2 => some .negInfinity
    | _, _ => some .one

/-- A column, a row, a column without coefficients, the other row, and a column with the second of its
coefficients first. -/
def mixedCalls : List Edit :=
  [.column .integer .one .zero .one [] [],
    .between [0] [.one] .zero .one,
    .column .continuous .zero .zero .infinity [] [],
    .between [0, 1] [.one, .one] .negInfinity .one,
    .column .binary .one .zero .one [1, 0] [.negInfinity, .negInfinity]]

theorem order_mixedCalls : gapped.Order 0 0 mixedCalls := by
  have hfirst : gapped.columns[0]? = some ⟨.integer, .one, .zero, .one⟩ := rfl
  have hsecond : gapped.columns[1]? = some ⟨.continuous, .zero, .zero, .infinity⟩ := rfl
  have hthird : gapped.columns[2]? = some ⟨.binary, .one, .zero, .one⟩ := rfl
  have hswap : List.Perm [(1, .negInfinity), (0, .negInfinity)] (gapped.columnEntries 2 2) :=
    .swap _ _ _
  have hnone : List.Perm [] (gapped.columnEntries 0 0) := .refl _
  have hgap : List.Perm [] (gapped.columnEntries 1 1) := .refl _
  have hlast : gapped.Order 2 2 _ := .column hthird hswap (by decide) .done
  have hrow : gapped.Order 1 2 _ := .row rfl hlast
  exact .column hfirst hnone nofun (.row rfl (.column hsecond hgap nofun hrow))

theorem build_order_gapped :
    gapped.Order 0 0 mixedCalls ∧
    (∃ answers, mixedCalls.mapM Edit.apply .empty = .ok answers gapped.problem) ∧
    (∃ answers, gapped.rowByRow.mapM Edit.apply .empty = .ok answers gapped.problem) ∧
    ∃ answers, gapped.columnByColumn.mapM Edit.apply .empty = .ok answers gapped.problem := by
  obtain ⟨hmixed, -, hrows, hcolumns⟩ := build_order gapped order_mixedCalls
  have hcount : gapped.columns.length < numberLimit := by decide
  exact ⟨order_mixedCalls, hmixed hcount, (build_order gapped hrows).1 hcount,
    (build_order gapped (hcolumns (by decide))).1 hcount⟩

end Plan

end IsolatedSolving
