import IsolatedSolving.Linear.Model
import IsolatedSolving.Proofs.Wire.Sizes

/-! The model of a problem whose parts fit together.

Building a model looks into seven arrays and into the rows of two of them. On a problem whose parts fit
together each look finds its entry, and the model is what reading the problem off gives
(`Model.ofProblem_eq`): the columns in order, and for each row the restrictions of the sum of its terms.
With the check of a start and the activities of the rows this is what `validate` is there to make safe:
`validate_suffices`. -/
namespace IsolatedSolving

/-- The terms of a row of the matrix, with the columns as positions. -/
def SparseMatrix.terms (m : SparseMatrix) (row : Nat) : List (Nat × Binary64) :=
  (m.entries row).map fun (c, v) => (c.toInt.toNat, v)

namespace Linear

/-! ### Reading a problem off -/

/-- The columns of the problem as columns of the model. -/
def columnsIn (p : Problem) : List Column :=
  (p.columnLower.zip (p.columnUpper.zip p.kinds)).map
    fun (lower, upper, kind) => Column.between lower upper kind

/-- The rows of the model for a row of the problem. -/
def rowsAt (p : Problem) (row : Nat) : List Row :=
  Row.between (p.matrix.terms row) (p.rowLower.getD row .zero) (p.rowUpper.getD row .zero)

/-- Steps that all come through give their results in order. -/
theorem mapM_ok {ε α β : Type} {xs : List α} {f : α → Except ε β} {g : α → β}
    (h : ∀ x ∈ xs, f x = .ok (g x)) : xs.mapM f = .ok (xs.map g) := by
  induction xs with
  | nil => rfl
  | cons x xs ih =>
    rw [List.mapM_cons, h x List.mem_cons_self, ih fun y hy => h y (List.mem_cons_of_mem x hy)]
    rfl

variable {p : Problem}

theorem length_columnsIn (h : p.Consistent) : (columnsIn p).length = p.columnCount := by
  simp [columnsIn, h.columnLower, h.columnUpper, h.kinds]

theorem columnsOf_eq (h : p.Consistent) : columnsOf p = .ok (columnsIn p) := by
  have hspace : ¬1 <<< 60 ≤ p.columnCount := by
    have hle := p.columnCount_le h.columns
    have hlargest : Wire.Piece.largestCount = 2147483647 := rfl
    omega
  have hcomplete : ([p.columnLower.length, p.columnUpper.length, p.kinds.length].foldl Nat.min
      p.columnCount) = p.columnCount := by
    simp [h.columnLower, h.columnUpper, h.kinds]
  simp only [columnsOf, hcomplete, if_neg hspace, if_neg (Nat.lt_irrefl _), List.map_take]
  exact congrArg Except.ok (List.take_of_length_le (Nat.le_of_eq (length_columnsIn h)))

theorem entries_eq {row : Nat} {indices : List Int32} {values : List Binary64}
    (hindices : p.matrix.indices[row]? = some indices)
    (hvalues : p.matrix.values[row]? = some values) :
    p.matrix.entries row = indices.zip values := by
  rw [SparseMatrix.entries, List.getD_eq_getElem?_getD, List.getD_eq_getElem?_getD, hindices, hvalues]
  rfl

theorem termsOf_eq (h : p.Consistent) {row : Nat} (hrow : row < p.rowCount) :
    termsOf p row = .ok (p.matrix.terms row) := by
  obtain ⟨indices, values, hindices, hvalues, -, hnames⟩ := h.exists_row hrow
  simp only [termsOf, hindices, hvalues, SparseMatrix.terms, entries_eq hindices hvalues]
  refine mapM_ok fun (c, v) hmem => ?_
  rw [if_pos (hnames c (List.of_mem_zip hmem).1)]
  rfl

theorem rowsOf_eq (h : p.Consistent) {row : Nat} (hrow : row < p.rowCount) :
    rowsOf p row = .ok (rowsAt p row) := by
  have hl := List.getElem?_eq_getElem (h.rowLower.symm ▸ hrow)
  have hu := List.getElem?_eq_getElem (h.rowUpper.symm ▸ hrow)
  simp only [rowsOf, rowsAt, termsOf_eq h hrow, List.getD_eq_getElem?_getD, hl, hu]
  rfl

/-- The model of a problem whose parts fit together. -/
theorem Model.ofProblem_eq (h : p.Consistent) :
    Model.ofProblem p = .ok
      { columns := columnsIn p
        objective := p.objective
        rows := (List.range p.rowCount).flatMap (rowsAt p)
        sense := p.sense } := by
  have hrows := mapM_ok fun row hrow => rowsOf_eq h (List.mem_range.mp hrow)
  rw [Model.ofProblem, columnsOf_eq h, hrows]
  rfl

/-- The rows between two bounds all have the terms they were made with. -/
theorem Row.terms_between {terms : List (Nat × Binary64)} {lower upper : Binary64} {r : Row}
    (hr : r ∈ Row.between terms lower upper) : r.terms = terms := by
  unfold Row.between at hr
  split at hr
  · rw [List.mem_singleton.mp hr]
  · rcases List.mem_append.mp hr with hr | hr <;> split at hr <;> simp_all

/-- The terms of a row name columns. -/
theorem lt_of_mem_terms (h : p.Consistent) {row : Nat} (hrow : row < p.rowCount)
    {term : Nat × Binary64} (hterm : term ∈ p.matrix.terms row) : term.1 < p.columnCount := by
  obtain ⟨indices, values, hindices, hvalues, -, hnames⟩ := h.exists_row hrow
  obtain ⟨⟨c, v⟩, hmem, rfl⟩ := List.mem_map.mp hterm
  rw [entries_eq hindices hvalues] at hmem
  obtain ⟨hsign, hlt⟩ := (Problem.namesColumn_iff h.columns).mp (hnames c (List.of_mem_zip hmem).1)
  rw [Int32.le_iff_toInt_le] at hsign
  rw [Int32.lt_iff_toInt_lt, Problem.toInt_columns h.columns] at hlt
  exact (Int.toNat_lt hsign).mpr hlt

/-- A problem whose parts fit together has a model with its columns, and no term of the model names
another one. -/
theorem Model.ofProblem_ok (h : p.Consistent) :
    ∃ m, Model.ofProblem p = .ok m ∧ m.columns.length = p.columnCount ∧
      ∀ row ∈ m.rows, ∀ term ∈ row.terms, term.1 < m.columns.length := by
  refine ⟨_, Model.ofProblem_eq h, length_columnsIn h, fun r hr term hterm => ?_⟩
  obtain ⟨row, hrow, hbetween⟩ := List.mem_flatMap.mp hr
  rw [Row.terms_between hbetween] at hterm
  rw [length_columnsIn h]
  exact lt_of_mem_terms h (List.mem_range.mp hrow) hterm

/-- Building from a problem with a row that has no list of columns would leave the array. -/
example : Model.ofProblem { Problem.empty with matrix := ⟨[[]], [], 0⟩ } = .error (missing 0 0) := rfl

end Linear

/-! ### What accepting a problem is good for -/

namespace Problem

open Linear (Model)

/-- The rows of the matrix, paired up or looked at one by one. -/
theorem entries_iff {p : Problem} (h : 0 ≤ p.matrix.columns) :
    (∀ row ∈ p.matrix.indices.zip p.matrix.values,
      row.1.length = row.2.length ∧ ∀ c ∈ row.1, namesColumn p.columnCount c = true) ↔
    ∀ (row : Nat) (indices : List Int32) (values : List Binary64),
      p.matrix.indices[row]? = some indices → p.matrix.values[row]? = some values →
      indices.length = values.length ∧ ∀ c ∈ indices, 0 ≤ c ∧ c < p.matrix.columns := by
  simp only [namesColumn_iff h]
  constructor
  · intro hpairs row indices values hindices hvalues
    exact hpairs (indices, values)
      (List.mem_of_getElem? (List.getElem?_zip_eq_some.mpr ⟨hindices, hvalues⟩))
  · rintro hrows ⟨indices, values⟩ hmem
    obtain ⟨row, hrow⟩ := List.getElem?_of_mem hmem
    obtain ⟨hindices, hvalues⟩ := List.getElem?_zip_eq_some.mp hrow
    exact hrows row indices values hindices hvalues

/-- **Accepting a problem is exact and suffices.** A problem is accepted exactly if its column count is
not negative, every array has the length that the matrix asks for, the start is empty or complete, and
every row has as many columns as coefficients and names columns that exist. For an accepted problem the
check of a start comes to a verdict, every row has an activity at every point with a value for each
column, and there is a model, with the columns of the problem and without terms for others. -/
theorem validate_suffices (p : Problem) :
    (p.validate = .ok () ↔
      0 ≤ p.matrix.columns ∧
      (∀ n ∈ [p.objective.length, p.columnLower.length, p.columnUpper.length, p.kinds.length],
        (n : Int) = p.matrix.columns.toInt) ∧
      (∀ n ∈ [p.rowLower.length, p.rowUpper.length, p.matrix.indices.length],
        n = p.matrix.values.length) ∧
      (p.start = [] ∨ (p.start.length : Int) = p.matrix.columns.toInt) ∧
      ∀ (row : Nat) (indices : List Int32) (values : List Binary64),
        p.matrix.indices[row]? = some indices → p.matrix.values[row]? = some values →
        indices.length = values.length ∧ ∀ c ∈ indices, 0 ≤ c ∧ c < p.matrix.columns) ∧
    (p.validate = .ok () →
      (p.checkStart = .ok () ∨ ∃ d, p.checkStart = .error (.error d)) ∧
      (∀ row < p.matrix.values.length, ∀ x : List Binary64,
        (x.length : Int) = p.matrix.columns.toInt → ∃ a, p.matrix.activity? row x = some a) ∧
      ∃ m, Model.ofProblem p = .ok m ∧ (m.columns.length : Int) = p.matrix.columns.toInt ∧
        ∀ row ∈ m.rows, ∀ term ∈ row.terms, term.1 < m.columns.length) := by
  rw [validate_eq_ok_iff]
  refine ⟨⟨fun h => ?_, ?_⟩, fun h => ?_⟩
  · have hcount := toInt_columns h.columns
    refine ⟨h.columns, ?_, ?_, ?_, (entries_iff h.columns).mp h.entries⟩
    · simp [h.objective, h.columnLower, h.columnUpper, h.kinds, hcount]
    · simpa [rowCount, SparseMatrix.rowCount] using ⟨h.rowLower, h.rowUpper, h.indices⟩
    · rcases h.start with hempty | hlength
      · exact .inl hempty
      · exact .inr (by rw [hlength, hcount])
  · rintro ⟨hcolumns, hparts, hrows, hstart, hentries⟩
    have hpart (n : Nat) (hn : (n : Int) = p.matrix.columns.toInt) : n = p.columnCount :=
      Int.ofNat_inj.mp (hn.trans (toInt_columns hcolumns))
    simp only [List.forall_mem_cons, List.not_mem_nil, false_implies, implies_true,
      and_true] at hparts hrows
    obtain ⟨hobjective, hlower, hupper, hkinds⟩ := hparts
    obtain ⟨hrowLower, hrowUpper, hindices⟩ := hrows
    exact ⟨hcolumns, hpart _ hobjective, hpart _ hlower, hpart _ hupper, hpart _ hkinds, hrowLower,
      hrowUpper, hindices, hstart.imp id (hpart _), (entries_iff hcolumns).mpr hentries⟩
  · have hcount := toInt_columns h.columns
    refine ⟨?_, fun row hrow x hx => ?_, ?_⟩
    · match hverdict : p.checkStart with
      | .ok () => exact .inl rfl
      | .error (.error d) => exact .inr ⟨d, rfl⟩
      | .error (.fault f) => exact absurd hverdict (noFault_checkStart h f)
    · exact Option.isSome_iff_exists.mp (isSome_activity? h (by omega) hrow)
    · obtain ⟨m, hm, hlength, hterms⟩ := Model.ofProblem_ok h
      exact ⟨m, hm, hlength ▸ hcount.symm, hterms⟩

/-- Two columns, a row with an entry for both and one with an entry for the second, and a start. -/
def jagged : Problem :=
  { empty with
    matrix := ⟨[[.one, .one], [.one]], [[0, 1], [1]], 2⟩
    objective := [.one, .zero]
    columnLower := [.zero, .zero]
    columnUpper := [.one, .one]
    rowLower := [.zero, .zero]
    rowUpper := [.one, .one]
    kinds := [.binary, .continuous]
    start := [.zero, .one] }

theorem validate_suffices_jagged :
    jagged.validate = .ok () ∧
    (jagged.checkStart = .ok () ∨ ∃ d, jagged.checkStart = .error (.error d)) ∧
    (∃ a, jagged.matrix.activity? 1 jagged.start = some a) ∧
    ∃ m, Model.ofProblem jagged = .ok m ∧ (m.columns.length : Int) = jagged.matrix.columns.toInt ∧
      ∀ row ∈ m.rows, ∀ term ∈ row.terms, term.1 < m.columns.length := by
  have haccepted : jagged.validate = .ok () := rfl
  obtain ⟨hstart, hactivity, hmodel⟩ := (validate_suffices jagged).2 haccepted
  exact ⟨haccepted, hstart, hactivity 1 (by decide) jagged.start (by decide), hmodel⟩

end Problem

end IsolatedSolving
