import IsolatedSolving.Problem.Start
import IsolatedSolving.Problem.Validity

/-! Problems whose parts fit together.

`Problem.Consistent` lists what a problem without a defect satisfies, and `validate` accepts exactly
such problems (`validate_eq_ok_iff`). Every array that the check of a start looks into is then long
enough for it, so the check comes to a verdict (`noFault_checkStart`). -/
namespace IsolatedSolving

/-! ### Computations without faults -/

/-- The computation may fail, but not by a fault. -/
def NoFault {ε α : Type} (r : Except (Stop ε) α) : Prop := ∀ f, r ≠ .error (.fault f)

namespace NoFault

variable {ε α β : Type}

theorem ok (a : α) : NoFault (.ok a : Except (Stop ε) α) := by
  rintro f ⟨⟩

theorem error (e : ε) : NoFault (.error (.error e) : Except (Stop ε) α) := by
  rintro f ⟨⟩

theorem bind {r : Except (Stop ε) α} {next : α → Except (Stop ε) β} (h : NoFault r)
    (hnext : ∀ a, NoFault (next a)) : NoFault (r >>= next) := by
  intro f hf
  match r with
  | .ok a => exact hnext a f hf
  | .error stop =>
    cases hf
    exact h f rfl

theorem forM {xs : List α} {step : α → Except (Stop ε) PUnit} (h : ∀ x ∈ xs, NoFault (step x)) :
    NoFault (xs.forM step) := by
  induction xs with
  | nil => exact ok _
  | cons x xs ih =>
    exact bind (h x List.mem_cons_self) fun _ => ih fun y hy => h y (List.mem_cons_of_mem x hy)

end NoFault

namespace Problem

/-! ### Accepted problems -/

/-- A count that is not negative is what it says. -/
theorem columnCount_eq {p : Problem} (h : 0 ≤ p.matrix.columns) :
    p.columnCount = p.matrix.columns.toInt.toNat := by
  have hwide : (0 : Int64) ≤ p.matrix.columns.toInt64 := by
    rw [Int64.le_iff_toInt_le, Int32.toInt_toInt64]
    exact Int32.le_iff_toInt_le.mp h
  show p.matrix.columns.toInt64.toUInt64.toNat = _
  rw [Int64.toNat_toUInt64_of_le hwide, Int32.toNatClampNeg_toInt64]
  rfl

theorem toInt_columns {p : Problem} (h : 0 ≤ p.matrix.columns) :
    p.matrix.columns.toInt = p.columnCount := by
  rw [columnCount_eq h]
  exact (Int.toNat_of_nonneg (Int32.le_iff_toInt_le.mp h)).symm

/-- The named columns are those below the count. -/
theorem namesColumn_iff {p : Problem} (h : 0 ≤ p.matrix.columns) {c : Int32} :
    namesColumn p.columnCount c = true ↔ 0 ≤ c ∧ c < p.matrix.columns := by
  rw [namesColumn, Bool.and_eq_true, decide_eq_true_eq, decide_eq_true_eq, ← toInt_columns h,
    Int32.lt_iff_toInt_lt]

/-- The parts of the problem fit together. -/
structure Consistent (p : Problem) : Prop where
  columns : 0 ≤ p.matrix.columns
  objective : p.objective.length = p.columnCount
  columnLower : p.columnLower.length = p.columnCount
  columnUpper : p.columnUpper.length = p.columnCount
  kinds : p.kinds.length = p.columnCount
  rowLower : p.rowLower.length = p.rowCount
  rowUpper : p.rowUpper.length = p.rowCount
  indices : p.matrix.indices.length = p.rowCount
  start : p.start = [] ∨ p.start.length = p.columnCount
  entries : ∀ row ∈ p.matrix.indices.zip p.matrix.values,
    row.1.length = row.2.length ∧ ∀ c ∈ row.1, namesColumn p.columnCount c = true

theorem columnDefect?_eq_none_iff {p : Problem} :
    p.columnDefect? = none ↔ p.objective.length = p.columnCount ∧
      p.columnLower.length = p.columnCount ∧ p.columnUpper.length = p.columnCount ∧
      p.kinds.length = p.columnCount := by
  simp [columnDefect?]

theorem rowDefect?_eq_none_iff {p : Problem} :
    p.rowDefect? = none ↔ p.rowLower.length = p.rowCount ∧ p.rowUpper.length = p.rowCount ∧
      p.matrix.indices.length = p.rowCount := by
  simp [rowDefect?]

theorem startDefect?_eq_none_iff {p : Problem} :
    p.startDefect? = none ↔ p.start = [] ∨ p.start.length = p.columnCount := by
  simp only [startDefect?, Bool.or_eq_true, List.isEmpty_iff, beq_iff_eq, ite_eq_left_iff,
    reduceCtorEq, imp_false, Decidable.not_not]

theorem entryDefect?_eq_none_iff {columns row : Nat} {indices : List Int32}
    {values : List Binary64} :
    entryDefect? columns row indices values = none ↔
      indices.length = values.length ∧ ∀ c ∈ indices, namesColumn columns c = true := by
  unfold entryDefect?
  split <;> simp_all

theorem matrixDefect?_eq_none_iff {p : Problem} :
    p.matrixDefect? = none ↔ ∀ row ∈ p.matrix.indices.zip p.matrix.values,
      row.1.length = row.2.length ∧ ∀ c ∈ row.1, namesColumn p.columnCount c = true := by
  rw [matrixDefect?, List.findSome?_eq_none_iff]
  constructor
  · intro h row hrow
    obtain ⟨i, hi, rfl⟩ := List.mem_iff_getElem.mp hrow
    exact entryDefect?_eq_none_iff.mp (h (_, i) (List.mk_mem_zipIdx_iff_getElem?.mpr
      (List.getElem?_eq_getElem hi)))
  · rintro h ⟨row, i⟩ hrow
    have hmem := List.mem_of_getElem? (List.mk_mem_zipIdx_iff_getElem?.mp hrow)
    exact entryDefect?_eq_none_iff.mpr (h row hmem)

/-- **A problem is accepted exactly if its parts fit together.** -/
theorem validate_eq_ok_iff {p : Problem} : p.validate = .ok () ↔ p.Consistent := by
  have hdefect : p.validate = .ok () ↔ p.defect? = none := by
    rw [validate]
    split <;> simp_all
  have hchain (a b : Option Defect) : (a <|> b) = none ↔ a = none ∧ b = none := by
    cases a <;> simp
  rw [hdefect, defect?]
  split
  · next hsign =>
    refine iff_of_false (by simp) fun h => ?_
    exact absurd hsign (Int32.not_lt.mpr h.columns)
  · next hsign =>
    simp only [hchain, columnDefect?_eq_none_iff, rowDefect?_eq_none_iff, startDefect?_eq_none_iff,
      matrixDefect?_eq_none_iff]
    constructor
    · rintro ⟨⟨ho, hl, hu, hk⟩, ⟨hrl, hru, hi⟩, hs, he⟩
      exact ⟨Int32.not_lt.mp hsign, ho, hl, hu, hk, hrl, hru, hi, hs, he⟩
    · intro h
      exact ⟨⟨h.objective, h.columnLower, h.columnUpper, h.kinds⟩,
        ⟨h.rowLower, h.rowUpper, h.indices⟩, h.start, h.entries⟩

/-- A row of a problem whose parts fit together. -/
theorem Consistent.exists_row {p : Problem} (h : p.Consistent) {row : Nat} (hrow : row < p.rowCount) :
    ∃ indices values, p.matrix.indices[row]? = some indices ∧ p.matrix.values[row]? = some values ∧
      indices.length = values.length ∧ ∀ c ∈ indices, namesColumn p.columnCount c = true := by
  obtain ⟨indices, hindices⟩ : ∃ indices, p.matrix.indices[row]? = some indices :=
    ⟨_, List.getElem?_eq_getElem (h.indices.symm ▸ hrow)⟩
  obtain ⟨values, hvalues⟩ : ∃ values, p.matrix.values[row]? = some values :=
    ⟨_, List.getElem?_eq_getElem hrow⟩
  have hmem : (indices, values) ∈ p.matrix.indices.zip p.matrix.values :=
    List.mem_of_getElem? (List.getElem?_zip_eq_some.mpr ⟨hindices, hvalues⟩)
  exact ⟨indices, values, hindices, hvalues, h.entries _ hmem⟩

/-! ### Checking a start -/

theorem noFault_checkColumnValue {p : Problem} (h : p.Consistent) {column : Nat}
    (hcolumn : column < p.columnCount) (value : Binary64) :
    NoFault (p.checkColumnValue column value) := by
  have hl := List.getElem?_eq_getElem (h.columnLower ▸ hcolumn)
  have hu := List.getElem?_eq_getElem (h.columnUpper ▸ hcolumn)
  have hk := List.getElem?_eq_getElem (h.kinds ▸ hcolumn)
  simp only [checkColumnValue, hl, hu, hk]
  split
  · exact NoFault.error _
  split
  · exact NoFault.error _
  · exact NoFault.ok ()

/-- A column that is named has an entry. -/
theorem entryAt?_eq {α : Type} {xs : List α} {c : Int32} (hc : namesColumn xs.length c = true)
    (other : α) : entryAt? xs c = some (xs.getD c.toInt.toNat other) := by
  simp only [namesColumn, Bool.and_eq_true, decide_eq_true_eq] at hc
  obtain ⟨hsign, hlt⟩ := hc
  have hnat : 0 ≤ c.toInt := Int32.le_iff_toInt_le.mp hsign
  have hindex : c.toInt.toNat < xs.length := by omega
  rw [entryAt?, if_pos hsign, List.getD_eq_getElem?_getD, List.getElem?_eq_getElem hindex]
  rfl

theorem mapM_eq_some {α β : Type} {xs : List α} {f : α → Option β} {g : α → β}
    (h : ∀ x ∈ xs, f x = some (g x)) : xs.mapM f = some (xs.map g) := by
  induction xs with
  | nil => rfl
  | cons x xs ih =>
    rw [List.mapM_cons, h x List.mem_cons_self, ih fun y hy => h y (List.mem_cons_of_mem x hy)]
    rfl

/-- What an entry of a row adds to its activity at a point. -/
def termAt (x : List Binary64) (entry : Int32 × Binary64) : Binary64 :=
  entry.2.mul (x.getD entry.1.toInt.toNat .zero)

/-- The activity of a row whose columns have values is the sum of its terms. -/
theorem activity?_eq {m : SparseMatrix} {x : List Binary64} {row : Nat} {indices : List Int32}
    {values : List Binary64} (hindices : m.indices[row]? = some indices)
    (hvalues : m.values[row]? = some values) (hnames : ∀ c ∈ indices, namesColumn x.length c = true) :
    m.activity? row x = some (.sum ((indices.zip values).map (termAt x))) := by
  have hterms : ∀ entry ∈ indices.zip values,
      (entryAt? x entry.1).map entry.2.mul = some (termAt x entry) := by
    rintro ⟨c, v⟩ hmem
    rw [entryAt?_eq (hnames c (List.of_mem_zip hmem).1) .zero]
    rfl
  simp only [SparseMatrix.activity?, hindices, hvalues, mapM_eq_some hterms, Option.bind_eq_bind,
    Option.bind_some]
  rfl

/-- Every row of a problem whose parts fit together has an activity. -/
theorem isSome_activity? {p : Problem} (h : p.Consistent) {x : List Binary64}
    (hx : x.length = p.columnCount) {row : Nat} (hrow : row < p.rowCount) :
    (p.matrix.activity? row x).isSome := by
  obtain ⟨indices, values, hindices, hvalues, -, hnames⟩ := h.exists_row hrow
  rw [activity?_eq hindices hvalues fun c hc => hx ▸ hnames c hc]
  rfl

theorem noFault_checkRowActivity {p : Problem} (h : p.Consistent) {x : List Binary64}
    (hx : x.length = p.columnCount) {row : Nat} (hrow : row < p.rowCount) :
    NoFault (p.checkRowActivity x row) := by
  obtain ⟨activity, hactivity⟩ := Option.isSome_iff_exists.mp (isSome_activity? h hx hrow)
  have hl := List.getElem?_eq_getElem (h.rowLower ▸ hrow)
  have hu := List.getElem?_eq_getElem (h.rowUpper ▸ hrow)
  simp only [checkRowActivity, hactivity, hl, hu]
  split
  · exact NoFault.error _
  · exact NoFault.ok ()

/-- **The check of a start comes to a verdict** on a problem whose parts fit together. -/
theorem noFault_checkStart {p : Problem} (h : p.Consistent) : NoFault p.checkStart := by
  rw [checkStart]
  split
  · exact NoFault.ok ()
  split
  · exact NoFault.error _
  next hlength =>
  have hstart : p.start.length = p.columnCount := Decidable.not_not.mp hlength
  refine NoFault.bind (NoFault.forM ?_) fun _ => NoFault.forM ?_
  · rintro ⟨value, column⟩ hmem
    obtain ⟨hcolumn, -⟩ := List.getElem?_eq_some_iff.mp (List.mk_mem_zipIdx_iff_getElem?.mp hmem)
    exact noFault_checkColumnValue h (hstart ▸ hcolumn) value
  · intro row hmem
    exact noFault_checkRowActivity h hstart (List.mem_range.mp hmem)

end Problem

end IsolatedSolving
