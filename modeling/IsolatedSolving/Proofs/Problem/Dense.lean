import IsolatedSolving.Proofs.Number.Sameness
import IsolatedSolving.Proofs.Problem.Building

/-! Rows with a value for each column.

Such a row can be stored whole, or without the entries that are zero. Either way it fits the matrix, and
what is left out of the row is a zero in its activity at each finite point (`isZero_termAt`). So both
rows have the same activity there, whatever the values are (`dense_rows_same`): the sum over fewer terms
differs at most in the sign of a zero. -/
namespace IsolatedSolving

open Binary64 (Same)
open Problem (namesColumn termAt unrestricted)

namespace SparseMatrix

/-- The numbers of so many columns. -/
def allColumns (count : Nat) : List Int32 := (List.range count).map Int32.ofNat

/-- The values with the numbers of their columns. -/
def numbered (values : List Binary64) : List (Int32 × Binary64) :=
  values.zipIdx.map fun (v, i) => (Int32.ofNat i, v)

/-- The matrix has this row under this number. -/
structure HasRow (m : SparseMatrix) (row : Nat) (columns : List Int32) (values : List Binary64) :
    Prop where
  columns : m.indices[row]? = some columns
  values : m.values[row]? = some values

/-- The row has the values that are not zero, each under its position among all of them, in order. -/
structure LeavesOutZeros (values : List Binary64) (columns : List Int32) (kept : List Binary64) :
    Prop where
  lengths : columns.length = kept.length
  increasing : columns.Pairwise (· < ·)
  entries : ∀ c a, (c, a) ∈ columns.zip kept ↔
    ∃ i : Nat, c.toInt = i ∧ values[i]? = some a ∧ a.isZero = false

section Rows
variable {values : List Binary64}

theorem zip_allColumns (values : List Binary64) :
    (allColumns values.length).zip values = numbered values := by
  refine (List.zip_of_prod ?_ ?_).symm
  · rw [numbered, allColumns, List.map_map, List.range_eq_range', ← List.zipIdx_map_snd, List.map_map]
    rfl
  · rw [numbered, List.map_map]
    exact List.zipIdx_map_fst 0 values

theorem nonzeros_eq (values : List Binary64) :
    nonzeros values = (numbered values).filter fun entry => !entry.2.isZero := by
  rw [numbered, List.filter_map]
  rfl

/-- A new row comes under the next number. -/
theorem hasRow_pushRow {m : SparseMatrix} (h : m.indices.length = m.rowCount) (columns : List Int32)
    (values : List Binary64) : (m.pushRow columns values).HasRow m.rowCount columns values where
  columns := by rw [pushRow, ← h, List.getElem?_concat_length]
  values := List.getElem?_concat_length

end Rows

/-! ### The rows in the matrix -/

section Columns
variable {p : Problem} {values : List Binary64}

theorem pairwise_allColumns (hcolumns : 0 ≤ p.matrix.columns) :
    (allColumns p.columnCount).Pairwise (· < ·) := by
  rw [allColumns, List.pairwise_map]
  refine List.pairwise_lt_range.imp_of_mem fun hi hj hlt => ?_
  rw [Int32.lt_iff_toInt_lt, Problem.toInt_ofNat_column hcolumns (List.mem_range.mp hi),
    Problem.toInt_ofNat_column hcolumns (List.mem_range.mp hj)]
  exact Int.ofNat_lt.mpr hlt

theorem mem_numbered (hcolumns : 0 ≤ p.matrix.columns) (hlength : values.length = p.columnCount)
    (c : Int32) (a : Binary64) :
    (c, a) ∈ numbered values ↔ ∃ i : Nat, c.toInt = i ∧ values[i]? = some a := by
  have hnumber {i : Nat} (hi : values[i]? = some a) : (Int32.ofNat i).toInt = i := by
    obtain ⟨hlt, -⟩ := List.getElem?_eq_some_iff.mp hi
    exact Problem.toInt_ofNat_column hcolumns (hlength ▸ hlt)
  rw [numbered, List.mem_map]
  constructor
  · rintro ⟨⟨v, i⟩, hmem, hentry⟩
    obtain ⟨rfl, rfl⟩ := Prod.mk.inj hentry
    have hi := List.mk_mem_zipIdx_iff_getElem?.mp hmem
    exact ⟨i, hnumber hi, hi⟩
  · rintro ⟨i, hc, hi⟩
    have hself : Int32.ofNat i = c := Int32.toInt_inj.mp ((hnumber hi).trans hc.symm)
    exact ⟨(a, i), List.mk_mem_zipIdx_iff_getElem?.mpr hi, Prod.ext hself rfl⟩

theorem leavesOutZeros_nonzeros (hcolumns : 0 ≤ p.matrix.columns)
    (hlength : values.length = p.columnCount) :
    LeavesOutZeros values ((nonzeros values).map Prod.fst) ((nonzeros values).map Prod.snd) where
  lengths := by rw [List.length_map, List.length_map]
  increasing := by
    have hall : ((numbered values).map Prod.fst).Pairwise (· < ·) := by
      rw [← zip_allColumns, List.map_fst_zip (by simp [allColumns]), hlength]
      exact pairwise_allColumns hcolumns
    rw [List.pairwise_map] at hall ⊢
    rw [nonzeros_eq]
    exact hall.filter _
  entries c a := by
    rw [← List.zip_of_prod rfl rfl, nonzeros_eq, List.mem_filter, mem_numbered hcolumns hlength,
      Bool.not_eq_true']
    constructor
    · rintro ⟨⟨i, hc, hi⟩, hsome⟩
      exact ⟨i, hc, hi, hsome⟩
    · rintro ⟨i, hc, hi, hsome⟩
      exact ⟨⟨i, hc, hi⟩, hsome⟩

theorem fits_allColumns (hcolumns : 0 ≤ p.matrix.columns) (hlength : values.length = p.columnCount)
    (lower upper : Binary64) : Row.Fits ⟨allColumns values.length, values, lower, upper⟩ p.matrix :=
  Edit.Fits.row (e := .dense values lower upper) rfl hlength hcolumns

theorem LeavesOutZeros.fits {columns : List Int32} {kept : List Binary64}
    (h : LeavesOutZeros values columns kept) (hcolumns : 0 ≤ p.matrix.columns)
    (hlength : values.length = p.columnCount) (lower upper : Binary64) :
    Row.Fits ⟨columns, kept, lower, upper⟩ p.matrix := by
  refine ⟨h.lengths, fun c hc => ?_⟩
  rw [← List.map_fst_zip (Nat.le_of_eq h.lengths)] at hc
  obtain ⟨⟨_, a⟩, hmem, rfl⟩ := List.mem_map.mp hc
  obtain ⟨i, hi, hvalue, -⟩ := (h.entries _ a).mp hmem
  obtain ⟨hlt, -⟩ := List.getElem?_eq_some_iff.mp hvalue
  have hcount := Problem.toInt_columns hcolumns
  have hzero : (0 : Int32).toInt = 0 := rfl
  rw [Int32.le_iff_toInt_le, Int32.lt_iff_toInt_lt, hi, hcount, hzero]
  omega

/-! ### The activities of the rows -/

/-- What is zero in a row is zero in its activity at a finite point. -/
theorem isZero_termAt {x : List Binary64} (hx : ∀ y ∈ x, y.isFinite = true)
    {entry : Int32 × Binary64} (hentry : entry.2.isZero = true) : (termAt x entry).isZero = true := by
  refine Binary64.isZero_mul hentry ?_
  rw [List.getD_eq_getElem?_getD]
  cases hget : x[entry.1.toInt.toNat]? with
  | none => rfl
  | some y => exact hx y (List.mem_of_getElem? hget)

/-- A row that fits has the sum of its terms as its activity at a point for all columns. -/
theorem HasRow.activity? {m : SparseMatrix} {row : Nat} {r : Row}
    (hrow : m.HasRow row r.columns r.values) (hfits : r.Fits p.matrix)
    (hcolumns : 0 ≤ p.matrix.columns) {x : List Binary64} (hx : x.length = p.columnCount) :
    m.activity? row x = some (.sum ((r.columns.zip r.values).map (termAt x))) := by
  refine Problem.activity?_eq hrow.columns hrow.values fun c hc => ?_
  rw [hx]
  exact (Problem.namesColumn_iff hcolumns).mpr (hfits.2 c hc)

/-- **A row means the same with and without its zeros.** With a value for each column, a row can be added
without its zeros, or whole as a constraint, which is skipped if it restricts nothing. Either row fits the
matrix, and at every finite point the two have the same activity, wherever they are stored. -/
theorem dense_rows_same (hcolumns : 0 ≤ p.matrix.columns) (hlength : values.length = p.columnCount) :
    ∃ columns kept,
      addDenseRow values p.matrix = .ok () (p.matrix.pushRow columns kept) ∧
      LeavesOutZeros values columns kept ∧ p.matrix.checkRow columns kept = .ok () ∧
      p.matrix.checkRow (allColumns values.length) values = .ok () ∧
      (∀ lower upper, Edit.applyDense values lower upper p =
        if unrestricted lower upper then .ok none p
        else .ok (some p.rowCount) (p.withRow ⟨allColumns values.length, values, lower, upper⟩)) ∧
      ∀ x : List Binary64, x.length = p.columnCount → (∀ y ∈ x, y.isFinite = true) →
        ∀ (m m' : SparseMatrix) (row row' : Nat), m.HasRow row columns kept →
          m'.HasRow row' (allColumns values.length) values →
          ∃ a b, m.activity? row x = some a ∧ m'.activity? row' x = some b ∧ a.Same b := by
  have hkept := leavesOutZeros_nonzeros hcolumns hlength
  have hfits := hkept.fits hcolumns hlength .zero .zero
  have hall := fits_allColumns hcolumns hlength
  refine ⟨_, _, ?_, hkept, checkRow_ok_iff.mpr hfits, checkRow_ok_iff.mpr (hall .zero .zero),
    fun lower upper => ?_, fun x hx hfinite m m' row row' hrow hrow' => ?_⟩
  · have hcount : ¬values.length ≠ p.matrix.columnCount := Decidable.not_not.mpr hlength
    rw [addDenseRow, if_neg hcount]
  · rw [Edit.applyDense, if_neg (Decidable.not_not.mpr hlength)]
    exact Problem.addRow_eq (hall lower upper)
  · refine ⟨_, _, hrow.activity? hfits hcolumns hx, hrow'.activity? (hall .zero .zero) hcolumns hx, ?_⟩
    rw [← List.zip_of_prod rfl rfl, zip_allColumns, nonzeros_eq]
    refine (Binary64.same_sum_filter fun entry _ hzero => ?_).symm
    exact isZero_termAt hfinite (by rwa [Bool.not_eq_false'] at hzero)

end Columns

/-- Two columns without rows. -/
def twoColumns : Problem := { Problem.empty with matrix := ⟨[], [], 2⟩ }

/-- Without its zeros a row of two has the negative zero for its activity, from which every sum starts.
With them it has the positive one. -/
theorem dense_rows_same_zeros :
    ∃ columns kept, addDenseRow [.negZero, .zero] twoColumns.matrix =
        .ok () (twoColumns.matrix.pushRow columns kept) ∧
      (twoColumns.matrix.pushRow columns kept).activity? 0 [.one, .one] = some .negZero ∧
      (twoColumns.matrix.pushRow [0, 1] [.negZero, .zero]).activity? 0 [.one, .one] = some .zero ∧
      Same .negZero .zero := by
  have hlength : [Binary64.negZero, .zero].length = twoColumns.columnCount := rfl
  obtain ⟨columns, kept, hadd, -, -, -, -, hsame⟩ := dense_rows_same (by decide) hlength
  obtain ⟨a, b, ha, hb, hab⟩ := hsame [.one, .one] rfl (by decide) _ _ 0 0
    (hasRow_pushRow (m := twoColumns.matrix) rfl columns kept)
    (hasRow_pushRow (m := twoColumns.matrix) rfl _ _)
  have hnone : twoColumns.matrix.pushRow columns kept = twoColumns.matrix.pushRow [] [] := by
    have hempty : addDenseRow [.negZero, .zero] twoColumns.matrix =
        .ok () (twoColumns.matrix.pushRow [] []) := rfl
    rw [hempty] at hadd
    injection hadd with _ hmatrix
    exact hmatrix.symm
  have hsparse : (twoColumns.matrix.pushRow columns kept).activity? 0 [.one, .one] = some .negZero := by
    rw [hnone]
    decide
  have hwhole : (twoColumns.matrix.pushRow [0, 1] [.negZero, .zero]).activity? 0 [.one, .one] =
      some .zero := by decide +kernel
  obtain rfl := Option.some.inj (hsparse.symm.trans ha)
  obtain rfl := Option.some.inj (hwhole.symm.trans hb)
  exact ⟨columns, kept, hadd, hsparse, hwhole, hab⟩

end SparseMatrix

end IsolatedSolving
