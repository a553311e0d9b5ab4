import IsolatedSolving.Problem.Layout
import IsolatedSolving.Proofs.Problem.Consistency
import IsolatedSolving.Proofs.Wire.Records
import IsolatedSolving.Solution.Bound

/-! The space that problems and results take.

The space of a result depends on how many values and dual values it has and on nothing else
(`Solution.extent_pieces`), so the region that is made for the largest result has space for each one
that is `Within` the counts of the problem (`Solution.Within.fits`). -/
namespace IsolatedSolving

open Wire
open Wire.Sealed (Fits Recordable headerLength recordLength)

namespace Problem

theorem sized : Sized Problem := by decide

/-- A count that is not negative can be written. -/
theorem columnCount_le {p : Problem} (h : 0 ≤ p.matrix.columns) :
    p.columnCount ≤ Piece.largestCount := by
  have hcount := columnCount_eq h
  have hle : p.matrix.columns.toInt ≤ 2147483647 := p.matrix.columns.toInt_le
  have hlargest : Piece.largestCount = 2147483647 := rfl
  omega

theorem rowCount_le {p : Problem} (hp : Writable p) : p.rowCount ≤ Piece.largestCount := by
  have hmem : Piece.count p.matrix.values.length ∈ pieces p := List.mem_cons_self
  exact of_decide_eq_true (hp _ hmem)

end Problem

namespace Solution

theorem sized : Sized Solution := by decide

/-- Results with at most one value for each column and one dual value for each row. -/
structure Within (columns rows : Nat) (s : Solution) : Prop where
  values : s.values.length ≤ columns
  duals : s.duals.length ≤ rows

theorem within_empty (columns rows : Nat) (sense : Sense) : (empty sense).Within columns rows :=
  ⟨Nat.zero_le _, Nat.zero_le _⟩

theorem extent_pieces (s : Solution) :
    extent (pieces s) = 48 + 8 * s.values.length + 8 * s.duals.length := by
  have hp : paddedLength 4 = 8 := rfl
  have hq : paddedLength 8 = 8 := rfl
  have harray (vs : List Binary64) :
      paddedLength (vs.flatMap Element.float64.encode).length = vs.length * 8 := by
    rw [Element.length_flatMap_encode .float64 vs]
    unfold paddedLength
    simp only [Element.size]
    omega
  simp only [pieces, Layout.pieces, Transportable.layout, Transportable.toRecord, layout,
    Layout.items, Item.pieces, Shape.pieces, arrayPieces, List.flatMap_cons, List.flatMap_nil,
    List.cons_append, List.nil_append, extent_cons, extent_nil, Piece.length, Piece.data,
    Element.length_encode, length_littleEndian, Element.size, hp, hq, harray]
  omega

theorem writable_iff {s : Solution} :
    Writable s ↔ s.values.length ≤ Piece.largestCount ∧ s.duals.length ≤ Piece.largestCount := by
  simp only [Writable, pieces, Layout.pieces, Transportable.layout, Transportable.toRecord, layout,
    Layout.items, Item.pieces, Shape.pieces, arrayPieces, List.flatMap_cons, List.flatMap_nil,
    List.cons_append, List.nil_append, List.forall_mem_cons, Piece.writable, decide_eq_true_eq,
    List.not_mem_nil, false_implies, implies_true, true_and, and_true]

theorem writable_empty (sense : Sense) : Writable (empty sense) :=
  writable_iff.mpr ⟨Nat.zero_le _, Nat.zero_le _⟩

theorem recordable {s : Solution} (hs : Writable s) : Recordable s := by
  obtain ⟨hv, hd⟩ := writable_iff.mp hs
  refine ⟨hs, ?_⟩
  have hlargest : Piece.largestCount = 2147483647 := rfl
  have hcapacity : capacity 8 = 18446744073709551616 := rfl
  rw [extent_pieces]
  omega

theorem boundLength_ok {columns rows n : Nat} :
    boundLength columns rows = .ok n ↔
      columns ≤ Piece.largestCount ∧ rows ≤ Piece.largestCount ∧ n = 48 + 8 * columns + 8 * rows := by
  unfold boundLength
  split
  · simp; omega
  · split
    · simp; omega
    · simp; omega

/-- The region for results has space for every result within the counts. -/
theorem Within.fits {columns rows n : Nat} (hn : boundLength columns rows = .ok n) {s : Solution}
    (hs : s.Within columns rows) : Fits (recordLength n) s := by
  obtain ⟨hc, hr, rfl⟩ := boundLength_ok.mp hn
  have hv := hs.values
  have hd := hs.duals
  have hlength : recordLength (48 + 8 * columns + 8 * rows) =
      headerLength + (48 + 8 * columns + 8 * rows) := by
    unfold recordLength paddedLength
    omega
  rw [Sealed.fits_iff, extent_pieces, hlength]
  exact ⟨writable_iff.mpr ⟨by omega, by omega⟩, by omega⟩

end Solution

end IsolatedSolving
