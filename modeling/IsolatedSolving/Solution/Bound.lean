import IsolatedSolving.Solution.Basic
import IsolatedSolving.Wire.Writer

/-! The space for the result of a problem.

The largest result has a value for each column and a dual value for each row. Its length is known
from the counts alone, which `encodedLength_largest` proves. -/
namespace IsolatedSolving.Solution

open Wire

/-- The length of the largest result for so many columns and rows. -/
def boundLength (columns rows : Nat) : Except CodecError Nat :=
  if Piece.largestCount < columns then .error (.invalidCount columns)
  else if Piece.largestCount < rows then .error (.invalidCount rows)
  else .ok (48 + 8 * columns + 8 * rows)

/-- The closed form agrees with counting. -/
theorem encodedLength_largest (columns rows : Nat) :
    encodedLength (largest columns rows) = boundLength columns rows := by
  have hp : paddedLength 4 = 8 := rfl
  have hq : paddedLength 8 = 8 := rfl
  have hk (n : Nat) : paddedLength (n * 8) = n * 8 := by unfold paddedLength; omega
  unfold boundLength
  by_cases hc : columns ≤ Piece.largestCount
  · by_cases hr : rows ≤ Piece.largestCount
    · rw [if_neg (Nat.not_lt.2 hc), if_neg (Nat.not_lt.2 hr)]
      simp [encodedLength, pieces, Layout.pieces, Layout.items, Item.pieces, Shape.pieces,
        arrayPieces, Transportable.toRecord, Transportable.layout, layout, Writer.write, Writer.put,
        Writer.counting, Piece.writable, Piece.length, Piece.data, largest,
        Element.size, hc, hr, hp, hq, hk, Except.map]
      omega
    · rw [if_neg (Nat.not_lt.2 hc), if_pos (Nat.not_le.1 hr)]
      simp [encodedLength, pieces, Layout.pieces, Layout.items, Item.pieces, Shape.pieces,
        arrayPieces, Transportable.toRecord, Transportable.layout, layout, Writer.write, Writer.put,
        Writer.counting, Piece.writable, Piece.length, Piece.data, Piece.countOf, largest, hc, hr,
        Except.map]
  · rw [if_pos (Nat.not_le.1 hc)]
    simp [encodedLength, pieces, Layout.pieces, Layout.items, Item.pieces, Shape.pieces,
      arrayPieces, Transportable.toRecord, Transportable.layout, layout, Writer.write, Writer.put,
      Writer.counting, Piece.writable, Piece.countOf, largest, hc, Except.map]

end IsolatedSolving.Solution
