import IsolatedSolving.Wire.Reader

/-! Values used in place.

A view of an array is the bytes of its elements, left where they are and known to be values. So it
needs bytes at an address that suits the element, and all elements are checked together. Scalars are
copied. The value behind a view is the one that an owned read gives. -/
namespace IsolatedSolving.Wire

/-- The bytes of an array whose elements are all values. -/
structure ArrayView (e : Element) where
  bytes : List UInt8
  valid : (e.decodeAll bytes).isSome

/-- The elements of the array. -/
def ArrayView.toList {e : Element} (v : ArrayView e) : List e.Value := (e.decodeAll v.bytes).get v.valid

/-- What stands for an item that is used in place. -/
abbrev Shape.View : Shape → Type
  | .scalar e => e.Value
  | .array e => ArrayView e
  | .nested e => List (ArrayView e)

/-- The value behind a view. -/
def Shape.ofView : (s : Shape) → s.View → s.Value
  | .scalar _, v => v
  | .array _, v => v.toList
  | .nested _, rows => rows.map ArrayView.toList

/-- A view for every place of a layout. -/
abbrev Layout.View : Layout → Type
  | [] => Unit
  | s :: l => s.View × View l

/-- The record behind a view. -/
def Layout.ofView : (l : Layout) → l.View → l.Record
  | [], _ => ()
  | s :: l, (v, r) => (s.ofView v, ofView l r)

namespace Reader

/-- Uses an array in place. The address is checked before the elements are, and also if there are
none. -/
def arrayView (e : Element) : Reading (ArrayView e) := do
  let n ← count
  let start := (← get).position
  let bytes ← take (n * e.size)
  if ((← get).address + start) % e.alignment ≠ 0 then throw (.misaligned e)
  else if h : (e.decodeAll bytes).isSome then return ⟨bytes, h⟩
  else throw (.invalidValue e)

/-- Uses an array of arrays in place. -/
def nestedView (e : Element) : Reading (List (ArrayView e)) := do
  let rows ← count
  times (arrayView e) rows

/-- Uses the item at one place of a layout in place. -/
def itemView : (s : Shape) → Reading s.View
  | .scalar e => scalar e
  | .array e => arrayView e
  | .nested e => nestedView e

/-- Uses a record in place. -/
def recordView : (l : Layout) → Reading l.View
  | [] => return ()
  | s :: l => do
    let v ← itemView s
    let r ← recordView l
    return (v, r)

end Reader

/-- A value of a transportable type, used in place. -/
abbrev View (α : Type) [Transportable α] := (Transportable.layout α).View

/-- The value behind a view. -/
def View.get {α : Type} [Transportable α] (v : View α) : α :=
  Transportable.ofRecord ((Transportable.layout α).ofView v)

/-- The value at the start of bytes at `address`, in place, and the count of bytes it takes. -/
def decodeView (α : Type) [Transportable α] (bytes : List UInt8) (address : Nat) :
    Except CodecError (View α × Nat) :=
  decodeWith (Reader.recordView (Transportable.layout α)) bytes address

end IsolatedSolving.Wire
