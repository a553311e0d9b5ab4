import IsolatedSolving.Wire.Element

/-! The layout of values on the wire.

A value is a row of items without tags or names, in an order that writer and reader share: a scalar,
an array (its count, then its elements) or a nested array (the count of rows, then each row as an
array). An item is a run of pieces, each padded to the item alignment: a count is a piece of its own,
and all elements of an array together are one. A type with a layout is `Transportable`. -/
namespace IsolatedSolving.Wire

/-- What stands at one place of a layout. -/
inductive Shape where
  | scalar (element : Element)
  | array (element : Element)
  | nested (element : Element)
deriving DecidableEq, Repr

abbrev Shape.Value : Shape → Type
  | scalar e => e.Value
  | array e => List e.Value
  | nested e => List (List e.Value)

/-! ### Pieces -/

/-- A run of bytes that is padded as a whole, or the count of what follows it. -/
inductive Piece where
  | count (n : Nat)
  | bytes (data : List UInt8)
deriving DecidableEq, Repr

namespace Piece

/-- The largest count that can be written. -/
def largestCount : Nat := 0x7fffffff

/-- Whether the piece can be written at all: counts are 32 bits wide and not negative. -/
def writable : Piece → Bool
  | count n => decide (n ≤ largestCount)
  | bytes _ => true

/-- The count that the piece stands for. -/
def countOf : Piece → Nat
  | count n => n
  | bytes _ => 0

/-- The bytes of the piece without padding. -/
def data : Piece → List UInt8
  | count n => littleEndian 4 n
  | bytes bs => bs

/-- The space that the piece takes. -/
def length (p : Piece) : Nat := paddedLength p.data.length

end Piece

/-- The bytes of a run of pieces, each padded with zeros. -/
def image (ps : List Piece) : List UInt8 := ps.flatMap fun p => pad p.data

/-- The space that a run of pieces takes. -/
def extent (ps : List Piece) : Nat := ps.foldr (fun p n => p.length + n) 0

@[simp] theorem image_nil : image [] = [] := rfl

@[simp] theorem image_cons (p : Piece) (ps : List Piece) : image (p :: ps) = pad p.data ++ image ps :=
  rfl

theorem image_append (ps qs : List Piece) : image (ps ++ qs) = image ps ++ image qs := by
  simp [image]

@[simp] theorem extent_nil : extent [] = 0 := rfl

@[simp] theorem extent_cons (p : Piece) (ps : List Piece) : extent (p :: ps) = p.length + extent ps :=
  rfl

theorem extent_append (ps qs : List Piece) : extent (ps ++ qs) = extent ps + extent qs := by
  induction ps with
  | nil => simp
  | cons p ps ih => simp [ih, Nat.add_assoc]

theorem length_image (ps : List Piece) : (image ps).length = extent ps := by
  induction ps with
  | nil => rfl
  | cons p ps ih => simp [ih, Piece.length]

/-- The pieces of one array. -/
def arrayPieces (e : Element) (vs : List e.Value) : List Piece :=
  [.count vs.length, .bytes (vs.flatMap e.encode)]

/-- The pieces of an item. -/
def Shape.pieces : (s : Shape) → s.Value → List Piece
  | scalar e, v => [.bytes (e.encode v)]
  | array e, vs => arrayPieces e vs
  | nested e, rows => .count rows.length :: rows.flatMap (arrayPieces e)

/-- An item by itself. -/
structure Item where
  shape : Shape
  value : shape.Value

def Item.pieces (i : Item) : List Piece := i.shape.pieces i.value

/-! ### Layouts -/

/-- The shapes of a value, in writing order. -/
abbrev Layout := List Shape

/-- A value for every place of a layout. -/
abbrev Layout.Record : Layout → Type
  | [] => Unit
  | s :: l => s.Value × Record l

/-- The items of a record, in writing order. -/
def Layout.items : (l : Layout) → l.Record → List Item
  | [], _ => []
  | s :: l, (v, r) => ⟨s, v⟩ :: items l r

/-- The pieces of a record, in writing order. -/
def Layout.pieces (l : Layout) (r : l.Record) : List Piece := (l.items r).flatMap Item.pieces

/-- Types whose values can be written: they are the records of a layout. -/
class Transportable (α : Type) where
  layout : Layout
  toRecord : α → layout.Record
  ofRecord : layout.Record → α
  ofRecord_toRecord : ∀ a, ofRecord (toRecord a) = a
  toRecord_ofRecord : ∀ r, toRecord (ofRecord r) = r

/-- The pieces of a value, in writing order. -/
def pieces {α : Type} [Transportable α] (a : α) : List Piece :=
  (Transportable.layout α).pieces (Transportable.toRecord a)

end IsolatedSolving.Wire
