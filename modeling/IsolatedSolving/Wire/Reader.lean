import IsolatedSolving.Wire.Error
import IsolatedSolving.Wire.Item

/-! Reading items back.

A reader moves over its bytes, one padded piece at a time, and refuses a piece that would go past the
end. A count is read before the elements it announces and has to be non-negative. A failed read keeps
the position behind all that it has taken: a count that is followed by too few bytes is taken, and so
are bytes that stand for no value. -/
namespace IsolatedSolving.Wire

/-- A reader that has come to `position`. The first byte lies at `address`. -/
structure Reader where
  bytes : List UInt8
  address : Nat
  position : Nat
deriving DecidableEq, Repr

/-- A step of a reader: it may fail, and its movement stays either way. -/
abbrev Reading := EStateM CodecError Reader

namespace Reader

/-- A reader at the start of bytes that lie at `address`. -/
def start (bytes : List UInt8) (address : Nat) : Reader := ⟨bytes, address, 0⟩

/-- Takes `length` bytes and their padding. -/
def take (length : Nat) : Reading (List UInt8) := do
  let r ← get
  let stop := r.position + paddedLength length
  if stop ≤ r.bytes.length then
    set { r with position := stop }
    return slice r.bytes r.position length
  else throw (.overflow r.position (paddedLength length) r.bytes.length)

/-- Reads one value. -/
def scalar (e : Element) : Reading e.Value := do
  let bytes ← take e.size
  match e.decode bytes with
  | some v => return v
  | none => throw (.invalidValue e)

/-- Reads the count of an array. -/
def count : Reading Nat := do
  let n ← scalar .int32
  if n.toInt < 0 then throw (.invalidCount n.toInt) else return n.toInt.toNat

end Reader

/-! ### Runs of elements -/

/-- The first `n` elements that the bytes spell, if each is a value. -/
def Element.decodeMany (e : Element) : Nat → List UInt8 → Option (List e.Value)
  | 0, _ => some []
  | n + 1, bs =>
    match e.decode (bs.take e.size) with
    | none => none
    | some v => (decodeMany e n (bs.drop e.size)).map (v :: ·)

/-- All elements that the bytes spell. Elements without bytes are none, however many there were. -/
def Element.decodeAll (e : Element) (bs : List UInt8) : Option (List e.Value) :=
  e.decodeMany (bs.length / e.size) bs

namespace Reader

/-- Takes the bytes of an array of elements, behind their count. -/
def elements (e : Element) : Reading (List UInt8) := do
  let n ← count
  take (n * e.size)

/-- Reads an array. -/
def array (e : Element) : Reading (List e.Value) := do
  let bytes ← elements e
  match e.decodeAll bytes with
  | some vs => return vs
  | none => throw (.invalidValue e)

/-- Does the same step `n` times and collects what it gives. -/
def times {β : Type} (step : Reading β) : Nat → Reading (List β)
  | 0 => return []
  | n + 1 => do
    let b ← step
    let bs ← times step n
    return b :: bs

/-- Reads an array of arrays. -/
def nested (e : Element) : Reading (List (List e.Value)) := do
  let rows ← count
  times (array e) rows

/-- Reads the item at one place of a layout. -/
def item : (s : Shape) → Reading s.Value
  | .scalar e => scalar e
  | .array e => array e
  | .nested e => nested e

/-- Reads a record. -/
def record : (l : Layout) → Reading l.Record
  | [] => return ()
  | s :: l => do
    let v ← item s
    let r ← record l
    return (v, r)

end Reader

/-- The value at the start of the bytes and the count of bytes it took. -/
def decodeWith {α : Type} (step : Reading α) (bytes : List UInt8) (address : Nat) :
    Except CodecError (α × Nat) :=
  match step.run (Reader.start bytes address) with
  | .ok a r => .ok (a, r.position)
  | .error e _ => .error e

/-- The value at the start of the bytes. -/
def decode (α : Type) [Transportable α] (bytes : List UInt8) : Except CodecError α :=
  (decodeWith (Reader.record (Transportable.layout α)) bytes 0).map fun (r, _) =>
    Transportable.ofRecord r

end IsolatedSolving.Wire
