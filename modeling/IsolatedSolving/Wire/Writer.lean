import IsolatedSolving.Wire.Error
import IsolatedSolving.Wire.Item

/-! Writing items into a buffer, or only counting them.

A writer has a position and, unless it only counts, a buffer of fixed length. A piece that does not
fit, or a count too large to be written, changes nothing, and what was written before it stays. So
the counting pass and the writing pass go through the same places, which is how `encode` finds the
exact length of its buffer first. -/
namespace IsolatedSolving.Wire

/-- A writer that has come to `position`; one without a buffer only counts. -/
structure Writer where
  buffer : Option (List UInt8)
  position : Nat
deriving DecidableEq, Repr

namespace Writer

/-- A writer without a buffer. -/
def counting : Writer := ⟨none, 0⟩

/-- A writer at the start of a buffer. -/
def ofBuffer (buffer : List UInt8) : Writer := ⟨some buffer, 0⟩

/-- Writes one piece with its padding. -/
def put (w : Writer) (p : Piece) : Except CodecError Writer :=
  if !p.writable then .error (.invalidCount p.countOf)
  else
    let stop := w.position + p.length
    match w.buffer with
    | none => .ok ⟨none, stop⟩
    | some buffer =>
      if stop ≤ buffer.length then .ok ⟨some (overwrite buffer w.position (pad p.data)), stop⟩
      else .error (.overflow w.position p.length buffer.length)

/-- Writes pieces up to the first that fails. -/
def write (w : Writer) : List Piece → Except CodecError Unit × Writer
  | [] => (.ok (), w)
  | p :: ps =>
    match w.put p with
    | .ok next => write next ps
    | .error e => (.error e, w)

end Writer

variable {α : Type} [Transportable α]

/-- The count of bytes that the value takes. -/
def encodedLength (a : α) : Except CodecError Nat :=
  let (result, w) := Writer.counting.write (pieces a)
  result.map fun _ => w.position

/-- Writes the value to the start of the buffer: the count of bytes written, and the buffer
afterwards, with all that was written before a failure. -/
def encodeInto (a : α) (buffer : List UInt8) : Except CodecError Nat × List UInt8 :=
  let (result, w) := (Writer.ofBuffer buffer).write (pieces a)
  (result.map fun _ => w.position, w.buffer.getD buffer)

/-- The bytes of the value. -/
def encode (a : α) : Except CodecError (List UInt8) := do
  let length ← encodedLength a
  let (result, bytes) := encodeInto a (List.replicate length 0)
  let _ ← result
  return bytes

end IsolatedSolving.Wire
