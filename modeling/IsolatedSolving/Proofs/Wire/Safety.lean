import IsolatedSolving.Proofs.Wire.Guarded
import IsolatedSolving.Proofs.Wire.Truncation

/-! Bytes from anywhere.

A reader may be handed any bytes and called in any way, also after a call that failed: no call stops by
a fault, and each leaves the reader at an item or at the end, further on than it was
(`Reader.safe`). So whatever is decoded comes to a verdict (`Decodes`), and so does the check of a
decoded problem. -/
namespace IsolatedSolving.Wire

variable {β : Type}

/-! ### Calls in a row -/

/-- A call of a reader: for an item to copy out, or for one to use in place. -/
inductive Request where
  | copy (s : Shape)
  | use (s : Shape)

namespace Request

/-- What is asked for. -/
abbrev Value : Request → Type
  | copy s => s.Value
  | use s => s.View

/-- The call. -/
def read : (q : Request) → Reading q.Value
  | copy s => Reader.item s
  | use s => Reader.itemView s

/-- The call on a machine. -/
def guarded : (q : Request) → Guarded q.Value
  | copy s => Guarded.item s
  | use s => Guarded.itemView s

end Request

/-- How a call has ended, and the reader behind it. -/
structure Answer (ε : Type) where
  request : Request
  outcome : Except ε request.Value
  reader : Reader

namespace Answer

/-- The answer to a call that has gone like this. -/
def of {ε : Type} (q : Request) : EStateM.Result ε Reader q.Value → Answer ε
  | .ok v last => ⟨q, .ok v, last⟩
  | .error e last => ⟨q, .error e, last⟩

end Answer

namespace Reader

/-- Calls one after another, whether they succeed or not. -/
def calls {ε : Type} (ask : (q : Request) → EStateM ε Reader q.Value) (r : Reader) :
    List Request → List (Answer ε)
  | [] => []
  | q :: qs =>
    let a := Answer.of q ((ask q).run r)
    a :: calls ask a.reader qs

end Reader

/-! ### Values -/

namespace Guarded

/-- The value at the start of bytes at `address`, and the count of bytes it takes. -/
def decodeWith (step : Guarded β) (bytes : List UInt8) (address : Nat) :
    Except (Stop CodecError) (β × Nat) :=
  match step.run (Reader.start bytes address) with
  | .ok b last => .ok (b, last.position)
  | .error stop _ => .error stop

/-- The value at the start of bytes at `address`. -/
def decode (α : Type) [Transportable α] (bytes : List UInt8) (address : Nat) :
    Except (Stop CodecError) α :=
  (decodeWith (record (Transportable.layout α)) bytes address).map fun (r, _) =>
    Transportable.ofRecord r

/-- The value at the start of bytes at `address`, in place, and the count of bytes it takes. -/
def decodeView (α : Type) [Transportable α] (bytes : List UInt8) (address : Nat) :
    Except (Stop CodecError) (View α × Nat) :=
  decodeWith (recordView (Transportable.layout α)) bytes address

/-- Lets the machine do something outside of a reader. -/
def compute (x : Except Fault β) : Except (Stop CodecError) β := x.mapError .fault

/-- The number that a part of the header spells, which is copied to a place for eight bytes. -/
def headerWord (header : List UInt8) (start stop : Nat) : Except Fault Nat :=
  match Word.range header start stop with
  | .ok bytes => if bytes.length = 8 then .ok (ofLittleEndian bytes) else .error .outOfRange
  | .error f => .error f

/-- The payload of a sealed record, if it was finished. -/
def payload [Checksum] (region : List UInt8) : Except (Stop CodecError) (List UInt8) :=
  if region.length < Sealed.headerLength then .error (.error .torn)
  else do
    let header ← compute (Word.range region 0 Sealed.headerLength)
    let rest ← compute (Word.range region Sealed.headerLength region.length)
    let length ← compute (headerWord header 0 8)
    let sum ← compute (headerWord header 8 header.length)
    if rest.length < length then throw (.error .torn)
    else
      let data ← compute (Word.range rest 0 length)
      if (Checksum.sum data).toNat ≠ sum then throw (.error .torn) else return data

end Guarded

theorem Reader.sound_start {bytes : List UInt8} (h : bytes.length < memoryLimit) (address : Nat) :
    (Reader.start bytes address).Sound :=
  ⟨h, Nat.zero_le _, rfl⟩

theorem Guards.decodeWith {Q : β → Prop} {guarded : Guarded β} {step : Reading β}
    (h : Guards Q guarded step) {bytes : List UInt8} (hbytes : bytes.length < memoryLimit)
    (address : Nat) :
    Guarded.decodeWith guarded bytes address =
      (Wire.decodeWith step bytes address).mapError .error := by
  have hgoes := h _ (Reader.sound_start hbytes address)
  rw [Guarded.decodeWith, Wire.decodeWith]
  generalize guarded.run (Reader.start bytes address) = left at hgoes
  generalize step.run (Reader.start bytes address) = right at hgoes
  cases hgoes with
  | ok hb hlast => rfl
  | error e hlast => rfl

section Values
variable {α : Type} [Transportable α] {bytes : List UInt8}

variable [Checksum]

end Values

end IsolatedSolving.Wire
