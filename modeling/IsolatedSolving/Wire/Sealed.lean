import IsolatedSolving.Wire.Digest
import IsolatedSolving.Wire.Reader
import IsolatedSolving.Wire.Writer

/-! Records that show whether they were finished.

A sealed record is a length, a checksum and the payload of that length. Writing clears the checksum
before it touches the payload and stores the new one last, so a writer that is stopped halfway leaves
a record that reads as torn. A write that fails leaves the region with the checksum cleared. -/
namespace IsolatedSolving.Wire.Sealed

/-- The bytes in front of the payload: its length and its checksum, eight bytes each. -/
def headerLength : Nat := 16

/-- The space for a sealed record of `n` payload bytes. -/
def recordLength (n : Nat) : Nat := headerLength + paddedLength n

variable [Checksum]

/-- Seals the value at the start of the region: the count of bytes used, and the region afterwards. -/
def write {α : Type} [Transportable α] (region : List UInt8) (a : α) :
    Except CodecError Nat × List UInt8 :=
  if region.length < headerLength then (.error (.overflow 0 headerLength region.length), region)
  else
    let cleared := overwrite region 8 (littleEndian 8 0)
    match encodeInto a (region.drop headerLength) with
    | (.error e, payload) => (.error e, overwrite cleared headerLength payload)
    | (.ok n, payload) =>
      let header := littleEndian 8 n ++ littleEndian 8 (Checksum.sum (payload.take n)).toNat
      (.ok (headerLength + n), overwrite (overwrite cleared headerLength payload) 0 header)

/-- The length that the header states. -/
def statedLength (region : List UInt8) : Nat := ofLittleEndian (slice region 0 8)

/-- The checksum that the header states. -/
def statedSum (region : List UInt8) : Nat := ofLittleEndian (slice region 8 8)

/-- The payload, if the record was finished. -/
def payload (region : List UInt8) : Except CodecError (List UInt8) :=
  if region.length < headerLength then .error .torn
  else
    let rest := region.drop headerLength
    let n := statedLength region
    if rest.length < n then .error .torn
    else if (Checksum.sum (rest.take n)).toNat ≠ statedSum region then .error .torn
    else .ok (rest.take n)

/-- The value of a finished record. -/
def read (α : Type) [Transportable α] (region : List UInt8) : Except CodecError α :=
  (payload region).bind (decode α)

end IsolatedSolving.Wire.Sealed
