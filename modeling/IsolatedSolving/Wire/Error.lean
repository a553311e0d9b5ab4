import IsolatedSolving.Wire.Element

/-! Why bytes could not be written or read. -/
namespace IsolatedSolving.Wire

/-- A failed read or write. `overflow` names the place, the padded length that did not fit there and
the length of the whole buffer; `torn` stands for a sealed record that was never finished. -/
inductive CodecError where
  | overflow (offset needed capacity : Nat)
  | invalidValue (element : Element)
  | invalidCount (count : Int)
  | misaligned (element : Element)
  | torn
deriving DecidableEq, Repr

def CodecError.message : CodecError → String
  | .overflow offset needed capacity =>
    s!"Buffer overflow: {needed} bytes at offset {offset} exceed capacity {capacity}"
  | .invalidValue element => s!"Invalid bit pattern for {element.label}"
  | .invalidCount count => s!"Invalid element count {count}"
  | .misaligned element => s!"Buffer not aligned for a view of {element.label}"
  | .torn => "Torn or missing record"

/-- One word for the kind of the failure. -/
def CodecError.kind : CodecError → String
  | .overflow .. => "Overflow"
  | .invalidValue _ => "InvalidValue"
  | .invalidCount _ => "InvalidCount"
  | .misaligned _ => "Misaligned"
  | .torn => "TornRecord"

end IsolatedSolving.Wire
