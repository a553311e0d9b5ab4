import IsolatedSolving.Number.Binary64
import IsolatedSolving.Problem.Kind
import IsolatedSolving.Solution.Status
import IsolatedSolving.Wire.Bytes

/-! The elements that can be written as bytes.

An element is a plain type of fixed size. Each value has a code, the number that its bytes spell with
the lowest byte first, and `ofCode?` takes back exactly the codes of values: some patterns of a
truth value, a character or an enumeration stand for nothing. So `decode` undoes `encode`, and bytes
that decode are the encoding of what they decode to. -/
namespace IsolatedSolving

/-- A 32-bit binary floating-point number, given by its bit pattern. -/
structure Binary32 where
  bits : UInt32
deriving DecidableEq, Repr

namespace Wire

/-- The plain types. -/
inductive Element where
  | int8 | uint8 | int16 | uint16 | int32 | uint32 | int64 | uint64
  | float32 | float64
  | bool | char | triple | unit
  | kind | sense | status
deriving DecidableEq, Repr

namespace Element

/-- What the values of an element are. A triple is three bytes. -/
abbrev Value : Element → Type
  | int8 => Int8
  | uint8 => UInt8
  | int16 => Int16
  | uint16 => UInt16
  | int32 => Int32
  | uint32 => UInt32
  | int64 => Int64
  | uint64 => UInt64
  | float32 => Binary32
  | float64 => Binary64
  | bool => Bool
  | char => Char
  | triple => UInt8 × UInt8 × UInt8
  | unit => Unit
  | kind => VariableKind
  | sense => Sense
  | status => Status

/-- The count of bytes of a value. -/
def size : Element → Nat
  | int8 | uint8 | bool => 1
  | int16 | uint16 => 2
  | int32 | uint32 | float32 | char | kind | sense | status => 4
  | int64 | uint64 | float64 => 8
  | triple => 3
  | unit => 0

/-- Values lie at addresses that are multiples of this when they are used in place. -/
def alignment : Element → Nat
  | int8 | uint8 | bool | triple | unit => 1
  | int16 | uint16 => 2
  | int32 | uint32 | float32 | char | kind | sense | status => 4
  | int64 | uint64 | float64 => 8

/-- The name of an element in messages. -/
def label : Element → String
  | int8 => "i8"
  | uint8 => "u8"
  | int16 => "i16"
  | uint16 => "u16"
  | int32 => "i32"
  | uint32 => "u32"
  | int64 => "i64"
  | uint64 => "u64"
  | float32 => "f32"
  | float64 => "f64"
  | bool => "bool"
  | char => "char"
  | triple => "[u8; 3]"
  | unit => "()"
  | kind => "ilp_solver_common::problem::VariableType"
  | sense => "ilp_solver_common::problem::ObjectiveSense"
  | status => "ilp_solver_common::solution::SolutionStatus"

/-- All elements. -/
def all : List Element :=
  [int8, uint8, int16, uint16, int32, uint32, int64, uint64, float32, float64, bool, char, triple,
    unit, kind, sense, status]

/-- The element that messages call by this name. -/
def ofLabel? (text : String) : Option Element := all.find? fun e => e.label == text

/-- The number that the bytes of a value spell. -/
def code : (e : Element) → e.Value → Nat
  | int8, v => v.toUInt8.toNat
  | uint8, v => v.toNat
  | int16, v => v.toUInt16.toNat
  | uint16, v => v.toNat
  | int32, v => v.toUInt32.toNat
  | uint32, v => v.toNat
  | int64, v => v.toUInt64.toNat
  | uint64, v => v.toNat
  | float32, v => v.bits.toNat
  | float64, v => v.bits.toNat
  | bool, v => v.toNat
  | char, v => v.toNat
  | triple, (a, b, c) => a.toNat + 256 * (b.toNat + 256 * c.toNat)
  | unit, _ => 0
  | kind, v => v.code
  | sense, v => v.code
  | status, v => v.code

/-- The value with this code, if there is one. -/
def ofCode? : (e : Element) → Nat → Option e.Value
  | int8, n => if n < UInt8.size then some (UInt8.ofNat n).toInt8 else none
  | uint8, n => if n < UInt8.size then some (UInt8.ofNat n) else none
  | int16, n => if n < UInt16.size then some (UInt16.ofNat n).toInt16 else none
  | uint16, n => if n < UInt16.size then some (UInt16.ofNat n) else none
  | int32, n => if n < UInt32.size then some (UInt32.ofNat n).toInt32 else none
  | uint32, n => if n < UInt32.size then some (UInt32.ofNat n) else none
  | int64, n => if n < UInt64.size then some (UInt64.ofNat n).toInt64 else none
  | uint64, n => if n < UInt64.size then some (UInt64.ofNat n) else none
  | float32, n => if n < UInt32.size then some ⟨UInt32.ofNat n⟩ else none
  | float64, n => if n < UInt64.size then some ⟨UInt64.ofNat n⟩ else none
  | bool, n => if n = 0 then some false else if n = 1 then some true else none
  | char, n => if n.isValidChar then some (Char.ofNat n) else none
  | triple, n =>
    if n < 0x1000000 then some (UInt8.ofNat n, UInt8.ofNat (n / 256), UInt8.ofNat (n / 65536)) else none
  | unit, n => if n = 0 then some () else none
  | kind, n => VariableKind.ofCode? n
  | sense, n => Sense.ofCode? n
  | status, n => Status.ofCode? n

/-- The bytes of a value. -/
def encode (e : Element) (v : e.Value) : List UInt8 := littleEndian e.size (e.code v)

/-- The value that the bytes spell, if they stand for one. -/
def decode (e : Element) (bs : List UInt8) : Option e.Value := e.ofCode? (ofLittleEndian bs)

/-! ### Codes and values -/

theorem code_lt (e : Element) (v : e.Value) : e.code v < capacity e.size := by
  cases e
  case int8 => exact v.toUInt8.toNat_lt
  case uint8 => exact v.toNat_lt
  case int16 => exact v.toUInt16.toNat_lt
  case uint16 => exact v.toNat_lt
  case int32 => exact v.toUInt32.toNat_lt
  case uint32 => exact v.toNat_lt
  case int64 => exact v.toUInt64.toNat_lt
  case uint64 => exact v.toNat_lt
  case float32 => exact v.bits.toNat_lt
  case float64 => exact v.bits.toNat_lt
  case bool => cases v <;> decide
  case char =>
    have := v.val.toNat_lt
    show v.val.toNat < 0x100000000
    omega
  case triple =>
    obtain ⟨a, b, c⟩ := v
    have ha := a.toNat_lt
    have hb := b.toNat_lt
    have hc := c.toNat_lt
    simp only [code, size, capacity]
    omega
  case unit => exact Nat.one_pos
  case kind => cases v <;> decide
  case sense => cases v <;> decide
  case status => cases v <;> decide

theorem ofCode?_code (e : Element) (v : e.Value) : e.ofCode? (e.code v) = some v := by
  cases e
  case int8 => simp [ofCode?, code, v.toUInt8.toNat_lt]
  case uint8 => simp [ofCode?, code, v.toNat_lt]
  case int16 => simp [ofCode?, code, v.toUInt16.toNat_lt]
  case uint16 => simp [ofCode?, code, v.toNat_lt]
  case int32 => simp [ofCode?, code, v.toUInt32.toNat_lt]
  case uint32 => simp [ofCode?, code, v.toNat_lt]
  case int64 => simp [ofCode?, code, v.toUInt64.toNat_lt]
  case uint64 => simp [ofCode?, code, v.toNat_lt]
  case float32 => simp [ofCode?, code, v.bits.toNat_lt]
  case float64 => simp [ofCode?, code, v.bits.toNat_lt]
  case bool => cases v <;> rfl
  case char =>
    have hv : v.toNat.isValidChar := v.valid
    simp [ofCode?, code, hv]
  case triple =>
    obtain ⟨a, b, c⟩ := v
    have ha := a.toNat_lt
    have hb := b.toNat_lt
    have hc := c.toNat_lt
    have hn : a.toNat + 256 * (b.toNat + 256 * c.toNat) < 0x1000000 := by omega
    simp only [ofCode?, code, hn, if_true, Option.some.injEq, Prod.mk.injEq]
    refine ⟨?_, ?_, ?_⟩ <;> apply UInt8.toNat_inj.mp <;> simp only [UInt8.toNat_ofNat'] <;> omega
  case unit => rfl
  case kind => exact VariableKind.ofCode?_code v
  case sense => exact Sense.ofCode?_code v
  case status => exact Status.ofCode?_code v

@[simp] theorem length_encode (e : Element) (v : e.Value) : (e.encode v).length = e.size :=
  length_littleEndian _ _

theorem decode_encode (e : Element) (v : e.Value) : e.decode (e.encode v) = some v := by
  rw [decode, encode, ofLittleEndian_littleEndian, Nat.mod_eq_of_lt (e.code_lt v), ofCode?_code]

theorem code_of_ofCode? (e : Element) {n : Nat} {v : e.Value} (h : e.ofCode? n = some v) :
    e.code v = n := by
  cases e
  case bool =>
    simp only [ofCode?] at h
    split at h
    · cases h; simp [code, *]
    · split at h <;> cases h
      simp [code, *]
  case char =>
    simp only [ofCode?] at h
    split at h <;> cases h
    rename_i hv
    show (Char.ofNat n).toNat = n
    rw [Char.ofNat, dif_pos hv]
    rfl
  case triple =>
    simp only [ofCode?] at h
    split at h <;> cases h
    simp only [code, UInt8.toNat_ofNat']
    omega
  case unit =>
    simp only [ofCode?] at h
    split at h <;> cases h
    simp [code, *]
  case kind => exact VariableKind.code_of_ofCode? h
  case sense => exact Sense.code_of_ofCode? h
  case status => exact Status.code_of_ofCode? h
  all_goals
    simp only [ofCode?] at h
    split at h <;> cases h
    simp [code]
    omega

theorem encode_of_decode (e : Element) {bs : List UInt8} {v : e.Value} (hl : bs.length = e.size)
    (h : e.decode bs = some v) : e.encode v = bs := by
  rw [encode, e.code_of_ofCode? h, ← hl, littleEndian_ofLittleEndian]

end Element

end Wire

end IsolatedSolving
