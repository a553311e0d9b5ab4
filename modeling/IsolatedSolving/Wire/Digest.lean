import IsolatedSolving.Wire.Bytes

/-! The digest behind a seal.

`sha256` is the secure hash of 256 bits: the message is closed by a one bit, zeros and its length in
bits, cut into blocks of sixteen words with the highest byte first, and each block is mixed into
eight registers in sixty-four rounds. A checksum is any function from bytes to 64 bits; the one in
use reads the first eight bytes of the digest, the lowest first. -/
namespace IsolatedSolving.Wire

/-- A function that condenses bytes to 64 bits. -/
class Checksum where
  sum : List UInt8 → UInt64

namespace Digest

/-! ### Rounds -/

/-- The eight words that a block is mixed into. -/
structure Registers where
  a : UInt32
  b : UInt32
  c : UInt32
  d : UInt32
  e : UInt32
  f : UInt32
  g : UInt32
  h : UInt32
deriving DecidableEq, Repr

/-- The registers before the first block. -/
def initial : Registers where
  a := 0x6a09e667
  b := 0xbb67ae85
  c := 0x3c6ef372
  d := 0xa54ff53a
  e := 0x510e527f
  f := 0x9b05688c
  g := 0x1f83d9ab
  h := 0x5be0cd19

/-- One constant for each round. -/
def roundConstants : List UInt32 :=
  [0x428a2f98, 0x71374491, 0xb5c0fbcf, 0xe9b5dba5, 0x3956c25b, 0x59f111f1, 0x923f82a4, 0xab1c5ed5,
   0xd807aa98, 0x12835b01, 0x243185be, 0x550c7dc3, 0x72be5d74, 0x80deb1fe, 0x9bdc06a7, 0xc19bf174,
   0xe49b69c1, 0xefbe4786, 0x0fc19dc6, 0x240ca1cc, 0x2de92c6f, 0x4a7484aa, 0x5cb0a9dc, 0x76f988da,
   0x983e5152, 0xa831c66d, 0xb00327c8, 0xbf597fc7, 0xc6e00bf3, 0xd5a79147, 0x06ca6351, 0x14292967,
   0x27b70a85, 0x2e1b2138, 0x4d2c6dfc, 0x53380d13, 0x650a7354, 0x766a0abb, 0x81c2c92e, 0x92722c85,
   0xa2bfe8a1, 0xa81a664b, 0xc24b8b70, 0xc76c51a3, 0xd192e819, 0xd6990624, 0xf40e3585, 0x106aa070,
   0x19a4c116, 0x1e376c08, 0x2748774c, 0x34b0bcb5, 0x391c0cb3, 0x4ed8aa4a, 0x5b9cca4f, 0x682e6ff3,
   0x748f82ee, 0x78a5636f, 0x84c87814, 0x8cc70208, 0x90befffa, 0xa4506ceb, 0xbef9a3f7, 0xc67178f2]

/-- The word turned right by `n` bits. -/
def rotate (w n : UInt32) : UInt32 := (w >>> n) ||| (w <<< (32 - n))

/-- The registers after a round with constant `k` and message word `w`. -/
def Registers.round (r : Registers) (k w : UInt32) : Registers :=
  let choice := (r.e &&& r.f) ^^^ (~~~r.e &&& r.g)
  let majority := (r.a &&& r.b) ^^^ (r.a &&& r.c) ^^^ (r.b &&& r.c)
  let first := r.h + (rotate r.e 6 ^^^ rotate r.e 11 ^^^ rotate r.e 25) + choice + k + w
  let second := (rotate r.a 2 ^^^ rotate r.a 13 ^^^ rotate r.a 22) + majority
  ⟨first + second, r.a, r.b, r.c, r.d + first, r.e, r.f, r.g⟩

/-- The word that follows the sixteen words of a window. -/
def following (window : List UInt32) : UInt32 :=
  let low := window.getD 1 0
  let high := window.getD 14 0
  window.getD 0 0 + (rotate low 7 ^^^ rotate low 18 ^^^ (low >>> 3)) + window.getD 9 0 +
    (rotate high 17 ^^^ rotate high 19 ^^^ (high >>> 10))

/-- Rounds for the constants, while the window of message words moves on. -/
def rounds : List UInt32 → List UInt32 → Registers → Registers
  | k :: ks, w :: rest, r => rounds ks (rest ++ [following (w :: rest)]) (r.round k w)
  | _, _, r => r

/-- The registers after a block. -/
def Registers.absorb (r : Registers) (block : List UInt32) : Registers :=
  let m := rounds roundConstants block r
  ⟨r.a + m.a, r.b + m.b, r.c + m.c, r.d + m.d, r.e + m.e, r.f + m.f, r.g + m.g, r.h + m.h⟩

/-! ### Messages -/

/-- The bytes of a number in `size` places, the highest first. -/
def bigEndian (size n : Nat) : List UInt8 := (littleEndian size n).reverse

/-- Bytes in groups of four as words; a shorter rest is left out. -/
def words : List UInt8 → List UInt32
  | b₀ :: b₁ :: b₂ :: b₃ :: rest =>
    (b₀.toUInt32 <<< 24 ||| b₁.toUInt32 <<< 16 ||| b₂.toUInt32 <<< 8 ||| b₃.toUInt32) :: words rest
  | _ => []

/-- The message closed by a one bit, zeros and its length in bits. -/
def closed (message : List UInt8) : List UInt8 :=
  let n := message.length
  message ++ 0x80 :: (List.replicate ((119 - n % 64) % 64) 0 ++ bigEndian 8 (8 * n))

/-- Mixes in blocks of sixteen words, `fuel` at most. -/
def absorbAll : Nat → List UInt32 → Registers → Registers
  | 0, _, r => r
  | fuel + 1, ws, r => if ws.isEmpty then r else absorbAll fuel (ws.drop 16) (r.absorb (ws.take 16))

/-- The hash of a message, 32 bytes. -/
def sha256 (message : List UInt8) : List UInt8 :=
  let ws := words (closed message)
  let r := absorbAll ws.length ws initial
  [r.a, r.b, r.c, r.d, r.e, r.f, r.g, r.h].flatMap fun w => bigEndian 4 w.toNat

/-- The first eight bytes of the digest, the lowest first. -/
def head (bytes : List UInt8) : UInt64 := UInt64.ofNat (ofLittleEndian ((sha256 bytes).take 8))

instance : Checksum := ⟨head⟩

end Digest

end IsolatedSolving.Wire
