/-! Numbers as bytes and regions of bytes.

A number takes a fixed count of bytes, the lowest first: `ofLittleEndian` reads what `littleEndian`
writes, and reading any bytes and writing them again gives the same bytes. Items start at multiples
of eight, so lengths are rounded up by `paddedLength`. `overwrite` replaces bytes inside a region and
never changes its length. -/
namespace IsolatedSolving.Wire

/-! ### Little-endian numbers -/

/-- The lowest `size` bytes of a number, the lowest first. -/
def littleEndian : Nat → Nat → List UInt8
  | 0, _ => []
  | size + 1, n => UInt8.ofNat n :: littleEndian size (n / 256)

/-- The number whose bytes these are, the lowest first. -/
def ofLittleEndian : List UInt8 → Nat
  | [] => 0
  | b :: bs => b.toNat + 256 * ofLittleEndian bs

/-- How many numbers can be told apart in so many bytes. -/
def capacity : Nat → Nat
  | 0 => 1
  | size + 1 => 256 * capacity size

@[simp] theorem length_littleEndian (size n : Nat) : (littleEndian size n).length = size := by
  induction size generalizing n with
  | zero => rfl
  | succ size ih => simp [littleEndian, ih]

theorem ofLittleEndian_littleEndian (size n : Nat) :
    ofLittleEndian (littleEndian size n) = n % capacity size := by
  induction size generalizing n with
  | zero => simp [littleEndian, ofLittleEndian, capacity, Nat.mod_one]
  | succ size ih =>
    simp only [littleEndian, ofLittleEndian, ih, UInt8.toNat_ofNat']
    exact Nat.mod_mul.symm

theorem littleEndian_ofLittleEndian (bs : List UInt8) :
    littleEndian bs.length (ofLittleEndian bs) = bs := by
  induction bs with
  | nil => rfl
  | cons b bs ih =>
    have hb := b.toNat_lt
    have hd : (b.toNat + 256 * ofLittleEndian bs) / 256 = ofLittleEndian bs := by omega
    have hm : UInt8.ofNat (b.toNat + 256 * ofLittleEndian bs) = b := by
      apply UInt8.toNat_inj.mp
      simp only [UInt8.toNat_ofNat']
      omega
    simp only [List.length_cons, littleEndian, ofLittleEndian, hd, hm, ih]

/-! ### Padding -/

/-- Every item starts at a multiple of this many bytes. -/
def itemAlignment : Nat := 8

/-- The length rounded up to the next multiple of the item alignment. -/
def paddedLength (n : Nat) : Nat := (n + 7) / 8 * 8

/-- The bytes followed by zeros up to the padded length. -/
def pad (bs : List UInt8) : List UInt8 :=
  bs ++ List.replicate (paddedLength bs.length - bs.length) 0

theorem le_paddedLength (n : Nat) : n ≤ paddedLength n := by unfold paddedLength; omega

theorem paddedLength_mod (n : Nat) : paddedLength n % 8 = 0 := by unfold paddedLength; omega

@[simp] theorem length_pad (bs : List UInt8) : (pad bs).length = paddedLength bs.length := by
  have := le_paddedLength bs.length
  simp only [pad, List.length_append, List.length_replicate]
  omega

/-! ### Regions -/

/-- The region with `data` at offset `start`; what would lie past the end is left out. -/
def overwrite (region : List UInt8) (start : Nat) (data : List UInt8) : List UInt8 :=
  (region.take start ++ data ++ region.drop (start + data.length)).take region.length

/-- The `length` bytes of the region from `start` on, fewer at its end. -/
def slice (region : List UInt8) (start length : Nat) : List UInt8 :=
  (region.drop start).take length

@[simp] theorem length_overwrite (region : List UInt8) (start : Nat) (data : List UInt8) :
    (overwrite region start data).length = region.length := by
  simp only [overwrite, List.length_take, List.length_append, List.length_drop]
  omega

end IsolatedSolving.Wire
