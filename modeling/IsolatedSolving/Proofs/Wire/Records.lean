import IsolatedSolving.Proofs.Wire.Reading
import IsolatedSolving.Wire.Sealed

/-! Finished records.

A region that starts with the `finished` record of a value reads as that value, whatever follows
(`read_finished`), and a write that has enough space leaves such a region behind, whatever was in it
before (`write_eq`): the record of a long value leaves nothing of itself in the reading of a shorter
one that replaces it. -/
namespace IsolatedSolving.Wire.Sealed

variable {α : Type} [Transportable α]

/-- Values that have a record: their counts can be written, and so can the length of their bytes. -/
structure Recordable (a : α) : Prop where
  writable : Writable a
  short : extent (pieces a) < capacity 8

/-- There is space for a record of the value. -/
def Fits (space : Nat) (a : α) : Prop := ∃ n, encodedLength a = .ok n ∧ recordLength n ≤ space

theorem recordLength_extent (ps : List Piece) :
    recordLength (extent ps) = headerLength + extent ps := by
  have := extent_mod ps
  unfold recordLength paddedLength
  omega

theorem fits_iff {space : Nat} {a : α} :
    Fits space a ↔ Writable a ∧ headerLength + extent (pieces a) ≤ space := by
  constructor
  · rintro ⟨n, hn, hle⟩
    obtain ⟨ha, rfl⟩ := encodedLength_eq_ok_iff.mp hn
    exact ⟨ha, recordLength_extent _ ▸ hle⟩
  · rintro ⟨ha, hle⟩
    exact ⟨_, encodedLength_eq_ok_iff.mpr ⟨ha, rfl⟩, (recordLength_extent _).symm ▸ hle⟩

/-! ### The fields of a region -/

/-- A region with space for a header, in parts. -/
theorem region_fields {region : List UInt8} (h : headerLength ≤ region.length) :
    ∃ length sum rest, length.length = 8 ∧ sum.length = 8 ∧ region = length ++ sum ++ rest := by
  have h16 : 16 ≤ region.length := h
  refine ⟨region.take 8, (region.drop 8).take 8, region.drop 16, ?_, ?_, ?_⟩
  · rw [List.length_take]; omega
  · rw [List.length_take, List.length_drop]; omega
  · have hrest : region.drop 16 = (region.drop 8).drop 8 := by rw [List.drop_drop]
    rw [hrest, List.append_assoc, List.take_append_drop, List.take_append_drop]

section Fields
variable {length sum rest : List UInt8}

theorem drop_fields (hl : length.length = 8) (hs : sum.length = 8) :
    (length ++ sum ++ rest).drop headerLength = rest :=
  List.drop_left' (by rw [List.length_append, hl, hs]; rfl)

theorem statedLength_fields (hl : length.length = 8) :
    statedLength (length ++ sum ++ rest) = ofLittleEndian length := by
  have hslice : slice ([] ++ length ++ (sum ++ rest)) 0 8 = length :=
    slice_parts [] length (sum ++ rest) rfl hl
  rw [List.nil_append, ← List.append_assoc] at hslice
  rw [statedLength, hslice]

theorem statedSum_fields (hl : length.length = 8) (hs : sum.length = 8) :
    statedSum (length ++ sum ++ rest) = ofLittleEndian sum := by
  rw [statedSum, slice_parts length sum rest hl hs]

/-- The payload of a region by its fields. -/
theorem payload_fields [Checksum] (hl : length.length = 8) (hs : sum.length = 8) :
    payload (length ++ sum ++ rest) =
      if rest.length < ofLittleEndian length then .error .torn
      else if (Checksum.sum (rest.take (ofLittleEndian length))).toNat ≠ ofLittleEndian sum then
        .error .torn
      else .ok (rest.take (ofLittleEndian length)) := by
  have hlen : ¬(length ++ sum ++ rest).length < headerLength := by
    simp only [List.length_append, hl, hs, headerLength]
    omega
  simp only [payload, if_neg hlen, drop_fields hl hs, statedLength_fields hl,
    statedSum_fields hl hs]

end Fields

/-! ### The fields of a record -/

/-- The bytes of a length. -/
def lengthField (a : α) : List UInt8 := littleEndian 8 (extent (pieces a))

@[simp] theorem length_lengthField (a : α) : (lengthField a).length = 8 := length_littleEndian _ _

theorem ofLittleEndian_lengthField {a : α} (ha : extent (pieces a) < capacity 8) :
    ofLittleEndian (lengthField a) = extent (pieces a) := by
  rw [lengthField, ofLittleEndian_littleEndian, Nat.mod_eq_of_lt ha]

variable [Checksum]

/-- The bytes of a checksum. -/
def sumField (a : α) : List UInt8 := littleEndian 8 (Checksum.sum (image (pieces a))).toNat

/-- The finished record of a value. -/
def finished (a : α) : List UInt8 := lengthField a ++ sumField a ++ image (pieces a)

@[simp] theorem length_sumField (a : α) : (sumField a).length = 8 := length_littleEndian _ _

theorem ofLittleEndian_sumField (a : α) :
    ofLittleEndian (sumField a) = (Checksum.sum (image (pieces a))).toNat := by
  rw [sumField, ofLittleEndian_littleEndian]
  exact Nat.mod_eq_of_lt (UInt64.toNat_lt _)

@[simp] theorem length_finished (a : α) :
    (finished a).length = headerLength + extent (pieces a) := by
  simp only [finished, List.length_append, length_lengthField, length_sumField, length_image]
  rfl

/-! ### Writing and reading -/

theorem payload_finished {a : α} (ha : Recordable a) (rest : List UInt8) :
    payload (finished a ++ rest) = .ok (image (pieces a)) := by
  have htake : (image (pieces a) ++ rest).take (extent (pieces a)) = image (pieces a) :=
    List.take_left' (length_image _)
  have hlen : ¬(image (pieces a) ++ rest).length < extent (pieces a) := by
    rw [List.length_append, length_image]
    omega
  rw [finished, List.append_assoc, payload_fields (length_lengthField a) (length_sumField a),
    ofLittleEndian_lengthField ha.short, if_neg hlen, htake, ofLittleEndian_sumField,
    if_neg (not_not_intro rfl)]

/-- A finished record reads as its value, whatever follows it. -/
theorem read_finished (hα : Sized α) {a : α} (ha : Recordable a) (rest : List UInt8) :
    read α (finished a ++ rest) = .ok a := by
  have hdec := decode_image hα ha.writable []
  rw [List.append_nil] at hdec
  rw [read, payload_finished ha rest]
  exact hdec

/-- A region keeps its length, whether there is space for the value or not. -/
theorem length_write (region : List UInt8) (a : α) : (write region a).2.length = region.length := by
  rw [write]
  split
  · rfl
  · split <;> simp only [length_overwrite]

/-- A write succeeds only with enough space. -/
theorem fits_of_write {region after : List UInt8} {a : α} {n : Nat}
    (h : write region a = (.ok n, after)) : Fits region.length a := by
  rw [write] at h
  split at h
  · cases h
  next hheader =>
  have hheader := Nat.not_lt.mp hheader
  split at h
  · cases h
  · next hinto =>
    obtain ⟨ha, hroom⟩ := extent_le_of_encodeInto hinto
    rw [List.length_drop] at hroom
    exact fits_iff.mpr ⟨ha, by omega⟩

/-- **A write with enough space leaves the finished record**, and every byte behind it as it was. -/
theorem write_eq {a : α} (ha : Writable a) {region : List UInt8}
    (h : headerLength + extent (pieces a) ≤ region.length) :
    write region a = (.ok (headerLength + extent (pieces a)),
      finished a ++ region.drop (headerLength + extent (pieces a))) := by
  obtain ⟨length, sum, rest, hl, hs, rfl⟩ := region_fields (Nat.le_of_add_right_le h)
  have hrest : extent (pieces a) ≤ rest.length := by
    simp only [List.length_append, hl, hs, headerLength] at h
    omega
  have hlen : ¬(length ++ sum ++ rest).length < headerLength := by omega
  have hdrop : (length ++ sum ++ rest).drop (headerLength + extent (pieces a)) =
      rest.drop (extent (pieces a)) := by
    rw [← List.drop_drop, drop_fields hl hs]
  let stored := image (pieces a) ++ rest.drop (extent (pieces a))
  have hcleared : overwrite (length ++ sum ++ rest) 8 (littleEndian 8 0) =
      length ++ littleEndian 8 0 ++ rest :=
    overwrite_parts length sum rest _ hl (by rw [hs, length_littleEndian])
  have hpayload : overwrite (length ++ littleEndian 8 0 ++ rest ++ []) headerLength stored =
      length ++ littleEndian 8 0 ++ stored ++ [] :=
    overwrite_parts (length ++ littleEndian 8 0) rest [] stored
      (by rw [List.length_append, hl, length_littleEndian]; rfl)
      (by simp only [stored, List.length_append, length_image, List.length_drop]; omega)
  have hheader : overwrite ([] ++ (length ++ littleEndian 8 0) ++ stored) 0
      (lengthField a ++ sumField a) = [] ++ (lengthField a ++ sumField a) ++ stored :=
    overwrite_parts [] (length ++ littleEndian 8 0) stored _ rfl
      (by simp only [List.length_append, hl, length_littleEndian, length_lengthField,
        length_sumField])
  simp only [List.append_nil, List.nil_append] at hpayload hheader
  simp only [write, if_neg hlen, drop_fields hl hs, encodeInto_eq ha hrest, hcleared,
    List.take_left' (length_image (pieces a))]
  rw [hdrop, hpayload, show littleEndian 8 (extent (pieces a)) = lengthField a from rfl,
    show littleEndian 8 (Checksum.sum (image (pieces a))).toNat = sumField a from rfl, hheader,
    finished, List.append_assoc (lengthField a ++ sumField a)]

end IsolatedSolving.Wire.Sealed
