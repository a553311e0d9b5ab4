import IsolatedSolving.Proofs.Channel.Exchange
import IsolatedSolving.Proofs.Wire.Interrupted

/-! Writes that fail.

A write clears the checksum before it comes to the value, and it finds out on the way whether there is
space for it. If there is not, the region keeps the old length, has no checksum, and holds as much of the
new value as had a place (`write_error`). So a write that fails costs the record that was in the region
before: `failed_write_tears`. -/
namespace IsolatedSolving

namespace Wire.Sealed

variable [Checksum] {α β : Type} [Transportable α] [Transportable β]

/-- Only a region with space for a header can be read. -/
theorem headerLength_le_of_read {region : List UInt8} {r : β} (h : read β region = .ok r) :
    headerLength ≤ region.length := by
  refine Nat.le_of_not_lt fun hshort => ?_
  rw [read, payload, if_pos hshort] at h
  cases h

/-- There is no space for a value whose write fails. -/
theorem not_fits_of_write_error {region after : List UInt8} {a : α} {e : CodecError}
    (h : write region a = (.error e, after)) : ¬Fits region.length a := by
  intro hfits
  obtain ⟨ha, hspace⟩ := fits_iff.mp hfits
  rw [write_eq ha hspace] at h
  cases h

/-- What a write leaves that fails: the old length, no checksum, and a payload that is partly new. -/
theorem write_error {length sum rest after : List UInt8} {a : α} {e : CodecError}
    (hl : length.length = 8) (hs : sum.length = 8)
    (h : write (length ++ sum ++ rest) a = (.error e, after)) :
    ∃ payload, payload.length = rest.length ∧ after = length ++ littleEndian 8 0 ++ payload := by
  have hlen : ¬(length ++ sum ++ rest).length < headerLength := by
    simp only [List.length_append, hl, hs, headerLength]
    omega
  have hzero : (littleEndian 8 0).length = 8 := length_littleEndian 8 0
  have hcleared : overwrite (length ++ sum ++ rest) 8 (littleEndian 8 0) =
      length ++ littleEndian 8 0 ++ rest :=
    overwrite_parts length sum rest _ hl (by rw [hs, hzero])
  have hkept := length_encodeInto a rest
  simp only [write, if_neg hlen, drop_fields hl hs, hcleared] at h
  rcases hinto : encodeInto a rest with ⟨result, payload⟩
  rw [hinto] at h hkept
  cases result with
  | ok n => cases h
  | error e' =>
    cases h
    have hpayload : overwrite (length ++ littleEndian 8 0 ++ rest ++ []) headerLength payload =
        length ++ littleEndian 8 0 ++ payload ++ [] :=
      overwrite_parts (length ++ littleEndian 8 0) rest [] payload
        (by rw [List.length_append, hl, hzero]; rfl) hkept.symm
    rw [List.append_nil, List.append_nil] at hpayload
    exact ⟨payload, hkept, hpayload⟩

/-- After a write that fails, the region states the old length and no checksum, so that nothing can be
read from it. -/
theorem torn_of_write_error {region after : List UInt8} {r : β} {a : α} {e : CodecError}
    (hread : read β region = .ok r) (h : write region a = (.error e, after)) :
    statedLength after = statedLength region ∧ statedSum after = 0 ∧
      (NonzeroSum after → read β after = .error .torn) := by
  obtain ⟨length, sum, rest, hl, hs, rfl⟩ := region_fields (headerLength_le_of_read hread)
  obtain ⟨payload, -, rfl⟩ := write_error hl hs h
  have hzero : (littleEndian 8 0).length = 8 := length_littleEndian 8 0
  refine ⟨?_, ?_, read_cleared hl payload⟩
  · rw [statedLength_fields hl, statedLength_fields hl]
  · rw [statedSum_fields hl hzero]
    exact ofLittleEndian_littleEndian 8 0

end Wire.Sealed

namespace Channel

open Wire
open Wire.Sealed (Fits NonzeroSum finished statedLength statedSum)

section Failing
variable [Checksum]

/-- A failed write into a sink is one into its region, and is not counted. -/
theorem Sink.write_error {sink left : Sink} {x : Solution} {e : CodecError}
    (h : sink.write x = (.error e, left)) :
    Sealed.write sink.region x = (.error e, left.region) ∧ left.writes = sink.writes := by
  rcases hwrite : Sealed.write sink.region x with ⟨result, region⟩
  rw [Sink.write, hwrite] at h
  cases result with
  | ok n => cases h
  | error e' =>
    cases h
    exact ⟨rfl, rfl⟩

/-- **A write that fails costs the record before it.** Whatever could be read from a region, whatever the
value is and however the write fails: there was no space for the value, and afterwards the region
states the length of the old record without its checksum. Unless what it holds has the checksum zero,
nothing can be read any more. -/
theorem failed_write_tears :
    (∀ (α β : Type) [Transportable α] [Transportable β] (region after : List UInt8) (r : β) (v : α)
      (e : CodecError), Sealed.read β region = .ok r → Sealed.write region v = (.error e, after) →
        ¬Fits region.length v ∧ after.length = region.length ∧
          statedLength after = statedLength region ∧ statedSum after = 0 ∧
          (NonzeroSum after → Sealed.read β after = .error .torn)) ∧
    ∀ (sink left : Sink) (r x : Solution) (e : CodecError),
      sink.read = .ok r → sink.write x = (.error e, left) →
        ¬Fits sink.capacity x ∧ left.capacity = sink.capacity ∧ left.writes = sink.writes ∧
          (NonzeroSum left.region → left.read = .error .torn) := by
  constructor
  · intro α β _ _ region after r v e hread hwrite
    obtain ⟨hlength, hsum, htorn⟩ := Sealed.torn_of_write_error hread hwrite
    have hkept := Sealed.length_write region v
    rw [hwrite] at hkept
    exact ⟨Sealed.not_fits_of_write_error hwrite, hkept, hlength, hsum, htorn⟩
  · intro sink left r x e hread hwrite
    obtain ⟨hregion, hwrites⟩ := Sink.write_error hwrite
    obtain ⟨-, -, htorn⟩ := Sealed.torn_of_write_error hread hregion
    have hkept := Sink.capacity_write sink x
    rw [hwrite] at hkept
    exact ⟨Sealed.not_fits_of_write_error hregion, hkept, hwrites, htorn⟩

end Failing

/-- A result with one value, which takes eight bytes more than the empty one. -/
def found : Solution :=
  { Solution.empty .minimize with
    status := .suboptimal
    objective := ⟨0x3ff0000000000000⟩
    values := [⟨0x4014000000000000⟩] }

/-- A sink that holds the empty result and has no space for more. -/
def filled : Sink := .ofRegion (finished (Solution.empty .minimize))

theorem read_filled : filled.read = .ok (Solution.empty .minimize) := by
  have hread := Sealed.read_finished Solution.sized
    (Solution.recordable (Solution.writable_empty .minimize)) []
  rwa [List.append_nil] at hread

/-- The empty result is lost to a result with a value: the write fails at its last item, and
nothing can be read afterwards. -/
theorem torn_filled :
    ∃ left, filled.read = .ok (Solution.empty .minimize) ∧
      filled.write found = (.error (.overflow 48 8 48), left) ∧ left.read = .error .torn := by
  have hwrite : filled.write found = (.error (.overflow 48 8 48), (filled.write found).2) := rfl
  obtain ⟨hregion, -⟩ := Sink.write_error hwrite
  obtain ⟨-, -, htorn⟩ := Sealed.torn_of_write_error read_filled hregion
  exact ⟨_, read_filled, hwrite, htorn (by decide +kernel)⟩

/-- The empty result is lost to a problem that is written in its place, too, and a sink that holds it to
a result with values and dual values. -/
theorem failed_write_tears_filled :
    (∃ e after, Sealed.write filled.region Problem.empty = (.error e, after) ∧
      Sealed.read Solution after = .error .torn) ∧
    ∃ e left, filled.write (Solution.largest 2 3) = (.error e, left) ∧ left.writes = 0 ∧
      left.read = .error .torn := by
  obtain ⟨hregions, hsinks⟩ := failed_write_tears
  have hproblem : Sealed.write filled.region Problem.empty =
      (.error (.overflow 48 8 48), (Sealed.write filled.region Problem.empty).2) := rfl
  have hresult : filled.write (Solution.largest 2 3) =
      (.error (.overflow 48 24 48), (filled.write (Solution.largest 2 3)).2) := rfl
  obtain ⟨-, -, -, -, htorn⟩ := hregions Problem Solution _ _ _ _ _ read_filled hproblem
  obtain ⟨-, -, hwrites, hleft⟩ := hsinks _ _ _ _ _ read_filled hresult
  exact ⟨⟨_, _, hproblem, htorn (by decide +kernel)⟩, _, _, hresult, hwrites,
    hleft (by decide +kernel)⟩

end Channel

end IsolatedSolving
