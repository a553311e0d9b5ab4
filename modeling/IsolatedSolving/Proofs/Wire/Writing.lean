import IsolatedSolving.Solution.Bound
import IsolatedSolving.Wire.Writer

/-! What a writer leaves behind.

A value is writable if none of its counts is too large, and this is the only thing that can keep the
counting pass from its end (`encodedLength_eq_ok_iff`). The writing pass comes to the same place: in a
buffer with enough space, `encodeInto_eq` finds the image of the pieces at the start and every byte
behind it as it was. -/
namespace IsolatedSolving.Wire

/-! ### Regions in parts -/

/-- Replacing the middle part of a region by as many bytes. -/
theorem overwrite_parts (front old back data : List UInt8) {start : Nat}
    (hs : front.length = start) (h : old.length = data.length) :
    overwrite (front ++ old ++ back) start data = front ++ data ++ back := by
  subst hs
  have hdrop : (front ++ old ++ back).drop (front.length + data.length) = back := by
    rw [← h, ← List.length_append, List.drop_left]
  have hlen : (front ++ old ++ back).length = (front ++ data ++ back).length := by
    simp only [List.length_append, h]
  rw [overwrite, hdrop, hlen, List.append_assoc front old back, List.take_left, List.take_length]

/-- The middle part of a region. -/
theorem slice_parts (front middle back : List UInt8) {start length : Nat}
    (hs : front.length = start) (hl : middle.length = length) :
    slice (front ++ middle ++ back) start length = middle := by
  subst hs hl
  rw [slice, List.append_assoc, List.drop_left, List.take_left]

/-! ### Pieces -/

theorem extent_mod (ps : List Piece) : extent ps % 8 = 0 := by
  induction ps with
  | nil => rfl
  | cons p ps ih =>
    have hp : p.length % 8 = 0 := paddedLength_mod _
    rw [extent_cons]
    omega

/-- None of the counts is too large to be written. -/
def Writable {α : Type} [Transportable α] (a : α) : Prop := ∀ p ∈ pieces a, p.writable = true

instance {α : Type} [Transportable α] (a : α) : Decidable (Writable a) :=
  inferInstanceAs (Decidable (∀ p ∈ pieces a, p.writable = true))

namespace Writer

/-- One piece, counted. -/
theorem counting_put (position : Nat) (p : Piece) (hp : p.writable = true) :
    (⟨none, position⟩ : Writer).put p = .ok ⟨none, position + p.length⟩ := by
  simp [put, hp]

/-- One piece into the place that is left for it. -/
theorem put_parts (front old back : List UInt8) (p : Piece) (hp : p.writable = true)
    (h : old.length = p.length) :
    (⟨some (front ++ old ++ back), front.length⟩ : Writer).put p =
      .ok ⟨some (front ++ pad p.data ++ back), front.length + p.length⟩ := by
  have hstop : front.length + p.length ≤ (front ++ old ++ back).length := by
    simp only [List.length_append]
    omega
  have hover := overwrite_parts front old back (pad p.data) rfl (by rw [length_pad, h]; rfl)
  simp only [put, hp, Bool.not_true, Bool.false_eq_true, if_false, hstop, if_true, hover]

/-- Writable pieces, counted, take their extent. -/
theorem counting_write (ps : List Piece) (position : Nat) (hp : ∀ p ∈ ps, p.writable = true) :
    (⟨none, position⟩ : Writer).write ps = (.ok (), ⟨none, position + extent ps⟩) := by
  induction ps generalizing position with
  | nil => rfl
  | cons p ps ih =>
    simp only [write, counting_put position p (hp p List.mem_cons_self)]
    rw [ih _ (fun q hq => hp q (List.mem_cons_of_mem p hq)), extent_cons, Nat.add_assoc]

/-- A piece that was put is writable. -/
theorem writable_of_put {w next : Writer} {p : Piece} (h : w.put p = .ok next) :
    p.writable = true := by
  cases hp : p.writable with
  | true => rfl
  | false => simp [put, hp] at h

/-- Pieces that were all written are all writable. -/
theorem writable_of_write {ps : List Piece} {w next : Writer} (h : w.write ps = (.ok (), next)) :
    ∀ p ∈ ps, p.writable = true := by
  induction ps generalizing w with
  | nil => intro p hp; cases hp
  | cons q ps ih =>
    simp only [write] at h
    cases hput : w.put q with
    | error e => rw [hput] at h; simp at h
    | ok middle =>
      rw [hput] at h
      intro p hp
      rcases List.mem_cons.mp hp with rfl | hp
      · exact writable_of_put hput
      · exact ih h p hp

/-- What a piece that was put has asked of the writer. A buffer keeps its length. -/
theorem put_ok {w next : Writer} {p : Piece} (h : w.put p = .ok next) :
    next.position = w.position + p.length ∧
      next.buffer.map List.length = w.buffer.map List.length ∧
      ∀ buffer, w.buffer = some buffer → w.position + p.length ≤ buffer.length := by
  unfold put at h
  split at h
  · cases h
  split at h
  · next hnone =>
    cases h
    exact ⟨rfl, by rw [hnone], fun buffer hsome => by rw [hnone] at hsome; cases hsome⟩
  · next buffer hsome =>
    by_cases hstop : w.position + p.length ≤ buffer.length
    · simp only [if_pos hstop] at h
      cases h
      refine ⟨rfl, ?_, fun other hother => ?_⟩
      · rw [hsome, Option.map_some, Option.map_some, length_overwrite]
      · cases hsome.symm.trans hother
        exact hstop
    · simp only [if_neg hstop] at h
      cases h

/-- A buffer keeps its length, whether the pieces are all written or not. -/
theorem length_buffer_write (ps : List Piece) (w : Writer) :
    (w.write ps).2.buffer.map List.length = w.buffer.map List.length := by
  induction ps generalizing w with
  | nil => rfl
  | cons p ps ih =>
    rw [write]
    split
    · next middle hput => exact (ih middle).trans (put_ok hput).2.1
    · rfl

/-- Pieces that were all written end within the buffer, if they start within it. -/
theorem extent_le_of_write {ps : List Piece} {w next : Writer} (h : w.write ps = (.ok (), next))
    {buffer : List UInt8} (hbuffer : w.buffer = some buffer) (hstart : w.position ≤ buffer.length) :
    w.position + extent ps ≤ buffer.length := by
  induction ps generalizing w buffer with
  | nil => exact hstart
  | cons p ps ih =>
    rw [write] at h
    split at h
    · next middle hput =>
      obtain ⟨hposition, hlength, hroom⟩ := put_ok hput
      rw [hbuffer, Option.map_some] at hlength
      obtain ⟨kept, hkept, hsame⟩ := Option.map_eq_some_iff.mp hlength
      have hplace : middle.position ≤ kept.length := by
        rw [hposition, hsame]
        exact hroom buffer hbuffer
      have hrest := ih h hkept hplace
      rw [extent_cons]
      omega
    · cases h

/-- Writable pieces into the place that is left for them. -/
theorem write_parts (ps : List Piece) (front old back : List UInt8)
    (hp : ∀ p ∈ ps, p.writable = true) (h : old.length = extent ps) :
    (⟨some (front ++ old ++ back), front.length⟩ : Writer).write ps =
      (.ok (), ⟨some (front ++ image ps ++ back), front.length + extent ps⟩) := by
  induction ps generalizing front old with
  | nil =>
    have hold : old = [] := List.eq_nil_of_length_eq_zero h
    subst hold
    rfl
  | cons p ps ih =>
    have hle : p.length ≤ old.length := by rw [h, extent_cons]; omega
    have hfirst : (old.take p.length).length = p.length := by rw [List.length_take]; omega
    have hput := put_parts front (old.take p.length) (old.drop p.length ++ back) p
      (hp p List.mem_cons_self) hfirst
    have hsplit : front ++ old.take p.length ++ (old.drop p.length ++ back) =
        front ++ old ++ back := by
      rw [← List.append_assoc, List.append_assoc front, List.take_append_drop]
    rw [hsplit] at hput
    have hrest := ih (front ++ pad p.data) (old.drop p.length)
      (fun q hq => hp q (List.mem_cons_of_mem p hq)) (by rw [List.length_drop, h, extent_cons]; omega)
    have hplace : (front ++ pad p.data).length = front.length + p.length := by
      rw [List.length_append, length_pad]
      rfl
    rw [hplace] at hrest
    simp only [write, hput]
    rw [← List.append_assoc (front ++ pad p.data), hrest, extent_cons, image_cons,
      List.append_assoc front, Nat.add_assoc]

end Writer

variable {α : Type} [Transportable α]

/-- The counting pass comes to its end exactly for writable values, and counts their extent. -/
theorem encodedLength_eq_ok_iff {a : α} {n : Nat} :
    encodedLength a = .ok n ↔ Writable a ∧ n = extent (pieces a) := by
  constructor
  · intro h
    rcases hw : Writer.counting.write (pieces a) with ⟨result, w⟩
    rw [encodedLength, hw] at h
    cases result with
    | error e => simp [Except.map] at h
    | ok u =>
      have hp : Writable a := Writer.writable_of_write hw
      refine ⟨hp, ?_⟩
      have hcount := Writer.counting_write (pieces a) 0 hp
      rw [show (⟨none, 0⟩ : Writer) = Writer.counting from rfl, hw] at hcount
      cases h
      simpa using congrArg (fun r => r.2.position) hcount
  · rintro ⟨hp, rfl⟩
    have hcount := Writer.counting_write (pieces a) 0 hp
    simp only [encodedLength, Writer.counting, hcount, Except.map, Nat.zero_add]

/-- A writable value goes to the start of a buffer with enough space; what lies behind stays. -/
theorem encodeInto_eq {a : α} (ha : Writable a) {buffer : List UInt8}
    (h : extent (pieces a) ≤ buffer.length) :
    encodeInto a buffer =
      (.ok (extent (pieces a)), image (pieces a) ++ buffer.drop (extent (pieces a))) := by
  have hw := Writer.write_parts (pieces a) [] (buffer.take (extent (pieces a)))
    (buffer.drop (extent (pieces a))) ha (by rw [List.length_take]; omega)
  simp only [List.nil_append, List.take_append_drop, List.length_nil, Nat.zero_add] at hw
  simp only [encodeInto, Writer.ofBuffer, hw, Except.map, Option.getD_some]

/-- A value that was written has a place in the buffer. -/
theorem extent_le_of_encodeInto {a : α} {buffer after : List UInt8} {n : Nat}
    (h : encodeInto a buffer = (.ok n, after)) :
    Writable a ∧ extent (pieces a) ≤ buffer.length := by
  rcases hw : (Writer.ofBuffer buffer).write (pieces a) with ⟨result, w⟩
  rw [encodeInto, hw] at h
  cases result with
  | error e => cases h
  | ok u =>
    have hroom := Writer.extent_le_of_write hw rfl (Nat.zero_le _)
    exact ⟨Writer.writable_of_write hw, Nat.le_trans (Nat.le_add_left _ _) hroom⟩

/-- A buffer keeps its length, whether the value has a place in it or not. -/
theorem length_encodeInto (a : α) (buffer : List UInt8) :
    (encodeInto a buffer).2.length = buffer.length := by
  have hlength := Writer.length_buffer_write (pieces a) (Writer.ofBuffer buffer)
  obtain ⟨kept, hkept, hsame⟩ := Option.map_eq_some_iff.mp hlength
  show (((Writer.ofBuffer buffer).write (pieces a)).2.buffer.getD buffer).length = buffer.length
  rw [hkept, Option.getD_some, hsame]

/-- The bytes of a writable value are the image of its pieces. -/
theorem encode_eq {a : α} (ha : Writable a) : encode a = .ok (image (pieces a)) := by
  have hlength := encodedLength_eq_ok_iff.mpr ⟨ha, rfl⟩
  have hbuffer : (List.replicate (extent (pieces a)) (0 : UInt8)).length = extent (pieces a) :=
    List.length_replicate
  have hinto := encodeInto_eq ha (Nat.le_of_eq hbuffer.symm)
  rw [List.drop_eq_nil_of_le (Nat.le_of_eq hbuffer), List.append_nil] at hinto
  simp only [encode, hlength, hinto, bind, Except.bind]
  rfl

end IsolatedSolving.Wire
