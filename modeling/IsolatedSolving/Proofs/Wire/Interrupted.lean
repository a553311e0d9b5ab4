import IsolatedSolving.Proofs.Wire.Records

/-! Records whose writer was stopped.

A write stores one byte after the other: zeros over the checksum, the payload piece by piece, the
length, the checksum. `Sealed.pokes` lists these stores, and done to the end they are the write
(`poked_pokes`). After the first `k` of them each of the three fields holds a number of new bytes in
front of old ones (`poked_take_pokes`). The checksum field is all zeros while payload and length are
mixed, which keeps a mixture from being read (`read_poked_take`); along a row of writes
`read_poked_rows` tells the last complete value, nothing, and the value in progress apart. -/
namespace IsolatedSolving.Wire

/-! ### New bytes in front of old ones -/

/-- New bytes in front of what is left of the old ones. -/
def mixed (new old : List UInt8) (k : Nat) : List UInt8 := new.take k ++ old.drop k

theorem length_mixed {new old : List UInt8} (k : Nat) (h : old.length = new.length) :
    (mixed new old k).length = new.length := by
  simp only [mixed, List.length_append, List.length_take, List.length_drop]
  omega

@[simp] theorem mixed_zero (new old : List UInt8) : mixed new old 0 = old := by simp [mixed]

theorem mixed_of_le {new old : List UInt8} {k : Nat} (h : old.length = new.length)
    (hk : new.length ≤ k) : mixed new old k = new := by
  rw [mixed, List.take_of_length_le hk, List.drop_eq_nil_of_le (by omega), List.append_nil]

/-! ### Single bytes -/

/-- One byte put at one place of a region. -/
structure Poke where
  place : Nat
  byte : UInt8
deriving DecidableEq, Repr

/-- The pokes that put bytes in a row from a place on, the first byte first. -/
def pokes : Nat → List UInt8 → List Poke
  | _, [] => []
  | start, b :: bs => ⟨start, b⟩ :: pokes (start + 1) bs

/-- The region after pokes in order. -/
def poked (region : List UInt8) (ps : List Poke) : List UInt8 :=
  ps.foldl (fun r p => r.set p.place p.byte) region

@[simp] theorem poked_nil (region : List UInt8) : poked region [] = region := rfl

theorem poked_append (region : List UInt8) (ps qs : List Poke) :
    poked region (ps ++ qs) = poked (poked region ps) qs := List.foldl_append

/-- A region keeps its length under pokes. -/
theorem length_poked (region : List UInt8) (ps : List Poke) :
    (poked region ps).length = region.length := by
  induction ps generalizing region with
  | nil => rfl
  | cons p ps ih =>
    have := ih (region.set p.place p.byte)
    rwa [List.length_set] at this

@[simp] theorem length_pokes (start : Nat) (data : List UInt8) :
    (pokes start data).length = data.length := by
  induction data generalizing start with
  | nil => rfl
  | cons b bs ih => simp only [pokes, List.length_cons, ih]

theorem pokes_append (start : Nat) (a b : List UInt8) :
    pokes start (a ++ b) = pokes start a ++ pokes (start + a.length) b := by
  induction a generalizing start with
  | nil => rfl
  | cons x xs ih =>
    simp only [List.cons_append, pokes, ih, List.length_cons]
    rw [Nat.add_assoc, Nat.add_comm 1]

/-- The first `k` bytes of the data are new, the others old. -/
theorem poked_take_pokes_parts (front old back data : List UInt8) (k : Nat) {start : Nat}
    (hs : front.length = start) (h : old.length = data.length) :
    poked (front ++ old ++ back) ((pokes start data).take k) =
      front ++ mixed data old k ++ back := by
  subst hs
  induction data generalizing front old k with
  | nil =>
    have hold : old = [] := List.eq_nil_of_length_eq_zero h
    subst hold
    simp [pokes, mixed]
  | cons b bs ih =>
    cases k with
    | zero => simp
    | succ k =>
      cases old with
      | nil => simp at h
      | cons o os =>
        have hset : (front ++ o :: os ++ back).set front.length b = front ++ [b] ++ os ++ back := by
          simp
        have hrest := ih (front ++ [b]) os k (Nat.succ.inj h)
        simp only [List.length_append, List.length_singleton] at hrest
        simp only [pokes, List.take_succ_cons, poked, List.foldl_cons, hset]
        rw [show List.foldl (fun r p => r.set p.place p.byte) (front ++ [b] ++ os ++ back)
          ((pokes (front.length + 1) bs).take k) =
            poked (front ++ [b] ++ os ++ back) ((pokes (front.length + 1) bs).take k) from rfl, hrest]
        simp [mixed]

namespace Sealed

variable {α : Type} [Transportable α]

/-! ### The pokes of a write -/

/-- The pokes of pieces in a row, each with its padding. -/
def piecePokes : Nat → List Piece → List Poke
  | _, [] => []
  | start, p :: ps => Wire.pokes start (pad p.data) ++ piecePokes (start + p.length) ps

theorem piecePokes_eq (start : Nat) (ps : List Piece) :
    piecePokes start ps = Wire.pokes start (image ps) := by
  induction ps generalizing start with
  | nil => rfl
  | cons p ps ih => rw [piecePokes, image_cons, pokes_append, length_pad, ih]; rfl

variable [Checksum]

/-- The bytes that a write stores, in order: the checksum is cleared, then come the payload, the
length and the checksum. -/
def pokes (a : α) : List Poke :=
  Wire.pokes 8 (littleEndian 8 0) ++ piecePokes headerLength (pieces a) ++
    Wire.pokes 0 (lengthField a) ++ Wire.pokes 8 (sumField a)

theorem length_pokes (a : α) : (pokes a).length = 24 + extent (pieces a) := by
  simp only [pokes, piecePokes_eq, List.length_append, Wire.length_pokes, length_littleEndian,
    length_image, length_lengthField, length_sumField]
  omega

/-- **The fields after the first `k` pokes.** Each field has its own turn, so each holds new bytes in
front of old ones. -/
theorem poked_take_pokes (a : α) {length sum old : List UInt8} (back : List UInt8)
    (hl : length.length = 8) (hs : sum.length = 8) (ho : old.length = extent (pieces a)) (k : Nat) :
    poked (length ++ sum ++ (old ++ back)) ((pokes a).take k) =
      mixed (lengthField a) length (k - (8 + extent (pieces a))) ++
        mixed (sumField a) (mixed (littleEndian 8 0) sum k) (k - (16 + extent (pieces a))) ++
        (mixed (image (pieces a)) old (k - 8) ++ back) := by
  have hzero : (littleEndian 8 0).length = 8 := length_littleEndian 8 0
  have himage : old.length = (image (pieces a)).length := by rw [ho, length_image]
  have hcleared : (mixed (littleEndian 8 0) sum k).length = 8 := by
    rw [length_mixed k (by rw [hs, hzero]), hzero]
  have hlength := length_mixed (k - (8 + extent (pieces a)))
    (show length.length = (lengthField a).length by rw [hl, length_lengthField])
  rw [length_lengthField] at hlength
  have hfirst := poked_take_pokes_parts length sum (old ++ back) (littleEndian 8 0) k hl
    (by rw [hs, hzero])
  have hsecond := poked_take_pokes_parts (length ++ mixed (littleEndian 8 0) sum k) old back
    (image (pieces a)) (k - 8) (show _ = headerLength by rw [List.length_append, hl, hcleared]; rfl)
    himage
  have hthird : poked ([] ++ length ++
      (mixed (littleEndian 8 0) sum k ++ (mixed (image (pieces a)) old (k - 8) ++ back)))
      ((Wire.pokes 0 (lengthField a)).take (k - (8 + extent (pieces a)))) = _ :=
    poked_take_pokes_parts _ _ _ _ _ rfl (by rw [hl, length_lengthField])
  have hfourth := poked_take_pokes_parts (mixed (lengthField a) length (k - (8 + extent (pieces a))))
    (mixed (littleEndian 8 0) sum k) (mixed (image (pieces a)) old (k - 8) ++ back)
    (sumField a) (k - (16 + extent (pieces a))) hlength (by rw [hcleared, length_sumField])
  simp only [List.nil_append, ← List.append_assoc] at hfirst hsecond hthird hfourth ⊢
  simp only [pokes, piecePokes_eq, List.take_append, poked_append, List.length_append,
    Wire.length_pokes, length_littleEndian, length_image, length_lengthField]
  rw [hfirst, hsecond, hthird, show k - (8 + extent (pieces a) + 8) = k - (16 + extent (pieces a)) by
    omega, hfourth]

/-- All pokes of a write together are the write. -/
theorem poked_pokes {a : α} (ha : Writable a) {region : List UInt8}
    (h : headerLength + extent (pieces a) ≤ region.length) :
    poked region (pokes a) = (write region a).2 := by
  obtain ⟨length, sum, rest, hl, hs, rfl⟩ := region_fields (Nat.le_of_add_right_le h)
  have hrest : extent (pieces a) ≤ rest.length := by
    simp only [List.length_append, hl, hs, headerLength] at h
    omega
  have hsplit := List.take_append_drop (extent (pieces a)) rest
  have hold : (rest.take (extent (pieces a))).length = extent (pieces a) := by
    rw [List.length_take]
    omega
  have hall := poked_take_pokes a (rest.drop (extent (pieces a))) hl hs hold (pokes a).length
  rw [List.take_length, hsplit, length_pokes,
    mixed_of_le (by rw [hl, length_lengthField]) (by rw [length_lengthField]; omega),
    mixed_of_le (by rw [length_mixed _ (by rw [hs]; rfl)]; rfl) (by rw [length_sumField]; omega),
    mixed_of_le (by rw [hold, length_image]) (by rw [length_image]; omega)] at hall
  rw [write_eq ha h, hall, ← List.drop_drop, drop_fields hl hs, finished,
    List.append_assoc _ _ (rest.drop _)]

/-! ### Reading after a stop -/

/-- The payload that the header speaks of, if the region is long enough for it, has a checksum other
than zero. -/
def NonzeroSum (region : List UInt8) : Prop :=
  statedLength region ≤ (region.drop headerLength).length →
    Checksum.sum ((region.drop headerLength).take (statedLength region)) ≠ 0

instance (region : List UInt8) : Decidable (NonzeroSum region) :=
  inferInstanceAs (Decidable (_ → _ ≠ _))

/-- With the length and the payload of a value, only that value can be read, whatever the checksum
field holds. -/
theorem read_fields (hα : Sized α) {a : α} (ha : Recordable a) {sum : List UInt8}
    (hs : sum.length = 8) (back : List UInt8) :
    read α (lengthField a ++ sum ++ (image (pieces a) ++ back)) = .error .torn ∨
      read α (lengthField a ++ sum ++ (image (pieces a) ++ back)) = .ok a := by
  have hdec := decode_image hα ha.writable []
  rw [List.append_nil] at hdec
  rw [read, payload_fields (length_lengthField a) hs, ofLittleEndian_lengthField ha.short,
    List.take_left' (length_image (pieces a))]
  split
  · exact .inl rfl
  · split
    · exact .inl rfl
    · exact .inr hdec

/-- A cleared checksum field keeps everything from being read. -/
theorem read_cleared {length : List UInt8} (hl : length.length = 8) (rest : List UInt8)
    (h : NonzeroSum (length ++ littleEndian 8 0 ++ rest)) :
    read α (length ++ littleEndian 8 0 ++ rest) = .error .torn := by
  have hs : (littleEndian 8 0).length = 8 := length_littleEndian 8 0
  have hzero : ofLittleEndian (littleEndian 8 0) = 0 := ofLittleEndian_littleEndian 8 0
  rw [NonzeroSum, drop_fields hl hs, statedLength_fields hl] at h
  rw [read, payload_fields hl hs, hzero]
  split
  · rfl
  · next hlen =>
    have hsum : (Checksum.sum (rest.take (ofLittleEndian length))).toNat ≠ 0 :=
      fun hnat => h (Nat.le_of_not_lt hlen) (UInt64.toNat_inj.mp hnat)
    rw [if_pos hsum]
    rfl

/-- **A writer stopped anywhere leaves the old value, the new value or nothing to be read.** While the
checksum is being cleared only the old value can be read, while it is being stored only the new one,
and in between nothing. -/
theorem read_poked_take (hα : Sized α) {old new : α} (hold : Recordable old) (hnew : Recordable new)
    {back : List UInt8} (hfits : Fits (finished old ++ back).length new) (k : Nat)
    (h : NonzeroSum (poked (finished old ++ back) ((pokes new).take k))) :
    read α (poked (finished old ++ back) ((pokes new).take k)) = .ok old ∨
      read α (poked (finished old ++ back) ((pokes new).take k)) = .error .torn ∨
      read α (poked (finished old ++ back) ((pokes new).take k)) = .ok new := by
  have hspace := (fits_iff.mp hfits).2
  have hl := length_lengthField old
  have hs := length_sumField old
  obtain ⟨rest, hrest⟩ : ∃ rest, rest = image (pieces old) ++ back := ⟨_, rfl⟩
  have hregion : finished old ++ back = lengthField old ++ sumField old ++ rest := by
    rw [finished, List.append_assoc, hrest]
  have hplace : (rest.take (extent (pieces new))).length = extent (pieces new) := by
    rw [hregion] at hspace
    simp only [List.length_append, hl, hs, headerLength] at hspace
    rw [List.length_take]
    omega
  have hfields := poked_take_pokes new (rest.drop (extent (pieces new))) hl hs hplace k
  rw [List.take_append_drop, ← hregion] at hfields
  rw [hfields] at h ⊢
  have hzero : (littleEndian 8 0).length = 8 := length_littleEndian 8 0
  have hsum : (mixed (littleEndian 8 0) (sumField old) k).length = 8 := by
    rw [length_mixed k (by rw [hs, hzero]), hzero]
  by_cases hclearing : k ≤ 8
  · -- Length and payload are still the old ones.
    simp only [show k - (8 + extent (pieces new)) = 0 by omega,
      show k - (16 + extent (pieces new)) = 0 by omega, show k - 8 = 0 by omega, mixed_zero,
      List.take_append_drop, hrest]
    rcases read_fields hα hold hsum back with hread | hread
    · exact .inr (.inl hread)
    · exact .inl hread
  by_cases hmixing : k ≤ 16 + extent (pieces new)
  · -- Length and payload may be mixed, and the checksum field is zero.
    have hcleared : mixed (littleEndian 8 0) (sumField old) k = littleEndian 8 0 :=
      mixed_of_le (by rw [hs, hzero]) (by rw [hzero]; omega)
    have hlength := length_mixed (k - (8 + extent (pieces new)))
      (show (lengthField old).length = (lengthField new).length by rw [hl, length_lengthField])
    rw [length_lengthField] at hlength
    simp only [show k - (16 + extent (pieces new)) = 0 by omega, mixed_zero, hcleared] at h ⊢
    exact .inr (.inl (read_cleared hlength _ h))
  · -- Length and payload are the new ones.
    have hlength : mixed (lengthField new) (lengthField old) (k - (8 + extent (pieces new))) =
        lengthField new :=
      mixed_of_le (by rw [hl, length_lengthField]) (by rw [length_lengthField]; omega)
    have himage : mixed (image (pieces new)) (rest.take (extent (pieces new))) (k - 8) =
        image (pieces new) :=
      mixed_of_le (by rw [hplace, length_image]) (by rw [length_image]; omega)
    have hstoring := length_mixed (k - (16 + extent (pieces new)))
      (show (mixed (littleEndian 8 0) (sumField old) k).length = (sumField new).length by
        rw [hsum, length_sumField])
    rw [length_sumField] at hstoring
    rw [hlength, himage]
    exact .inr (read_fields hα hnew hstoring _)

/-! ### A row of writes -/

/-- A finished record in place of another one. -/
theorem poked_finished {old new : α} {back : List UInt8}
    (hfits : Fits (finished old ++ back).length new) :
    ∃ left, poked (finished old ++ back) (pokes new) = finished new ++ left := by
  obtain ⟨hnew, hspace⟩ := fits_iff.mp hfits
  exact ⟨_, by rw [poked_pokes hnew hspace, write_eq hnew hspace]⟩

/-- **A row of writes stopped anywhere.** Between two writes the last complete value is read. Inside a
write it is that value, nothing, or the value in progress. -/
theorem read_poked_rows (hα : Sized α) {seed : α} (hseed : Recordable seed) {back : List UInt8}
    {xs : List α} (hxs : ∀ x ∈ xs, Recordable x ∧ Fits (finished seed ++ back).length x)
    {stop : List Poke} (hstop : stop <+: xs.flatMap pokes)
    (h : NonzeroSum (poked (finished seed ++ back) stop)) :
    (∃ done rest, xs = done ++ rest ∧ stop = done.flatMap pokes ∧
      read α (poked (finished seed ++ back) stop) = .ok (done.getLastD seed)) ∨
    (∃ done x rest part, xs = done ++ x :: rest ∧ stop = done.flatMap pokes ++ part ∧
      part <+: pokes x ∧ part ≠ [] ∧ part ≠ pokes x ∧
      (read α (poked (finished seed ++ back) stop) = .ok (done.getLastD seed) ∨
        read α (poked (finished seed ++ back) stop) = .error .torn ∨
        read α (poked (finished seed ++ back) stop) = .ok x)) := by
  induction xs generalizing seed back stop with
  | nil =>
    have hnil : stop = [] := List.prefix_nil.mp hstop
    subst hnil
    exact .inl ⟨[], [], rfl, rfl, read_finished hα hseed back⟩
  | cons x xs ih =>
    obtain ⟨hx, hfits⟩ := hxs x List.mem_cons_self
    rw [List.flatMap_cons] at hstop
    rcases Nat.lt_or_ge stop.length (pokes x).length with hlt | hge
    · -- The stop falls into the first write.
      have hpart : stop <+: pokes x :=
        List.prefix_of_prefix_length_le hstop (List.prefix_append _ _) (Nat.le_of_lt hlt)
      by_cases hnil : stop = []
      · subst hnil
        exact .inl ⟨[], x :: xs, rfl, rfl, read_finished hα hseed back⟩
      · have htake := List.prefix_iff_eq_take.mp hpart
        have hread := read_poked_take hα hseed hx hfits stop.length (htake ▸ h)
        rw [← htake] at hread
        exact .inr ⟨[], x, xs, stop, rfl, rfl, hpart, hnil,
          fun heq => absurd (congrArg List.length heq) (by omega), hread⟩
    · -- The first write is complete, and the others start from its record.
      have hfirst : pokes x <+: stop :=
        List.prefix_of_prefix_length_le (List.prefix_append _ _) hstop hge
      obtain ⟨later, rfl⟩ := hfirst
      obtain ⟨left, hleft⟩ := poked_finished hfits
      have hsize : (finished x ++ left).length = (finished seed ++ back).length := by
        rw [← hleft, length_poked]
      rw [poked_append, hleft] at h ⊢
      have hrest := ih hx (fun y hy => hsize ▸ hxs y (List.mem_cons_of_mem x hy))
        ((List.prefix_append_right_inj _).mp hstop) h
      have hlast (done : List α) : (x :: done).getLastD seed = done.getLastD x := by
        cases done <;> rfl
      rcases hrest with ⟨done, rest, rfl, rfl, hread⟩ | ⟨done, y, rest, part, rfl, rfl, hp⟩
      · exact .inl ⟨x :: done, rest, rfl, rfl, by rw [hlast, hread]⟩
      · exact .inr ⟨x :: done, y, rest, part, rfl, by rw [List.flatMap_cons, List.append_assoc],
          by rw [hlast]; exact hp⟩

end Sealed

end IsolatedSolving.Wire
