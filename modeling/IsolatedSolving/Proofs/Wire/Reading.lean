import IsolatedSolving.Proofs.Wire.Writing
import IsolatedSolving.Wire.View

/-! What a reader makes of written bytes.

`Reads` says of one step of a reader that it takes exactly the given bytes for the given value,
wherever they stand and whatever follows them. Steps that use bytes in place are promised an aligned
address. Steps in a row take their bytes in a row (`Reads.bind`), so the reading of a record follows
its layout, and `Reads.record` and `Reads.recordView` say that reading undoes writing. -/
namespace IsolatedSolving.Wire

variable {β γ : Type} {inPlace : Bool}

/-- Two steps in a row succeed only if both do. -/
theorem run_bind_ok {step : Reading β} {next : β → Reading γ} {r last : Reader} {c : γ}
    (h : (step >>= next).run r = .ok c last) :
    ∃ b middle, step.run r = .ok b middle ∧ (next b).run middle = .ok c last := by
  rw [EStateM.run_bind] at h
  cases hfirst : step.run r with
  | error e middle => rw [hfirst] at h; cases h
  | ok b middle =>
    rw [hfirst] at h
    exact ⟨b, middle, rfl, h⟩

/-- A decode succeeds only if its step does, at whose end it stops. -/
theorem decodeWith_ok {step : Reading β} {bytes : List UInt8} {address : Nat} {b : β} {n : Nat}
    (h : decodeWith step bytes address = .ok (b, n)) :
    ∃ last, step.run (Reader.start bytes address) = .ok b last ∧ last.position = n := by
  rw [decodeWith] at h
  split at h
  · next hrun =>
    cases h
    exact ⟨_, hrun, rfl⟩
  · cases h

/-- The step takes these bytes, and no others, for the value. Bytes that are used in place stand at an
aligned address. -/
def Reads (inPlace : Bool) (step : Reading β) (bytes : List UInt8) (b : β) : Prop :=
  ∀ (front rest : List UInt8) (address : Nat),
    (inPlace = true → (address + front.length) % itemAlignment = 0) →
      step.run ⟨front ++ bytes ++ rest, address, front.length⟩ =
        .ok b ⟨front ++ bytes ++ rest, address, front.length + bytes.length⟩

/-- A decode from the start of the bytes gives the value, and where it ends. -/
theorem Reads.decodeWith {step : Reading β} {bytes : List UInt8} {b : β}
    (h : Reads inPlace step bytes b) (rest : List UInt8) (address : Nat)
    (ha : inPlace = true → address % itemAlignment = 0) :
    decodeWith step (bytes ++ rest) address = .ok (b, bytes.length) := by
  have hrun := h [] rest address (by simpa using ha)
  simp only [List.nil_append, List.length_nil, Nat.zero_add] at hrun
  simp only [Wire.decodeWith, Reader.start, hrun]

namespace Reads

theorem pure (b : β) : Reads inPlace (pure b) [] b := by
  intro front rest address _
  rfl

/-- The second of two steps starts at an aligned address because the first takes whole items. -/
theorem bind {step : Reading β} {next : β → Reading γ} {bytes more : List UInt8} {b : β} {c : γ}
    (hb : Reads inPlace step bytes b) (hm : bytes.length % 8 = 0)
    (hc : Reads inPlace (next b) more c) : Reads inPlace (step >>= next) (bytes ++ more) c := by
  intro front rest address ha
  have hfirst := hb front (more ++ rest) address ha
  have hsecond := hc (front ++ bytes) rest address (fun hp => by
    have := ha hp
    rw [List.length_append]
    unfold itemAlignment at *
    omega)
  have hsplit : front ++ (bytes ++ more) ++ rest = front ++ bytes ++ (more ++ rest) := by
    simp only [List.append_assoc]
  rw [EStateM.run_bind, hsplit, hfirst]
  show (next b).run ⟨front ++ bytes ++ (more ++ rest), address, front.length + bytes.length⟩ = _
  simp only [← List.append_assoc, List.length_append] at hsecond ⊢
  rw [hsecond]
  simp only [Nat.add_assoc]

/-- The last of two steps only has to look at what the first one gave. -/
theorem map {step : Reading β} {next : β → Reading γ} {bytes : List UInt8} {b : β} {c : γ}
    (hb : Reads inPlace step bytes b) (hm : bytes.length % 8 = 0)
    (hc : Reads inPlace (next b) [] c) : Reads inPlace (step >>= next) bytes c := by
  have := hb.bind hm hc
  rwa [List.append_nil] at this

/-- Bytes with their padding, whatever that is. -/
theorem take_padded (data padding : List UInt8)
    (h : data.length + padding.length = paddedLength data.length) :
    Reads inPlace (Reader.take data.length) (data ++ padding) data := by
  intro front rest address _
  have hpadded : (data ++ padding).length = paddedLength data.length := by
    rw [List.length_append, h]
  have hstop : front.length + paddedLength data.length ≤ (front ++ (data ++ padding) ++ rest).length := by
    rw [List.length_append, List.length_append, hpadded]
    omega
  have hslice : slice (front ++ (data ++ padding) ++ rest) front.length data.length = data := by
    have := slice_parts front data (padding ++ rest) rfl rfl
    simpa only [List.append_assoc] using this
  simp only [Reader.take, EStateM.run_bind, EStateM.run_get, hstop, if_true, EStateM.run_set,
    EStateM.run_pure, hslice, hpadded]

/-- Bytes with their padding as it is written. -/
theorem take (data : List UInt8) : Reads inPlace (Reader.take data.length) (pad data) data := by
  have hle := le_paddedLength data.length
  exact take_padded data _ (by rw [List.length_replicate]; omega)

/-! ### Scalars and counts -/

theorem scalar (e : Element) (v : e.Value) :
    Reads inPlace (Reader.scalar e) (pad (e.encode v)) v := by
  have htake : Reads inPlace (Reader.take (e.encode v).length) _ _ := take (e.encode v)
  rw [Element.length_encode] at htake
  refine htake.map (by rw [length_pad]; exact paddedLength_mod _) ?_
  rw [Element.decode_encode]
  exact pure v

/-- A count that can be written is a 32-bit number that is not negative. -/
theorem toInt_ofNat_count {n : Nat} (hn : n ≤ Piece.largestCount) : (Int32.ofNat n).toInt = n :=
  Int32.toInt_ofNat_of_lt (by unfold Piece.largestCount at hn; omega)

theorem encode_count {n : Nat} (hn : n ≤ Piece.largestCount) :
    Element.encode .int32 (Int32.ofNat n) = littleEndian 4 n := by
  have hcode : (Int32.ofNat n).toUInt32.toNat = n := by
    unfold Piece.largestCount at hn
    simp
    omega
  show littleEndian 4 (Int32.ofNat n).toUInt32.toNat = littleEndian 4 n
  rw [hcode]

theorem count {n : Nat} (hn : n ≤ Piece.largestCount) :
    Reads inPlace Reader.count (pad (littleEndian 4 n)) n := by
  have hscalar : Reads inPlace (Reader.scalar .int32) _ _ := scalar .int32 (Int32.ofNat n)
  rw [encode_count hn] at hscalar
  refine hscalar.map (by rw [length_pad]; exact paddedLength_mod _) ?_
  have hint := toInt_ofNat_count hn
  rw [if_neg (by rw [hint]; omega), hint, Int.toNat_natCast]
  exact pure n

theorem length_flatMap_mod {α : Type} {bytes : α → List UInt8} (as : List α)
    (hm : ∀ a ∈ as, (bytes a).length % 8 = 0) : (as.flatMap bytes).length % 8 = 0 := by
  induction as with
  | nil => rfl
  | cons a as ih =>
    have ha := hm a List.mem_cons_self
    have has := ih (fun b hb => hm b (List.mem_cons_of_mem a hb))
    rw [List.flatMap_cons, List.length_append]
    omega

/-- The same step for each value of a list, on the bytes of these values in a row. -/
theorem times {step : Reading β} {α : Type} {bytes : α → List UInt8} {result : α → β}
    (as : List α) (hstep : ∀ a ∈ as, Reads inPlace step (bytes a) (result a))
    (hm : ∀ a ∈ as, (bytes a).length % 8 = 0) :
    Reads inPlace (Reader.times step as.length) (as.flatMap bytes) (as.map result) := by
  induction as with
  | nil => exact pure []
  | cons a as ih =>
    have hrest := ih (fun b hb => hstep b (List.mem_cons_of_mem a hb))
      (fun b hb => hm b (List.mem_cons_of_mem a hb))
    have hlen := length_flatMap_mod as (fun b hb => hm b (List.mem_cons_of_mem a hb))
    rw [List.flatMap_cons, List.map_cons]
    exact (hstep a List.mem_cons_self).bind (hm a List.mem_cons_self) (hrest.map hlen (pure _))

end Reads

/-! ### Arrays -/

namespace Element

theorem length_flatMap_encode (e : Element) (vs : List e.Value) :
    (vs.flatMap e.encode).length = vs.length * e.size := by
  induction vs with
  | nil => simp
  | cons v vs ih =>
    rw [List.flatMap_cons, List.length_append, ih, length_encode, List.length_cons, Nat.succ_mul,
      Nat.add_comm]

theorem decodeMany_flatMap_encode (e : Element) (vs : List e.Value) :
    e.decodeMany vs.length (vs.flatMap e.encode) = some vs := by
  induction vs with
  | nil => rfl
  | cons v vs ih =>
    have htake : (e.encode v ++ vs.flatMap e.encode).take e.size = e.encode v :=
      List.take_left' (length_encode e v)
    have hdrop : (e.encode v ++ vs.flatMap e.encode).drop e.size = vs.flatMap e.encode :=
      List.drop_left' (length_encode e v)
    simp only [List.flatMap_cons, List.length_cons, decodeMany, htake, decode_encode, hdrop, ih,
      Option.map_some]

/-- Elements that take space can be counted by their bytes. -/
theorem decodeAll_flatMap_encode (e : Element) (he : 0 < e.size) (vs : List e.Value) :
    e.decodeAll (vs.flatMap e.encode) = some vs := by
  rw [decodeAll, length_flatMap_encode, Nat.mul_div_cancel _ he, decodeMany_flatMap_encode]

theorem size_mod_alignment (e : Element) : itemAlignment % e.alignment = 0 := by
  cases e <;> rfl

end Element

/-- An array in place, as it stands on the wire. -/
def ArrayView.ofList (e : Element) (he : 0 < e.size) (vs : List e.Value) : ArrayView e where
  bytes := vs.flatMap e.encode
  valid := by rw [e.decodeAll_flatMap_encode he vs]; rfl

theorem ArrayView.toList_ofList (e : Element) (he : 0 < e.size) (vs : List e.Value) :
    (ArrayView.ofList e he vs).toList = vs := by
  simp only [toList, ofList, e.decodeAll_flatMap_encode he vs, Option.get_some]

theorem length_image_mod (ps : List Piece) : (image ps).length % 8 = 0 := by
  rw [length_image]
  exact extent_mod ps

theorem image_arrayPieces (e : Element) (vs : List e.Value) :
    image (arrayPieces e vs) = pad (littleEndian 4 vs.length) ++ pad (vs.flatMap e.encode) := by
  simp only [arrayPieces, image_cons, image_nil, List.append_nil, Piece.data]

namespace Reads

/-- The bytes of an array, behind its count. -/
theorem elements (e : Element) (vs : List e.Value) (hn : vs.length ≤ Piece.largestCount) :
    Reads inPlace (Reader.elements e) (image (arrayPieces e vs)) (vs.flatMap e.encode) := by
  rw [image_arrayPieces]
  refine (count hn).bind (by rw [length_pad]; exact paddedLength_mod _) ?_
  rw [← e.length_flatMap_encode vs]
  exact take _

theorem array (e : Element) (he : 0 < e.size) (vs : List e.Value)
    (hn : vs.length ≤ Piece.largestCount) :
    Reads inPlace (Reader.array e) (image (arrayPieces e vs)) vs := by
  refine (elements e vs hn).map (length_image_mod _) ?_
  rw [e.decodeAll_flatMap_encode he vs]
  exact pure vs

/-- An array in place, from its count and its bytes: it stands at an address that suits its elements. -/
theorem arrayView_of (e : Element) {counted padded data : List UInt8} {n : Nat}
    (hcount : Reads true Reader.count counted n) (hm : counted.length % 8 = 0)
    (htake : Reads true (Reader.take (n * e.size)) padded data)
    (hvalid : (e.decodeAll data).isSome = true) :
    Reads true (Reader.arrayView e) (counted ++ padded) ⟨data, hvalid⟩ := by
  refine hcount.bind hm ?_
  intro front rest address ha
  have hrun := htake front rest address ha
  have haligned : (address + front.length) % e.alignment = 0 := by
    have h8 := ha rfl
    have hdiv := Nat.dvd_of_mod_eq_zero e.size_mod_alignment
    exact Nat.mod_eq_zero_of_dvd (Nat.dvd_trans hdiv (Nat.dvd_of_mod_eq_zero h8))
  simp only [EStateM.run_bind, EStateM.run_get, hrun, haligned, ne_eq, not_true_eq_false, if_false,
    dif_pos hvalid]
  rfl

theorem arrayView (e : Element) (he : 0 < e.size) (vs : List e.Value)
    (hn : vs.length ≤ Piece.largestCount) :
    Reads true (Reader.arrayView e) (image (arrayPieces e vs)) (ArrayView.ofList e he vs) := by
  have htake : Reads true (Reader.take (vs.flatMap e.encode).length) _ _ := take (vs.flatMap e.encode)
  rw [e.length_flatMap_encode vs] at htake
  rw [image_arrayPieces]
  exact arrayView_of e (count hn) (by rw [length_pad]; exact paddedLength_mod _) htake
    (ArrayView.ofList e he vs).valid

end Reads

/-! ### Items and records -/

/-- The element that an item is made of. -/
def Shape.element : Shape → Element
  | scalar e | array e | nested e => e

/-- An item in place, as it stands on the wire. -/
def Shape.toView : (s : Shape) → 0 < s.element.size → s.Value → s.View
  | scalar _, _, v => v
  | array e, he, vs => ArrayView.ofList e he vs
  | nested e, he, rows => rows.map (ArrayView.ofList e he)

theorem Shape.ofView_toView (s : Shape) (hs : 0 < s.element.size) (v : s.Value) :
    s.ofView (s.toView hs v) = v := by
  cases s with
  | scalar e => rfl
  | array e => exact ArrayView.toList_ofList e hs v
  | nested e =>
    simp only [toView, ofView, List.map_map]
    exact (List.map_congr_left fun vs _ => ArrayView.toList_ofList e hs vs).trans (List.map_id v)

/-- All elements of the layout take space, so that an array can be counted by its bytes. -/
abbrev Layout.Sized (l : Layout) : Prop := ∀ s ∈ l, 0 < s.element.size

/-- A record in place, as it stands on the wire. -/
def Layout.toView : (l : Layout) → l.Sized → l.Record → l.View
  | [], _, _ => ()
  | s :: l, hl, (v, r) =>
    (s.toView (hl s List.mem_cons_self) v, toView l (fun t ht => hl t (List.mem_cons_of_mem s ht)) r)

theorem Layout.ofView_toView (l : Layout) (hl : l.Sized) (r : l.Record) :
    l.ofView (l.toView hl r) = r := by
  induction l with
  | nil => rfl
  | cons s l ih =>
    obtain ⟨v, r⟩ := r
    simp only [toView, ofView, Shape.ofView_toView]
    rw [ih (fun t ht => hl t (List.mem_cons_of_mem s ht)) r]

theorem image_flatMap {α : Type} (f : α → List Piece) (as : List α) :
    image (as.flatMap f) = as.flatMap fun a => image (f a) := by
  simp only [image, List.flatMap_assoc]

/-- The counts of the rows of a nested array are among its pieces. -/
theorem writable_row {e : Element} {rows : List (List e.Value)}
    (hp : ∀ p ∈ Shape.pieces (.nested e) rows, p.writable = true) :
    ∀ row ∈ rows, row.length ≤ Piece.largestCount := by
  intro row hrow
  have hmem : Piece.count row.length ∈ Shape.pieces (.nested e) rows :=
    List.mem_cons_of_mem _ (List.mem_flatMap.mpr ⟨row, hrow, List.mem_cons_self⟩)
  exact of_decide_eq_true (hp _ hmem)

namespace Reads

/-- A nested array, its rows read by any step that reads one row. -/
theorem rows {e : Element} {step : Reading β} {result : List e.Value → β}
    (hrow : ∀ vs : List e.Value, vs.length ≤ Piece.largestCount →
      Reads inPlace step (image (arrayPieces e vs)) (result vs))
    (vss : List (List e.Value)) (hp : ∀ p ∈ Shape.pieces (.nested e) vss, p.writable = true) :
    Reads inPlace (Reader.count >>= Reader.times step) (image (Shape.pieces (.nested e) vss))
      (vss.map result) := by
  have hcount : vss.length ≤ Piece.largestCount := of_decide_eq_true (hp _ List.mem_cons_self)
  simp only [Shape.pieces, image_cons, Piece.data, image_flatMap]
  exact (count hcount).bind (by rw [length_pad]; exact paddedLength_mod _)
    (times vss (fun vs hvs => hrow vs (writable_row hp vs hvs)) fun vs _ => length_image_mod _)

theorem item (s : Shape) (hs : 0 < s.element.size) (v : s.Value)
    (hp : ∀ p ∈ s.pieces v, p.writable = true) :
    Reads inPlace (Reader.item s) (image (s.pieces v)) v := by
  cases s with
  | scalar e =>
    simp only [Shape.pieces, image_cons, image_nil, List.append_nil, Piece.data]
    exact scalar e v
  | array e => exact array e hs v (of_decide_eq_true (hp _ List.mem_cons_self))
  | nested e =>
    have hrows : Reads inPlace (Reader.item (.nested e)) _ (v.map id) := rows (array e hs) v hp
    rwa [List.map_id] at hrows

theorem itemView (s : Shape) (hs : 0 < s.element.size) (v : s.Value)
    (hp : ∀ p ∈ s.pieces v, p.writable = true) :
    Reads true (Reader.itemView s) (image (s.pieces v)) (s.toView hs v) := by
  cases s with
  | scalar e =>
    simp only [Shape.pieces, image_cons, image_nil, List.append_nil, Piece.data]
    exact scalar e v
  | array e => exact arrayView e hs v (of_decide_eq_true (hp _ List.mem_cons_self))
  | nested e => exact rows (arrayView e hs) v hp

theorem record (l : Layout) (hl : l.Sized) (r : l.Record)
    (hp : ∀ p ∈ l.pieces r, p.writable = true) :
    Reads inPlace (Reader.record l) (image (l.pieces r)) r := by
  induction l with
  | nil => exact pure ()
  | cons s l ih =>
    obtain ⟨v, r⟩ := r
    have hfirst : Reads inPlace _ _ _ := item s (hl s List.mem_cons_self) v
      (fun p hmem => hp p (List.mem_append_left _ hmem))
    have hrest := ih (fun t ht => hl t (List.mem_cons_of_mem s ht)) r
      (fun p hmem => hp p (List.mem_append_right _ hmem))
    show Reads inPlace _ (image (s.pieces v ++ Layout.pieces l r)) (v, r)
    rw [image_append]
    exact hfirst.bind (length_image_mod _) (hrest.map (length_image_mod _) (pure (v, r)))

theorem recordView (l : Layout) (hl : l.Sized) (r : l.Record)
    (hp : ∀ p ∈ l.pieces r, p.writable = true) :
    Reads true (Reader.recordView l) (image (l.pieces r)) (l.toView hl r) := by
  induction l with
  | nil => exact pure ()
  | cons s l ih =>
    obtain ⟨v, r⟩ := r
    have hfirst := itemView s (hl s List.mem_cons_self) v
      (fun p hmem => hp p (List.mem_append_left _ hmem))
    have hrest := ih (fun t ht => hl t (List.mem_cons_of_mem s ht)) r
      (fun p hmem => hp p (List.mem_append_right _ hmem))
    show Reads true _ (image (s.pieces v ++ Layout.pieces l r)) _
    rw [image_append]
    exact hfirst.bind (length_image_mod _) (hrest.map (length_image_mod _) (pure _))

end Reads

/-! ### Values -/

/-- All elements of the layout of the type take space. -/
abbrev Sized (α : Type) [Transportable α] : Prop := (Transportable.layout α).Sized

variable {α : Type} [Transportable α]

/-- A value in place, as it stands on the wire. -/
def View.of (hα : Sized α) (a : α) : View α :=
  (Transportable.layout α).toView hα (Transportable.toRecord a)

theorem View.get_of (hα : Sized α) (a : α) : (View.of hα a).get = a := by
  rw [View.get, View.of, Layout.ofView_toView, Transportable.ofRecord_toRecord]

/-- The value at the start of the bytes, and the count of bytes it takes. -/
def decodeCounted (α : Type) [Transportable α] (bytes : List UInt8) : Except CodecError (α × Nat) :=
  (decodeWith (Reader.record (Transportable.layout α)) bytes 0).map fun (r, n) =>
    (Transportable.ofRecord r, n)

theorem decode_eq_map (bytes : List UInt8) :
    decode α bytes = (decodeCounted α bytes).map Prod.fst := by
  rw [decode, decodeCounted]
  cases decodeWith (Reader.record (Transportable.layout α)) bytes 0 <;> rfl

/-- The value and its end are found at the start of its image, whatever follows. -/
theorem decodeCounted_image (hα : Sized α) {a : α} (ha : Writable a) (rest : List UInt8) :
    decodeCounted α (image (pieces a) ++ rest) = .ok (a, extent (pieces a)) := by
  have hread : Reads false _ _ _ := Reads.record _ hα (Transportable.toRecord a) ha
  have hdec := hread.decodeWith rest 0 (by simp)
  rw [length_image] at hdec
  rw [decodeCounted, pieces, hdec]
  simp only [Except.map, Transportable.ofRecord_toRecord]

/-- **Decoding undoes encoding**, whatever follows the image of the value. -/
theorem decode_image (hα : Sized α) {a : α} (ha : Writable a) (rest : List UInt8) :
    decode α (image (pieces a) ++ rest) = .ok a := by
  rw [decode_eq_map, decodeCounted_image hα ha rest]
  rfl

/-- At an aligned address the value can be used in place, and ends where its image does. -/
theorem decodeView_image (hα : Sized α) {a : α} (ha : Writable a) (rest : List UInt8)
    {address : Nat} (h8 : address % itemAlignment = 0) :
    decodeView α (image (pieces a) ++ rest) address = .ok (View.of hα a, extent (pieces a)) := by
  have hread := Reads.recordView _ hα (Transportable.toRecord a) ha
  have hdec := hread.decodeWith rest address (fun _ => h8)
  rw [length_image] at hdec
  exact hdec

end IsolatedSolving.Wire
