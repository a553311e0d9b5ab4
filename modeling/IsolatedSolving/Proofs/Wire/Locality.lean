import IsolatedSolving.Channel.Child
import IsolatedSolving.Proofs.Wire.Sizes

/-! What a successful read has taken.

Written bytes are only some of those that can be read: a reader looks at no padding and at nothing
behind its last item. `Took` says of a step that succeeded, on any bytes, that it has moved over bytes
that spell the pieces of its result, and that the same bytes make it succeed in the same way anywhere
else. So what was read does not depend on what follows, its writer would write the same bytes with
zeros for padding, and it is no larger than the bytes that were taken: `decode_normal`. -/
namespace IsolatedSolving.Wire

variable {β γ : Type} {inPlace : Bool}

/-! ### Bytes that spell pieces -/

/-- The bytes hold the pieces one behind the other. What pads a piece may be anything. -/
inductive Spells : List Piece → List UInt8 → Prop
  | nil : Spells [] []
  | cons {p : Piece} {ps : List Piece} {padding rest : List UInt8}
    (hpadding : p.data.length + padding.length = p.length) (hrest : Spells ps rest) :
    Spells (p :: ps) (p.data ++ padding ++ rest)

/-- Whether the byte at this offset of a run of pieces pads one of them. -/
def isPadding : List Piece → Nat → Bool
  | [], _ => false
  | p :: ps, k => if k < p.length then decide (p.data.length ≤ k) else isPadding ps (k - p.length)

namespace Spells

theorem length {ps : List Piece} {bytes : List UInt8} (h : Spells ps bytes) :
    bytes.length = extent ps := by
  induction h with
  | nil => rfl
  | cons hpadding hrest ih => rw [List.length_append, List.length_append, hpadding, ih, extent_cons]

theorem append {ps qs : List Piece} {bytes more : List UInt8} (h : Spells ps bytes)
    (hmore : Spells qs more) : Spells (ps ++ qs) (bytes ++ more) := by
  induction h with
  | nil => exact hmore
  | cons hpadding hrest ih =>
    rw [List.append_assoc]
    exact .cons hpadding ih

/-- The data of a single piece, and its padding. -/
theorem single {p : Piece} {data padding : List UInt8} (hdata : p.data = data)
    (hpadding : data.length + padding.length = p.length) : Spells [p] (data ++ padding) := by
  subst hdata
  have h := Spells.cons hpadding .nil
  rwa [List.append_nil] at h

/-- Only the data of a piece shows in the bytes. -/
theorem of_data {p q : Piece} {bytes : List UInt8} (hdata : p.data = q.data) (h : Spells [q] bytes) :
    Spells [p] bytes := by
  cases h with
  | cons hpadding hrest =>
    cases hrest
    rw [← hdata, List.append_nil]
    exact single rfl (by rw [hdata, hpadding, Piece.length, Piece.length, hdata])

/-- The image of the pieces is what spells them, with zeros for padding. -/
theorem getElem?_image {ps : List Piece} {bytes : List UInt8} (h : Spells ps bytes) {k : Nat}
    (hk : k < bytes.length) :
    (image ps)[k]? = if isPadding ps k then some 0 else bytes[k]? := by
  induction h generalizing k with
  | nil => cases hk
  | @cons p ps padding rest hpadding hrest ih =>
    have hpad : (pad p.data).length = p.length := length_pad _
    have hfront : (p.data ++ padding).length = p.length := by rw [List.length_append, hpadding]
    rw [List.length_append, hfront] at hk
    by_cases hfirst : k < p.length
    · rw [image_cons, List.getElem?_append_left (by omega), List.getElem?_append_left (by omega),
        isPadding, if_pos hfirst, pad]
      by_cases hdata : p.data.length ≤ k
      · rw [if_pos (decide_eq_true hdata), List.getElem?_append_right hdata,
          List.getElem?_replicate, if_pos]
        show k - p.data.length < p.length - p.data.length
        omega
      · rw [if_neg (by simpa using hdata), List.getElem?_append_left (by omega),
          List.getElem?_append_left (by omega)]
    · rw [image_cons, List.getElem?_append_right (by omega), hpad,
        List.getElem?_append_right (by omega), hfront, isPadding, if_neg hfirst]
      exact ih (by omega)

end Spells

/-! ### Steps that succeeded -/

theorem slice_add (bytes : List UInt8) (start m n : Nat) :
    slice bytes start (m + n) = slice bytes start m ++ slice bytes (start + m) n := by
  simp only [slice, List.take_add, List.drop_drop]

theorem length_slice {bytes : List UInt8} (start length : Nat) (h : start + length ≤ bytes.length) :
    (slice bytes start length).length = length := by
  rw [slice, List.length_take, List.length_drop]
  omega

/-- The step has come from one place to another over bytes that spell these pieces, and takes them for
the same value wherever they stand. -/
structure Took (inPlace : Bool) (step : Reading β) (b : β) (ps : List Piece) (r r' : Reader) :
    Prop where
  writable : ∀ p ∈ ps, p.writable = true
  moved : r' = { r with position := r.position + extent ps }
  spells : Spells ps (slice r.bytes r.position (extent ps))
  reads : Reads inPlace step (slice r.bytes r.position (extent ps)) b

namespace Took

theorem pure (b : β) (r : Reader) : Took inPlace (pure b) b [] r r where
  writable := by simp
  moved := rfl
  spells := .nil
  reads := Reads.pure b

theorem bind {step : Reading β} {next : β → Reading γ} {b : β} {c : γ} {ps qs : List Piece}
    {r middle last : Reader} (hb : Took inPlace step b ps r middle)
    (hc : Took inPlace (next b) c qs middle last) :
    Took inPlace (step >>= next) c (ps ++ qs) r last := by
  obtain ⟨hwritable, rfl, hspells, hreads⟩ := hb
  have hmod : (slice r.bytes r.position (extent ps)).length % 8 = 0 := by
    rw [hspells.length]
    exact extent_mod ps
  constructor
  · exact List.forall_mem_append.mpr ⟨hwritable, hc.writable⟩
  · rw [hc.moved, extent_append, Nat.add_assoc]
  · rw [extent_append, slice_add]
    exact hspells.append hc.spells
  · rw [extent_append, slice_add]
    exact hreads.bind hmod hc.reads

/-- The last of two steps may only look at what the first one gave. -/
theorem map {step : Reading β} {next : β → Reading γ} {b : β} {c : γ} {ps : List Piece}
    {r middle : Reader} (hb : Took inPlace step b ps r middle) (hc : next b = Pure.pure c) :
    Took inPlace (step >>= next) c ps r middle := by
  have hlast : Took inPlace (next b) c [] middle middle := hc ▸ pure c middle
  have h := hb.bind hlast
  rwa [List.append_nil] at h

theorem take {length : Nat} {data : List UInt8} {r r' : Reader}
    (h : (Reader.take length).run r = .ok data r') :
    data.length = length ∧ Took inPlace (Reader.take length) data [.bytes data] r r' := by
  simp only [Reader.take, EStateM.run_bind, EStateM.run_get] at h
  split at h
  · next hstop =>
    cases h
    have hle := le_paddedLength length
    have hdata : (slice r.bytes r.position length).length = length := length_slice _ _ (by omega)
    have hrest : (slice r.bytes (r.position + length) (paddedLength length - length)).length =
        paddedLength length - length := length_slice _ _ (by omega)
    have hsplit := slice_add r.bytes r.position length (paddedLength length - length)
    rw [Nat.add_sub_cancel' hle] at hsplit
    generalize slice r.bytes r.position length = data at *
    generalize slice r.bytes (r.position + length) (paddedLength length - length) = padding at *
    subst hdata
    have hpadding : data.length + padding.length = paddedLength data.length := by omega
    refine ⟨rfl, List.forall_mem_singleton.mpr rfl, rfl, ?_, ?_⟩
    · exact hsplit ▸ Spells.single rfl hpadding
    · exact hsplit ▸ Reads.take_padded data padding hpadding
  · cases h

theorem scalar {e : Element} {v : e.Value} {r r' : Reader}
    (h : (Reader.scalar e).run r = .ok v r') :
    Took inPlace (Reader.scalar e) v [.bytes (e.encode v)] r r' := by
  obtain ⟨data, middle, htake, hdecode⟩ := run_bind_ok h
  obtain ⟨hlength, htook⟩ := take htake
  cases hvalue : e.decode data with
  | none => simp [hvalue] at hdecode; cases hdecode
  | some w =>
    simp only [hvalue] at hdecode
    cases hdecode
    rw [e.encode_of_decode hlength hvalue]
    exact htook.map (by rw [hvalue])

theorem of_data {step : Reading β} {b : β} {p q : Piece} {r r' : Reader} (hdata : p.data = q.data)
    (hp : p.writable = true) (h : Took inPlace step b [q] r r') : Took inPlace step b [p] r r' := by
  have hspace : extent [q] = extent [p] := by
    rw [extent_cons, extent_cons, Piece.length, Piece.length, hdata]
  obtain ⟨-, hmoved, hspells, hreads⟩ := h
  rw [hspace] at hmoved hspells hreads
  exact ⟨List.forall_mem_singleton.mpr hp, hmoved, hspells.of_data hdata, hreads⟩

/-- A count stands for itself, and is never too large to be written. -/
theorem count {n : Nat} {r r' : Reader} (h : Reader.count.run r = .ok n r') :
    Took inPlace Reader.count n [.count n] r r' := by
  obtain ⟨v, middle, hscalar, hsign⟩ := run_bind_ok h
  split at hsign
  · cases hsign
  · next hnonneg =>
    cases hsign
    have hle : v.toInt ≤ 2147483647 := v.toInt_le
    have hn : v.toInt.toNat ≤ Piece.largestCount := by
      unfold Piece.largestCount
      omega
    have hv : Int32.ofNat v.toInt.toNat = v := by
      apply Int32.toInt_inj.mp
      rw [Reads.toInt_ofNat_count hn]
      omega
    have hcode := Reads.encode_count hn
    rw [hv] at hcode
    have htook : Took inPlace Reader.count v.toInt.toNat [.bytes (Element.encode .int32 v)] _ _ :=
      (scalar hscalar).map (if_neg hnonneg)
    have hdata : (Piece.count v.toInt.toNat).data = (Piece.bytes (Element.encode .int32 v)).data :=
      hcode.symm
    exact htook.of_data hdata (decide_eq_true hn)

/-- The bytes of an array, behind its count. -/
theorem elements {e : Element} {data : List UInt8} {r r' : Reader}
    (h : (Reader.elements e).run r = .ok data r') :
    ∃ n, data.length = n * e.size ∧
      Took inPlace (Reader.elements e) data [.count n, .bytes data] r r' := by
  obtain ⟨n, middle, hcount, htake⟩ := run_bind_ok h
  obtain ⟨hlength, htook⟩ := take htake
  exact ⟨n, hlength, (count hcount).bind htook⟩

end Took

/-! ### Arrays -/

/-- Elements that were decoded are as many as were announced, and their bytes are those they were
decoded from. -/
theorem Element.encode_of_decodeMany (e : Element) {n : Nat} {data : List UInt8} {vs : List e.Value}
    (hlength : data.length = n * e.size) (h : e.decodeMany n data = some vs) :
    vs.length = n ∧ vs.flatMap e.encode = data := by
  induction n generalizing data vs with
  | zero =>
    cases h
    rw [Nat.zero_mul] at hlength
    exact ⟨rfl, (List.eq_nil_of_length_eq_zero hlength).symm⟩
  | succ n ih =>
    rw [Nat.succ_mul] at hlength
    rw [decodeMany] at h
    split at h
    · cases h
    · next v hvalue =>
      obtain ⟨rest, hrest, rfl⟩ := Option.map_eq_some_iff.mp h
      have hfirst := e.encode_of_decode (by rw [List.length_take]; omega) hvalue
      obtain ⟨hcount, hbytes⟩ := ih (by rw [List.length_drop]; omega) hrest
      refine ⟨by rw [List.length_cons, hcount], ?_⟩
      rw [List.flatMap_cons, hfirst, hbytes, List.take_append_drop]

theorem Element.encode_of_decodeAll (e : Element) (he : 0 < e.size) {n : Nat} {data : List UInt8}
    {vs : List e.Value} (hlength : data.length = n * e.size) (h : e.decodeAll data = some vs) :
    vs.length = n ∧ vs.flatMap e.encode = data := by
  rw [decodeAll, hlength, Nat.mul_div_cancel _ he] at h
  exact e.encode_of_decodeMany hlength h

namespace Took

theorem array {e : Element} (he : 0 < e.size) {vs : List e.Value} {r r' : Reader}
    (h : (Reader.array e).run r = .ok vs r') :
    Took inPlace (Reader.array e) vs (arrayPieces e vs) r r' := by
  obtain ⟨data, middle, helements, hdecode⟩ := run_bind_ok h
  obtain ⟨n, hlength, htook⟩ := elements helements
  cases hvalues : e.decodeAll data with
  | none => simp only [hvalues] at hdecode; cases hdecode
  | some ws =>
    simp only [hvalues] at hdecode
    cases hdecode
    obtain ⟨rfl, hbytes⟩ := e.encode_of_decodeAll he hlength hvalues
    rw [arrayPieces, hbytes]
    exact htook.map (by rw [hvalues])

/-- An array in place has been taken like one that is copied. -/
theorem arrayView {e : Element} (he : 0 < e.size) {v : ArrayView e} {r r' : Reader}
    (h : (Reader.arrayView e).run r = .ok v r') :
    Took true (Reader.arrayView e) v (arrayPieces e v.toList) r r' := by
  obtain ⟨n, first, hcount, hbehind⟩ := run_bind_ok h
  obtain ⟨_, _, hget, hbehind⟩ := run_bind_ok hbehind
  cases hget
  obtain ⟨data, last, htake, hcheck⟩ := run_bind_ok hbehind
  simp only [EStateM.run_bind, EStateM.run_get] at hcheck
  split at hcheck
  · cases hcheck
  split at hcheck
  · next hvalid =>
    cases hcheck
    have hcounted : Took true Reader.count n _ _ _ := count hcount
    obtain ⟨hlength, hdata⟩ : data.length = n * e.size ∧ Took true (Reader.take _) data _ _ _ :=
      take htake
    have htook : Took true (Reader.elements e) data _ _ _ := hcounted.bind hdata
    have hvalues : e.decodeAll data = some (ArrayView.mk data hvalid).toList :=
      (Option.some_get hvalid).symm
    obtain ⟨hn, hbytes⟩ := e.encode_of_decodeAll he hlength hvalues
    rw [arrayPieces, hn, hbytes]
    refine ⟨htook.writable, htook.moved, htook.spells, ?_⟩
    have hmod : (slice r.bytes r.position (extent [.count n])).length % 8 = 0 := by
      rw [hcounted.spells.length]
      exact extent_mod _
    have hread := Reads.arrayView_of e hcounted.reads hmod hdata.reads hvalid
    rw [hcounted.moved] at hread
    rwa [← slice_add] at hread
  · cases hcheck

/-! ### Items and records -/

theorem times {step : Reading β} {pieces : β → List Piece}
    (hstep : ∀ r b r', step.run r = .ok b r' → Took inPlace step b (pieces b) r r')
    {n : Nat} {bs : List β} {r r' : Reader} (h : (Reader.times step n).run r = .ok bs r') :
    bs.length = n ∧ Took inPlace (Reader.times step n) bs (bs.flatMap pieces) r r' := by
  induction n generalizing r bs with
  | zero =>
    cases h
    exact ⟨rfl, pure [] _⟩
  | succ n ih =>
    obtain ⟨b, middle, hfirst, hbehind⟩ := run_bind_ok h
    obtain ⟨rest, last, hrest, hend⟩ := run_bind_ok hbehind
    cases hend
    obtain ⟨hlength, htook⟩ := ih hrest
    refine ⟨by rw [List.length_cons, hlength], ?_⟩
    exact (hstep _ _ _ hfirst).bind (htook.map rfl)

/-- Rows, read by any step that reads one row. -/
theorem rows {step : Reading β} {pieces : β → List Piece}
    (hstep : ∀ r b r', step.run r = .ok b r' → Took inPlace step b (pieces b) r r')
    {bs : List β} {r r' : Reader} (h : (Reader.count >>= Reader.times step).run r = .ok bs r') :
    Took inPlace (Reader.count >>= Reader.times step) bs (.count bs.length :: bs.flatMap pieces)
      r r' := by
  obtain ⟨n, middle, hcount, hrows⟩ := run_bind_ok h
  obtain ⟨rfl, htook⟩ := times hstep hrows
  exact (count hcount).bind htook

theorem item {s : Shape} (hs : 0 < s.element.size) {v : s.Value} {r r' : Reader}
    (h : (Reader.item s).run r = .ok v r') : Took inPlace (Reader.item s) v (s.pieces v) r r' := by
  cases s with
  | scalar e => exact scalar h
  | array e => exact array hs h
  | nested e => exact rows (fun _ _ _ => array hs) h

theorem itemView {s : Shape} (hs : 0 < s.element.size) {v : s.View} {r r' : Reader}
    (h : (Reader.itemView s).run r = .ok v r') :
    Took true (Reader.itemView s) v (s.pieces (s.ofView v)) r r' := by
  cases s with
  | scalar e => exact scalar h
  | array e => exact arrayView hs h
  | nested e =>
    have hpieces : Shape.pieces (.nested e) (v.map ArrayView.toList) =
        .count v.length :: v.flatMap fun row => arrayPieces e row.toList := by
      rw [Shape.pieces, List.length_map, List.flatMap_map]
    rw [Shape.ofView, hpieces]
    exact rows (fun _ _ _ => arrayView hs) h

theorem record {l : Layout} (hl : l.Sized) {v : l.Record} {r r' : Reader}
    (h : (Reader.record l).run r = .ok v r') :
    Took inPlace (Reader.record l) v (l.pieces v) r r' := by
  induction l generalizing r with
  | nil =>
    cases h
    exact pure () _
  | cons s l ih =>
    obtain ⟨first, middle, hfirst, hbehind⟩ := run_bind_ok h
    obtain ⟨rest, last, hrest, hend⟩ := run_bind_ok hbehind
    cases hend
    have htook := ih (fun t ht => hl t (List.mem_cons_of_mem s ht)) hrest
    exact (item (hl s List.mem_cons_self) hfirst).bind (htook.map rfl)

theorem recordView {l : Layout} (hl : l.Sized) {v : l.View} {r r' : Reader}
    (h : (Reader.recordView l).run r = .ok v r') :
    Took true (Reader.recordView l) v (l.pieces (l.ofView v)) r r' := by
  induction l generalizing r with
  | nil =>
    cases h
    exact pure () _
  | cons s l ih =>
    obtain ⟨first, middle, hfirst, hbehind⟩ := run_bind_ok h
    obtain ⟨rest, last, hrest, hend⟩ := run_bind_ok hbehind
    cases hend
    have htook := ih (fun t ht => hl t (List.mem_cons_of_mem s ht)) hrest
    exact (itemView (hl s List.mem_cons_self) hfirst).bind (htook.map rfl)

end Took

/-! ### The price of elements -/

namespace Item

/-- How many elements there are in an item. -/
def elementCount : Item → Nat
  | ⟨.scalar _, _⟩ => 1
  | ⟨.array _, vs⟩ => vs.length
  | ⟨.nested _, rows⟩ => rows.flatten.length

/-- How many counts there are in an item: one in front of each array, and one in front of all rows. -/
def countCount : Item → Nat
  | ⟨.scalar _, _⟩ => 0
  | ⟨.array _, _⟩ => 1
  | ⟨.nested _, rows⟩ => 1 + rows.length

/-- The bytes that the counts and the elements of an item take at least. -/
def price (i : Item) : Nat := 8 * i.countCount + i.elementCount * i.shape.element.size

theorem price_le (i : Item) : i.price ≤ extent i.pieces := by
  have hcount (n : Nat) : (Piece.count n).length = 8 := by
    rw [Piece.length, Piece.data, length_littleEndian]
    rfl
  have harray (e : Element) (vs : List e.Value) :
      8 + vs.length * e.size ≤ extent (arrayPieces e vs) := by
    have hle := le_paddedLength (vs.flatMap e.encode).length
    rw [e.length_flatMap_encode] at hle
    rw [arrayPieces, extent_cons, extent_cons, extent_nil, hcount, Piece.length, Piece.data,
      e.length_flatMap_encode]
    omega
  obtain ⟨s, v⟩ := i
  cases s with
  | scalar e =>
    have hle := le_paddedLength (e.encode v).length
    rw [Element.length_encode] at hle
    show 8 * 0 + 1 * e.size ≤ paddedLength (e.encode v).length + 0
    rw [Element.length_encode]
    omega
  | array e =>
    have hle := harray e v
    show 8 * 1 + v.length * e.size ≤ extent (arrayPieces e v)
    omega
  | nested e =>
    have hrows : 8 * v.length + v.flatten.length * e.size ≤ extent (v.flatMap (arrayPieces e)) := by
      induction v with
      | nil => simp
      | cons row rows ih =>
        have hrow := harray e row
        rw [List.flatMap_cons, extent_append, List.flatten_cons, List.length_append, Nat.add_mul,
          List.length_cons]
        omega
    show 8 * (1 + v.length) + v.flatten.length * e.size ≤
      (Piece.count v.length).length + extent (v.flatMap (arrayPieces e))
    rw [hcount]
    omega

end Item

/-- The price of all items together. -/
def price (items : List Item) : Nat := items.foldr (fun i n => i.price + n) 0

theorem price_le (items : List Item) : price items ≤ extent (items.flatMap Item.pieces) := by
  induction items with
  | nil => exact Nat.le_refl 0
  | cons i items ih =>
    have hfirst := i.price_le
    rw [List.flatMap_cons, extent_append]
    show i.price + price items ≤ _
    omega

/-! ### Values -/

section Values
variable {α : Type} [Transportable α]

/-- The first `n` bytes make up the value: nothing else is looked at, and they are the bytes that its
writer writes, up to padding, which the writer fills with zeros. All that the value consists of has
its price in these bytes. -/
structure MakesUp (bytes : List UInt8) (a : α) (n : Nat) : Prop where
  inBounds : n ≤ bytes.length
  whole : n % itemAlignment = 0
  anywhere : ∀ tail, decodeCounted α (bytes.take n ++ tail) = .ok (a, n)
  counted : encodedLength a = .ok n
  rewritten : ∃ written, encode a = .ok written ∧ written.length = n ∧
    ∀ k < n, written[k]? = if isPadding (pieces a) k then some 0 else bytes[k]?
  paid : price ((Transportable.layout α).items (Transportable.toRecord a)) ≤ n

/-- A value that was decoded is made up by the bytes it took. -/
theorem makesUp_of_decodeCounted (hα : Sized α) {bytes : List UInt8} {a : α} {n : Nat}
    (h : decodeCounted α bytes = .ok (a, n)) : MakesUp bytes a n := by
  rw [decodeCounted] at h
  cases hdecode : decodeWith (Reader.record (Transportable.layout α)) bytes 0 with
  | error e => rw [hdecode] at h; cases h
  | ok found =>
    obtain ⟨v, length⟩ := found
    rw [hdecode] at h
    cases h
    obtain ⟨last, hrun, hlast⟩ := decodeWith_ok hdecode
    have htook : Took false _ v _ _ _ := Took.record hα hrun
    have hpieces : pieces (Transportable.ofRecord v : α) = (Transportable.layout α).pieces v := by
      rw [pieces, Transportable.toRecord_ofRecord]
    have hend : extent (pieces (Transportable.ofRecord v : α)) = n := by
      rw [hpieces, ← hlast, htook.moved, Reader.start, Nat.zero_add]
    obtain ⟨hwritable, -, hspells, hreads⟩ := htook
    rw [← hpieces] at hwritable hspells hreads
    rw [hend] at hspells hreads
    have hfront : slice bytes 0 n = bytes.take n := rfl
    rw [Reader.start, hfront] at hspells hreads
    have hlength : (bytes.take n).length = n := hspells.length.trans hend
    rw [List.length_take] at hlength
    constructor
    case inBounds => omega
    case whole => exact hend ▸ extent_mod _
    case anywhere =>
      intro tail
      have hagain := hreads.decodeWith tail 0 (by simp)
      rw [decodeCounted, hagain, List.length_take, hlength]
      rfl
    case counted => exact encodedLength_eq_ok_iff.mpr ⟨hwritable, hend.symm⟩
    case rewritten =>
      refine ⟨_, encode_eq hwritable, (length_image _).trans hend, fun k hk => ?_⟩
      rw [hspells.getElem?_image (by rw [List.length_take]; omega), List.getElem?_take_of_lt hk]
    case paid => exact hend ▸ price_le _

/-- What was used in place once can be used in place again, without the bytes behind it. -/
theorem decodeView_take (hα : Sized α) {bytes : List UInt8} {address : Nat} {v : View α} {n : Nat}
    (h8 : address % itemAlignment = 0) (h : decodeView α bytes address = .ok (v, n)) :
    decodeView α (bytes.take n) address = .ok (v, n) := by
  obtain ⟨last, hrun, hlast⟩ := decodeWith_ok h
  obtain ⟨-, hmoved, hspells, hreads⟩ := Took.recordView hα hrun
  have hend : extent ((Transportable.layout α).pieces ((Transportable.layout α).ofView v)) = n := by
    rw [← hlast, hmoved, Reader.start, Nat.zero_add]
  have hfront : slice bytes 0 n = bytes.take n := rfl
  rw [hend, Reader.start, hfront] at hspells hreads
  have hagain := hreads.decodeWith [] address fun _ => h8
  rw [List.append_nil, hspells.length, hend] at hagain
  exact hagain

end Values

/-- A worker that has found the end of a problem can always use it in place. -/
theorem problemIn_eq (bytes : List UInt8) :
    Channel.Child.problemIn bytes = (decodeView Problem bytes 0).mapError SolverError.ofCodec := by
  rw [Channel.Child.problemIn]
  cases h : decodeView Problem bytes 0 with
  | error e => rfl
  | ok found =>
    obtain ⟨view, n⟩ := found
    simp only [mapError_ok, bind, Except.bind, decodeView_take Problem.sized rfl h]
    rfl

/-- **Decoding looks at the bytes it takes, and encoding again gives their normal form.** What decodes
as a problem or as a result, from any bytes, is made up by the bytes that were taken. So a worker that
has found the end of a problem can always use it in place. -/
theorem decode_normal :
    (∀ bytes (p : Problem) n, decodeCounted Problem bytes = .ok (p, n) → MakesUp bytes p n) ∧
    (∀ bytes (s : Solution) n, decodeCounted Solution bytes = .ok (s, n) → MakesUp bytes s n) ∧
    ∀ bytes view n, decodeView Problem bytes 0 = .ok (view, n) →
      Channel.Child.problemIn bytes = .ok (view, n) := by
  refine ⟨fun _ _ _ => makesUp_of_decodeCounted Problem.sized,
    fun _ _ _ => makesUp_of_decodeCounted Solution.sized, fun bytes view n h => ?_⟩
  rw [problemIn_eq, h, mapError_ok]

/-- The bytes of a result with other bytes as padding of its status, and a byte behind it. -/
def scribbled : List UInt8 :=
  overwrite (image (pieces (Solution.largest 1 1))) 4 [1, 2, 3, 4] ++ [5]

/-- The scribbled result, and a problem without rows and columns with a byte behind it. -/
theorem decode_normal_scribbled :
    MakesUp scribbled (Solution.largest 1 1) 64 ∧
    MakesUp (image (pieces Problem.empty) ++ [5]) Problem.empty 168 ∧
    Channel.Child.problemIn (image (pieces Problem.empty) ++ [5]) =
      .ok (View.of Problem.sized Problem.empty, 168) := by
  obtain ⟨hproblem, hsolution, hview⟩ := decode_normal
  have hwritable : Writable Problem.empty := by decide
  have hlength : extent (pieces Problem.empty) = 168 := by decide
  have hdecode := decodeCounted_image Problem.sized hwritable [5]
  have hplace := decodeView_image Problem.sized hwritable [5] (Nat.zero_mod itemAlignment)
  rw [hlength] at hdecode hplace
  exact ⟨hsolution _ _ _ (by rfl), hproblem _ _ _ hdecode, hview _ _ _ hplace⟩

end IsolatedSolving.Wire
