import IsolatedSolving.Proofs.Wire.Locality
import IsolatedSolving.Proofs.Wire.RoundTrip

/-! Counting items and writing them.

A writer can be called with one item after another, also after a call that failed: an item that has no
place may be followed by a smaller one that has. The counting pass knows beforehand how that goes, for
the writing pass succeeds with all of a row if and only if the buffer reaches as far as was counted, and
then it is in the same places (`Writer.accepts_iff`). Whatever fails, the written pieces stand at the
start of the buffer, with zeros for padding, and behind them the buffer is as it was (`Writer.Filled`).
So a buffer of the counted length is exactly long enough: `passes_agree`. -/
namespace IsolatedSolving.Wire

/-! ### The padding of an image -/

theorem Spells.image (ps : List Piece) : Spells ps (image ps) := by
  induction ps with
  | nil => exact .nil
  | cons p ps ih =>
    have hle := le_paddedLength p.data.length
    have hpadding : p.data.length +
        (List.replicate (paddedLength p.data.length - p.data.length) (0 : UInt8)).length = p.length := by
      rw [List.length_replicate, Piece.length]
      omega
    exact .cons hpadding ih

theorem getElem?_image_of_isPadding {ps : List Piece} {k : Nat} (hk : k < extent ps)
    (h : isPadding ps k = true) : (image ps)[k]? = some 0 := by
  rw [← length_image] at hk
  rw [(Spells.image ps).getElem?_image hk, if_pos h]

namespace Writer

/-! ### Calls in a row -/

/-- The calls with items one after another, whether they succeed or not: how each of them ends, and the
writer behind it. -/
def calls (w : Writer) : List Item → List (Except CodecError Unit × Writer)
  | [] => []
  | i :: items => w.write i.pieces :: calls (w.write i.pieces).2 items

/-- The writer behind all the calls. -/
def after (w : Writer) : List Item → Writer
  | [] => w
  | i :: items => after (w.write i.pieces).2 items

/-- All the calls succeed. -/
def Accepts (w : Writer) (items : List Item) : Prop := ∀ call ∈ w.calls items, call.1 = .ok ()

/-- The positions behind the calls. -/
def positions (w : Writer) (items : List Item) : List Nat :=
  (w.calls items).map fun call => call.2.position

theorem after_append (w : Writer) (items more : List Item) :
    w.after (items ++ more) = (w.after items).after more := by
  induction items generalizing w with
  | nil => rfl
  | cons i items ih => exact ih _

theorem accepts_cons {w : Writer} {i : Item} {items : List Item} :
    w.Accepts (i :: items) ↔
      (w.write i.pieces).1 = .ok () ∧ (w.write i.pieces).2.Accepts items :=
  List.forall_mem_cons

/-! ### Where the calls lead -/

/-- A writer that has written pieces has moved by their extent. -/
theorem position_of_write {ps : List Piece} {w next : Writer} (h : w.write ps = (.ok (), next)) :
    next.position = w.position + extent ps := by
  induction ps generalizing w with
  | nil =>
    cases h
    rfl
  | cons p ps ih =>
    rw [write] at h
    split at h
    · next middle hput =>
      rw [ih h, (put_ok hput).1, extent_cons, Nat.add_assoc]
    · cases h

/-- Every row that a writer accepts can be written, and takes it to the ends of the items. -/
theorem positions_of_accepts {items : List Item} {w : Writer} (h : w.Accepts items) :
    (∀ i ∈ items, ∀ p ∈ i.pieces, p.writable = true) ∧
      w.positions items = ends w.position items ∧
      (w.after items).position = w.position + extent (items.flatMap Item.pieces) := by
  induction items generalizing w with
  | nil => exact ⟨by simp, rfl, rfl⟩
  | cons i items ih =>
    obtain ⟨hfirst, hrest⟩ := accepts_cons.mp h
    have hwrite : w.write i.pieces = (.ok (), (w.write i.pieces).2) := Prod.ext hfirst rfl
    have hposition := position_of_write hwrite
    obtain ⟨hwritable, hpositions, hafter⟩ := ih hrest
    rw [hposition] at hpositions hafter
    refine ⟨List.forall_mem_cons.mpr ⟨writable_of_write hwrite, hwritable⟩, ?_, ?_⟩
    · show (w.write i.pieces).2.position :: (w.write i.pieces).2.positions items = _
      rw [hposition, hpositions, ends]
    · rw [after, hafter, List.flatMap_cons, extent_append, Nat.add_assoc]

/-! ### What the calls leave behind -/

/-- These pieces are written at the start of the buffer. Behind them it is as it was. -/
structure Filled (before : List UInt8) (ps : List Piece) (w : Writer) : Prop where
  state : w = ⟨some (image ps ++ before.drop (extent ps)), extent ps⟩
  room : extent ps ≤ before.length

namespace Filled

theorem ofBuffer (before : List UInt8) : Filled before [] (Writer.ofBuffer before) :=
  ⟨rfl, Nat.zero_le _⟩

variable {before : List UInt8} {ps : List Piece} {w : Writer}

theorem buffer (h : Filled before ps w) :
    w.buffer = some (image ps ++ before.drop (extent ps)) := by rw [h.state]

theorem position (h : Filled before ps w) : w.position = extent ps := by rw [h.state]

theorem length (h : Filled before ps w) :
    (image ps ++ before.drop (extent ps)).length = before.length := by
  have := h.room
  rw [List.length_append, length_image, List.length_drop]
  omega

/-- A piece that was written stands behind the others. -/
theorem put (h : Filled before ps w) {p : Piece} {next : Writer} (hput : w.put p = .ok next) :
    Filled before (ps ++ [p]) next := by
  have hroom := (Writer.put_ok hput).2.2 _ h.buffer
  rw [h.position, h.length] at hroom
  have hold : ((before.drop (extent ps)).take p.length).length = p.length := by
    rw [List.length_take, List.length_drop]
    omega
  have hparts := put_parts (image ps) _ ((before.drop (extent ps)).drop p.length) p
    (writable_of_put hput) hold
  rw [List.append_assoc, List.take_append_drop, length_image, ← h.state, hput] at hparts
  have hextent : extent (ps ++ [p]) = extent ps + p.length := by
    rw [extent_append, extent_cons, extent_nil, Nat.add_zero]
  constructor
  · rw [Except.ok.inj hparts, hextent, List.drop_drop, image_append, image_cons, image_nil,
      List.append_nil]
  · rw [hextent]
    exact hroom

/-- A piece that can be written fails only for want of room. -/
theorem put_error (h : Filled before ps w) {p : Piece} (hp : p.writable = true) {e : CodecError}
    (hput : w.put p = .error e) :
    before.length < extent ps + p.length ∧ e = .overflow (extent ps) p.length before.length := by
  simp only [Writer.put, hp, h.state, Bool.not_true, Bool.false_eq_true, if_false, h.length] at hput
  split at hput
  · cases hput
  · next hstop =>
    cases hput
    exact ⟨Nat.not_le.mp hstop, rfl⟩

/-- How a writer may end with pieces: with all of them, or with those in front of one that fails. -/
theorem write (h : Filled before ps w) (qs : List Piece) :
    ((w.write qs).1 = .ok () ∧ Filled before (ps ++ qs) (w.write qs).2) ∨
      ∃ e front, (w.write qs).1 = .error e ∧ Filled before (ps ++ front) (w.write qs).2 ∧
        ((∀ p ∈ qs, p.writable = true) → before.length < extent ps + extent qs ∧
          ∃ offset needed, e = .overflow offset needed before.length) := by
  induction qs generalizing ps w with
  | nil => exact .inl ⟨rfl, by rwa [List.append_nil]⟩
  | cons q qs ih =>
    rw [Writer.write]
    cases hput : w.put q with
    | ok next =>
      have hnext := h.put hput
      have hextent : extent (ps ++ [q]) + extent qs = extent ps + extent (q :: qs) := by
        rw [extent_append, extent_cons, extent_cons, extent_nil, Nat.add_zero, Nat.add_assoc]
      rcases ih hnext with ⟨hok, hfilled⟩ | ⟨e, front, herror, hfilled, hwhy⟩
      · exact .inl ⟨hok, by rwa [List.append_assoc] at hfilled⟩
      · refine .inr ⟨e, q :: front, herror, by rwa [List.append_assoc] at hfilled, fun hqs => ?_⟩
        rw [← hextent]
        exact hwhy fun p hp => hqs p (List.mem_cons_of_mem q hp)
    | error e =>
      refine .inr ⟨e, [], rfl, by rwa [List.append_nil], fun hqs => ?_⟩
      obtain ⟨hroom, hoverflow⟩ := h.put_error (hqs q List.mem_cons_self) hput
      rw [extent_cons]
      exact ⟨by omega, _, _, hoverflow⟩

/-- Calls add pieces and change nothing else. -/
theorem after (h : Filled before ps w) (items : List Item) :
    ∃ qs, Filled before (ps ++ qs) (w.after items) := by
  induction items generalizing ps w with
  | nil => exact ⟨[], by rwa [List.append_nil]⟩
  | cons i items ih =>
    obtain ⟨front, hfront⟩ : ∃ front, Filled before (ps ++ front) (w.write i.pieces).2 := by
      rcases h.write i.pieces with ⟨-, hfilled⟩ | ⟨-, front, -, hfilled, -⟩
      · exact ⟨_, hfilled⟩
      · exact ⟨front, hfilled⟩
    obtain ⟨qs, hqs⟩ := ih hfront
    exact ⟨front ++ qs, by rwa [← List.append_assoc]⟩

/-- With room for all items, all calls succeed. -/
theorem accepts (h : Filled before ps w) {items : List Item}
    (hp : ∀ i ∈ items, ∀ p ∈ i.pieces, p.writable = true)
    (hroom : extent ps + extent (items.flatMap Item.pieces) ≤ before.length) : w.Accepts items := by
  induction items generalizing ps w with
  | nil => exact fun call hcall => by cases hcall
  | cons i items ih =>
    rw [List.flatMap_cons, extent_append] at hroom
    obtain ⟨hfirst, hrest⟩ := List.forall_mem_cons.mp hp
    rcases h.write i.pieces with ⟨hok, hfilled⟩ | ⟨e, -, -, -, hwhy⟩
    · have hbehind := ih hfilled hrest (by rw [extent_append]; omega)
      exact accepts_cons.mpr ⟨hok, hbehind⟩
    · have := (hwhy hfirst).1
      omega

end Filled

/-- **The counting pass tells whether the writing pass succeeds.** -/
theorem accepts_iff {items : List Item} (h : counting.Accepts items) (buffer : List UInt8) :
    (ofBuffer buffer).Accepts items ↔ (counting.after items).position ≤ buffer.length := by
  obtain ⟨hp, -, hcounted⟩ := positions_of_accepts h
  constructor
  · intro haccepts
    obtain ⟨-, -, hafter⟩ := positions_of_accepts haccepts
    obtain ⟨qs, hqs⟩ := (Filled.ofBuffer buffer).after items
    have hroom := hqs.room
    rw [← hqs.position, hafter] at hroom
    rw [hcounted]
    exact hroom
  · intro hroom
    rw [hcounted] at hroom
    exact (Filled.ofBuffer buffer).accepts hp (by rwa [extent_nil])

/-- What there is to see of a buffer after calls, whether they have succeeded or not. The bytes from the
position on are those of the buffer before, and every item whose call has succeeded is padded with
zeros. -/
structure Tidy (before : List UInt8) (items : List Item) (w : Writer) (bytes : List UInt8) :
    Prop where
  buffer : w.buffer = some bytes
  length : bytes.length = before.length
  whole : w.position % itemAlignment = 0
  inBounds : w.position ≤ before.length
  behind : ∀ k, w.position ≤ k → bytes[k]? = before[k]?
  padding : ∀ front i back, items = front ++ i :: back →
    let first := (ofBuffer before).after front
    (first.write i.pieces).1 = .ok () →
      ∀ k < extent i.pieces, isPadding i.pieces k = true → bytes[first.position + k]? = some 0

/-- **Calls leave a buffer tidy**, in any row and whichever of them fail. -/
theorem tidy_after (before : List UInt8) (items : List Item) :
    ∃ bytes, Tidy before items ((ofBuffer before).after items) bytes := by
  obtain ⟨qs, hqs⟩ := (Filled.ofBuffer before).after items
  rw [List.nil_append] at hqs
  refine ⟨image qs ++ before.drop (extent qs), hqs.buffer, hqs.length, ?_, ?_, fun k hk => ?_, ?_⟩
  · rw [hqs.position]
    exact extent_mod qs
  · rw [hqs.position]
    exact hqs.room
  · rw [hqs.position] at hk
    rw [List.getElem?_append_right (by rwa [length_image]), length_image, List.getElem?_drop,
      Nat.add_sub_cancel' hk]
  · rintro front i back rfl first hok k hk hpadding
    obtain ⟨ps, hps⟩ := (Filled.ofBuffer before).after front
    rw [List.nil_append] at hps
    -- The pieces of the item stand behind those of the calls before, and those of later calls follow.
    obtain ⟨more, hmore⟩ : ∃ more, Filled before (ps ++ i.pieces ++ more)
        ((ofBuffer before).after (front ++ i :: back)) := by
      rcases hps.write i.pieces with ⟨-, hfilled⟩ | ⟨e, -, herror, -⟩
      · rw [after_append]
        exact hfilled.after back
      · cases hok.symm.trans herror
    have hsame : image qs ++ before.drop (extent qs) =
        image (ps ++ i.pieces ++ more) ++ before.drop (extent (ps ++ i.pieces ++ more)) :=
      Option.some.inj (hqs.buffer.symm.trans hmore.buffer)
    have hitem : extent ps + k - (image ps).length = k := by rw [length_image]; omega
    rw [hsame, image_append, image_append, hps.position, List.append_assoc, List.append_assoc,
      List.getElem?_append_right (by rw [length_image]; omega), hitem,
      List.getElem?_append_left (by rwa [length_image])]
    exact getElem?_image_of_isPadding hk hpadding

end Writer

/-! ### Values -/

section Values
variable {α : Type} [Transportable α]

/-- A value that can be counted is written to every buffer of at least that length, and to no other. -/
theorem encodeInto_cases {a : α} {n : Nat} (h : encodedLength a = .ok n) (buffer : List UInt8) :
    (n ≤ buffer.length ∧ (encodeInto a buffer).1 = .ok n) ∨
      buffer.length < n ∧
        ∃ offset needed, (encodeInto a buffer).1 = .error (.overflow offset needed buffer.length) := by
  obtain ⟨hp, rfl⟩ := encodedLength_eq_ok_iff.mp h
  by_cases hroom : extent (pieces a) ≤ buffer.length
  · exact .inl ⟨hroom, by rw [encodeInto_eq hp hroom]⟩
  · refine .inr ⟨Nat.not_le.mp hroom, ?_⟩
    rcases (Writer.Filled.ofBuffer buffer).write (pieces a) with ⟨-, hfilled⟩ | ⟨e, -, herror, -, hwhy⟩
    · exact absurd hfilled.room hroom
    · obtain ⟨-, offset, needed, rfl⟩ := hwhy hp
      refine ⟨offset, needed, ?_⟩
      show (((Writer.ofBuffer buffer).write (pieces a)).1.map fun _ => _) = _
      rw [herror]
      rfl

end Values

/-- **The counting pass and the writing pass agree.** A row of calls that can be counted can be written
if and only if the buffer reaches as far as was counted, and then both passes are in the same places
after each call. Any row of calls, whichever fail, leaves a buffer tidy. So what a value is encoded into
has to have its counted length: the bytes of the value are as many, and a buffer that is one byte shorter
is too short. -/
theorem passes_agree :
    (∀ items : List Item, Writer.counting.Accepts items → ∀ buffer : List UInt8,
      ((Writer.ofBuffer buffer).Accepts items ↔
        (Writer.counting.after items).position ≤ buffer.length) ∧
      ((Writer.ofBuffer buffer).Accepts items →
        (Writer.ofBuffer buffer).positions items = Writer.counting.positions items)) ∧
    (∀ (before : List UInt8) (items : List Item),
      ∃ bytes, Writer.Tidy before items ((Writer.ofBuffer before).after items) bytes) ∧
    ∀ (α : Type) [Transportable α] (a : α) (n : Nat), encodedLength a = .ok n →
      (∃ bytes, encode a = .ok bytes ∧ bytes.length = n) ∧
      ∀ buffer : List UInt8, (buffer.length = n → (encodeInto a buffer).1 = .ok n) ∧
        (buffer.length + 1 = n → ∃ offset needed,
          (encodeInto a buffer).1 = .error (.overflow offset needed buffer.length)) := by
  refine ⟨fun items h buffer => ⟨Writer.accepts_iff h buffer, fun haccepts => ?_⟩,
    Writer.tidy_after, fun α _ a n h => ⟨?_, fun buffer => ⟨fun hlength => ?_, fun hlength => ?_⟩⟩⟩
  · rw [(Writer.positions_of_accepts haccepts).2.1, (Writer.positions_of_accepts h).2.1]
    rfl
  · obtain ⟨hp, rfl⟩ := encodedLength_eq_ok_iff.mp h
    exact ⟨_, encode_eq hp, length_image _⟩
  · rcases encodeInto_cases h buffer with ⟨-, hok⟩ | ⟨hshort, -⟩
    · exact hok
    · omega
  · rcases encodeInto_cases h buffer with ⟨hroom, -⟩ | ⟨-, hoverflow⟩
    · omega
    · exact hoverflow

/-- A row of byte triples, numbers and a character, in a buffer of its length and in one that is a byte
shorter, where the character fails after the others, and a problem in buffers of these kinds. -/
theorem passes_agree_mixed :
    (Writer.ofBuffer (List.replicate 64 255)).Accepts mixedRow ∧
    (Writer.ofBuffer (List.replicate 64 255)).positions mixedRow = [32, 56, 64] ∧
    ¬(Writer.ofBuffer (List.replicate 63 255)).Accepts mixedRow ∧
    (∃ bytes, ((Writer.ofBuffer (List.replicate 63 255)).after mixedRow).buffer = some bytes ∧
      bytes[60]? = some 255 ∧ bytes[19]? = some 0) ∧
    (encodeInto Problem.empty (List.replicate 168 255)).1 = .ok 168 ∧
    ∃ offset needed,
      (encodeInto Problem.empty (List.replicate 167 255)).1 = .error (.overflow offset needed 167) := by
  obtain ⟨hrows, htidy, hvalues⟩ := passes_agree
  have hcalls : Writer.counting.calls mixedRow =
      [(.ok (), ⟨none, 32⟩), (.ok (), ⟨none, 56⟩), (.ok (), ⟨none, 64⟩)] := rfl
  have hcounted : Writer.counting.Accepts mixedRow := by simp [Writer.Accepts, hcalls]
  have hlength : encodedLength Problem.empty = .ok 168 := rfl
  obtain ⟨hwhole, hplaces⟩ := hrows mixedRow hcounted (List.replicate 64 255)
  have haccepts := hwhole.mpr (by decide)
  obtain ⟨bytes, hbytes⟩ := htidy (List.replicate 63 255) mixedRow
  refine ⟨haccepts, hplaces haccepts, fun hshort => ?_, ⟨bytes, hbytes.buffer, ?_, ?_⟩, ?_, ?_⟩
  · have hreach := (hrows mixedRow hcounted (List.replicate 63 255)).1.mp hshort
    exact absurd hreach (by decide)
  · exact hbytes.behind 60 (by decide)
  · exact hbytes.padding [] _ _ rfl rfl 19 (by decide) rfl
  · exact ((hvalues Problem Problem.empty 168 hlength).2 _).1 rfl
  · exact ((hvalues Problem Problem.empty 168 hlength).2 (List.replicate 167 255)).2 rfl

end IsolatedSolving.Wire
