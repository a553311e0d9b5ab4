import IsolatedSolving.Proofs.Wire.Sizes

/-! Rows of items, written and read back.

One writer takes any items one after another, one reader takes them back by their shapes alone, and
both note where they are after each item. With counts that can be written and elements that take
space, writing succeeds wherever there is room for what the counting pass finds, and
`Reader.row_image` says that the reader gives the items back and stops where the writer did, item by
item. The round trips of whole values, `roundTrip`, are the rows that their layouts prescribe. -/
namespace IsolatedSolving.Wire

/-! ### Rows -/

/-- Writes items one after another, and notes the position behind each of them. -/
def Writer.row (w : Writer) : List Item → Except CodecError (List Nat × Writer)
  | [] => .ok ([], w)
  | i :: items =>
    match w.write i.pieces with
    | (.error e, _) => .error e
    | (.ok (), next) =>
      (row next items).map fun (positions, last) => (next.position :: positions, last)

/-- Reads items of these shapes one after another, and notes the position behind each of them. -/
def Reader.row : List Shape → Reading (List (Item × Nat))
  | [] => return []
  | s :: shapes => do
    let v ← item s
    let position := (← get).position
    let rest ← row shapes
    return (⟨s, v⟩, position) :: rest

/-- The count of every array and of every row of the item can be written. -/
def Item.CountsFit : Item → Prop
  | ⟨.scalar _, _⟩ => True
  | ⟨.array _, vs⟩ => vs.length ≤ Piece.largestCount
  | ⟨.nested _, rows⟩ =>
    rows.length ≤ Piece.largestCount ∧ ∀ row ∈ rows, row.length ≤ Piece.largestCount

instance (i : Item) : Decidable i.CountsFit :=
  match i with
  | ⟨.scalar _, _⟩ => isTrue trivial
  | ⟨.array _, vs⟩ => inferInstanceAs (Decidable (vs.length ≤ Piece.largestCount))
  | ⟨.nested _, rows⟩ =>
    inferInstanceAs (Decidable (rows.length ≤ Piece.largestCount ∧
      ∀ row ∈ rows, row.length ≤ Piece.largestCount))

/-- Counts are all that can keep a piece from being written. -/
theorem Item.writable_pieces {i : Item} (h : i.CountsFit) : ∀ p ∈ i.pieces, p.writable = true := by
  have harray {e : Element} {vs : List e.Value} (hn : vs.length ≤ Piece.largestCount) :
      ∀ p ∈ arrayPieces e vs, p.writable = true :=
    List.forall_mem_cons.mpr ⟨decide_eq_true hn, List.forall_mem_singleton.mpr rfl⟩
  obtain ⟨s, v⟩ := i
  cases s with
  | scalar e => exact List.forall_mem_singleton.mpr rfl
  | array e => exact harray h
  | nested e =>
    refine List.forall_mem_cons.mpr ⟨decide_eq_true h.1, fun p hp => ?_⟩
    obtain ⟨row, hrow, hmem⟩ := List.mem_flatMap.mp hp
    exact harray (h.2 row hrow) p hmem

/-- The positions behind the items, if the first one starts at the given place. -/
def ends (start : Nat) : List Item → List Nat
  | [] => []
  | i :: items => (start + extent i.pieces) :: ends (start + extent i.pieces) items

theorem length_ends (start : Nat) (items : List Item) :
    (ends start items).length = items.length := by
  induction items generalizing start with
  | nil => rfl
  | cons i items ih => rw [ends, List.length_cons, List.length_cons, ih]

/-! ### Writing a row -/

namespace Writer

theorem counting_row (items : List Item) (position : Nat) (h : ∀ i ∈ items, i.CountsFit) :
    (⟨none, position⟩ : Writer).row items =
      .ok (ends position items, ⟨none, position + extent (items.flatMap Item.pieces)⟩) := by
  induction items generalizing position with
  | nil => rfl
  | cons i items ih =>
    have hfirst := counting_write i.pieces position (i.writable_pieces (h i List.mem_cons_self))
    have hrest := ih (position + extent i.pieces) fun j hj => h j (List.mem_cons_of_mem i hj)
    simp only [row, hfirst, hrest, Except.map, ends, List.flatMap_cons, extent_append, Nat.add_assoc]

/-- A row goes to the place that is left for it; what lies around it stays. -/
theorem row_parts (items : List Item) (front old back : List UInt8) (h : ∀ i ∈ items, i.CountsFit)
    (hspace : old.length = extent (items.flatMap Item.pieces)) :
    (⟨some (front ++ old ++ back), front.length⟩ : Writer).row items =
      .ok (ends front.length items, ⟨some (front ++ image (items.flatMap Item.pieces) ++ back),
        front.length + extent (items.flatMap Item.pieces)⟩) := by
  induction items generalizing front old with
  | nil =>
    obtain rfl : old = [] := List.eq_nil_of_length_eq_zero hspace
    rfl
  | cons i items ih =>
    rw [List.flatMap_cons, extent_append] at hspace
    have hold : old.take (extent i.pieces) ++ old.drop (extent i.pieces) = old :=
      List.take_append_drop _ _
    have hfirst := write_parts i.pieces front (old.take (extent i.pieces))
      (old.drop (extent i.pieces) ++ back) (i.writable_pieces (h i List.mem_cons_self))
      (by rw [List.length_take]; omega)
    have hrest := ih (front ++ image i.pieces) (old.drop (extent i.pieces))
      (fun j hj => h j (List.mem_cons_of_mem i hj)) (by rw [List.length_drop]; omega)
    have hplace : (front ++ image i.pieces).length = front.length + extent i.pieces := by
      rw [List.length_append, length_image]
    rw [hplace] at hrest
    rw [← List.append_assoc, List.append_assoc front, hold] at hfirst
    rw [← List.append_assoc] at hfirst
    simp only [row, hfirst, hrest, Except.map, ends, List.flatMap_cons, extent_append, image_append]
    simp only [List.append_assoc, Nat.add_assoc]

end Writer

/-! ### Reading a row -/

/-- The reader finds the items of an image, and the place behind each of them. -/
theorem Reader.row_image (items : List Item) (front tail : List UInt8) (address : Nat)
    (hsized : ∀ i ∈ items, 0 < i.shape.element.size) (h : ∀ i ∈ items, i.CountsFit) :
    let bytes := front ++ image (items.flatMap Item.pieces) ++ tail
    (Reader.row (items.map Item.shape)).run ⟨bytes, address, front.length⟩ =
      .ok (items.zip (ends front.length items))
        ⟨bytes, address, front.length + extent (items.flatMap Item.pieces)⟩ := by
  induction items generalizing front with
  | nil => rfl
  | cons i items ih =>
    have hread : Reads false _ _ _ := Reads.item i.shape (hsized i List.mem_cons_self) i.value
      (i.writable_pieces (h i List.mem_cons_self))
    have hfirst := hread front (image (items.flatMap Item.pieces) ++ tail) address (by simp)
    have hrest := ih (front ++ image i.pieces) (fun j hj => hsized j (List.mem_cons_of_mem i hj))
      fun j hj => h j (List.mem_cons_of_mem i hj)
    have himage : image (i.shape.pieces i.value) = image i.pieces := rfl
    simp only [himage, List.append_assoc, List.length_append, length_image] at hfirst hrest
    simp only [List.map_cons, Reader.row, List.flatMap_cons, image_append, extent_append,
      List.append_assoc, EStateM.run_bind, hfirst, EStateM.run_get, hrest, EStateM.run_pure, ends,
      List.zip_cons_cons, Nat.add_assoc]

/-! ### Values -/

variable {α : Type} [Transportable α]

/-- The count of every array and of every row of the value can be written. -/
def CountsFit (a : α) : Prop :=
  ∀ i ∈ (Transportable.layout α).items (Transportable.toRecord a), i.CountsFit

instance (a : α) : Decidable (CountsFit a) :=
  inferInstanceAs (Decidable (∀ i ∈ (Transportable.layout α).items _, i.CountsFit))

theorem CountsFit.writable {a : α} (h : CountsFit a) : Writable a := by
  intro p hp
  obtain ⟨i, hi, hmem⟩ := List.mem_flatMap.mp hp
  exact i.writable_pieces (h i hi) p hmem

/-- Values of the type come back from their bytes, whatever follows these, and take exactly the length
that was counted for them. -/
def ComesBack (α : Type) [Transportable α] : Prop :=
  ∀ a : α, CountsFit a → ∃ bytes, encode a = .ok bytes ∧ encodedLength a = .ok bytes.length ∧
    ∀ tail, decode α (bytes ++ tail) = .ok a ∧
      decodeCounted α (bytes ++ tail) = .ok (a, bytes.length)

theorem comesBack (hα : Sized α) : ComesBack α := by
  intro a ha
  have hw := ha.writable
  refine ⟨image (pieces a), encode_eq hw, ?_, fun tail => ⟨decode_image hα hw tail, ?_⟩⟩
  · rw [length_image]
    exact encodedLength_eq_ok_iff.mpr ⟨hw, rfl⟩
  · rw [length_image]
    exact decodeCounted_image hα hw tail

/-- **Decoding undoes encoding for every layout.** Take any items whose elements take space and whose
counts can be written. The counting pass finds the place behind each of them and the space for all; in
a buffer with that space one writer comes to the same places, and one reader, given the shapes and the
written bytes with anything behind them, comes to the same places with the same items. So problems and
results come back too. -/
theorem roundTrip :
    (∀ items : List Item, (∀ i ∈ items, 0 < i.shape.element.size) → (∀ i ∈ items, i.CountsFit) →
      ∃ positions written, positions.length = items.length ∧
        Writer.counting.row items = .ok (positions, ⟨none, written.length⟩) ∧
        (∀ buffer : List UInt8, written.length ≤ buffer.length →
          (Writer.ofBuffer buffer).row items =
            .ok (positions, ⟨some (written ++ buffer.drop written.length), written.length⟩)) ∧
        ∀ tail address,
          (Reader.row (items.map Item.shape)).run (Reader.start (written ++ tail) address) =
            .ok (items.zip positions) ⟨written ++ tail, address, written.length⟩) ∧
    ComesBack Problem ∧ ComesBack Solution := by
  refine ⟨fun items hsized h => ?_, comesBack Problem.sized, comesBack Solution.sized⟩
  have hlength := length_image (items.flatMap Item.pieces)
  have hcount := Writer.counting_row items 0 h
  rw [Nat.zero_add] at hcount
  refine ⟨ends 0 items, image (items.flatMap Item.pieces), length_ends 0 items, ?_,
    fun buffer hspace => ?_, fun tail address => ?_⟩
  · rw [hlength]
    exact hcount
  · rw [hlength] at hspace ⊢
    have hrow := Writer.row_parts items [] (buffer.take (extent (items.flatMap Item.pieces)))
      (buffer.drop (extent (items.flatMap Item.pieces))) h (by rw [List.length_take]; omega)
    simp only [List.nil_append, List.take_append_drop, List.length_nil, Nat.zero_add] at hrow
    exact hrow
  · rw [hlength]
    have hrow := Reader.row_image items [] tail address hsized h
    simp only [List.nil_append, List.length_nil, Nat.zero_add] at hrow
    exact hrow

/-- Rows of byte triples, a NaN and a minus zero, and a character. -/
def mixedRow : List Item :=
  [⟨.nested .triple, [[(1, 2, 3)], []]⟩,
    ⟨.array .float64, [⟨0x7ff8000000000001⟩, ⟨0x8000000000000000⟩]⟩, ⟨.scalar .char, 'é'⟩]

/-- The row in a buffer with six bytes to spare, a problem with an empty row, and a result. -/
theorem roundTrip_mixed :
    (∃ written, (Writer.ofBuffer (List.replicate 70 255)).row mixedRow =
        .ok ([32, 56, 64], ⟨some (written ++ List.replicate 6 255), 64⟩) ∧
      (Reader.row (mixedRow.map Item.shape)).run (Reader.start (written ++ [255, 0]) 3) =
        .ok (mixedRow.zip [32, 56, 64]) ⟨written ++ [255, 0], 3, 64⟩) ∧
    (∃ bytes, encode { Problem.empty with matrix := ⟨[[.one], []], [[0], []], 1⟩ } = .ok bytes ∧
      decode Problem (bytes ++ [1]) =
        .ok { Problem.empty with matrix := ⟨[[.one], []], [[0], []], 1⟩ }) ∧
    ∃ bytes, encode (Solution.largest 2 1) = .ok bytes ∧
      decode Solution (bytes ++ [1]) = .ok (Solution.largest 2 1) := by
  obtain ⟨hrows, hproblem, hsolution⟩ := roundTrip
  have hrow : Writer.counting.row mixedRow = .ok ([32, 56, 64], ⟨none, 64⟩) := by rfl
  obtain ⟨positions, written, -, hcount, hbuffer, hread⟩ := hrows mixedRow (by decide) (by decide)
  obtain ⟨rfl, hlength⟩ : [32, 56, 64] = positions ∧ 64 = written.length := by
    simpa using hrow.symm.trans hcount
  have hspace : written.length ≤ (List.replicate 70 (255 : UInt8)).length := by
    rw [← hlength, List.length_replicate]
    decide
  have hwrite := hbuffer _ hspace
  have hback := hread [255, 0] 3
  rw [← hlength] at hwrite hback
  obtain ⟨bytes, hencode, -, hdecode⟩ := hproblem
    { Problem.empty with matrix := ⟨[[.one], []], [[0], []], 1⟩ } (by decide)
  obtain ⟨others, hencodes, -, hdecodes⟩ := hsolution (Solution.largest 2 1) (by decide)
  exact ⟨⟨written, hwrite, hback⟩, ⟨bytes, hencode, (hdecode [1]).1⟩,
    others, hencodes, (hdecodes [1]).1⟩

end IsolatedSolving.Wire
