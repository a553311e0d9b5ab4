import IsolatedSolving.Proofs.Wire.Locality

/-! Readers on a machine.

A reader counts with numbers that have no limit and cuts bytes wherever it is told to. A machine has
words of 64 bits, and stops by a fault where a sum or a product does not fit into one, where an index
lies outside, and where more memory is asked for than there can be. Here each step of a reader is done
once more in these terms, with whatever check the machine makes and no other (`Guarded`). On bytes that
memory can hold, such a step goes as the plain one does, to the same value or failure, and on to a place
that is a whole number of items and not behind the end (`Goes`, `Guards`). There is no case for a
fault. -/
namespace IsolatedSolving.Wire

variable {β γ : Type}

/-! ### Words and memory -/

/-- The first number that a word does not hold. -/
def wordLimit : Nat := 0x10000000000000000

/-- The first length that memory does not hold: lengths have a sign. -/
def memoryLimit : Nat := 0x8000000000000000

namespace Word

/-- The sum, if it is a word. -/
def add (m n : Nat) : Except Fault Nat :=
  if m + n < wordLimit then .ok (m + n) else .error .countOverflow

/-- The product, if it is a word. -/
def mul (m n : Nat) : Except Fault Nat :=
  if m * n < wordLimit then .ok (m * n) else .error .countOverflow

/-- The difference, if it is a word. -/
def sub (m n : Nat) : Except Fault Nat :=
  if n ≤ m then .ok (m - n) else .error .countOverflow

/-- The length rounded up to the next multiple of the item alignment. -/
def padded (n : Nat) : Except Fault Nat := mul ((n + 7) / 8) itemAlignment

/-- The bytes from one place on to another. -/
def range (bytes : List UInt8) (start stop : Nat) : Except Fault (List UInt8) :=
  if start ≤ stop ∧ stop ≤ bytes.length then .ok (slice bytes start (stop - start))
  else .error .outOfRange

/-- The first `n` chunks of this size. -/
def chunks (size : Nat) : Nat → List UInt8 → List (List UInt8)
  | 0, _ => []
  | n + 1, bytes => bytes.take size :: chunks size n (bytes.drop size)

/-- All chunks of this size. There is no cutting into nothing. -/
def split (size : Nat) (bytes : List UInt8) : Except Fault (List (List UInt8)) :=
  if size = 0 then .error .impossibleSize else .ok (chunks size (bytes.length / size) bytes)

/-- Memory for `n` values of this width. -/
def reserve (n width : Nat) : Except Fault Unit :=
  if n * width < memoryLimit then .ok () else .error .impossibleSize

theorem padded_eq {n : Nat} (h : n < memoryLimit) : padded n = .ok (paddedLength n) := by
  have hword : (n + 7) / 8 * 8 < wordLimit := by
    unfold memoryLimit at h
    unfold wordLimit
    omega
  rw [padded, mul, itemAlignment, if_pos hword, paddedLength]

theorem range_eq {bytes : List UInt8} {start length : Nat} (h : start + length ≤ bytes.length) :
    range bytes start (start + length) = .ok (slice bytes start length) := by
  rw [range, if_pos ⟨Nat.le_add_right _ _, h⟩, Nat.add_sub_cancel_left]

theorem length_of_mem_chunks {size n : Nat} {bytes chunk : List UInt8} (h : n * size ≤ bytes.length)
    (hchunk : chunk ∈ chunks size n bytes) : chunk.length = size := by
  induction n generalizing bytes with
  | zero => cases hchunk
  | succ n ih =>
    rw [Nat.succ_mul] at h
    rcases List.mem_cons.mp hchunk with rfl | hrest
    · rw [List.length_take]
      omega
    · exact ih (by rw [List.length_drop]; omega) hrest

end Word

theorem Element.size_le (e : Element) : e.size ≤ 8 := by
  cases e <;> decide

theorem Element.decodeMany_eq (e : Element) (n : Nat) (bytes : List UInt8) :
    e.decodeMany n bytes = (Word.chunks e.size n bytes).mapM e.decode := by
  induction n generalizing bytes with
  | zero => rfl
  | succ n ih =>
    rw [Element.decodeMany, Word.chunks, List.mapM_cons, ih]
    cases e.decode (bytes.take e.size) with
    | none => rfl
    | some v => cases (Word.chunks e.size n (bytes.drop e.size)).mapM e.decode <;> rfl

/-! ### Guarded steps -/

/-- A step of a reader that stops with an error or by a fault. -/
abbrev Guarded := EStateM (Stop CodecError) Reader

namespace Guarded

/-- Lets the machine do something. -/
def perform : Except Fault β → Guarded β
  | .ok b => return b
  | .error f => throw (.fault f)

/-- Takes `length` bytes and their padding. The end of the padding is compared with care, the end of the
bytes is not. -/
def take (length : Nat) : Guarded (List UInt8) := do
  let needed ← perform (Word.padded length)
  let r ← get
  let overflow := CodecError.overflow r.position needed r.bytes.length
  if r.position + needed < wordLimit then
    if r.position + needed ≤ r.bytes.length then
      let stop ← perform (Word.add r.position length)
      let bytes ← perform (Word.range r.bytes r.position stop)
      set { r with position := r.position + needed }
      return bytes
    else throw (.error overflow)
  else throw (.error overflow)

/-- The value that the bytes spell, which have to be as many as it takes. -/
def value (e : Element) (bytes : List UInt8) : Guarded e.Value :=
  if bytes.length = e.size then
    match e.decode bytes with
    | some v => return v
    | none => throw (.error (.invalidValue e))
  else throw (.error (.invalidValue e))

/-- Reads one value. -/
def scalar (e : Element) : Guarded e.Value := do
  let bytes ← take e.size
  value e bytes

/-- Reads the count of an array. -/
def count : Guarded Nat := do
  let n ← scalar .int32
  if n.toInt < 0 then throw (.error (.invalidCount n.toInt)) else return n.toInt.toNat

/-- Takes the bytes of `n` elements. -/
def takeElements (e : Element) (n : Nat) : Guarded (List UInt8) :=
  if n * e.size < wordLimit then take (n * e.size) else throw (.error (.invalidCount n))

/-- Reads an array. Elements without bytes are not looked for. -/
def array (e : Element) : Guarded (List e.Value) := do
  let n ← count
  let bytes ← takeElements e n
  if e.size = 0 then return []
  else
    let chunks ← perform (Word.split e.size bytes)
    chunks.mapM (value e)

/-- Uses bytes at an address as an array: they have to lie well, to be whole elements, and each of them
has to be a value. -/
def cast (e : Element) (address : Nat) (bytes : List UInt8) : Guarded (ArrayView e) :=
  if address % e.alignment ≠ 0 then throw (.error (.misaligned e))
  else if (e.size ≠ 0 ∧ bytes.length % e.size = 0) ∨ (e.size = 0 ∧ bytes = []) then
    if h : (e.decodeAll bytes).isSome then return ⟨bytes, h⟩ else throw (.error (.invalidValue e))
  else throw (.error (.invalidValue e))

/-- Uses an array in place. -/
def arrayView (e : Element) : Guarded (ArrayView e) := do
  let n ← count
  let start := (← get).position
  let bytes ← takeElements e n
  cast e ((← get).address + start) bytes

/-- Does the same step `n` times and collects what it gives. -/
def times (step : Guarded β) : Nat → Guarded (List β)
  | 0 => return []
  | n + 1 => do
    let b ← step
    let bs ← times step n
    return b :: bs

/-- Does a step for each row, with memory for as many results of this width as are announced, but for no
more than there are bytes left. -/
def rows (width : Nat) (step : Guarded β) : Guarded (List β) := do
  let n ← count
  let r ← get
  let left ← perform (Word.sub r.bytes.length r.position)
  perform (Word.reserve (min n left) width)
  times step n

/-- Reads the item at one place of a layout. A row is three words. -/
def item : (s : Shape) → Guarded s.Value
  | .scalar e => scalar e
  | .array e => array e
  | .nested e => rows 24 (array e)

/-- Uses the item at one place of a layout in place. A row is two words. -/
def itemView : (s : Shape) → Guarded s.View
  | .scalar e => scalar e
  | .array e => arrayView e
  | .nested e => rows 16 (arrayView e)

/-- Reads a record. -/
def record : (l : Layout) → Guarded l.Record
  | [] => return ()
  | s :: l => do
    let v ← item s
    let r ← record l
    return (v, r)

/-- Uses a record in place. -/
def recordView : (l : Layout) → Guarded l.View
  | [] => return ()
  | s :: l => do
    let v ← itemView s
    let r ← recordView l
    return (v, r)

theorem perform_eq {x : Except Fault β} {b : β} (h : x = .ok b) : perform x = return b := by
  rw [h, perform]

theorem value_eq {e : Element} {bytes : List UInt8} (h : bytes.length = e.size) :
    value e bytes = match e.decode bytes with
      | some v => return v
      | none => throw (.error (.invalidValue e)) := if_pos h

/-- Chunks are looked at one by one, and the first that is no value stops it. -/
theorem mapM_value {e : Element} {chunks : List (List UInt8)}
    (h : ∀ chunk ∈ chunks, chunk.length = e.size) :
    chunks.mapM (value e) = match chunks.mapM e.decode with
      | some vs => return vs
      | none => throw (.error (.invalidValue e)) := by
  induction chunks with
  | nil => rfl
  | cons chunk chunks ih =>
    obtain ⟨hfirst, hrest⟩ := List.forall_mem_cons.mp h
    rw [List.mapM_cons, List.mapM_cons, value_eq hfirst, ih hrest]
    cases e.decode chunk with
    | none => rfl
    | some v =>
      cases chunks.mapM e.decode with
      | none => rfl
      | some vs => rfl

end Guarded

/-! ### Movement -/

/-- The reader is at the start of an item or at the end, in bytes that memory holds. -/
structure Reader.Sound (r : Reader) : Prop where
  inMemory : r.bytes.length < memoryLimit
  inside : r.position ≤ r.bytes.length
  whole : r.position % itemAlignment = 0

/-- The second reader has come from the first one: it is in the same bytes, not before it and not behind
the end, and has taken whole items. -/
structure Onward (r last : Reader) : Prop where
  bytes : last.bytes = r.bytes
  address : last.address = r.address
  forward : r.position ≤ last.position
  inside : last.position ≤ last.bytes.length
  whole : last.position % itemAlignment = 0

theorem Reader.Sound.onward {r : Reader} (h : r.Sound) : Onward r r :=
  ⟨rfl, rfl, Nat.le_refl _, h.inside, h.whole⟩

theorem Onward.sound {r last : Reader} (h : Onward r last) (hr : r.Sound) : last.Sound :=
  ⟨h.bytes ▸ hr.inMemory, h.inside, h.whole⟩

theorem Onward.trans {r middle last : Reader} (h : Onward r middle) (hlast : Onward middle last) :
    Onward r last :=
  ⟨hlast.bytes.trans h.bytes, hlast.address.trans h.address, Nat.le_trans h.forward hlast.forward,
    hlast.inside, hlast.whole⟩

/-- How a guarded step may go from `r`, if the plain step goes as given: to the same end, further on.
What it finds has the property. -/
inductive Goes (Q : β → Prop) (r : Reader) :
    EStateM.Result (Stop CodecError) Reader β → EStateM.Result CodecError Reader β → Prop
  | ok {b : β} {last : Reader} (hb : Q b) (h : Onward r last) : Goes Q r (.ok b last) (.ok b last)
  | error (e : CodecError) {last : Reader} (h : Onward r last) :
    Goes Q r (.error (.error e) last) (.error e last)

/-- From any sound reader, the guarded step goes as the plain one does. -/
def Guards (Q : β → Prop) (guarded : Guarded β) (step : Reading β) : Prop :=
  ∀ r : Reader, r.Sound → Goes Q r (guarded.run r) (step.run r)

/-- Nothing more is known of what a step finds. -/
abbrev Anything (_ : β) : Prop := True

namespace Guards

theorem pure {Q : β → Prop} {b : β} (hb : Q b) : Guards Q (pure b) (pure b) :=
  fun _ hr => .ok hb hr.onward

theorem throw {Q : β → Prop} (e : CodecError) : Guards Q (throw (.error e)) (throw e) :=
  fun _ hr => .error e hr.onward

theorem bind {Q : β → Prop} {P : γ → Prop} {guarded : Guarded β} {step : Reading β}
    {next : β → Guarded γ} {next' : β → Reading γ} (h : Guards Q guarded step)
    (hnext : ∀ b, Q b → Guards P (next b) (next' b)) :
    Guards P (guarded >>= next) (step >>= next') := by
  intro r hr
  have hfirst := h r hr
  rw [EStateM.run_bind, EStateM.run_bind]
  generalize guarded.run r = left at hfirst
  generalize step.run r = right at hfirst
  cases hfirst with
  | error e hlast => exact .error e hlast
  | @ok b middle hb hmiddle =>
    have hsecond := hnext b hb middle (hmiddle.sound hr)
    dsimp only
    generalize (next b).run middle = left at hsecond ⊢
    generalize (next' b).run middle = right at hsecond ⊢
    cases hsecond with
    | ok hc hlast => exact .ok hc (hmiddle.trans hlast)
    | error e hlast => exact .error e (hmiddle.trans hlast)

/-- Both steps may look at the reader. -/
theorem get_bind {P : γ → Prop} {next : Reader → Guarded γ} {next' : Reader → Reading γ}
    (h : ∀ r : Reader, r.Sound → Guards P (next r) (next' r)) :
    Guards P (get >>= next) (get >>= next') :=
  fun r hr => h r hr r hr

/-- The guarded step may look at the reader where the plain one does not. -/
theorem get_left {P : γ → Prop} {next : Reader → Guarded γ} {step : Reading γ}
    (h : ∀ r : Reader, r.Sound → Guards P (next r) step) : Guards P (get >>= next) step :=
  fun r hr => h r hr r hr

/-! ### Items -/

/-- A length that memory holds is taken without a fault. -/
theorem take {length : Nat} (hlength : length < memoryLimit) :
    Guards (fun data => data.length = length) (Guarded.take length) (Reader.take length) := by
  intro r hr
  have hle := le_paddedLength length
  have hmod := paddedLength_mod length
  rw [Guarded.take, Guarded.perform_eq (Word.padded_eq hlength), pure_bind]
  simp only [Reader.take, EStateM.run_bind, EStateM.run_get]
  by_cases hstop : r.position + paddedLength length ≤ r.bytes.length
  · have hlimit := hr.inMemory
    have hwhole : r.position % 8 = 0 := hr.whole
    have hnext : (r.position + paddedLength length) % 8 = 0 := by omega
    have hword : r.position + paddedLength length < wordLimit := by
      unfold memoryLimit at hlimit
      unfold wordLimit
      omega
    have hend : Word.add r.position length = .ok (r.position + length) := if_pos (by omega)
    have hdata : Word.range r.bytes r.position (r.position + length) = .ok _ :=
      Word.range_eq (by omega)
    rw [if_pos hword, if_pos hstop, if_pos hstop, Guarded.perform_eq hend, pure_bind,
      Guarded.perform_eq hdata, pure_bind]
    exact .ok (length_slice _ _ (by omega)) ⟨rfl, rfl, Nat.le_add_right _ _, hstop, hnext⟩
  · rw [if_neg hstop, if_neg hstop, ite_self]
    exact .error _ hr.onward

theorem scalar (e : Element) : Guards Anything (Guarded.scalar e) (Reader.scalar e) := by
  have hsize := e.size_le
  refine (take (by unfold memoryLimit; omega)).bind fun bytes hbytes => ?_
  rw [Guarded.value_eq hbytes]
  cases e.decode bytes with
  | some v => exact pure True.intro
  | none => exact throw _

theorem count : Guards (· ≤ Piece.largestCount) Guarded.count Reader.count := by
  refine (scalar .int32).bind fun n _ => ?_
  split
  · exact throw _
  · have hn : n.toInt ≤ 2147483647 := n.toInt_le
    exact pure (by unfold Piece.largestCount; omega)

/-- The product of a count and a size is far from any limit. -/
theorem takeElements (e : Element) {n : Nat} (hn : n ≤ Piece.largestCount) :
    Guards (fun data => data.length = n * e.size) (Guarded.takeElements e n)
      (Reader.take (n * e.size)) := by
  have hbytes : n * e.size ≤ Piece.largestCount * 8 := Nat.mul_le_mul hn e.size_le
  unfold Piece.largestCount at hbytes
  rw [Guarded.takeElements, if_pos (by unfold wordLimit; omega)]
  exact take (by unfold memoryLimit; omega)

theorem array (e : Element) : Guards Anything (Guarded.array e) (Reader.array e) := by
  rw [Guarded.array, Reader.array, Reader.elements, bind_assoc]
  refine count.bind fun n hn => (takeElements e hn).bind fun bytes hbytes => ?_
  by_cases hsize : e.size = 0
  · have hnone : e.decodeAll bytes = some [] := by
      rw [Element.decodeAll, hsize, Nat.div_zero, Element.decodeMany]
    rw [if_pos hsize, hnone]
    exact pure True.intro
  · have hsplit : Word.split e.size bytes = .ok _ := if_neg hsize
    have hchunks : ∀ chunk ∈ Word.chunks e.size (bytes.length / e.size) bytes,
        chunk.length = e.size :=
      fun _ => Word.length_of_mem_chunks (Nat.div_mul_le_self _ _)
    rw [if_neg hsize, Guarded.perform_eq hsplit, pure_bind, Guarded.mapM_value hchunks,
      ← Element.decodeMany_eq, ← Element.decodeAll]
    cases e.decodeAll bytes with
    | some vs => exact pure True.intro
    | none => exact throw _

theorem arrayView (e : Element) : Guards Anything (Guarded.arrayView e) (Reader.arrayView e) := by
  refine count.bind fun n hn => get_bind fun r _ => (takeElements e hn).bind fun bytes hbytes =>
    get_bind fun _ _ => ?_
  have hwhole : (e.size ≠ 0 ∧ bytes.length % e.size = 0) ∨ (e.size = 0 ∧ bytes = []) := by
    by_cases hsize : e.size = 0
    · exact .inr ⟨hsize, List.eq_nil_of_length_eq_zero (by rw [hbytes, hsize, Nat.mul_zero])⟩
    · exact .inl ⟨hsize, by rw [hbytes, Nat.mul_mod_left]⟩
  rw [Guarded.cast, if_pos hwhole]
  split
  · exact throw _
  · split
    · exact pure True.intro
    · exact throw _

theorem times {guarded : Guarded β} {step : Reading β} (h : Guards Anything guarded step) (n : Nat) :
    Guards Anything (Guarded.times guarded n) (Reader.times step n) := by
  induction n with
  | zero => exact pure True.intro
  | succ n ih => exact h.bind fun b _ => ih.bind fun bs _ => pure True.intro

/-- Counts are too small for their rows to be too much for memory. -/
theorem rows {width : Nat} (hwidth : width ≤ 24) {guarded : Guarded β} {step : Reading β}
    (h : Guards Anything guarded step) :
    Guards Anything (Guarded.rows width guarded) (Reader.count >>= Reader.times step) := by
  refine count.bind fun n hn => get_left fun r hr => ?_
  have hleft : Word.sub r.bytes.length r.position = .ok _ := if_pos hr.inside
  have hspace : min n (r.bytes.length - r.position) * width ≤ Piece.largestCount * 24 :=
    Nat.mul_le_mul (Nat.le_trans (Nat.min_le_left _ _) hn) hwidth
  have hreserve : Word.reserve (min n (r.bytes.length - r.position)) width = .ok () :=
    if_pos (by unfold memoryLimit; unfold Piece.largestCount at hspace; omega)
  rw [Guarded.perform_eq hleft, pure_bind, Guarded.perform_eq hreserve, pure_bind]
  exact times h n

theorem item (s : Shape) : Guards Anything (Guarded.item s) (Reader.item s) := by
  cases s with
  | scalar e => exact scalar e
  | array e => exact array e
  | nested e => exact rows (Nat.le_refl _) (array e)

theorem itemView (s : Shape) : Guards Anything (Guarded.itemView s) (Reader.itemView s) := by
  cases s with
  | scalar e => exact scalar e
  | array e => exact arrayView e
  | nested e => exact rows (by decide) (arrayView e)

theorem record (l : Layout) : Guards Anything (Guarded.record l) (Reader.record l) := by
  induction l with
  | nil => exact pure True.intro
  | cons s l ih => exact (item s).bind fun v _ => ih.bind fun r _ => pure True.intro

theorem recordView (l : Layout) : Guards Anything (Guarded.recordView l) (Reader.recordView l) := by
  induction l with
  | nil => exact pure True.intro
  | cons s l ih => exact (itemView s).bind fun v _ => ih.bind fun r _ => pure True.intro

end Guards

end IsolatedSolving.Wire
