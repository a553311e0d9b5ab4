import IsolatedSolving.Proofs.Wire.InPlace
import IsolatedSolving.Proofs.Wire.RoundTrip

/-! Bytes that end too early.

A reader takes one piece after the other and looks at nothing behind the piece it takes. So on the first
`n` bytes it goes as on all of them until a piece would go past the end, and then this is what it
reports, with `n` as the capacity (`Local`). What has been read from some bytes is therefore refused if
the last of them is missing (`decodeCounted_take`), in particular every strict prefix of an encoding
(`truncation_refused`). -/
namespace IsolatedSolving.Wire

variable {β γ : Type}

/-! ### Steps on fewer bytes -/

/-- The failure of a reader that has come to the end of `n` bytes: the piece that it could not take
starts within them and ends behind them. -/
def TooShort (n : Nat) (e : CodecError) : Prop :=
  ∃ offset needed, e = .overflow offset needed n ∧ offset ≤ n ∧ n < offset + needed

/-- How a step may go on the first `n` bytes, if it goes as given on all of them. -/
inductive Curtails (bytes : List UInt8) (address n : Nat) :
    EStateM.Result CodecError Reader β → EStateM.Result CodecError Reader β → Prop
  | ok (b : β) {position : Nat} (h : position ≤ n) :
    Curtails bytes address n (.ok b ⟨bytes.take n, address, position⟩)
      (.ok b ⟨bytes, address, position⟩)
  | error (e : CodecError) (position : Nat) :
    Curtails bytes address n (.error e ⟨bytes.take n, address, position⟩)
      (.error e ⟨bytes, address, position⟩)
  | tooShort {e : CodecError} (h : TooShort n e) (r : Reader)
    {whole : EStateM.Result CodecError Reader β} : Curtails bytes address n (.error e r) whole

/-- From any place within the first `n` bytes, nothing behind them makes a difference to the step unless
it runs into their end. -/
def Local (step : Reading β) : Prop :=
  ∀ (bytes : List UInt8) (address n position : Nat), n ≤ bytes.length → position ≤ n →
    Curtails bytes address n (step.run ⟨bytes.take n, address, position⟩)
      (step.run ⟨bytes, address, position⟩)

namespace Local

theorem pure (b : β) : Local (pure b) := fun _ _ _ _ _ hp => .ok b hp

theorem throw (e : CodecError) : Local (throw e : Reading β) := fun _ _ _ position _ _ =>
  .error e position

theorem bind {step : Reading β} {next : β → Reading γ} (h : Local step) (hnext : ∀ b, Local (next b)) :
    Local (step >>= next) := by
  intro bytes address n position hn hp
  have hfirst := h bytes address n position hn hp
  rw [EStateM.run_bind, EStateM.run_bind]
  generalize step.run ⟨bytes.take n, address, position⟩ = part at hfirst
  generalize step.run ⟨bytes, address, position⟩ = whole at hfirst
  cases hfirst with
  | ok b hp => exact hnext b bytes address n _ hn hp
  | error e position => exact .error e position
  | tooShort he r => exact .tooShort he r

/-- Bytes that end within the first `n` are the same there. -/
theorem slice_take {bytes : List UInt8} {n start length : Nat} (h : start + length ≤ n) :
    slice (bytes.take n) start length = slice bytes start length := by
  rw [slice, slice, List.drop_take, List.take_take, Nat.min_eq_left (by omega)]

theorem take (length : Nat) : Local (Reader.take length) := by
  intro bytes address n position hn hp
  have hle := le_paddedLength length
  have hlength : (bytes.take n).length = n := by rw [List.length_take, Nat.min_eq_left hn]
  simp only [Reader.take, EStateM.run_bind, EStateM.run_get, hlength]
  by_cases hstop : position + paddedLength length ≤ n
  · rw [if_pos hstop, if_pos (Nat.le_trans hstop hn), slice_take (by omega)]
    exact .ok _ hstop
  · rw [if_neg hstop]
    exact .tooShort ⟨position, paddedLength length, rfl, hp, Nat.not_le.mp hstop⟩ _

theorem scalar (e : Element) : Local (Reader.scalar e) := by
  refine (take e.size).bind fun bytes => ?_
  cases e.decode bytes with
  | some v => exact pure v
  | none => exact throw _

theorem count : Local Reader.count := by
  refine (scalar .int32).bind fun n => ?_
  split
  · exact throw _
  · exact pure _

theorem array (e : Element) : Local (Reader.array e) := by
  refine (count.bind fun n => take (n * e.size)).bind fun bytes => ?_
  cases e.decodeAll bytes with
  | some vs => exact pure vs
  | none => exact throw _

theorem times {step : Reading β} (h : Local step) (n : Nat) : Local (Reader.times step n) := by
  induction n with
  | zero => exact pure []
  | succ n ih => exact h.bind fun b => ih.bind fun bs => pure (b :: bs)

theorem item (s : Shape) : Local (Reader.item s) := by
  cases s with
  | scalar e => exact scalar e
  | array e => exact array e
  | nested e => exact count.bind fun rows => (array e).times rows

theorem record (l : Layout) : Local (Reader.record l) := by
  induction l with
  | nil => exact pure ()
  | cons s l ih => exact (item s).bind fun v => ih.bind fun r => pure (v, r)

end Local

/-! ### Values -/

section Values
variable {α : Type} [Transportable α]

/-- Whatever was read is refused on fewer bytes than it took. -/
theorem decodeCounted_take {bytes : List UInt8} {a : α} {m n : Nat} (hn : n ≤ bytes.length)
    (hm : n < m) (h : decodeCounted α bytes = .ok (a, m)) :
    ∃ e, TooShort n e ∧ decodeCounted α (bytes.take n) = .error e := by
  have hcurtails := Local.record (Transportable.layout α) bytes 0 n 0 hn (Nat.zero_le n)
  simp only [decodeCounted, decodeWith, Reader.start] at h ⊢
  generalize (Reader.record (Transportable.layout α)).run ⟨bytes.take n, 0, 0⟩ = part at hcurtails ⊢
  generalize (Reader.record (Transportable.layout α)).run ⟨bytes, 0, 0⟩ = whole at hcurtails h
  cases hcurtails with
  | ok v hp =>
    -- All of it would lie within the first `n` bytes.
    cases h
    exact absurd hp (Nat.not_le.mpr hm)
  | error e position => cases h
  | @tooShort e he r => exact ⟨e, he, rfl⟩

/-- At an aligned address, a failure to copy a value out is a failure to use it in place. -/
theorem decodeView_error {bytes : List UInt8} {e : CodecError} {address : Nat}
    (h8 : address % itemAlignment = 0) (h : decodeCounted α bytes = .error e) :
    decodeView α bytes address = .error e := by
  have hsame := (decodeView_cases (α := α) bytes address).resolve_right fun h => h.1 h8
  rw [h] at hsame
  cases hview : decodeView α bytes address with
  | error f =>
    rw [hview] at hsame
    cases hsame
    rfl
  | ok found =>
    rw [hview] at hsame
    cases hsame

/-- Every part of the bytes of a value that misses the end is too short, to be copied as well as to be
used in place. -/
def NeedsAll (α : Type) [Transportable α] : Prop :=
  ∀ a : α, CountsFit a → ∃ bytes, encode a = .ok bytes ∧ encodedLength a = .ok bytes.length ∧
    ∀ n < bytes.length, ∃ e, TooShort n e ∧ decode α (bytes.take n) = .error e ∧
      ∀ address, address % itemAlignment = 0 → decodeView α (bytes.take n) address = .error e

theorem needsAll (hα : Sized α) : NeedsAll α := by
  intro a ha
  have hw := ha.writable
  have hlength := length_image (pieces a)
  refine ⟨image (pieces a), encode_eq hw, ?_, fun n hn => ?_⟩
  · rw [hlength]
    exact encodedLength_eq_ok_iff.mpr ⟨hw, rfl⟩
  · have hwhole := decodeCounted_image hα hw []
    rw [List.append_nil] at hwhole
    obtain ⟨e, he, hpart⟩ := decodeCounted_take (Nat.le_of_lt hn) (hlength ▸ hn) hwhole
    refine ⟨e, he, ?_, fun address h8 => decodeView_error h8 hpart⟩
    rw [decode_eq_map, hpart]
    rfl

end Values

/-- **Every strict prefix of an encoding is too short.** The bytes of a problem or of a result, cut
anywhere, are refused for the piece that does not fit, with the length of what is left as the
capacity. -/
theorem truncation_refused : NeedsAll Problem ∧ NeedsAll Solution :=
  ⟨needsAll Problem.sized, needsAll Solution.sized⟩

/-- The bytes of a problem with one row, cut in a count, in the padding behind it and in the last
scalar, and those of a result, cut in its values. -/
theorem truncation_refused_cut :
    (∃ bytes, encode { Problem.empty with matrix := ⟨[[.one]], [[0]], 1⟩ } = .ok bytes ∧
      ∀ n ∈ [2, 6, 199], ∃ e, TooShort n e ∧ decode Problem (bytes.take n) = .error e ∧
        decodeView Problem (bytes.take n) 24 = .error e) ∧
    ∃ bytes, encode (Solution.largest 2 1) = .ok bytes ∧
      ∃ e, TooShort 35 e ∧ decode Solution (bytes.take 35) = .error e := by
  obtain ⟨hproblem, hsolution⟩ := truncation_refused
  obtain ⟨bytes, hencode, hlength, hcut⟩ := hproblem
    { Problem.empty with matrix := ⟨[[.one]], [[0]], 1⟩ } (by decide)
  obtain ⟨others, hencodes, hlengths, hcuts⟩ := hsolution (Solution.largest 2 1) (by decide)
  have hbytes : 200 = bytes.length := Except.ok.inj hlength
  have hothers : 72 = others.length := Except.ok.inj hlengths
  refine ⟨⟨bytes, hencode, fun n hn => ?_⟩, others, hencodes, ?_⟩
  · have hlt : n < bytes.length := by
      have hall : ∀ n ∈ [2, 6, 199], n < 200 := by decide
      exact hbytes ▸ hall n hn
    obtain ⟨e, he, hcopied, hplace⟩ := hcut n hlt
    exact ⟨e, he, hcopied, hplace 24 rfl⟩
  · obtain ⟨e, he, hcopied, -⟩ := hcuts 35 (by omega)
    exact ⟨e, he, hcopied⟩

end IsolatedSolving.Wire
