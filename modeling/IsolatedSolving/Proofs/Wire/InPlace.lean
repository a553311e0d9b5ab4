import IsolatedSolving.Proofs.Wire.Sizes

/-! Values used in place and values copied out.

Two readers go over the same bytes, one that uses arrays in place and one that copies them. They go
step by step to the same positions, with the same values or the same failure, but for one thing: the
first may refuse an array for its address, and only if the bytes do not lie at an aligned one
(`Mirrors`). A layout with an array of eight-byte elements is refused at every such address, whether
there are elements in the array or not, which makes the difference exact: `decodeView_agrees`. -/
namespace IsolatedSolving.Wire

variable {β γ β' γ' : Type}

/-! ### Steps -/

/-- How a step in place may go, at `address`, if the step that copies goes as given, at `home`. -/
inductive Follows (get : β → γ) (bytes : List UInt8) (address home : Nat) :
    EStateM.Result CodecError Reader β → EStateM.Result CodecError Reader γ → Prop
  | ok (b : β) {position : Nat} (h : position % itemAlignment = 0) :
    Follows get bytes address home (.ok b ⟨bytes, address, position⟩)
      (.ok (get b) ⟨bytes, home, position⟩)
  | error (e : CodecError) (position : Nat) :
    Follows get bytes address home (.error e ⟨bytes, address, position⟩)
      (.error e ⟨bytes, home, position⟩)
  | misaligned (e : Element) (r : Reader) {copied : EStateM.Result CodecError Reader γ}
      (h : address % itemAlignment ≠ 0) :
    Follows get bytes address home (.error (.misaligned e) r) copied

/-- From any item on, the step in place follows the step that copies. `get` takes a value out of what
is used in place. -/
def Mirrors (get : β → γ) (view : Reading β) (owned : Reading γ) : Prop :=
  ∀ (bytes : List UInt8) (address home position : Nat), position % itemAlignment = 0 →
    Follows get bytes address home (view.run ⟨bytes, address, position⟩)
      (owned.run ⟨bytes, home, position⟩)

namespace Mirrors

theorem pure (get : β → γ) (b : β) : Mirrors get (pure b) (pure (get b)) :=
  fun _ _ _ _ hp => .ok b hp

theorem throw (get : β → γ) (e : CodecError) : Mirrors get (throw e) (throw e) :=
  fun _ _ _ position _ => .error e position

theorem bind {get : β → γ} {get' : β' → γ'} {view : Reading β} {owned : Reading γ}
    {next : β → Reading β'} {next' : γ → Reading γ'} (h : Mirrors get view owned)
    (hnext : ∀ b, Mirrors get' (next b) (next' (get b))) :
    Mirrors get' (view >>= next) (owned >>= next') := by
  intro bytes address home position hp
  have hfirst := h bytes address home position hp
  rw [EStateM.run_bind, EStateM.run_bind]
  generalize view.run ⟨bytes, address, position⟩ = seen at hfirst
  generalize owned.run ⟨bytes, home, position⟩ = copied at hfirst
  cases hfirst with
  | ok b hp => exact hnext b bytes address home _ hp
  | error e position => exact .error e position
  | misaligned e r ha => exact .misaligned e r ha

/-- A step in place that succeeds has moved to another item of the same bytes. -/
theorem moved {get : β → γ} {view : Reading β} {owned : Reading γ} (h : Mirrors get view owned)
    {bytes : List UInt8} {address position : Nat} (hp : position % itemAlignment = 0) {b : β}
    {r : Reader} (hrun : view.run ⟨bytes, address, position⟩ = .ok b r) :
    ∃ next, next % itemAlignment = 0 ∧ r = ⟨bytes, address, next⟩ := by
  have hfollows := h bytes address address position hp
  rw [hrun] at hfollows
  generalize owned.run ⟨bytes, address, position⟩ = copied at hfollows
  cases hfollows with
  | ok b hnext => exact ⟨_, hnext, rfl⟩

/-! ### Items -/

theorem take (length : Nat) : Mirrors id (Reader.take length) (Reader.take length) := by
  intro bytes address home position hp
  simp only [Reader.take, EStateM.run_bind, EStateM.run_get]
  split
  · have hstop : (position + paddedLength length) % itemAlignment = 0 := by
      have := paddedLength_mod length
      unfold itemAlignment at *
      omega
    exact .ok _ hstop
  · exact .error _ position

theorem scalar (e : Element) : Mirrors id (Reader.scalar e) (Reader.scalar e) := by
  refine (take e.size).bind fun bytes => ?_
  dsimp only [id]
  cases e.decode bytes with
  | some v => exact pure id v
  | none => exact throw id _

theorem count : Mirrors id Reader.count Reader.count := by
  refine (scalar .int32).bind fun n => ?_
  dsimp only [id]
  split
  · exact throw id _
  · exact pure id _

/-- Addresses that do not suit an element are no multiples of the item alignment. -/
theorem unsuitable {e : Element} {address position : Nat} (hp : position % itemAlignment = 0)
    (h : (address + position) % e.alignment ≠ 0) : address % itemAlignment ≠ 0 := by
  intro ha
  have hboth : (address + position) % itemAlignment = 0 := by
    unfold itemAlignment at *
    omega
  exact h (Nat.mod_eq_zero_of_dvd (Nat.dvd_trans (Nat.dvd_of_mod_eq_zero e.size_mod_alignment)
    (Nat.dvd_of_mod_eq_zero hboth)))

/-- The address of an array is looked at behind its count, and its elements only after that. -/
theorem array (e : Element) : Mirrors ArrayView.toList (Reader.arrayView e) (Reader.array e) := by
  rw [Reader.array, Reader.elements, bind_assoc]
  refine count.bind fun n bytes address home position hp => ?_
  have htake := take (n * e.size) bytes address home position hp
  dsimp only [id]
  simp only [EStateM.run_bind, EStateM.run_get]
  generalize (Reader.take (n * e.size)).run ⟨bytes, address, position⟩ = seen at htake
  generalize (Reader.take (n * e.size)).run ⟨bytes, home, position⟩ = copied at htake
  cases htake with
  | error e position => exact .error e position
  | misaligned e r ha => exact .misaligned e r ha
  | ok data hnext =>
    by_cases haligned : (address + position) % e.alignment = 0
    · simp only [haligned, ne_eq, not_true_eq_false, if_false, id]
      by_cases hvalid : (e.decodeAll data).isSome = true
      · have hvalues : e.decodeAll data = some (ArrayView.toList ⟨data, hvalid⟩) :=
          (Option.some_get hvalid).symm
        rw [dif_pos hvalid, hvalues]
        exact .ok (ArrayView.mk data hvalid) hnext
      · rw [dif_neg hvalid, Option.not_isSome_iff_eq_none.mp hvalid]
        exact .error _ _
    · simp only [haligned, ne_eq, not_false_eq_true, if_true]
      exact .misaligned e _ (unsuitable hp haligned)

theorem times {get : β → γ} {view : Reading β} {owned : Reading γ} (h : Mirrors get view owned)
    (n : Nat) : Mirrors (List.map get) (Reader.times view n) (Reader.times owned n) := by
  induction n with
  | zero => exact pure (List.map get) []
  | succ n ih => exact h.bind fun b => ih.bind fun bs => pure (List.map get) (b :: bs)

theorem item (s : Shape) : Mirrors s.ofView (Reader.itemView s) (Reader.item s) := by
  cases s with
  | scalar e => exact scalar e
  | array e => exact array e
  | nested e => exact count.bind fun rows => (array e).times rows

theorem record (l : Layout) : Mirrors l.ofView (Reader.recordView l) (Reader.record l) := by
  induction l with
  | nil => exact pure (Layout.ofView []) ()
  | cons s l ih => exact (item s).bind fun v => ih.bind fun r => pure (Layout.ofView (s :: l)) (v, r)

end Mirrors

/-! ### Values -/

section Values
variable {α : Type} [Transportable α]

/-- At any address both readers agree, or the one in place refuses the address. -/
theorem decodeView_cases (bytes : List UInt8) (address : Nat) :
    (decodeView α bytes address).map (fun (v, n) => (v.get, n)) = decodeCounted α bytes ∨
      (address % itemAlignment ≠ 0 ∧ ∃ e, decodeView α bytes address = .error (.misaligned e)) := by
  have hfollows := Mirrors.record (Transportable.layout α) bytes address 0 0 rfl
  simp only [decodeView, decodeCounted, decodeWith, Reader.start]
  generalize (Reader.recordView (Transportable.layout α)).run ⟨bytes, address, 0⟩ = seen at hfollows
  generalize (Reader.record (Transportable.layout α)).run ⟨bytes, 0, 0⟩ = copied at hfollows
  cases hfollows with
  | ok v _ => exact .inl rfl
  | error e position => exact .inl rfl
  | misaligned e r ha => exact .inr ⟨ha, e, rfl⟩

/-- An array of eight-byte elements is used in place at aligned addresses only. -/
theorem aligned_of_arrayView {e : Element} (he : e.alignment = itemAlignment) {bytes : List UInt8}
    {address position : Nat} (hp : position % itemAlignment = 0) {v : ArrayView e} {r : Reader}
    (hrun : (Reader.arrayView e).run ⟨bytes, address, position⟩ = .ok v r) :
    address % itemAlignment = 0 := by
  obtain ⟨n, _, hcount, hrun⟩ := run_bind_ok hrun
  obtain ⟨start, hstart, rfl⟩ := Mirrors.count.moved hp hcount
  obtain ⟨_, _, hget, hrun⟩ := run_bind_ok hrun
  cases hget
  obtain ⟨data, _, htake, hrun⟩ := run_bind_ok hrun
  obtain ⟨stop, -, rfl⟩ := (Mirrors.take _).moved hstart htake
  simp only [EStateM.run_bind, EStateM.run_get] at hrun
  split at hrun
  · cases hrun
  · next haligned =>
    rw [Decidable.not_not, he] at haligned
    unfold itemAlignment at *
    omega

/-- So is a record with such an array. -/
theorem aligned_of_recordView {e : Element} (he : e.alignment = itemAlignment) {l : Layout}
    (hl : Shape.array e ∈ l) {bytes : List UInt8} {address position : Nat}
    (hp : position % itemAlignment = 0) {v : l.View} {r : Reader}
    (hrun : (Reader.recordView l).run ⟨bytes, address, position⟩ = .ok v r) :
    address % itemAlignment = 0 := by
  induction l generalizing position r with
  | nil => cases hl
  | cons s l ih =>
    obtain ⟨first, _, hitem, hrun⟩ := run_bind_ok hrun
    rcases List.mem_cons.mp hl with rfl | hl
    · exact aligned_of_arrayView he hp hitem
    · obtain ⟨start, hstart, rfl⟩ := (Mirrors.item s).moved hp hitem
      obtain ⟨rest, _, hrest, -⟩ := run_bind_ok hrun
      exact ih hl hstart hrest

end Values

/-- **Both readers of a problem agree on all bytes.** At an aligned address, using the bytes in place
and copying them out give the same problem and the same end, or the same failure. At any other address
they cannot be used in place, and if they hold a problem, then it is the address that is refused. -/
theorem decodeView_agrees (bytes : List UInt8) (address : Nat) :
    (address % itemAlignment = 0 →
      (decodeView Problem bytes address).map (fun (v, n) => (v.get, n)) =
        decodeCounted Problem bytes) ∧
    (address % itemAlignment ≠ 0 →
      (∀ v n, decodeView Problem bytes address ≠ .ok (v, n)) ∧
      ∀ p, decode Problem bytes = .ok p →
        ∃ e, decodeView Problem bytes address = .error (.misaligned e)) := by
  refine ⟨fun h8 => ?_, fun h8 => ?_⟩
  · exact (decodeView_cases bytes address).resolve_right fun h => h.1 h8
  · have hnever : ∀ v n, decodeView Problem bytes address ≠ .ok (v, n) := by
      intro v n hok
      have hobjective : Shape.array .float64 ∈ Problem.layout := by decide
      obtain ⟨last, hrun, -⟩ := decodeWith_ok hok
      exact h8 (aligned_of_recordView rfl hobjective rfl hrun)
    refine ⟨hnever, fun p hp => ?_⟩
    rcases decodeView_cases (α := Problem) bytes address with hsame | ⟨-, hrefused⟩
    · rw [decode_eq_map, ← hsame] at hp
      cases hview : decodeView Problem bytes address with
      | error e => simp [hview, Except.map] at hp
      | ok result => exact absurd hview (hnever _ _)
    · exact hrefused

/-- A problem without rows and columns and a byte behind it, at an aligned address and at another. -/
theorem decodeView_agrees_empty :
    (decodeView Problem (image (pieces Problem.empty) ++ [7]) 24).map (fun (v, n) => (v.get, n)) =
      decodeCounted Problem (image (pieces Problem.empty) ++ [7]) ∧
    (∀ v n, decodeView Problem (image (pieces Problem.empty) ++ [7]) 12 ≠ .ok (v, n)) ∧
    ∃ e, decodeView Problem (image (pieces Problem.empty) ++ [7]) 12 = .error (.misaligned e) := by
  have haligned := (decodeView_agrees (image (pieces Problem.empty) ++ [7]) 24).1 rfl
  obtain ⟨hnever, hrefused⟩ :=
    (decodeView_agrees (image (pieces Problem.empty) ++ [7]) 12).2 (by decide)
  have hdecode := decode_image Problem.sized (show Writable Problem.empty by decide) [7]
  exact ⟨haligned, hnever, hrefused _ hdecode⟩

end IsolatedSolving.Wire
