import IsolatedSolving.Segment.Store

/-! Creating a segment, call by call.

The system takes three calls to create a segment: one for the name, one for the size of the block and
one that maps it. Each may fail, and the name is taken away again if a later one does. So a creation
that fails leaves the names as they were, whatever the system answers (`createBy_error`); and a creation
is these calls, with the answers of its store, when blocks without a name are not counted
(`create_eq_createBy`). -/
namespace IsolatedSolving.Segment.Store

/-! ### Names and blocks -/

theorem holds_iff {s : Store} {name : String} :
    s.holds name = true ↔ key name ∈ s.names.map Prod.fst := by
  rw [holds, find?, List.lookup_isSome_iff]
  constructor
  · rintro ⟨entry, hentry, hname⟩
    exact List.mem_map.mpr ⟨entry, hentry, (eq_of_beq hname).symm⟩
  · intro h
    obtain ⟨entry, hentry, hname⟩ := List.mem_map.mp h
    exact ⟨entry, hentry, beq_iff_eq.mpr hname.symm⟩

/-- The store without a name, as the system keeps it. -/
def unlink (s : Store) (kept : String) : Store :=
  { s with names := s.names.filter fun (other, _) => other != kept }

theorem release_eq (s : Store) (m : Mapping) :
    s.release m = if m.owner then s.unlink (key m.name) else s := rfl

theorem not_holds_iff {s : Store} {name : String} :
    s.holds name = false ↔ key name ∉ s.names.map Prod.fst := by
  rw [← Bool.not_eq_true, holds_iff]

/-- A name that has come to others is taken away without a trace. -/
theorem names_unlink {s : Store} {before : List (String × Nat)} {kept : String} {block : Nat}
    (hfree : kept ∉ before.map Prod.fst) (hnames : s.names = before ++ [(kept, block)]) :
    (s.unlink kept).names = before := by
  have hothers : ∀ entry ∈ before, (entry.1 != kept) = true := by
    intro entry hentry
    refine bne_iff_ne.mpr fun hname => hfree ?_
    rw [← hname]
    exact List.mem_map_of_mem hentry
  simp only [unlink, hnames, List.filter_append, List.filter_eq_self.mpr hothers, List.filter_cons,
    bne_self_eq_false, Bool.false_eq_true, if_false, List.filter_nil, List.append_nil]

theorem blocks_release (s : Store) (m : Mapping) : (s.release m).blocks = s.blocks := by
  rw [release_eq]
  split <;> rfl

/-- The bytes of a block do not change when there are more blocks. -/
theorem bytes_of_prefix {s s' : Store} {m : Mapping} (h : s.blocks <+: s'.blocks)
    (hm : m.block < s.blocks.length) : s'.bytes m = s.bytes m := by
  obtain ⟨more, hmore⟩ := h
  simp only [Store.bytes, ← hmore, List.getD_eq_getElem?_getD, List.getElem?_append_left hm]

theorem bytes_add {s : Store} {m : Mapping} (h : m.block = s.blocks.length) (name : String)
    (bytes : List UInt8) : (s.add name bytes).bytes m = bytes := by
  simp only [Store.bytes, add, h, List.getD_eq_getElem?_getD, List.getElem?_concat_length,
    Option.getD_some]

theorem prefix_add (s : Store) (name : String) (bytes : List UInt8) :
    s.blocks <+: (s.add name bytes).blocks := List.prefix_append _ _

/-- A new block is there with its last bytes only. -/
theorem write_add {s : Store} {m : Mapping} (h : m.block = s.blocks.length) (name : String)
    (first last : List UInt8) : (s.add name first).write m last = s.add name last := by
  simp only [add, write, h, List.set_append_right _ _ (Nat.le_refl _), Nat.sub_self, List.set_cons_zero]

/-- What is mapped is the block under the name, for somebody who does not own it. -/
theorem openNamed_ok {s : Store} {name : String} {m : Mapping} (h : s.openNamed name = .ok m) :
    s.names.lookup (key name) = some m.block ∧ m.owner = false := by
  unfold openNamed at h
  split at h
  · cases h
  split at h
  · cases h
  next hfind =>
  split at h
  · cases h
  · cases h
    exact ⟨hfind, rfl⟩

/-! ### Creation -/

/-- What the system answers when a block of a name is given a size, and when it is mapped. -/
structure Answers where
  resize : String → Nat → Except SegmentError Unit
  map : String → Nat → Except SegmentError Unit

/-- Creates a segment with a system that answers like this. -/
def createBy (a : Answers) (s : Store) (name : String) (size : Nat) :
    Except SegmentError Mapping × Store :=
  if size = 0 then (.error (.empty name), s)
  else if !s.takes name then (.error (refused "create" name SystemError.invalidArgument), s)
  else if s.holds name then (.error (.alreadyExists name), s)
  else
    let m : Mapping := ⟨name, s.blocks.length, true⟩
    let linked := s.add name []
    match a.resize name size with
    | .error e => (.error e, linked.unlink (key name))
    | .ok () =>
      let resized := linked.write m (List.replicate size 0)
      match a.map name size with
      | .error e => (.error e, resized.unlink (key name))
      | .ok () => (.ok m, resized)

/-- The answers of this store: a size has to be a signed number, and a mapping to stay below the
limit. -/
def answers (s : Store) : Answers where
  resize name size :=
    if 1 <<< 63 ≤ size then
      .error (.system "resize" name (.other "out of range integral type conversion attempted"))
    else .ok ()
  map name size :=
    if s.limit ≤ size then .error (refused "mmap" name SystemError.cannotAllocate) else .ok ()

/-- **A creation that fails leaves no trace in the names,** and no block changes. -/
theorem createBy_error {a : Answers} {s s' : Store} {name : String} {size : Nat} {e : SegmentError}
    (h : s.createBy a name size = (.error e, s')) :
    s'.names = s.names ∧ s.blocks <+: s'.blocks := by
  unfold createBy at h
  split at h
  · cases h
    exact ⟨rfl, List.prefix_rfl⟩
  split at h
  · cases h
    exact ⟨rfl, List.prefix_rfl⟩
  split at h
  · cases h
    exact ⟨rfl, List.prefix_rfl⟩
  next hfree =>
  have hfree := not_holds_iff.mp (Bool.not_eq_true _ ▸ hfree)
  dsimp only at h
  split at h
  · cases h
    exact ⟨names_unlink hfree rfl, prefix_add s name []⟩
  · rw [write_add rfl] at h
    split at h
    · cases h
      exact ⟨names_unlink hfree rfl, prefix_add s name _⟩
    · cases h

/-- A creation is the calls of which it consists. -/
theorem create_eq_createBy (s : Store) (name : String) (size : Nat) :
    s.create name size = match s.createBy s.answers name size with
      | (.ok m, s') => (.ok m, s')
      | (.error e, _) => (.error e, s) := by
  unfold create createBy
  split
  · rfl
  split
  · rfl
  split
  · rfl
  simp only [answers]
  by_cases hsize : 1 <<< 63 ≤ size
  · simp only [if_pos hsize]
  · simp only [if_neg hsize]
    by_cases hlimit : s.limit ≤ size
    · simp only [if_pos hlimit]
    · simp only [if_neg hlimit, write_add]

end IsolatedSolving.Segment.Store
