import IsolatedSolving.Channel.Desk
import IsolatedSolving.Proofs.Channel.Claiming

/-! Who owns which name.

Any number of parties use one store, in any order: callers write problems, one after the other, workers
open what they find, segments are created by themselves, and all are given up at some time. At any time
the names in use are those that were there before, and besides them each name that a handle owns, once
(`Desk.Sound`). Every move preserves this (`Sound.move`), so it holds after all of them
(`Sound.moveAll`). No move changes a block that is there already, whatever becomes of its name
(`prefix_moveAll`). -/
namespace IsolatedSolving

open Segment (Mapping Store key)
open Wire (Checksum Writable)

/-! ### Entries under keys -/

section Entries
variable {α : Type} {entries : List (String × α)} {key : String} {a : α}

theorem mem_of_lookup (h : entries.lookup key = some a) : (key, a) ∈ entries := by
  obtain ⟨front, back, rfl, -⟩ := List.lookup_eq_some_iff.mp h
  exact List.mem_append_right front List.mem_cons_self

theorem lookup_of_mem (hdistinct : (entries.map Prod.fst).Nodup) (h : (key, a) ∈ entries) :
    entries.lookup key = some a := by
  obtain ⟨front, back, rfl⟩ := List.append_of_mem h
  refine List.lookup_eq_some_iff.mpr ⟨front, back, rfl, ?_⟩
  intro entry hentry
  rw [List.map_append, List.map_cons, List.nodup_append] at hdistinct
  obtain ⟨-, -, hapart⟩ := hdistinct
  exact bne_iff_ne.mpr (hapart entry.1 (List.mem_map_of_mem hentry) key List.mem_cons_self).symm

/-- What is under other keys stays when the entries under one key are taken away. -/
theorem lookup_filter {other : String} (hother : other ≠ key) :
    (entries.filter fun (k, _) => k != key).lookup other = entries.lookup other := by
  induction entries with
  | nil => rfl
  | cons entry rest ih =>
    obtain ⟨k, b⟩ := entry
    by_cases hk : k = key
    · have hne : (other == k) = false := beq_eq_false_iff_ne.mpr (hk ▸ hother)
      rw [List.filter_cons, if_neg (by simp [hk]), ih, List.lookup_cons, hne]
    · rw [List.filter_cons, if_pos (bne_iff_ne.mpr hk), List.lookup_cons, List.lookup_cons, ih]

/-- An entry is the only one under its key. -/
theorem perm_cons_filter (hdistinct : (entries.map Prod.fst).Nodup) (h : (key, a) ∈ entries) :
    entries.Perm ((key, a) :: entries.filter fun (other, _) => other != key) := by
  obtain ⟨front, back, rfl⟩ := List.append_of_mem h
  have hmoved : (front ++ (key, a) :: back).Perm ((key, a) :: (front ++ back)) := List.perm_middle
  have hkeys := (hmoved.map Prod.fst).nodup_iff.mp hdistinct
  rw [List.map_cons, List.nodup_cons] at hkeys
  have hothers : ∀ entry ∈ front ++ back, (entry.1 != key) = true := by
    intro entry hentry
    have hmem := List.mem_map_of_mem (f := Prod.fst) hentry
    refine bne_iff_ne.mpr fun hkey => hkeys.1 ?_
    rw [hkey] at hmem
    exact hmem
  have hkept : (front ++ back).filter (fun (other, _) => other != key) = front ++ back :=
    List.filter_eq_self.mpr hothers
  rw [List.filter_append] at hkept
  have hrest : (front ++ (key, a) :: back).filter (fun (other, _) => other != key) =
      front ++ back := by
    simp only [List.filter_append, List.filter_cons, bne_self_eq_false, Bool.false_eq_true, if_false,
      hkept]
  rw [hrest]
  exact hmoved

end Entries

namespace Channel

theorem Child.openNamed_ok {store : Store} {name : String} {c : Child}
    (h : Child.openNamed store name = .ok c) : store.openNamed name = .ok c.segment := by
  rw [Child.openNamed] at h
  cases hopen : store.openNamed name with
  | error e =>
    rw [hopen] at h
    cases h
  | ok m =>
    rw [hopen] at h
    cases h
    rfl

/-! ### Handles -/

namespace Handle

/-- The segment whose name is given back with the handle. -/
def owned? : Handle → Option Mapping
  | segment m => if m.owner then some m else none
  | parent p => p.segment
  | child _ => none

/-- The entry of this segment among the names, as the system keeps them. -/
def entry? (h : Handle) : Option (String × Nat) := h.owned?.map fun m => (key m.name, m.block)

/-- The handle has blocks that are there. Parents own theirs, and the result lies within. -/
def Sound (store : Store) : Handle → Prop
  | segment m => m.block < store.blocks.length
  | parent p => ∀ m, p.segment = some m →
      m.owner = true ∧ m.block < store.blocks.length ∧ p.resultOffset ≤ (store.bytes m).length
  | child c => c.segment.owner = false ∧ c.segment.block < store.blocks.length

/-- A caller's side without a segment is sound at any store. -/
theorem sound_parent {p : Parent} (hnone : p.segment = none) (store : Store) :
    (Handle.parent p).Sound store := by
  intro m hm
  cases hnone.symm.trans hm

/-- What is given up with a handle is the name that it owns. -/
theorem release_eq {h : Handle} {store : Store} (hsound : h.Sound store) :
    h.release store = match h.owned? with
      | some m => store.unlink (key m.name)
      | none => store := by
  cases h with
  | segment m =>
    rw [release, owned?, Store.release_eq]
    split <;> rfl
  | parent p =>
    obtain ⟨base, trials, segment, resultOffset⟩ := p
    cases segment with
    | none => rfl
    | some m =>
      obtain ⟨howner, -⟩ := hsound m rfl
      show store.release m = store.unlink (key m.name)
      rw [Store.release_eq, if_pos howner]
  | child c =>
    obtain ⟨howner, -⟩ := hsound
    show store.release c.segment = store
    rw [Store.release_eq, howner]
    rfl

/-- A handle stays sound as long as no block changes or goes away. -/
theorem Sound.mono {h : Handle} {store later : Store} (hsound : h.Sound store)
    (hblocks : store.blocks <+: later.blocks) : h.Sound later := by
  have hlength := hblocks.length_le
  cases h with
  | segment m => exact Nat.lt_of_lt_of_le hsound hlength
  | parent p =>
    intro m hm
    obtain ⟨howner, hblock, hoffset⟩ := hsound m hm
    rw [← Store.bytes_of_prefix hblocks hblock] at hoffset
    exact ⟨howner, Nat.lt_of_lt_of_le hblock hlength, hoffset⟩
  | child c => exact ⟨hsound.1, Nat.lt_of_lt_of_le hsound.2 hlength⟩

/-- Nothing but names is given up with a handle. -/
theorem blocks_release (h : Handle) (store : Store) : (h.release store).blocks = store.blocks := by
  cases h with
  | segment m => exact Store.blocks_release store m
  | parent p => exact p.blocks_release store
  | child c => exact Store.blocks_release store c.segment

end Handle

/-! ### Desks -/

namespace Desk

/-- The names that the handles own, with the numbers of their blocks. -/
def owned (d : Desk) : List (String × Nat) := d.handles.filterMap fun (_, h) => h.entry?

/-- The names in use are these, and besides them those that handles own, all different. Labels are
different too, and names and handles have blocks that are there. -/
structure Sound (foreign : List (String × Nat)) (d : Desk) : Prop where
  names : d.store.names.Perm (foreign ++ d.owned)
  distinct : (d.store.names.map Prod.fst).Nodup
  placed : ∀ entry ∈ d.store.names, entry.2 < d.store.blocks.length
  labels : (d.handles.map Prod.fst).Nodup
  handles : ∀ entry ∈ d.handles, entry.2.Sound d.store

theorem owned_cons (label : String) (h : Handle) (rest : List (String × Handle)) (store : Store) :
    owned ⟨(label, h) :: rest, store⟩ = h.entry?.toList ++ owned ⟨rest, store⟩ := by
  simp only [owned, List.filterMap_cons]
  cases h.entry? <;> rfl

theorem blocks_release (d : Desk) (label : String) :
    (d.release label).store.blocks = d.store.blocks := by
  rw [release]
  dsimp only
  split
  · exact Handle.blocks_release _ _
  · rfl

theorem prefix_release (d : Desk) (label : String) :
    d.store.blocks <+: (d.release label).store.blocks :=
  ⟨[], by rw [List.append_nil, blocks_release]⟩

/-- Without a handle nothing is given up. -/
theorem release_none {d : Desk} {label : String} (hfind : d.find? label = none) :
    d.release label = d := by
  have hkept : d.handles.filter (fun (other, _) => other != label) = d.handles :=
    List.filter_eq_self.mpr fun entry hentry =>
      bne_comm.trans (List.lookup_eq_none_iff.mp hfind entry hentry)
  rw [release, hfind, hkept]

theorem store_release_parent {d : Desk} {label : String} {p : Parent}
    (hfind : d.find? label = some (.parent p)) :
    (d.release label).store = (p.release d.store).2 := by
  rw [release, hfind]
  rfl

theorem not_mem_labels_release (d : Desk) (label : String) :
    label ∉ (d.release label).handles.map Prod.fst := by
  intro hlabel
  obtain ⟨entry, hentry, hsame⟩ := List.mem_map.mp hlabel
  exact absurd hsame (bne_iff_ne.mp (List.mem_filter.mp hentry).2)

namespace Sound
variable {foreign : List (String × Nat)} {d : Desk} {label : String}

/-- The handle with a label, and all the others. -/
theorem owned_release (hd : d.Sound foreign) {h : Handle} (hfind : d.find? label = some h) :
    d.owned.Perm (h.entry?.toList ++ (d.release label).owned) := by
  rw [← owned_cons label]
  exact (perm_cons_filter hd.labels (mem_of_lookup hfind)).filterMap fun (_, h) => h.entry?

/-- The store once a handle is given up. -/
theorem store_release (hd : d.Sound foreign) {h : Handle} (hfind : d.find? label = some h) :
    (d.release label).store = match h.owned? with
      | some m => d.store.unlink (key m.name)
      | none => d.store := by
  rw [Desk.release, hfind]
  exact Handle.release_eq (hd.handles _ (mem_of_lookup hfind))

/-- The names once a handle is given up: its own is gone. -/
theorem names_release (hd : d.Sound foreign) (label : String) :
    (d.release label).store.names.Perm (foreign ++ (d.release label).owned) := by
  cases hfind : d.find? label with
  | none =>
    rw [release_none hfind]
    exact hd.names
  | some h =>
    have howned := hd.owned_release hfind
    have hstore := hd.store_release hfind
    have hnames := hd.names.trans (howned.append_left foreign)
    cases hh : h.owned? with
    | none =>
      rw [hh] at hstore
      rw [Handle.entry?, hh] at hnames
      rw [hstore]
      exact hnames
    | some m =>
      rw [hh] at hstore
      rw [Handle.entry?, hh] at hnames
      -- The name is in front of the others now, and taking it away leaves just them.
      have hfront : d.store.names.Perm ((key m.name, m.block) :: (foreign ++ (d.release label).owned)) :=
        hnames.trans List.perm_middle
      have hmem := hfront.mem_iff.mpr List.mem_cons_self
      rw [hstore]
      exact ((perm_cons_filter hd.distinct hmem).symm.trans hfront).cons_inv

/-- **Giving up a handle** takes its own name away and keeps the rest in order. -/
theorem release (hd : d.Sound foreign) (label : String) : (d.release label).Sound foreign := by
  have hsub : (d.release label).store.names.Sublist d.store.names := by
    cases hfind : d.find? label with
    | none => exact (release_none hfind).symm ▸ List.Sublist.refl d.store.names
    | some h =>
      rw [hd.store_release hfind]
      split
      · exact List.filter_sublist
      · exact List.Sublist.refl _
  constructor
  case names => exact hd.names_release label
  case distinct => exact (hsub.map Prod.fst).nodup hd.distinct
  case placed =>
    intro entry hentry
    rw [Desk.blocks_release]
    exact hd.placed entry (hsub.subset hentry)
  case labels => exact (List.filter_sublist.map Prod.fst).nodup hd.labels
  case handles =>
    intro entry hentry
    exact (hd.handles entry (List.mem_filter.mp hentry).1).mono (d.prefix_release label)

/-- A new name is a foreign one until a handle owns it. -/
theorem add (hd : d.Sound foreign) {name : String} (hfree : d.store.holds name = false)
    (bytes : List UInt8) :
    Desk.Sound ((key name, d.store.blocks.length) :: foreign) { d with store := d.store.add name bytes } := by
  have hlength : (d.store.add name bytes).blocks.length = d.store.blocks.length + 1 :=
    List.length_append
  constructor
  case names => exact (List.perm_append_singleton _ _).trans (hd.names.cons _)
  case distinct =>
    have hnames := (List.perm_append_singleton (key name, d.store.blocks.length) d.store.names).map Prod.fst
    exact hnames.nodup_iff.mpr (List.nodup_cons.mpr ⟨Store.not_holds_iff.mp hfree, hd.distinct⟩)
  case placed =>
    intro entry hentry
    rw [hlength]
    rcases List.mem_append.mp hentry with hold | hnew
    · exact Nat.lt_succ_of_lt (hd.placed entry hold)
    · rw [List.mem_singleton.mp hnew]
      exact Nat.lt_succ_self _
  case labels => exact hd.labels
  case handles => exact fun entry hentry => (hd.handles entry hentry).mono (Store.prefix_add _ _ _)

/-- A handle takes over what it owns, under a label that is free. -/
theorem adopt {h : Handle} (hd : d.Sound (h.entry?.toList ++ foreign)) (hsound : h.Sound d.store)
    (hlabel : label ∉ d.handles.map Prod.fst) :
    Desk.Sound foreign { d with handles := (label, h) :: d.handles } := by
  constructor
  case names =>
    rw [owned_cons]
    refine hd.names.trans ?_
    rw [List.append_assoc]
    exact List.perm_append_comm_assoc _ _ _
  case distinct => exact hd.distinct
  case placed => exact hd.placed
  case labels => exact List.nodup_cons.mpr ⟨hlabel, hd.labels⟩
  case handles => exact List.forall_mem_cons.mpr ⟨hsound, hd.handles⟩

/-- The order of the handles does not matter. -/
theorem reorder (hd : d.Sound foreign) {handles : List (String × Handle)}
    (h : handles.Perm d.handles) : Desk.Sound foreign { d with handles } where
  names := hd.names.trans ((h.symm.filterMap _).append_left foreign)
  distinct := hd.distinct
  placed := hd.placed
  labels := (h.map Prod.fst).nodup_iff.mpr hd.labels
  handles entry hentry := hd.handles entry (h.mem_iff.mp hentry)

/-- A handle takes the place of another one, which is given up. -/
theorem put {h : Handle} (hd : d.Sound (h.entry?.toList ++ foreign)) (hsound : h.Sound d.store)
    (label : String) : (d.put label h).Sound foreign :=
  (hd.release label).adopt (hsound.mono (d.prefix_release label)) (d.not_mem_labels_release label)

end Sound

/-! ### Moves -/

/-- What can be done at a desk: create a segment, open one, make a caller's side that owns nothing yet,
open a worker's side, write a problem with a caller's side, and give something up. -/
inductive Move where
  | create (label name : String) (size : Nat)
  | openNamed (label name : String)
  | parent (label base : String) (trials : Nat)
  | child (label name : String)
  | write (label : String) (problem : Problem)
  | release (label : String)

section Moves
variable [Checksum]

/-- The desk after a move. What fails changes nothing, except that a caller's side has given up the
segment it had when there is no free name. -/
def move (d : Desk) : Move → Desk
  | .create label name size =>
    match d.store.create name size with
    | (.ok m, store) => { d with store }.put label (.segment m)
    | (.error _, store) => { d with store }
  | .openNamed label name =>
    match d.store.openNamed name with
    | .ok m => d.put label (.segment m)
    | .error _ => d
  | .parent label base trials => d.put label (.parent (.ofBase base trials))
  | .child label name =>
    match Child.openNamed d.store name with
    | .ok c => d.put label (.child c)
    | .error _ => d
  | .write label problem =>
    match d.find? label with
    | some (.parent p) => (d.writeProblem label p problem).2
    | _ => d
  | .release label => d.release label

/-- The desk after moves. -/
def moveAll (d : Desk) (moves : List Move) : Desk := moves.foldl move d

variable {foreign : List (String × Nat)} {d : Desk} {label : String}

/-- What a write leaves at the desk. -/
theorem Sound.writeProblem (hd : d.Sound foreign) {p : Parent} (hfind : d.find? label = some (.parent p))
    (problem : Problem) : (d.writeProblem label p problem).2.Sound foreign := by
  have hstore := store_release_parent hfind
  have hlabel := d.not_mem_labels_release label
  have hreleased := hd.release label
  have hwritten := p.writeProblem_written d.store problem
  rw [Desk.writeProblem]
  generalize p.writeProblem d.store problem = result at hwritten ⊢
  cases hwritten with
  -- Nothing is given up, but the caller's side comes to the front of the handles.
  | unmeasured => exact hd.reorder (perm_cons_filter hd.labels (mem_of_lookup hfind)).symm
  | unnamed text =>
    show Desk.Sound foreign ⟨(label, _) :: (d.release label).handles, (p.release d.store).2⟩
    rw [← hstore]
    exact adopt (h := .parent { p with segment := none }) hreleased (Handle.sound_parent rfl _) hlabel
  | @named number length bytes hnumber hlength =>
    have hfree := hnumber.free
    show Desk.Sound foreign ⟨(label, _) :: (d.release label).handles,
      (p.release d.store).2.add (Parent.numbered p.base number) bytes⟩
    rw [← hstore] at hfree ⊢
    have hblock : d.store.blocks.length = (d.release label).store.blocks.length := by
      rw [Desk.blocks_release]
    have hadded := hreleased.add hfree bytes
    rw [← hblock] at hadded
    refine adopt (h := .parent { p with
      segment := some ⟨Parent.numbered p.base number, d.store.blocks.length, true⟩
      resultOffset := length }) hadded ?_ hlabel
    rintro m ⟨⟩
    refine ⟨rfl, ?_, ?_⟩
    · rw [hblock, Store.add, List.length_append]
      exact Nat.lt_succ_self _
    · rw [Store.bytes_add hblock]
      exact hlength

/-- **Every move keeps the names in order.** -/
theorem Sound.move (hd : d.Sound foreign) (m : Move) : (d.move m).Sound foreign := by
  cases m with
  | create label name size =>
    rw [Desk.move]
    split
    · next m store hmade =>
      obtain ⟨-, hfree, rfl, rfl⟩ := Store.create_ok hmade
      refine (hd.add hfree _).put (h := .segment ⟨name, d.store.blocks.length, true⟩) ?_ label
      show d.store.blocks.length < (d.store.add name _).blocks.length
      rw [Store.add, List.length_append]
      exact Nat.lt_succ_self _
    · next hfailed =>
      rw [Store.create_error hfailed]
      exact hd
  | openNamed label name =>
    rw [Desk.move]
    split
    · next m hopened =>
      obtain ⟨hlookup, howner⟩ := Store.openNamed_ok hopened
      refine put (h := .segment m) ?_ (hd.placed _ (mem_of_lookup hlookup)) label
      rw [Handle.entry?, Handle.owned?, howner]
      exact hd
    · exact hd
  | parent label base trials =>
    exact hd.put (h := .parent (.ofBase base trials)) (Handle.sound_parent rfl _) label
  | child label name =>
    rw [Desk.move]
    split
    · next c hopened =>
      obtain ⟨hlookup, howner⟩ := Store.openNamed_ok (Child.openNamed_ok hopened)
      exact put (h := .child c) hd ⟨howner, hd.placed _ (mem_of_lookup hlookup)⟩ label
    · exact hd
  | write label problem =>
    rw [Desk.move]
    split
    · next p hfind => exact hd.writeProblem hfind problem
    · exact hd
  | release label => exact hd.release label

/-- So do all of them. -/
theorem Sound.moveAll (hd : d.Sound foreign) (moves : List Move) : (d.moveAll moves).Sound foreign := by
  induction moves generalizing d with
  | nil => exact hd
  | cons m rest ih => exact ih (hd.move m)

/-- No move changes a block that is there. -/
theorem prefix_move (d : Desk) (m : Move) : d.store.blocks <+: (d.move m).store.blocks := by
  have hput (d : Desk) (label : String) (h : Handle) :
      d.store.blocks <+: (d.put label h).store.blocks := d.prefix_release label
  cases m with
  | create label name size =>
    rw [move]
    split
    · next m store hmade =>
      obtain ⟨-, -, -, rfl⟩ := Store.create_ok hmade
      exact (d.store.prefix_add name _).trans (hput { d with store := d.store.add name _ } label _)
    · next hfailed =>
      obtain rfl := Store.create_error hfailed
      exact List.prefix_rfl
  | openNamed label name | child label name =>
    rw [move]
    split
    · exact hput _ _ _
    · exact List.prefix_rfl
  | parent label base trials => exact hput _ _ _
  | write label problem =>
    rw [move]
    split
    · next p hfind =>
      have hwritten := p.writeProblem_written d.store problem
      rw [writeProblem]
      generalize p.writeProblem d.store problem = result at hwritten ⊢
      have hreleased := p.prefix_release d.store
      cases hwritten with
      | unmeasured => exact List.prefix_rfl
      | unnamed => exact hreleased
      | named => exact hreleased.trans (Store.prefix_add _ _ _)
    · exact List.prefix_rfl
  | release label => exact d.prefix_release label

theorem prefix_moveAll (d : Desk) (moves : List Move) :
    d.store.blocks <+: (d.moveAll moves).store.blocks := by
  induction moves generalizing d with
  | nil => exact List.prefix_rfl
  | cons m rest ih => exact (d.prefix_move m).trans (ih (d.move m))

end Moves

end Desk

end Channel

end IsolatedSolving
