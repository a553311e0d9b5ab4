import IsolatedSolving.Proofs.Channel.Ownership

/-! What the parties at a store can rely on.

As a name belongs to one handle at most, it is taken away by nobody else, a problem gets the least free
name of its row, and the worker that opens a name is led to the block of its owner and keeps it.
`Desk.Orderly` lists what this means for each of the parties, and `orderly_moveAll` says that it holds
whatever they do. -/
namespace IsolatedSolving

open Segment (Mapping Store key)
open Wire (Checksum Writable)

namespace Channel.Desk

/-! ### What is in order -/

/-- The handle with this label owns this name, whatever slashes are in front of it. -/
def Owns (d : Desk) (label name : String) : Prop :=
  ∃ h m, d.find? label = some h ∧ h.owned? = some m ∧ key m.name = key name

/-- What the parties at a desk can rely on, when there were these segments before. -/
structure Orderly [Checksum] (before : Store) (d : Desk) : Prop where
  /-- A name has at most one owner. -/
  apart : ∀ label label' name, d.Owns label name → d.Owns label' name → label = label'
  /-- No name that was there before is owned. -/
  foreign : ∀ label name, d.Owns label name → before.holds name = false
  /-- Just these and the owned ones are in use. -/
  names : ∀ name, d.store.holds name = true ↔ before.holds name = true ∨ ∃ label, d.Owns label name
  /-- Giving something up takes away what it owns and no other name. -/
  released : ∀ label name, (d.release label).store.holds name = true ↔
    d.store.holds name = true ∧ ¬d.Owns label name
  /-- A problem is written under the least free number if nothing but names may be in the way. -/
  written : ∀ label p problem number, d.find? label = some (.parent p) →
    p.Unobstructed d.store problem number → p.LeastFree d.store number →
      ∃ left, d.writeProblem label p problem = (.ok (Parent.numbered p.base number), left) ∧
        left.Owns label (Parent.numbered p.base number)
  /-- Without one, all names are in use. The transport fails, and only the segment of the caller is given
  up. -/
  exhausted : ∀ label p problem, d.find? label = some (.parent p) → Writable problem →
    0 ≤ problem.matrix.columns → (¬∃ number, p.LeastFree d.store number) →
      (∀ number, 1 ≤ number → number ≤ p.trials →
        (d.release label).store.holds (Parent.numbered p.base number) = true) ∧
      ∃ text left, d.writeProblem label p problem = (.error (.error (.transport text)), left) ∧
        left.store = (d.release label).store
  /-- However a write ends, the others keep what they have. -/
  others : ∀ label p problem label', d.find? label = some (.parent p) → label' ≠ label →
    (d.writeProblem label p problem).2.find? label' = d.find? label'
  /-- A creation consists of calls, which the store answers. -/
  created : ∀ name size, d.store.create name size =
    match d.store.createBy d.store.answers name size with
    | (.ok m, left) => (.ok m, left)
    | (.error e, _) => (.error e, d.store)
  /-- Whatever the answers are, a creation that fails leaves the names as they are. -/
  failed : ∀ answers name size e left, d.store.createBy answers name size = (.error e, left) →
    left.names = d.store.names
  /-- Under the name of a caller's segment, a worker opens that segment. -/
  opened : ∀ label p m name c, d.find? label = some (.parent p) → p.segment = some m →
    key name = key m.name → Child.openNamed d.store name = .ok c → c.segment.block = m.block
  /-- A worker sees the same bytes from then on, whatever is done with the name. -/
  seen : ∀ label c, d.find? label = some (.child c) → ∀ moves,
    (d.moveAll moves).store.bytes c.segment = d.store.bytes c.segment
  /-- The result lies within the segment. -/
  offset : ∀ label p m, d.find? label = some (.parent p) → p.segment = some m →
    p.resultOffset ≤ (d.store.bytes m).length

theorem mem_owned {d : Desk} {label : String} {h : Handle} {m : Mapping}
    (hfind : d.find? label = some h) (howned : h.owned? = some m) :
    (key m.name, m.block) ∈ d.owned := by
  refine List.mem_filterMap.mpr ⟨(label, h), mem_of_lookup hfind, ?_⟩
  exact congrArg (Option.map fun m => (key m.name, m.block)) howned

namespace Sound
variable {foreign : List (String × Nat)} {d : Desk} {label : String}

/-- What is owned is in the list of what is owned. -/
theorem owns_iff (hd : d.Sound foreign) {name : String} :
    (∃ label, d.Owns label name) ↔ key name ∈ d.owned.map Prod.fst := by
  constructor
  · rintro ⟨label, h, m, hfind, howned, hname⟩
    rw [← hname]
    exact List.mem_map_of_mem (f := Prod.fst) (mem_owned hfind howned)
  · intro hname
    obtain ⟨entry, hentry, hkey⟩ := List.mem_map.mp hname
    obtain ⟨⟨label, h⟩, hmem, hh⟩ := List.mem_filterMap.mp hentry
    obtain ⟨m, howned, rfl⟩ := Option.map_eq_some_iff.mp hh
    exact ⟨label, h, m, lookup_of_mem hd.labels hmem, howned, hkey⟩

theorem keys (hd : d.Sound foreign) :
    (foreign.map Prod.fst).Nodup ∧ (d.owned.map Prod.fst).Nodup ∧
      ∀ name ∈ foreign.map Prod.fst, ∀ other ∈ d.owned.map Prod.fst, name ≠ other := by
  have hdistinct := (hd.names.map Prod.fst).nodup_iff.mp hd.distinct
  rw [List.map_append] at hdistinct
  exact List.nodup_append.mp hdistinct

theorem holds_iff (hd : d.Sound foreign) {name : String} :
    d.store.holds name = true ↔ key name ∈ foreign.map Prod.fst ∨ ∃ label, d.Owns label name := by
  rw [Store.holds_iff, (hd.names.map Prod.fst).mem_iff, List.map_append, List.mem_append, hd.owns_iff]

/-- What is given up with a handle is not owned by any other. -/
theorem not_mem_owned_release (hd : d.Sound foreign) {h : Handle} {m : Mapping}
    (hfind : d.find? label = some h) (howned : h.owned? = some m) :
    key m.name ∉ (d.release label).owned.map Prod.fst := by
  have hperm := hd.owned_release hfind
  rw [Handle.entry?, howned] at hperm
  exact (List.nodup_cons.mp ((hperm.map Prod.fst).nodup_iff.mp hd.keys.2.1)).1

theorem find?_release {other : String} (hother : other ≠ label) :
    (d.release label).find? other = d.find? other := lookup_filter hother

theorem apart (hd : d.Sound foreign) {label' name : String} (h : d.Owns label name)
    (h' : d.Owns label' name) : label = label' := by
  by_cases hlabel : label' = label
  · exact hlabel.symm
  · obtain ⟨handle, m, hfind, howned, hname⟩ := h
    obtain ⟨handle', m', hfind', howned', hname'⟩ := h'
    rw [← find?_release hlabel] at hfind'
    have hleft := (hd.release label).owns_iff.mp ⟨label', handle', m', hfind', howned', hname'⟩
    rw [← hname] at hleft
    exact absurd hleft (hd.not_mem_owned_release hfind howned)

theorem owns_release_iff {other name : String} :
    (d.release label).Owns other name ↔ other ≠ label ∧ d.Owns other name := by
  by_cases hother : other = label
  · subst hother
    refine iff_of_false ?_ fun h => h.1 rfl
    rintro ⟨h, m, hfind, -⟩
    exact d.not_mem_labels_release other (List.mem_map_of_mem (f := Prod.fst) (mem_of_lookup hfind))
  · rw [Owns, Owns, find?_release hother]
    exact (and_iff_right hother).symm

/-- A foreign name is not owned. -/
theorem not_owns (hd : d.Sound foreign) {name : String} (hforeign : key name ∈ foreign.map Prod.fst) :
    ¬d.Owns label name := by
  intro hname
  exact hd.keys.2.2 _ hforeign _ (hd.owns_iff.mp ⟨label, hname⟩) rfl

/-- Just the name that goes with a handle is gone when the handle is given up. -/
theorem holds_release_iff (hd : d.Sound foreign) {name : String} :
    (d.release label).store.holds name = true ↔ d.store.holds name = true ∧ ¬d.Owns label name := by
  rw [(hd.release label).holds_iff, hd.holds_iff]
  simp only [owns_release_iff]
  constructor
  · rintro (hforeign | ⟨other, hother, hname⟩)
    · exact ⟨.inl hforeign, hd.not_owns hforeign⟩
    · exact ⟨.inr ⟨other, hname⟩, fun hlabel => hother (hd.apart hname hlabel)⟩
  · rintro ⟨hforeign | ⟨other, hname⟩, hlabel⟩
    · exact .inl hforeign
    · refine .inr ⟨other, ?_, hname⟩
      rintro rfl
      exact hlabel hname

/-- A name that is owned leads to the block of its owner. -/
theorem lookup_owned (hd : d.Sound foreign) {h : Handle} {m : Mapping}
    (hfind : d.find? label = some h) (howned : h.owned? = some m) :
    d.store.names.lookup (key m.name) = some m.block :=
  lookup_of_mem hd.distinct (hd.names.mem_iff.mpr (List.mem_append_right _ (mem_owned hfind howned)))

end Sound

/-! ### All moves -/

section Runs
variable [Checksum]

/-- **Names are never shared.** Let parties that have nothing yet come to a store, in which there may be
any names, and let them write problems, open segments and give them up in any order. Then everything is
in order at any time. -/
theorem orderly_moveAll {store : Store} (hdistinct : (store.names.map Prod.fst).Nodup)
    (hplaced : ∀ entry ∈ store.names, entry.2 < store.blocks.length) (moves : List Move) :
    Orderly store ((Desk.empty store).moveAll moves) := by
  -- As long as nobody owns anything, all names are foreign.
  have hempty : (Desk.empty store).Sound store.names := by
    constructor
    case names => exact List.Perm.of_eq (List.append_nil _).symm
    case distinct => exact hdistinct
    case placed => exact hplaced
    case labels => exact List.nodup_nil
    case handles => exact nofun
  have hd := hempty.moveAll moves
  generalize (Desk.empty store).moveAll moves = d at hd
  constructor
  case apart => exact fun label label' name => hd.apart
  case foreign =>
    intro label name hname
    exact Store.not_holds_iff.mpr fun hforeign => hd.not_owns hforeign hname
  case names =>
    intro name
    rw [hd.holds_iff, Store.holds_iff]
  case released => exact fun label name => hd.holds_release_iff
  case written =>
    intro label p problem number hfind hfree hnumber
    obtain ⟨parent, left, hwrite, hname⟩ := Parent.writeProblem_free hfree hnumber
    obtain ⟨m, hm, hnumbered⟩ := Option.map_eq_some_iff.mp hname
    rw [writeProblem, hwrite]
    refine ⟨_, rfl, .parent parent, m, ?_, hm, congrArg key hnumbered⟩
    rw [find?, List.lookup_cons, beq_self_eq_true]
  case exhausted =>
    intro label p problem hfind hp hcolumns hnone
    have hheld := (p.leastFree_or_exhausted d.store).resolve_left hnone
    obtain ⟨text, hwrite⟩ := Parent.writeProblem_exhausted hp hcolumns hheld
    rw [writeProblem, hwrite, store_release_parent hfind]
    exact ⟨hheld, text, _, rfl, rfl⟩
  case others =>
    intro label p problem label' hfind hother
    have hne : (label' == label) = false := beq_eq_false_iff_ne.mpr hother
    rw [writeProblem, find?, List.lookup_cons, hne]
    exact lookup_filter hother
  case created => exact d.store.create_eq_createBy
  case failed =>
    intro answers name size e left hfailed
    exact (Store.createBy_error hfailed).1
  case opened =>
    intro label p m name c hfind hsegment hname hopened
    obtain ⟨hlookup, -⟩ := Store.openNamed_ok (Child.openNamed_ok hopened)
    rw [hname] at hlookup
    have hsame := hlookup.symm.trans (hd.lookup_owned hfind hsegment)
    exact Option.some.inj hsame
  case seen =>
    intro label c hfind more
    obtain ⟨-, hblock⟩ := hd.handles _ (mem_of_lookup hfind)
    exact Store.bytes_of_prefix (d.prefix_moveAll more) hblock
  case offset =>
    intro label p m hfind hsegment
    exact (hd.handles _ (mem_of_lookup hfind) m hsegment).2.2

end Runs

/-- A store in which somebody has the first name of a row. -/
def taken : Store := ⟨[("a1", 0)], [[7]], 254, 4096⟩

/-- A caller who comes to it writes under the second one, also with slashes in front. -/
theorem orderly_moveAll_taken :
    ∃ left, ((Desk.empty taken).moveAll [.parent "caller" "//a" 2]).writeProblem "caller"
        (.ofBase "//a" 2) single = (.ok "//a2", left) ∧
      left.Owns "caller" "//a2" := by
  let moves := [Move.parent "caller" "//a" 2]
  have hdistinct : (taken.names.map Prod.fst).Nodup := by decide
  have hplaced : ∀ entry ∈ taken.names, entry.2 < taken.blocks.length := by decide
  have hfree : (Parent.ofBase "//a" 2).Unobstructed ((Desk.empty taken).moveAll moves).store single 2 := by
    refine ⟨by decide, by decide, by decide +kernel, ?_⟩
    intro length space h
    rw [show Parent.lengths single = .ok (248, 80) from rfl] at h
    cases h
    decide
  have hsecond : (Parent.ofBase "//a" 2).LeastFree ((Desk.empty taken).moveAll moves).store 2 := by
    refine ⟨by decide, by decide, by decide +kernel, ?_⟩
    intro earlier hfirst hbefore
    obtain rfl : earlier = 1 := by omega
    decide +kernel
  exact (orderly_moveAll hdistinct hplaced moves).written "caller" _ single 2 rfl hfree hsecond

end Channel.Desk

end IsolatedSolving
