import IsolatedSolving.Proofs.Channel.Opening

/-! What a write does to the names.

A write of a problem comes to one of three things. A problem that cannot be measured changes nothing.
Otherwise the previous segment is given up, and then either there is no new one, or a new block is there
under the least free number (`writeProblem_written`). With room for the problem, whether there is a free
number decides (`writeProblem_free`, `writeProblem_exhausted`). -/
namespace IsolatedSolving.Channel.Parent

open Segment (Mapping Store)
open Wire
open Wire.Sealed (finished recordLength)

/-! ### Giving up a segment -/

theorem release_fst (p : Parent) (store : Store) : (p.release store).1 = { p with segment := none } := by
  obtain ⟨base, trials, segment, resultOffset⟩ := p
  cases segment <;> rfl

/-- Giving up a segment leaves all blocks there. -/
theorem blocks_release (p : Parent) (store : Store) : (p.release store).2.blocks = store.blocks := by
  rw [release]
  split
  · exact Store.blocks_release _ _
  · rfl

theorem prefix_release (p : Parent) (store : Store) :
    store.blocks <+: (p.release store).2.blocks :=
  ⟨[], by rw [List.append_nil, blocks_release]⟩

/-! ### Writing a problem -/

/-- The least number that may be tried and whose name is free once the previous segment is given up. -/
structure LeastFree (p : Parent) (store : Store) (number : Nat) : Prop where
  first : 1 ≤ number
  last : number ≤ p.trials
  free : (p.release store).2.holds (numbered p.base number) = false
  least : ∀ earlier, 1 ≤ earlier → earlier < number →
    (p.release store).2.holds (numbered p.base earlier) = true

theorem LeastFree.unique {p : Parent} {store : Store} {number other : Nat}
    (h : LeastFree p store number) (h' : LeastFree p store other) : number = other := by
  rcases Nat.lt_trichotomy number other with hlt | heq | hgt
  · cases (h'.least number h.first hlt).symm.trans h.free
  · exact heq
  · cases (h.least other h'.first hgt).symm.trans h'.free

/-- There is a least free number unless all names that may be tried are in use. -/
theorem leastFree_or_exhausted (p : Parent) (store : Store) :
    (∃ number, LeastFree p store number) ∨
      ∀ number, 1 ≤ number → number ≤ p.trials →
        (p.release store).2.holds (numbered p.base number) = true := by
  by_cases hfound : ∃ number, LeastFree p store number
  · exact .inl hfound
  · -- If all earlier numbers are in use and this one is not, it is the least.
    refine .inr fun number => ?_
    induction number using Nat.strongRecOn with
    | ind number ih =>
      intro hfirst hlast
      rw [← Bool.not_eq_false]
      intro hfree
      have hearlier : ∀ earlier, 1 ≤ earlier → earlier < number →
          (p.release store).2.holds (numbered p.base earlier) = true :=
        fun earlier hone hlt => ih earlier hlt hone (by omega)
      exact hfound ⟨number, hfirst, hlast, hfree, hearlier⟩

/-- What a write of a problem comes to. -/
inductive Written (p : Parent) (store : Store) (problem : Problem) :
    Except (Stop SolverError) String × Parent × Store → Prop
  | unmeasured {stop : Stop SolverError} (hlengths : lengths problem = .error stop) :
    Written p store problem (.error stop, p, store)
  | unnamed (text : String) :
    Written p store problem
      (.error (.error (.transport text)), { p with segment := none }, (p.release store).2)
  | named {number length : Nat} {bytes : List UInt8} (hnumber : LeastFree p store number)
      (hlength : length ≤ bytes.length) :
    Written p store problem (.ok (numbered p.base number),
      { p with
        segment := some ⟨numbered p.base number, store.blocks.length, true⟩
        resultOffset := length },
      (p.release store).2.add (numbered p.base number) bytes)

section Writes
variable [Checksum]

/-- **Every write is one of these.** -/
theorem writeProblem_written (p : Parent) (store : Store) (problem : Problem) :
    Written p store problem (p.writeProblem store problem) := by
  rw [writeProblem]
  cases hlengths : lengths problem with
  | error stop => exact .unmeasured hlengths
  | ok found =>
    obtain ⟨length, space⟩ := found
    obtain ⟨hp, rfl, -, n, hn, rfl⟩ := lengths_ok_iff.mp hlengths
    obtain ⟨rest, hcontent, -⟩ := content_eq hp hn
    obtain ⟨hbase, htrials, -⟩ := release_search p store
    rcases hmade : (p.release store).1.createSegment (extent (pieces problem) + recordLength n)
        (p.release store).2 with ⟨made, left⟩
    simp only [hmade]
    cases made with
    | error e =>
      obtain ⟨text, rfl⟩ := createSegment_error hmade
      have hleft : left = (p.release store).2 := createSegment_failed hmade
      rw [release_fst, hleft]
      exact .unnamed text
    | ok m =>
      have hsearch := createSegment_ok.mp hmade
      rw [hbase, htrials] at hsearch
      obtain ⟨-, hfree, hm, rfl⟩ := createFrom_ok hsearch
      obtain ⟨number, hfirst, hlast, hname, hleast⟩ := createFrom_least hsearch
      rw [hname] at hfree
      rw [hname, blocks_release] at hm
      have hblock : m.block = (p.release store).2.blocks.length := by rw [hm, blocks_release]
      have hlength : extent (pieces problem) ≤
          (image (pieces problem) ++ (finished (Solution.empty problem.sense) ++ rest)).length := by
        rw [List.length_append, length_image]
        exact Nat.le_add_right _ _
      simp only [hcontent, release_fst, Store.write_add hblock]
      rw [hm]
      exact .named ⟨hfirst, Nat.lt_one_add_iff.mp hlast, hfree, hleast⟩ hlength

/-- Nothing but the names that are in use keeps a problem from being written under this number. -/
structure Unobstructed (p : Parent) (store : Store) (problem : Problem) (number : Nat) : Prop where
  writable : Writable problem
  columns : 0 ≤ problem.matrix.columns
  takes : store.takes (numbered p.base number) = true
  memory : ∀ length space, lengths problem = .ok (length, space) →
    length + space < 1 <<< 63 ∧ length + space < store.limit

/-- A problem is written under the least free number if nothing else keeps it from that. -/
theorem writeProblem_free {p : Parent} {store : Store} {problem : Problem} {number : Nat}
    (h : Unobstructed p store problem number) (hnumber : LeastFree p store number) :
    ∃ parent left, p.writeProblem store problem = (.ok (numbered p.base number), parent, left) ∧
      parent.name? = some (numbered p.base number) := by
  have hname := And.intro hnumber.first (And.intro hnumber.last (And.intro h.takes hnumber.free))
  have hroom : HasRoom p store problem := ⟨h.writable, h.columns, ⟨number, hname⟩, h.memory⟩
  obtain ⟨name, parent, left, hwrite⟩ := writeProblem_hasRoom hroom
  have hwritten := writeProblem_written p store problem
  rw [hwrite] at hwritten
  cases hwritten with
  | named hfound =>
    rw [hnumber.unique hfound]
    exact ⟨_, _, hwrite, rfl⟩

/-- Without a free name, a problem is not written, and the previous segment is given up. -/
theorem writeProblem_exhausted {p : Parent} {store : Store} {problem : Problem}
    (hp : Writable problem) (hcolumns : 0 ≤ problem.matrix.columns)
    (hexhausted : ∀ number, 1 ≤ number → number ≤ p.trials →
      (p.release store).2.holds (numbered p.base number) = true) :
    ∃ text, p.writeProblem store problem =
      (.error (.error (.transport text)), { p with segment := none }, (p.release store).2) := by
  have hwritten := writeProblem_written p store problem
  generalize p.writeProblem store problem = result at hwritten ⊢
  cases hwritten with
  | unmeasured hrefused =>
    obtain ⟨n, -, hlengths⟩ := lengths_eq hp hcolumns
    cases hlengths.symm.trans hrefused
  | unnamed text => exact ⟨text, rfl⟩
  | named hnumber =>
    cases hnumber.free.symm.trans (hexhausted _ hnumber.first hnumber.last)

end Writes

end IsolatedSolving.Channel.Parent
