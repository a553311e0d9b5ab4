import IsolatedSolving.Channel.Child
import IsolatedSolving.Proofs.Channel.Naming
import IsolatedSolving.Proofs.Segment.Creation
import IsolatedSolving.Proofs.Wire.Sizes

/-! What a written problem leaves for both sides.

`Link` says what caller and worker share: the same block in use, and the place where the problem in
it ends. `Carries` says what the block holds. A successful write establishes both, with an empty
result behind the problem (`writeProblem_ok`), and with a free name and enough memory a write is
successful (`writeProblem_hasRoom`). -/
namespace IsolatedSolving.Channel

open Segment (Mapping Store)
open Wire
open Wire.Sealed (finished headerLength recordLength)

/-! ### Both sides -/

/-- Caller and worker have the same block in use, and the caller knows where the problem ends. -/
structure Link (parent : Parent) (child : Child) (problem : Problem) : Prop where
  writable : Writable problem
  segment : ∃ m, parent.segment = some m ∧ m.block = child.segment.block
  offset : parent.resultOffset = extent (pieces problem)

/-- The block of the worker starts with the problem, and behind it there is this region. -/
structure Carries (store : Store) (child : Child) (problem : Problem) (region : List UInt8) :
    Prop where
  inUse : child.segment.block < store.blocks.length
  bytes : store.bytes child.segment = image (pieces problem) ++ region

section Sides
variable {parent : Parent} {child : Child} {problem : Problem} {store : Store}
  {region : List UInt8}

/-- The worker finds the problem and its end, whatever the region holds. -/
theorem Link.readProblem (h : Link parent child problem) (hc : Carries store child problem region) :
    child.readProblem store =
      .ok (View.of Problem.sized problem, parent.resultOffset, Sink.ofRegion region) := by
  have hfirst := decodeView_image Problem.sized h.writable region (Nat.zero_mod itemAlignment)
  have hsecond := decodeView_image Problem.sized h.writable [] (Nat.zero_mod itemAlignment)
  have htake : (image (pieces problem) ++ region).take (extent (pieces problem)) =
      image (pieces problem) ++ [] := by
    rw [List.append_nil, List.take_left' (length_image _)]
  have hdrop : (image (pieces problem) ++ region).drop (extent (pieces problem)) = region :=
    List.drop_left' (length_image _)
  have hin : Child.problemIn (image (pieces problem) ++ region) =
      .ok (View.of Problem.sized problem, extent (pieces problem)) := by
    simp only [Child.problemIn, hfirst, mapError_ok, bind, Except.bind, htake, hsecond]
    rfl
  rw [Child.readProblem, hc.bytes, hin, h.offset]
  simp only [Except.map, hdrop]

/-- Putting a sink back changes the region and nothing else of the block. -/
theorem Link.putSink (h : Link parent child problem) (hc : Carries store child problem region)
    (sink : Sink) :
    Carries (child.putSink store parent.resultOffset sink) child problem sink.region := by
  have htake : (image (pieces problem) ++ region).take (extent (pieces problem)) =
      image (pieces problem) := List.take_left' (length_image _)
  constructor
  · rw [Child.putSink, Store.write, List.length_set]
    exact hc.inUse
  · rw [Child.putSink, Store.bytes_write hc.inUse rfl, hc.bytes, h.offset, htake]

/-- The caller finds the region. -/
theorem Link.region? (h : Link parent child problem) (hc : Carries store child problem region) :
    parent.region? store = some region := by
  obtain ⟨m, hm, hblock⟩ := h.segment
  have hbytes : store.bytes m = image (pieces problem) ++ region := by
    rw [← hc.bytes, Store.bytes, Store.bytes, hblock]
  rw [Parent.region?, hm, h.offset, Option.map_some, hbytes, List.drop_left' (length_image _)]

/-- The caller finds some region in any case, whatever has become of the store. -/
theorem Link.exists_region? (h : Link parent child problem) (store : Store) :
    ∃ region, parent.region? store = some region := by
  obtain ⟨m, hm, -⟩ := h.segment
  exact ⟨(store.bytes m).drop parent.resultOffset, by rw [Parent.region?, hm, Option.map_some]⟩

variable [Checksum]

/-- The caller takes over a result that can be read. -/
theorem Link.readSolution_of_read (h : Link parent child problem)
    (hc : Carries store child problem region) {s : Solution}
    (hs : Sealed.read Solution region = .ok s) : parent.readSolution store = .ok (some s) := by
  simp only [Parent.readSolution, h.region? hc, hs]

/-- The caller takes a torn record for no result. -/
theorem Link.readSolution_of_torn (h : Link parent child problem)
    (hc : Carries store child problem region)
    (ht : Sealed.read Solution region = .error .torn) : parent.readSolution store = .ok none := by
  simp only [Parent.readSolution, h.region? hc, ht]

/-- The caller finds a finished record. -/
theorem Link.readSolution (h : Link parent child problem) {s : Solution} (hs : Writable s)
    {rest : List UInt8} (hc : Carries store child problem (finished s ++ rest)) :
    parent.readSolution store = .ok (some s) :=
  h.readSolution_of_read hc
    (Sealed.read_finished Solution.sized (Solution.recordable hs) rest)

end Sides

/-! ### Writing a problem -/

namespace Parent

theorem lengths_ok_iff {problem : Problem} {length space : Nat} :
    lengths problem = .ok (length, space) ↔
      Writable problem ∧ length = extent (pieces problem) ∧ problem.columnCount < 1 <<< 60 ∧
        ∃ n, Solution.boundLength problem.columnCount problem.rowCount = .ok n ∧
          space = recordLength n := by
  constructor
  · intro h
    rw [lengths] at h
    cases hlength : encodedLength problem with
    | error e =>
      rw [hlength] at h
      cases h
    | ok n =>
      obtain ⟨hp, rfl⟩ := encodedLength_eq_ok_iff.mp hlength
      rw [hlength] at h
      by_cases hcolumns : 1 <<< 60 ≤ problem.columnCount
      · simp only [if_pos hcolumns] at h
        cases h
      · simp only [if_neg hcolumns] at h
        cases hbound : Solution.boundLength problem.columnCount problem.rowCount with
        | error e =>
          rw [hbound] at h
          cases h
        | ok bound =>
          rw [hbound] at h
          cases h
          exact ⟨hp, rfl, Nat.not_le.mp hcolumns, bound, rfl, rfl⟩
  · rintro ⟨hp, rfl, hcolumns, bound, hbound, rfl⟩
    have hlength := encodedLength_eq_ok_iff.mpr ⟨hp, rfl⟩
    rw [lengths, hlength, hbound]
    simp only [if_neg (Nat.not_le.mpr hcolumns)]
    rfl

/-- The lengths of a problem whose counts can be written. -/
theorem lengths_eq {problem : Problem} (hp : Writable problem)
    (hcolumns : 0 ≤ problem.matrix.columns) :
    ∃ n, Solution.boundLength problem.columnCount problem.rowCount = .ok n ∧
      lengths problem = .ok (extent (pieces problem), recordLength n) := by
  have hc := Problem.columnCount_le hcolumns
  have hr := Problem.rowCount_le hp
  have hn := Solution.boundLength_ok.mpr ⟨hc, hr, rfl⟩
  exact ⟨_, hn, lengths_ok_iff.mpr ⟨hp, rfl, Nat.lt_of_le_of_lt hc (by decide), _, hn, rfl⟩⟩

/-- A problem whose counts cannot be written is refused by the codec. -/
theorem lengths_error {problem : Problem} (hcolumns : 0 ≤ problem.matrix.columns)
    {stop : Stop SolverError} (h : lengths problem = .error stop) :
    ∃ e, stop = .error (.ofCodec e) := by
  have hcount : problem.columnCount < 1 <<< 60 :=
    Nat.lt_of_le_of_lt (Problem.columnCount_le hcolumns) (by decide)
  rw [lengths] at h
  cases hlength : encodedLength problem with
  | error e =>
    rw [hlength] at h
    cases h
    exact ⟨e, rfl⟩
  | ok n =>
    rw [hlength] at h
    simp only [if_neg (Nat.not_le.mpr hcount)] at h
    cases hbound : Solution.boundLength problem.columnCount problem.rowCount with
    | error e =>
      rw [hbound] at h
      cases h
      exact ⟨e, rfl⟩
    | ok bound =>
      rw [hbound] at h
      cases h

theorem createSegment_ok {p : Parent} {size : Nat} {store store' : Store} {m : Mapping} :
    p.createSegment size store = (.ok m, store') ↔
      createFrom p.base size p.trials 1 store = (.ok (some m), store') := by
  rw [createSegment]
  split
  · next found made hmade =>
    rw [hmade]
    simp
  · next hmade =>
    rw [hmade]
    simp
  · next hmade =>
    rw [hmade]
    simp

theorem createSegment_error {p : Parent} {size : Nat} {store store' : Store} {e : SolverError}
    (h : p.createSegment size store = (.error e, store')) : ∃ text, e = .transport text := by
  rw [createSegment] at h
  split at h
  · cases h
  · cases h
    exact ⟨_, rfl⟩
  · cases h
    exact ⟨_, rfl⟩

/-- A creation that fails changes nothing. -/
theorem createSegment_failed {p : Parent} {size : Nat} {store store' : Store} {e : SolverError}
    (h : p.createSegment size store = (.error e, store')) : store' = store := by
  rw [createSegment] at h
  split at h
  · cases h
  · next hmade =>
    cases h
    exact createFrom_failed hmade nofun
  · next hmade =>
    cases h
    exact createFrom_failed hmade nofun

/-- Giving up a segment changes neither the search for a name nor what the system allows. -/
theorem release_search (p : Parent) (store : Store) :
    (p.release store).1.base = p.base ∧ (p.release store).1.trials = p.trials ∧
      (p.release store).2.takes = store.takes ∧ (p.release store).2.limit = store.limit := by
  rw [release]
  split
  · refine ⟨rfl, rfl, ?_⟩
    rw [Store.release]
    split <;> exact ⟨rfl, rfl⟩
  · exact ⟨rfl, rfl, rfl, rfl⟩

/-- A problem can be written if its counts are not too large, a free name that the system takes is left
among those that are tried, and there is memory for it. -/
structure HasRoom (p : Parent) (store : Store) (problem : Problem) : Prop where
  writable : Writable problem
  columns : 0 ≤ problem.matrix.columns
  name : ∃ free, 1 ≤ free ∧ free ≤ p.trials ∧ store.takes (numbered p.base free) = true ∧
    (p.release store).2.holds (numbered p.base free) = false
  memory : ∀ length space, lengths problem = .ok (length, space) →
    length + space < 1 <<< 63 ∧ length + space < store.limit

variable [Checksum]

/-- The bytes of a fresh segment: the problem, the record of an empty result, and zeros. -/
theorem content_eq {problem : Problem} (hp : Writable problem) {n : Nat}
    (hn : Solution.boundLength problem.columnCount problem.rowCount = .ok n) :
    ∃ rest, content problem (extent (pieces problem)) (recordLength n) =
        .ok (image (pieces problem) ++ (finished (Solution.empty problem.sense) ++ rest)) ∧
      (finished (Solution.empty problem.sense) ++ rest).length = recordLength n := by
  have hempty := Solution.within_empty problem.columnCount problem.rowCount problem.sense
  obtain ⟨hs, hspace⟩ := Sealed.fits_iff.mp (hempty.fits hn)
  have hfront : encodeInto problem (List.replicate (extent (pieces problem)) 0) =
      (.ok (extent (pieces problem)), image (pieces problem)) := by
    have hlen : (List.replicate (extent (pieces problem)) (0 : UInt8)).length =
        extent (pieces problem) := List.length_replicate
    rw [encodeInto_eq hp (Nat.le_of_eq hlen.symm), List.drop_eq_nil_of_le (Nat.le_of_eq hlen),
      List.append_nil]
  have hlen : (List.replicate (recordLength n) (0 : UInt8)).length = recordLength n :=
    List.length_replicate
  have hback := Sealed.write_eq hs (Nat.le_trans hspace (Nat.le_of_eq hlen.symm))
  refine ⟨(List.replicate (recordLength n) 0).drop
    (headerLength + extent (pieces (Solution.empty problem.sense))), ?_, ?_⟩
  · simp only [content, hfront, hback, bind, Except.bind]
    rfl
  · rw [List.length_append, Sealed.length_finished, List.length_drop, hlen]
    omega

/-- **A successful write links both sides.** The name leads the worker to the block of the caller,
which holds the problem and behind it an empty result. -/
theorem writeProblem_ok {p parent : Parent} {store store' : Store} {problem : Problem}
    {name : String} (h : p.writeProblem store problem = (.ok name, parent, store')) :
    ∃ child rest n, Child.openNamed store' name = .ok child ∧ Link parent child problem ∧
      Solution.boundLength problem.columnCount problem.rowCount = .ok n ∧
      Carries store' child problem (finished (Solution.empty problem.sense) ++ rest) ∧
      (finished (Solution.empty problem.sense) ++ rest).length = recordLength n := by
  unfold writeProblem at h
  split at h
  · simp at h
  next length space hlengths =>
  obtain ⟨hp, rfl, -, n, hn, rfl⟩ := lengths_ok_iff.mp hlengths
  obtain ⟨rest, hcontent, hlen⟩ := content_eq hp hn
  rcases hrelease : p.release store with ⟨released, cleared⟩
  simp only [hrelease] at h
  split at h
  · simp at h
  next m made hmade =>
  rw [hcontent] at h
  simp only [Prod.mk.injEq, Except.ok.injEq] at h
  obtain ⟨rfl, rfl, rfl⟩ := h
  obtain ⟨htakes, hfree, hm, rfl⟩ := createFrom_ok (createSegment_ok.mp hmade)
  have hblock : m.block = cleared.blocks.length := congrArg Mapping.block hm
  have hinUse : m.block < (cleared.add m.name
      (List.replicate (extent (pieces problem) + recordLength n) 0)).blocks.length := by
    rw [hblock, Store.add, List.length_append]
    exact Nat.lt_succ_self _
  refine ⟨⟨m.name, m.block, false⟩, rest, n, ?_, ⟨hp, ⟨m, rfl, rfl⟩, rfl⟩, hn, ⟨?_, ?_⟩, hlen⟩
  · have hbytes : image (pieces problem) ++ (finished (Solution.empty problem.sense) ++ rest) ≠ [] := by
      refine List.append_ne_nil_of_right_ne_nil _ (List.length_pos_iff.mp ?_)
      rw [hlen, recordLength, headerLength]
      omega
    rw [Child.openNamed, Store.write_add hblock, Store.openNamed_add htakes hfree hbytes, hblock]
    rfl
  · rw [Store.write, List.length_set]
    exact hinUse
  · exact Store.bytes_write hinUse rfl _

/-- Whatever keeps a problem from being written counts as a failed transport. -/
theorem writeProblem_error {p parent : Parent} {store store' : Store} {problem : Problem}
    {stop : Stop SolverError} (hcolumns : 0 ≤ problem.matrix.columns)
    (h : p.writeProblem store problem = (.error stop, parent, store')) :
    ∃ text, stop = .error (.transport text) := by
  unfold writeProblem at h
  split at h
  · next hlengths =>
    cases h
    obtain ⟨e, rfl⟩ := lengths_error hcolumns hlengths
    exact ⟨e.message, rfl⟩
  rcases hrelease : p.release store with ⟨released, cleared⟩
  simp only [hrelease] at h
  split at h
  · next hmade =>
    cases h
    obtain ⟨text, rfl⟩ := createSegment_error hmade
    exact ⟨text, rfl⟩
  · split at h
    · cases h
      exact ⟨_, rfl⟩
    · cases h

/-- **With room for it, a problem is written.** -/
theorem writeProblem_hasRoom {p : Parent} {store : Store} {problem : Problem}
    (h : HasRoom p store problem) :
    ∃ name parent store', p.writeProblem store problem = (.ok name, parent, store') := by
  obtain ⟨free, hone, hle, htakes, hfree⟩ := h.name
  obtain ⟨n, hn, hlengths⟩ := lengths_eq h.writable h.columns
  obtain ⟨hsize, hlimit⟩ := h.memory _ _ hlengths
  obtain ⟨hbase, htrials, hnames, hkept⟩ := release_search p store
  obtain ⟨rest, hcontent, -⟩ := content_eq h.writable hn
  rw [← hkept] at hlimit
  rw [← hnames, ← hbase] at htakes
  rw [← hbase] at hfree
  rw [← htrials] at hle
  have hpos : 0 < extent (pieces problem) + recordLength n := by
    unfold recordLength headerLength
    omega
  obtain ⟨m, made, hmade⟩ :=
    createFrom_free hpos hsize hlimit htakes hfree hone (Nat.lt_one_add_iff.mpr hle)
  rcases hrelease : p.release store with ⟨released, cleared⟩
  rw [hrelease] at hmade
  simp only [writeProblem, hlengths, hrelease, createSegment_ok.mpr hmade, hcontent]
  exact ⟨_, _, _, rfl⟩

end Parent

/-- One variable between zero and one, in one row with the same bounds. -/
def single : Problem :=
  { Problem.empty with
    matrix := ⟨[[.one]], [[0]], 1⟩
    objective := [.one]
    columnLower := [.zero]
    columnUpper := [.one]
    rowLower := [.zero]
    rowUpper := [.one]
    kinds := [.continuous] }

theorem hasRoom_single : Parent.HasRoom (.ofBase "channel" 1) (.empty 4096) single where
  writable := by decide
  columns := by decide
  name := ⟨1, by decide +kernel⟩
  memory := by
    intro length space h
    rw [show Parent.lengths single = .ok (248, 80) from rfl] at h
    cases h
    decide

end IsolatedSolving.Channel
