import IsolatedSolving.Proofs.Channel.Exchange
import IsolatedSolving.Proofs.Solution.Comparison
import IsolatedSolving.Worker.Harness

/-! What a worker keeps of the reports of its backend.

`Kept` says what should remain of a row of reports. A worker takes in one report after the other: a
better one replaces what it has (`Kept.replace`), any other changes nothing (`Kept.skip`). Along the
row its sink holds the best report so far (`Progress.tracks_reportAll`), so that this is what a
worker leaves behind that comes to no final result (`solveInto_unfinished`). -/
namespace IsolatedSolving.Worker

open Channel (Sink)
open Wire (Checksum)
open Wire.Sealed (Fits)

/-! ### What should remain -/

/-- The empty result as long as no report bears a solution, and after that a report that bears one
and that no report is better than. If no objective is a NaN, it is the first such report. -/
def Kept (sense : Sense) (cs : List Solution) (x : Solution) : Prop :=
  (x = Solution.empty sense ∧ ∀ c ∈ cs, c.bearsSolution = false) ∨
  ∃ before c after, cs = before ++ c :: after ∧ x.Agrees c ∧ c.bearsSolution = true ∧
    (∀ d ∈ cs, d.isBetter c sense = false) ∧
    ((∀ d ∈ cs, d.objective.isNaN = false) →
      ∀ d ∈ before, d.bearsSolution = true → ∃ e ∈ cs, e.isBetter d sense = true)

section Kept
variable {sense : Sense} {cs : List Solution} {x y s : Solution}

theorem kept_nil (sense : Sense) : Kept sense [] (Solution.empty sense) :=
  .inl ⟨rfl, fun _ h => absurd h List.not_mem_nil⟩

/-- No report is better than what remains. -/
theorem Kept.isBetter (h : Kept sense cs x) : ∀ d ∈ cs, d.isBetter x sense = false := by
  intro d hd
  rcases h with ⟨rfl, hnone⟩ | ⟨before, c, after, -, hx, -, hbest, -⟩
  · rw [Solution.isBetter_empty]
    exact hnone d hd
  · rw [hx.isBetter]
    exact hbest d hd

/-- A report that is not better changes nothing. -/
theorem Kept.skip (h : Kept sense cs x) (hs : s.isBetter x sense = false) :
    Kept sense (cs ++ [s]) x := by
  rcases h with ⟨rfl, hnone⟩ | ⟨before, c, after, rfl, hx, hc, hbest, hfirst⟩
  · rw [Solution.isBetter_empty] at hs
    refine .inl ⟨rfl, fun d hd => ?_⟩
    rcases List.mem_append.mp hd with hd | hd
    · exact hnone d hd
    · exact List.mem_singleton.mp hd ▸ hs
  · refine .inr ⟨before, c, after ++ [s], by simp, hx, hc, fun d hd => ?_, fun hnan d hd hbears => ?_⟩
    · rcases List.mem_append.mp hd with hd | hd
      · exact hbest d hd
      · rw [List.mem_singleton.mp hd, ← hx.isBetter]
        exact hs
    · obtain ⟨e, he, hbetter⟩ :=
        hfirst (fun d hd => hnan d (List.mem_append_left _ hd)) d hd hbears
      exact ⟨e, List.mem_append_left _ he, hbetter⟩

/-- A better report takes the place of what remained so far. -/
theorem Kept.replace (h : Kept sense cs x) (hs : s.isBetter x sense = true) (hy : y.Agrees s) :
    Kept sense (cs ++ [s]) y := by
  have hbest := h.isBetter
  refine .inr ⟨cs, s, [], rfl, hy, (Solution.isBetter_iff.mp hs).1, fun d hd => ?_,
    fun hnan d hd _ => ⟨s, List.mem_append_right _ List.mem_cons_self, ?_⟩⟩
  · rcases List.mem_append.mp hd with hd | hd
    · rw [← Bool.not_eq_true]
      intro hbetter
      exact absurd (Solution.isBetter_trans hbetter hs) (by rw [hbest d hd]; decide)
    · rw [List.mem_singleton.mp hd]
      exact Solution.isBetter_irrefl
  · exact Solution.isBetter_of_not (hnan d (List.mem_append_left _ hd)) hs (hbest d hd)

end Kept

/-! ### Taking in reports -/

theorem agrees_withUsage (u : Usage) (s : Solution) : (withUsage u s).Agrees s :=
  ⟨rfl, rfl, rfl, rfl⟩

/-- The space of a result does not depend on the resources that it took. -/
theorem fits_withUsage {space : Nat} {u : Usage} {s : Solution} :
    Fits space (withUsage u s) ↔ Fits space s := by
  simp only [Wire.Sealed.fits_iff, Solution.writable_iff, Solution.extent_pieces]
  rfl

variable [Checksum]

/-- The best report so far is what should remain, and the sink holds it. -/
structure Progress.Tracks (sense : Sense) (space : Nat) (cs : List Solution) (p : Progress) :
    Prop where
  kept : Kept sense cs p.best
  holds : p.sink.Holds p.best
  capacity : p.sink.capacity = space

namespace Progress
variable {sense : Sense} {space : Nat} {cs : List Solution} {p : Progress}

/-- One report. -/
theorem tracks_report (h : p.Tracks sense space cs) (meter : Meter) {s : Solution}
    (hs : Fits space s) : (p.report meter sense s).Tracks sense space (cs ++ [s]) := by
  rw [report]
  split
  · next hbetter =>
    have hfits : Fits p.sink.capacity (withUsage (meter p.looks) s) :=
      h.capacity.symm ▸ fits_withUsage.mpr hs
    obtain ⟨-, hholds, hcapacity⟩ := Sink.holds_write hfits
    exact ⟨h.kept.replace hbetter (agrees_withUsage _ s), hholds, hcapacity.trans h.capacity⟩
  · next hbetter =>
    exact ⟨h.kept.skip (Bool.not_eq_true _ ▸ hbetter), h.holds, h.capacity⟩

/-- Reports in a row. -/
theorem tracks_reportAll (h : p.Tracks sense space cs) (meter : Meter) {ss : List Solution}
    (hss : ∀ s ∈ ss, Fits space s) :
    (p.reportAll meter sense ss).Tracks sense space (cs ++ ss) := by
  induction ss generalizing cs p with
  | nil => rwa [List.append_nil]
  | cons s ss ih =>
    have hfirst := tracks_report h meter (hss s List.mem_cons_self)
    have hrest := ih hfirst fun t ht => hss t (List.mem_cons_of_mem s ht)
    rwa [List.append_assoc, List.singleton_append] at hrest

/-- Reports change no length, whether there is space for them or not. -/
theorem capacity_reportAll (meter : Meter) (sense : Sense) (p : Progress) (ss : List Solution) :
    (p.reportAll meter sense ss).sink.capacity = p.sink.capacity := by
  induction ss generalizing p with
  | nil => rfl
  | cons s ss ih =>
    have hfirst : (p.report meter sense s).sink.capacity = p.sink.capacity := by
      rw [report]
      split
      · exact Sink.capacity_write _ _
      · rfl
    exact (ih _).trans hfirst

end Progress

/-! ### Working on a problem -/

/-- How the work of a worker ends if its backend comes to no result. -/
def unfinished? : Finish → Option (Completion (Except Report Solution))
  | .returned _ => none
  | .failed e => some (.done (.error (.ofCause (.backend e))))
  | .brokeOff text => some (.done (.error (brokeOffReport text)))
  | .leftProcess e => some (.leftProcess e)
  | .hanging => some .hanging

section Work
variable {backend : Backend} {problem : Problem} {sink : Sink}

/-- What a worker has come to with all reports of its backend. -/
def afterReports (backend : Backend) (meter : Meter) (problem : Problem) (sink : Sink) : Progress :=
  Progress.reportAll meter problem.sense ⟨Solution.empty problem.sense, sink, 0⟩
    (backend.solve problem).reports

theorem capacity_afterReports (backend : Backend) (meter : Meter) (problem : Problem) (sink : Sink) :
    (afterReports backend meter problem sink).sink.capacity = sink.capacity :=
  Progress.capacity_reportAll _ _ _ _

/-- All reports of a backend, taken in by a worker that has nothing yet. -/
theorem tracks_reports (meter : Meter) (hsink : sink.Holds (Solution.empty problem.sense))
    (hreports : ∀ s ∈ (backend.solve problem).reports, Fits sink.capacity s) :
    (afterReports backend meter problem sink).Tracks problem.sense sink.capacity
      (backend.solve problem).reports := by
  have hstart : Progress.Tracks problem.sense sink.capacity []
      ⟨Solution.empty problem.sense, sink, 0⟩ := ⟨kept_nil _, hsink, rfl⟩
  exact Progress.tracks_reportAll hstart meter hreports

/-- A worker whose backend comes to no result leaves its sink as the reports did. -/
theorem solveInto_of_unfinished (meter : Meter) {completion : Completion (Except Report Solution)}
    (hfinish : unfinished? (backend.solve problem).finish = some completion) :
    solveInto backend meter problem sink =
      (completion, (afterReports backend meter problem sink).sink) := by
  cases hend : (backend.solve problem).finish with
  | returned s =>
    rw [hend] at hfinish
    cases hfinish
  | failed e | brokeOff text | leftProcess e | hanging =>
    rw [hend] at hfinish
    cases hfinish
    simp only [solveInto, hend, afterReports]

/-- **A worker that comes to no final result leaves its best report behind.** -/
theorem solveInto_unfinished (meter : Meter) (hsink : sink.Holds (Solution.empty problem.sense))
    (hreports : ∀ s ∈ (backend.solve problem).reports, Fits sink.capacity s)
    {completion : Completion (Except Report Solution)}
    (hfinish : unfinished? (backend.solve problem).finish = some completion) :
    ∃ best left, solveInto backend meter problem sink = (completion, left) ∧
      Kept problem.sense (backend.solve problem).reports best ∧ left.Holds best := by
  have htracks := tracks_reports meter hsink hreports
  exact ⟨_, _, solveInto_of_unfinished meter hfinish, htracks.kept, htracks.holds⟩

/-- **A worker whose backend comes to a result leaves that result behind**, whatever was reported and
whatever the sink held before. -/
theorem solveInto_returned (meter : Meter) {s : Solution}
    (hfinish : (backend.solve problem).finish = .returned s) (hs : Fits sink.capacity s) :
    ∃ final left, solveInto backend meter problem sink = (.done (.ok final), left) ∧
      final.Agrees s ∧ left.Holds final ∧ left.capacity = sink.capacity := by
  rcases hprogress : afterReports backend meter problem sink with ⟨best, held, looks⟩
  have hcapacity : held.capacity = sink.capacity := by
    have hlength := capacity_afterReports backend meter problem sink
    rwa [hprogress] at hlength
  have hfits : Fits held.capacity (withUsage (meter looks) s) :=
    hcapacity.symm ▸ fits_withUsage.mpr hs
  obtain ⟨hok, hholds, hkept⟩ := Sink.holds_write hfits
  rcases hwrite : held.write (withUsage (meter looks) s) with ⟨result, left⟩
  rw [hwrite] at hok hholds hkept
  subst hok
  refine ⟨_, left, ?_, agrees_withUsage (meter looks) s, hholds, hkept.trans hcapacity⟩
  rw [afterReports] at hprogress
  simp only [solveInto, hfinish, hprogress, hwrite]

/-- A worker without space for the result of its backend fails. -/
theorem solveInto_tooLarge (meter : Meter) {s : Solution}
    (hfinish : (backend.solve problem).finish = .returned s) (hs : ¬Fits sink.capacity s) :
    ∃ r left, solveInto backend meter problem sink = (.done (.error r), left) ∧
      r.exitCode = .sharedMemory ∧ left.capacity = sink.capacity := by
  rcases hprogress : afterReports backend meter problem sink with ⟨best, held, looks⟩
  have hcapacity : held.capacity = sink.capacity := by
    have hlength := capacity_afterReports backend meter problem sink
    rwa [hprogress] at hlength
  have hfull : ¬Fits held.capacity (withUsage (meter looks) s) := by
    rw [hcapacity, fits_withUsage]
    exact hs
  obtain ⟨e, herror⟩ := Sink.write_error_of_not_fits hfull
  have hkept := Sink.capacity_write held (withUsage (meter looks) s)
  rcases hwrite : held.write (withUsage (meter looks) s) with ⟨result, left⟩
  rw [hwrite] at herror hkept
  subst herror
  let report := (Report.ofCause (.solver (.ofCodec e))).within (.text "Failed to write solution")
  refine ⟨report, left, ?_, rfl, hkept.trans hcapacity⟩
  rw [afterReports] at hprogress
  simp only [solveInto, hfinish, hprogress, hwrite, report]

end Work

end IsolatedSolving.Worker
