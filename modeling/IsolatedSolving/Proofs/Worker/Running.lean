import IsolatedSolving.Proofs.Problem.Consistency
import IsolatedSolving.Proofs.Worker.Reports
import IsolatedSolving.Supervision.Launch

/-! What a worker makes of the segment that it is given.

`verdict` says what should become of a problem on which the backend comes to a result. A worker on a
written segment exits with the code of the verdict and leaves a result that can be read
(`run_verdict`); one that is taken away before it is done leaves the best report (`run_unfinished`).
The caller gets to know a worker's own code as it was meant (`exitCode_exiting`), and the end of a
worker that goes on for ever as a kill at the limit (`waitFor_hanging`). -/
namespace IsolatedSolving

/-! ### Verdicts -/

/-- The end of a backend that comes to a result. -/
def Finish.ofResult : Except BackendError Solution → Finish
  | .ok s => .returned s
  | .error e => .failed e

/-- What should become of a problem on which the backend comes to this result: the backend sees it
only if its parts fit together and its start is good. -/
def verdict (p : Problem) (result : Except BackendError Solution) : Except BackendError Solution :=
  match p.validate with
  | .error d => .error (.model d.message)
  | .ok () =>
    match p.checkStart with
    | .error (.error d) => .error (.invalidStart d.message)
    | .error (.fault _) | .ok () => result

/-- The backend gets to see the problem. -/
def Problem.Accepted (p : Problem) : Prop := p.validate = .ok () ∧ p.checkStart = .ok ()

/-- A problem is accepted, or has a defect, or has a bad start. -/
theorem Problem.accepted_cases (p : Problem) :
    p.Accepted ∨ (∃ d, p.validate = .error d) ∨
      p.validate = .ok () ∧ ∃ d, p.checkStart = .error (.error d) := by
  cases hvalid : p.validate with
  | error d => exact .inr (.inl ⟨d, rfl⟩)
  | ok _ =>
    cases hstart : p.checkStart with
    | ok _ => exact .inl ⟨hvalid, hstart⟩
    | error stop =>
      cases stop with
      | error d => exact .inr (.inr ⟨rfl, d, rfl⟩)
      | fault f =>
        have hconsistent := Problem.validate_eq_ok_iff.mp hvalid
        exact absurd hstart (Problem.noFault_checkStart hconsistent f)

theorem verdict_of_accepted {p : Problem} (h : p.Accepted) (result : Except BackendError Solution) :
    verdict p result = result := by
  simp only [verdict, h.1, h.2]

/-- What the backend does not get to see is refused for the problem or for its start. -/
theorem verdict_of_not_accepted {p : Problem} (h : ¬p.Accepted)
    (result : Except BackendError Solution) :
    ∃ text, verdict p result = .error (.model text) ∨
      verdict p result = .error (.invalidStart text) := by
  rcases p.accepted_cases with ha | ⟨d, hvalid⟩ | ⟨hvalid, d, hstart⟩
  · exact absurd ha h
  · exact ⟨d.message, .inl (by simp only [verdict, hvalid])⟩
  · exact ⟨d.message, .inr (by simp only [verdict, hvalid, hstart])⟩

/-- The exit code for a verdict. -/
def codeOf : Except BackendError Solution → ExitCode
  | .ok _ => .ok
  | .error e => e.exitCode

namespace Worker

open Channel (Carries Child Link Parent Sink)
open Segment (Store)
open Supervision (Mode Outcome waitFor)
open Wire
open Wire.Sealed (Fits finished)

/-! ### Vetting -/

theorem vet_of_accepted {p : Problem} (h : p.Accepted) : vet p = .ok () := by
  rw [vet, h.1, Problem.checkStartError, h.2]
  rfl

/-- A problem with a defect is refused with the code for models. -/
theorem vet_invalid {p : Problem} {d : Defect} (h : p.validate = .error d) :
    ∃ r, vet p = .error (.error r) ∧ r.exitCode = .model := by
  let report := Report.ofCause (.backend (.model (SolverError.model d.message).message))
  refine ⟨report.within (.text "Invalid problem"), ?_, rfl⟩
  rw [vet, h]
  rfl

/-- A problem with a bad start is refused with the code for starts. -/
theorem vet_badStart {p : Problem} {d : StartDefect} (hvalid : p.validate = .ok ())
    (hstart : p.checkStart = .error (.error d)) :
    ∃ r, vet p = .error (.error r) ∧ r.exitCode = .invalidStart := by
  refine ⟨.ofCause (.backend (.invalidStart d.message)), ?_, rfl⟩
  rw [vet, hvalid, Problem.checkStartError, hstart]
  rfl

/-- A problem is accepted and left to the backend, or the verdict is certain and the worker's report
carries its code. -/
theorem vet_spec (p : Problem) :
    (p.Accepted ∧ vet p = .ok ()) ∨
      ∃ r e, vet p = .error (.error r) ∧ r.exitCode = e.exitCode ∧
        ∀ result, verdict p result = .error e := by
  rcases p.accepted_cases with ha | ⟨d, hvalid⟩ | ⟨hvalid, d, hstart⟩
  · exact .inl ⟨ha, vet_of_accepted ha⟩
  · obtain ⟨r, hvet, hcode⟩ := vet_invalid hvalid
    refine .inr ⟨r, .model d.message, hvet, hcode, fun result => ?_⟩
    rw [verdict, hvalid]
  · obtain ⟨r, hvet, hcode⟩ := vet_badStart hvalid hstart
    refine .inr ⟨r, .invalidStart d.message, hvet, hcode, fun result => ?_⟩
    simp only [verdict, hvalid, hstart]

/-! ### On a received problem -/

section Received
variable {child : Child} {store : Store} {name : String} {p : Problem} {offset : Nat} {sink : Sink}

theorem receive_of_read (hopen : Child.openNamed store name = .ok child) {view : View Problem}
    (hread : child.readProblem store = .ok (view, offset, sink)) :
    receive store name = .ok (child, view.get, offset, sink) := by
  simp only [receive, hopen, hread, mapError_ok, bind, Except.bind]
  rfl

variable [Checksum]

/-- A worker that does not accept its problem leaves everything as it was. -/
theorem run_refused (hreceive : receive store name = .ok (child, p, offset, sink))
    (backend : Backend) (meter : Meter) {r : Report} (hvet : vet p = .error (.error r)) :
    run backend meter [name] store = (.done r.exitCode, store) := by
  simp only [run, hreceive, hvet]

/-- A worker that accepts its problem works on it, and puts back what it has made of its sink. -/
theorem run_accepted (hreceive : receive store name = .ok (child, p, offset, sink))
    {backend : Backend} {meter : Meter} (hvet : vet p = .ok ())
    {completion : Completion (Except Report Solution)} {left : Sink}
    (hwork : solveInto backend meter p sink = (completion, left)) :
    run backend meter [name] store = (completion.exitCode, child.putSink store offset left) := by
  simp only [run, hreceive, hvet, hwork]

end Received

/-! ### On a written segment -/

section Written
variable {parent : Parent} {child : Child} {problem : Problem} {store : Store} {name : String}

/-- A worker receives the problem that was written. -/
theorem receive_written (hopen : Child.openNamed store name = .ok child)
    (hlink : Link parent child problem) {region : List UInt8}
    (hcarries : Carries store child problem region) :
    receive store name = .ok (child, problem, parent.resultOffset, Sink.ofRegion region) := by
  rw [receive_of_read hopen (hlink.readProblem hcarries), View.get_of]

variable [Checksum] {rest : List UInt8}

/-- What a worker that is taken away leaves behind. -/
theorem run_unfinished (hopen : Child.openNamed store name = .ok child)
    (hlink : Link parent child problem)
    (hcarries : Carries store child problem (finished (Solution.empty problem.sense) ++ rest))
    (haccepted : problem.Accepted) {backend : Backend} (meter : Meter)
    (hreports : ∀ s ∈ (backend.solve problem).reports,
      Fits (finished (Solution.empty problem.sense) ++ rest).length s)
    {completion : Completion (Except Report Solution)}
    (hfinish : unfinished? (backend.solve problem).finish = some completion) :
    ∃ best left, run backend meter [name] store = (completion.exitCode, left) ∧
      parent.readSolution left = .ok (some best) ∧
      Kept problem.sense (backend.solve problem).reports best := by
  have hsink : (Sink.ofRegion (finished (Solution.empty problem.sense) ++ rest)).Holds
      (Solution.empty problem.sense) :=
    ⟨Solution.writable_empty problem.sense, rest, rfl⟩
  obtain ⟨best, left, hwork, hkept, hbest, more, hregion⟩ :=
    solveInto_unfinished meter hsink hreports hfinish
  have hreceive := receive_written hopen hlink hcarries
  refine ⟨best, _, run_accepted hreceive (vet_of_accepted haccepted) hwork, ?_, hkept⟩
  exact hlink.readSolution hbest (hregion ▸ hlink.putSink hcarries left)

/-- **A worker exits with the code of the verdict**, and if that is a result, leaves it behind. -/
theorem run_verdict (hopen : Child.openNamed store name = .ok child)
    (hlink : Link parent child problem)
    (hcarries : Carries store child problem (finished (Solution.empty problem.sense) ++ rest))
    {backend : Backend} (meter : Meter) {result : Except BackendError Solution}
    (hfinish : (backend.solve problem).finish = .ofResult result)
    (hreports : ∀ s ∈ (backend.solve problem).reports,
      Fits (finished (Solution.empty problem.sense) ++ rest).length s)
    (hresult : ∀ s, result = .ok s →
      Fits (finished (Solution.empty problem.sense) ++ rest).length s) :
    ∃ kept left, run backend meter [name] store =
        (.done (codeOf (verdict problem result)), left) ∧
      parent.readSolution left = .ok (some kept) ∧
      ∀ s, verdict problem result = .ok s → kept.Agrees s := by
  have hempty := Solution.writable_empty problem.sense
  have hreceive := receive_written hopen hlink hcarries
  have hsink : (Sink.ofRegion (finished (Solution.empty problem.sense) ++ rest)).Holds
      (Solution.empty problem.sense) := ⟨hempty, rest, rfl⟩
  rcases vet_spec problem with ⟨haccepted, hvet⟩ | ⟨r, e, hvet, hcode, hverdict⟩
  · rw [verdict_of_accepted haccepted]
    cases result with
    | ok s =>
      obtain ⟨final, left, hwork, hagrees, ⟨hfinal, more, hregion⟩, -⟩ :=
        solveInto_returned meter hfinish
          (show Fits (Sink.ofRegion (finished _ ++ rest)).capacity s from hresult s rfl)
      refine ⟨final, _, run_accepted hreceive hvet hwork, ?_, ?_⟩
      · exact hlink.readSolution hfinal (hregion ▸ hlink.putSink hcarries left)
      · rintro s ⟨⟩
        exact hagrees
    | error e =>
      have hend : unfinished? (backend.solve problem).finish =
          some (.done (.error (.ofCause (.backend e)))) := by
        rw [hfinish]
        rfl
      obtain ⟨best, left, hwork, -, hbest, more, hregion⟩ :=
        solveInto_unfinished meter hsink hreports hend
      refine ⟨best, _, run_accepted hreceive hvet hwork, ?_, ?_⟩
      · exact hlink.readSolution hbest (hregion ▸ hlink.putSink hcarries left)
      · rintro s ⟨⟩
  · rw [hverdict]
    refine ⟨Solution.empty problem.sense, store, ?_, hlink.readSolution hempty hcarries, ?_⟩
    · rw [run_refused hreceive backend meter hvet, hcode]
      rfl
    · rintro s ⟨⟩

end Written

/-! ### Ends -/

/-- The codes that workers exit with come through, although the system keeps only eight bits. -/
theorem exitCode_exiting :
    ∀ c ∈ [ExitCode.ok, .outOfMemory, .commandLine, .sharedMemory, .model, .solver, .invalidStart],
      (ProcessEnd.exiting c.raw).exitCode = c := by
  decide

theorem exitCode_exiting_codeOf (v : Except BackendError Solution) :
    (ProcessEnd.exiting (codeOf v).raw).exitCode = codeOf v := by
  refine exitCode_exiting (codeOf v) ?_
  cases v with
  | ok s => exact List.mem_cons_self
  | error e => cases e <;> simp [codeOf, BackendError.exitCode]

end Worker

namespace Supervision

open Worker (Ending)

/-- A worker that ends has its end classified, whatever the limit is. -/
theorem waitFor_ended (mode : Mode) (e : ProcessEnd) (poll : Nat) (limit : Option Nat) :
    waitFor mode (.ended e) poll limit = .ok (.ofEnd e) := by
  cases mode with
  | looking => rfl
  | told => cases limit <;> rfl

/-- Without a limit, the wait for a worker that goes on for ever does so too. -/
theorem waitFor_endless (mode : Mode) (poll : Nat) :
    waitFor mode .hanging poll none = .error (.fault .endless) := by
  cases mode <;> rfl

/-- A look at a worker that goes on for ever. -/
theorem attend_hanging (poll limit look elapsed : Nat) :
    attend (childOf .hanging) poll (some limit) look elapsed =
      if limit ≤ elapsed then ([.looked, .killed true, .reaped], .ends (.ok .outOfTime))
      else ([.looked, .slept (Nat.min poll (limit - elapsed))],
        .sleeps (Nat.min poll (limit - elapsed))) := by
  by_cases h : limit ≤ elapsed
  · simp only [attend, childOf, nap?, if_pos h, killing]
    rfl
  · simp only [attend, childOf, nap?, if_neg h]

/-- A worker that goes on for ever is killed at the limit. -/
theorem waitFor_hanging (mode : Mode) (poll limit : Nat) :
    waitFor mode .hanging poll (some limit) = .ok .outOfTime := by
  cases mode with
  | told => rfl
  | looking =>
    have hclock : limitClock (some limit) 1 = limit := Nat.one_mul limit
    by_cases hnow : limit ≤ limitClock (some limit) 0
    · simp only [waitFor, watch, attend_hanging, if_pos hnow]
      rfl
    · simp only [waitFor, watch, attend_hanging, if_neg hnow, hclock, Nat.le_refl, if_true]
      rfl

end Supervision

end IsolatedSolving
