import IsolatedSolving.Proofs.Channel.Failing
import IsolatedSolving.Proofs.Worker.Interim

/-! Reports without space.

A worker compares a report with the best one that it has seen, and does not ask whether that one could be
written. So which reports are attempted is the same for every sink (`attempts_regardless`), and a report
without space keeps later ones from the sink that are worse than it, but better than anything that the caller
can read. -/
namespace IsolatedSolving.Worker

open Channel (Sink)
open Solution (bestOf)
open Wire (Checksum)
open Wire.Sealed (Fits)

section Attempts
variable [Checksum]

/-- What an attempt to write `x` comes to: it can be read, or there is no space for it and it is not
counted. -/
def Attempted (before : Sink) (x : Solution) (after : Sink) : Prop :=
  (Fits before.capacity x ∧ after.read = .ok x ∧ after.writes = before.writes + 1) ∨
    ¬Fits before.capacity x ∧ (∃ e, before.write x = (.error e, after)) ∧ after.writes = before.writes

theorem attempted_write (before : Sink) (x : Solution) :
    Attempted before x (before.write x).2 := by
  by_cases hfits : Fits before.capacity x
  · obtain ⟨-, hholds, -⟩ := Sink.holds_write hfits
    exact .inl ⟨hfits, hholds.read, Sink.writes_writeAll (List.forall_mem_singleton.mpr hfits)⟩
  · obtain ⟨e, herror⟩ := Sink.write_error_of_not_fits hfits
    have hwrite : before.write x = (.error e, (before.write x).2) := Prod.ext herror rfl
    exact .inr ⟨hfits, ⟨e, hwrite⟩, (Sink.write_error hwrite).2⟩

/-- **Whether a report is attempted does not depend on what could be written before.** After any reports,
the next one is attempted if and only if it is better than the best of them, or bears a solution where none
of them does. If it has no space, it counts as the best one from then on all the same. A worker
whose backend comes to no result leaves what the attempts left. -/
theorem attempts_regardless (meter : Meter) (sink : Sink) :
    (∀ (sense : Sense) (done : List Solution) (c : Solution),
      Kept sense done (bestOf sense done) ∧
      ((c.isBetter (bestOf sense done) sense = false ∧ bestOf sense (done ++ [c]) = bestOf sense done ∧
          sinkAfter meter sense sink (done ++ [c]) = sinkAfter meter sense sink done) ∨
        c.isBetter (bestOf sense done) sense = true ∧ bestOf sense (done ++ [c]) = c ∧
          ∃ x, x.Agrees c ∧ Attempted (sinkAfter meter sense sink done) x
            (sinkAfter meter sense sink (done ++ [c])))) ∧
    ∀ (backend : Backend) (problem : Problem) (completion : Completion (Except Report Solution)),
      unfinished? (backend.solve problem).finish = some completion →
      solveInto backend meter problem sink =
        (completion, sinkAfter meter problem.sense sink (backend.solve problem).reports) := by
  refine ⟨fun sense done c => ⟨kept_bestOf sense done, ?_⟩,
    fun backend problem completion hfinish => solveInto_of_unfinished meter hfinish⟩
  cases hbetter : c.isBetter (bestOf sense done) sense with
  | false =>
    exact .inl ⟨rfl, Solution.bestOf_concat_of_not hbetter,
      sinkAfter_concat_of_not meter sink hbetter⟩
  | true =>
    have hafter := sinkAfter_concat_of_better meter sink hbetter
    exact .inr ⟨rfl, Solution.bestOf_concat_of_better hbetter, _, agrees_withUsage _ c,
      hafter ▸ attempted_write _ _⟩

end Attempts

/-- A report with a dual value, for which the sink has no space. -/
def oversized : Solution := { interim .one with duals := [⟨0x3fe0000000000000⟩] }

/-- A report with a worse objective, for which it has. -/
def modest : Solution := interim ⟨0x4000000000000000⟩

/-- Nothing was written before the second report, which bears a solution and has space. It is not
attempted, and the caller can read nothing. -/
theorem modest_suppressed :
    ¬Fits roomy.capacity oversized ∧ Fits roomy.capacity modest ∧ modest.bearsSolution = true ∧
      ∃ report left,
        solveInto (.constant "oversized" ⟨[oversized, modest], .failed .outOfMemory⟩) .still
          Channel.single roomy = (.done (.error report), left) ∧
        left = sinkAfter .still .minimize roomy [oversized] ∧ left.writes = 0 ∧
        left.read = .error .torn := by
  have hfull : ¬Fits roomy.capacity oversized := by
    rw [capacity_roomy, Wire.Sealed.fits_iff]
    decide
  have hbetter : oversized.isBetter (bestOf .minimize []) .minimize = true := by decide
  have hworse : modest.isBetter (bestOf .minimize [oversized]) .minimize = false := by decide
  let attempt := withUsage (Meter.still 0) oversized
  have hfirst : sinkAfter .still .minimize roomy [oversized] = (roomy.write attempt).2 :=
    sinkAfter_concat_of_better .still roomy hbetter
  have hsecond : sinkAfter .still .minimize roomy [oversized, modest] = (roomy.write attempt).2 :=
    (sinkAfter_concat_of_not .still roomy hworse).trans hfirst
  obtain ⟨e, herror⟩ := Sink.write_error_of_not_fits (mt fits_withUsage.mp hfull)
  have hwrite : roomy.write attempt = (.error e, (roomy.write attempt).2) := Prod.ext herror rfl
  obtain ⟨hregion, hwrites⟩ := Sink.write_error hwrite
  obtain ⟨-, -, htorn⟩ := Wire.Sealed.torn_of_write_error holds_roomy.read hregion
  refine ⟨hfull, fits_roomy ⟨Nat.le_refl 1, Nat.le_refl 0⟩, rfl,
    .ofCause (.backend .outOfMemory), (roomy.write attempt).2, ?_, hfirst.symm, hwrites,
    htorn (by decide +kernel)⟩
  rw [← hsecond]
  exact solveInto_of_unfinished .still rfl

/-- A better report is written after one that there was no space for, and is what the worker leaves. -/
theorem attempts_regardless_oversized :
    ∃ report left x,
      solveInto (.constant "oversized" ⟨[oversized, interim .zero], .failed .outOfMemory⟩) .still
        Channel.single roomy = (.done (.error report), left) ∧
      left.read = .ok x ∧ x.Agrees (interim .zero) := by
  obtain ⟨hreports, hleft⟩ := attempts_regardless .still roomy
  obtain ⟨-, ⟨hnot, -, -⟩ | ⟨-, -, x, hx, hattempted⟩⟩ := hreports .minimize [oversized] (interim .zero)
  · exact absurd hnot (by decide)
  · have hfits : Fits (sinkAfter .still .minimize roomy [oversized]).capacity x := by
      rw [capacity_sinkAfter]
      exact fits_roomy ⟨hx.values ▸ Nat.le_refl 1, hx.duals ▸ Nat.le_refl 0⟩
    rcases hattempted with ⟨-, hread, -⟩ | ⟨hfull, -⟩
    · exact ⟨_, _, x, hleft (.constant "oversized" _) Channel.single _ rfl, hread, hx⟩
    · exact absurd hfits hfull

end IsolatedSolving.Worker
