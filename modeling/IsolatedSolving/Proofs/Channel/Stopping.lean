import IsolatedSolving.Proofs.Channel.Exchange
import IsolatedSolving.Proofs.Wire.Interrupted

/-! A worker that is stopped while it writes results.

The writes into a sink come down to a row of single bytes (`Sink.poked_writeAll`), and a worker may be
stopped after any number of them. The caller then reads a result that the worker has written as a
whole, or nothing: `stopping`. -/
namespace IsolatedSolving.Channel

open Segment (Store)
open Wire
open Wire.Sealed (Fits NonzeroSum finished)

section Stopping
variable [Checksum]

/-- Writes in a row are their bytes in a row. -/
theorem Sink.poked_writeAll {sink : Sink} {xs : List Solution}
    (hxs : ∀ x ∈ xs, Fits sink.capacity x) :
    poked sink.region (xs.flatMap Sealed.pokes) = (sink.writeAll xs).region := by
  induction xs generalizing sink with
  | nil => rfl
  | cons x xs ih =>
    have hx := hxs x List.mem_cons_self
    obtain ⟨-, -, hcapacity⟩ := holds_write hx
    obtain ⟨hwritable, hspace⟩ := Sealed.fits_iff.mp hx
    have hfirst : poked sink.region (Sealed.pokes x) = (sink.write x).2.region := by
      rw [Sealed.poked_pokes hwritable hspace]
      simp only [Sink.write, Sealed.write_eq hwritable hspace]
    rw [List.flatMap_cons, poked_append, hfirst,
      ih fun y hy => hcapacity ▸ hxs y (List.mem_cons_of_mem x hy)]
    rfl

/-- **Stopping a worker anywhere costs at most the result it was writing.** Let a worker write any
results that fit, and stop it after any number of the bytes that this stores; no checksum of a payload
that it leaves behind is zero. Between two writes, the caller reads the last result that was written,
or the empty one. Inside a write it reads that result, or nothing, or the one that was being written.
It never fails to read, and never reads anything else. -/
theorem stopping {p parent : Parent} {store opened : Store} {problem : Problem} {name : String}
    (h : p.writeProblem store problem = (.ok name, parent, opened)) :
    ∃ child view sink, Child.openNamed opened name = .ok child ∧
      child.readProblem opened = .ok (view, parent.resultOffset, sink) ∧ view.get = problem ∧
      ∀ xs : List Solution, (∀ x ∈ xs, Fits sink.capacity x) →
        poked sink.region (xs.flatMap Sealed.pokes) = (sink.writeAll xs).region ∧
        ∀ stores left, stores <+: xs.flatMap Sealed.pokes → left = poked sink.region stores →
          NonzeroSum left →
          ∀ stopped, stopped = child.putSink opened parent.resultOffset (Sink.ofRegion left) →
          (∃ done rest, xs = done ++ rest ∧ stores = done.flatMap Sealed.pokes ∧
            parent.readSolution stopped =
              .ok (some (done.getLastD (Solution.empty problem.sense)))) ∨
          (∃ done x rest part, xs = done ++ x :: rest ∧
            stores = done.flatMap Sealed.pokes ++ part ∧ part <+: Sealed.pokes x ∧ part ≠ [] ∧
            part ≠ Sealed.pokes x ∧
            (parent.readSolution stopped =
                .ok (some (done.getLastD (Solution.empty problem.sense))) ∨
              parent.readSolution stopped = .ok none ∨
              parent.readSolution stopped = .ok (some x))) := by
  obtain ⟨child, rest, n, hopen, hlink, hn, hcarries, hlen⟩ := Parent.writeProblem_ok h
  let sink := Sink.ofRegion (finished (Solution.empty problem.sense) ++ rest)
  refine ⟨child, View.of Problem.sized problem, sink, hopen, hlink.readProblem hcarries,
    View.get_of _ _, ?_⟩
  intro xs hxs
  refine ⟨Sink.poked_writeAll hxs, ?_⟩
  rintro stores left hstores rfl hsum stopped rfl
  have hempty := (Solution.within_empty problem.columnCount problem.rowCount problem.sense).fits hn
  have hseed := Solution.recordable (Sealed.fits_iff.mp hempty).1
  have hstopped := hlink.putSink hcarries (Sink.ofRegion (poked sink.region stores))
  have hrecords : ∀ x ∈ xs, Sealed.Recordable x ∧ Fits sink.capacity x := fun x hx =>
    ⟨Solution.recordable (Sealed.fits_iff.mp (hxs x hx)).1, hxs x hx⟩
  rcases Sealed.read_poked_rows Solution.sized hseed hrecords hstores hsum with
    ⟨done, later, hxs, hdone, hlast⟩ | ⟨done, x, later, part, hxs, hdone, hpart, hnil, hall, hlast⟩
  · exact .inl ⟨done, later, hxs, hdone, hlink.readSolution_of_read hstopped hlast⟩
  · refine .inr ⟨done, x, later, part, hxs, hdone, hpart, hnil, hall, ?_⟩
    rcases hlast with hlast | hlast | hlast
    · exact .inl (hlink.readSolution_of_read hstopped hlast)
    · exact .inr (.inl (hlink.readSolution_of_torn hstopped hlast))
    · exact .inr (.inr (hlink.readSolution_of_read hstopped hlast))

end Stopping

/-- A worker that is stopped after it has stored 40 bytes of a result in place of the empty one. -/
theorem stopping_single :
    ∃ name parent opened child view sink stopped,
      (Parent.ofBase "channel" 1).writeProblem (.empty 4096) single = (.ok name, parent, opened) ∧
      Child.openNamed opened name = .ok child ∧
      child.readProblem opened = .ok (view, parent.resultOffset, sink) ∧
      stopped = child.putSink opened parent.resultOffset (Sink.ofRegion
        (poked sink.region ((Sealed.pokes (Solution.largest 1 1)).take 40))) ∧
      (parent.readSolution stopped = .ok (some (Solution.empty .minimize)) ∨
        parent.readSolution stopped = .ok none ∨
        parent.readSolution stopped = .ok (some (Solution.largest 1 1))) := by
  let written := (Parent.ofBase "channel" 1).writeProblem (.empty 4096) single
  obtain ⟨name, parent, opened, h⟩ := Parent.writeProblem_hasRoom hasRoom_single
  obtain ⟨child, view, sink, hopen, hread, -, hstops⟩ := stopping h
  have hregion : sink.region = (written.2.1.region? written.2.2).getD [] := by
    obtain ⟨opener, rest, n, hopener, hlink, -, hcarries, -⟩ := Parent.writeProblem_ok h
    cases hopen.symm.trans hopener
    cases hread.symm.trans (hlink.readProblem hcarries)
    show finished (Solution.empty single.sense) ++ rest = _
    simp only [written, h, hlink.region? hcarries, Option.getD_some]
  have hfits : ∀ x ∈ [Solution.largest 1 1], Fits sink.capacity x := by
    rw [List.forall_mem_singleton, Sink.capacity, hregion, Sealed.fits_iff]
    decide +kernel
  have hstores : (Sealed.pokes (Solution.largest 1 1)).take 40 <+:
      [Solution.largest 1 1].flatMap Sealed.pokes := by
    rw [List.flatMap_singleton]
    exact List.take_prefix _ _
  have hsum : NonzeroSum (poked sink.region ((Sealed.pokes (Solution.largest 1 1)).take 40)) := by
    rw [hregion]
    decide +kernel
  refine ⟨name, parent, opened, child, view, sink, _, h, hopen, hread, rfl, ?_⟩
  rcases (hstops _ hfits).2 _ _ hstores rfl hsum _ rfl with
    ⟨done, rest, hsplit, -, hlast⟩ | ⟨done, x, rest, part, hsplit, -, -, -, -, hlast⟩
  · rcases List.append_eq_singleton_iff.mp hsplit.symm with ⟨rfl, rfl⟩ | ⟨rfl, rfl⟩
    · exact .inl hlast
    · exact .inr (.inr hlast)
  · rcases List.append_eq_singleton_iff.mp hsplit.symm with ⟨rfl, hx⟩ | ⟨-, hx⟩
    · cases hx
      exact hlast
    · cases hx

end IsolatedSolving.Channel
