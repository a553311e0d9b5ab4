import IsolatedSolving.Proofs.Channel.Opening

/-! What goes through a channel.

A sink holds one finished record at any time. A write with enough space replaces it
(`Sink.holds_write`), and so do writes in a row (`Sink.holds_writeAll`): the last one counts, whatever
the lengths of the ones before. Since a sink lies behind the problem and its length never changes, the
problem is read from the block at any time, which is `exchange`. -/
namespace IsolatedSolving.Channel

open Segment (Store)
open Wire
open Wire.Sealed (Fits finished recordLength)

namespace Sink

variable [Checksum]

/-! ### Writing into a sink -/

/-- The sink starts with the finished record of this result. -/
structure Holds (sink : Sink) (s : Solution) : Prop where
  writable : Writable s
  region : ∃ rest, sink.region = finished s ++ rest

/-- A write with enough space succeeds, and the sink holds what was written. -/
theorem holds_write {sink : Sink} {x : Solution} (h : Fits sink.capacity x) :
    (sink.write x).1 = .ok () ∧ (sink.write x).2.Holds x ∧
      (sink.write x).2.capacity = sink.capacity := by
  obtain ⟨hx, hspace⟩ := Sealed.fits_iff.mp h
  simp only [Sink.write, Sealed.write_eq hx hspace]
  refine ⟨True.intro, ⟨hx, _, rfl⟩, ?_⟩
  simp only [capacity, List.length_append, Sealed.length_finished, List.length_drop] at hspace ⊢
  omega

/-- A sink keeps its length, whether a write succeeds or not. -/
theorem capacity_write (sink : Sink) (x : Solution) : (sink.write x).2.capacity = sink.capacity := by
  have hlength := Sealed.length_write sink.region x
  rw [Sink.write]
  split
  · next hwrite =>
    rw [hwrite] at hlength
    exact hlength
  · next hwrite =>
    rw [hwrite] at hlength
    exact hlength

/-- A write without enough space fails. -/
theorem write_error_of_not_fits {sink : Sink} {x : Solution} (h : ¬Fits sink.capacity x) :
    ∃ e, (sink.write x).1 = .error e := by
  rw [Sink.write]
  split
  · next hwrite => exact absurd (Sealed.fits_of_write hwrite) h
  · next e _ _ => exact ⟨e, rfl⟩

/-- Writes in a row leave the last result. -/
theorem holds_writeAll {sink : Sink} {seed : Solution} (h : sink.Holds seed) {xs : List Solution}
    (hxs : ∀ x ∈ xs, Fits sink.capacity x) :
    (sink.writeAll xs).Holds (xs.getLastD seed) ∧
      (sink.writeAll xs).capacity = sink.capacity := by
  induction xs generalizing sink seed with
  | nil => exact ⟨h, rfl⟩
  | cons x xs ih =>
    obtain ⟨-, hheld, hcapacity⟩ := holds_write (hxs x List.mem_cons_self)
    have hrest := ih hheld fun y hy => hcapacity ▸ hxs y (List.mem_cons_of_mem x hy)
    rw [hcapacity] at hrest
    rw [List.getLastD_cons]
    exact hrest

/-- Writes with enough space are all counted. -/
theorem writes_writeAll {sink : Sink} {xs : List Solution} (h : ∀ x ∈ xs, Fits sink.capacity x) :
    (sink.writeAll xs).writes = sink.writes + xs.length := by
  induction xs generalizing sink with
  | nil => rfl
  | cons x xs ih =>
    have hx := h x List.mem_cons_self
    obtain ⟨hwritable, hspace⟩ := Sealed.fits_iff.mp hx
    have hfirst : (sink.write x).2.writes = sink.writes + 1 := by
      simp only [Sink.write, Sealed.write_eq hwritable hspace]
    obtain ⟨-, -, hcapacity⟩ := holds_write hx
    have hrest := ih fun y hy => hcapacity ▸ h y (List.mem_cons_of_mem x hy)
    calc (sink.writeAll (x :: xs)).writes
        = ((sink.write x).2.writeAll xs).writes := rfl
      _ = sink.writes + (xs.length + 1) := by rw [hrest, hfirst, Nat.add_assoc, Nat.add_comm 1]

/-- What a sink holds can be read from it. -/
theorem Holds.read {sink : Sink} {s : Solution} (h : sink.Holds s) : sink.read = .ok s := by
  obtain ⟨hs, rest, hregion⟩ := h
  rw [Sink.read, hregion]
  exact Sealed.read_finished Solution.sized (Solution.recordable hs) rest

end Sink

/-! ### Caller and worker -/

section Exchange
variable [Checksum]

/-- **Caller and worker understand each other.** Once a problem is written, a worker that opens the
name reads exactly that problem, finds its end where the caller does, and has a sink of the length
that the largest result needs. Results within the counts of the problem can then be written one over
the other: every write succeeds, the problem is read as before, and the caller reads the last result,
or an empty one if there is none. -/
theorem exchange {p parent : Parent} {store opened : Store} {problem : Problem} {name : String}
    (h : p.writeProblem store problem = (.ok name, parent, opened)) :
    ∃ child view sink n, Child.openNamed opened name = .ok child ∧
      child.readProblem opened = .ok (view, parent.resultOffset, sink) ∧ view.get = problem ∧
      encodedLength (Solution.largest problem.columnCount problem.rowCount) = .ok n ∧
      sink.capacity = recordLength n ∧
      ∀ xs : List Solution,
        (∀ x ∈ xs, x.Within problem.columnCount problem.rowCount) →
        (∀ done x rest, xs = done ++ x :: rest → ((sink.writeAll done).write x).1 = .ok ()) ∧
        ∀ later, later = child.putSink opened parent.resultOffset (sink.writeAll xs) →
          (later.bytes child.segment).take parent.resultOffset =
            (opened.bytes child.segment).take parent.resultOffset ∧
          child.readProblem later =
            .ok (view, parent.resultOffset, Sink.ofRegion (sink.writeAll xs).region) ∧
          parent.readSolution later = .ok (some (xs.getLastD (Solution.empty problem.sense))) := by
  obtain ⟨child, rest, n, hopen, hlink, hn, hcarries, hlen⟩ := Parent.writeProblem_ok h
  let sink := Sink.ofRegion (finished (Solution.empty problem.sense) ++ rest)
  have hcapacity : sink.capacity = recordLength n := hlen
  have hfits {x : Solution} (hx : x.Within problem.columnCount problem.rowCount) :
      Fits sink.capacity x := by
    rw [hcapacity]
    exact hx.fits hn
  have hseed : sink.Holds (Solution.empty problem.sense) :=
    ⟨(Sealed.fits_iff.mp (hfits (Solution.within_empty _ _ _))).1, rest, rfl⟩
  refine ⟨child, View.of Problem.sized problem, sink, n, hopen, hlink.readProblem hcarries,
    View.get_of _ _, (Solution.encodedLength_largest _ _).trans hn, hcapacity, ?_⟩
  intro xs hxs
  constructor
  · rintro done x more rfl
    obtain ⟨-, hkept⟩ := Sink.holds_writeAll hseed fun y hy =>
      hfits (hxs y (List.mem_append_left _ hy))
    have hx := hfits (hxs x (List.mem_append_right _ List.mem_cons_self))
    exact (Sink.holds_write (hkept ▸ hx)).1
  · rintro later rfl
    obtain ⟨⟨hlast, left, hleft⟩, -⟩ := Sink.holds_writeAll hseed fun y hy => hfits (hxs y hy)
    have hlater := hlink.putSink hcarries (sink.writeAll xs)
    refine ⟨?_, hlink.readProblem hlater, ?_⟩
    · rw [hlater.bytes, hcarries.bytes, hlink.offset, List.take_left' (length_image _),
        List.take_left' (length_image _)]
    · exact hlink.readSolution hlast (hleft ▸ hlater)

end Exchange

/-- A result with a value, and one without over it. -/
theorem exchange_single :
    ∃ name parent opened child view sink,
      (Parent.ofBase "channel" 1).writeProblem (.empty 4096) single = (.ok name, parent, opened) ∧
      Child.openNamed opened name = .ok child ∧
      child.readProblem opened = .ok (view, parent.resultOffset, sink) ∧ view.get = single ∧
      parent.readSolution (child.putSink opened parent.resultOffset
        (sink.writeAll [Solution.largest 1 1, Solution.empty .maximize])) =
          .ok (some (Solution.empty .maximize)) := by
  obtain ⟨name, parent, opened, h⟩ := Parent.writeProblem_hasRoom hasRoom_single
  obtain ⟨child, view, sink, _, hopen, hread, hview, -, -, hresults⟩ := exchange h
  have hwithin : ∀ x ∈ [Solution.largest 1 1, Solution.empty .maximize],
      x.Within single.columnCount single.rowCount :=
    List.forall_mem_cons.mpr ⟨⟨by decide, by decide⟩,
      List.forall_mem_singleton.mpr (Solution.within_empty _ _ _)⟩
  obtain ⟨-, hlater⟩ := hresults _ hwithin
  exact ⟨name, parent, opened, child, view, sink, h, hopen, hread, hview, (hlater _ rfl).2.2⟩

end IsolatedSolving.Channel
