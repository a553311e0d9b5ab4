import IsolatedSolving.Proofs.Wire.InPlace
import IsolatedSolving.Proofs.Wire.Locality
import IsolatedSolving.Proofs.Worker.Running

/-! How a worker classifies its work.

A worker may be given any arguments and any bytes. Either it was called wrongly, or there is nothing to
read, or it `Finds` a problem, which it finds in one way only; from then on its exit code follows from
the problem, its backend and the space behind the problem (`Classified`). It changes nothing before it
has handed an accepted problem to its backend, and nothing but the space behind the problem afterwards
(`Contained`). Both hold whatever was in the segment before (`run_classified`). -/
namespace IsolatedSolving

/-- The backend gives its worker an answer: it returns, fails or breaks off. It does not take the process
with it, and it ends. -/
inductive Finish.Answers : Finish → Prop
  | returned (s : Solution) : Answers (.returned s)
  | failed (e : BackendError) : Answers (.failed e)
  | brokeOff (text : Option String) : Answers (.brokeOff text)

namespace Worker

open Channel (Child Sink)
open Segment (Mapping Store)
open Wire
open Wire.Sealed (Fits)

/-! ### What a worker is given -/

/-- The only argument names a segment that begins with this problem and has other bytes from this offset
on. -/
structure Finds (store : Store) (arguments : List String) (child : Child) (p : Problem)
    (offset : Nat) : Prop where
  named : ∃ name, arguments = [name] ∧ Child.openNamed store name = .ok child
  begins : ∃ view, decodeView Problem (store.bytes child.segment) 0 = .ok (view, offset) ∧ view.get = p

/-- The only argument names no segment that can be opened, or one that does not begin with a problem. -/
def Unreadable (store : Store) (arguments : List String) : Prop :=
  ∃ name, arguments = [name] ∧ ((∃ e, Child.openNamed store name = .error e) ∨
    ∃ child e, Child.openNamed store name = .ok child ∧
      decodeView Problem (store.bytes child.segment) 0 = .error e)

/-- The worker finds a problem that is like this, with so much space behind it. -/
def Meets (store : Store) (arguments : List String) (like : Problem → Nat → Prop) : Prop :=
  ∃ child p offset, Finds store arguments child p offset ∧
    like p ((store.bytes child.segment).length - offset)

theorem capacity_ofRegion_drop (bytes : List UInt8) (offset : Nat) :
    (Sink.ofRegion (bytes.drop offset)).capacity = bytes.length - offset := List.length_drop

/-- A worker is called wrongly, or has nothing to read, or finds a problem. -/
theorem given_cases (store : Store) (arguments : List String) :
    arguments.length ≠ 1 ∨ Unreadable store arguments ∨
      ∃ child p offset, Finds store arguments child p offset := by
  by_cases hone : arguments.length = 1
  · obtain ⟨name, rfl⟩ := List.length_eq_one_iff.mp hone
    refine .inr ?_
    cases hopen : Child.openNamed store name with
    | error e => exact .inl ⟨name, rfl, .inl ⟨e, hopen⟩⟩
    | ok child =>
      cases hview : decodeView Problem (store.bytes child.segment) 0 with
      | error e => exact .inl ⟨name, rfl, .inr ⟨child, e, hopen, hview⟩⟩
      | ok found =>
        obtain ⟨view, offset⟩ := found
        exact .inr ⟨child, view.get, offset, ⟨name, rfl, hopen⟩, view, hview, rfl⟩
  · exact .inl hone

section Given
variable {store : Store} {arguments : List String} {child child' : Child} {p p' : Problem}
  {offset offset' : Nat}

namespace Finds

/-- A problem is found in one way only. -/
theorem unique (h : Finds store arguments child p offset)
    (h' : Finds store arguments child' p' offset') : child' = child ∧ p' = p ∧ offset' = offset := by
  obtain ⟨⟨name, rfl, hopen⟩, view, hview, rfl⟩ := h
  obtain ⟨⟨name', hname, hopen'⟩, view', hview', rfl⟩ := h'
  cases hname
  cases hopen.symm.trans hopen'
  cases hview.symm.trans hview'
  exact ⟨rfl, rfl, rfl⟩

theorem meets_iff (h : Finds store arguments child p offset) {like : Problem → Nat → Prop} :
    Meets store arguments like ↔ like p ((store.bytes child.segment).length - offset) := by
  constructor
  · rintro ⟨child', p', offset', h', hlike⟩
    obtain ⟨rfl, rfl, rfl⟩ := h.unique h'
    exact hlike
  · intro hlike
    exact ⟨child, p, offset, h, hlike⟩

theorem length_arguments (h : Finds store arguments child p offset) : arguments.length = 1 := by
  obtain ⟨⟨name, rfl, -⟩, -⟩ := h
  rfl

theorem not_unreadable (h : Finds store arguments child p offset) : ¬Unreadable store arguments := by
  rintro ⟨name', hname, hfails⟩
  obtain ⟨⟨name, rfl, hopen⟩, view, hview, -⟩ := h
  cases hname
  rcases hfails with ⟨e, herror⟩ | ⟨other, e, hother, herror⟩
  · cases hopen.symm.trans herror
  · cases hopen.symm.trans hother
    cases hview.symm.trans herror

/-- The problem lies within the bytes of the segment. -/
theorem offset_le (h : Finds store arguments child p offset) :
    offset ≤ (store.bytes child.segment).length := by
  obtain ⟨-, view, hview, -⟩ := h
  have hcounted : decodeCounted Problem (store.bytes child.segment) = .ok (view.get, offset) := by
    rw [← (decodeView_cases (α := Problem) _ 0).resolve_right (fun hbad => hbad.1 rfl), hview]
    rfl
  exact (makesUp_of_decodeCounted Problem.sized hcounted).inBounds

/-- No problem is found in a block that is not in use. -/
theorem inUse (h : Finds store arguments child p offset) :
    child.segment.block < store.blocks.length := by
  refine Nat.lt_of_not_le fun hout => ?_
  obtain ⟨-, view, hview, -⟩ := h
  have hnone : store.bytes child.segment = [] := by
    rw [Store.bytes, List.getD_eq_getElem?_getD, List.getElem?_eq_none hout,
      Option.getD_none]
  rw [hnone] at hview
  cases hview

/-- A worker receives the problem that it finds, with all bytes behind it as the region for results. -/
theorem receive_eq (h : Finds store arguments child p offset) :
    ∃ name, arguments = [name] ∧ receive store name = .ok (child, p, offset,
      Sink.ofRegion ((store.bytes child.segment).drop offset)) := by
  obtain ⟨⟨name, hname, hopen⟩, view, hview, rfl⟩ := h
  refine ⟨name, hname, receive_of_read hopen ?_⟩
  rw [Child.readProblem, problemIn_eq, hview, mapError_ok]
  rfl

end Finds

theorem not_finds_of_misused (h : arguments.length ≠ 1) (child : Child) (p : Problem) (offset : Nat) :
    ¬Finds store arguments child p offset :=
  fun hfinds => h hfinds.length_arguments

theorem not_meets (h : ∀ child p offset, ¬Finds store arguments child p offset)
    (like : Problem → Nat → Prop) : ¬Meets store arguments like := by
  rintro ⟨child, p, offset, hfinds, -⟩
  exact h child p offset hfinds

/-- A worker that has nothing to read takes it for a failed transport. -/
theorem Unreadable.receive_eq (h : Unreadable store arguments) :
    ∃ name r, arguments = [name] ∧ receive store name = .error r ∧ r.exitCode = .sharedMemory := by
  obtain ⟨name, rfl, ⟨e, hopen⟩ | ⟨child, e, hopen, hview⟩⟩ := h
  · obtain ⟨text, rfl⟩ : ∃ text, e = .transport text := by
      rw [Child.openNamed] at hopen
      cases hmap : (store.openNamed name).map Child.mk with
      | ok made => rw [hmap] at hopen; cases hopen
      | error found =>
        rw [hmap, mapError_error] at hopen
        cases hopen
        exact ⟨_, rfl⟩
    let report := (Report.ofCause (.solver (.transport text))).within
      (.text s!"Failed to open shared memory {name}")
    refine ⟨name, report, rfl, ?_, rfl⟩
    simp only [Worker.receive, hopen, mapError_error, bind, Except.bind, report]
  · let report := (Report.ofCause (.solver (.ofCodec e))).within
      (.text "Failed to read problem from shared memory")
    have hread : child.readProblem store = .error (.ofCodec e) := by
      rw [Child.readProblem, problemIn_eq, hview, mapError_error]
      rfl
    refine ⟨name, report, rfl, ?_, rfl⟩
    simp only [Worker.receive, hopen, hread, mapError_ok, mapError_error, bind, Except.bind, report]

end Given

/-! ### What a backend answers -/

/-- The code for what a backend does last, with so much space for its result. There is none for a
backend that gives no answer. -/
inductive Concludes (space : Nat) : Finish → ExitCode → Prop
  | returned {s : Solution} (hs : Fits space s) : Concludes space (.returned s) .ok
  | tooLarge {s : Solution} (hs : ¬Fits space s) : Concludes space (.returned s) .sharedMemory
  | failed (e : BackendError) : Concludes space (.failed e) e.exitCode
  | brokeOff (text : Option String) : Concludes space (.brokeOff text) .solver

section Work
variable [Checksum] {backend : Backend} {p : Problem} {sink : Sink}

/-- The work on an accepted problem, whatever the sink holds and whatever is reported on the way. -/
theorem solveInto_concludes (meter : Meter) (hanswers : (backend.solve p).finish.Answers) :
    ∃ completion left code, solveInto backend meter p sink = (completion, left) ∧
      completion.exitCode = .done code ∧ Concludes sink.capacity (backend.solve p).finish code ∧
      left.capacity = sink.capacity ∧
      (code = .ok → ∀ s, (backend.solve p).finish = .returned s →
        ∃ kept, Sealed.read Solution left.region = .ok kept ∧ kept.Agrees s) := by
  have hkept := capacity_afterReports backend meter p sink
  cases hfinish : (backend.solve p).finish with
  | returned s =>
    by_cases hs : Fits sink.capacity s
    · obtain ⟨final, left, hwork, hagrees, ⟨hfinal, rest, hregion⟩, hlength⟩ :=
        solveInto_returned meter hfinish hs
      refine ⟨_, left, .ok, hwork, rfl, .returned hs, hlength, ?_⟩
      rintro - other ⟨⟩
      refine ⟨final, ?_, hagrees⟩
      rw [hregion]
      exact Sealed.read_finished Solution.sized (Solution.recordable hfinal) rest
    · obtain ⟨r, left, hwork, hcode, hlength⟩ := solveInto_tooLarge meter hfinish hs
      refine ⟨_, left, .sharedMemory, hwork, ?_, .tooLarge hs, hlength, nofun⟩
      exact congrArg Completion.done hcode
  | failed e =>
    have hend : unfinished? (backend.solve p).finish =
        some (.done (.error (.ofCause (.backend e)))) := by
      rw [hfinish]
      rfl
    refine ⟨_, _, e.exitCode, solveInto_of_unfinished meter hend, rfl, .failed e, hkept, ?_⟩
    rintro - s ⟨⟩
  | brokeOff text =>
    have hend : unfinished? (backend.solve p).finish =
        some (.done (.error (brokeOffReport text))) := by
      rw [hfinish]
      rfl
    exact ⟨_, _, .solver, solveInto_of_unfinished meter hend, rfl, .brokeOff text, hkept, nofun⟩
  | leftProcess e | hanging =>
    rw [hfinish] at hanswers
    cases hanswers

end Work

/-! ### Exit codes -/

/-- The exit code of a worker with these arguments: why it was not called rightly, found nothing,
refused the problem, or what its backend answered. The backend answers for accepted problems only. -/
structure Classified (backend : Backend) (store : Store) (arguments : List String) (code : ExitCode) :
    Prop where
  among : code ∈
    [.commandLine, .sharedMemory, .model, .invalidStart, .outOfMemory, .solver, ExitCode.ok]
  commandLine : code = .commandLine ↔ arguments.length ≠ 1
  sharedMemory : code = .sharedMemory ↔ Unreadable store arguments ∨
    Meets store arguments fun p space =>
      p.Accepted ∧ ∃ s, (backend.solve p).finish = .returned s ∧ ¬Fits space s
  model : code = .model ↔ Meets store arguments fun p _ => (∃ d, p.validate = .error d) ∨
    p.Accepted ∧ ∃ text, (backend.solve p).finish = .failed (.model text)
  invalidStart : code = .invalidStart ↔ Meets store arguments fun p _ =>
    (p.validate = .ok () ∧ ∃ d, p.checkStart = .error (.error d)) ∨
    p.Accepted ∧ ∃ text, (backend.solve p).finish = .failed (.invalidStart text)
  outOfMemory : code = .outOfMemory ↔ Meets store arguments fun p _ =>
    p.Accepted ∧ (backend.solve p).finish = .failed .outOfMemory
  solver : code = .solver ↔ Meets store arguments fun p _ => p.Accepted ∧
    ((∃ text, (backend.solve p).finish = .failed (.solver text)) ∨
      ∃ text, (backend.solve p).finish = .brokeOff text)
  ok : code = .ok ↔ Meets store arguments fun p space =>
    p.Accepted ∧ ∃ s, (backend.solve p).finish = .returned s ∧ Fits space s

section Codes
variable {backend : Backend} {store : Store} {arguments : List String} {child : Child} {p : Problem}
  {offset : Nat}

theorem classified_misused (h : arguments.length ≠ 1) :
    Classified backend store arguments .commandLine := by
  have hmeets := not_meets (not_finds_of_misused h : ∀ child p offset, ¬Finds store _ child p offset)
  have hunreadable : ¬Unreadable store arguments := by
    rintro ⟨name, rfl, -⟩
    exact h rfl
  constructor <;> simp [h, hmeets, hunreadable]

theorem classified_unreadable (h : Unreadable store arguments) :
    Classified backend store arguments .sharedMemory := by
  have hmeets := not_meets fun child p offset hfinds => Finds.not_unreadable hfinds h
  have hone : arguments.length = 1 := by
    obtain ⟨name, rfl, -⟩ := h
    rfl
  constructor <;> simp [h, hone, hmeets]

theorem classified_invalid (h : Finds store arguments child p offset) {d : Defect}
    (hvalid : p.validate = .error d) : Classified backend store arguments .model := by
  have hone := h.length_arguments
  have hread := h.not_unreadable
  have hrefused : ¬p.Accepted := fun haccepted => by cases hvalid.symm.trans haccepted.1
  constructor <;> simp [h.meets_iff, hone, hread, hvalid, hrefused]

theorem classified_badStart (h : Finds store arguments child p offset) {d : StartDefect}
    (hvalid : p.validate = .ok ()) (hstart : p.checkStart = .error (.error d)) :
    Classified backend store arguments .invalidStart := by
  have hone := h.length_arguments
  have hread := h.not_unreadable
  have hrefused : ¬p.Accepted := fun haccepted => by cases hstart.symm.trans haccepted.2
  constructor <;> simp [h.meets_iff, hone, hread, hvalid, hstart, hrefused]

theorem classified_accepted (h : Finds store arguments child p offset) (haccepted : p.Accepted)
    {code : ExitCode}
    (hcode : Concludes ((store.bytes child.segment).length - offset) (backend.solve p).finish code) :
    Classified backend store arguments code := by
  have hone := h.length_arguments
  have hread := h.not_unreadable
  obtain ⟨hvalid, hstart⟩ := id haccepted
  generalize hfinish : (backend.solve p).finish = finish at hcode
  cases hcode with
  | returned hs | tooLarge hs =>
    constructor <;>
      simp [h.meets_iff, hone, hread, haccepted, hvalid, hstart, hfinish, hs]
  | failed e =>
    cases e <;> constructor <;>
      simp [h.meets_iff, hone, hread, haccepted, hvalid, hstart, hfinish, BackendError.exitCode]
  | brokeOff text =>
    constructor <;>
      simp [h.meets_iff, hone, hread, haccepted, hvalid, hstart, hfinish]

end Codes

/-! ### What may change -/

/-- What a worker leaves behind: everything as it was if its backend has not seen a problem, and in any
case all names, all other segments, and the bytes of the problem. With success comes the result. -/
structure Contained [Checksum] (backend : Backend) (store : Store) (arguments : List String)
    (code : ExitCode) (left : Store) : Prop where
  unseen : (¬Meets store arguments fun p _ => p.Accepted) → left = store
  names : left.names = store.names
  others : ∀ child p offset, Finds store arguments child p offset →
    ∀ m : Mapping, m.block ≠ child.segment.block → left.bytes m = store.bytes m
  problem : ∀ child p offset, Finds store arguments child p offset →
    (left.bytes child.segment).length = (store.bytes child.segment).length ∧
      (left.bytes child.segment).take offset = (store.bytes child.segment).take offset
  result : code = .ok → ∀ child p offset, Finds store arguments child p offset →
    ∀ s, (backend.solve p).finish = .returned s → ∃ kept,
      Sealed.read Solution ((left.bytes child.segment).drop offset) = .ok kept ∧ kept.Agrees s

section Store
variable [Checksum] {backend : Backend} {store : Store} {arguments : List String} {child : Child}
  {p : Problem} {offset : Nat}

/-- A worker that fails before its backend has seen a problem leaves everything as it was. -/
theorem contained_refl {code : ExitCode} (hcode : code ≠ .ok) :
    Contained backend store arguments code store where
  unseen _ := rfl
  names := rfl
  others _ _ _ _ _ _ := rfl
  problem _ _ _ _ := ⟨rfl, rfl⟩
  result hok := absurd hok hcode

/-- A worker that puts back a sink of the same length leaves all the rest as it was. -/
theorem contained_putSink (h : Finds store arguments child p offset) (haccepted : p.Accepted)
    {code : ExitCode} {sink : Sink}
    (hlength : sink.capacity = (store.bytes child.segment).length - offset)
    (hresult : code = .ok → ∀ s, (backend.solve p).finish = .returned s →
      ∃ kept, Sealed.read Solution sink.region = .ok kept ∧ kept.Agrees s) :
    Contained backend store arguments code (child.putSink store offset sink) := by
  have hbytes : (child.putSink store offset sink).bytes child.segment =
      (store.bytes child.segment).take offset ++ sink.region := Store.bytes_write h.inUse rfl _
  have htake : ((store.bytes child.segment).take offset).length = offset := by
    rw [List.length_take, Nat.min_eq_left h.offset_le]
  constructor
  case unseen => exact fun hunseen => absurd (h.meets_iff.mpr haccepted) hunseen
  case names => rfl
  case others =>
    intro child' p' offset' h' m hm
    obtain ⟨rfl, -, -⟩ := h.unique h'
    exact Store.bytes_write_of_ne hm _
  case problem =>
    intro child' p' offset' h'
    obtain ⟨rfl, rfl, rfl⟩ := h.unique h'
    refine ⟨?_, ?_⟩
    · rw [hbytes, List.length_append, htake]
      show offset' + sink.capacity = _
      rw [hlength, Nat.add_sub_cancel' h.offset_le]
    · rw [hbytes, List.take_left' htake]
  case result =>
    intro hok child' p' offset' h' s hs
    obtain ⟨rfl, rfl, rfl⟩ := h.unique h'
    rw [hbytes, List.drop_left' htake]
    exact hresult hok s hs

end Store

/-! ### The whole run -/

section Runs
variable [Checksum]

theorem run_misused {arguments : List String} (h : arguments.length ≠ 1) (backend : Backend)
    (meter : Meter) (store : Store) :
    run backend meter arguments store = (.done .commandLine, store) := by
  cases arguments with
  | nil => rfl
  | cons first rest =>
    cases rest with
    | nil => exact absurd rfl h
    | cons second rest => rfl

theorem run_unreadable {store : Store} {arguments : List String} (h : Unreadable store arguments)
    (backend : Backend) (meter : Meter) :
    run backend meter arguments store = (.done .sharedMemory, store) := by
  obtain ⟨name, r, rfl, hreceive, hcode⟩ := h.receive_eq
  simp only [run, hreceive, hcode]

/-- A worker consults its backend for the problem that it finds, if it accepts it, and for no other. -/
theorem run_congr {backend other : Backend} {store : Store} {arguments : List String} (meter : Meter)
    (h : ∀ child p offset, Finds store arguments child p offset → p.Accepted →
      other.solve p = backend.solve p) :
    run other meter arguments store = run backend meter arguments store := by
  rcases given_cases store arguments with hmisused | hunreadable | ⟨child, p, offset, hfinds⟩
  · rw [run_misused hmisused, run_misused hmisused]
  · rw [run_unreadable hunreadable, run_unreadable hunreadable]
  · obtain ⟨name, rfl, hreceive⟩ := hfinds.receive_eq
    rcases vet_spec p with ⟨haccepted, hvet⟩ | ⟨r, e, hvet, -⟩
    · have hsame := h child p offset hfinds haccepted
      simp only [run, hreceive, hvet, solveInto, hsame]
    · rw [run_refused hreceive other meter hvet, run_refused hreceive backend meter hvet]

/-- **Every run of a worker is classified.** Whatever the arguments are, whatever there is under the
name, and whatever the backend does that answers, a worker comes to its end by itself, with the exit
code of the one class it belongs to. It leaves the names, the other segments and the problem as they
were, and the whole store unless the backend has seen the problem; and that is the only problem it has
seen, because a backend that does something else with any other problem makes no difference. -/
theorem run_classified (backend : Backend)
    (hanswers : ∀ p, p.Accepted → (backend.solve p).finish.Answers)
    (meter : Meter) (arguments : List String) (store : Store) :
    ∃ code left, run backend meter arguments store = (.done code, left) ∧
      Classified backend store arguments code ∧ Contained backend store arguments code left ∧
      ∀ other : Backend, (∀ child p offset, Finds store arguments child p offset → p.Accepted →
          other.solve p = backend.solve p) →
        run other meter arguments store = (.done code, left) := by
  obtain ⟨code, left, hrun, hcode, hleft⟩ : ∃ code left,
      run backend meter arguments store = (.done code, left) ∧
        Classified backend store arguments code ∧ Contained backend store arguments code left := by
    rcases given_cases store arguments with hmisused | hunreadable | ⟨child, p, offset, hfinds⟩
    · exact ⟨_, _, run_misused hmisused backend meter store, classified_misused hmisused,
        contained_refl nofun⟩
    · exact ⟨_, _, run_unreadable hunreadable backend meter, classified_unreadable hunreadable,
        contained_refl nofun⟩
    obtain ⟨name, rfl, hreceive⟩ := hfinds.receive_eq
    rcases p.accepted_cases with haccepted | ⟨d, hvalid⟩ | ⟨hvalid, d, hstart⟩
    · obtain ⟨completion, left, code, hwork, hdone, hcode, hlength, hresult⟩ :=
        solveInto_concludes meter (hanswers p haccepted)
      rw [capacity_ofRegion_drop] at hcode hlength
      have hrun := run_accepted hreceive (vet_of_accepted haccepted) hwork
      rw [hdone] at hrun
      exact ⟨code, _, hrun, classified_accepted hfinds haccepted hcode,
        contained_putSink hfinds haccepted hlength hresult⟩
    · obtain ⟨r, hvet, hcode⟩ := vet_invalid hvalid
      refine ⟨.model, store, ?_, classified_invalid hfinds hvalid, contained_refl nofun⟩
      rw [run_refused hreceive backend meter hvet, hcode]
    · obtain ⟨r, hvet, hcode⟩ := vet_badStart hvalid hstart
      refine ⟨.invalidStart, store, ?_, classified_badStart hfinds hvalid hstart,
        contained_refl nofun⟩
      rw [run_refused hreceive backend meter hvet, hcode]
  exact ⟨code, left, hrun, hcode, hleft, fun other hother => (run_congr meter hother).trans hrun⟩

end Runs

/-- A segment with a problem in it, and behind it bytes that nobody has written as a record. -/
def littered : Store :=
  (Store.empty 4096).add "s" (image (pieces Channel.single) ++ List.replicate 80 7)

theorem finds_littered :
    Finds littered ["s"] ⟨⟨"s", 0, false⟩⟩ Channel.single (extent (pieces Channel.single)) where
  named := by
    have htakes : (Store.empty 4096).takes "s" = true := by decide +kernel
    have hbytes : image (pieces Channel.single) ++ List.replicate 80 7 ≠ [] :=
      List.append_ne_nil_of_right_ne_nil _ (List.cons_ne_nil _ _)
    refine ⟨"s", rfl, ?_⟩
    rw [Child.openNamed, littered, Store.openNamed_add htakes rfl hbytes]
    rfl
  begins := ⟨View.of Problem.sized Channel.single,
    decodeView_image Problem.sized (by decide) _ rfl, View.get_of _ _⟩

/-- The backend that gives back where it started finishes on the littered segment, and its result can be
read there. -/
theorem run_classified_littered :
    ∃ left kept, run .echo .still ["s"] littered = (.done .ok, left) ∧
      Sealed.read Solution ((left.bytes ⟨"s", 0, false⟩).drop (extent (pieces Channel.single))) =
        .ok kept ∧
      kept.Agrees (Backend.echoSolution Channel.single) := by
  obtain ⟨code, left, hrun, hcode, hleft, -⟩ :=
    run_classified .echo (fun p _ => .returned (Backend.echoSolution p)) .still ["s"] littered
  have hfits : Fits 80 (Backend.echoSolution Channel.single) := by
    rw [Sealed.fits_iff]
    decide
  have hspace : (littered.bytes ⟨"s", 0, false⟩).length - extent (pieces Channel.single) = 80 := by
    have hbytes : littered.bytes ⟨"s", 0, false⟩ =
      image (pieces Channel.single) ++ List.replicate 80 7 := rfl
    rw [hbytes, List.length_append, length_image, List.length_replicate, Nat.add_sub_cancel_left]
  have hok : code = .ok := by
    refine hcode.ok.mpr (finds_littered.meets_iff.mpr ?_)
    rw [hspace]
    exact ⟨⟨rfl, rfl⟩, _, rfl, hfits⟩
  subst hok
  obtain ⟨kept, hread, hagrees⟩ := hleft.result rfl _ _ _ finds_littered _ rfl
  exact ⟨left, kept, hrun, hread, hagrees⟩

end Worker

end IsolatedSolving
