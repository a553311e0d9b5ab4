import IsolatedSolving.Problem.Layout
import IsolatedSolving.Segment.Store
import IsolatedSolving.Settings.Basic
import IsolatedSolving.Solution.Bound
import IsolatedSolving.Wire.Sealed

/-! The caller's side of a channel.

A channel is one segment: the problem, and behind it the region for the result, large enough for any
result of that problem and holding an empty one at first. The segment gets the first free name of a
numbered row. Before it is created the previous one is given up, so its name can be used again; but
a problem that cannot be written at all leaves the previous segment in place. -/
namespace IsolatedSolving.Channel

open Segment (Mapping Store)
open Wire (Checksum CodecError)

/-- The caller's side: what names begin with, how many are tried, the segment if a problem was
written, and where the result starts in it. -/
structure Parent where
  base : String
  trials : Nat
  segment : Option Mapping
  resultOffset : Nat
deriving DecidableEq, Repr

namespace Parent

def ofBase (base : String) (trials : Nat) : Parent := ⟨base, trials, none, 0⟩

def ofSettings (s : Settings) : Parent := ofBase s.baseName s.trials.toNat

/-- The name of the segment. -/
def name? (p : Parent) : Option String := p.segment.map Mapping.name

/-- The name with this number. -/
def numbered (base : String) (trial : Nat) : String := base ++ toString trial

/-- Creates a segment under the first free name from `trial` on, of so many names. -/
def createFrom (base : String) (size : Nat) :
    Nat → Nat → Store → Except SegmentError (Option Mapping) × Store
  | 0, _, store => (.ok none, store)
  | more + 1, trial, store =>
    match store.create (numbered base trial) size with
    | (.ok m, store) => (.ok (some m), store)
    | (.error (.alreadyExists _), store) => createFrom base size more (trial + 1) store
    | (.error e, store) => (.error e, store)

/-- Creates a segment under the first free name. -/
def createSegment (p : Parent) (size : Nat) (store : Store) : Except SolverError Mapping × Store :=
  match createFrom p.base size p.trials 1 store with
  | (.ok (some m), store) => (.ok m, store)
  | (.ok none, store) =>
    (.error (.transport
      s!"No free shared memory name {p.base}1..{p.base}{p.trials}"), store)
  | (.error e, store) => (.error (.ofSegment e), store)

/-- Gives up the segment. -/
def release (p : Parent) (store : Store) : Parent × Store :=
  match p.segment with
  | some m => ({ p with segment := none }, store.release m)
  | none => (p, store)

/-- The lengths of the problem and of the region for its result. -/
def lengths (problem : Problem) : Except (Stop SolverError) (Nat × Nat) := do
  let codec {α : Type} (r : Except CodecError α) : Except (Stop SolverError) α :=
    r.mapError fun e => .error (.ofCodec e)
  let length ← codec (Wire.encodedLength problem)
  if 1 <<< 60 ≤ problem.columnCount then throw (.fault .impossibleSize)
  let bound ← codec (Solution.boundLength problem.columnCount problem.rowCount)
  return (length, Wire.Sealed.recordLength bound)

/-- The bytes of a fresh segment for the problem. -/
def content [Checksum] (problem : Problem) (length resultLength : Nat) :
    Except CodecError (List UInt8) := do
  let (written, front) := Wire.encodeInto problem (List.replicate length 0)
  let _ ← written
  let (isSealed, region) :=
    Wire.Sealed.write (List.replicate resultLength 0) (Solution.empty problem.sense)
  let _ ← isSealed
  return front ++ region

/-- Writes a problem and an empty result into a new segment, and gives its name. -/
def writeProblem [Checksum] (p : Parent) (store : Store) (problem : Problem) :
    Except (Stop SolverError) String × Parent × Store :=
  match lengths problem with
  | .error stop => (.error stop, p, store)
  | .ok (length, resultLength) =>
    let (p, store) := p.release store
    match p.createSegment (length + resultLength) store with
    | (.error e, store) => (.error (.error e), p, store)
    | (.ok m, store) =>
      match content problem length resultLength with
      | .error e => (.error (.error (.ofCodec e)), p, store.release m)
      | .ok bytes =>
        (.ok m.name, { p with segment := some m, resultOffset := length }, store.write m bytes)

/-- The region of the result. -/
def region? (p : Parent) (store : Store) : Option (List UInt8) :=
  p.segment.map fun m => (store.bytes m).drop p.resultOffset

/-- The result that the worker left, or none if it was stopped while writing one. -/
def readSolution [Checksum] (p : Parent) (store : Store) : Except SolverError (Option Solution) :=
  match p.region? store with
  | none => .error (.transport "No problem written")
  | some region =>
    match Wire.Sealed.read Solution region with
    | .ok s => .ok (some s)
    | .error .torn => .ok none
    | .error e => .error (.ofCodec e)

end Parent

end IsolatedSolving.Channel
