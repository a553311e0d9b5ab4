import IsolatedSolving.Channel.Sink
import IsolatedSolving.Problem.Layout
import IsolatedSolving.Segment.Store
import IsolatedSolving.Wire.View

/-! The worker's side of a channel.

The worker uses the problem in place, finds the end of it by reading it, and takes everything behind
it as the region for results. -/
namespace IsolatedSolving.Channel

open Segment (Mapping Store)

/-- The worker's side: the segment it was given. -/
structure Child where
  segment : Mapping
deriving DecidableEq, Repr

namespace Child

/-- Maps the segment under a name. -/
def openNamed (store : Store) (name : String) : Except SolverError Child :=
  (store.openNamed name).map Child.mk |>.mapError SolverError.ofSegment

/-- The problem at the start of a segment and where it ends. Segments start at an aligned address. -/
def problemIn (bytes : List UInt8) : Except SolverError (Wire.View Problem × Nat) := do
  let codec {α : Type} (r : Except Wire.CodecError α) := r.mapError SolverError.ofCodec
  let (_, offset) ← codec (Wire.decodeView Problem bytes 0)
  let (view, _) ← codec (Wire.decodeView Problem (bytes.take offset) 0)
  return (view, offset)

/-- The problem, where it ends, and the sink behind it. -/
def readProblem (c : Child) (store : Store) : Except SolverError (Wire.View Problem × Nat × Sink) :=
  (problemIn (store.bytes c.segment)).map fun (view, offset) =>
    (view, offset, Sink.ofRegion ((store.bytes c.segment).drop offset))

/-- The store with a sink put back behind the problem. -/
def putSink (c : Child) (store : Store) (offset : Nat) (sink : Sink) : Store :=
  store.write c.segment ((store.bytes c.segment).take offset ++ sink.region)

end Child

end IsolatedSolving.Channel
