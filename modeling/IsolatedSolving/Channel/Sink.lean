import IsolatedSolving.Solution.Basic
import IsolatedSolving.Wire.Sealed

/-! Where a worker puts its results.

A sink is a region that holds one sealed result at a time, and counts how often it was written. -/
namespace IsolatedSolving.Channel

open Wire (Checksum CodecError)

/-- A region for results and the count of results written so far. -/
structure Sink where
  region : List UInt8
  writes : Nat
deriving DecidableEq, Repr

namespace Sink

/-- A sink that has not been written to. -/
def ofRegion (region : List UInt8) : Sink := ⟨region, 0⟩

def capacity (s : Sink) : Nat := s.region.length

/-- Overwrites the result. A failed write is not counted. -/
def write [Checksum] (s : Sink) (x : Solution) : Except CodecError Unit × Sink :=
  match Wire.Sealed.write s.region x with
  | (.ok _, region) => (.ok (), ⟨region, s.writes + 1⟩)
  | (.error e, region) => (.error e, { s with region })

/-- Overwrites the result once for each of the given ones. -/
def writeAll [Checksum] (s : Sink) (xs : List Solution) : Sink := xs.foldl (fun s x => (s.write x).2) s

/-- The result in the region. -/
def read [Checksum] (s : Sink) : Except CodecError Solution := Wire.Sealed.read Solution s.region

end Sink

end IsolatedSolving.Channel
