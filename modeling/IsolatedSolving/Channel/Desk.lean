import IsolatedSolving.Channel.Child
import IsolatedSolving.Channel.Parent

/-! Channels and segments in use, side by side.

A desk holds any number of handles on one store: bare segments, callers' sides and workers' sides of
channels. Each has a label. A handle that takes the label of another one takes its place after it was
made, so both exist for a moment. -/
namespace IsolatedSolving.Channel

open Segment (Mapping Store)

/-- Something that has a segment in use. -/
inductive Handle where
  | segment (m : Mapping)
  | parent (p : Parent)
  | child (c : Child)
deriving DecidableEq, Repr

/-- Gives up what the handle has. -/
def Handle.release (h : Handle) (store : Store) : Store :=
  match h with
  | segment m => store.release m
  | parent p => (p.release store).2
  | child c => store.release c.segment

/-- Handles by their labels, and the store that they use. -/
structure Desk where
  handles : List (String × Handle)
  store : Store
deriving DecidableEq, Repr

namespace Desk

def empty (store : Store) : Desk := ⟨[], store⟩

/-- The handle with a label. -/
def find? (d : Desk) (label : String) : Option Handle := d.handles.lookup label

/-- Takes a handle away. -/
def release (d : Desk) (label : String) : Desk where
  handles := d.handles.filter fun (other, _) => other != label
  store := match d.find? label with
    | some h => h.release d.store
    | none => d.store

/-- Puts a new handle under a label, in place of another one. -/
def put (d : Desk) (label : String) (h : Handle) : Desk :=
  let d := d.release label
  { d with handles := (label, h) :: d.handles }

/-- Writes a problem with the caller's side under a label. -/
def writeProblem [Wire.Checksum] (d : Desk) (label : String) (p : Parent) (problem : Problem) :
    Except (Stop SolverError) String × Desk :=
  let (result, p, store) := p.writeProblem d.store problem
  (result, ⟨(label, .parent p) :: d.handles.filter (fun (other, _) => other != label), store⟩)

end Desk

end IsolatedSolving.Channel
