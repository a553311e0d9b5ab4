import IsolatedSolving.Worker.Program

/-! Workers given by what they do.

A worker may do anything to the region of its result, in any order, and end in any way. The segment
is looked at only by the deeds that need it; a deed that cannot be done breaks the process off. -/
namespace IsolatedSolving.Worker

open Channel (Child)
open Segment (Store)
open Wire (Checksum)

/-- One thing that a worker does. -/
inductive Deed where
  | write (s : Solution)
  | poke (place : Nat) (bytes : List UInt8)
  | expect (name value : String)
  | exit (code : Int32)
  | signal (number : Nat)
  | hang
deriving DecidableEq, Repr

namespace Deed

/-- The status of a process that found another value of a variable than it expected. -/
def unexpectedStatus : Nat := 99

/-- The child's side of the segment that the arguments name, with the end of its problem and the
region behind it. -/
def region? (arguments : List String) (store : Store) : Option (Child × Nat × Channel.Sink) :=
  match arguments with
  | [name] =>
    match receive store name with
    | .ok (child, _, offset, sink) => some (child, offset, sink)
    | .error _ => none
  | _ => none

/-- Does one thing. The process goes on if there is no end. -/
def perform [Checksum] (environment : Environment) (arguments : List String) (deed : Deed)
    (store : Store) : Option Ending × Store :=
  let broken : Option Ending × Store := (some (.ended (.exited brokenStatus)), store)
  match deed with
  | write s =>
    match region? arguments store with
    | none => broken
    | some (child, offset, sink) =>
      match sink.write s with
      | (.ok (), sink) => (none, child.putSink store offset sink)
      | (.error _, sink) => (broken.1, child.putSink store offset sink)
  | poke place bytes =>
    match region? arguments store with
    | none => broken
    | some (child, offset, sink) =>
      if sink.capacity < place + bytes.length then broken
      else
        (none, child.putSink store offset { sink with region := Wire.overwrite sink.region place bytes })
  | expect name value =>
    if environment.get? name = some value then (none, store)
    else (some (.ended (.exited unexpectedStatus)), store)
  | exit code => (some (.ended (.exiting code)), store)
  | signal number => (some (.ended (.signalled number)), store)
  | hang => (some .hanging, store)

/-- Does things in order, and exits with success at the end. -/
def performAll [Checksum] (environment : Environment) (arguments : List String) :
    List Deed → Store → Ending × Store
  | [], store => (.ended (.exited 0), store)
  | deed :: rest, store =>
    match deed.perform environment arguments store with
    | (some ending, store) => (ending, store)
    | (none, store) => performAll environment arguments rest store

end Deed

/-- The worker that does these things. -/
def Program.ofDeeds [Checksum] (deeds : List Deed) : Program := fun environment arguments =>
  Deed.performAll environment arguments deeds

end IsolatedSolving.Worker
