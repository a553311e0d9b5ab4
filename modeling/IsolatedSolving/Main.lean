import IsolatedSolving.Worker.Program

/-! The worker programs.

One executable serves as both workers: under the name of the scripted worker it follows the script in
its environment, and under every other name it solves exactly. Segments are the files of the memory
file system. The segment that the only argument names is read, the worker runs on it, and what it
wrote is put back in place. -/
namespace IsolatedSolving

open Segment (Store)
open Worker (Ending Environment Program Script)

namespace Shared

/-- The file of the segment that the system keeps under a name. -/
def file (key : String) : String := "/dev/shm/" ++ key

/-- A store with the segments of these names, as far as they exist. -/
def load (names : List String) : IO Store :=
  names.foldlM (fun store name => do
    if !store.takes name then return store
    try
      let bytes ← IO.FS.readBinFile (file (Segment.key name))
      return store.add name bytes.toList
    catch _ => return store) (.empty (1 <<< 47))

/-- Puts the bytes of the segments back. -/
def save (store : Store) : IO Unit :=
  store.names.forM fun (key, block) =>
    IO.FS.withFile (file key) .readWrite fun handle => do
      handle.write ⟨(store.blocks.getD block []).toArray⟩
      handle.flush

end Shared

/-- Ends the process. A signal can only be told by a status above 128. -/
def finish : Ending → IO UInt32
  | .ended (.exited status) => return UInt32.ofNat status
  | .ended (.signalled number) => return UInt32.ofNat (128 + number)
  | .ended .neither => return 1
  | .hanging => do
    repeat IO.sleep 60000
    return 1

/-- Runs a program with the arguments and the script of the process. -/
def runProgram (program : Program) (arguments : List String) : IO UInt32 := do
  let script ← IO.getEnv Script.variableName
  let environment : Environment := (script.map fun s => (Script.variableName, s)).toList
  let store ← Shared.load arguments
  let (ending, store) := program environment arguments store
  Shared.save store
  finish ending

end IsolatedSolving

/-- Runs the worker that the executable is named for. -/
def main (arguments : List String) : IO UInt32 := do
  let path ← IO.appPath
  let program : IsolatedSolving.Worker.Program :=
    if path.fileName == some IsolatedSolving.Worker.Script.workerName then .scripted .still
    else .ofBackend IsolatedSolving.Linear.backend .still
  IsolatedSolving.runProgram program arguments
