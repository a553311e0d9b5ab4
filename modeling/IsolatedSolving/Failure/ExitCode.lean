/-! How a worker ended.

A worker tells how it went by its exit code. Seven codes in a row starting at 114 are its own; a few
others are crash signatures of solvers that died, and the rest is unknown. `ofRaw` takes back what
`raw` gives, except that an unknown code with the number of a known one is read as the known one. A
raw wait status holds either a code or the signal that ended the process; signals that correspond to
a crash signature are classified like it. -/
namespace IsolatedSolving

/-- The meaning of an exit code. -/
inductive ExitCode where
  | ok
  | killedExternally
  | threadException
  | abort
  | stackCorruption
  | heapCorruption
  | accessViolation
  | missingLibrary
  | outOfMemory
  | commandLine
  | sharedMemory
  | model
  | solver
  | forcedTermination
  | invalidStart
  | unknown (code : Int32)
deriving DecidableEq, Repr

namespace ExitCode

/-- The first of a worker's own codes. They lie below the range that stands for signals in shells. -/
def firstOwn : Int32 := 114

/-- The number of the code. -/
def raw : ExitCode → Int32
  | ok => 0
  | killedExternally => 1
  | threadException => 3
  | abort => -529697949
  | stackCorruption => -1073740791
  | heapCorruption => -1073740940
  | accessViolation => -1073741819
  | missingLibrary => -1073741515
  | outOfMemory => firstOwn
  | commandLine => firstOwn + 1
  | sharedMemory => firstOwn + 2
  | model => firstOwn + 3
  | solver => firstOwn + 4
  | forcedTermination => firstOwn + 5
  | invalidStart => firstOwn + 6
  | unknown code => code

/-- The codes that are recognised by their number. A kill from outside is not among them: it shows
as a signal. -/
def recognised : List ExitCode :=
  [ok, threadException, abort, stackCorruption, heapCorruption, accessViolation, missingLibrary,
    outOfMemory, commandLine, sharedMemory, model, solver, forcedTermination, invalidStart]

/-- The meaning of a number. -/
def ofRaw (n : Int32) : ExitCode := (recognised.find? fun c => c.raw == n).getD (unknown n)

/-- The codes that can be named, in the order of their numbers' families. -/
def named : List ExitCode :=
  [ok, killedExternally, threadException, abort, stackCorruption, heapCorruption, accessViolation,
    missingLibrary, outOfMemory, commandLine, sharedMemory, model, solver, forcedTermination,
    invalidStart]

/-- The name of a code. -/
def name : ExitCode → String
  | ok => "Ok"
  | killedExternally => "KilledExternally"
  | threadException => "UncaughtException1"
  | abort => "UncaughtException2"
  | stackCorruption => "UncaughtException3"
  | heapCorruption => "UncaughtException4"
  | accessViolation => "UncaughtException5"
  | missingLibrary => "MissingLibrary"
  | outOfMemory => "OutOfMemory"
  | commandLine => "CommandLineError"
  | sharedMemory => "SharedMemoryError"
  | model => "ModelError"
  | solver => "SolverError"
  | forcedTermination => "ForcedTermination"
  | invalidStart => "InvalidStartSolution"
  | unknown code => s!"Unknown({code.toInt})"

/-- The code with this name. -/
def ofName? (text : String) : Option ExitCode := named.find? fun c => c.name == text

/-- The name and the number. -/
def title (c : ExitCode) : String := s!"{c.name} ({c.raw.toInt})"

/-- A sentence about the code, empty for success. -/
def message : ExitCode → String
  | ok => ""
  | killedExternally => "Solver process killed."
  | threadException =>
    "Uncaught exception, likely out of memory (stack buffer overflow Windows 7)."
  | abort => "Uncaught exception, likely out of memory (C++ exception or abort)."
  | stackCorruption =>
    "Uncaught exception, likely out of memory (stack buffer overflow Windows 10)."
  | heapCorruption => "Uncaught exception, the heap was most likely filled or corrupted."
  | accessViolation => "Uncaught exception: Access violation."
  | missingLibrary => "Shared library missing."
  | outOfMemory => "Out of memory."
  | commandLine => "Invalid command line."
  | sharedMemory => "Failed communicating via shared memory."
  | model => "Failed generating model."
  | solver => "Failed solving (solver error)."
  | forcedTermination => "Unexpected exit code \"forced termination\"."
  | invalidStart => "Invalid start solution."
  | unknown code => s!"Unknown exit code {code.toInt}."

def isSuccess (c : ExitCode) : Bool := c == ok

/-- Whether the code speaks of exhausted resources. The solution that the worker left behind is then
used, unless crashes are to be reported in all cases. -/
def isIgnorable : ExitCode → Bool
  | outOfMemory | threadException | abort | stackCorruption | heapCorruption | accessViolation
  | forcedTermination => true
  | ok | killedExternally | missingLibrary | commandLine | sharedMemory | model | solver
  | invalidStart | unknown _ => false

end ExitCode

/-- How a process ended: with an exit status of eight bits, by a signal, or not at all yet. -/
inductive ProcessEnd where
  | exited (status : Nat)
  | signalled (number : Nat)
  | neither
deriving DecidableEq, Repr

namespace ProcessEnd

/-- The end of a process that exits with this code, of which the system keeps eight bits. -/
def exiting (code : Int32) : ProcessEnd := exited (code.toUInt32.toNat % 256)

/-- The end that a raw wait status stands for: the low seven bits are the signal, and the exit status
lies above the low byte if they are zero. All seven bits set stand for a stop or a continuation. -/
def ofWaitStatus (status : Int32) : ProcessEnd :=
  let bits := status.toUInt32.toNat
  if bits % 128 = 0 then exited (bits / 256 % 256)
  else if bits % 128 = 127 then neither
  else signalled (bits % 128)

/-- The exit code that the end amounts to. -/
def exitCode : ProcessEnd → ExitCode
  | exited status => .ofRaw (Int32.ofNat status)
  | signalled 6 => .abort
  | signalled 7 => .stackCorruption
  | signalled 11 => .accessViolation
  | signalled 9 => .outOfMemory
  | signalled 15 => .killedExternally
  | signalled 2 => .killedExternally
  | signalled n => .unknown (Int32.ofNat (128 + n))
  | neither => .unknown (-1)

end ProcessEnd

end IsolatedSolving
