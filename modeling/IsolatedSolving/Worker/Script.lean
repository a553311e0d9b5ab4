import IsolatedSolving.Linear.Exact

/-! Workers that misbehave as they are told.

A script names one way of going wrong: leaving the process with a code, aborting, breaking off,
running out of memory, or hanging after the optimum was reported as a result on the way. The empty
script solves as usual. -/
namespace IsolatedSolving.Worker

/-- What a scripted worker does with a problem. -/
inductive Script where
  | solve
  | interimThenHang
  | exit (code : ExitCode)
  | abort
  | breakOff
  | outOfMemory
deriving DecidableEq, Repr

namespace Script

/-! ### Reading -/

/-- The value of a row of decimal digits; there has to be one at least. -/
def digits? (cs : List Char) : Option Nat :=
  if cs.isEmpty || !cs.all Char.isDigit then none
  else some (cs.foldl (fun n c => 10 * n + (c.toNat - '0'.toNat)) 0)

/-- The value of digits with an optional sign. -/
def signed? : List Char → Option Int
  | '-' :: cs => (digits? cs).map fun n => -(n : Int)
  | '+' :: cs => (digits? cs).map fun n => (n : Int)
  | cs => (digits? cs).map fun n => (n : Int)

/-- The signed number of 32 bits that a text spells. -/
def int32? (text : String) : Option Int32 :=
  (signed? text.toList).bind fun n =>
    if Int32.minValue.toInt ≤ n ∧ n ≤ Int32.maxValue.toInt then some (Int32.ofInt n) else none

/-- The exit code with this name or number. -/
def exitCode? (text : String) : Option ExitCode :=
  ExitCode.ofName? text <|> (int32? text).map ExitCode.ofRaw

/-- The script that a text describes. -/
def ofText? (text : String) : Option Script :=
  match text.dropPrefix? "exit:" with
  | some code => (exitCode? code.toString).map .exit
  | none =>
    match text with
    | "" | "solve" => some .solve
    | "interim-then-hang" => some .interimThenHang
    | "abort" => some .abort
    | "panic" => some .breakOff
    | "oom" => some .outOfMemory
    | _ => none

/-! ### Doing -/

/-- The work of a scripted worker on a problem. -/
def work : Script → Problem → Run
  | solve, p => Linear.solve p
  | interimThenHang, p =>
    match (Linear.solve p).finish with
    | .returned s => ⟨[{ s with status := .suboptimal }], .hanging⟩
    | finish => ⟨[], finish⟩
  | exit code, _ => ⟨[], .leftProcess (.exiting code.raw)⟩
  | abort, _ => ⟨[], .leftProcess (.signalled 6)⟩
  | breakOff, _ => ⟨[], .brokeOff (some "scripted panic")⟩
  | outOfMemory, _ => ⟨[], .failed .outOfMemory⟩

/-- The name of the scripted worker. -/
def workerName : String := "ilp-scripted-worker"

/-- The variable that holds the script. -/
def variableName : String := "ILP_WORKER_SCRIPT"

def backend (s : Script) : Backend := ⟨workerName, s.work⟩

end Script

end IsolatedSolving.Worker
