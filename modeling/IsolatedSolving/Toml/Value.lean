import IsolatedSolving.Number.Binary64

/-! Values of a settings file.

A table remembers how it came to be, because that decides what may still be added to it: one that a
header opened is closed to dotted keys, one that dotted keys opened is closed to headers, and one that
only stands on the path of a header can still be opened by its own. -/
namespace IsolatedSolving.Toml

/-- How a table was opened. -/
inductive TableOrigin where
  | header
  | path
  | dotted
  | inline
deriving DecidableEq, Repr

/-- A value. Integers are those of 64 bits, and of dates and times only their presence is kept. -/
inductive Value where
  | string (text : String)
  | integer (n : Int)
  | float (x : Binary64)
  | boolean (b : Bool)
  | moment
  | array (items : List Value)
  | table (origin : TableOrigin) (entries : List (String × Value))
  | tables (all : List (List (String × Value)))
deriving Inhabited

/-- The entries of a table, in the order of their keys' first mention. -/
abbrev Entries := List (String × Value)

namespace Entries

/-- The value under a key. -/
def get? (es : Entries) (key : String) : Option Value := es.lookup key

/-- The entries with the value under a key replaced. -/
def replace (key : String) (v : Value) : Entries → Entries
  | [] => []
  | (k, old) :: rest => if k = key then (k, v) :: rest else (k, old) :: replace key v rest

/-- Adds a value under a key that is not in use yet. -/
def add (es : Entries) (key : String) (v : Value) : Option Entries :=
  if (es.get? key).isSome then none else some (es ++ [(key, v)])

/-- Adds a value under a dotted key. The tables on its path are those of dotted keys; others may only
be passed through. -/
def addDotted (v : Value) (last : String) : List String → Entries → Option Entries
  | [], es => es.add last v
  | key :: more, es =>
    match es.get? key with
    | none => (addDotted v last more []).map fun sub => es ++ [(key, .table .dotted sub)]
    | some (.table .dotted sub) =>
      (addDotted v last more sub).map fun sub => replace key (.table .dotted sub) es
    | some (.table .path sub) =>
      if more.isEmpty then none
      else (addDotted v last more sub).map fun sub => replace key (.table .path sub) es
    | some (.tables all) =>
      if more.isEmpty then none
      else (addDotted v last more (all.getLastD [])).map fun sub =>
        replace key (.tables (all.dropLast ++ [sub])) es
    | some _ => none

/-- Changes the table at the end of a path of headers, and opens the tables on the way. In an array
of tables the last one counts. -/
def alter (f : Entries → Option Entries) : List String → Entries → Option Entries
  | [], es => f es
  | key :: more, es =>
    match es.get? key with
    | none => (alter f more []).map fun sub => es ++ [(key, .table .path sub)]
    | some (.table .inline _) => none
    | some (.table origin sub) =>
      (alter f more sub).map fun sub => replace key (.table origin sub) es
    | some (.tables all) =>
      (alter f more (all.getLastD [])).map fun sub =>
        replace key (.tables (all.dropLast ++ [sub])) es
    | some _ => none

/-- Opens the table of a header. -/
def openTable (key : String) (es : Entries) : Option Entries :=
  match es.get? key with
  | none => some (es ++ [(key, .table .header [])])
  | some (.table .path sub) => some (replace key (.table .header sub) es)
  | some _ => none

/-- Opens the next table of an array of tables. -/
def openNext (key : String) (es : Entries) : Option Entries :=
  match es.get? key with
  | none => some (es ++ [(key, .tables [[]])])
  | some (.tables all) => some (replace key (.tables (all ++ [[]])) es)
  | some _ => none

end Entries

end IsolatedSolving.Toml
