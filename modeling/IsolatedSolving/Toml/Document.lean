import IsolatedSolving.Toml.Lexeme

/-! Settings files as tables.

A file is read line by line: an entry, the header of a table, the header of the next table of an
array, or nothing. The lines then build the table of the whole file, and a line that says something
again, or goes against what an earlier line has fixed, makes the file invalid. -/
namespace IsolatedSolving.Toml

/-! ### Values -/

/-- Reads the items of an array behind its bracket; a comma may follow the last one. -/
def arrayItems (item : Reads Value) : Nat → Reads (List Value)
  | 0, _ => none
  | fuel + 1, cs =>
    match skipSpace false cs with
    | ']' :: rest => some ([], rest)
    | cs => do
      let (v, rest) ← item cs
      match skipSpace false rest with
      | ',' :: rest => (arrayItems item fuel rest).map fun (vs, rest) => (v :: vs, rest)
      | ']' :: rest => some ([v], rest)
      | _ => none

/-- Reads a key, an equals sign and a value. -/
def entry (item : Reads Value) (cs : List Char) : Option ((List String × Value) × List Char) := do
  let (path, rest) ← key nesting cs
  match rest with
  | '=' :: rest =>
    let (v, rest) ← item (skipBlanks rest)
    return ((path, v), rest)
  | _ => none

/-- Adds an entry under its key of one or more parts. -/
def addEntry (es : Entries) (path : List String) (v : Value) : Option Entries :=
  es.addDotted v (path.getLastD "") path.dropLast

/-- Reads the entries of an inline table up to its brace, which no comma may precede. -/
def inlineEntries (item : Reads Value) : Nat → Entries → Reads Entries
  | 0, _, _ => none
  | fuel + 1, es, cs => do
    let ((path, v), rest) ← entry item cs
    let es ← addEntry es path v
    match skipBlanks rest with
    | ',' :: rest => inlineEntries item fuel es rest
    | '}' :: rest => some (es, rest)
    | _ => none

/-- Reads a value that nests to at most so many levels. -/
def value : Nat → Reads Value
  | 0, _ => none
  | depth + 1, cs =>
    match cs with
    | '[' :: rest =>
      (arrayItems (value depth) cs.length rest).map fun (vs, rest) => (.array vs, rest)
    | '{' :: rest =>
      match skipBlanks rest with
      | '}' :: rest => some (.table .inline [], rest)
      | rest => (inlineEntries (value depth) cs.length [] rest).map fun (es, rest) =>
        (.table .inline es, rest)
    | '"' :: _ | '\'' :: _ =>
      (anyString cs).map fun (text, rest) => (.string (String.ofList text), rest)
    | cs => plainValue cs

/-! ### Lines -/

/-- A line with something on it. -/
inductive Line where
  | entry (path : List String) (v : Value)
  | table (path : List String)
  | next (path : List String)

/-- Reads the part of a line up to its end. -/
def lineBody (cs : List Char) : Option (Line × List Char) :=
  match cs with
  | '[' :: '[' :: rest => do
    let (path, rest) ← key nesting rest
    match rest with
    | ']' :: ']' :: rest => return (.next path, rest)
    | _ => none
  | '[' :: rest => do
    let (path, rest) ← key nesting rest
    match rest with
    | ']' :: rest => return (.table path, rest)
    | _ => none
  | cs => (entry (value (nesting + 1)) cs).map fun ((path, v), rest) => (.entry path v, rest)

/-- Reads all lines. -/
def lines : Nat → List Char → Option (List Line)
  | 0, _ => none
  | fuel + 1, cs =>
    match skipBlanks cs with
    | [] => some []
    | cs =>
      match endOfLine? cs with
      | some rest => lines fuel rest
      | none => do
        let (line, rest) ← lineBody cs
        let rest ← endOfLine? rest
        (lines fuel rest).map (line :: ·)

/-! ### The whole -/

/-- The table so far and the path of the header in force. -/
structure Building where
  root : Entries
  current : List String

/-- Takes in one line. -/
def Building.add (b : Building) : Line → Option Building
  | .entry path v => (b.root.alter (addEntry · path v) b.current).map ({ b with root := · })
  | .table path =>
    (b.root.alter (Entries.openTable (path.getLastD "")) path.dropLast).map (⟨·, path⟩)
  | .next path =>
    (b.root.alter (Entries.openNext (path.getLastD "")) path.dropLast).map (⟨·, path⟩)

/-- The table that a text describes, if it is valid. A mark of the byte order in front is ignored. -/
def parse (text : String) : Option Entries := do
  let cs := match text.toList with
    | '\ufeff' :: rest => rest
    | cs => cs
  let ls ← lines (cs.length + 1) cs
  let b ← ls.foldlM Building.add ⟨[], []⟩
  return b.root

end IsolatedSolving.Toml
