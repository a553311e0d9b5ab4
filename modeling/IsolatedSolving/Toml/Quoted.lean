import IsolatedSolving.Number.Decimal
import IsolatedSolving.Toml.Lexeme

/-! Values as they are written.

A string is written in the first of four forms that needs no escape, and with escapes only if there
is none. Numbers always show a point or are one of the words for infinities and NaN. -/
namespace IsolatedSolving.Toml

/-! ### Strings -/

/-- Whether a character needs an escape in every form. Line ends do not. -/
def isControl (c : Char) : Bool := (decide (c.toNat < 32) && c != '\n') || c.toNat == 127

/-- The longest run of a character. -/
def longestRun (c : Char) (cs : List Char) : Nat :=
  (cs.foldl (fun (run, best) d =>
    if d == c then (run + 1, Nat.max best (run + 1)) else (0, best)) (0, 0)).2

/-- An upper-case hexadecimal number of four digits. -/
def fourHex (n : Nat) : List Char :=
  let ds := (Nat.toDigits 16 n).map Char.toUpper
  List.replicate (4 - ds.length) '0' ++ ds

/-- The escape of a character. -/
def escape : Char → List Char
  | '\x08' => ['\\', 'b']
  | '\t' => ['\\', 't']
  | '\n' => ['\\', 'n']
  | '\x0c' => ['\\', 'f']
  | '\r' => ['\\', 'r']
  | '"' => ['\\', '"']
  | '\\' => ['\\', '\\']
  | c => '\\' :: 'u' :: fourHex c.toNat

/-- The inside of a string in double quotes. In the long form line ends stay, and so do quotes up to
the second in a row; `run` counts those just written. -/
def escaped (long : Bool) (run : Nat) : List Char → List Char
  | [] => []
  | '"' :: rest =>
    if long && decide (run < 2) then '"' :: escaped long (run + 1) rest
    else escape '"' ++ escaped long 0 rest
  | c :: rest =>
    if isControl c || c == '\\' || (c == '\n' && !long) then escape c ++ escaped long 0 rest
    else c :: escaped long 0 rest

/-- The text of a string. -/
def quoted (text : String) : List Char :=
  let cs := text.toList
  let newline := cs.contains '\n'
  let control := cs.any isControl
  let backslash := cs.contains '\\'
  let start : List Char := if newline then ['\n'] else []
  let wrap (mark inner : List Char) := mark ++ inner ++ mark
  if !control && !backslash && !newline && !cs.contains '"' then wrap ['"'] cs
  else if !control && !newline && !cs.contains '\'' then wrap ['\''] cs
  else if !control && !backslash && decide (longestRun '"' cs ≤ 2) then
    wrap ['"', '"', '"'] (start ++ cs)
  else if !control && decide (longestRun '\'' cs ≤ 2) then
    wrap ['\'', '\'', '\''] (start ++ cs)
  else if newline then wrap ['"', '"', '"'] (start ++ escaped true 0 cs)
  else wrap ['"'] (escaped false 0 cs)

/-! ### Numbers -/

/-- Numbers in a file always have a point, and the word for a NaN is in lower case. -/
def numbers : Decimal.Style := ⟨"nan", true, none⟩

def writtenFloat (x : Binary64) : String := x.spell numbers

end IsolatedSolving.Toml
