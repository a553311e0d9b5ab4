import IsolatedSolving.Toml.Value

/-! The words of a settings file.

Each reader takes a word off the front of a text and gives the rest, or nothing if no such word stands
there. Strings come in four forms, numbers in four bases with single underscores between digits, and
dates and times are checked for their ranges. -/
namespace IsolatedSolving.Toml

/-- Reads something off the front of a text. -/
abbrev Reads (α : Type) := List Char → Option (α × List Char)

/-! ### Blanks, line ends and comments -/

def isBlank (c : Char) : Bool := c == ' ' || c == '\t'

def skipBlanks (cs : List Char) : List Char := cs.dropWhile isBlank

/-- Whether a character may stand in a comment or, quotes and backslash apart, in a string. -/
def isPlain (c : Char) : Bool := c == '\t' || (decide (32 ≤ c.toNat) && c.toNat != 127)

/-- The text behind a line end. -/
def lineBreak? : List Char → Option (List Char)
  | '\n' :: rest => some rest
  | '\r' :: '\n' :: rest => some rest
  | _ => none

/-- The text behind blanks, a comment and the end of the line or of all. -/
def endOfLine? (cs : List Char) : Option (List Char) :=
  let cs := match skipBlanks cs with
    | '#' :: rest => rest.dropWhile isPlain
    | rest => rest
  if cs.isEmpty then some [] else lineBreak? cs

/-- The text behind blanks, line ends and comments. -/
def skipSpace (inComment : Bool) : List Char → List Char
  | '\n' :: rest => skipSpace false rest
  | '\r' :: '\n' :: rest => skipSpace false rest
  | c :: rest =>
    if inComment then if isPlain c then skipSpace true rest else c :: rest
    else if isBlank c then skipSpace false rest
    else if c == '#' then skipSpace true rest
    else c :: rest
  | [] => []

/-! ### Strings -/

/-- The value of a hexadecimal digit. -/
def hexValue? (c : Char) : Option Nat :=
  if c.isDigit then some (c.toNat - 48)
  else if 'a' ≤ c && c ≤ 'f' then some (c.toNat - 87)
  else if 'A' ≤ c && c ≤ 'F' then some (c.toNat - 55)
  else none

/-- The number that hexadecimal digits spell. -/
def hexNumber? (cs : List Char) : Option Nat :=
  cs.foldlM (fun n c => (hexValue? c).map (16 * n + ·)) 0

/-- The character with this number in hexadecimal digits. -/
def hexChar? (cs : List Char) : Option Char := do
  let n ← hexNumber? cs
  if n.isValidChar then some (Char.ofNat n) else none

/-- The character that a single letter behind a backslash stands for. -/
def shortEscape? : Char → Option Char
  | 'b' => some '\x08'
  | 't' => some '\t'
  | 'n' => some '\n'
  | 'f' => some '\x0c'
  | 'r' => some '\r'
  | '"' => some '"'
  | '\\' => some '\\'
  | _ => none

/-- The same text read with one more character in front. -/
def prepend (c : Char) : Option (List Char × List Char) → Option (List Char × List Char)
  | some (text, rest) => some (c :: text, rest)
  | none => none

/-- The rest of a string in double quotes. -/
def basicRest : Reads (List Char)
  | '"' :: rest => some ([], rest)
  | '\\' :: 'u' :: a :: b :: c :: d :: rest =>
    match hexChar? [a, b, c, d] with
    | some x => prepend x (basicRest rest)
    | none => none
  | '\\' :: 'U' :: a :: b :: c :: d :: e :: f :: g :: h :: rest =>
    match hexChar? [a, b, c, d, e, f, g, h] with
    | some x => prepend x (basicRest rest)
    | none => none
  | '\\' :: e :: rest =>
    match shortEscape? e with
    | some x => prepend x (basicRest rest)
    | none => none
  | c :: rest => if isPlain c && c != '\\' then prepend c (basicRest rest) else none
  | [] => none

/-- The rest of a string in single quotes. -/
def literalRest : Reads (List Char)
  | '\'' :: rest => some ([], rest)
  | c :: rest => if isPlain c then prepend c (literalRest rest) else none
  | [] => none

/-- Whether only blanks stand before the end of the line. -/
def endsLine (cs : List Char) : Bool := (lineBreak? (skipBlanks cs)).isSome

/-- The rest of a string in three double quotes. Up to two quotes may stand before the closing ones.
After a backslash at the end of a line everything blank is skipped. -/
def longBasicRest (skipping : Bool) : Reads (List Char)
  | '"' :: '"' :: '"' :: '"' :: '"' :: rest => some (['"', '"'], rest)
  | '"' :: '"' :: '"' :: '"' :: rest => some (['"'], rest)
  | '"' :: '"' :: '"' :: rest => some ([], rest)
  | '\\' :: 'u' :: a :: b :: c :: d :: rest =>
    match hexChar? [a, b, c, d] with
    | some x => prepend x (longBasicRest false rest)
    | none => none
  | '\\' :: 'U' :: a :: b :: c :: d :: e :: f :: g :: h :: rest =>
    match hexChar? [a, b, c, d, e, f, g, h] with
    | some x => prepend x (longBasicRest false rest)
    | none => none
  | '\\' :: e :: rest =>
    match shortEscape? e with
    | some x => prepend x (longBasicRest false rest)
    | none => if endsLine (e :: rest) then longBasicRest true (e :: rest) else none
  | '\r' :: '\n' :: rest =>
    if skipping then longBasicRest true rest else prepend '\n' (longBasicRest false rest)
  | c :: rest =>
    if skipping && (isBlank c || c == '\n') then longBasicRest true rest
    else if c == '\n' || isPlain c && c != '\\' then prepend c (longBasicRest false rest)
    else none
  | [] => none

/-- The rest of a string in three single quotes. Up to two quotes may stand before the closing
ones. -/
def longLiteralRest : Reads (List Char)
  | '\'' :: '\'' :: '\'' :: '\'' :: '\'' :: rest => some (['\'', '\''], rest)
  | '\'' :: '\'' :: '\'' :: '\'' :: rest => some (['\''], rest)
  | '\'' :: '\'' :: '\'' :: rest => some ([], rest)
  | '\r' :: '\n' :: rest => prepend '\n' (longLiteralRest rest)
  | c :: rest => if c == '\n' || isPlain c then prepend c (longLiteralRest rest) else none
  | [] => none

/-- The text without a line end in front. -/
def dropLineBreak (cs : List Char) : List Char := (lineBreak? cs).getD cs

/-- Reads a string on one line. -/
def shortString : Reads (List Char)
  | '"' :: rest => basicRest rest
  | '\'' :: rest => literalRest rest
  | _ => none

/-- Reads a string of any form. -/
def anyString : Reads (List Char)
  | '"' :: '"' :: '"' :: rest => longBasicRest false (dropLineBreak rest)
  | '\'' :: '\'' :: '\'' :: rest => longLiteralRest (dropLineBreak rest)
  | cs => shortString cs

/-! ### Keys -/

def isBare (c : Char) : Bool := c.isAlphanum || c == '_' || c == '-'

/-- Reads one part of a key. -/
def keyPart (cs : List Char) : Option (String × List Char) :=
  match shortString cs with
  | some (text, rest) => some (String.ofList text, rest)
  | none =>
    let bare := cs.takeWhile isBare
    if bare.isEmpty then none else some (String.ofList bare, cs.dropWhile isBare)

/-- The most parts that a key may have, and the most levels to which values nest. -/
def nesting : Nat := 79

/-- Reads a key of at most so many parts, with the blanks around them. -/
def key : Nat → Reads (List String)
  | 0, _ => none
  | more + 1, cs => do
    let (part, rest) ← keyPart (skipBlanks cs)
    match skipBlanks rest with
    | '.' :: rest => (key more rest).map fun (parts, rest) => (part :: parts, rest)
    | rest => some ([part], rest)

/-! ### Numbers -/

/-- Digits with single underscores between them, behind a first digit. -/
def digitRun (ok : Char → Bool) : List Char → List Char × List Char
  | '_' :: c :: rest =>
    if ok c then
      let (ds, rest) := digitRun ok rest
      (c :: ds, rest)
    else ([], '_' :: c :: rest)
  | c :: rest =>
    if ok c then
      let (ds, rest) := digitRun ok rest
      (c :: ds, rest)
    else ([], c :: rest)
  | [] => ([], [])

/-- Reads at least one digit. -/
def digits (ok : Char → Bool) : Reads (List Char)
  | c :: rest =>
    if ok c then
      let (ds, rest) := digitRun ok rest
      some (c :: ds, rest)
    else none
  | [] => none

/-- The number that digits spell in a base. -/
def numberOf (base : Nat) (ds : List Char) : Nat :=
  ds.foldl (fun n c => base * n + (hexValue? c).getD 0) 0

def isOctal (c : Char) : Bool := '0' ≤ c && c ≤ '7'

def isBinary (c : Char) : Bool := c == '0' || c == '1'

/-- An integer, if 64 bits hold it. -/
def integer? (n : Int) : Option Value :=
  if -0x8000000000000000 ≤ n && n < 0x8000000000000000 then some (.integer n) else none

/-- Reads the digits of an integer in another base. -/
def based (base : Nat) (ok : Char → Bool) (cs : List Char) : Option (Value × List Char) := do
  let (ds, rest) ← digits ok cs
  let v ← integer? (numberOf base ds)
  return (v, rest)

/-- Reads a sign. -/
def sign : List Char → Bool × List Char
  | '-' :: rest => (true, rest)
  | '+' :: rest => (false, rest)
  | rest => (false, rest)

/-- Reads the digits before a point: a zero stands alone. -/
def wholeDigits : Reads (List Char)
  | '0' :: rest => some (['0'], rest)
  | cs => digits Char.isDigit cs

/-- Reads a power of ten behind its letter. -/
def exponentPart (cs : List Char) : Option (Int × List Char) := do
  let (negative, rest) := sign cs
  let (ds, rest) ← digits Char.isDigit rest
  return (if negative then -(numberOf 10 ds : Int) else numberOf 10 ds, rest)

/-- A decimal number as a float. Positive ones beyond all finite numbers are refused. -/
def float? (negative : Bool) (ds : List Char) (exponent : Int) : Option Value :=
  let x := Binary64.ofDecimal negative (numberOf 10 ds) exponent
  if x = .infinity then none else some (.float x)

/-- Reads a decimal integer or a float behind its sign. -/
def decimal (negative : Bool) (cs : List Char) : Option (Value × List Char) := do
  let (whole, rest) ← wholeDigits cs
  match rest with
  | '.' :: rest =>
    let (places, rest) ← digits Char.isDigit rest
    match rest with
    | 'e' :: rest | 'E' :: rest =>
      let (e, rest) ← exponentPart rest
      return (← float? negative (whole ++ places) (e - places.length), rest)
    | rest => return (← float? negative (whole ++ places) (-(places.length : Int)), rest)
  | 'e' :: rest | 'E' :: rest =>
    let (e, rest) ← exponentPart rest
    return (← float? negative whole e, rest)
  | rest =>
    let n : Int := numberOf 10 whole
    return (← integer? (if negative then -n else n), rest)

/-- Reads a number. -/
def number (cs : List Char) : Option (Value × List Char) :=
  match cs with
  | '0' :: 'x' :: rest => based 16 (fun c => (hexValue? c).isSome) rest
  | '0' :: 'o' :: rest => based 8 isOctal rest
  | '0' :: 'b' :: rest => based 2 isBinary rest
  | _ =>
    let (negative, rest) := sign cs
    match rest with
    | 'i' :: 'n' :: 'f' :: rest =>
      some (.float (if negative then .negInfinity else .infinity), rest)
    | 'n' :: 'a' :: 'n' :: rest => some (.float .nan, rest)
    | _ => decimal negative rest

/-! ### Dates and times -/

/-- Reads a number of exactly `n` digits within limits. -/
def fixedDigits (n low high : Nat) (cs : List Char) : Option (Nat × List Char) :=
  let ds := cs.take n
  if ds.length = n && ds.all Char.isDigit && decide (low ≤ numberOf 10 ds) &&
      decide (numberOf 10 ds ≤ high) then some (numberOf 10 ds, cs.drop n)
  else none

/-- Reads one character. -/
def exactly (c : Char) : List Char → Option (List Char)
  | d :: rest => if d = c then some rest else none
  | [] => none

/-- The days of a month. -/
def daysIn (year month : Nat) : Nat :=
  if month = 2 then
    if year % 4 = 0 && (year % 100 != 0 || year % 400 = 0) then 29 else 28
  else if month = 4 || month = 6 || month = 9 || month = 11 then 30
  else 31

/-- The text behind a date. -/
def date? (cs : List Char) : Option (List Char) := do
  let (year, cs) ← fixedDigits 4 0 9999 cs
  let (month, cs) ← fixedDigits 2 1 12 (← exactly '-' cs)
  let (_, cs) ← fixedDigits 2 1 (daysIn year month) (← exactly '-' cs)
  return cs

/-- The text behind a point and digits, or all of it if none stand there. -/
def skipFraction : List Char → List Char
  | '.' :: c :: rest => if c.isDigit then rest.dropWhile Char.isDigit else '.' :: c :: rest
  | cs => cs

/-- The text behind a time of day. -/
def time? (cs : List Char) : Option (List Char) := do
  let (_, cs) ← fixedDigits 2 0 23 cs
  let (_, cs) ← fixedDigits 2 0 59 (← exactly ':' cs)
  let (_, cs) ← fixedDigits 2 0 60 (← exactly ':' cs)
  return skipFraction cs

/-- The text behind a time zone, or all of it if there is none. -/
def offset? : List Char → Option (List Char)
  | 'Z' :: rest | 'z' :: rest => some rest
  | '+' :: rest | '-' :: rest => do
    let (_, cs) ← fixedDigits 2 0 23 rest
    let (_, cs) ← fixedDigits 2 0 59 (← exactly ':' cs)
    return cs
  | rest => some rest

/-- The text behind the time that follows a date, or all of it if there is none. -/
def afterDate? : List Char → Option (List Char)
  | c :: rest =>
    if c == 'T' || c == 't' || c == ' ' then
      match time? rest with
      | some after => offset? after
      | none => some (c :: rest)
    else some (c :: rest)
  | [] => some []

/-- The text behind a date, a time, or both. -/
def moment? (cs : List Char) : Option (List Char) :=
  match date? cs with
  | none => time? cs
  | some rest => afterDate? rest

/-- Reads a word that is no string and opens no array or table. -/
def plainValue : Reads Value
  | 't' :: 'r' :: 'u' :: 'e' :: rest => some (.boolean true, rest)
  | 'f' :: 'a' :: 'l' :: 's' :: 'e' :: rest => some (.boolean false, rest)
  | cs =>
    match moment? cs with
    | some rest => some (.moment, rest)
    | none => number cs

end IsolatedSolving.Toml
