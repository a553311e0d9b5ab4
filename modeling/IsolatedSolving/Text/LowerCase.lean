import IsolatedSolving.Text.CaseTable

/-! Text in small letters.

Each capital becomes its small letter. Two are special: the dotted capital I becomes a small one
followed by its dot, and a capital sigma at the end of a word becomes the final one. A sigma ends a
word if a letter with a case stands before it and none behind it, other marks left aside. -/
namespace IsolatedSolving.Text

/-- Whether a code point lies in one of the ranges. -/
def inRanges (ranges : List (Nat × Nat)) (n : Nat) : Bool :=
  ranges.any fun (first, last) => decide (first ≤ n) && decide (n ≤ last)

def isCased (c : Char) : Bool := inRanges casedRanges c.toNat

def isCaseIgnorable (c : Char) : Bool := inRanges caseIgnorableRanges c.toNat

/-- The small letters of a character by itself. -/
def lowerChar (c : Char) : List Char :=
  if c.toNat < 128 then [c.toLower]
  else if c = '\u0130' then ['i', '\u0307']
  else
    match capitals.find? fun (first, last, step, _) =>
      decide (first ≤ c.toNat) && decide (c.toNat ≤ last) && (c.toNat - first) % step == 0 with
    | some (_, _, _, distance) => [Char.ofNat (c.toNat + distance).toNat]
    | none => [c]

/-- Whether the next letter, marks left aside, has a case. -/
def nextIsCased (cs : List Char) : Bool :=
  match cs.dropWhile isCaseIgnorable with
  | c :: _ => isCased c
  | [] => false

/-- The small letters of a text, behind the reversed text `before`. -/
def lowerFrom (before : List Char) : List Char → List Char
  | [] => []
  | c :: rest =>
    let small :=
      if c = 'Σ' then if nextIsCased before && !nextIsCased rest then ['ς'] else ['σ']
      else lowerChar c
    small ++ lowerFrom (c :: before) rest

/-- The text in small letters. -/
def lowerCase (text : String) : String := String.ofList (lowerFrom [] text.toList)

end IsolatedSolving.Text
