import IsolatedSolving.Text.LowerCase
import IsolatedSolving.Text.VisibleTable

/-! Text in quotation marks, for people to read.

Quotes, backslashes and the common controls have short escapes. Other characters that would not show
by themselves are written by their number in braces. -/
namespace IsolatedSolving.Text

/-- Whether a character would not show by itself. -/
def isHidden (c : Char) : Bool :=
  decide (128 ≤ c.toNat) && (inRanges extendingRanges c.toNat || inRanges hiddenRanges c.toNat) ||
    decide (c.toNat < 32) || c.toNat == 127

/-- A character inside quotation marks. -/
def quotedChar (c : Char) : List Char :=
  match c with
  | '\x00' => ['\\', '0']
  | '\t' => ['\\', 't']
  | '\r' => ['\\', 'r']
  | '\n' => ['\\', 'n']
  | '"' => ['\\', '"']
  | '\\' => ['\\', '\\']
  | c =>
    if isHidden c then ['\\', 'u', '\x7b'] ++ Nat.toDigits 16 c.toNat ++ ['\x7d'] else [c]

/-- The text in quotation marks. -/
def quoted (text : String) : String :=
  String.ofList ('"' :: (text.toList.flatMap quotedChar ++ ['"']))

/-- Texts in quotation marks, between braces. -/
def quotedSet (texts : List String) : String :=
  "\x7b" ++ ", ".intercalate (texts.map quoted) ++ "\x7d"

end IsolatedSolving.Text
