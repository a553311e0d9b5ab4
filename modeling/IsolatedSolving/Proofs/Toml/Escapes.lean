import IsolatedSolving.Toml.Lexeme
import Mathlib.Tactic.Common

/-! Escapes in strings.

An escape stands for one character, in short strings (`basicRest_escapes`) as in long ones
(`longBasicRest_escapes`), where a backslash may also stand at the end of a line
(`longBasicRest_lineEnd`). -/
namespace IsolatedSolving.Toml

/-- An escape: a letter, or four or eight hexadecimal digits behind one. -/
inductive Escapes (x : Char) : List Char → Prop
  | letter {e : Char} (h : shortEscape? e = some x) : Escapes x ['\\', e]
  | four {a b c d : Char} (h : hexChar? [a, b, c, d] = some x) : Escapes x ['\\', 'u', a, b, c, d]
  | eight {a b c d e f g k : Char} (h : hexChar? [a, b, c, d, e, f, g, k] = some x) :
    Escapes x ['\\', 'U', a, b, c, d, e, f, g, k]

section Reading
variable {x : Char} {text : List Char}

theorem shortEscape?_ne {e : Char} (h : shortEscape? e = some x) : e ≠ 'u' ∧ e ≠ 'U' := by
  constructor <;> rintro rfl <;> cases h

theorem head?_of_escapes (h : Escapes x text) (rest : List Char) : (text ++ rest).head? = some '\\' := by
  cases h <;> rfl

theorem basicRest_escapes (h : Escapes x text) (rest : List Char) :
    basicRest (text ++ rest) = prepend x (basicRest rest) := by
  cases h with
  | @letter e h =>
    obtain ⟨hu, hU⟩ := shortEscape?_ne h
    show basicRest ('\\' :: e :: rest) = _
    rw [basicRest.eq_4 _ _ (fun _ _ _ _ _ h => absurd h hu) (fun _ _ _ _ _ _ _ _ _ h => absurd h hU), h]
  | four h =>
    show basicRest ('\\' :: 'u' :: _ :: _ :: _ :: _ :: rest) = _
    rw [basicRest, h]
  | eight h =>
    show basicRest ('\\' :: 'U' :: _ :: _ :: _ :: _ :: _ :: _ :: _ :: _ :: rest) = _
    rw [basicRest, h]

theorem longBasicRest_escapes (h : Escapes x text) (skipping : Bool) (rest : List Char) :
    longBasicRest skipping (text ++ rest) = prepend x (longBasicRest false rest) := by
  cases h with
  | @letter e h =>
    obtain ⟨hu, hU⟩ := shortEscape?_ne h
    show longBasicRest skipping ('\\' :: e :: rest) = _
    rw [longBasicRest.eq_6 _ _ _ (fun _ _ _ _ _ h => absurd h hu)
      (fun _ _ _ _ _ _ _ _ _ h => absurd h hU), h]
  | four h =>
    show longBasicRest skipping ('\\' :: 'u' :: _ :: _ :: _ :: _ :: rest) = _
    rw [longBasicRest, h]
  | eight h =>
    show longBasicRest skipping ('\\' :: 'U' :: _ :: _ :: _ :: _ :: _ :: _ :: _ :: _ :: rest) = _
    rw [longBasicRest, h]

/-- A backslash at the end of a line is no escape. What is blank behind it is skipped. -/
theorem longBasicRest_lineEnd {e : Char} {rest : List Char} (hnone : shortEscape? e = none)
    (hends : endsLine (e :: rest) = true) (skipping : Bool) :
    longBasicRest skipping ('\\' :: e :: rest) = longBasicRest true (e :: rest) := by
  have hne {c : Char} (hc : endsLine (c :: rest) = false) : e ≠ c := by
    rintro rfl
    rw [hc] at hends
    cases hends
  rw [longBasicRest.eq_6 _ _ _ (fun _ _ _ _ _ h => absurd h (hne rfl))
    (fun _ _ _ _ _ _ _ _ _ h => absurd h (hne rfl)), hnone]
  exact if_pos hends

end Reading

end IsolatedSolving.Toml
