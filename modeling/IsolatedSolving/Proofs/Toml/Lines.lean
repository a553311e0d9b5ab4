import IsolatedSolving.Proofs.Toml.Numbers
import IsolatedSolving.Proofs.Toml.Stability.Values

/-! Texts line by line.

A text that is one line alone is the same line in front of every text (`ReadsAs.of_line`), and so is an entry
with a bare key whose value is read (`ReadsAs.of_entry`). Texts put together are read as their lines put together
(`readsAs_flatMap`), and a whole file of them holds the table that these lines build (`parse_of_readsAs`). -/
namespace IsolatedSolving.Toml

/-! ### One line -/

section Line
variable {cs rest behind : List Char} {l : Line} {ls : List Line}

theorem lines_blank (fuel : Nat) (hne : skipBlanks cs ≠ []) (hend : endOfLine? (skipBlanks cs) = some rest) :
    lines (fuel + 1) cs = lines fuel rest := by
  rw [lines]
  generalize skipBlanks cs = bs at hne hend
  cases bs with
  | nil => exact absurd rfl hne
  | cons c bs => simp only [hend]

theorem lines_line (fuel : Nat) (hend : endOfLine? (skipBlanks cs) = none)
    (hbody : lineBody (skipBlanks cs) = some (l, behind)) (hbreak : endOfLine? behind = some rest) :
    lines (fuel + 1) cs = (lines fuel rest).map (l :: ·) := by
  rw [lines]
  generalize skipBlanks cs = bs at hend hbody
  cases bs with
  | nil => cases hend
  | cons c bs => simp only [hend, hbody, bind, Option.bind_some, hbreak]

/-- A text with lines begins with a blank line or one that is read. -/
theorem lines_cases {fuel : Nat} (hne : skipBlanks cs ≠ []) (hread : lines (fuel + 1) cs = some ls) :
    (∃ rest, endOfLine? (skipBlanks cs) = some rest ∧ lines fuel rest = some ls) ∨
      ∃ l behind rest ms, endOfLine? (skipBlanks cs) = none ∧ lineBody (skipBlanks cs) = some (l, behind) ∧
        endOfLine? behind = some rest ∧ lines fuel rest = some ms ∧ ls = l :: ms := by
  cases hend : endOfLine? (skipBlanks cs) with
  | some rest =>
    rw [lines_blank fuel hne hend] at hread
    exact .inl ⟨rest, rfl, hread⟩
  | none =>
    rw [lines] at hread
    split at hread
    · next hempty => exact absurd hempty hne
    simp only [hend] at hread
    obtain ⟨⟨l, behind⟩, hbody, hread⟩ := Option.bind_eq_some_iff.mp hread
    obtain ⟨rest, hbreak, hread⟩ := Option.bind_eq_some_iff.mp hread
    obtain ⟨ms, hms, rfl⟩ := Option.map_eq_some_iff.mp hread
    exact .inr ⟨l, behind, rest, ms, rfl, hbody, hbreak, hms, rfl⟩

/-- Behind the end of a line there is nothing, or the text ends with another one. -/
theorem Ends.behind_endOfLine? (h : Ends cs) (hend : Toml.endOfLine? cs = some rest) : rest = [] ∨ Ends rest := by
  by_cases hrest : rest = []
  · exact .inl hrest
  refine .inr (h.of_suffix ?_ hrest)
  have hblank : Toml.skipBlanks cs <:+ cs := List.dropWhile_suffix _
  obtain ⟨c, code, hcode⟩ := List.exists_cons_of_ne_nil h.skipBlanks.1.ne_nil
  by_cases hc : c = '#'
  · subst hc
    rw [endOfLine?_comment hcode] at hend
    split at hend
    · exact absurd (Option.some.inj hend).symm hrest
    · have hcomment := (List.dropWhile_suffix isPlain).trans ((List.suffix_cons '#' code).trans (hcode ▸ hblank))
      exact (lineBreak?_suffix hend).trans hcomment
  · rw [endOfLine?_code hcode hc] at hend
    exact (lineBreak?_suffix hend).trans (hcode ▸ hblank)

/-- Behind the only line there is nothing. -/
theorem eq_nil_of_lines_one (hends : rest = [] ∨ Ends rest) (hread : lines 1 rest = some ls) :
    rest = [] ∧ ls = [] := by
  rcases hends with rfl | hends
  · cases hread
    exact ⟨rfl, rfl⟩
  · rcases lines_cases hends.skipBlanks.1.ne_nil hread with ⟨_, _, hzero⟩ | ⟨_, _, _, _, _, _, _, hzero, _⟩
    · cases hzero
    · cases hzero

end Line

/-! ### Lines in front of every text -/

/-- The text is read as these lines, whatever text follows. -/
def ReadsAs (text : List Char) (ls : List Line) : Prop :=
  ∃ n ≤ text.length, ∀ fuel rest, lines (fuel + n) (text ++ rest) = (lines fuel rest).map (ls ++ ·)

section Reading
variable {text more : List Char} {ls ms : List Line}

theorem readsAs_nil : ReadsAs [] [] := ⟨0, Nat.le_refl 0, fun fuel rest => by simp⟩

theorem ReadsAs.append (h : ReadsAs text ls) (hmore : ReadsAs more ms) : ReadsAs (text ++ more) (ls ++ ms) := by
  obtain ⟨n, hn, hlines⟩ := h
  obtain ⟨m, hm, hlines'⟩ := hmore
  refine ⟨m + n, by rw [List.length_append]; omega, fun fuel rest => ?_⟩
  rw [List.append_assoc, ← Nat.add_assoc, hlines, hlines', Option.map_map]
  congr 1
  funext tail
  exact (List.append_assoc ls ms tail).symm

theorem readsAs_flatMap {α : Type} {xs : List α} {texts : α → List Char} {lss : α → List Line}
    (h : ∀ x ∈ xs, ReadsAs (texts x) (lss x)) : ReadsAs (xs.flatMap texts) (xs.flatMap lss) := by
  induction xs with
  | nil => exact readsAs_nil
  | cons x xs ih =>
    obtain ⟨hx, hxs⟩ := List.forall_mem_cons.mp h
    exact hx.append (ih hxs)

/-- A text that is one line alone, or blank, is so in front of every text. -/
theorem ReadsAs.of_line (h : Ends text) (hread : lines 2 text = some ls) : ReadsAs text ls := by
  refine ⟨1, List.length_pos_iff.mpr h.ne_nil, fun fuel more => ?_⟩
  obtain ⟨hblank, hskip⟩ := h.skipBlanks
  have hmore := hskip more
  rcases lines_cases hblank.ne_nil hread with
    ⟨rest, hend, hone⟩ | ⟨l, behind, rest, ms, hend, hbody, hbreak, hone, rfl⟩
  · obtain ⟨rfl, rfl⟩ := eq_nil_of_lines_one (hblank.behind_endOfLine? hend) hone
    have hend' := hblank.endOfLine? more
    rw [hend, ← hmore] at hend'
    rw [lines_blank fuel (by rw [hmore]; simp [hblank.ne_nil]) hend']
    simp
  · obtain ⟨hbehind, hbody'⟩ := stable_lineBody hblank hbody
    obtain ⟨rfl, rfl⟩ := eq_nil_of_lines_one (hbehind.behind_endOfLine? hbreak) hone
    have hend' := hblank.endOfLine? more
    have hbreak' := hbehind.endOfLine? more
    rw [hend, ← hmore] at hend'
    rw [hbreak] at hbreak'
    rw [lines_line fuel hend' (hmore ▸ hbody' more) hbreak']
    rfl

/-- A text with lines does not begin with the mark of the byte order. -/
theorem ReadsAs.not_mark (h : ReadsAs text ls) (rest : List Char) : text ≠ '\ufeff' :: rest := by
  rintro rfl
  obtain ⟨n, -, hlines⟩ := h
  have hread := hlines 1 []
  have hnone (fuel : Nat) : lines fuel ('\ufeff' :: rest) = none := by
    cases fuel with
    | zero => rfl
    | succ fuel => rfl
  rw [List.append_nil, hnone] at hread
  cases hread

theorem ReadsAs.lines (h : ReadsAs text ls) : lines (text.length + 1) text = some ls := by
  obtain ⟨n, hn, hlines⟩ := h
  have hread := hlines (text.length - n + 1) []
  rw [List.append_nil, show text.length - n + 1 + n = text.length + 1 by omega] at hread
  rw [hread, Toml.lines]
  simp [skipBlanks]

end Reading

/-- A file holds the table that its lines build. -/
theorem parse_of_readsAs {text : String} {ls : List Line} (h : ReadsAs text.toList ls) :
    parse text = (ls.foldlM Building.add ⟨[], []⟩).map (·.root) := by
  rw [parse]
  split
  · next heq => exact absurd heq (h.not_mark _)
  · rw [h.lines]
    exact Option.map_eq_bind.symm

/-! ### Values behind an equals sign -/

section Values
variable {cs rest : List Char}

/-- A word that is no string begins with a digit, a sign or a letter. -/
theorem plainValue_eq_none {c : Char} (hdigit : c.isDigit = false) (hfirst : c ∉ ['+', '-', 't', 'f', 'i', 'n']) :
    plainValue (c :: cs) = none := by
  have hne {d : Char} (hd : d ∈ ['+', '-', 't', 'f', 'i', 'n']) : c ≠ d := fun heq => hfirst (heq ▸ hd)
  have hstart {d : Char} {rest : List Char} (hd : c ≠ d) : c :: cs ≠ d :: rest := mt List.head_eq_of_cons_eq hd
  have hzero : c ≠ '0' := by
    rintro rfl
    cases hdigit
  have hsign : sign (c :: cs) = (false, c :: cs) :=
    sign.eq_3 _ (fun _ => hstart (hne (by decide))) fun _ => hstart (hne (by decide))
  have hdecimal : decimal false (c :: cs) = none := by
    rw [decimal, wholeDigits.eq_2 _ (fun _ => hstart hzero), digits, if_neg (Bool.eq_false_iff.mp hdigit)]
    rfl
  rw [plainValue_eq_number (hne (by decide)) (hne (by decide)) (moment?_of_not_isDigit hdigit),
    number.eq_4 _ (fun _ => hstart hzero) (fun _ => hstart hzero) fun _ => hstart hzero, hsign]
  dsimp only
  split
  · next heq => exact absurd heq (hstart (hne (by decide)))
  · next heq => exact absurd heq (hstart (hne (by decide)))
  · exact hdecimal

theorem value_of_plainValue {v : Value} (depth : Nat) (h : plainValue cs = some (v, rest)) :
    value (depth + 1) cs = some (v, rest) := by
  have hopen {c : Char} {tail : List Char} (hdigit : c.isDigit = false)
      (hfirst : c ∉ ['+', '-', 't', 'f', 'i', 'n']) : cs ≠ c :: tail := by
    rintro rfl
    rw [plainValue_eq_none hdigit hfirst] at h
    cases h
  rw [value.eq_6 _ _ (fun _ => hopen rfl (by decide)) (fun _ => hopen rfl (by decide))
    (fun _ => hopen rfl (by decide)) (fun _ => hopen rfl (by decide)), h]

theorem value_of_anyString {text : List Char} (depth : Nat) (h : anyString cs = some (text, rest)) :
    value (depth + 1) cs = some (.string (String.ofList text), rest) := by
  cases cs with
  | nil => cases h
  | cons c cs =>
    by_cases hdouble : c = '"'
    · rw [hdouble] at h ⊢
      rw [value, h]
      rfl
    by_cases hsingle : c = '\''
    · rw [hsingle] at h ⊢
      rw [value, h]
      rfl
    · rw [anyString.eq_3 _ (fun _ => mt List.head_eq_of_cons_eq hdouble)
          (fun _ => mt List.head_eq_of_cons_eq hsingle),
        shortString.eq_3 _ (fun _ => mt List.head_eq_of_cons_eq hdouble)
          fun _ => mt List.head_eq_of_cons_eq hsingle] at h
      cases h

/-- A value begins with no blank. -/
theorem skipBlanks_of_value {depth : Nat} {v : Value} (h : value depth cs = some (v, rest)) : skipBlanks cs = cs := by
  cases cs with
  | nil => rfl
  | cons c cs =>
    refine List.dropWhile_cons_of_neg fun hblank => ?_
    have hnone : value depth (c :: cs) = none := by
      cases depth with
      | zero => rfl
      | succ depth =>
        rcases (by simpa [isBlank] using hblank : c = ' ' ∨ c = '\t') with rfl | rfl
        · exact (plainValue_eq_none rfl (by decide) : plainValue (' ' :: cs) = none)
        · exact (plainValue_eq_none rfl (by decide) : plainValue ('\t' :: cs) = none)
    rw [hnone] at h
    cases h

end Values

/-! ### Entries -/

section Bare
variable {name : List Char}

theorem skipBlanks_bare {c : Char} (hc : isBare c = true) (rest : List Char) :
    skipBlanks (c :: rest) = c :: rest := by
  refine List.dropWhile_cons_of_neg ?_
  simp [isBlank, ne_of_isBare hc (d := ' ') rfl, ne_of_isBare hc (d := '\t') rfl]

theorem endOfLine?_bare {c : Char} (hc : isBare c = true) (rest : List Char) : endOfLine? (c :: rest) = none := by
  rw [endOfLine?_code (skipBlanks_bare hc rest) (ne_of_isBare hc rfl)]
  exact lineBreak?.eq_3 _ (fun _ => cons_ne_of_isBare hc rfl) fun _ => cons_ne_of_isBare hc rfl

theorem lineBody_bare {c : Char} (hc : isBare c = true) (rest : List Char) :
    lineBody (c :: rest) =
      (entry (value (nesting + 1)) (c :: rest)).map fun p => (.entry p.1.1 p.1.2, p.2) := by
  rw [lineBody.eq_3 _ (fun _ => cons_ne_of_isBare hc rfl) fun _ => cons_ne_of_isBare hc rfl]

/-- A bare key stands before its equals sign. -/
theorem key_bare {c : Char} (hbare : ∀ d ∈ c :: name, isBare d = true) (rest : List Char) :
    key nesting (c :: name ++ ' ' :: '=' :: rest) = some ([String.ofList (c :: name)], '=' :: rest) := by
  have hc : isBare c = true := hbare c List.mem_cons_self
  have hquotes : shortString (c :: name ++ ' ' :: '=' :: rest) = none :=
    shortString.eq_3 _ (fun _ => cons_ne_of_isBare hc rfl) fun _ => cons_ne_of_isBare hc rfl
  have htake : (c :: name ++ ' ' :: '=' :: rest).takeWhile isBare = c :: name := by
    rw [List.takeWhile_append_of_pos hbare]
    simp [isBare]
  have hdrop : (c :: name ++ ' ' :: '=' :: rest).dropWhile isBare = ' ' :: '=' :: rest := by
    rw [List.dropWhile_append_of_pos hbare]
    rfl
  have hpart : keyPart (c :: name ++ ' ' :: '=' :: rest) =
      some (String.ofList (c :: name), ' ' :: '=' :: rest) := by
    rw [keyPart, hquotes]
    simp only [htake, hdrop]
    rfl
  rw [nesting, key, List.cons_append, skipBlanks_bare hc, ← List.cons_append, hpart]
  rfl

/-- An entry with a bare key is a line if its value is read up to the end of the line. -/
theorem ReadsAs.of_entry {written : List Char} {v : Value} (hne : name ≠ [])
    (hbare : ∀ c ∈ name, isBare c = true)
    (hvalue : ∀ rest, value (nesting + 1) (written ++ '\n' :: rest) = some (v, '\n' :: rest)) :
    ReadsAs (name ++ ' ' :: '=' :: ' ' :: written ++ ['\n']) [.entry [String.ofList name] v] := by
  obtain ⟨c, name, rfl⟩ := List.exists_cons_of_ne_nil hne
  have hc : isBare c = true := hbare c List.mem_cons_self
  refine ⟨1, by simp, fun fuel rest => ?_⟩
  have htext : (c :: name ++ ' ' :: '=' :: ' ' :: written ++ ['\n']) ++ rest =
      c :: name ++ ' ' :: '=' :: ' ' :: (written ++ '\n' :: rest) := by simp
  have hentry : entry (value (nesting + 1)) (c :: name ++ ' ' :: '=' :: ' ' :: (written ++ '\n' :: rest)) =
      some (([String.ofList (c :: name)], v), '\n' :: rest) := by
    have hblank : skipBlanks (' ' :: (written ++ '\n' :: rest)) = written ++ '\n' :: rest := by
      rw [skipBlanks, List.dropWhile_cons_of_pos rfl]
      exact skipBlanks_of_value (hvalue rest)
    rw [entry, key_bare hbare]
    simp only [bind, Option.bind_some, hblank, hvalue]
    rfl
  rw [htext]
  rw [List.cons_append] at hentry ⊢
  refine lines_line fuel ?_ ?_ (show endOfLine? ('\n' :: rest) = some rest from rfl)
  · rw [skipBlanks_bare hc, endOfLine?_bare hc]
  · rw [skipBlanks_bare hc, lineBody_bare hc, hentry]
    rfl

end Bare

end IsolatedSolving.Toml
