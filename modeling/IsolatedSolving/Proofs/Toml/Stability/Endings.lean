import IsolatedSolving.Toml.Document
import Mathlib.Data.List.TakeWhile
import Mathlib.Tactic.Common

/-! Texts that end with the end of a line.

No reader looks further than the end of a line, unless it goes on behind it and then needs a mark that closes
what it reads. So what it takes off a text that ends with one (`Ends`) stays the same when more text follows
(`Stable`). Blanks and comments are skipped alike with or without the text that follows. -/
namespace IsolatedSolving.Toml

/-! ### Texts with an end of line -/

/-- The text ends with the end of a line. -/
def Ends (cs : List Char) : Prop := ['\n'] <:+ cs

instance : DecidablePred Ends := fun cs => inferInstanceAs (Decidable (['\n'] <:+ cs))

theorem Ends.of_suffix {cs rest : List Char} (h : Ends cs) (hrest : rest <:+ cs) (hne : rest ≠ []) :
    Ends rest :=
  List.suffix_of_suffix_length_le h hrest (List.length_pos_iff.mpr hne)

theorem Ends.ne_nil {cs : List Char} (h : Ends cs) : cs ≠ [] := by
  rintro rfl
  exact List.cons_ne_nil _ _ (List.suffix_nil.mp h)

theorem Ends.mem {cs : List Char} (h : Ends cs) : '\n' ∈ cs := h.subset (List.mem_singleton_self _)

/-- Only the end of the line is the last character. -/
theorem Ends.tail {c : Char} {cs : List Char} (h : Ends (c :: cs)) (hc : c ≠ '\n') : Ends cs := by
  refine h.of_suffix (List.suffix_cons c cs) ?_
  rintro rfl
  exact hc (List.mem_singleton.mp h.mem).symm

/-- What begins such a text with more behind it begins the text itself, unless it goes on behind an end of
line. -/
theorem Ends.exists_of_append {cs p rest more : List Char} (h : Ends cs) (hp : '\n' ∉ p.dropLast)
    (heq : cs ++ more = p ++ rest) : ∃ tail, cs = p ++ tail ∧ rest = tail ++ more := by
  rcases List.append_eq_append_iff.mp heq with ⟨a, rfl, rfl⟩ | ⟨tail, hcs, hrest⟩
  · cases a with
    | nil => exact ⟨[], by simp, by simp⟩
    | cons c a =>
      refine absurd ?_ hp
      rw [List.dropLast_append_of_ne_nil (List.cons_ne_nil c a)]
      exact List.mem_append_left _ h.mem
  · exact ⟨tail, hcs, hrest⟩

/-- Behind a part of the text the rest ends as the text does, if there is any. -/
theorem Ends.of_append {p rest : List Char} (h : Ends (p ++ rest)) (hne : rest ≠ []) : Ends rest :=
  h.of_suffix (List.suffix_append p rest) hne

/-- Behind a word on a line the text goes on. -/
theorem Ends.of_word {w rest : List Char} (h : Ends (w ++ rest)) (hw : '\n' ∉ w) : Ends rest := by
  refine h.of_append ?_
  rintro rfl
  rw [List.append_nil] at h
  exact hw h.mem

/-- What does not begin the text does not begin it with more behind it. -/
theorem Ends.not_append {cs p : List Char} (h : Ends cs) (hp : '\n' ∉ p.dropLast)
    (hno : ∀ rest, cs = p ++ rest → False) (more rest : List Char) : cs ++ more = p ++ rest → False := by
  intro heq
  obtain ⟨tail, hcs, -⟩ := h.exists_of_append hp heq
  exact hno tail hcs

section Blanks
variable {cs : List Char}

theorem Ends.dropWhile {p : Char → Bool} (h : Ends cs) (hp : p '\n' = false) :
    Ends (cs.dropWhile p) ∧ ∀ more, (cs ++ more).dropWhile p = cs.dropWhile p ++ more := by
  have hne : cs.dropWhile p ≠ [] := by
    rw [Ne, List.dropWhile_eq_nil_iff]
    intro hall
    rw [hall _ h.mem] at hp
    cases hp
  refine ⟨h.of_suffix (List.dropWhile_suffix p) hne, fun more => ?_⟩
  rw [List.dropWhile_append, if_neg (mt List.isEmpty_iff.mp hne)]

theorem Ends.takeWhile {p : Char → Bool} (h : Ends cs) (hp : p '\n' = false) (more : List Char) :
    (cs ++ more).takeWhile p = cs.takeWhile p := by
  rw [List.takeWhile_append, if_neg]
  intro hall
  have hbreak := List.takeWhile_eq_self_iff.mp ((List.takeWhile_prefix p).eq_of_length hall) _ h.mem
  rw [hp] at hbreak
  cases hbreak

theorem Ends.skipBlanks (h : Ends cs) :
    Ends (skipBlanks cs) ∧ ∀ more, Toml.skipBlanks (cs ++ more) = Toml.skipBlanks cs ++ more :=
  h.dropWhile rfl

theorem Ends.lineBreak? (h : Ends cs) (more : List Char) :
    lineBreak? (cs ++ more) = (Toml.lineBreak? cs).map (· ++ more) := by
  fun_cases Toml.lineBreak? cs with
  | case1 rest => rfl
  | case2 rest => rfl
  | case3 _ hfirst hsecond =>
    rw [lineBreak?.eq_3]
    · rfl
    · intro rest heq
      obtain ⟨tail, rfl, -⟩ := h.exists_of_append (p := ['\n']) (by decide) heq
      exact hfirst tail rfl
    · intro rest heq
      obtain ⟨tail, rfl, -⟩ := h.exists_of_append (p := ['\r', '\n']) (by decide) heq
      exact hsecond tail rfl

theorem endOfLine?_comment {rest : List Char} (h : skipBlanks cs = '#' :: rest) :
    endOfLine? cs =
      if (rest.dropWhile isPlain).isEmpty then some [] else lineBreak? (rest.dropWhile isPlain) := by
  rw [endOfLine?, h]
  rfl

theorem endOfLine?_code {c : Char} {rest : List Char} (h : skipBlanks cs = c :: rest) (hc : c ≠ '#') :
    endOfLine? cs = lineBreak? (c :: rest) := by
  rw [endOfLine?, h]
  split
  · next heq => exact absurd (List.cons.inj heq).1 hc
  · rfl

theorem Ends.endOfLine? (h : Ends cs) (more : List Char) :
    endOfLine? (cs ++ more) = (Toml.endOfLine? cs).map (· ++ more) := by
  obtain ⟨hblank, hskip⟩ := h.skipBlanks
  obtain ⟨c, code, hcode⟩ := List.exists_cons_of_ne_nil hblank.ne_nil
  have hmore := hskip more
  rw [hcode] at hblank hmore
  by_cases hc : c = '#'
  · subst hc
    obtain ⟨hcomment, hrest⟩ := (hblank.tail (by decide)).dropWhile (p := isPlain) rfl
    obtain ⟨d, ds, hds⟩ := List.exists_cons_of_ne_nil hcomment.ne_nil
    rw [List.cons_append] at hmore
    rw [endOfLine?_comment hmore, endOfLine?_comment hcode, hrest more, hds]
    exact (hds ▸ hcomment).lineBreak? more
  · rw [endOfLine?_code hmore hc, endOfLine?_code hcode hc]
    exact hblank.lineBreak? more

theorem lineBreak?_suffix {rest : List Char} (h : lineBreak? cs = some rest) : rest <:+ cs := by
  fun_cases Toml.lineBreak? cs with
  | case1 rest' =>
    cases h
    exact List.suffix_append ['\n'] rest
  | case2 rest' =>
    cases h
    exact List.suffix_append ['\r', '\n'] rest
  | case3 _ hfirst hsecond =>
    rw [lineBreak?.eq_3 _ hfirst hsecond] at h
    cases h

theorem Ends.dropLineBreak (h : Ends cs) (hne : dropLineBreak cs ≠ []) :
    Ends (dropLineBreak cs) ∧ ∀ more, Toml.dropLineBreak (cs ++ more) = Toml.dropLineBreak cs ++ more := by
  have hlocal := h.lineBreak?
  simp only [Toml.dropLineBreak] at hne ⊢
  simp only [hlocal]
  cases hbreak : Toml.lineBreak? cs with
  | none => exact ⟨h, fun more => rfl⟩
  | some rest =>
    rw [hbreak] at hne
    exact ⟨h.of_suffix (lineBreak?_suffix hbreak) hne, fun more => rfl⟩

/-- What is left behind blank lines and comments, if anything is. -/
theorem Ends.skipSpace {inComment : Bool} (h : Ends cs) (hne : skipSpace inComment cs ≠ []) :
    Ends (skipSpace inComment cs) ∧
      ∀ more, Toml.skipSpace inComment (cs ++ more) = Toml.skipSpace inComment cs ++ more := by
  have hskip {p rest : List Char} (hcs : Ends (p ++ rest)) {b : Bool} (hne : Toml.skipSpace b rest ≠ []) :
      Ends rest := by
    refine hcs.of_append ?_
    rintro rfl
    exact hne rfl
  have hfirst {c : Char} {rest : List Char} (hcs : Ends (c :: rest)) (hbreak : c ≠ '\n')
      (hreturn : ∀ tail, c = '\r' → rest = '\n' :: tail → False) (more tail : List Char) :
      c = '\r' → rest ++ more = '\n' :: tail → False :=
    fun hc => (hcs.tail hbreak).not_append (p := ['\n']) (by decide) (hreturn · hc) more tail
  fun_induction Toml.skipSpace inComment cs with
  | case1 inComment rest ih => exact ih (hskip (p := ['\n']) h hne) hne
  | case2 inComment rest ih => exact ih (hskip (p := ['\r', '\n']) h hne) hne
  | case3 c rest hbreak hreturn hplain ih =>
    obtain ⟨hends, hmore⟩ := ih (h.tail hbreak) hne
    refine ⟨hends, fun more => ?_⟩
    rw [List.cons_append, skipSpace.eq_3 _ _ _ hbreak (hfirst h hbreak hreturn more), if_pos rfl,
      if_pos hplain, hmore]
  | case4 c rest hbreak hreturn hplain =>
    refine ⟨h, fun more => ?_⟩
    rw [List.cons_append, skipSpace.eq_3 _ _ _ hbreak (hfirst h hbreak hreturn more), if_pos rfl,
      if_neg hplain]
  | case5 inComment c rest hbreak hreturn hcomment hblank ih =>
    obtain ⟨hends, hmore⟩ := ih (h.tail hbreak) hne
    refine ⟨hends, fun more => ?_⟩
    rw [List.cons_append, skipSpace.eq_3 _ _ _ hbreak (hfirst h hbreak hreturn more), if_neg hcomment,
      if_pos hblank, hmore]
  | case6 inComment c rest hbreak hreturn hcomment hblank hmark ih =>
    obtain ⟨hends, hmore⟩ := ih (h.tail hbreak) hne
    refine ⟨hends, fun more => ?_⟩
    rw [List.cons_append, skipSpace.eq_3 _ _ _ hbreak (hfirst h hbreak hreturn more), if_neg hcomment,
      if_neg hblank, if_pos hmark, hmore]
  | case7 inComment c rest hbreak hreturn hcomment hblank hmark =>
    refine ⟨h, fun more => ?_⟩
    rw [List.cons_append, skipSpace.eq_3 _ _ _ hbreak (hfirst h hbreak hreturn more), if_neg hcomment,
      if_neg hblank, if_neg hmark]
  | case8 => exact absurd rfl hne

end Blanks

/-! ### Words -/

/-- A word that is read off a text with an end of line is the same with more text behind it. -/
def Stable {α : Type} (r : Reads α) : Prop :=
  ∀ ⦃cs v rest⦄, Ends cs → r cs = some (v, rest) →
    Ends rest ∧ ∀ more, r (cs ++ more) = some (v, rest ++ more)

section Combinators
variable {α β : Type}

theorem stable_return (v : Option α) : Stable fun cs => v.bind fun v => some (v, cs) := by
  intro cs w rest h hread
  obtain ⟨v, rfl, hv⟩ := Option.bind_eq_some_iff.mp hread
  cases hv
  exact ⟨h, fun _ => rfl⟩

theorem Stable.map {r : Reads α} (hr : Stable r) (f : α → β) :
    Stable fun cs => (r cs).map fun p => (f p.1, p.2) := by
  intro cs w rest h hread
  obtain ⟨⟨v, rest⟩, hv, hw⟩ := Option.map_eq_some_iff.mp hread
  cases hw
  obtain ⟨hrest, hmore⟩ := hr h hv
  exact ⟨hrest, fun more => by simp only [hmore, Option.map_some]⟩

theorem Stable.bind {r : Reads α} {f : α → Reads β} (hr : Stable r) (hf : ∀ v, Stable (f v)) :
    Stable fun cs => (r cs).bind fun p => f p.1 p.2 := by
  intro cs w rest h hread
  obtain ⟨⟨v, behind⟩, hv, hw⟩ := Option.bind_eq_some_iff.mp hread
  obtain ⟨hbehind, hmore⟩ := hr h hv
  obtain ⟨hrest, hmore'⟩ := hf v hbehind hw
  exact ⟨hrest, fun more => by simp only [hmore, Option.bind_some, hmore']⟩

end Combinators

end IsolatedSolving.Toml
