import IsolatedSolving.Proofs.Toml.Stability.Endings

/-! Dates and times whatever follows them.

A value may be a date, a time or neither, so here it matters as well that what is none stays none when more text
follows (`Settled`): the digits that are missing on a line are not found behind its end. -/
namespace IsolatedSolving.Toml

/-- A part of a text that is found or not found, whatever follows behind the end of line. -/
def Settled (s : List Char → Option (List Char)) : Prop :=
  ∀ ⦃cs⦄, Ends cs →
    (∀ rest, s cs = some rest → Ends rest) ∧ ∀ more, s (cs ++ more) = (s cs).map (· ++ more)

theorem settled_some : Settled some := fun _ h => ⟨fun _ hrest => Option.some.inj hrest ▸ h, fun _ => rfl⟩

theorem Settled.then {s t : List Char → Option (List Char)} (hs : Settled s) (ht : Settled t) :
    Settled fun cs => (s cs).bind t := by
  intro cs h
  obtain ⟨hends, hmore⟩ := hs h
  simp only [hmore]
  cases hfound : s cs with
  | none => exact ⟨nofun, fun _ => rfl⟩
  | some rest => exact ht (hends rest hfound)

theorem settled_exactly {c : Char} (hc : c ≠ '\n') : Settled (exactly c) := by
  intro cs h
  obtain ⟨d, cs, rfl⟩ := List.exists_cons_of_ne_nil h.ne_nil
  rw [exactly]
  split
  · next hd =>
    exact ⟨fun rest hrest => Option.some.inj hrest ▸ h.tail (hd ▸ hc), fun more => if_pos hd⟩
  · next hd => exact ⟨nofun, fun more => if_neg hd⟩

/-! ### So many digits -/

section Digits
variable {n low high : Nat} {cs : List Char}

theorem fixedDigits_eq_none (h : '\n' ∈ cs.take n) : fixedDigits n low high cs = none := by
  have hdigits : (cs.take n).all Char.isDigit = false := List.all_eq_false.mpr ⟨'\n', h, by decide⟩
  rw [fixedDigits, hdigits]
  exact if_neg (by simp)

theorem fixedDigits_append (h : n ≤ cs.length) (more : List Char) :
    fixedDigits n low high (cs ++ more) = (fixedDigits n low high cs).map fun p => (p.1, p.2 ++ more) := by
  simp only [fixedDigits, List.take_append_of_le_length h, List.drop_append_of_le_length h]
  split
  · rfl
  · rfl

/-- Digits that are found are not the end of the line. -/
theorem Ends.fixedDigits {k : Nat} {rest : List Char} (h : Ends cs)
    (hfound : fixedDigits n low high cs = some (k, rest)) : Ends rest := by
  have hbreak : '\n' ∉ cs.take n := by
    intro hmem
    rw [fixedDigits_eq_none hmem] at hfound
    cases hfound
  rw [Toml.fixedDigits] at hfound
  split at hfound
  · cases hfound
    rw [← List.take_append_drop n cs] at h
    exact h.of_word hbreak
  · cases hfound

/-- So many digits, whatever is done with their number. -/
theorem settled_fixedDigits {f : Nat → List Char → Option (List Char)} (hf : ∀ k, Settled (f k)) :
    Settled fun cs => (Toml.fixedDigits n low high cs).bind fun p => f p.1 p.2 := by
  intro cs h
  dsimp only
  rcases Nat.lt_or_ge cs.length n with hshort | hlong
  · have hbreak (more : List Char) : '\n' ∈ (cs ++ more).take n := by
      rw [List.take_append, List.take_of_length_le (Nat.le_of_lt hshort)]
      exact List.mem_append_left _ h.mem
    have hnone : Toml.fixedDigits n low high cs = none :=
      fixedDigits_eq_none (by simpa using hbreak [])
    refine ⟨by rw [hnone]; exact nofun, fun more => ?_⟩
    rw [hnone, fixedDigits_eq_none (hbreak more)]
    rfl
  · simp only [fixedDigits_append hlong]
    cases hfound : Toml.fixedDigits n low high cs with
    | none => exact ⟨nofun, fun _ => rfl⟩
    | some found => exact hf found.1 (h.fixedDigits hfound)

end Digits

/-! ### Dates, times and zones -/

theorem settled_date? : Settled date? :=
  settled_fixedDigits fun year => (settled_exactly (by decide)).then <|
    settled_fixedDigits fun month => (settled_exactly (by decide)).then <|
      settled_fixedDigits fun _ => settled_some

theorem Ends.skipFraction {cs : List Char} (h : Ends cs) :
    Ends (skipFraction cs) ∧ ∀ more, Toml.skipFraction (cs ++ more) = Toml.skipFraction cs ++ more := by
  fun_cases Toml.skipFraction cs with
  | case1 c rest hc =>
    have hrest : Ends rest := (h.tail (by decide)).tail (by rintro rfl; cases hc)
    obtain ⟨hends, hmore⟩ := hrest.dropWhile (p := Char.isDigit) rfl
    exact ⟨hends, fun more => (if_pos hc).trans (hmore more)⟩
  | case2 c rest hc => exact ⟨h, fun more => if_neg hc⟩
  | case3 cs hno =>
    refine ⟨h, fun more => skipFraction.eq_2 _ fun c rest heq => ?_⟩
    obtain ⟨tail, rfl, -⟩ := h.exists_of_append (p := ['.']) (by decide) heq
    obtain ⟨d, rest, rfl⟩ := List.exists_cons_of_ne_nil (h.tail (by decide)).ne_nil
    exact hno d rest rfl

theorem settled_time? : Settled time? :=
  settled_fixedDigits fun _ => (settled_exactly (by decide)).then <|
    settled_fixedDigits fun _ => (settled_exactly (by decide)).then <|
      settled_fixedDigits fun _ => fun _ h =>
        ⟨fun _ hrest => Option.some.inj hrest ▸ h.skipFraction.1,
          fun more => congrArg some (h.skipFraction.2 more)⟩

theorem settled_offset? : Settled offset? := by
  have hzone : Settled fun rest => (fixedDigits 2 0 23 rest).bind fun p => (exactly ':' p.2).bind fun cs =>
      (fixedDigits 2 0 59 cs).bind fun p => some p.2 :=
    settled_fixedDigits fun _ => (settled_exactly (by decide)).then <|
      settled_fixedDigits fun _ => settled_some
  intro cs h
  fun_cases offset? cs with
  | case1 cs => exact settled_some (h.tail (by decide))
  | case2 cs => exact settled_some (h.tail (by decide))
  | case3 cs => exact hzone (h.tail (by decide))
  | case4 cs => exact hzone (h.tail (by decide))
  | case5 cs hupper hlower hplus hminus =>
    refine ⟨fun rest hrest => Option.some.inj hrest ▸ h, fun more => ?_⟩
    exact offset?.eq_5 _ (h.not_append (p := ['Z']) (by decide) hupper more)
      (h.not_append (p := ['z']) (by decide) hlower more) (h.not_append (p := ['+']) (by decide) hplus more)
      (h.not_append (p := ['-']) (by decide) hminus more)

theorem settled_afterDate? : Settled afterDate? := by
  intro cs h
  obtain ⟨c, cs, rfl⟩ := List.exists_cons_of_ne_nil h.ne_nil
  simp only [List.cons_append, afterDate?]
  by_cases hc : (c == 'T' || c == 't' || c == ' ') = true
  · have hcs : Ends cs := h.tail (by rintro rfl; exact absurd hc (by decide))
    obtain ⟨hends, hmore⟩ := settled_time? hcs
    simp only [if_pos hc, hmore]
    cases htime : time? cs with
    | none => exact settled_some h
    | some rest => exact settled_offset? (hends rest htime)
  · simp only [if_neg hc]
    exact settled_some h

theorem settled_moment? : Settled moment? := by
  intro cs h
  obtain ⟨hends, hmore⟩ := settled_date? h
  simp only [moment?, hmore]
  cases hdate : date? cs with
  | none => exact settled_time? h
  | some rest => exact settled_afterDate? (hends rest hdate)

end IsolatedSolving.Toml
