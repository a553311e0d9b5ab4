import IsolatedSolving.Proofs.Toml.Stability.Moments
import IsolatedSolving.Proofs.Toml.Stability.Numbers
import IsolatedSolving.Proofs.Toml.Stability.Strings

/-! Values and lines whatever follows them.

Arrays and long strings go on behind the end of a line, but only if they are not closed yet, so a value that is
read off a line is the same with more text behind it (`stable_value`), however many items it was allowed to have.
So a line that is read alone is read in every file (`stable_lineBody`). -/
namespace IsolatedSolving.Toml

/-! ### Plain values -/

theorem stable_plainValue : Stable plainValue := by
  intro cs v rest h hread
  rw [plainValue.eq_def] at hread
  split at hread
  · cases hread
    exact ⟨h.of_word (w := ['t', 'r', 'u', 'e']) (by decide), fun _ => rfl⟩
  · cases hread
    exact ⟨h.of_word (w := ['f', 'a', 'l', 's', 'e']) (by decide), fun _ => rfl⟩
  · next htrue hfalse =>
    have hthree (more : List Char) := plainValue.eq_3 _
      (h.not_append (p := ['t', 'r', 'u', 'e']) (by decide) htrue more)
      (h.not_append (p := ['f', 'a', 'l', 's', 'e']) (by decide) hfalse more)
    obtain ⟨hends, hmore⟩ := settled_moment? h
    simp only [hthree, hmore]
    cases hmoment : moment? cs with
    | some behind =>
      rw [hmoment] at hread
      cases hread
      exact ⟨hends rest hmoment, fun _ => rfl⟩
    | none =>
      rw [hmoment] at hread
      exact stable_number h hread

/-! ### Arrays -/

section Items
variable {item : Reads Value} {fuel fuel' : Nat} {cs rest : List Char} {vs : List Value}

/-- The items of an array end with its bracket, which may stand behind a comma, or begin with one that a comma
or the bracket follows. -/
theorem arrayItems_eq_some :
    arrayItems item (fuel + 1) cs = some (vs, rest) ↔
      skipSpace false cs = ']' :: rest ∧ vs = [] ∨
      (∀ tail, skipSpace false cs = ']' :: tail → False) ∧
        ∃ v behind, item (skipSpace false cs) = some (v, behind) ∧
          ((∃ next ws, skipSpace false behind = ',' :: next ∧ arrayItems item fuel next = some (ws, rest) ∧
              vs = v :: ws) ∨
            skipSpace false behind = ']' :: rest ∧ vs = [v]) := by
  rw [arrayItems]
  split
  · next tail heq =>
    rw [heq]
    constructor
    · intro h
      cases h
      exact .inl ⟨rfl, rfl⟩
    · rintro (⟨heq', rfl⟩ | ⟨hopen, -⟩)
      · cases heq'
        rfl
      · exact (hopen tail rfl).elim
  · next hopen =>
    constructor
    · intro h
      obtain ⟨⟨v, behind⟩, hitem, h⟩ := Option.bind_eq_some_iff.mp h
      refine .inr ⟨hopen, v, behind, hitem, ?_⟩
      dsimp only at h
      split at h
      · next next heq =>
        obtain ⟨⟨ws, rest'⟩, hws, hvs⟩ := Option.map_eq_some_iff.mp h
        cases hvs
        exact .inl ⟨next, ws, heq, hws, rfl⟩
      · next heq =>
        cases h
        exact .inr ⟨heq, rfl⟩
      · cases h
    · rintro (⟨hclose, -⟩ | ⟨-, v, behind, hitem, ⟨next, ws, hcomma, hws, rfl⟩ | ⟨hclose, rfl⟩⟩)
      · exact (hopen rest hclose).elim
      · simp only [hitem, bind, Option.bind_some, hcomma, hws, Option.map_some]
      · simp only [hitem, bind, Option.bind_some, hclose]

theorem stable_arrayItems (hitem : Stable item) (hnil : item [] = none) (hfuel : fuel ≤ fuel') (h : Ends cs)
    (hread : arrayItems item fuel cs = some (vs, rest)) :
    Ends rest ∧ ∀ more, arrayItems item fuel' (cs ++ more) = some (vs, rest ++ more) := by
  induction fuel generalizing fuel' cs vs with
  | zero => cases hread
  | succ fuel ih =>
    obtain ⟨fuel', rfl⟩ : ∃ more, fuel' = more + 1 := ⟨fuel' - 1, by omega⟩
    -- what is found behind blank lines is found there with more text behind it
    have hspace {cs tail : List Char} {c : Char} (h : Ends cs) (heq : skipSpace false cs = c :: tail) :
        Ends (c :: tail) ∧ ∀ more, skipSpace false (cs ++ more) = c :: (tail ++ more) := by
      obtain ⟨hends, hmore⟩ := h.skipSpace (by rw [heq]; exact List.cons_ne_nil c tail)
      rw [heq] at hends hmore
      exact ⟨hends, hmore⟩
    rcases arrayItems_eq_some.mp hread with ⟨hclose, rfl⟩ | ⟨hopen, v, behind, hv, hbehind⟩
    · obtain ⟨hends, hmore⟩ := hspace h hclose
      exact ⟨hends.tail (by decide), fun more => arrayItems_eq_some.mpr (.inl ⟨hmore more, rfl⟩)⟩
    have hne : skipSpace false cs ≠ [] := by
      intro hempty
      rw [hempty, hnil] at hv
      cases hv
    obtain ⟨hends, hmore⟩ := h.skipSpace hne
    obtain ⟨hends', hv'⟩ := hitem hends hv
    have hopen' (more tail : List Char) : skipSpace false (cs ++ more) = ']' :: tail → False := by
      rw [hmore]
      exact hends.not_append (p := [']']) (by decide) hopen more tail
    rcases hbehind with ⟨next, ws, hcomma, hws, rfl⟩ | ⟨hclose, rfl⟩
    · obtain ⟨hnext, hcomma'⟩ := hspace hends' hcomma
      obtain ⟨hrest, hws'⟩ := ih (Nat.le_of_succ_le_succ hfuel) (hnext.tail (by decide)) hws
      exact ⟨hrest, fun more => arrayItems_eq_some.mpr (.inr ⟨hopen' more, v, _, hmore more ▸ hv' more,
        .inl ⟨_, ws, hcomma' more, hws' more, rfl⟩⟩)⟩
    · obtain ⟨hnext, hclose'⟩ := hspace hends' hclose
      exact ⟨hnext.tail (by decide), fun more => arrayItems_eq_some.mpr (.inr ⟨hopen' more, v, _,
        hmore more ▸ hv' more, .inr ⟨hclose' more, rfl⟩⟩)⟩

/-! ### Entries and inline tables -/

theorem stable_entry (hitem : Stable item) : Stable (entry item) := by
  intro cs found rest h hread
  rw [entry] at hread
  obtain ⟨⟨path, behind⟩, hpath, hread⟩ := Option.bind_eq_some_iff.mp hread
  obtain ⟨hbehind, hpath'⟩ := stable_key nesting h hpath
  dsimp only at hread
  split at hread
  · obtain ⟨hblank, hskip⟩ := (hbehind.tail (by decide)).skipBlanks
    obtain ⟨⟨v, rest'⟩, hv, hread⟩ := Option.bind_eq_some_iff.mp hread
    cases hread
    obtain ⟨hrest, hv'⟩ := hitem hblank hv
    refine ⟨hrest, fun more => ?_⟩
    rw [entry, hpath']
    simp only [bind, Option.bind_some, List.cons_append, hskip, hv']
    rfl
  · cases hread

theorem stable_inlineEntries (hitem : Stable item) (hfuel : fuel ≤ fuel')
    {es found : Entries} (h : Ends cs)
    (hread : inlineEntries item fuel es cs = some (found, rest)) :
    Ends rest ∧ ∀ more, inlineEntries item fuel' es (cs ++ more) = some (found, rest ++ more) := by
  induction fuel generalizing fuel' es cs with
  | zero => cases hread
  | succ fuel ih =>
    obtain ⟨fuel', rfl⟩ : ∃ more, fuel' = more + 1 := ⟨fuel' - 1, by omega⟩
    rw [inlineEntries] at hread
    obtain ⟨⟨⟨path, v⟩, behind⟩, hentry, hread⟩ := Option.bind_eq_some_iff.mp hread
    obtain ⟨hbehind, hentry'⟩ := stable_entry hitem h hentry
    obtain ⟨es', hadd, hread⟩ := Option.bind_eq_some_iff.mp hread
    obtain ⟨hblank, hskip⟩ := hbehind.skipBlanks
    split at hread
    · next rest' heq =>
      rw [heq] at hblank hskip
      obtain ⟨hrest, hmore⟩ := ih (Nat.le_of_succ_le_succ hfuel) (hblank.tail (by decide)) hread
      refine ⟨hrest, fun more => ?_⟩
      simp only [inlineEntries, hentry', bind, Option.bind_some, hadd, hskip, List.cons_append, hmore]
    · next rest' heq =>
      cases hread
      rw [heq] at hblank hskip
      refine ⟨hblank.tail (by decide), fun more => ?_⟩
      simp only [inlineEntries, hentry', bind, Option.bind_some, hadd, hskip, List.cons_append]
    · cases hread

end Items

/-! ### Values -/

section Values
variable {depth : Nat}

theorem value_nil (depth : Nat) : value depth [] = none := by
  cases depth with
  | zero => rfl
  | succ depth => rfl

theorem stable_array (h : Stable (value depth)) : Stable fun cs => value (depth + 1) ('[' :: cs) := by
  intro cs v rest hends hread
  have hmap (cs : List Char) : value (depth + 1) ('[' :: cs) =
      (arrayItems (value depth) (cs.length + 1) cs).map fun p => (.array p.1, p.2) := rfl
  dsimp only at hread ⊢
  rw [hmap] at hread
  obtain ⟨⟨vs, rest⟩, hvs, hv⟩ := Option.map_eq_some_iff.mp hread
  cases hv
  have hitems (more : List Char) := stable_arrayItems h (value_nil depth)
    (show cs.length + 1 ≤ (cs ++ more).length + 1 by simp) hends hvs
  refine ⟨(hitems []).1, fun more => ?_⟩
  rw [hmap, (hitems more).2]
  rfl

theorem stable_inlineTable (h : Stable (value depth)) : Stable fun cs => value (depth + 1) ('{' :: cs) := by
  intro cs v rest hends hread
  obtain ⟨hblank, hskip⟩ := hends.skipBlanks
  dsimp only at hread ⊢
  rw [value] at hread
  split at hread
  · next behind heq =>
    cases hread
    rw [heq] at hblank hskip
    refine ⟨hblank.tail (by decide), fun more => ?_⟩
    rw [value, hskip]
    rfl
  · next hclose =>
    obtain ⟨⟨es, rest⟩, hes, hv⟩ := Option.map_eq_some_iff.mp hread
    cases hv
    have hentries (more : List Char) := stable_inlineEntries h
      (show ('{' :: cs).length ≤ ('{' :: (cs ++ more)).length by simp) hblank hes
    refine ⟨(hentries []).1, fun more => ?_⟩
    rw [value, hskip]
    split
    · next heq => exact (hblank.not_append (p := ['}']) (by decide) hclose more _ heq).elim
    · rw [(hentries more).2]
      rfl

/-- A value that no mark opens. -/
theorem value_plain {c : Char} (h : c ∉ ['[', '{', '"', '\'']) (cs : List Char) :
    value (depth + 1) (c :: cs) = plainValue (c :: cs) := by
  have hne {d : Char} (hd : d ∈ ['[', '{', '"', '\'']) (rest : List Char) : c :: cs = d :: rest → False :=
    fun heq => h ((List.cons.inj heq).1 ▸ hd)
  exact value.eq_6 _ _ (hne (by decide)) (hne (by decide)) (hne (by decide)) (hne (by decide))

theorem stable_value (depth : Nat) : Stable (value depth) := by
  have hstring := stable_anyString.map fun text => Value.string (String.ofList text)
  induction depth with
  | zero =>
    intro cs v rest h hread
    cases hread
  | succ depth ih =>
    intro cs v rest h hread
    obtain ⟨c, cs, rfl⟩ := List.exists_cons_of_ne_nil h.ne_nil
    by_cases hc : c ∈ ['[', '{', '"', '\'']
    · simp only [List.mem_cons, List.not_mem_nil, or_false] at hc
      rcases hc with rfl | rfl | rfl | rfl
      · exact stable_array ih (h.tail (by decide)) hread
      · exact stable_inlineTable ih (h.tail (by decide)) hread
      · exact hstring h hread
      · exact hstring h hread
    · rw [value_plain hc] at hread
      obtain ⟨hrest, hmore⟩ := stable_plainValue h hread
      refine ⟨hrest, fun more => ?_⟩
      rw [List.cons_append, value_plain hc]
      exact hmore more

end Values

/-! ### Lines -/

theorem stable_lineBody : Stable lineBody := by
  intro cs l rest h hread
  rw [lineBody.eq_def] at hread
  split at hread
  · next cs =>
    obtain ⟨⟨path, behind⟩, hpath, hread⟩ := Option.bind_eq_some_iff.mp hread
    obtain ⟨hbehind, hmore⟩ := stable_key nesting (h.of_word (w := ['[', '[']) (by decide)) hpath
    dsimp only at hread
    split at hread
    · cases hread
      refine ⟨hbehind.of_word (w := [']', ']']) (by decide), fun more => ?_⟩
      simp only [List.cons_append, lineBody, hmore, bind, Option.bind_some]
      rfl
    · cases hread
  · next cs hdouble =>
    obtain ⟨⟨path, behind⟩, hpath, hread⟩ := Option.bind_eq_some_iff.mp hread
    obtain ⟨hbehind, hmore⟩ := stable_key nesting (h.tail (by decide)) hpath
    dsimp only at hread
    split at hread
    · cases hread
      refine ⟨hbehind.tail (by decide), fun more => ?_⟩
      have hopen := (h.tail (by decide)).not_append (p := ['[']) (by decide)
        (fun rest heq => hdouble rest (heq ▸ rfl)) more
      rw [List.cons_append, lineBody.eq_2 _ hopen]
      simp only [List.cons_append, hmore, bind, Option.bind_some]
      rfl
    · cases hread
  · next hnext htable =>
    obtain ⟨hrest, hmore⟩ :=
      (stable_entry (stable_value (nesting + 1))).map (fun e => Line.entry e.1 e.2) h hread
    refine ⟨hrest, fun more => ?_⟩
    rw [lineBody.eq_3 _ (h.not_append (p := ['[', '[']) (by decide) hnext more)
      (h.not_append (p := ['[']) (by decide) htable more)]
    exact hmore more

end IsolatedSolving.Toml
