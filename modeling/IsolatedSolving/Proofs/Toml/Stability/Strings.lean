import IsolatedSolving.Proofs.Toml.Escapes
import IsolatedSolving.Proofs.Toml.Stability.Endings

/-! Strings and keys whatever follows them.

A reader of strings takes off escapes and characters one by one until it comes to closing quotes. All of these
are the same when more text follows the end of line: closing quotes end a text only if something follows them
(`Closes`), and so a long string is closed by the same ones (`stable_longBasicRest`, `stable_longLiteralRest`). -/
namespace IsolatedSolving.Toml

/-! ### Parts of strings -/

theorem prepend_eq_some {c : Char} {found : Option (List Char × List Char)} {text rest : List Char} :
    prepend c found = some (text, rest) ↔ ∃ more, found = some (more, rest) ∧ text = c :: more := by
  cases found with
  | none => simp [prepend]
  | some p =>
    obtain ⟨ds, rest'⟩ := p
    simp only [prepend, Option.some.injEq, Prod.mk.injEq]
    constructor
    · rintro ⟨rfl, rfl⟩
      exact ⟨ds, ⟨rfl, rfl⟩, rfl⟩
    · rintro ⟨more, ⟨rfl, rfl⟩, rfl⟩
      exact ⟨rfl, rfl⟩

section Parts
variable {r r' : Reads (List Char)} {p cs text rest : List Char}

/-- Behind what was read the text goes on if the reader finds anything there. -/
theorem Ends.behind (h : Ends (p ++ cs)) (hnil : r [] = none) (hread : r cs = some (text, rest)) :
    Ends cs := by
  refine h.of_append ?_
  rintro rfl
  rw [hnil] at hread
  cases hread

/-- A part of a string that is passed over, given how the string goes on behind it. -/
theorem stable_skip (h : Ends (p ++ cs)) (hnil : r' [] = none)
    (ih : ∀ ⦃ds⦄, Ends cs → r' cs = some (ds, rest) →
      Ends rest ∧ ∀ more, r' (cs ++ more) = some (ds, rest ++ more))
    (hread : r' cs = some (text, rest))
    (hfront : ∀ more, Ends cs → r (p ++ (cs ++ more)) = r' (cs ++ more)) :
    Ends rest ∧ ∀ more, r (p ++ cs ++ more) = some (text, rest ++ more) := by
  have hcs := h.behind hnil hread
  obtain ⟨hrest, hmore⟩ := ih hcs hread
  refine ⟨hrest, fun more => ?_⟩
  rw [List.append_assoc, hfront more hcs, hmore]

/-- The same for a part that stands for a character. -/
theorem stable_prepend {x : Char} (h : Ends (p ++ cs)) (hnil : r' [] = none)
    (ih : ∀ ⦃ds⦄, Ends cs → r' cs = some (ds, rest) →
      Ends rest ∧ ∀ more, r' (cs ++ more) = some (ds, rest ++ more))
    (hread : prepend x (r' cs) = some (text, rest))
    (hfront : ∀ more, Ends cs → r (p ++ (cs ++ more)) = prepend x (r' (cs ++ more))) :
    Ends rest ∧ ∀ more, r (p ++ cs ++ more) = some (text, rest ++ more) := by
  obtain ⟨ds, hds, rfl⟩ := prepend_eq_some.mp hread
  have hcs := h.behind hnil hds
  obtain ⟨hrest, hmore⟩ := ih hcs hds
  refine ⟨hrest, fun more => ?_⟩
  rw [List.append_assoc, hfront more hcs, hmore]
  rfl

end Parts

/-! ### Short strings -/

theorem stable_literalRest : Stable literalRest := by
  intro cs text rest h hread
  fun_induction literalRest cs generalizing text with
  | case1 =>
    cases hread
    exact ⟨h.tail (by decide), fun more => rfl⟩
  | case2 c cs hquote hplain ih =>
    refine stable_prepend (p := [c]) h rfl ih hread fun more _ => ?_
    rw [List.singleton_append, literalRest.eq_2 _ _ hquote, if_pos hplain]
  | case3 => cases hread
  | case4 => cases hread

theorem stable_basicRest : Stable basicRest := by
  intro cs text rest h hread
  fun_induction basicRest cs generalizing text with
  | case1 =>
    cases hread
    exact ⟨h.tail (by decide), fun more => rfl⟩
  | case2 a b c d cs x hx ih =>
    exact stable_prepend (p := ['\\', 'u', a, b, c, d]) h rfl ih hread fun _ _ =>
      basicRest_escapes (.four hx) _
  | case3 => cases hread
  | case4 a b c d e f g k cs x hx ih =>
    exact stable_prepend (p := ['\\', 'U', a, b, c, d, e, f, g, k]) h rfl ih hread fun _ _ =>
      basicRest_escapes (.eight hx) _
  | case5 => cases hread
  | case6 e cs _ _ x hx ih =>
    exact stable_prepend (p := ['\\', e]) h rfl ih hread fun _ _ => basicRest_escapes (.letter hx) _
  | case7 => cases hread
  | case8 c cs hquote _ _ _ hplain ih =>
    have hbackslash : c ≠ '\\' := bne_iff_ne.mp (Bool.and_eq_true_iff.mp hplain).2
    refine stable_prepend (p := [c]) h rfl ih hread fun more _ => ?_
    rw [List.singleton_append, basicRest.eq_5 _ _ hquote (fun _ _ _ _ _ h => absurd h hbackslash)
      (fun _ _ _ _ _ _ _ _ _ h => absurd h hbackslash) (fun _ _ h => absurd h hbackslash), if_pos hplain]
  | case9 => cases hread
  | case10 => cases hread

theorem stable_shortString : Stable shortString := by
  intro cs text rest h hread
  fun_cases shortString cs with
  | case1 cs => exact stable_basicRest (h.tail (by decide)) hread
  | case2 cs => exact stable_literalRest (h.tail (by decide)) hread
  | case3 cs hbasic hliteral =>
    rw [shortString.eq_3 _ hbasic hliteral] at hread
    cases hread

/-! ### Closing quotes -/

section Quotes
variable {q : Char} {k : Nat} {cs : List Char}

/-- Behind closing quotes the text goes on. -/
theorem Ends.of_quotes (h : Ends (List.replicate k q ++ cs))
    (hq : q ≠ '\n') : Ends cs :=
  h.of_word fun hmem => hq (List.eq_of_mem_replicate hmem).symm

theorem Ends.not_quotes (h : Ends cs) (hq : q ≠ '\n')
    (hno : ∀ rest, cs = List.replicate k q ++ rest → False) (more rest : List Char) :
    cs ++ more = List.replicate k q ++ rest → False := by
  refine h.not_append (fun hmem => ?_) hno more rest
  exact hq (List.eq_of_mem_replicate (List.dropLast_subset _ hmem)).symm

/-- Quotes that are the last ones of a text, in front of the three that close it. There are two at most,
and if there are fewer, no quote follows all of them. -/
structure Closes (q : Char) (k : Nat) (cs : List Char) : Prop where
  few : k ≤ 2
  last : k < 2 → ∀ rest, cs = q :: rest → False

/-- They close a text whatever follows the end of line. -/
theorem stable_closing {r : Reads (List Char)} (hq : q ≠ '\n')
    (hr : ∀ {k cs}, Closes q k cs → r (List.replicate (k + 3) q ++ cs) = some (List.replicate k q, cs))
    (h : Ends (List.replicate (k + 3) q ++ cs)) (hc : Closes q k cs) :
    Ends cs ∧ ∀ more,
      r (List.replicate (k + 3) q ++ cs ++ more) = some (List.replicate k q, cs ++ more) := by
  have hcs := h.of_quotes hq
  refine ⟨hcs, fun more => ?_⟩
  rw [List.append_assoc]
  exact hr ⟨hc.few, fun hk => hcs.not_quotes (k := 1) hq (hc.last hk) more⟩

theorem longLiteralRest_closing (h : Closes '\'' k cs) :
    longLiteralRest (List.replicate (k + 3) '\'' ++ cs) = some (List.replicate k '\'', cs) := by
  have hlast := h.last
  match k, h.few with
  | 0, _ => exact longLiteralRest.eq_3 _ (fun _ => hlast (by decide) _) (hlast (by decide))
  | 1, _ => exact longLiteralRest.eq_2 _ (hlast (by decide))
  | 2, _ => rfl

theorem longBasicRest_closing {skipping : Bool} (h : Closes '"' k cs) :
    longBasicRest skipping (List.replicate (k + 3) '"' ++ cs) = some (List.replicate k '"', cs) := by
  have hlast := h.last
  match k, h.few with
  | 0, _ => exact longBasicRest.eq_3 _ _ (fun _ => hlast (by decide) _) (hlast (by decide))
  | 1, _ => exact longBasicRest.eq_2 _ _ (hlast (by decide))
  | 2, _ => rfl

end Quotes

/-! ### Long strings -/

theorem stable_longLiteralRest : Stable longLiteralRest := by
  intro cs text rest h hread
  have hq : '\'' ≠ '\n' := by decide
  fun_induction longLiteralRest cs generalizing text with
  | case1 =>
    cases hread
    exact stable_closing (k := 2) hq longLiteralRest_closing h ⟨by decide, nofun⟩
  | case2 rest' hfive =>
    cases hread
    exact stable_closing (k := 1) hq longLiteralRest_closing h ⟨by decide, fun _ => hfive⟩
  | case3 rest' _ hfour =>
    cases hread
    exact stable_closing (k := 0) hq longLiteralRest_closing h ⟨by decide, fun _ => hfour⟩
  | case4 cs ih =>
    refine stable_prepend (p := ['\r', '\n']) h rfl ih hread fun more _ => ?_
    show longLiteralRest ('\r' :: '\n' :: (cs ++ more)) = _
    rw [longLiteralRest]
  | case5 c cs hfive hfour hthree hreturn hkept ih =>
    refine stable_prepend (p := [c]) h rfl ih hread fun more hcs => ?_
    rw [List.singleton_append, longLiteralRest.eq_5 _ _
      (fun rest hc => hcs.not_quotes (k := 4) hq (hfive · hc) more rest)
      (fun rest hc => hcs.not_quotes (k := 3) hq (hfour · hc) more rest)
      (fun rest hc => hcs.not_quotes (k := 2) hq (hthree · hc) more rest)
      (fun rest hc => hcs.not_append (p := ['\n']) (by decide) (hreturn · hc) more rest), if_pos hkept]
  | case6 => cases hread
  | case7 => cases hread

theorem endsLine_append {cs : List Char} (h : Ends cs) (more : List Char) :
    endsLine (cs ++ more) = endsLine cs := by
  obtain ⟨hblank, hmore⟩ := h.skipBlanks
  rw [endsLine, endsLine, hmore more, hblank.lineBreak? more, Option.isSome_map]

/-- A character that is neither escaped nor the first of three quotes or of a line end is not so with more
text behind it. -/
theorem longBasicRest_cons {skipping : Bool} {c : Char} {cs : List Char} (hcs : Ends cs)
    (hbackslash : c ≠ '\\') (hquotes : ∀ rest, c = '"' → cs = '"' :: '"' :: rest → False)
    (hreturn : ∀ rest, c = '\r' → cs = '\n' :: rest → False) (more : List Char) :
    longBasicRest skipping ([c] ++ (cs ++ more)) =
      if skipping && (isBlank c || c == '\n') then longBasicRest true (cs ++ more)
      else if c == '\n' || isPlain c && c != '\\' then prepend c (longBasicRest false (cs ++ more))
      else none := by
  have hthree (rest : List Char) (hc : c = '"') : cs ++ more = '"' :: '"' :: rest → False :=
    hcs.not_quotes (k := 2) (by decide) (hquotes · hc) more rest
  have hbreak (rest : List Char) (hc : c = '\r') : cs ++ more = '\n' :: rest → False :=
    hcs.not_append (p := ['\n']) (by decide) (hreturn · hc) more rest
  exact longBasicRest.eq_8 _ _ _ (fun _ hc => hthree _ hc) (fun _ hc => hthree _ hc) hthree
    (fun _ _ _ _ _ hc => absurd hc hbackslash) (fun _ _ _ _ _ _ _ _ _ hc => absurd hc hbackslash)
    (fun _ _ hc => absurd hc hbackslash) hbreak

theorem stable_longBasicRest (skipping : Bool) : Stable (longBasicRest skipping) := by
  intro cs text rest h hread
  have hq : '"' ≠ '\n' := by decide
  fun_induction longBasicRest skipping cs generalizing text with
  | case1 =>
    cases hread
    exact stable_closing (k := 2) hq longBasicRest_closing h ⟨by decide, nofun⟩
  | case2 skipping rest' hfive =>
    cases hread
    exact stable_closing (k := 1) hq longBasicRest_closing h ⟨by decide, fun _ => hfive⟩
  | case3 skipping rest' _ hfour =>
    cases hread
    exact stable_closing (k := 0) hq longBasicRest_closing h ⟨by decide, fun _ => hfour⟩
  | case4 skipping a b c d cs x hx ih =>
    exact stable_prepend (p := ['\\', 'u', a, b, c, d]) h rfl ih hread fun _ _ =>
      longBasicRest_escapes (.four hx) _ _
  | case5 => cases hread
  | case6 skipping a b c d e f g k cs x hx ih =>
    exact stable_prepend (p := ['\\', 'U', a, b, c, d, e, f, g, k]) h rfl ih hread fun _ _ =>
      longBasicRest_escapes (.eight hx) _ _
  | case7 => cases hread
  | case8 skipping e cs _ _ x hx ih =>
    exact stable_prepend (p := ['\\', e]) h rfl ih hread fun _ _ =>
      longBasicRest_escapes (.letter hx) _ _
  | case9 skipping e cs _ _ hnone hends ih =>
    exact stable_skip (p := ['\\']) h rfl ih hread fun more hcs =>
      longBasicRest_lineEnd hnone ((endsLine_append hcs more).trans hends) _
  | case10 => cases hread
  | case11 cs ih =>
    refine stable_skip (p := ['\r', '\n']) h rfl ih hread fun more _ => ?_
    show longBasicRest true ('\r' :: '\n' :: (cs ++ more)) = _
    rw [longBasicRest, if_pos rfl]
  | case12 skipping cs hskip ih =>
    refine stable_prepend (p := ['\r', '\n']) h rfl ih hread fun more _ => ?_
    show longBasicRest skipping ('\r' :: '\n' :: (cs ++ more)) = _
    rw [longBasicRest, if_neg hskip]
  | case13 skipping c cs _ _ hthree _ _ _ hreturn hskip ih =>
    have hbackslash : c ≠ '\\' := by
      rintro rfl
      simp [isBlank] at hskip
    refine stable_skip (p := [c]) h rfl ih hread fun more hcs => ?_
    rw [longBasicRest_cons hcs hbackslash hthree hreturn, if_pos hskip]
  | case14 skipping c cs _ _ hthree _ _ _ hreturn hskip hkept ih =>
    have hbackslash : c ≠ '\\' := by
      rintro rfl
      simp at hkept
    refine stable_prepend (p := [c]) h rfl ih hread fun more hcs => ?_
    rw [longBasicRest_cons hcs hbackslash hthree hreturn, if_neg hskip, if_pos hkept]
  | case15 => cases hread
  | case16 => cases hread

/-- A long string behind its opening quotes and the end of line that may follow them. -/
theorem stable_dropLineBreak {q : Char} {r : Reads (List Char)} {cs text rest : List Char} (hq : q ≠ '\n')
    (hr : Stable r) (hnil : r [] = none) (h : Ends (List.replicate 3 q ++ cs))
    (hread : r (dropLineBreak cs) = some (text, rest)) :
    Ends rest ∧ ∀ more, r (dropLineBreak (cs ++ more)) = some (text, rest ++ more) := by
  have hne : dropLineBreak cs ≠ [] := by
    intro hempty
    rw [hempty, hnil] at hread
    cases hread
  obtain ⟨hends, hmore⟩ := (h.of_quotes hq).dropLineBreak hne
  obtain ⟨hrest, hread'⟩ := hr hends hread
  refine ⟨hrest, fun more => ?_⟩
  rw [hmore, hread']

theorem stable_anyString : Stable anyString := by
  intro cs text rest h hread
  fun_cases anyString cs with
  | case1 cs => exact stable_dropLineBreak (by decide) (stable_longBasicRest false) rfl h hread
  | case2 cs => exact stable_dropLineBreak (by decide) stable_longLiteralRest rfl h hread
  | case3 cs hbasic hliteral =>
    rw [anyString.eq_3 _ hbasic hliteral] at hread
    obtain ⟨hrest, hmore⟩ := stable_shortString h hread
    refine ⟨hrest, fun more => ?_⟩
    rw [anyString.eq_3 _ (h.not_quotes (k := 3) (by decide) hbasic more)
      (h.not_quotes (k := 3) (by decide) hliteral more), hmore]

/-! ### Keys -/

theorem ne_of_isBare {c d : Char} (hc : isBare c = true) (hd : isBare d = false) : c ≠ d := by
  rintro rfl
  rw [hc] at hd
  cases hd

/-- A bare key begins with none of the marks. -/
theorem cons_ne_of_isBare {c d : Char} {cs rest : List Char} (hc : isBare c = true) (hd : isBare d = false) :
    c :: cs ≠ d :: rest := mt List.head_eq_of_cons_eq (ne_of_isBare hc hd)

theorem stable_keyPart : Stable keyPart := by
  intro cs part rest h hread
  rw [keyPart] at hread
  cases hstring : shortString cs with
  | some found =>
    rw [hstring] at hread
    obtain ⟨text, rest'⟩ := found
    cases hread
    obtain ⟨hrest, hmore⟩ := stable_shortString h hstring
    refine ⟨hrest, fun more => ?_⟩
    rw [keyPart, hmore]
  | none =>
    rw [hstring] at hread
    dsimp only at hread
    split at hread
    · cases hread
    next hbare =>
    cases hread
    obtain ⟨hrest, hmore⟩ := h.dropWhile (p := isBare) rfl
    refine ⟨hrest, fun more => ?_⟩
    have hopen : shortString (cs ++ more) = none := by
      obtain ⟨c, cs, rfl⟩ := List.exists_cons_of_ne_nil h.ne_nil
      have hc : isBare c = true := by
        by_contra hc
        rw [List.takeWhile_cons_of_neg hc] at hbare
        exact hbare rfl
      exact shortString.eq_3 _ (fun _ => cons_ne_of_isBare hc rfl) fun _ => cons_ne_of_isBare hc rfl
    rw [keyPart, hopen, h.takeWhile rfl, hmore more]
    exact if_neg hbare

theorem stable_key (most : Nat) : Stable (key most) := by
  induction most with
  | zero =>
    intro cs path rest h hread
    cases hread
  | succ most ih =>
    intro cs path rest h hread
    obtain ⟨hblank, hskip⟩ := h.skipBlanks
    rw [key] at hread
    obtain ⟨⟨part, behind⟩, hpart, hpath⟩ := Option.bind_eq_some_iff.mp hread
    obtain ⟨hbehind, hpart'⟩ := stable_keyPart hblank hpart
    obtain ⟨hblank', hskip'⟩ := hbehind.skipBlanks
    dsimp only at hpath
    split at hpath
    · next cs' heq =>
      obtain ⟨⟨parts, rest'⟩, hparts, hpath⟩ := Option.map_eq_some_iff.mp hpath
      cases hpath
      rw [heq] at hblank' hskip'
      obtain ⟨hrest, hmore⟩ := ih (hblank'.tail (by decide)) hparts
      refine ⟨hrest, fun more => ?_⟩
      rw [key, hskip, hpart']
      simp only [bind, Option.bind, hskip', List.cons_append, hmore, Option.map_some]
    · next hpoint =>
      cases hpath
      refine ⟨hblank', fun more => ?_⟩
      rw [key, hskip, hpart']
      simp only [bind, Option.bind, hskip']
      split
      · next heq => exact absurd heq (hblank'.not_append (p := ['.']) (by decide) hpoint more _)
      · rfl

end IsolatedSolving.Toml
