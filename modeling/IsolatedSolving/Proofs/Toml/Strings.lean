import IsolatedSolving.Proofs.Toml.Escapes
import IsolatedSolving.Toml.Quoted

/-! Strings that are read back.

Each of the forms that a string is written in is undone by its reader: escapes one by one
(`basicRest_escaped`), and in the long forms no quotes but the closing ones are taken for the end
(`longBasicRest_escaped`, `longLiteralRest_append`), because the text has no more than two in a row. A form that
is chosen because it needs no escape has none, so every text comes back (`anyString_quoted`). -/
namespace IsolatedSolving.Toml

/-! ### Characters -/

theorem isPlain_of_not_isControl {c : Char} (h : isControl c = false) (hbreak : c ≠ '\n') :
    isPlain c = true := by
  simp only [isControl, Bool.or_eq_false_iff, Bool.and_eq_false_iff, decide_eq_false_iff_not,
    bne_eq_false_iff_eq, or_iff_left hbreak, beq_eq_false_iff_ne] at h
  simp only [isPlain, Bool.or_eq_true, Bool.and_eq_true, decide_eq_true_iff, bne_iff_ne]
  exact .inr ⟨Nat.le_of_not_lt h.1, h.2⟩

/-- A control character is one of the first 32, or the last one of the first 128. -/
theorem toNat_of_isControl {c : Char} (h : isControl c = true) : c.toNat < 128 := by
  simp only [isControl, Bool.or_eq_true, Bool.and_eq_true, decide_eq_true_iff, beq_iff_eq] at h
  omega

/-! ### Escapes -/

theorem hexChar?_fourHex :
    ∀ n < 128, (fourHex n).length = 4 ∧ hexChar? (fourHex n) = some (Char.ofNat n) := by
  decide +kernel

/-- Whether a character is escaped behind so many quotes. -/
def needsEscape (long : Bool) (run : Nat) (c : Char) : Bool :=
  isControl c || c == '\\' || (c == '\n' && !long) || (c == '"' && !(long && decide (run < 2)))

theorem escaped_cons (long : Bool) (run : Nat) (c : Char) (cs : List Char) :
    escaped long run (c :: cs) =
      if needsEscape long run c then escape c ++ escaped long 0 cs
      else c :: escaped long (if c = '"' then run + 1 else 0) cs := by
  by_cases hquote : c = '"'
  · subst hquote
    have hcontrol : isControl '"' = false := rfl
    rw [escaped, needsEscape, hcontrol]
    cases long && decide (run < 2) <;> rfl
  · have hne : (c == '"') = false := beq_eq_false_iff_ne.mpr hquote
    rw [escaped.eq_3 _ _ _ _ hquote, needsEscape, hne, Bool.false_and, Bool.or_false, if_neg hquote]

/-- Every character that is escaped has an escape. -/
theorem escapes_escape {long : Bool} {run : Nat} {c : Char} (h : needsEscape long run c = true) :
    Escapes c (escape c) := by
  rw [escape.eq_def]
  split
  · exact .letter rfl
  · exact .letter rfl
  · exact .letter rfl
  · exact .letter rfl
  · exact .letter rfl
  · exact .letter rfl
  · exact .letter rfl
  · next hbreak _ _ hquote hbackslash =>
    have hcontrol : isControl c = true := by
      simpa [needsEscape, show c ≠ '\n' from hbreak, show c ≠ '"' from hquote,
        show c ≠ '\\' from hbackslash] using h
    obtain ⟨hlength, hchar⟩ := hexChar?_fourHex c.toNat (toNat_of_isControl hcontrol)
    rw [Char.ofNat_toNat] at hchar
    obtain ⟨a, b, d, e, hdigits⟩ : ∃ a b d e, fourHex c.toNat = [a, b, d, e] := by
      match fourHex c.toNat, hlength with
      | [a, b, d, e], _ => exact ⟨a, b, d, e, rfl⟩
    rw [hdigits] at hchar ⊢
    exact .four hchar

theorem not_needsEscape {long : Bool} {run : Nat} {c : Char} (h : needsEscape long run c = false) :
    isControl c = false ∧ c ≠ '\\' ∧ (c = '\n' → long = true) ∧ (c = '"' → long = true ∧ run < 2) := by
  simpa [needsEscape, and_assoc] using h

theorem basicRest_plain {c : Char} {run : Nat} (h : needsEscape false run c = false) (rest : List Char) :
    basicRest (c :: rest) = prepend c (basicRest rest) := by
  obtain ⟨hcontrol, hbackslash, hbreak, hquote⟩ := not_needsEscape h
  have hplain := isPlain_of_not_isControl hcontrol fun h => Bool.false_ne_true (hbreak h)
  rw [basicRest.eq_def]
  split
  · next heq => exact absurd (hquote (List.cons.inj heq).1).1 Bool.false_ne_true
  · next heq => exact absurd (List.cons.inj heq).1 hbackslash
  · next heq => exact absurd (List.cons.inj heq).1 hbackslash
  · next heq => exact absurd (List.cons.inj heq).1 hbackslash
  · next heq =>
    cases heq
    rw [hplain, bne_iff_ne.mpr hbackslash]
    rfl
  · next heq => cases heq

/-- **What is escaped on a line is read back.** -/
theorem basicRest_escaped (cs : List Char) (run : Nat) (rest : List Char) :
    basicRest (escaped false run cs ++ '"' :: rest) = some (cs, rest) := by
  induction cs generalizing run with
  | nil => rw [escaped, List.nil_append, basicRest]
  | cons c cs ih =>
    rw [escaped_cons]
    split
    · next hneeds =>
      rw [List.append_assoc, basicRest_escapes (escapes_escape hneeds), ih]
      rfl
    · next hneeds =>
      rw [List.cons_append, basicRest_plain (Bool.not_eq_true _ ▸ hneeds), ih]
      rfl

/-! ### Quotes in a row -/

/-- No third quote stands in a row, with so many in front. -/
def NoThird (q : Char) : Nat → List Char → Prop
  | _, [] => True
  | run, c :: cs => if c = q then run < 2 ∧ NoThird q (run + 1) cs else NoThird q 0 cs

/-- The longest run as it is counted, behind so many quotes. -/
theorem noThird_of_foldl {q : Char} {cs : List Char} {run best : Nat}
    (h : (cs.foldl (fun (run, best) d => if d == q then (run + 1, Nat.max best (run + 1)) else (0, best))
      (run, best)).2 ≤ 2) : NoThird q run cs ∧ best ≤ 2 := by
  induction cs generalizing run best with
  | nil => exact ⟨trivial, h⟩
  | cons c cs ih =>
    rw [List.foldl_cons] at h
    dsimp only at h
    rw [NoThird]
    by_cases hc : c = q
    · rw [if_pos (beq_iff_eq.mpr hc)] at h
      obtain ⟨hrest, hbest⟩ := ih h
      rw [if_pos hc]
      have hrun := Nat.le_trans (Nat.le_max_right best (run + 1)) hbest
      exact ⟨⟨hrun, hrest⟩, Nat.le_trans (Nat.le_max_left ..) hbest⟩
    · rw [if_neg (mt beq_iff_eq.mp hc)] at h
      rw [if_neg hc]
      exact ih h

theorem noThird_of_longestRun {q : Char} {cs : List Char} (h : longestRun q cs ≤ 2) : NoThird q 0 cs :=
  (noThird_of_foldl h).1

/-- Two quotes behind one are the end, or the second of two in front of it. -/
theorem closing_of_two {q : Char} {run : Nat} {cs rest more : List Char} (h : NoThird q (run + 1) cs)
    (hc : cs ++ q :: q :: q :: rest = q :: q :: more) : cs = [] ∨ run = 0 ∧ cs = [q] := by
  match cs, h with
  | [], _ => exact .inl rfl
  | [c], h =>
    obtain rfl := (List.cons.inj hc).1
    rw [NoThird, if_pos rfl] at h
    exact .inr ⟨by omega, rfl⟩
  | c :: d :: cs, h =>
    obtain ⟨rfl, hrest⟩ := List.cons.inj hc
    obtain rfl := (List.cons.inj hrest).1
    rw [NoThird, if_pos rfl, NoThird, if_pos rfl] at h
    omega

/-! ### Long strings -/

theorem longBasicRest_plain {c : Char} {run : Nat} (h : needsEscape true run c = false)
    {rest : List Char} (hrest : c = '"' → ∀ more, rest ≠ '"' :: '"' :: more) :
    longBasicRest false (c :: rest) = prepend c (longBasicRest false rest) := by
  obtain ⟨hcontrol, hbackslash, -, -⟩ := not_needsEscape h
  rw [longBasicRest.eq_def]
  split
  · next heq =>
    obtain ⟨hc, hmore⟩ := List.cons.inj heq
    exact absurd hmore (hrest hc _)
  · next heq =>
    obtain ⟨hc, hmore⟩ := List.cons.inj heq
    exact absurd hmore (hrest hc _)
  · next heq =>
    obtain ⟨hc, hmore⟩ := List.cons.inj heq
    exact absurd hmore (hrest hc _)
  · next heq => exact absurd (List.cons.inj heq).1 hbackslash
  · next heq => exact absurd (List.cons.inj heq).1 hbackslash
  · next heq => exact absurd (List.cons.inj heq).1 hbackslash
  · next heq =>
    rw [(List.cons.inj heq).1] at hcontrol
    cases hcontrol
  · next heq =>
    obtain ⟨rfl, rfl⟩ := List.cons.inj heq
    have hkept : (c == '\n' || isPlain c && c != '\\') = true := by
      by_cases hbreak : c = '\n'
      · rw [hbreak]
        rfl
      · rw [isPlain_of_not_isControl hcontrol hbreak, bne_iff_ne.mpr hbackslash, Bool.and_true, Bool.or_true]
    rw [Bool.false_and, if_neg Bool.false_ne_true, if_pos hkept]
  · next heq => cases heq

/-- A quote that is written first is one of the text. -/
theorem of_head?_escaped {run : Nat} {c : Char} {cs rest : List Char}
    (h : (escaped true run (c :: cs) ++ rest).head? = some '"') :
    c = '"' ∧ run < 2 ∧ escaped true run (c :: cs) = '"' :: escaped true (run + 1) cs := by
  rw [escaped_cons] at h ⊢
  split at h
  · next hneeds =>
    rw [List.append_assoc, head?_of_escapes (escapes_escape hneeds)] at h
    cases h
  · next hneeds =>
    obtain rfl := Option.some.inj h
    exact ⟨rfl, ((not_needsEscape (Bool.not_eq_true _ ▸ hneeds)).2.2.2 rfl).2, by
      rw [if_neg hneeds, if_pos rfl]⟩

/-- Two quotes behind one are the end, or the second of two in front of it. -/
theorem text_of_two_quotes {run : Nat} {cs rest more : List Char}
    (h : escaped true (run + 1) cs ++ '"' :: '"' :: '"' :: rest = '"' :: '"' :: more) :
    cs = [] ∨ run = 0 ∧ cs = ['"'] := by
  cases cs with
  | nil => exact .inl rfl
  | cons c cs =>
    obtain ⟨rfl, hrun, hescaped⟩ := of_head?_escaped (congrArg List.head? h)
    obtain rfl : run = 0 := by omega
    rw [hescaped, List.cons_append] at h
    refine .inr ⟨rfl, ?_⟩
    cases cs with
    | nil => rfl
    | cons d cs =>
      obtain ⟨-, hrun, -⟩ := of_head?_escaped (congrArg List.head? (List.cons.inj h).2)
      exact absurd hrun (by decide)

/-- **What is escaped in a long string is read back.** -/
theorem longBasicRest_escaped (cs : List Char) (run : Nat) (rest : List Char) :
    longBasicRest false (escaped true run cs ++ '"' :: '"' :: '"' :: '\n' :: rest) =
      some (cs, '\n' :: rest) := by
  induction cs generalizing run with
  | nil => rfl
  | cons c cs ih =>
    rw [escaped_cons]
    split
    · next hneeds =>
      rw [List.append_assoc, longBasicRest_escapes (escapes_escape hneeds), ih]
      rfl
    · next hneeds =>
      rw [Bool.not_eq_true] at hneeds
      by_cases htwo : c = '"' ∧ ∃ more, escaped true (run + 1) cs ++ '"' :: '"' :: '"' :: '\n' :: rest =
          '"' :: '"' :: more
      · -- The closing quotes are among those that follow, so one or two quotes end the text.
        obtain ⟨rfl, more, hmore⟩ := htwo
        rcases text_of_two_quotes hmore with rfl | ⟨rfl, rfl⟩
        · rfl
        · rfl
      · rw [List.cons_append, longBasicRest_plain hneeds, ih]
        · rfl
        · intro hc more heq
          rw [if_pos hc] at heq
          exact htwo ⟨hc, more, heq⟩

/-! ### Texts without escapes -/

/-- A text without control characters but line ends. -/
def NoControl (cs : List Char) : Prop := ∀ c ∈ cs, isControl c = false

theorem escaped_false_eq {cs : List Char} (hcontrol : NoControl cs) (hbackslash : '\\' ∉ cs)
    (hbreak : '\n' ∉ cs) (hquote : '"' ∉ cs) (run : Nat) : escaped false run cs = cs := by
  induction cs generalizing run with
  | nil => rw [escaped]
  | cons c cs ih =>
    rw [NoControl, List.forall_mem_cons] at hcontrol
    rw [List.mem_cons, not_or] at hbackslash hbreak hquote
    have hneeds : needsEscape false run c = false := by
      simp [needsEscape, hcontrol.1, Ne.symm hbackslash.1, Ne.symm hbreak.1, Ne.symm hquote.1]
    rw [escaped_cons, if_neg (by rw [hneeds]; exact Bool.false_ne_true),
      ih hcontrol.2 hbackslash.2 hbreak.2 hquote.2]

theorem escaped_true_eq {cs : List Char} {run : Nat} (hcontrol : NoControl cs) (hbackslash : '\\' ∉ cs)
    (hthird : NoThird '"' run cs) : escaped true run cs = cs := by
  induction cs generalizing run with
  | nil => rw [escaped]
  | cons c cs ih =>
    rw [NoControl, List.forall_mem_cons] at hcontrol
    rw [List.mem_cons, not_or] at hbackslash
    rw [NoThird] at hthird
    rw [escaped_cons]
    by_cases hquote : c = '"'
    · rw [if_pos hquote] at hthird ⊢
      have hneeds : needsEscape true run c = false := by
        simp [needsEscape, hcontrol.1, Ne.symm hbackslash.1, hthird.1]
      rw [if_neg (by rw [hneeds]; exact Bool.false_ne_true), ih hcontrol.2 hbackslash.2 hthird.2]
    · rw [if_neg hquote] at hthird ⊢
      have hneeds : needsEscape true run c = false := by
        simp [needsEscape, hcontrol.1, Ne.symm hbackslash.1, hquote]
      rw [if_neg (by rw [hneeds]; exact Bool.false_ne_true), ih hcontrol.2 hbackslash.2 hthird]

theorem literalRest_append {cs : List Char} (hcontrol : NoControl cs) (hbreak : '\n' ∉ cs)
    (hquote : '\'' ∉ cs) (rest : List Char) : literalRest (cs ++ '\'' :: rest) = some (cs, rest) := by
  induction cs with
  | nil => rfl
  | cons c cs ih =>
    rw [NoControl, List.forall_mem_cons] at hcontrol
    rw [List.mem_cons, not_or] at hbreak hquote
    have hplain := isPlain_of_not_isControl hcontrol.1 (Ne.symm hbreak.1)
    rw [List.cons_append, literalRest.eq_2 _ _ (Ne.symm hquote.1), if_pos hplain,
      ih hcontrol.2 hbreak.2 hquote.2]
    rfl

theorem longLiteralRest_plain {c : Char} (hcontrol : isControl c = false) {rest : List Char}
    (hrest : c = '\'' → ∀ more, rest ≠ '\'' :: '\'' :: more) :
    longLiteralRest (c :: rest) = prepend c (longLiteralRest rest) := by
  rw [longLiteralRest.eq_def]
  split
  · next heq =>
    obtain ⟨hc, hmore⟩ := List.cons.inj heq
    exact absurd hmore (hrest hc _)
  · next heq =>
    obtain ⟨hc, hmore⟩ := List.cons.inj heq
    exact absurd hmore (hrest hc _)
  · next heq =>
    obtain ⟨hc, hmore⟩ := List.cons.inj heq
    exact absurd hmore (hrest hc _)
  · next heq =>
    rw [(List.cons.inj heq).1] at hcontrol
    cases hcontrol
  · next heq =>
    obtain ⟨rfl, rfl⟩ := List.cons.inj heq
    have hkept : (c == '\n' || isPlain c) = true := by
      by_cases hbreak : c = '\n'
      · rw [hbreak]
        rfl
      · rw [isPlain_of_not_isControl hcontrol hbreak, Bool.or_true]
    rw [if_pos hkept]
  · next heq => cases heq

theorem longLiteralRest_append {cs : List Char} {run : Nat} (hcontrol : NoControl cs)
    (hthird : NoThird '\'' run cs) (rest : List Char) :
    longLiteralRest (cs ++ '\'' :: '\'' :: '\'' :: '\n' :: rest) = some (cs, '\n' :: rest) := by
  induction cs generalizing run with
  | nil => rfl
  | cons c cs ih =>
    rw [NoControl, List.forall_mem_cons] at hcontrol
    rw [NoThird] at hthird
    by_cases htwo : c = '\'' ∧ ∃ more, cs ++ '\'' :: '\'' :: '\'' :: '\n' :: rest = '\'' :: '\'' :: more
    · obtain ⟨rfl, more, hmore⟩ := htwo
      rw [if_pos rfl] at hthird
      rcases closing_of_two hthird.2 hmore with rfl | ⟨rfl, rfl⟩
      · rfl
      · rfl
    · have hrest : ∃ run, NoThird '\'' run cs := by
        split at hthird
        · exact ⟨_, hthird.2⟩
        · exact ⟨_, hthird⟩
      obtain ⟨run', hrest⟩ := hrest
      rw [List.cons_append, longLiteralRest_plain hcontrol.1 (fun hc more heq => htwo ⟨hc, more, heq⟩),
        ih hcontrol.2 hrest]
      rfl

/-! ### All forms -/

theorem dropLineBreak_of_head {c : Char} {cs : List Char} (hbreak : c ≠ '\n') (hreturn : c ≠ '\r') :
    dropLineBreak (c :: cs) = c :: cs := by
  rw [dropLineBreak, lineBreak?.eq_def]
  split
  · next heq => exact absurd (List.cons.inj heq).1 hbreak
  · next heq => exact absurd (List.cons.inj heq).1 hreturn
  · rfl

/-- A line end that was put in front of a text with line ends is dropped, and no other one. -/
theorem dropLineBreak_start {cs : List Char} {q : Char} (hcontrol : NoControl cs) (hq : q ≠ '\n')
    (hq' : q ≠ '\r') (rest : List Char) :
    dropLineBreak ((if cs.contains '\n' then ['\n'] else []) ++ cs ++ q :: rest) = cs ++ q :: rest := by
  cases hbreak : cs.contains '\n' with
  | true => rfl
  | false =>
    rw [if_neg Bool.false_ne_true, List.nil_append]
    rw [List.contains_eq_mem, decide_eq_false_iff_not] at hbreak
    cases cs with
    | nil => exact dropLineBreak_of_head hq hq'
    | cons c cs =>
      refine dropLineBreak_of_head (fun hc => hbreak (hc ▸ List.mem_cons_self)) fun hc => ?_
      have hreturn := hcontrol c List.mem_cons_self
      rw [hc] at hreturn
      cases hreturn

theorem anyString_basic {inner : List Char} (hhead : inner.head? ≠ some '"') (rest : List Char) :
    anyString ('"' :: (inner ++ '"' :: '\n' :: rest)) = basicRest (inner ++ '"' :: '\n' :: rest) := by
  rw [anyString.eq_def]
  split
  · next heq =>
    cases inner with
    | nil => cases heq
    | cons c inner => exact absurd (congrArg some (List.cons.inj (List.cons.inj heq).2).1) hhead
  · next heq => cases heq
  · rfl

theorem anyString_literal {inner : List Char} (hhead : inner.head? ≠ some '\'') (rest : List Char) :
    anyString ('\'' :: (inner ++ '\'' :: '\n' :: rest)) = literalRest (inner ++ '\'' :: '\n' :: rest) := by
  rw [anyString.eq_def]
  split
  · next heq => cases heq
  · next heq =>
    cases inner with
    | nil => cases heq
    | cons c inner => exact absurd (congrArg some (List.cons.inj (List.cons.inj heq).2).1) hhead
  · rfl

theorem anyString_longBasic (inner rest : List Char) :
    anyString (['"', '"', '"'] ++ inner ++ ['"', '"', '"'] ++ '\n' :: rest) =
      longBasicRest false (dropLineBreak (inner ++ '"' :: '"' :: '"' :: '\n' :: rest)) := by
  rw [List.append_assoc, List.append_assoc]
  rfl

theorem anyString_longLiteral (inner rest : List Char) :
    anyString (['\'', '\'', '\''] ++ inner ++ ['\'', '\'', '\''] ++ '\n' :: rest) =
      longLiteralRest (dropLineBreak (inner ++ '\'' :: '\'' :: '\'' :: '\n' :: rest)) := by
  rw [List.append_assoc, List.append_assoc]
  rfl

theorem head?_ne_of_not_mem {c : Char} {cs : List Char} (h : c ∉ cs) : cs.head? ≠ some c :=
  fun hc => h (List.mem_of_mem_head? hc)

/-- On a line every quote is escaped. -/
theorem head?_escaped_false (cs : List Char) : (escaped false 0 cs).head? ≠ some '"' := by
  cases cs with
  | nil =>
    rw [escaped]
    exact nofun
  | cons c cs =>
    rw [escaped_cons]
    split
    · next hneeds =>
      rw [head?_of_escapes (escapes_escape hneeds)]
      decide
    · next hneeds =>
      rw [Bool.not_eq_true] at hneeds
      intro hc
      exact Bool.false_ne_true ((not_needsEscape hneeds).2.2.2 (Option.some.inj hc)).1

/-- **Every string is read back.** -/
theorem anyString_quoted (text : String) (rest : List Char) :
    anyString (quoted text ++ '\n' :: rest) = some (text.toList, '\n' :: rest) := by
  rw [quoted]
  generalize text.toList = cs
  have hany (h : cs.any isControl = false) : NoControl cs := fun c hc =>
    Bool.eq_false_iff.mpr (List.any_eq_false.mp h c hc)
  have hmem {c : Char} (h : cs.contains c = false) : c ∉ cs := by
    rwa [List.contains_eq_mem, decide_eq_false_iff_not] at h
  dsimp only
  split
  · next h =>
    simp only [Bool.and_eq_true, Bool.not_eq_true'] at h
    obtain ⟨⟨⟨hcontrol, hbackslash⟩, hbreak⟩, hquote⟩ := h
    have hescaped := escaped_false_eq (hany hcontrol) (hmem hbackslash) (hmem hbreak) (hmem hquote) 0
    have hread := basicRest_escaped cs 0 ('\n' :: rest)
    rw [hescaped] at hread
    simp only [List.nil_append, List.cons_append, List.append_assoc]
    rw [anyString_basic (head?_ne_of_not_mem (hmem hquote)), hread]
  split
  · next h =>
    simp only [Bool.and_eq_true, Bool.not_eq_true'] at h
    obtain ⟨⟨hcontrol, hbreak⟩, hquote⟩ := h
    simp only [List.nil_append, List.cons_append, List.append_assoc]
    rw [anyString_literal (head?_ne_of_not_mem (hmem hquote)),
      literalRest_append (hany hcontrol) (hmem hbreak) (hmem hquote)]
  split
  · next h =>
    simp only [Bool.and_eq_true, Bool.not_eq_true', decide_eq_true_iff] at h
    obtain ⟨⟨hcontrol, hbackslash⟩, hrun⟩ := h
    have hescaped := escaped_true_eq (hany hcontrol) (hmem hbackslash) (noThird_of_longestRun hrun)
    have hread := longBasicRest_escaped cs 0 rest
    rw [hescaped] at hread
    rw [anyString_longBasic, dropLineBreak_start (hany hcontrol) (by decide) (by decide), hread]
  split
  · next h =>
    simp only [Bool.and_eq_true, Bool.not_eq_true', decide_eq_true_iff] at h
    obtain ⟨hcontrol, hrun⟩ := h
    rw [anyString_longLiteral, dropLineBreak_start (hany hcontrol) (by decide) (by decide),
      longLiteralRest_append (hany hcontrol) (noThird_of_longestRun hrun)]
  split
  · rw [anyString_longBasic]
    exact longBasicRest_escaped cs 0 rest
  · have hread := basicRest_escaped cs 0 ('\n' :: rest)
    simp only [List.nil_append, List.cons_append, List.append_assoc]
    rw [anyString_basic (head?_escaped_false cs), hread]

end IsolatedSolving.Toml
