import IsolatedSolving.Proofs.Number.Shortest
import IsolatedSolving.Toml.Quoted
import Mathlib.Data.List.Basic

/-! Numbers that are read back.

A float is written with digits on both sides of a point (`Decimal.spells_numbers`), or as a word. What is written
is read up to the end of the line, and gives the same number (`plainValue_writtenFloat`, `plainValue_toString`). -/
namespace IsolatedSolving

namespace Toml

/-! ### Digits -/

/-- A text of at least one digit. -/
structure Digits (ds : List Char) : Prop where
  all : ∀ c ∈ ds, c.isDigit = true
  ne_nil : ds ≠ []

/-- The digits of a text end here. -/
def NoDigits (rest : List Char) : Prop := ∀ c ∈ rest.head?, c.isDigit = false ∧ c ≠ '_'

theorem noDigits_cons {c : Char} {rest : List Char} (hdigit : c.isDigit = false) (hlow : c ≠ '_') :
    NoDigits (c :: rest) := by
  intro d hd
  cases hd
  exact ⟨hdigit, hlow⟩

theorem ne_of_isDigit {c d : Char} (hc : c.isDigit = true) (hd : d.isDigit = false) : c ≠ d := by
  rintro rfl
  rw [hc] at hd
  cases hd

theorem digitRun_append {ds rest : List Char} (hds : ∀ c ∈ ds, c.isDigit = true) (hrest : NoDigits rest) :
    digitRun Char.isDigit (ds ++ rest) = (ds, rest) := by
  induction ds with
  | nil =>
    cases rest with
    | nil => rfl
    | cons c rest =>
      obtain ⟨hdigit, hlow⟩ := hrest c rfl
      rw [List.nil_append, digitRun.eq_def]
      split
      · next heq =>
        cases heq
        exact absurd rfl hlow
      · next heq =>
        cases heq
        rw [if_neg (by rw [hdigit]; exact Bool.false_ne_true)]
      · next heq => cases heq
  | cons c ds ih =>
    rw [List.forall_mem_cons] at hds
    rw [List.cons_append, digitRun.eq_def]
    split
    · next heq =>
      obtain ⟨rfl, -⟩ := List.cons.inj heq
      cases hds.1
    · next heq =>
      cases heq
      rw [if_pos hds.1, ih hds.2]
    · next heq => cases heq

theorem digits_append {ds rest : List Char} (hds : Digits ds) (hrest : NoDigits rest) :
    digits Char.isDigit (ds ++ rest) = some (ds, rest) := by
  obtain ⟨hall, hne⟩ := hds
  cases ds with
  | nil => exact absurd rfl hne
  | cons c ds =>
    rw [List.forall_mem_cons] at hall
    rw [List.cons_append, digits, if_pos hall.1, digitRun_append hall.2 hrest]

/-- A zero stands alone in front. -/
def Leads (ds : List Char) : Prop := ds = ['0'] ∨ ds.head? ≠ some '0'

theorem wholeDigits_append {ds rest : List Char} (hds : Digits ds) (hleads : Leads ds)
    (hrest : NoDigits rest) : wholeDigits (ds ++ rest) = some (ds, rest) := by
  rcases hleads with rfl | hhead
  · rfl
  · rw [wholeDigits.eq_def]
    split
    · next heq =>
      obtain ⟨c, ds, rfl⟩ := List.exists_cons_of_ne_nil hds.ne_nil
      cases heq
      exact absurd rfl hhead
    · exact digits_append hds hrest

theorem numberOf_eq {ds : List Char} (hds : ∀ c ∈ ds, c.isDigit = true) :
    numberOf 10 ds = Nat.ofDigitChars 10 ds 0 := by
  rw [numberOf, Nat.ofDigitChars_eq_foldl]
  refine List.foldl_ext _ _ 0 fun n c hc => ?_
  rw [hexValue?, if_pos (hds c hc), Option.getD_some]
  rfl

/-! ### Decimal numbers -/

section Reading
variable {rest : List Char}

/-- Digits on both sides of a point are a float. -/
theorem decimal_point (negative : Bool) {whole places : List Char} (hwhole : Digits whole)
    (hleads : Leads whole) (hplaces : Digits places) (hrest : NoDigits rest)
    (hend : ∀ c ∈ rest.head?, c ≠ 'e' ∧ c ≠ 'E') :
    decimal negative (whole ++ '.' :: (places ++ rest)) =
      (float? negative (whole ++ places) (-(places.length : Int))).map fun v => (v, rest) := by
  have hpoint : NoDigits ('.' :: (places ++ rest)) := noDigits_cons rfl (by decide)
  simp only [decimal, wholeDigits_append hwhole hleads hpoint, digits_append hplaces hrest, bind,
    Option.bind]
  split
  · exact absurd rfl (hend 'e' rfl).1
  · exact absurd rfl (hend 'E' rfl).2
  · cases float? negative (whole ++ places) (-(places.length : Int)) <;> rfl

/-- Digits alone are an integer. -/
theorem decimal_whole (negative : Bool) {whole : List Char} (hwhole : Digits whole)
    (hleads : Leads whole) (hrest : NoDigits rest)
    (hend : ∀ c ∈ rest.head?, c ≠ '.' ∧ c ≠ 'e' ∧ c ≠ 'E') :
    decimal negative (whole ++ rest) =
      (integer? (if negative then -(numberOf 10 whole : Int) else numberOf 10 whole)).map
        fun v => (v, rest) := by
  simp only [decimal, wholeDigits_append hwhole hleads hrest, bind, Option.bind]
  split
  · exact absurd rfl (hend '.' rfl).1
  · exact absurd rfl (hend 'e' rfl).2.1
  · exact absurd rfl (hend 'E' rfl).2.2
  · cases integer? (if negative then -(numberOf 10 whole : Int) else numberOf 10 whole) <;> rfl

end Reading

/-! ### No dates and times -/

theorem fixedDigits_some {n low high k : Nat} {cs rest : List Char}
    (h : fixedDigits n low high cs = some (k, rest)) :
    (cs.take n).length = n ∧ (∀ c ∈ cs.take n, c.isDigit = true) ∧ rest = cs.drop n := by
  rw [fixedDigits] at h
  split at h
  · next hall =>
    cases h
    simp only [Bool.and_eq_true, decide_eq_true_iff, List.all_eq_true] at hall
    exact ⟨hall.1.1.1, hall.1.1.2, rfl⟩
  · cases h

/-- Digits that are read off a line belong to it, and so does what follows unless the line ends. -/
theorem exactly_of_fixedDigits {n low high k : Nat} {line rest more : List Char} {c : Char}
    (h : fixedDigits n low high (line ++ '\n' :: rest) = some (k, more)) (hc : c ≠ '\n')
    (hline : c ∉ line) : exactly c more = none := by
  obtain ⟨hlength, hdigits, rfl⟩ := fixedDigits_some h
  have hle : n ≤ line.length := by
    by_contra hlong
    have hbreak : '\n' ∈ (line ++ '\n' :: rest).take n := by
      rw [List.take_append]
      refine List.mem_append_right _ ?_
      obtain ⟨k, hk⟩ : ∃ k, n - line.length = k + 1 := ⟨n - line.length - 1, by omega⟩
      rw [hk, List.take_succ_cons]
      exact List.mem_cons_self
    cases hdigits '\n' hbreak
  rw [List.drop_append_of_le_length hle]
  cases hdrop : line.drop n with
  | nil => exact if_neg (Ne.symm hc)
  | cons d ds =>
    refine if_neg fun hd => hline ?_
    rw [← hd]
    exact List.mem_of_mem_drop (hdrop ▸ List.mem_cons_self)

/-- A line without the marks of dates and times holds none. -/
theorem moment?_eq_none {line rest : List Char} (hdash : '-' ∉ line) (hcolon : ':' ∉ line) :
    moment? (line ++ '\n' :: rest) = none := by
  have hdate : date? (line ++ '\n' :: rest) = none := by
    rw [date?]
    cases hyear : fixedDigits 4 0 9999 (line ++ '\n' :: rest) with
    | none => rfl
    | some found =>
      obtain ⟨year, more⟩ := found
      simp only [bind, Option.bind, exactly_of_fixedDigits hyear (by decide) hdash]
  have htime : time? (line ++ '\n' :: rest) = none := by
    rw [time?]
    cases hhour : fixedDigits 2 0 23 (line ++ '\n' :: rest) with
    | none => rfl
    | some found =>
      obtain ⟨hour, more⟩ := found
      simp only [bind, Option.bind, exactly_of_fixedDigits hhour (by decide) hcolon]
  simp only [moment?, hdate, htime]

/-- A date or a time starts with a digit. -/
theorem moment?_of_not_isDigit {c : Char} {cs : List Char} (hc : c.isDigit = false) :
    moment? (c :: cs) = none := by
  have hfixed (n low high : Nat) : fixedDigits (n + 1) low high (c :: cs) = none := by
    rw [fixedDigits]
    simp only [List.take_succ_cons, List.all_cons, hc, Bool.false_and, Bool.and_false,
      Bool.false_eq_true, if_false]
  simp only [moment?, date?, time?, hfixed, bind, Option.bind]

/-! ### Signs -/

theorem sign_of_isDigit {c : Char} {cs : List Char} (hc : c.isDigit = true) :
    sign (c :: cs) = (false, c :: cs) := by
  rw [sign.eq_def]
  split
  · next heq =>
    cases heq
    cases hc
  · next heq =>
    cases heq
    cases hc
  · rfl

/-- Behind a sign stands a decimal number if it starts with a digit. -/
theorem number_eq {cs rest : List Char} {negative : Bool} {c : Char} (hsign : sign cs = (negative, c :: rest))
    (hc : c.isDigit = true) (hbase : ∀ b ∈ ['x', 'o', 'b'], ∀ more, cs ≠ '0' :: b :: more) :
    number cs = decimal negative (c :: rest) := by
  rw [number.eq_def]
  split
  · exact absurd rfl (hbase 'x' (by decide) _)
  · exact absurd rfl (hbase 'o' (by decide) _)
  · exact absurd rfl (hbase 'b' (by decide) _)
  · rw [hsign]
    dsimp only
    split
    · next heq =>
      cases heq
      cases hc
    · next heq =>
      cases heq
      cases hc
    · rfl

end Toml

namespace Decimal

open Toml (Digits Leads numberOf numbers)

/-! ### Written numbers -/

theorem digits_figures (n : Nat) : Digits (figures n) where
  all _ hc := Nat.isDigit_of_mem_toDigits (by decide) (by decide) hc
  ne_nil := Nat.toDigits_ne_nil

/-- The first figure of a positive number is not zero. -/
theorem head?_figures {n : Nat} (hn : 0 < n) : (figures n).head? ≠ some '0' := by
  have hdigit : ∀ k < 10, 0 < k → [k.digitChar].head? ≠ some '0' := by decide
  rw [figures]
  induction n using Nat.strongRecOn with
  | ind n ih =>
    rcases Nat.lt_or_ge n 10 with hsmall | hlarge
    · rw [Nat.toDigits_of_lt_base hsmall]
      exact hdigit n hsmall hn
    · have hrest : 0 < n / 10 := Nat.div_pos hlarge (by decide)
      rw [Nat.toDigits_of_base_le (by decide) hlarge,
        List.head?_append_of_ne_nil _ Nat.toDigits_ne_nil]
      exact ih (n / 10) (Nat.div_lt_self hn (by decide)) hrest

theorem leads_figures (n : Nat) : Leads (figures n) := by
  rcases Nat.eq_zero_or_pos n with rfl | hpos
  · exact .inl rfl
  · exact .inr (head?_figures hpos)

theorem isDigit_of_mem_zeros {k : Nat} {c : Char} (hc : c ∈ List.replicate k '0') : c.isDigit = true := by
  rw [List.eq_of_mem_replicate hc]
  rfl

/-- A text of digits on both sides of a point, with the value of a decimal. -/
structure Spells (text : List Char) (d : Decimal) (whole places : List Char) : Prop where
  text_eq : text = whole ++ '.' :: places
  digits : Digits whole
  leads : Leads whole
  digits' : Digits places
  toRat_eq : toRat ⟨numberOf 10 (whole ++ places), -(places.length : Int)⟩ = d.toRat

section Spelling
variable {n : Nat}

theorem numberOf_figures (n : Nat) : numberOf 10 (figures n) = n := by
  rw [Toml.numberOf_eq (digits_figures n).all]
  exact Nat.ofDigitChars_ten_toDigits

/-- A whole number shows a zero behind the point. -/
theorem spells_whole {k : Nat} (hzero : n = 0 → k = 0) :
    Spells (figures n ++ List.replicate k '0' ++ ['.', '0']) ⟨n, k⟩ (figures n ++ List.replicate k '0')
      ['0'] where
  text_eq := rfl
  digits := ⟨List.forall_mem_append.mpr ⟨(digits_figures n).all, fun _ => isDigit_of_mem_zeros⟩,
    List.append_ne_nil_of_left_ne_nil (digits_figures n).ne_nil _⟩
  leads := by
    rcases Nat.eq_zero_or_pos n with hn | hpos
    · rw [hzero hn, List.replicate_zero, List.append_nil]
      exact leads_figures n
    · refine .inr ?_
      rw [List.head?_append_of_ne_nil _ (digits_figures n).ne_nil]
      exact head?_figures hpos
  digits' := ⟨List.forall_mem_singleton.mpr rfl, by decide⟩
  toRat_eq := by
    have hdigits : ∀ c ∈ figures n ++ List.replicate k '0' ++ ['0'], c.isDigit = true := by
      refine List.forall_mem_append.mpr ⟨List.forall_mem_append.mpr ⟨(digits_figures n).all, ?_⟩, ?_⟩
      · exact fun _ => isDigit_of_mem_zeros
      · exact List.forall_mem_singleton.mpr rfl
    have hnumber : numberOf 10 (figures n ++ List.replicate k '0' ++ ['0']) = 10 * (10 ^ k * n) := by
      rw [Toml.numberOf_eq hdigits, Nat.ofDigitChars_append, Nat.ofDigitChars_append,
        ← Toml.numberOf_eq (digits_figures n).all, numberOf_figures, Nat.ofDigitChars_replicate_zero,
        Nat.ofDigitChars_cons, Nat.ofDigitChars_nil]
      rfl
    rw [hnumber, toRat, toRat]
    push_cast
    simp only [List.length_singleton, Nat.cast_one, zpow_neg, zpow_one, zpow_natCast]
    ring

/-- A point among the figures. -/
theorem spells_split {k : Nat} (hsome : 0 < k) (hshort : k < (figures n).length) :
    Spells ((figures n).take ((figures n).length - k) ++ '.' ::
        (figures n).drop ((figures n).length - k)) ⟨n, -(k : Int)⟩
      ((figures n).take ((figures n).length - k)) ((figures n).drop ((figures n).length - k)) where
  text_eq := rfl
  digits := ⟨fun c hc => (digits_figures n).all c (List.mem_of_mem_take hc), by
    rw [Ne, List.take_eq_nil_iff]
    exact fun h => h.elim (by omega) (digits_figures n).ne_nil⟩
  leads := by
    have hpos : 0 < n := by
      rw [Nat.pos_iff_ne_zero]
      rintro rfl
      have hone : (figures 0).length = 1 := rfl
      omega
    refine .inr ?_
    rw [List.head?_take, if_neg (by omega)]
    exact head?_figures hpos
  digits' := ⟨fun c hc => (digits_figures n).all c (List.mem_of_mem_drop hc), by
    rw [Ne, List.drop_eq_nil_iff]
    omega⟩
  toRat_eq := by
    rw [List.take_append_drop, numberOf_figures, List.length_drop, Nat.sub_sub_self (Nat.le_of_lt hshort)]

/-- Zeros behind the point. -/
theorem spells_small {k : Nat} (hlong : (figures n).length ≤ k) :
    Spells ('0' :: '.' :: (List.replicate (k - (figures n).length) '0' ++ figures n)) ⟨n, -(k : Int)⟩ ['0']
      (List.replicate (k - (figures n).length) '0' ++ figures n) where
  text_eq := rfl
  digits := ⟨List.forall_mem_singleton.mpr rfl, by decide⟩
  leads := .inl rfl
  digits' := ⟨List.forall_mem_append.mpr ⟨fun _ => isDigit_of_mem_zeros, (digits_figures n).all⟩,
    List.append_ne_nil_of_right_ne_nil _ (digits_figures n).ne_nil⟩
  toRat_eq := by
    have hdigits : ∀ c ∈ ['0'] ++ (List.replicate (k - (figures n).length) '0' ++ figures n),
        c.isDigit = true := by
      refine List.forall_mem_append.mpr ⟨?_, List.forall_mem_append.mpr ⟨?_, (digits_figures n).all⟩⟩
      · exact List.forall_mem_singleton.mpr rfl
      · exact fun _ => isDigit_of_mem_zeros
    have hnumber : numberOf 10 (['0'] ++ (List.replicate (k - (figures n).length) '0' ++ figures n)) = n := by
      rw [Toml.numberOf_eq hdigits, Nat.ofDigitChars_append, Nat.ofDigitChars_append,
        Nat.ofDigitChars_cons, Nat.ofDigitChars_nil, Nat.ofDigitChars_replicate_zero]
      exact Nat.ofDigitChars_ten_toDigits
    rw [hnumber, List.length_append, List.length_replicate, Nat.sub_add_cancel hlong]

end Spelling

/-- What is written in a file is spelled with a point. -/
theorem spells_numbers {d : Decimal} (hzero : d.digits = 0 → d.exponent ≤ 0) :
    ∃ whole places, Spells (numbers.spell d) d whole places ∧
      (places.length : Int) ≤ max 1 (-d.exponent) := by
  have hspell : numbers.spell d = if d.isWhole then d.positional ++ ['.', '0'] else d.positional := rfl
  rw [hspell, isWhole, positional]
  obtain ⟨n, e⟩ := d
  dsimp only at *
  rcases lt_or_ge e 0 with hneg | hwhole
  · obtain ⟨k, rfl⟩ : ∃ k : Nat, e = -(k : Int) := ⟨(-e).toNat, by omega⟩
    rw [decide_eq_false (by omega), if_neg Bool.false_ne_true, if_neg (by omega), Int.neg_neg,
      Int.toNat_natCast]
    split
    · next hshort =>
      refine ⟨_, _, spells_split (by omega) hshort, ?_⟩
      rw [List.length_drop]
      omega
    · next hlong =>
      refine ⟨_, _, spells_small (Nat.le_of_not_lt hlong), ?_⟩
      rw [List.length_append, List.length_replicate]
      omega
  · obtain ⟨k, rfl⟩ := Int.eq_ofNat_of_zero_le hwhole
    rw [decide_eq_true hwhole, if_pos rfl, if_pos hwhole, Int.toNat_natCast]
    exact ⟨_, _, spells_whole (fun hn => by omega), le_max_left _ _⟩

end Decimal
namespace Toml

open Decimal (figures)

section Lines
variable {rest : List Char}

theorem plainValue_eq_number {c : Char} {cs : List Char} (ht : c ≠ 't') (hf : c ≠ 'f')
    (hmoment : moment? (c :: cs) = none) : plainValue (c :: cs) = number (c :: cs) := by
  rw [plainValue.eq_def]
  split
  · next heq => exact absurd (List.cons.inj heq).1 ht
  · next heq => exact absurd (List.cons.inj heq).1 hf
  · rw [hmoment]

variable (rest) in
/-- A sign, digits and points up to the end of a line are read as a decimal number. -/
theorem plainValue_eq_decimal {c : Char} {body : List Char} (hc : c.isDigit = true)
    (hbody : ∀ d ∈ body, d.isDigit = true ∨ d = '.') (negative : Bool) :
    plainValue ((if negative then ['-'] else []) ++ c :: (body ++ '\n' :: rest)) =
      decimal negative (c :: (body ++ '\n' :: rest)) := by
  have hhead {d : Char} (hd : d.isDigit = false) : c ≠ d := ne_of_isDigit hc hd
  cases negative with
  | true =>
    have hmoment : moment? ('-' :: c :: (body ++ '\n' :: rest)) = none := moment?_of_not_isDigit rfl
    rw [if_pos rfl, List.singleton_append, plainValue_eq_number (by decide) (by decide) hmoment]
    exact number_eq rfl hc (by simp)
  | false =>
    have hmark {d : Char} (hd : d.isDigit = false) (hpoint : d ≠ '.') : d ∉ c :: body := by
      intro hmem
      rcases List.mem_cons.mp hmem with rfl | hmem
      · exact hhead hd rfl
      · exact (hbody d hmem).elim (fun hdigit => ne_of_isDigit hdigit hd rfl) hpoint
    have hmoment : moment? (c :: (body ++ '\n' :: rest)) = none :=
      moment?_eq_none (hmark rfl (by decide)) (hmark rfl (by decide))
    have hletters : ∀ b ∈ ['x', 'o', 'b'], b ≠ '\n' ∧ b.isDigit = false ∧ b ≠ '.' := by simp
    rw [if_neg Bool.false_ne_true, List.nil_append,
      plainValue_eq_number (hhead rfl) (hhead rfl) hmoment]
    refine number_eq (sign_of_isDigit hc) hc fun b hb more heq => ?_
    have hsecond : (body ++ '\n' :: rest).head? = some b := by
      rw [(List.cons.inj heq).2, List.head?_cons]
    obtain ⟨hbreak, hletter, hpoint⟩ := hletters b hb
    cases body with
    | nil => exact hbreak (Option.some.inj hsecond).symm
    | cons d body =>
      obtain rfl := Option.some.inj hsecond
      exact (hbody d List.mem_cons_self).elim (fun hdigit => ne_of_isDigit hdigit hletter rfl) hpoint

/-- **An integer of 64 bits that is written is read back.** -/
theorem plainValue_toString {n : Nat} (hn : n < 2 ^ 63) :
    plainValue ((toString n).toList ++ '\n' :: rest) = some (.integer n, '\n' :: rest) := by
  have hdigits := Decimal.digits_figures n
  have hend : NoDigits ('\n' :: rest) := noDigits_cons rfl (by decide)
  have hread := decimal_whole false hdigits (Decimal.leads_figures n) hend (by simp)
  have hinteger : integer? (n : Int) = some (.integer n) := if_pos (by simp; omega)
  rw [if_neg Bool.false_ne_true, Decimal.numberOf_figures, hinteger, Option.map_some] at hread
  rw [Nat.toString_eq_repr, Nat.toList_repr, ← figures]
  obtain ⟨c, body, hbody⟩ := List.exists_cons_of_ne_nil hdigits.ne_nil
  rw [hbody] at hread ⊢
  have hall := hbody ▸ hdigits.all
  rw [List.forall_mem_cons] at hall
  have hplain := plainValue_eq_decimal rest hall.1 (fun d hd => .inl (hall.2 d hd)) false
  exact hplain.trans hread

/-- Digits on both sides of a point are read as a float. -/
theorem plainValue_spells {text : List Char} {d : Decimal} {whole places : List Char}
    (h : Decimal.Spells text d whole places) (negative : Bool) :
    plainValue ((if negative then ['-'] else []) ++ (text ++ '\n' :: rest)) =
      (float? negative (whole ++ places) (-(places.length : Int))).map fun v => (v, '\n' :: rest) := by
  have hend : NoDigits ('\n' :: rest) := noDigits_cons rfl (by decide)
  have hread := decimal_point negative h.digits h.leads h.digits' hend (by simp)
  obtain ⟨c, ds, hwhole⟩ := List.exists_cons_of_ne_nil h.digits.ne_nil
  have hall := hwhole ▸ h.digits.all
  rw [List.forall_mem_cons] at hall
  have hbody : ∀ d ∈ ds ++ '.' :: places, d.isDigit = true ∨ d = '.' := by
    refine List.forall_mem_append.mpr ⟨fun d hd => .inl (hall.2 d hd), ?_⟩
    exact List.forall_mem_cons.mpr ⟨.inr rfl, fun d hd => .inl (h.digits'.all d hd)⟩
  have hplain := plainValue_eq_decimal rest hall.1 hbody negative
  have htext : text ++ '\n' :: rest = c :: (ds ++ '.' :: places ++ '\n' :: rest) := by
    rw [h.text_eq, hwhole, List.cons_append, List.cons_append]
  rw [htext, hplain, ← hread, hwhole]
  simp only [List.cons_append, List.append_assoc]

/-- **A float that is written is read back.** -/
theorem plainValue_writtenFloat {x : Binary64} (hx : x.isNaN = false) :
    plainValue ((writtenFloat x).toList ++ '\n' :: rest) = some (.float x, '\n' :: rest) := by
  rcases Binary64.finite_or_infinite hx with hfinite | rfl | rfl
  · have hmagnitude := Binary64.isFinite_iff.mp hfinite
    obtain ⟨hlow, hzero⟩ := Decimal.exponent_shortest x.magnitude
    obtain ⟨whole, places, hspells, hlength⟩ := Decimal.spells_numbers hzero
    have hread : Binary64.ofDecimal x.isNegative (numberOf 10 (whole ++ places)) (-(places.length : Int)) = x := by
      have hshort := Binary64.ofDecimal_of_toRat hmagnitude hspells.toRat_eq (by dsimp only; omega)
        (by dsimp only; omega) x.isNegative
      exact hshort.trans x.ofMagnitude_magnitude
    have hfloat : float? x.isNegative (whole ++ places) (-(places.length : Int)) = some (.float x) := by
      rw [float?, hread]
      refine if_neg fun hinfinity => ?_
      rw [hinfinity] at hfinite
      cases hfinite
    have htext : (writtenFloat x).toList = (if x.isNegative then ['-'] else []) ++
        numbers.spell (Decimal.shortest x.magnitude) := by
      rw [writtenFloat, Binary64.spell, hx, Binary64.isInfinite_of_isFinite hfinite]
      cases x.isNegative <;> simp
    rw [htext, List.append_assoc, plainValue_spells hspells, hfloat, Option.map_some]
  · have hmoment : moment? ('i' :: 'n' :: 'f' :: '\n' :: rest) = none := moment?_of_not_isDigit rfl
    exact plainValue_eq_number (by decide) (by decide) hmoment
  · have hmoment : moment? ('-' :: 'i' :: 'n' :: 'f' :: '\n' :: rest) = none := moment?_of_not_isDigit rfl
    exact plainValue_eq_number (by decide) (by decide) hmoment

end Lines

end Toml

end IsolatedSolving
