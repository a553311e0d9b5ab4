import IsolatedSolving.Proofs.Toml.Stability.Endings

/-! Numbers whatever follows them.

A run of digits ends at the latest with the line, and a sign, a point and the letter of a power are all on it.
So every number is the same when more text follows (`stable_number`). -/
namespace IsolatedSolving.Toml

/-! ### Digits -/

theorem Ends.digitRun {ok : Char → Bool} {cs : List Char} (h : Ends cs) (hok : ok '\n' = false) :
    Ends (digitRun ok cs).2 ∧
      ∀ more, Toml.digitRun ok (cs ++ more) = ((Toml.digitRun ok cs).1, (Toml.digitRun ok cs).2 ++ more) := by
  have hne {c : Char} (hc : ok c = true) : c ≠ '\n' := by
    rintro rfl
    rw [hok] at hc
    cases hc
  have hsingle {c : Char} {cs : List Char} (h : Ends (c :: cs))
      (hlow : ∀ d rest, c = '_' → cs = d :: rest → False) : c ≠ '_' := by
    rintro rfl
    obtain ⟨d, rest, heq⟩ := List.exists_cons_of_ne_nil (h.tail (by decide)).ne_nil
    exact hlow d rest rfl heq
  fun_induction Toml.digitRun ok cs with
  | case1 c cs hc ds rest hrun ih =>
    rw [hrun] at ih
    obtain ⟨hends, hmore⟩ := ih ((h.tail (by decide)).tail (hne hc))
    refine ⟨hends, fun more => ?_⟩
    show Toml.digitRun ok ('_' :: c :: (cs ++ more)) = _
    rw [Toml.digitRun, if_pos hc, hmore]
  | case2 c cs hc =>
    refine ⟨h, fun more => ?_⟩
    show Toml.digitRun ok ('_' :: c :: (cs ++ more)) = _
    rw [Toml.digitRun, if_neg hc]
    rfl
  | case3 c cs hlow hc ds rest hrun ih =>
    rw [hrun] at ih
    obtain ⟨hends, hmore⟩ := ih (h.tail (hne hc))
    refine ⟨hends, fun more => ?_⟩
    rw [List.cons_append, digitRun.eq_2 _ _ _ (fun _ _ heq => absurd heq (hsingle h hlow)), if_pos hc, hmore]
  | case4 c cs hlow hc =>
    refine ⟨h, fun more => ?_⟩
    rw [List.cons_append, digitRun.eq_2 _ _ _ (fun _ _ heq => absurd heq (hsingle h hlow)), if_neg hc]
  | case5 => exact absurd rfl h.ne_nil

theorem stable_digits {ok : Char → Bool} (hok : ok '\n' = false) : Stable (digits ok) := by
  intro cs ds rest h hread
  obtain ⟨c, cs, rfl⟩ := List.exists_cons_of_ne_nil h.ne_nil
  rw [digits] at hread
  split at hread
  · next hc =>
    cases hread
    have hcs : Ends cs := h.tail (by rintro rfl; rw [hok] at hc; cases hc)
    obtain ⟨hends, hmore⟩ := hcs.digitRun hok
    refine ⟨hends, fun more => ?_⟩
    rw [List.cons_append, digits, if_pos hc, hmore]
  · cases hread

/-! ### Signs, powers and bases -/

theorem Ends.sign {cs : List Char} (h : Ends cs) :
    Ends (sign cs).2 ∧ ∀ more, Toml.sign (cs ++ more) = ((Toml.sign cs).1, (Toml.sign cs).2 ++ more) := by
  fun_cases Toml.sign cs with
  | case1 cs => exact ⟨h.tail (by decide), fun _ => rfl⟩
  | case2 cs => exact ⟨h.tail (by decide), fun _ => rfl⟩
  | case3 cs hminus hplus =>
    refine ⟨h, fun more => ?_⟩
    exact sign.eq_3 _ (h.not_append (p := ['-']) (by decide) hminus more)
      (h.not_append (p := ['+']) (by decide) hplus more)

theorem stable_exponentPart : Stable exponentPart := by
  intro cs e rest h hread
  obtain ⟨hsign, hmore⟩ := h.sign
  rw [exponentPart] at hread
  obtain ⟨⟨ds, behind⟩, hds, he⟩ := Option.bind_eq_some_iff.mp hread
  cases he
  obtain ⟨hrest, hdigits⟩ := stable_digits rfl hsign hds
  refine ⟨hrest, fun more => ?_⟩
  rw [exponentPart, hmore]
  simp only [bind, Option.bind, hdigits]
  rfl

theorem stable_based (base : Nat) {ok : Char → Bool} (hok : ok '\n' = false) : Stable (based base ok) :=
  (stable_digits hok).bind (f := fun ds rest => (integer? (numberOf base ds)).bind fun v => some (v, rest))
    fun _ => stable_return _

theorem stable_wholeDigits : Stable wholeDigits := by
  intro cs ds rest h hread
  fun_cases wholeDigits cs with
  | case1 cs =>
    cases hread
    exact ⟨h.tail (by decide), fun _ => rfl⟩
  | case2 cs hzero =>
    rw [wholeDigits.eq_2 _ hzero] at hread
    obtain ⟨hrest, hmore⟩ := stable_digits rfl h hread
    refine ⟨hrest, fun more => ?_⟩
    rw [wholeDigits.eq_2 _ (h.not_append (p := ['0']) (by decide) hzero more), hmore]

/-! ### Decimal numbers -/

/-- What is made of a number, with a power of ten behind its letter or without one. -/
def powered (withPower : Int → Option Value) (without : Option Value) : Reads Value
  | 'e' :: rest | 'E' :: rest =>
    (exponentPart rest).bind fun p => (withPower p.1).bind fun v => some (v, p.2)
  | rest => without.bind fun v => some (v, rest)

theorem stable_powered (withPower : Int → Option Value) (without : Option Value) :
    Stable (powered withPower without) := by
  have hpower : Stable fun rest =>
      (exponentPart rest).bind fun p => (withPower p.1).bind fun v => some (v, p.2) :=
    stable_exponentPart.bind (f := fun e rest => (withPower e).bind fun v => some (v, rest))
      fun _ => stable_return _
  intro cs v rest h hread
  fun_cases powered withPower without cs with
  | case1 cs => exact hpower (h.tail (by decide)) hread
  | case2 cs => exact hpower (h.tail (by decide)) hread
  | case3 cs hlower hupper =>
    rw [powered.eq_3 _ _ _ hlower hupper] at hread
    obtain ⟨hrest, hmore⟩ := stable_return without h hread
    refine ⟨hrest, fun more => ?_⟩
    rw [powered.eq_3 _ _ _ (h.not_append (p := ['e']) (by decide) hlower more)
      (h.not_append (p := ['E']) (by decide) hupper more)]
    exact hmore more

/-- What follows the digits before the point. -/
def afterWhole (negative : Bool) (whole : List Char) : Reads Value
  | '.' :: rest => (digits Char.isDigit rest).bind fun p =>
    powered (fun e => float? negative (whole ++ p.1) (e - p.1.length))
      (float? negative (whole ++ p.1) (-(p.1.length : Int))) p.2
  | rest => powered (float? negative whole)
    (integer? (if negative then -(numberOf 10 whole : Int) else numberOf 10 whole)) rest

theorem stable_afterWhole (negative : Bool) (whole : List Char) : Stable (afterWhole negative whole) := by
  intro cs v rest h hread
  fun_cases afterWhole negative whole cs with
  | case1 cs =>
    have hbreak : Char.isDigit '\n' = false := rfl
    have hdigits := (stable_digits hbreak).bind
      (f := fun places => powered (fun e => float? negative (whole ++ places) (e - places.length))
        (float? negative (whole ++ places) (-(places.length : Int)))) fun _ => stable_powered _ _
    exact hdigits (h.tail (by decide)) hread
  | case2 cs hpoint =>
    rw [afterWhole.eq_2 _ _ _ hpoint] at hread
    obtain ⟨hrest, hmore⟩ := stable_powered _ _ h hread
    refine ⟨hrest, fun more => ?_⟩
    rw [afterWhole.eq_2 _ _ _ (h.not_append (p := ['.']) (by decide) hpoint more), hmore]

theorem decimal_eq (negative : Bool) (cs : List Char) :
    decimal negative cs = (wholeDigits cs).bind fun p => afterWhole negative p.1 p.2 := by
  rw [decimal]
  refine congrArg (wholeDigits cs).bind (funext fun ⟨whole, rest⟩ => ?_)
  dsimp only
  split
  · next rest =>
    refine congrArg (digits Char.isDigit rest).bind (funext fun ⟨places, rest⟩ => ?_)
    dsimp only
    split
    · rfl
    · rfl
    · next hlower hupper => rw [powered.eq_3 _ _ _ hlower hupper]; rfl
  · rfl
  · rfl
  · next hpoint hlower hupper =>
    rw [afterWhole.eq_2 _ _ _ hpoint, powered.eq_3 _ _ _ hlower hupper]
    rfl

theorem stable_decimal (negative : Bool) : Stable (decimal negative) := by
  have h := stable_wholeDigits.bind (stable_afterWhole negative)
  simpa only [← decimal_eq] using h

theorem stable_number : Stable number := by
  intro cs v rest h hread
  rw [number.eq_def] at hread
  split at hread
  · exact stable_based 16 rfl (h.of_word (w := ['0', 'x']) (by decide)) hread
  · exact stable_based 8 rfl (h.of_word (w := ['0', 'o']) (by decide)) hread
  · exact stable_based 2 rfl (h.of_word (w := ['0', 'b']) (by decide)) hread
  · next hhex hoctal hbinary =>
    obtain ⟨hsign, hmore⟩ := h.sign
    have hfour (more : List Char) := number.eq_4 _ (h.not_append (p := ['0', 'x']) (by decide) hhex more)
      (h.not_append (p := ['0', 'o']) (by decide) hoctal more)
      (h.not_append (p := ['0', 'b']) (by decide) hbinary more)
    simp only [hfour, hmore]
    generalize sign cs = signed at hread hsign
    obtain ⟨negative, behind⟩ := signed
    dsimp only at hread hsign ⊢
    split at hread
    · cases hread
      exact ⟨hsign.of_word (w := ['i', 'n', 'f']) (by decide), fun _ => rfl⟩
    · cases hread
      exact ⟨hsign.of_word (w := ['n', 'a', 'n']) (by decide), fun _ => rfl⟩
    · next hinf hnan =>
      obtain ⟨hrest, hdecimal⟩ := stable_decimal negative hsign hread
      refine ⟨hrest, fun more => ?_⟩
      split
      · next heq => exact (hsign.not_append (p := ['i', 'n', 'f']) (by decide) hinf more _ heq).elim
      · next heq => exact (hsign.not_append (p := ['n', 'a', 'n']) (by decide) hnan more _ heq).elim
      · exact hdecimal more

end IsolatedSolving.Toml
