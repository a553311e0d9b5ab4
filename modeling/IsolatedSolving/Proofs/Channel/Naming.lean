import IsolatedSolving.Channel.Parent

/-! The segment of a channel and its name.

A segment that was created can be opened under its name, and is a block of its own (`create_ok`). The
names of a row get longer with their numbers, whatever slashes they begin with (`toList_key_numbered`), so
one that is not too long has only such names before it. The search for a free one therefore finds one
whenever there is one (`createFrom_free`), and what it finds is a fresh segment in any case
(`createFrom_ok`). -/
namespace IsolatedSolving.Segment

/-- What the system keeps for a name is the name itself but for the slashes in front. -/
theorem toList_key (name : String) : (key name).toList = name.toList.dropWhile (· == '/') := by
  rw [key, String.toList_ofList, List.dropWhile_cons_of_pos rfl]

namespace Store

/-! ### One segment -/

/-- What a creation that succeeds has checked, and what it leaves behind. -/
theorem create_ok {s s' : Store} {name : String} {size : Nat} {m : Mapping}
    (h : s.create name size = (.ok m, s')) :
    s.takes name = true ∧ s.holds name = false ∧ m = ⟨name, s.blocks.length, true⟩ ∧
      s' = s.add name (List.replicate size 0) := by
  unfold create at h
  split at h
  · simp at h
  split at h
  · simp at h
  next htakes =>
  split at h
  · simp at h
  next hfree =>
  split at h
  · simp at h
  split at h
  · simp at h
  simp only [Prod.mk.injEq, Except.ok.injEq] at h
  exact ⟨by simpa using htakes, by simpa using hfree, h.1.symm, h.2.symm⟩

/-- A creation that fails changes nothing. -/
theorem create_error {s s' : Store} {name : String} {size : Nat} {e : SegmentError}
    (h : s.create name size = (.error e, s')) : s' = s := by
  unfold create at h
  repeat' split at h
  all_goals simp only [Prod.mk.injEq, Except.error.injEq, reduceCtorEq, false_and] at h
  all_goals exact h.2.symm

/-- A creation that finds the name in use. -/
theorem holds_of_create {s s' : Store} {name other : String} {size : Nat}
    (h : s.create name size = (.error (.alreadyExists other), s')) : s.holds name = true := by
  unfold create at h
  split at h
  · simp at h
  split at h
  · simp [refused] at h
  split at h
  · assumption
  split at h
  · simp at h
  split at h
  · simp [refused] at h
  · simp at h

/-- A creation succeeds under a free name that the system takes, with a size that can be mapped. -/
theorem create_eq {s : Store} {name : String} {size : Nat} (hpos : 0 < size)
    (htakes : s.takes name = true) (hfree : s.holds name = false) (hsize : size < 1 <<< 63)
    (hlimit : size < s.limit) :
    s.create name size =
      (.ok ⟨name, s.blocks.length, true⟩, s.add name (List.replicate size 0)) := by
  have hshift : ¬1 <<< 63 ≤ size := by
    rw [Nat.shiftLeft_eq, Nat.one_mul]
    omega
  simp only [create, Nat.ne_of_gt hpos, htakes, hfree, hshift, Nat.not_le.mpr hlimit, if_false,
    Bool.not_true, Bool.false_eq_true]

/-- A creation under a name that is in use. -/
theorem create_held {s : Store} {name : String} {size : Nat} (hpos : 0 < size)
    (htakes : s.takes name = true) (hheld : s.holds name = true) :
    s.create name size = (.error (.alreadyExists name), s) := by
  simp only [create, Nat.ne_of_gt hpos, htakes, hheld, if_false, if_true, Bool.not_true,
    Bool.false_eq_true]

/-- A new block can be opened under its name, unless it is empty. -/
theorem openNamed_add {s : Store} {name : String} {bytes : List UInt8}
    (htakes : s.takes name = true) (hfree : s.holds name = false) (hbytes : bytes ≠ []) :
    (s.add name bytes).openNamed name = .ok ⟨name, s.blocks.length, false⟩ := by
  have hnone : s.names.lookup (key name) = none := by
    simpa only [holds, find?, Option.isSome_eq_false_iff, Option.isNone_iff_eq_none] using hfree
  have htakes' : (s.add name bytes).takes name = true := htakes
  have hfound : (s.add name bytes).find? name = some s.blocks.length := by
    simp only [find?, add, List.lookup_append, hnone, Option.none_or, List.lookup_cons,
      beq_self_eq_true]
  have hblock : (s.add name bytes).blocks.getD s.blocks.length [] = bytes := by
    simp only [add, List.getD_eq_getElem?_getD, List.getElem?_concat_length, Option.getD_some]
  have hsome : bytes.isEmpty = false := List.isEmpty_eq_false_iff.mpr hbytes
  simp only [openNamed, htakes', hfound, hblock, hsome, Bool.not_true, Bool.false_eq_true, if_false]

theorem bytes_write {s : Store} {m n : Mapping} (h : m.block < s.blocks.length)
    (hn : n.block = m.block) (bytes : List UInt8) : (s.write m bytes).bytes n = bytes := by
  simp only [Store.bytes, write, hn, List.getD_eq_getElem?_getD, List.getElem?_set_self h,
    Option.getD_some]

theorem bytes_write_of_ne {s : Store} {m n : Mapping} (hn : n.block ≠ m.block) (bytes : List UInt8) :
    (s.write m bytes).bytes n = s.bytes n := by
  simp only [Store.bytes, write, List.getD_eq_getElem?_getD, List.getElem?_set_ne hn.symm]

end Store

end IsolatedSolving.Segment

namespace IsolatedSolving.Channel.Parent

open Segment (Mapping Store key toList_key)

/-! ### Numbered names -/

theorem toList_numbered (base : String) (trial : Nat) :
    (numbered base trial).toList = base.toList ++ Nat.toDigits 10 trial := by
  rw [numbered, String.toList_append, Nat.toString_eq_repr, Nat.toList_repr]

/-- A digit takes one byte. -/
theorem utf8ByteSize_ofList_of_isDigit {digits : List Char} (h : ∀ c ∈ digits, c.isDigit = true) :
    (String.ofList digits).utf8ByteSize = digits.length := by
  induction digits with
  | nil => rfl
  | cons c cs ih =>
    have hc := h c List.mem_cons_self
    simp only [Char.isDigit, Bool.and_eq_true, decide_eq_true_eq] at hc
    have hone : c.utf8Size = 1 := Char.utf8Size_eq_one_iff.mpr (UInt32.le_trans hc.2 (by decide))
    rw [String.ofList_cons, String.utf8ByteSize_append, String.utf8ByteSize_singleton, hone,
      ih fun d hd => h d (List.mem_cons_of_mem c hd), List.length_cons, Nat.add_comm]

theorem utf8ByteSize_digits (n : Nat) : (toString n).utf8ByteSize = (Nat.toDigits 10 n).length :=
  utf8ByteSize_ofList_of_isDigit fun _ hc => Nat.isDigit_of_mem_toDigits (by decide) (by decide) hc

/-- What the system keeps for a numbered name ends in the number. -/
theorem toList_key_numbered (base : String) (trial : Nat) :
    (key (numbered base trial)).toList =
      base.toList.dropWhile (· == '/') ++ Nat.toDigits 10 trial := by
  have hdigits : (Nat.toDigits 10 trial).dropWhile (· == '/') = Nat.toDigits 10 trial := by
    obtain ⟨d, ds, hds⟩ := List.exists_cons_of_ne_nil (Nat.toDigits_ne_nil (b := 10) (n := trial))
    have hd : d.isDigit = true :=
      Nat.isDigit_of_mem_toDigits (by decide) (by decide) (hds ▸ List.mem_cons_self)
    have hslash : ¬(d == '/') = true := by
      intro hsame
      rw [eq_of_beq hsame] at hd
      cases hd
    rw [hds, List.dropWhile_cons, if_neg hslash]
  rw [toList_key, toList_numbered, List.dropWhile_append, hdigits]
  split
  · next hnone => rw [List.isEmpty_iff.mp hnone, List.nil_append]
  · rfl

/-- Which numbered names a system takes. -/
theorem takes_numbered_iff {s : Store} {base : String} {trial : Nat} :
    s.takes (numbered base trial) = true ↔
      '/' ∉ base.toList.dropWhile (· == '/') ∧ '\x00' ∉ base.toList ∧
        (String.ofList (base.toList.dropWhile (· == '/'))).utf8ByteSize +
          (Nat.toDigits 10 trial).length < s.nameLimit := by
  have hslash : '/' ∉ Nat.toDigits 10 trial := fun h =>
    absurd (Nat.isDigit_of_mem_toDigits (by decide) (by decide) h) (by decide)
  have hzero : '\x00' ∉ Nat.toDigits 10 trial := fun h =>
    absurd (Nat.isDigit_of_mem_toDigits (by decide) (by decide) h) (by decide)
  have hkey : key (numbered base trial) =
      String.ofList (base.toList.dropWhile (· == '/')) ++ toString trial := by
    rw [← String.toList_inj, toList_key_numbered, String.toList_append, String.toList_ofList,
      Nat.toString_eq_repr, Nat.toList_repr]
  have hsome : key (numbered base trial) ≠ "" := by
    intro hempty
    have hlist := congrArg String.toList hempty
    rw [toList_key_numbered] at hlist
    exact Nat.toDigits_ne_nil (List.append_eq_nil_iff.mp hlist).2
  have hsize : (key (numbered base trial)).utf8ByteSize =
      (String.ofList (base.toList.dropWhile (· == '/'))).utf8ByteSize +
        (Nat.toDigits 10 trial).length := by
    rw [hkey, String.utf8ByteSize_append, utf8ByteSize_digits]
  simp only [Store.takes, toList_key_numbered, toList_numbered, bne_iff_ne.mpr hsome, hsize,
    Bool.true_and, Bool.and_eq_true, Bool.not_eq_true', decide_eq_true_eq, List.contains_eq_mem,
    decide_eq_false_iff_not, List.mem_append, hslash, hzero, or_false, and_assoc]

/-- Numbers in front of one whose name a system takes have such names. -/
theorem takes_numbered_of_le {s : Store} {base : String} {m n : Nat} (h : m ≤ n)
    (hn : s.takes (numbered base n) = true) : s.takes (numbered base m) = true := by
  obtain ⟨hslash, hzero, hlen⟩ := takes_numbered_iff.mp hn
  have hdigits : (Nat.toDigits 10 m).length ≤ (Nat.toDigits 10 n).length :=
    (Nat.length_toDigits_le_iff (by decide) Nat.length_toDigits_pos).mpr
      (Nat.lt_of_le_of_lt h
        ((Nat.length_toDigits_le_iff (by decide) Nat.length_toDigits_pos).mp (Nat.le_refl _)))
  exact takes_numbered_iff.mpr ⟨hslash, hzero, by omega⟩

/-! ### The first free name -/

theorem createFrom_ok {base : String} {size more trial : Nat} {store store' : Store} {m : Mapping}
    (h : createFrom base size more trial store = (.ok (some m), store')) :
    store.takes m.name = true ∧ store.holds m.name = false ∧ m = ⟨m.name, store.blocks.length, true⟩ ∧
      store' = store.add m.name (List.replicate size 0) := by
  induction more generalizing trial with
  | zero => simp [createFrom] at h
  | succ more ih =>
    rw [createFrom] at h
    split at h
    · next made _ hmade =>
      obtain ⟨rfl, rfl⟩ : made = m ∧ _ = store' := by simpa using h
      obtain ⟨htakes, hfree, rfl, rfl⟩ := Store.create_ok hmade
      exact ⟨htakes, hfree, rfl, rfl⟩
    · next hheld =>
      obtain rfl := Store.create_error hheld
      exact ih h
    · simp at h

/-- A search that finds nothing changes nothing. -/
theorem createFrom_failed {base : String} {size more trial : Nat} {store store' : Store}
    {r : Except SegmentError (Option Mapping)} (h : createFrom base size more trial store = (r, store'))
    (hr : ∀ m, r ≠ .ok (some m)) : store' = store := by
  induction more generalizing trial with
  | zero =>
    cases h
    rfl
  | succ more ih =>
    rw [createFrom] at h
    split at h
    · cases h
      exact absurd rfl (hr _)
    · next hheld =>
      obtain rfl := Store.create_error hheld
      exact ih h
    · next hfailed =>
      cases h
      exact Store.create_error hfailed

/-- What the search finds has the least number whose name is free. -/
theorem createFrom_least {base : String} {size more trial : Nat} {store store' : Store} {m : Mapping}
    (h : createFrom base size more trial store = (.ok (some m), store')) :
    ∃ found, trial ≤ found ∧ found < trial + more ∧ m.name = numbered base found ∧
      ∀ earlier, trial ≤ earlier → earlier < found →
        store.holds (numbered base earlier) = true := by
  induction more generalizing trial with
  | zero => simp [createFrom] at h
  | succ more ih =>
    rw [createFrom] at h
    split at h
    · next hmade =>
      cases h
      obtain ⟨-, -, hm, -⟩ := Store.create_ok hmade
      exact ⟨trial, Nat.le_refl _, by omega, congrArg Mapping.name hm, by omega⟩
    · next hheld =>
      obtain rfl := Store.create_error hheld
      obtain ⟨found, hle, hlt, hname, hearlier⟩ := ih h
      refine ⟨found, by omega, by omega, hname, ?_⟩
      intro earlier hfirst hbefore
      by_cases htrial : earlier = trial
      · rw [htrial]
        exact Store.holds_of_create hheld
      · exact hearlier earlier (by omega) hbefore
    · simp at h

/-- The search finds a free name if there is one among those that it tries. -/
theorem createFrom_free {base : String} {size more trial free : Nat} {store : Store}
    (hpos : 0 < size) (hsize : size < 1 <<< 63) (hlimit : size < store.limit)
    (htakes : store.takes (numbered base free) = true)
    (hfree : store.holds (numbered base free) = false)
    (hle : trial ≤ free) (hlt : free < trial + more) :
    ∃ m store', createFrom base size more trial store = (.ok (some m), store') := by
  induction more generalizing trial with
  | zero => omega
  | succ more ih =>
    have hearlier := takes_numbered_of_le hle htakes
    rw [createFrom]
    by_cases hheld : store.holds (numbered base trial) = true
    · rw [Store.create_held hpos hearlier hheld]
      have hne : trial ≠ free := by
        rintro rfl
        rw [hfree] at hheld
        exact Bool.noConfusion hheld
      exact ih (by omega) (by omega)
    · rw [Store.create_eq hpos hearlier (Bool.not_eq_true _ ▸ hheld) hsize hlimit]
      exact ⟨_, _, rfl⟩

end IsolatedSolving.Channel.Parent
