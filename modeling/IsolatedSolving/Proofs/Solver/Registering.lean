import IsolatedSolving.Solver.Registry
import Mathlib.Data.List.Induction

/-! Which solver a name stands for.

A registry keeps what was registered last under each name, as it was given (`find?_ofCalls`). A name is
looked up as it is and then in small letters, so the case does not matter where all names were
registered in small letters, and only there: a name with a capital is found by itself alone
(`capital_unknown`). -/
namespace IsolatedSolving

/-! ### Small letters -/

namespace Text

/-- ASCII text in small letters. -/
def small (text : String) : String := String.ofList (text.toList.map Char.toLower)

theorem lowerFrom_of_ascii {before cs : List Char} (h : ∀ c ∈ cs, c.toNat < 128) :
    lowerFrom before cs = cs.map Char.toLower := by
  induction cs generalizing before with
  | nil => rfl
  | cons c cs ih =>
    obtain ⟨hc, hcs⟩ := List.forall_mem_cons.mp h
    have hsigma : c ≠ 'Σ' := by
      rintro rfl
      exact absurd hc (by decide)
    rw [lowerFrom, if_neg hsigma, lowerChar, if_pos hc, ih hcs]
    rfl

theorem lowerCase_of_ascii {text : String} (h : ∀ c ∈ text.toList, c.toNat < 128) :
    lowerCase text = small text := by
  rw [lowerCase, lowerFrom_of_ascii h, small]

/-- Two texts are the same up to the case of their ASCII letters. -/
def SameButCase (a b : String) : Prop := small a = small b

instance (a b : String) : Decidable (SameButCase a b) := inferInstanceAs (Decidable (small a = small b))

end Text

namespace Registry

open Text (SameButCase small)

/-! ### Registering -/

theorem lookup_cons_eq (key name : String) (f : Factory) (rest : List (String × Factory)) :
    List.lookup key ((name, f) :: rest) = if key = name then some f else rest.lookup key := by
  rw [List.lookup_cons]
  by_cases h : key = name
  · rw [if_pos h, beq_iff_eq.mpr h]
  · rw [if_neg h, beq_eq_false_iff_ne.mpr h]

theorem lookup_insert (name key : String) (f : Factory) (entries : List (String × Factory)) :
    (insert name f entries).lookup key = if key = name then some f else entries.lookup key := by
  induction entries with
  | nil => exact lookup_cons_eq key name f []
  | cons entry rest ih =>
    obtain ⟨other, g⟩ := entry
    rw [insert]
    split
    · next heq =>
      rw [lookup_cons_eq, lookup_cons_eq, heq]
      split <;> rfl
    · next hne =>
      split
      · rw [lookup_cons_eq]
      · rw [lookup_cons_eq, lookup_cons_eq, ih]
        -- The entry that stays in front is not the one of the name.
        by_cases hkey : key = other
        · have hname : key ≠ name := hkey ▸ Ne.symm hne
          simp only [if_pos hkey, if_neg hname]
        · simp only [if_neg hkey]

/-- A name stands for what was put under it, and every other name for what it did before. -/
theorem find?_register (r : Registry) (name key : String) (f : Factory) :
    (r.register name f).find? key = if key = name then some f else r.find? key :=
  lookup_insert name key f r.entries

/-- The registry after these calls. -/
def ofCalls (calls : List (String × Factory)) : Registry :=
  calls.foldl (fun r call => r.register call.1 call.2) empty

/-- What was registered last under exactly this name. -/
def last? (calls : List (String × Factory)) (name : String) : Option Factory :=
  calls.reverse.lookup name

theorem find?_ofCalls (calls : List (String × Factory)) (name : String) :
    (ofCalls calls).find? name = last? calls name := by
  induction calls using List.reverseRecOn with
  | nil => rfl
  | append_singleton calls call ih =>
    have hcalls : ofCalls (calls ++ [call]) = (ofCalls calls).register call.1 call.2 := by
      rw [ofCalls, List.foldl_append]
      rfl
    rw [hcalls, find?_register, ih, last?, last?, List.reverse_append, List.reverse_singleton,
      List.singleton_append, lookup_cons_eq]

theorem last?_isSome_iff {calls : List (String × Factory)} {name : String} :
    (last? calls name).isSome = true ↔ name ∈ calls.map Prod.fst := by
  rw [last?, List.lookup_isSome_iff, List.mem_map]
  constructor
  · rintro ⟨call, hcall, hname⟩
    exact ⟨call, List.mem_reverse.mp hcall, (eq_of_beq hname).symm⟩
  · rintro ⟨call, hcall, rfl⟩
    exact ⟨call, List.mem_reverse.mpr hcall, beq_self_eq_true _⟩

/-! ### Looking up -/

theorem create_eq (calls : List (String × Factory)) {name : String}
    (hascii : ∀ c ∈ name.toList, c.toNat < 128) :
    (ofCalls calls).create name =
      ((last? calls name).or (last? calls (small name))).getD (.error (.unknownSolver name)) := by
  rw [create, find?_ofCalls, find?_ofCalls, Text.lowerCase_of_ascii hascii]
  cases last? calls name with
  | some f => rfl
  | none =>
    cases last? calls (small name) with
    | some f => rfl
    | none => rfl

/-- Among names in small letters, the one that a name is up to its case is the name in small letters. -/
theorem exists_sameButCase_iff {names : List String} {name : String}
    (hsmall : ∀ other ∈ names, small other = other) :
    (∃ other ∈ names, SameButCase other name) ↔ small name ∈ names := by
  constructor
  · rintro ⟨other, hmem, hsame⟩
    have heq : other = small name := (hsmall other hmem).symm.trans hsame
    exact heq ▸ hmem
  · exact fun hmem => ⟨small name, hmem, hsmall _ hmem⟩

/-- **Which solver a name stands for.** It is the one registered last under the name as it is; without
one, the one registered last under the name in small letters; and without that there is none. A name is
contained only if it was registered as it is. So the case of a name does not matter if all names were
registered in small letters. -/
theorem create_ofCalls (calls : List (String × Factory)) {name : String}
    (hascii : ∀ c ∈ name.toList, c.toNat < 128) :
    (∀ f, last? calls name = some f → (ofCalls calls).create name = f) ∧
    (name ∉ calls.map Prod.fst → ∀ f, last? calls (small name) = some f →
      (ofCalls calls).create name = f) ∧
    (name ∉ calls.map Prod.fst → small name ∉ calls.map Prod.fst →
      (ofCalls calls).create name = .error (.unknownSolver name)) ∧
    ((ofCalls calls).contains name = true ↔ name ∈ calls.map Prod.fst) ∧
    ((∀ other ∈ calls.map Prod.fst, small other = other) →
      (name ∈ calls.map Prod.fst ∨ small name ∈ calls.map Prod.fst ↔
        ∃ other ∈ calls.map Prod.fst, SameButCase other name)) := by
  have hcreate := create_eq calls hascii
  have hnone {key : String} : last? calls key = none ↔ key ∉ calls.map Prod.fst := by
    rw [← last?_isSome_iff, Option.not_isSome_iff_eq_none]
  refine ⟨fun f hf => ?_, fun hname f hf => ?_, fun hname hsmall => ?_, ?_, fun hall => ?_⟩
  · rw [hcreate, hf]
    rfl
  · rw [hcreate, hnone.mpr hname, hf]
    rfl
  · rw [hcreate, hnone.mpr hname, hnone.mpr hsmall]
    rfl
  · rw [contains, find?_ofCalls, last?_isSome_iff]
  · rw [exists_sameButCase_iff hall]
    refine or_iff_right_of_imp fun hmem => ?_
    rw [hall name hmem]
    exact hmem

/-- What makes a solver that is not there. -/
def absent (name : String) : Factory := .error (.notInstalled name)

theorem create_ofCalls_loud :
    (ofCalls [("echo", absent "first"), ("echo", absent "last")]).create "ECHO" = absent "last" := by
  have hascii : ∀ c ∈ "ECHO".toList, c.toNat < 128 := by simp
  obtain ⟨-, hsmall, -⟩ := create_ofCalls [("echo", absent "first"), ("echo", absent "last")] hascii
  exact hsmall (by decide) _ rfl

/-- A solver that was registered under a name with a capital is not found under the same name in small
letters. One that was registered in small letters is found, but not contained, under a name with
capitals. -/
theorem capital_unknown :
    SameButCase "Echo" "echo" ∧
    (ofCalls [("Echo", absent "solver")]).create "echo" = .error (.unknownSolver "echo") ∧
    (ofCalls [("echo", absent "solver")]).create "ECHO" = absent "solver" ∧
    (ofCalls [("echo", absent "solver")]).contains "ECHO" = false :=
  ⟨by decide, rfl, rfl, rfl⟩

end Registry

end IsolatedSolving
