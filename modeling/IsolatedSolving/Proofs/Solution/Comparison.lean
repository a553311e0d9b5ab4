import IsolatedSolving.Proofs.Number.Comparison
import IsolatedSolving.Solution.Basic

/-! Which results are better than others.

`isBetter` is a strict order, whatever the objectives are: a NaN is not comparable with anything. Only
without NaN two results are comparable as soon as a third one lies between them
(`isBetter_of_not`), so only then the first of the best results is well defined. Results that
agree up to the resources they took are equally good. -/
namespace IsolatedSolving.Solution

open Binary64 (lt_iff)

/-! ### Objectives -/

section Objectives
variable {sense : Sense} {a b c : Binary64}

theorem improves_irrefl : improves sense a a = false := by
  cases sense <;> simp [improves, Binary64.lt]

theorem improves_trans (h : improves sense a b = true) (h' : improves sense b c = true) :
    improves sense a c = true := by
  cases sense with
  | minimize =>
    obtain ⟨ha, -, hab⟩ := lt_iff.mp h
    obtain ⟨-, hc, hbc⟩ := lt_iff.mp h'
    exact lt_iff.mpr ⟨ha, hc, Int.lt_trans hab hbc⟩
  | maximize =>
    obtain ⟨-, ha, hba⟩ := lt_iff.mp h
    obtain ⟨hc, -, hcb⟩ := lt_iff.mp h'
    exact lt_iff.mpr ⟨hc, ha, Int.lt_trans hcb hba⟩

/-- What improves on an objective improves on each number that does not. -/
theorem improves_of_not (hb : b.isNaN = false) (h : improves sense a c = true)
    (hn : improves sense b c = false) : improves sense a b = true := by
  rw [← Bool.not_eq_true] at hn
  cases sense with
  | minimize =>
    obtain ⟨ha, hc, hac⟩ := lt_iff.mp h
    have hle : ¬b.rank < c.rank := fun hlt => hn (lt_iff.mpr ⟨hb, hc, hlt⟩)
    exact lt_iff.mpr ⟨ha, hb, by omega⟩
  | maximize =>
    obtain ⟨hc, ha, hca⟩ := lt_iff.mp h
    have hle : ¬c.rank < b.rank := fun hlt => hn (lt_iff.mpr ⟨hc, hb, hlt⟩)
    exact lt_iff.mpr ⟨hb, ha, by omega⟩

end Objectives

/-! ### Results that agree -/

/-- The results are the same up to the resources they took. -/
structure Agrees (s t : Solution) : Prop where
  status : s.status = t.status
  objective : s.objective = t.objective
  values : s.values = t.values
  duals : s.duals = t.duals

namespace Agrees
variable {s t : Solution}

theorem trans {u : Solution} (h : s.Agrees t) (h' : t.Agrees u) : s.Agrees u :=
  ⟨h.status.trans h'.status, h.objective.trans h'.objective, h.values.trans h'.values,
    h.duals.trans h'.duals⟩

theorem bearsSolution (h : s.Agrees t) : s.bearsSolution = t.bearsSolution := by
  rw [Solution.bearsSolution, Solution.bearsSolution, h.status, h.values]

theorem isBetter (h : s.Agrees t) (u : Solution) (sense : Sense) :
    u.isBetter s sense = u.isBetter t sense := by
  rw [Solution.isBetter, Solution.isBetter, h.bearsSolution, h.objective]

end Agrees

/-! ### Better results -/

section Better
variable {sense : Sense} {s t u : Solution}

theorem isBetter_iff : s.isBetter t sense = true ↔
    s.bearsSolution = true ∧
      (t.bearsSolution = true → improves sense s.objective t.objective = true) := by
  simp only [isBetter, Bool.and_eq_true, Bool.or_eq_true, Bool.not_eq_true']
  cases t.bearsSolution <;> simp

theorem isBetter_irrefl : s.isBetter s sense = false := by
  rw [← Bool.not_eq_true, isBetter_iff]
  rintro ⟨hs, h⟩
  exact absurd (h hs) (by simp [improves_irrefl])

theorem isBetter_trans (h : s.isBetter t sense = true) (h' : t.isBetter u sense = true) :
    s.isBetter u sense = true := by
  rw [isBetter_iff] at h h' ⊢
  exact ⟨h.1, fun hu => improves_trans (h.2 h'.1) (h'.2 hu)⟩

/-- A result that is better than another one is better than each comparable one that is not. -/
theorem isBetter_of_not (ht : t.objective.isNaN = false) (h : s.isBetter u sense = true)
    (hn : t.isBetter u sense = false) : s.isBetter t sense = true := by
  rw [← Bool.not_eq_true, isBetter_iff] at hn
  rw [isBetter_iff] at h ⊢
  refine ⟨h.1, fun hbears => ?_⟩
  have hu : u.bearsSolution = true :=
    Decidable.byContradiction fun hnone => hn ⟨hbears, fun hu => absurd hu hnone⟩
  refine improves_of_not ht (h.2 hu) ?_
  rw [← Bool.not_eq_true]
  exact fun himproves => hn ⟨hbears, fun _ => himproves⟩

theorem bearsSolution_empty : (empty sense).bearsSolution = false := rfl

/-- Whatever bears a solution is better than the empty result. -/
theorem isBetter_empty (s : Solution) (sense : Sense) :
    s.isBetter (empty sense) sense = s.bearsSolution := by
  simp only [isBetter, bearsSolution_empty, Bool.not_false, Bool.true_or, Bool.and_true]

end Better

end IsolatedSolving.Solution
