import IsolatedSolving.Linear.Relaxation
import IsolatedSolving.Proofs.Linear.Modelling
import IsolatedSolving.Proofs.Number.Comparison
import Mathlib.Algebra.BigOperators.Intervals
import Mathlib.Data.EReal.Basic

/-! What a model means.

Points have a real number for each column. A point is admitted by a problem if columns and activities
keep their bounds, of which those that restrict nothing are left out, and if columns that have to be
whole are so. It is admitted by a model if columns and rows are in their ranges, which are what the
relaxation of the model is about. The model of a well-posed problem admits the same points, with the same
value of the objective (`ofProblem_admits`). Coefficients of a column that a row names twice add up on
the way (`weigh_coefficients`), and a row of the problem becomes as many rows as it has bounds that
restrict something, or just one equation (`contains_between`). -/
namespace IsolatedSolving

open Binary64

/-- The number on the real line with its two ends. A NaN is on neither side of anything, so its place
does not matter. -/
noncomputable def Binary64.extended (b : Binary64) : EReal :=
  if b.isFinite then ((b.toRat : ℝ) : EReal) else if b.isNegative then ⊥ else ⊤

theorem Binary64.extended_of_isFinite {b : Binary64} (h : b.isFinite = true) :
    b.extended = ((b.toRat : ℝ) : EReal) := if_pos h

/-- The value keeps the bounds, as far as they restrict something. -/
structure Within (lower upper : Binary64) (v : ℝ) : Prop where
  lower : lower.le infiniteLower = true ∨ lower.extended ≤ v
  upper : infiniteUpper.le upper = true ∨ v ≤ upper.extended

/-! ### Points of a problem -/

namespace Problem

/-- The sum of the coefficients of a row times values. -/
noncomputable def activityAt (p : Problem) (x : ℕ → ℝ) (row : ℕ) : ℝ :=
  ((p.matrix.entries row).map fun (c, v) => (v.toRat : ℝ) * x c.toInt.toNat).sum

/-- The sum of the coefficients of the objective times values. -/
noncomputable def objectiveAt (p : Problem) (x : ℕ → ℝ) : ℝ :=
  ∑ j ∈ Finset.range p.columnCount, ((p.objective.getD j .zero).toRat : ℝ) * x j

/-- The point keeps all bounds that restrict something, and is whole where it has to be. -/
structure Admits (p : Problem) (x : ℕ → ℝ) : Prop where
  columns : ∀ (column : ℕ) (lower upper : Binary64), p.columnLower[column]? = some lower →
    p.columnUpper[column]? = some upper → Within lower upper (x column)
  whole : ∀ (column : ℕ) (kind : VariableKind), p.kinds[column]? = some kind →
    kind.isIntegral = true → ∃ n : ℤ, x column = n
  rows : ∀ (row : ℕ) (lower upper : Binary64), p.rowLower[row]? = some lower →
    p.rowUpper[row]? = some upper → Within lower upper (p.activityAt x row)

/-- All coefficients are finite, no bound is a NaN, and no row asks for equality with a bound that
restricts nothing. -/
structure WellPosed (p : Problem) : Prop where
  objective : ∀ c ∈ p.objective, c.isFinite = true
  coefficients : ∀ row ∈ p.matrix.values, ∀ c ∈ row, c.isFinite = true
  columnLower : ∀ b ∈ p.columnLower, b.isNaN = false
  columnUpper : ∀ b ∈ p.columnUpper, b.isNaN = false
  rowLower : ∀ b ∈ p.rowLower, b.isNaN = false
  rowUpper : ∀ b ∈ p.rowUpper, b.isNaN = false
  equations : ∀ (row : ℕ) (lower upper : Binary64), p.rowLower[row]? = some lower →
    p.rowUpper[row]? = some upper → lower.equals upper = true →
    lower.le infiniteLower = false ∧ infiniteUpper.le upper = false

end Problem

namespace Linear

/-! ### Points of a model -/

/-- The value is between the bounds of the range. -/
structure Range.Contains (r : Range) (v : ℝ) : Prop where
  lower : ∀ q, r.lower = some q → (q : ℝ) ≤ v
  upper : ∀ q, r.upper = some q → v ≤ (q : ℝ)

/-- The sum of coefficients times values. -/
noncomputable def weigh (cs : Array ℚ) (x : ℕ → ℝ) : ℝ :=
  ∑ j ∈ Finset.range cs.size, ((cs.getD j 0 : ℚ) : ℝ) * x j

/-- The value of the objective. -/
noncomputable def Model.objectiveAt (m : Model) (x : ℕ → ℝ) : ℝ :=
  weigh (coefficients m.columns.length m.objectiveTerms) x

/-- The point is in the ranges of all columns and rows, and is whole where it has to be. -/
structure Model.Admits (m : Model) (x : ℕ → ℝ) : Prop where
  columns : ∀ (column : ℕ) (c : Column), m.columns[column]? = some c → c.range.Contains (x column)
  whole : ∀ (column : ℕ) (c : Column), m.columns[column]? = some c → c.integral = true →
    ∃ n : ℤ, x column = n
  rows : ∀ r ∈ m.rows,
    (r.relation.range r.bound).Contains (weigh (coefficients m.columns.length r.terms) x)

/-! ### Sums of terms -/

theorem weigh_zeros (size : ℕ) (x : ℕ → ℝ) : weigh (Array.replicate size 0) x = 0 := by
  refine Finset.sum_eq_zero fun j hj => ?_
  rw [Array.size_replicate, Finset.mem_range] at hj
  simp [hj]

/-- Changing one coefficient changes the sum by that much of one value. -/
theorem weigh_modify {cs : Array ℚ} {j : ℕ} (hj : j < cs.size) (c : ℚ) (x : ℕ → ℝ) :
    weigh (cs.modify j (· + c)) x = weigh cs x + c * x j := by
  have hentry (i : ℕ) (hi : i ∈ Finset.range cs.size) :
      (((cs.modify j (· + c)).getD i 0 : ℚ) : ℝ) * x i =
        ((cs.getD i 0 : ℚ) : ℝ) * x i + if i = j then c * x j else 0 := by
    have hi := Finset.mem_range.mp hi
    by_cases hij : i = j
    · subst hij
      simp [Array.getElem_modify, hi, add_mul]
    · simp [Array.getElem_modify, hi, hij, Ne.symm hij]
  rw [weigh, weigh, Array.size_modify, Finset.sum_congr rfl hentry, Finset.sum_add_distrib,
    Finset.sum_ite_eq', if_pos (Finset.mem_range.mpr hj)]

/-- The coefficients of a sum of terms give its value, also where a variable has several terms. -/
theorem weigh_coefficients {size : ℕ} {terms : List (ℕ × Binary64)}
    (h : ∀ term ∈ terms, term.1 < size) (x : ℕ → ℝ) :
    weigh (coefficients size terms) x = (terms.map fun (j, c) => (c.toRat : ℝ) * x j).sum := by
  have hfold (cs : Array ℚ) (hsize : cs.size = size) :
      weigh (terms.foldl (fun cs (j, c) => cs.modify j (· + c.toRat)) cs) x =
        weigh cs x + (terms.map fun (j, c) => (c.toRat : ℝ) * x j).sum := by
    induction terms generalizing cs with
    | nil => rw [List.foldl_nil, List.map_nil, List.sum_nil, add_zero]
    | cons term rest ih =>
      obtain ⟨hterm, hrest⟩ := List.forall_mem_cons.mp h
      rw [List.foldl_cons, ih hrest _ (Array.size_modify.trans hsize),
        weigh_modify (hsize.symm ▸ hterm), List.map_cons, List.sum_cons, add_assoc]
  rw [coefficients, hfold _ Array.size_replicate, weigh_zeros, zero_add]

/-- A sum over a list and the positions in it. -/
theorem sum_zipIdx (cs : List Binary64) (x : ℕ → ℝ) :
    (cs.zipIdx.map fun (c, j) => (c.toRat : ℝ) * x j).sum =
      ∑ j ∈ Finset.range cs.length, ((cs.getD j .zero).toRat : ℝ) * x j := by
  induction cs using List.reverseRecOn with
  | nil => rfl
  | append_singleton cs c ih =>
    rw [List.zipIdx_append, List.map_append, List.sum_append, ih, List.length_append,
      List.length_singleton, Finset.sum_range_succ]
    congr 1
    · refine Finset.sum_congr rfl fun j hj => ?_
      rw [List.getD_eq_getElem?_getD, List.getD_eq_getElem?_getD,
        List.getElem?_append_left (Finset.mem_range.mp hj)]
    · simp

/-! ### Ranges -/

section Ranges
variable {b lower upper : Binary64} {v : ℝ}

theorem Range.contains_unbounded (v : ℝ) : Range.unbounded.Contains v := ⟨nofun, nofun⟩

theorem Range.not_contains_nothing (v : ℝ) : ¬Range.nothing.Contains v := by
  rintro ⟨hlower, hupper⟩
  have h := (hlower 1 rfl).trans (hupper 0 rfl)
  norm_num at h

theorem contains_atLeast (h : b.isNaN = false) :
    (Relation.range .atLeast b).Contains v ↔ b.extended ≤ v := by
  rcases finite_or_infinite h with hfinite | rfl | rfl
  · rw [extended_of_isFinite hfinite, EReal.coe_le_coe_iff, Relation.range]
    simp only [hfinite, if_true]
    refine ⟨fun h => h.lower _ rfl, fun h => ⟨fun q hq => ?_, nofun⟩⟩
    rw [← Option.some.inj hq]
    exact h
  · exact iff_of_false (Range.not_contains_nothing v) (EReal.coe_lt_top v).not_ge
  · exact iff_of_true (Range.contains_unbounded v) bot_le

theorem contains_atMost (h : b.isNaN = false) :
    (Relation.range .atMost b).Contains v ↔ v ≤ b.extended := by
  rcases finite_or_infinite h with hfinite | rfl | rfl
  · rw [extended_of_isFinite hfinite, EReal.coe_le_coe_iff, Relation.range]
    simp only [hfinite, if_true]
    refine ⟨fun h => h.upper _ rfl, fun h => ⟨nofun, fun q hq => ?_⟩⟩
    rw [← Option.some.inj hq]
    exact h
  · exact iff_of_true (Range.contains_unbounded v) le_top
  · exact iff_of_false (Range.not_contains_nothing v) (EReal.bot_lt_coe v).not_ge

theorem contains_equal (h : b.isFinite = true) :
    (Relation.range .equal b).Contains v ↔ b.extended = v := by
  rw [extended_of_isFinite h, EReal.coe_eq_coe_iff, Relation.range]
  simp only [h, if_true]
  constructor
  · rintro ⟨hlower, hupper⟩
    exact le_antisymm (hlower _ rfl) (hupper _ rfl)
  · intro heq
    refine ⟨fun q hq => ?_, fun q hq => ?_⟩
    · rw [← Option.some.inj hq, heq]
    · rw [← Option.some.inj hq, heq]

/-- A bound from below leaves no value, or it bounds nothing from above. -/
theorem atLeast_cases (b : Binary64) :
    Relation.range .atLeast b = .nothing ∨ (Relation.range .atLeast b).upper = none := by
  rw [Relation.range]
  split
  · exact .inr rfl
  · split
    · exact .inr rfl
    · exact .inl rfl

theorem atMost_cases (b : Binary64) :
    Relation.range .atMost b = .nothing ∨ (Relation.range .atMost b).lower = none := by
  rw [Relation.range]
  split
  · exact .inr rfl
  · split
    · exact .inl rfl
    · exact .inr rfl

/-- What two such ranges leave together is nothing, or the bound of each. -/
theorem Range.contains_inter {r s : Range} (hr : r = .nothing ∨ r.upper = none)
    (hs : s = .nothing ∨ s.lower = none) :
    (if r.isEmpty || s.isEmpty then .nothing else r.inter s : Range).Contains v ↔
      r.Contains v ∧ s.Contains v := by
  obtain ⟨rl, ru⟩ := r
  obtain ⟨sl, su⟩ := s
  rcases hr with hr | rfl
  · rw [hr]
    exact iff_of_false (not_contains_nothing v) fun h => not_contains_nothing v h.1
  rcases hs with hs | rfl
  · have hempty : ((⟨rl, none⟩ : Range).isEmpty || Range.nothing.isEmpty) = true := Bool.or_true _
    rw [hs, if_pos hempty]
    exact iff_of_false (not_contains_nothing v) fun h => not_contains_nothing v h.2
  have hinter : (if (⟨rl, none⟩ : Range).isEmpty || (⟨none, su⟩ : Range).isEmpty then .nothing
      else (⟨rl, none⟩ : Range).inter ⟨none, su⟩ : Range) = ⟨rl, su⟩ := by
    cases rl <;> rfl
  rw [hinter]
  exact ⟨fun h => ⟨⟨h.lower, nofun⟩, ⟨nofun, h.upper⟩⟩, fun h => ⟨h.1.lower, h.2.upper⟩⟩

/-- The range of a column is what both of its bounds leave. -/
theorem Column.contains_range {c : Column} :
    c.range.Contains v ↔
      (∀ b, c.lower = some b → (Relation.range .atLeast b).Contains v) ∧
        ∀ b, c.upper = some b → (Relation.range .atMost b).Contains v := by
  obtain ⟨lower, upper, integral⟩ := c
  cases lower with
  | none =>
    cases upper with
    | none => exact iff_of_true (Range.contains_unbounded v) ⟨nofun, nofun⟩
    | some u =>
      simp only [Option.some.injEq, forall_eq', reduceCtorEq, false_implies, implies_true, true_and]
      rfl
  | some l =>
    cases upper with
    | none =>
      simp only [Option.some.injEq, forall_eq', reduceCtorEq, false_implies, implies_true, and_true]
      rfl
    | some u =>
      simp only [Option.some.injEq, forall_eq']
      exact Range.contains_inter (atLeast_cases l) (atMost_cases u)

/-! ### Bounds of a problem -/

theorem forall_mem_ite {α : Type} {c : Bool} {a : α} {P : α → Prop} :
    (∀ b ∈ if c then [a] else [], P b) ↔ (c = true → P a) := by
  cases c <;> simp

/-- To keep the bounds is to be in the ranges of those that restrict something. -/
theorem within_iff (hlower : lower.isNaN = false) (hupper : upper.isNaN = false) :
    Within lower upper v ↔
      (infiniteLower.lt lower = true → (Relation.range .atLeast lower).Contains v) ∧
        (upper.lt infiniteUpper = true → (Relation.range .atMost upper).Contains v) := by
  have hl : lower.le infiniteLower = !infiniteLower.lt lower := le_eq_not_lt hlower rfl
  have hu : infiniteUpper.le upper = !upper.lt infiniteUpper := le_eq_not_lt rfl hupper
  rw [contains_atLeast hlower, contains_atMost hupper]
  constructor
  · rintro ⟨h₁, h₂⟩
    rw [hl] at h₁
    rw [hu] at h₂
    exact ⟨fun h => h₁.resolve_left (by rw [h]; exact Bool.false_ne_true),
      fun h => h₂.resolve_left (by rw [h]; exact Bool.false_ne_true)⟩
  · rintro ⟨h₁, h₂⟩
    refine ⟨?_, ?_⟩
    · rw [hl]
      cases hlt : infiniteLower.lt lower with
      | true => exact .inr (h₁ hlt)
      | false => exact .inl rfl
    · rw [hu]
      cases hlt : upper.lt infiniteUpper with
      | true => exact .inr (h₂ hlt)
      | false => exact .inl rfl

/-- The range of a column between two bounds. -/
theorem Column.contains_between {kind : VariableKind} (hlower : lower.isNaN = false)
    (hupper : upper.isNaN = false) :
    (Column.between lower upper kind).range.Contains v ↔ Within lower upper v := by
  have hbound (c : Bool) (b : Binary64) (P : Binary64 → Prop) :
      (∀ a, (if c then some b else none) = some a → P a) ↔ (c = true → P b) := by
    cases c <;> simp
  rw [within_iff hlower hupper, Column.contains_range, Column.between, hbound, hbound]

/-- Equal bounds of which none is at or beyond what restricts nothing are finite. -/
theorem isFinite_of_equals (h : lower.equals upper = true) (hlower : lower.le infiniteLower = false)
    (hupper : infiniteUpper.le upper = false) : lower.isFinite = true ∧ upper.isFinite = true := by
  obtain ⟨hl, hu, hrank⟩ := equals_iff.mp h
  have hmagnitude : lower.magnitude = upper.magnitude := by
    rw [← natAbs_rank, ← natAbs_rank, hrank]
  have hfinite : upper.isFinite = true := by
    rcases finite_or_infinite hu with hfinite | rfl | rfl
    · exact hfinite
    · exact absurd hupper (by decide)
    · have hle : lower.le infiniteLower = true := le_iff.mpr ⟨hl, rfl, hrank ▸ by decide⟩
      rw [hle] at hlower
      cases hlower
  exact ⟨isFinite_iff.mpr (hmagnitude ▸ isFinite_iff.mp hfinite), hfinite⟩

/-- The rows between two bounds hold for a sum exactly if it keeps them. -/
theorem Row.contains_between {terms : List (ℕ × Binary64)} (hlower : lower.isNaN = false)
    (hupper : upper.isNaN = false)
    (hequation : lower.equals upper = true →
      lower.le infiniteLower = false ∧ infiniteUpper.le upper = false) :
    (∀ r ∈ Row.between terms lower upper, (r.relation.range r.bound).Contains v) ↔
      Within lower upper v := by
  cases hequal : lower.equals upper with
  | true =>
    obtain ⟨hl, hu⟩ := hequation hequal
    obtain ⟨hlowerFinite, hupperFinite⟩ := isFinite_of_equals hequal hl hu
    have hsame : lower.extended = upper.extended := by
      rw [extended_of_isFinite hlowerFinite, extended_of_isFinite hupperFinite,
        (equals_iff_toRat hlowerFinite hupperFinite).mp hequal]
    rw [Row.between, if_pos hequal, List.forall_mem_singleton, contains_equal hupperFinite]
    constructor
    · intro heq
      exact ⟨.inr (hsame.trans heq).le, .inr heq.ge⟩
    · rintro ⟨hge, hle⟩
      refine le_antisymm ?_ (hle.resolve_left (by rw [hu]; exact Bool.false_ne_true))
      exact hsame ▸ hge.resolve_left (by rw [hl]; exact Bool.false_ne_true)
  | false =>
    rw [Row.between, if_neg (by rw [hequal]; exact Bool.false_ne_true), List.forall_mem_append,
      forall_mem_ite, forall_mem_ite, within_iff hlower hupper]

end Ranges

/-! ### The model of a problem -/

section Models
variable {p : Problem} {x : ℕ → ℝ}

theorem getElem?_columnsIn {column : ℕ} {c : Column} :
    (columnsIn p)[column]? = some c ↔ ∃ lower upper kind, p.columnLower[column]? = some lower ∧
      p.columnUpper[column]? = some upper ∧ p.kinds[column]? = some kind ∧
      Column.between lower upper kind = c := by
  rw [columnsIn, List.getElem?_map, Option.map_eq_some_iff]
  constructor
  · rintro ⟨⟨lower, upper, kind⟩, hzip, hc⟩
    obtain ⟨hl, hrest⟩ := List.getElem?_zip_eq_some.mp hzip
    obtain ⟨hu, hk⟩ := List.getElem?_zip_eq_some.mp hrest
    exact ⟨lower, upper, kind, hl, hu, hk, hc⟩
  · rintro ⟨lower, upper, kind, hl, hu, hk, hc⟩
    exact ⟨(lower, upper, kind), List.getElem?_zip_eq_some.mpr
      ⟨hl, List.getElem?_zip_eq_some.mpr ⟨hu, hk⟩⟩, hc⟩

/-- The columns of the model are in their ranges exactly if those of the problem keep their bounds. -/
theorem contains_columnsIn (h : p.Consistent) (hp : p.WellPosed) :
    (∀ (column : ℕ) (c : Column), (columnsIn p)[column]? = some c → c.range.Contains (x column)) ↔
      ∀ (column : ℕ) (lower upper : Binary64), p.columnLower[column]? = some lower →
        p.columnUpper[column]? = some upper → Within lower upper (x column) := by
  constructor
  · intro hall column lower upper hl hu
    obtain ⟨hcolumn, -⟩ := List.getElem?_eq_some_iff.mp hl
    have hk := List.getElem?_eq_getElem (h.kinds ▸ h.columnLower ▸ hcolumn)
    have hc := hall column _ (getElem?_columnsIn.mpr ⟨lower, upper, _, hl, hu, hk, rfl⟩)
    exact (Column.contains_between (hp.columnLower lower (List.mem_of_getElem? hl))
      (hp.columnUpper upper (List.mem_of_getElem? hu))).mp hc
  · intro hall column c hc
    obtain ⟨lower, upper, kind, hl, hu, -, rfl⟩ := getElem?_columnsIn.mp hc
    exact (Column.contains_between (hp.columnLower lower (List.mem_of_getElem? hl))
      (hp.columnUpper upper (List.mem_of_getElem? hu))).mpr (hall column lower upper hl hu)

theorem whole_columnsIn (h : p.Consistent) :
    (∀ (column : ℕ) (c : Column), (columnsIn p)[column]? = some c → c.integral = true →
        ∃ n : ℤ, x column = n) ↔
      ∀ (column : ℕ) (kind : VariableKind), p.kinds[column]? = some kind →
        kind.isIntegral = true → ∃ n : ℤ, x column = n := by
  constructor
  · intro hall column kind hk
    obtain ⟨hcolumn, -⟩ := List.getElem?_eq_some_iff.mp hk
    have hl := List.getElem?_eq_getElem (h.columnLower ▸ h.kinds ▸ hcolumn)
    have hu := List.getElem?_eq_getElem (h.columnUpper ▸ h.kinds ▸ hcolumn)
    exact hall column _ (getElem?_columnsIn.mpr ⟨_, _, kind, hl, hu, hk, rfl⟩)
  · intro hall column c hc
    obtain ⟨lower, upper, kind, -, -, hk, rfl⟩ := getElem?_columnsIn.mp hc
    exact hall column kind hk

/-- A row of the model weighs the terms of its row of the problem. -/
theorem weigh_terms (h : p.Consistent) {row : ℕ} (hrow : row < p.rowCount) :
    weigh (coefficients (columnsIn p).length (p.matrix.terms row)) x = p.activityAt x row := by
  rw [weigh_coefficients fun term hterm => ?_, SparseMatrix.terms, List.map_map, Problem.activityAt]
  · rfl
  · rw [length_columnsIn h]
    exact lt_of_mem_terms h hrow hterm

theorem contains_rowsAt (h : p.Consistent) (hp : p.WellPosed) {row : ℕ} {lower upper : Binary64}
    (hl : p.rowLower[row]? = some lower) (hu : p.rowUpper[row]? = some upper) :
    (∀ r ∈ rowsAt p row,
        (r.relation.range r.bound).Contains (weigh (coefficients (columnsIn p).length r.terms) x)) ↔
      Within lower upper (p.activityAt x row) := by
  have hrow : row < p.rowCount := h.rowLower ▸ (List.getElem?_eq_some_iff.mp hl).1
  have hrows : rowsAt p row = Row.between (p.matrix.terms row) lower upper := by
    rw [rowsAt, List.getD_eq_getElem?_getD, List.getD_eq_getElem?_getD, hl, hu]
    rfl
  rw [hrows, ← weigh_terms h hrow, ← Row.contains_between
    (hp.rowLower lower (List.mem_of_getElem? hl)) (hp.rowUpper upper (List.mem_of_getElem? hu))
    (hp.equations row lower upper hl hu)]
  exact forall₂_congr fun r hr => by rw [Row.terms_between hr]

/-- The rows of the model hold exactly if the activities of the problem keep their bounds. -/
theorem contains_rows (h : p.Consistent) (hp : p.WellPosed) :
    (∀ r ∈ (List.range p.rowCount).flatMap (rowsAt p),
        (r.relation.range r.bound).Contains (weigh (coefficients (columnsIn p).length r.terms) x)) ↔
      ∀ (row : ℕ) (lower upper : Binary64), p.rowLower[row]? = some lower →
        p.rowUpper[row]? = some upper → Within lower upper (p.activityAt x row) := by
  simp only [List.mem_flatMap, List.mem_range, forall_exists_index, and_imp]
  constructor
  · intro hall row lower upper hl hu
    have hrow : row < p.rowCount := h.rowLower ▸ (List.getElem?_eq_some_iff.mp hl).1
    exact (contains_rowsAt h hp hl hu).mp fun r hr => hall r row hrow hr
  · intro hall r row hrow hr
    have hl := List.getElem?_eq_getElem (h.rowLower.symm ▸ hrow)
    have hu := List.getElem?_eq_getElem (h.rowUpper.symm ▸ hrow)
    exact (contains_rowsAt h hp hl hu).mpr (hall row _ _ hl hu) r hr

/-- The terms of the objective, of which there is one for each column. -/
theorem objectiveTerms_eq (h : p.Consistent) {m : Model} (hcolumns : m.columns = columnsIn p)
    (hobjective : m.objective = p.objective) :
    m.objectiveTerms = p.objective.zipIdx.map fun (c, j) => (j, c) := by
  have hlength : p.objective.length ≤ (columnsIn p).length :=
    (h.objective.trans (length_columnsIn h).symm).le
  rw [Model.objectiveTerms, hcolumns, hobjective, List.take_of_length_le hlength]

theorem objectiveAt_eq (h : p.Consistent) {m : Model} (hcolumns : m.columns = columnsIn p)
    (hobjective : m.objective = p.objective) : m.objectiveAt x = p.objectiveAt x := by
  have hterms := objectiveTerms_eq h hcolumns hobjective
  rw [Model.objectiveAt, Problem.objectiveAt, hcolumns, hterms, weigh_coefficients fun term hterm => ?_,
    List.map_map, ← h.objective, ← sum_zipIdx]
  · rfl
  · obtain ⟨⟨c, j⟩, hmem, rfl⟩ := List.mem_map.mp hterm
    rw [length_columnsIn h, ← h.objective]
    exact (List.getElem?_eq_some_iff.mp (List.mk_mem_zipIdx_iff_getElem?.mp hmem)).1

theorem isFinite_of_mem_terms (h : p.Consistent) (hp : p.WellPosed) {row : ℕ} (hrow : row < p.rowCount)
    {term : ℕ × Binary64} (hterm : term ∈ p.matrix.terms row) : term.2.isFinite = true := by
  obtain ⟨indices, values, hindices, hvalues, -, -⟩ := h.exists_row hrow
  obtain ⟨⟨c, v⟩, hmem, rfl⟩ := List.mem_map.mp hterm
  rw [entries_eq hindices hvalues] at hmem
  exact hp.coefficients values (List.mem_of_getElem? hvalues) v (List.of_mem_zip hmem).2

theorem isFinite_model (h : p.Consistent) (hp : p.WellPosed) {m : Model}
    (hcolumns : m.columns = columnsIn p) (hobjective : m.objective = p.objective)
    (hrows : m.rows = (List.range p.rowCount).flatMap (rowsAt p)) : m.isFinite = true := by
  rw [Model.isFinite, Bool.and_eq_true, List.all_eq_true, List.all_eq_true, hrows,
    objectiveTerms_eq h hcolumns hobjective]
  refine ⟨fun term hterm => ?_, fun r hr => List.all_eq_true.mpr fun term hterm => ?_⟩
  · obtain ⟨⟨c, j⟩, hmem, rfl⟩ := List.mem_map.mp hterm
    exact hp.objective c (List.mem_of_getElem? (List.mk_mem_zipIdx_iff_getElem?.mp hmem))
  · obtain ⟨row, hrow, hbetween⟩ := List.mem_flatMap.mp hr
    rw [Row.terms_between hbetween] at hterm
    exact isFinite_of_mem_terms h hp (List.mem_range.mp hrow) hterm

end Models

/-- **The model means the problem.** A well-posed problem that is accepted has a model with finite
coefficients and the same sense. The model admits the same points as the problem, and its objective has
the same value at every point. -/
theorem Model.ofProblem_admits {p : Problem} (hvalid : p.validate = .ok ()) (hp : p.WellPosed) :
    ∃ m, Model.ofProblem p = .ok m ∧ m.isFinite = true ∧ m.sense = p.sense ∧
      (∀ x : ℕ → ℝ, m.Admits x ↔ p.Admits x) ∧
      ∀ x : ℕ → ℝ, m.objectiveAt x = p.objectiveAt x := by
  have h : p.Consistent := Problem.validate_eq_ok_iff.mp hvalid
  refine ⟨_, Model.ofProblem_eq h, isFinite_model h hp rfl rfl rfl, rfl, fun x => ⟨?_, ?_⟩,
    fun x => objectiveAt_eq h rfl rfl⟩
  · rintro ⟨hcolumns, hwhole, hrows⟩
    exact ⟨(contains_columnsIn h hp).mp hcolumns, (whole_columnsIn h).mp hwhole,
      (contains_rows h hp).mp hrows⟩
  · rintro ⟨hcolumns, hwhole, hrows⟩
    exact ⟨(contains_columnsIn h hp).mpr hcolumns, (whole_columnsIn h).mpr hwhole,
      (contains_rows h hp).mpr hrows⟩

/-- Two columns, the first of them whole; a row that names the first column twice and is an equation,
one without entries, one bounded from both sides, and one from above only. -/
def doubled : Problem :=
  { Problem.empty with
    matrix := ⟨[[.one, .one], [], [.one, .one], [.one]], [[0, 0], [], [0, 1], [1]], 2⟩
    objective := [.one, .one]
    columnLower := [.zero, .negInfinity]
    columnUpper := [.infinity, .one]
    rowLower := [.zero, .zero, .zero, .negLargest]
    rowUpper := [.zero, .largest, .one, .one]
    kinds := [.integer, .continuous]
    sense := .maximize }

theorem wellPosed_doubled : doubled.WellPosed where
  objective := by decide
  coefficients := by decide
  columnLower := by decide
  columnUpper := by decide
  rowLower := by decide
  rowUpper := by decide
  equations
    | 0, _, _, rfl, rfl, _ => by decide
    | 1, _, _, rfl, rfl, h => absurd h (by decide)
    | 2, _, _, rfl, rfl, h => absurd h (by decide)
    | 3, _, _, rfl, rfl, h => absurd h (by decide)

theorem extended_zero : Binary64.zero.extended = 0 := by
  have hvalue : Binary64.zero.toRat = 0 := by decide +kernel
  rw [extended_of_isFinite rfl, hvalue, Rat.cast_zero, EReal.coe_zero]

theorem extended_one : Binary64.one.extended = 1 := by
  have hvalue : Binary64.one.toRat = 1 := by decide +kernel
  rw [extended_of_isFinite rfl, hvalue, Rat.cast_one, EReal.coe_one]

/-- The point of zeros is admitted. -/
theorem admits_doubled : doubled.Admits fun _ => 0 := by
  have hactivity (row : ℕ) : doubled.activityAt (fun _ => 0) row = 0 := by
    simp [Problem.activityAt]
  have hzero : Binary64.zero.extended ≤ ((0 : ℝ) : EReal) := extended_zero.le
  have hzero' : ((0 : ℝ) : EReal) ≤ Binary64.zero.extended := extended_zero.ge
  have hone : ((0 : ℝ) : EReal) ≤ Binary64.one.extended := extended_one ▸ zero_le_one
  refine ⟨?_, fun _ _ _ _ => ⟨0, Int.cast_zero.symm⟩, ?_⟩
  · intro column lower upper hl hu
    match column, hl, hu with
    | 0, rfl, rfl => exact ⟨.inr hzero, .inl (by decide)⟩
    | 1, rfl, rfl => exact ⟨.inl (by decide), .inr hone⟩
  · intro row lower upper hl hu
    rw [hactivity]
    match row, hl, hu with
    | 0, rfl, rfl => exact ⟨.inr hzero, .inr hzero'⟩
    | 1, rfl, rfl => exact ⟨.inr hzero, .inl (by decide)⟩
    | 2, rfl, rfl => exact ⟨.inr hzero, .inr hone⟩
    | 3, rfl, rfl => exact ⟨.inl (by decide), .inr hone⟩

theorem Model.ofProblem_admits_doubled :
    doubled.validate = .ok () ∧ doubled.WellPosed ∧
    ∃ m, Model.ofProblem doubled = .ok m ∧ m.rows.length = 5 ∧ m.sense = .maximize ∧
      m.Admits fun _ => 0 := by
  have hvalid : doubled.validate = .ok () := rfl
  obtain ⟨m, hm, -, hsense, hadmits, -⟩ := ofProblem_admits hvalid wellPosed_doubled
  have hrows : (Model.ofProblem doubled).map (·.rows.length) = .ok 5 := rfl
  rw [hm] at hrows
  exact ⟨hvalid, wellPosed_doubled, m, hm, Except.ok.inj hrows, hsense, (hadmits _).mpr admits_doubled⟩

end Linear

end IsolatedSolving
