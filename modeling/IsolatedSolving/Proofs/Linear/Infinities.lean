import IsolatedSolving.Problem.Build
import IsolatedSolving.Proofs.Linear.Modelling
import IsolatedSolving.Proofs.Problem.Starting

/-! Bounds that restrict nothing.

From half the largest number on an upper bound restricts nothing, and lower bounds likewise. `opened`
replaces such bounds by the infinities. To those who drop rows this makes no difference
(`addRow_opened`), and to those who build models only where it makes or breaks an equation. The check of
a start compares with the bounds as they are, so it also refuses what lies beyond a bound that
restricts nothing (`misses_eq`). `opened_verdicts` says so for a whole problem. -/
namespace IsolatedSolving

open Binary64

/-! ### Single bounds -/

/-- A lower bound, which is minus infinity if it restricts nothing. -/
def openedLower (b : Binary64) : Binary64 := if b.le infiniteLower then negInfinity else b

/-- An upper bound, which is infinity if it restricts nothing. -/
def openedUpper (b : Binary64) : Binary64 := if infiniteUpper.le b then infinity else b

/-- The value lies beyond a bound that restricts nothing. -/
def overshoots (value lower upper : Binary64) : Bool :=
  lower.le infiniteLower && value.lt lower || infiniteUpper.le upper && upper.lt value

section Bounds
variable {b lower upper : Binary64}

theorem le_openedLower (b : Binary64) : (openedLower b).le infiniteLower = b.le infiniteLower := by
  rw [openedLower]
  split
  · next h => rw [h]; decide
  · rfl

theorem le_openedUpper (b : Binary64) : infiniteUpper.le (openedUpper b) = infiniteUpper.le b := by
  rw [openedUpper]
  split
  · next h => rw [h]; decide
  · rfl

theorem openedLower_of_lt (h : infiniteLower.lt b = true) : openedLower b = b := by
  obtain ⟨-, hb, hrank⟩ := lt_iff.mp h
  rw [openedLower, if_neg]
  rw [le_iff]
  omega

theorem openedUpper_of_lt (h : b.lt infiniteUpper = true) : openedUpper b = b := by
  obtain ⟨hb, -, hrank⟩ := lt_iff.mp h
  rw [openedUpper, if_neg]
  rw [le_iff]
  omega

theorem lt_openedLower (b : Binary64) : infiniteLower.lt (openedLower b) = infiniteLower.lt b := by
  cases h : infiniteLower.lt b with
  | true => rw [openedLower_of_lt h, h]
  | false =>
    rw [openedLower]
    split
    · decide
    · exact h

theorem lt_openedUpper (b : Binary64) : (openedUpper b).lt infiniteUpper = b.lt infiniteUpper := by
  cases h : b.lt infiniteUpper with
  | true => rw [openedUpper_of_lt h, h]
  | false =>
    rw [openedUpper]
    split
    · decide
    · exact h

/-- What is made of a lower bound only where it restricts something does not change. -/
theorem ite_openedLower {α : Type} (b : Binary64) (f : Binary64 → α) (a : α) :
    (if infiniteLower.lt (openedLower b) then f (openedLower b) else a) =
      if infiniteLower.lt b then f b else a := by
  rw [lt_openedLower]
  split
  · next h => rw [openedLower_of_lt h]
  · rfl

theorem ite_openedUpper {α : Type} (b : Binary64) (f : Binary64 → α) (a : α) :
    (if (openedUpper b).lt infiniteUpper then f (openedUpper b) else a) =
      if b.lt infiniteUpper then f b else a := by
  rw [lt_openedUpper]
  split
  · next h => rw [openedUpper_of_lt h]
  · rfl

theorem unrestricted_opened (lower upper : Binary64) :
    Problem.unrestricted (openedLower lower) (openedUpper upper) =
      Problem.unrestricted lower upper := by
  rw [Problem.unrestricted, le_openedLower, le_openedUpper]
  rfl

end Bounds

/-! ### The tolerance at such bounds -/

section Tolerance
variable {value lower upper : Binary64}

theorem place_of_large {m : Nat} (h : infiniteUpper.magnitude ≤ m) : 1056 ≤ place m := by
  have hplace : place infiniteUpper.magnitude = 2044 := by decide
  have hmono : place infiniteUpper.magnitude ≤ place m :=
    Nat.sub_le_sub_right (Nat.div_le_div_right h) 1
  omega

/-- Bounds of this size absorb the tolerance. -/
theorem sub_startTolerance (h : lower.le infiniteLower = true) : lower.sub startTolerance = lower := by
  obtain ⟨hnan, -, hrank⟩ := le_iff.mp h
  rw [sub_of_isFinite isFinite_startTolerance]
  have htolerance : startTolerance.neg.isFinite = true := by decide
  rcases finite_or_infinite hnan with hfinite | rfl | rfl
  · have hlimit : infiniteLower.rank = -(infiniteUpper.magnitude : Int) := by decide
    have hpos : 0 < infiniteUpper.magnitude := by decide
    have hsign : lower.isNegative = true := by
      refine Decidable.byContradiction fun hneg => ?_
      rw [rank, if_neg hneg] at hrank
      omega
    rw [rank, if_pos hsign] at hrank
    -- The last place of such a bound lies far above the tolerance, so the result rounds back.
    have hplace := place_of_large (m := lower.magnitude) (by omega)
    refine add_eq_left hfinite htolerance (hsign.trans (by decide)) ?_
    have hsmall : place startTolerance.neg.magnitude = 1002 := by decide
    omega
  · exact absurd h (by decide)
  · exact add_of_isInfinite rfl htolerance

theorem add_startTolerance (h : infiniteUpper.le upper = true) :
    upper.add startTolerance = upper := by
  obtain ⟨-, hnan, hrank⟩ := le_iff.mp h
  rcases finite_or_infinite hnan with hfinite | rfl | rfl
  · have hlimit : infiniteUpper.rank = (infiniteUpper.magnitude : Int) := by decide
    have hpos : 0 < infiniteUpper.magnitude := by decide
    have hsign : upper.isNegative = false := by
      refine Bool.eq_false_of_not_eq_true fun hneg => ?_
      rw [hlimit, rank, if_pos hneg] at hrank
      omega
    rw [hlimit, rank, hsign, if_neg Bool.false_ne_true] at hrank
    have hplace := place_of_large (m := upper.magnitude) (by omega)
    refine add_eq_left hfinite isFinite_startTolerance (hsign.trans (by decide)) ?_
    have hsmall : place startTolerance.magnitude = 1002 := by decide
    omega
  · exact add_of_isInfinite rfl isFinite_startTolerance
  · exact absurd h (by decide)

/-- Nothing is below minus infinity. -/
theorem lt_negInfinity (value : Binary64) : value.lt negInfinity = false := by
  rw [lt_eq_false_iff]
  intro hnan _
  have hle : value.magnitude ≤ infinityMagnitude := Nat.le_of_not_lt (of_decide_eq_false hnan)
  have hlimit : negInfinity.rank = -(infinityMagnitude : Int) := by decide
  refine le_iff.mpr ⟨rfl, hnan, ?_⟩
  rw [hlimit, rank]
  split <;> omega

theorem infinity_lt (value : Binary64) : infinity.lt value = false := by
  rw [lt_eq_false_iff]
  intro _ hnan
  have hle : value.magnitude ≤ infinityMagnitude := Nat.le_of_not_lt (of_decide_eq_false hnan)
  have hlimit : infinity.rank = (infinityMagnitude : Int) := by decide
  refine le_iff.mpr ⟨hnan, rfl, ?_⟩
  rw [hlimit, rank]
  split <;> omega

theorem lt_sub_openedLower (value lower : Binary64) :
    value.lt (lower.sub startTolerance) =
      (value.lt ((openedLower lower).sub startTolerance) ||
        (lower.le infiniteLower && value.lt lower)) := by
  cases h : lower.le infiniteLower with
  | true =>
    have hopened : openedLower lower = negInfinity := if_pos h
    have hinfinite : negInfinity.le infiniteLower = true := by decide
    rw [hopened, sub_startTolerance h, sub_startTolerance hinfinite, lt_negInfinity]
    rfl
  | false =>
    have hsame : openedLower lower = lower := if_neg (by rw [h]; exact Bool.false_ne_true)
    rw [hsame, Bool.false_and, Bool.or_false]

theorem openedUpper_add_lt (value upper : Binary64) :
    (upper.add startTolerance).lt value =
      (((openedUpper upper).add startTolerance).lt value ||
        (infiniteUpper.le upper && upper.lt value)) := by
  cases h : infiniteUpper.le upper with
  | true =>
    have hopened : openedUpper upper = infinity := if_pos h
    have hinfinite : infiniteUpper.le infinity = true := by decide
    rw [hopened, add_startTolerance h, add_startTolerance hinfinite, infinity_lt]
    rfl
  | false =>
    have hsame : openedUpper upper = upper := if_neg (by rw [h]; exact Bool.false_ne_true)
    rw [hsame, Bool.false_and, Bool.or_false]

/-- A value misses its bounds if it misses them once they are opened, and also if it lies beyond one
that restricts nothing. -/
theorem misses_eq (value lower upper : Binary64) :
    misses value lower upper =
      (misses value (openedLower lower) (openedUpper upper) || overshoots value lower upper) := by
  rw [misses, misses, overshoots, lt_sub_openedLower, openedUpper_add_lt]
  ac_rfl

end Tolerance

/-! ### Rows of a model -/

namespace Linear

section Between
variable {terms : List (Nat × Binary64)} {lower upper : Binary64}

/-- How many of two bounds restrict something. -/
def restrictions (lower upper : Binary64) : Nat :=
  (infiniteLower.lt lower).toNat + (upper.lt infiniteUpper).toNat

theorem Row.between_of_equals (h : lower.equals upper = true) :
    Row.between terms lower upper = [⟨terms, .equal, upper⟩] := if_pos h

theorem Row.between_of_not_equals (h : lower.equals upper = false) :
    Row.between terms lower upper =
      (if infiniteLower.lt lower then [⟨terms, .atLeast, lower⟩] else []) ++
        (if upper.lt infiniteUpper then [⟨terms, .atMost, upper⟩] else []) :=
  if_neg (by rw [h]; exact Bool.false_ne_true)

/-- Without an equation, opening the bounds changes nothing. -/
theorem Row.between_opened (h : lower.equals upper = false)
    (hopened : (openedLower lower).equals (openedUpper upper) = false) :
    Row.between terms (openedLower lower) (openedUpper upper) = Row.between terms lower upper := by
  rw [between_of_not_equals h, between_of_not_equals hopened]
  congr 1
  · exact ite_openedLower lower (fun b => [Row.mk terms .atLeast b]) []
  · exact ite_openedUpper upper (fun b => [Row.mk terms .atMost b]) []

/-- Of equal bounds both restrict something, or just one. -/
theorem restrictions_of_equals (h : lower.equals upper = true) :
    (infiniteLower.lt lower = true ∧ upper.lt infiniteUpper = true) ∨
      restrictions lower upper = 1 := by
  obtain ⟨hlower, hupper, hrank⟩ := equals_iff.mp h
  have hlimits : infiniteLower.rank < infiniteUpper.rank := by decide
  have hnotboth : infiniteLower.lt lower = true ∨ upper.lt infiniteUpper = true := by
    rw [lt_iff, lt_iff]
    by_cases hlt : infiniteLower.rank < lower.rank
    · exact .inl ⟨rfl, hlower, hlt⟩
    · exact .inr ⟨hupper, rfl, by omega⟩
  rw [restrictions]
  cases hl : infiniteLower.lt lower <;> cases hu : upper.lt infiniteUpper <;> simp_all

theorem restrictions_opened (lower upper : Binary64) :
    restrictions (openedLower lower) (openedUpper upper) = restrictions lower upper := by
  rw [restrictions, lt_openedLower, lt_openedUpper]
  rfl

theorem Row.length_between (terms : List (Nat × Binary64)) (lower upper : Binary64) :
    (Row.between terms lower upper).length =
      if lower.equals upper then 1 else restrictions lower upper := by
  cases h : lower.equals upper with
  | true => rw [between_of_equals h, if_pos rfl, List.length_singleton]
  | false =>
    rw [between_of_not_equals h, if_neg Bool.false_ne_true, restrictions, List.length_append]
    cases infiniteLower.lt lower <;> cases upper.lt infiniteUpper <;> rfl

/-- Bounds stand for an equation exactly if they are equal. -/
theorem Row.exists_equation_iff :
    (∃ r ∈ Row.between terms lower upper, r.relation = .equal) ↔ lower.equals upper = true := by
  cases h : lower.equals upper with
  | true =>
    rw [between_of_equals h]
    exact iff_of_true ⟨_, List.mem_singleton_self _, rfl⟩ rfl
  | false =>
    rw [between_of_not_equals h]
    refine iff_of_false ?_ Bool.false_ne_true
    rintro ⟨r, hr, hequal⟩
    rcases List.mem_append.mp hr with hr | hr <;> split at hr <;> simp_all

/-- Opened bounds that are equal, as they were before, have the same upper one. -/
theorem openedUpper_of_equals (h : lower.equals upper = true)
    (hopened : (openedLower lower).equals (openedUpper upper) = true) :
    openedUpper upper = upper := by
  cases hlarge : infiniteUpper.le upper with
  | false => exact if_neg (by rw [hlarge]; exact Bool.false_ne_true)
  | true =>
    have hinfinity : openedUpper upper = infinity := if_pos hlarge
    obtain ⟨hlower, hupper, hrank⟩ := equals_iff.mp h
    obtain ⟨-, -, hle⟩ := le_iff.mp hlarge
    -- The lower bound is as large, so it is not one of those that are opened.
    have hlimits : infiniteLower.rank < infiniteUpper.rank := by decide
    have hsame : openedLower lower = lower := openedLower_of_lt (lt_iff.mpr ⟨rfl, hlower, by omega⟩)
    rw [hinfinity, hsame] at hopened
    obtain ⟨-, -, hopened⟩ := equals_iff.mp hopened
    have hlimit : infinity.rank = (infinityMagnitude : Int) := by decide
    rcases finite_or_infinite hupper with hfinite | rfl | rfl
    · have hmagnitude := isFinite_iff.mp hfinite
      rw [hlimit, hrank, rank] at hopened
      split at hopened <;> omega
    · exact hinfinity
    · exact absurd hlarge (by decide)

/-- Opening bounds changes the rows exactly if it makes or breaks an equation. -/
theorem Row.between_opened_iff :
    Row.between terms (openedLower lower) (openedUpper upper) = Row.between terms lower upper ↔
      (openedLower lower).equals (openedUpper upper) = lower.equals upper := by
  constructor
  · intro h
    have hopened : (∃ r ∈ Row.between terms (openedLower lower) (openedUpper upper),
        r.relation = .equal) ↔ _ := exists_equation_iff
    rw [Bool.eq_iff_iff, ← hopened, h, exists_equation_iff]
  · intro h
    cases hequal : lower.equals upper with
    | true =>
      rw [hequal] at h
      rw [between_of_equals hequal, between_of_equals h, openedUpper_of_equals hequal h]
    | false => exact between_opened hequal (h.trans hequal)

/-- Where opening bounds makes or breaks an equation, one of them restricts something. -/
theorem restrictions_of_ne
    (h : (openedLower lower).equals (openedUpper upper) ≠ lower.equals upper) :
    restrictions lower upper = 1 := by
  have hnotboth : ¬(infiniteLower.lt lower = true ∧ upper.lt infiniteUpper = true) :=
    fun ⟨hl, hu⟩ => h (by rw [openedLower_of_lt hl, openedUpper_of_lt hu])
  cases hequal : lower.equals upper with
  | true => exact (restrictions_of_equals hequal).resolve_left hnotboth
  | false =>
    rw [hequal, ne_eq, Bool.not_eq_false] at h
    have hopened := restrictions_of_equals h
    rw [lt_openedLower, lt_openedUpper, restrictions_opened] at hopened
    exact hopened.resolve_left hnotboth

/-- Opening bounds never changes the number of rows. -/
theorem Row.length_between_opened (terms : List (Nat × Binary64)) (lower upper : Binary64) :
    (Row.between terms (openedLower lower) (openedUpper upper)).length =
      (Row.between terms lower upper).length := by
  rw [length_between, length_between, restrictions_opened]
  by_cases h : (openedLower lower).equals (openedUpper upper) = lower.equals upper
  · rw [h]
  · rw [restrictions_of_ne h, ite_self, ite_self]

end Between

end Linear

/-! ### Whole problems -/

/-- Lists joined from as many parts of the same lengths are equal part by part. -/
theorem flatMap_eq_flatMap_iff {α β : Type} {xs : List α} {f g : α → List β}
    (h : ∀ x ∈ xs, (f x).length = (g x).length) :
    xs.flatMap f = xs.flatMap g ↔ ∀ x ∈ xs, f x = g x := by
  induction xs with
  | nil => exact iff_of_true rfl nofun
  | cons x xs ih =>
    obtain ⟨hx, hxs⟩ := List.forall_mem_cons.mp h
    rw [List.flatMap_cons, List.flatMap_cons, List.forall_mem_cons, ← ih hxs]
    exact ⟨fun happend => List.append_inj happend hx, fun ⟨hhead, htail⟩ => by rw [hhead, htail]⟩

namespace Problem

open Linear (Model Column columnsIn rowsAt)

/-- The problem with bounds that restrict nothing replaced by infinities. -/
def opened (p : Problem) : Problem :=
  { p with
    columnLower := p.columnLower.map openedLower
    columnUpper := p.columnUpper.map openedUpper
    rowLower := p.rowLower.map openedLower
    rowUpper := p.rowUpper.map openedUpper }

/-- No value and no activity of the start lies beyond a bound that restricts nothing. -/
structure StaysInside (p : Problem) : Prop where
  columns : ∀ (column : Nat) (value lower upper : Binary64), p.start[column]? = some value →
    p.columnLower[column]? = some lower → p.columnUpper[column]? = some upper →
    overshoots value lower upper = false
  rows : ∀ (row : Nat) (activity lower upper : Binary64),
    p.matrix.activity? row p.start = some activity → p.rowLower[row]? = some lower →
    p.rowUpper[row]? = some upper → overshoots activity lower upper = false

section Opened
variable {p : Problem}

theorem Consistent.opened (h : p.Consistent) : p.opened.Consistent where
  columns := h.columns
  objective := h.objective
  columnLower := (List.length_map _).trans h.columnLower
  columnUpper := (List.length_map _).trans h.columnUpper
  kinds := h.kinds
  rowLower := (List.length_map _).trans h.rowLower
  rowUpper := (List.length_map _).trans h.rowUpper
  indices := h.indices
  start := h.start
  entries := h.entries

theorem exists_of_map {f : Binary64 → Binary64} {xs : List Binary64} {i : Nat} {y : Binary64}
    (h : (xs.map f)[i]? = some y) : ∃ x, xs[i]? = some x ∧ f x = y := by
  rwa [List.getElem?_map, Option.map_eq_some_iff] at h

theorem map_of_getElem? {f : Binary64 → Binary64} {xs : List Binary64} {i : Nat} {x : Binary64}
    (h : xs[i]? = some x) : (xs.map f)[i]? = some (f x) := by
  rw [List.getElem?_map, h, Option.map_some]

theorem misses_eq_false_iff_opened {value lower upper : Binary64} :
    misses value lower upper = false ↔
      misses value (openedLower lower) (openedUpper upper) = false ∧
        overshoots value lower upper = false := by
  rw [misses_eq, Bool.or_eq_false_iff]

/-- A start passes if it does so with opened bounds and stays inside those that restrict nothing. -/
theorem checkStart_opened (h : p.Consistent) (hstart : p.start ≠ []) :
    p.checkStart = .ok () ↔ p.opened.checkStart = .ok () ∧ p.StaysInside := by
  rw [checkStart_eq h hstart, checkStart_eq h.opened hstart]
  constructor
  · rintro ⟨hcolumns, hrows⟩
    refine ⟨⟨fun column value lower' upper' kind hvalue hl hu hk => ?_,
      fun row activity lower' upper' hactivity hl hu => ?_⟩,
      fun column value lower upper hvalue hl hu => ?_,
      fun row activity lower upper hactivity hl hu => ?_⟩
    · obtain ⟨lower, hlower, rfl⟩ := exists_of_map hl
      obtain ⟨upper, hupper, rfl⟩ := exists_of_map hu
      obtain ⟨hmisses, hwhole⟩ := hcolumns column value lower upper kind hvalue hlower hupper hk
      exact ⟨(misses_eq_false_iff_opened.mp hmisses).1, hwhole⟩
    · obtain ⟨lower, hlower, rfl⟩ := exists_of_map hl
      obtain ⟨upper, hupper, rfl⟩ := exists_of_map hu
      exact (misses_eq_false_iff_opened.mp
        (hrows row activity lower upper hactivity hlower hupper)).1
    · obtain ⟨hcolumn, -⟩ := List.getElem?_eq_some_iff.mp hl
      have hk := List.getElem?_eq_getElem (h.kinds ▸ h.columnLower ▸ hcolumn)
      exact (misses_eq_false_iff_opened.mp (hcolumns column value lower upper _ hvalue hl hu hk).1).2
    · exact (misses_eq_false_iff_opened.mp (hrows row activity lower upper hactivity hl hu)).2
  · rintro ⟨⟨hcolumns, hrows⟩, hinside⟩
    refine ⟨fun column value lower upper kind hvalue hl hu hk => ?_,
      fun row activity lower upper hactivity hl hu => ?_⟩
    · obtain ⟨hmisses, hwhole⟩ :=
        hcolumns column value _ _ kind hvalue (map_of_getElem? hl) (map_of_getElem? hu) hk
      have hover := hinside.columns column value lower upper hvalue hl hu
      exact ⟨misses_eq_false_iff_opened.mpr ⟨hmisses, hover⟩, hwhole⟩
    · exact misses_eq_false_iff_opened.mpr
        ⟨hrows row activity _ _ hactivity (map_of_getElem? hl) (map_of_getElem? hu),
          hinside.rows row activity lower upper hactivity hl hu⟩

theorem columnsIn_opened (p : Problem) : columnsIn p.opened = columnsIn p := by
  have hcolumn (lower upper : Binary64) (kind : VariableKind) :
      Column.between (openedLower lower) (openedUpper upper) kind =
        Column.between lower upper kind := by
    rw [Column.between, Column.between]
    congr 1
    · exact ite_openedLower lower some none
    · exact ite_openedUpper upper some none
  have hzip : p.opened.columnLower.zip (p.opened.columnUpper.zip p.opened.kinds) =
      (p.columnLower.zip (p.columnUpper.zip p.kinds)).map
        (Prod.map openedLower (Prod.map openedUpper id)) := by
    rw [← List.zip_map, ← List.zip_map, List.map_id]
    rfl
  rw [columnsIn, columnsIn, hzip, List.map_map]
  exact List.map_congr_left fun entry _ => hcolumn entry.1 entry.2.1 entry.2.2

theorem rowsAt_opened (p : Problem) (row : Nat) :
    rowsAt p.opened row = Linear.Row.between (p.matrix.terms row)
      (openedLower (p.rowLower.getD row .zero)) (openedUpper (p.rowUpper.getD row .zero)) := by
  have hget (f : Binary64 → Binary64) (hzero : f .zero = .zero) (bounds : List Binary64) :
      (bounds.map f).getD row .zero = f (bounds.getD row .zero) := by
    rw [List.getD_eq_getElem?_getD, List.getD_eq_getElem?_getD, List.getElem?_map]
    cases bounds[row]? with
    | none => exact hzero.symm
    | some b => rfl
  have hlower := hget openedLower (by decide) p.rowLower
  have hupper := hget openedUpper (by decide) p.rowUpper
  rw [rowsAt, opened, hlower, hupper]

/-- The model stays the same exactly if opening the bounds makes or breaks no equation. -/
theorem ofProblem_opened_iff (h : p.Consistent) :
    Model.ofProblem p.opened = Model.ofProblem p ↔
      ∀ (row : Nat) (lower upper : Binary64), p.rowLower[row]? = some lower →
        p.rowUpper[row]? = some upper →
        (openedLower lower).equals (openedUpper upper) = lower.equals upper := by
  have hcount : p.opened.rowCount = p.rowCount := rfl
  rw [Model.ofProblem_eq h, Model.ofProblem_eq h.opened, columnsIn_opened, hcount, Except.ok.injEq,
    Model.mk.injEq]
  -- All but the rows is the same, and each row stands for as many rows as before.
  have hrows : (List.range p.rowCount).flatMap (rowsAt p.opened) =
        (List.range p.rowCount).flatMap (rowsAt p) ↔
      ∀ row ∈ List.range p.rowCount, rowsAt p.opened row = rowsAt p row :=
    flatMap_eq_flatMap_iff fun row _ => by
      rw [rowsAt_opened, rowsAt, Linear.Row.length_between_opened]
  refine ⟨fun hparts row lower upper hl hu => ?_, fun hequal => ⟨rfl, rfl, ?_, rfl⟩⟩
  · have hrow : row < p.rowCount := h.rowLower ▸ (List.getElem?_eq_some_iff.mp hl).1
    have hat := hrows.mp hparts.2.2.1 row (List.mem_range.mpr hrow)
    rw [rowsAt_opened, rowsAt, Linear.Row.between_opened_iff, List.getD_eq_getElem?_getD,
      List.getD_eq_getElem?_getD, hl, hu] at hat
    exact hat
  · refine hrows.mpr fun row hmem => ?_
    have hrow := List.mem_range.mp hmem
    have hl := List.getElem?_eq_getElem (h.rowLower.symm ▸ hrow)
    have hu := List.getElem?_eq_getElem (h.rowUpper.symm ▸ hrow)
    rw [rowsAt_opened, rowsAt, Linear.Row.between_opened_iff, List.getD_eq_getElem?_getD,
      List.getD_eq_getElem?_getD, hl, hu]
    exact hequal row _ _ hl hu

/-- Opening the bounds of a problem and of a row to be added comes to the same as doing so
afterwards. -/
theorem addRow_opened (columns : List Int32) (values : List Binary64) (lower upper : Binary64)
    (p : Problem) :
    addRow columns values (openedLower lower) (openedUpper upper) p.opened =
      match addRow columns values lower upper p with
      | .ok number q => .ok number q.opened
      | .error stop q => .error stop q.opened := by
  rw [addRow, addRow, unrestricted_opened]
  have hmatrix : p.opened.matrix = p.matrix := rfl
  rw [hmatrix]
  cases p.matrix.checkRow columns values with
  | error e => rfl
  | ok _ =>
    dsimp only
    cases unrestricted lower upper with
    | true => rfl
    | false =>
      have hpushed (f : Binary64 → Binary64) (xs : List Binary64) (x : Binary64) :
          xs.map f ++ [f x] = (xs ++ [x]).map f := by
        rw [List.map_append, List.map_singleton]
      dsimp only [opened, Bool.false_eq_true, if_false]
      rw [hpushed, hpushed]
      rfl

end Opened

/-- **Bounds that restrict nothing.** On an accepted problem, opening such bounds gives an accepted
problem. A start that passes also does so with opened bounds. The other way round it must moreover not
lie beyond a bound that restricts nothing. The model stays the same exactly if no row has bounds of which
opening makes or breaks the equality. A row that is added is added or skipped just the same. -/
theorem opened_verdicts {p : Problem} (hvalid : p.validate = .ok ()) :
    p.opened.validate = .ok () ∧
    (p.checkStart = .ok () ↔
      p.opened.checkStart = .ok () ∧ (p.start ≠ [] → p.StaysInside)) ∧
    (Model.ofProblem p.opened = Model.ofProblem p ↔
      ∀ (row : Nat) (lower upper : Binary64), p.rowLower[row]? = some lower →
        p.rowUpper[row]? = some upper →
        (openedLower lower).equals (openedUpper upper) = lower.equals upper) ∧
    ∀ (columns : List Int32) (values : List Binary64) (lower upper : Binary64),
      addRow columns values (openedLower lower) (openedUpper upper) p.opened =
        match addRow columns values lower upper p with
        | .ok number q => .ok number q.opened
        | .error stop q => .error stop q.opened := by
  have h : p.Consistent := validate_eq_ok_iff.mp hvalid
  refine ⟨validate_eq_ok_iff.mpr h.opened, ?_, ofProblem_opened_iff h,
    fun columns values lower upper => addRow_opened columns values lower upper p⟩
  by_cases hstart : p.start = []
  · have hempty (q : Problem) (hq : q.start = []) : q.checkStart = .ok () := by
      rw [checkStart, hq]
      rfl
    exact iff_of_true (hempty p hstart) ⟨hempty p.opened hstart, fun hne => absurd hstart hne⟩
  · rw [checkStart_opened h hstart, forall_prop_of_true hstart]

/-- A column that is restricted from above only, by -10³⁰⁸ from below, and a start further down. -/
def sunken : Problem :=
  { empty with
    matrix := ⟨[], [], 1⟩
    objective := [.one]
    columnLower := [⟨0xffe1ccf385ebc8a0⟩]
    columnUpper := [.zero]
    kinds := [.continuous]
    start := [⟨0xffeab36d48e1acf0⟩] }

theorem opened_verdicts_sunken :
    sunken.validate = .ok () ∧ sunken.opened.validate = .ok () ∧
    Model.ofProblem sunken.opened = Model.ofProblem sunken := by
  have hvalid : sunken.validate = .ok () := rfl
  obtain ⟨hopened, -, hmodel, -⟩ := opened_verdicts hvalid
  exact ⟨hvalid, hopened, hmodel.mpr nofun⟩

/-- The lower bound restricts nothing, but the start is refused for missing it. -/
theorem sunken_refused :
    sunken.validate = .ok () ∧ Binary64.le ⟨0xffe1ccf385ebc8a0⟩ infiniteLower = true ∧
    sunken.checkStart =
      .error (.error (.outside 0 ⟨0xffeab36d48e1acf0⟩ ⟨0xffe1ccf385ebc8a0⟩ .zero)) ∧
    sunken.opened.checkStart = .ok () :=
  ⟨rfl, by decide +kernel, by decide +kernel, by decide +kernel⟩

end Problem

end IsolatedSolving
