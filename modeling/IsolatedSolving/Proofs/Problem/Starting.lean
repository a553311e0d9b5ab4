import IsolatedSolving.Proofs.Number.Exactness
import IsolatedSolving.Proofs.Problem.Consistency

/-! What the check of a start accepts.

The check refuses what it finds violated, and a NaN is neither below nor above a bound. So it accepts
a start exactly if no value and no activity is found to miss its bounds, as far as the two can be
compared, and no finite value of an integral column is further than the tolerance from the whole
numbers (`checkStart_accepts`). The distance from the whole numbers is exact, because the difference
to the nearest one is. What cannot be compared is accepted: a NaN in the start satisfies no bound, and
an infinity is near no whole number (`checkStart_adrift`). -/
namespace IsolatedSolving

open Binary64

/-! ### Values and bounds -/

/-- The value is within the tolerance of the bounds, as far as it can be compared with them. -/
structure Keeps (value lower upper : Binary64) : Prop where
  lower : value.isNaN = false → lower.isNaN = false → (lower.sub startTolerance).le value = true
  upper : value.isNaN = false → upper.isNaN = false → value.le (upper.add startTolerance) = true

theorem isFinite_startTolerance : startTolerance.isFinite = true := by decide

/-- Not being below is being at least, unless there is a NaN. -/
theorem lt_eq_false_iff {x y : Binary64} :
    x.lt y = false ↔ (x.isNaN = false → y.isNaN = false → y.le x = true) := by
  cases hx : x.isNaN with
  | true => simp [lt_of_isNaN_left hx]
  | false =>
    cases hy : y.isNaN with
    | true => simp [lt_of_isNaN_right hy]
    | false => simp [le_eq_not_lt hy hx]

theorem misses_eq_false_iff {value lower upper : Binary64} :
    misses value lower upper = false ↔ Keeps value lower upper := by
  have hlower : (lower.sub startTolerance).isNaN = lower.isNaN := isNaN_sub isFinite_startTolerance
  have hupper : (upper.add startTolerance).isNaN = upper.isNaN := isNaN_add isFinite_startTolerance
  rw [misses, Bool.or_eq_false_iff, lt_eq_false_iff, lt_eq_false_iff, hlower, hupper]
  exact ⟨fun ⟨hl, hu⟩ => ⟨hl, fun hv hb => hu hb hv⟩, fun ⟨hl, hu⟩ => ⟨hl, fun hb hv => hu hv hb⟩⟩

/-! ### Whole numbers -/

/-- No whole number is nearer than one at most a half away. -/
theorem abs_sub_le_of_half {q : Rat} {k : Int} (h : |q - k| ≤ 1 / 2) (n : Int) :
    |q - k| ≤ |q - n| := by
  by_cases hn : n = k
  · rw [hn]
  · have hint : (1 : Int) ≤ |k - n| := Int.one_le_abs (sub_ne_zero.mpr (Ne.symm hn))
    have hrat : (1 : Rat) ≤ |(k : Rat) - n| := by exact_mod_cast hint
    have htriangle := abs_sub_le (k : Rat) q n
    rw [abs_sub_comm (k : Rat) q] at htriangle
    linarith

/-- A finite value is refused exactly if it is further than the tolerance from all whole numbers. -/
theorem isFractional_of_isFinite {value : Binary64} (h : value.isFinite = true) :
    isFractional value = false ↔ ∃ n : Int, |value.toRat - n| ≤ startTolerance.toRat := by
  obtain ⟨k, hfinite, hdistance, hhalf⟩ := exists_wholeDistance h
  have hlt : isFractional value = true ↔ startTolerance.toRat < |value.toRat - k| := by
    rw [isFractional, lt_iff_toRat isFinite_startTolerance (isFinite_abs.trans hfinite), toRat_abs,
      hdistance]
  rw [← Bool.not_eq_true, hlt, not_lt]
  exact ⟨fun hle => ⟨k, hle⟩, fun ⟨n, hn⟩ => (abs_sub_le_of_half hhalf n).trans hn⟩

/-- A value that is not finite has no distance from the whole numbers. -/
theorem isFractional_of_not_isFinite {value : Binary64} (h : value.isFinite = false) :
    isFractional value = false := by
  refine lt_of_isNaN_right ?_
  cases hnan : value.isNaN with
  | true =>
    have hsub : value.sub value.round = value.quiet := by
      rw [sub, hnan, Bool.not_true, Bool.and_false, if_neg Bool.false_ne_true, add, if_pos hnan]
    rw [hsub, isNaN_abs]
    exact isNaN_quiet hnan
  | false =>
    rcases finite_or_infinite hnan with hfinite | rfl | rfl
    · rw [hfinite] at h
      cases h
    · decide
    · decide

theorem isFractional_eq_false_iff {value : Binary64} :
    isFractional value = false ↔
      (value.isFinite = true → ∃ n : Int, |value.toRat - n| ≤ startTolerance.toRat) := by
  cases hfinite : value.isFinite with
  | true => rw [isFractional_of_isFinite hfinite, forall_prop_of_true rfl]
  | false => exact iff_of_true (isFractional_of_not_isFinite hfinite) nofun

namespace Problem

/-! ### The check -/

section Steps
variable {ε α : Type}

theorem then_eq_ok_iff {r next : Except ε PUnit} :
    (r >>= fun _ => next) = .ok () ↔ r = .ok () ∧ next = .ok () := by
  cases r with
  | error e => exact iff_of_false nofun fun h => nomatch h.1
  | ok _ => exact (and_iff_right rfl).symm

theorem forM_eq_ok_iff {xs : List α} {step : α → Except ε PUnit} :
    xs.forM step = .ok () ↔ ∀ x ∈ xs, step x = .ok () := by
  induction xs with
  | nil => exact iff_of_true rfl nofun
  | cons x xs ih =>
    rw [List.forall_mem_cons, ← ih]
    exact then_eq_ok_iff

end Steps

section Check
variable {p : Problem}

theorem checkColumnValue_eq_ok_iff {column : Nat} {value lower upper : Binary64}
    {kind : VariableKind} (hlower : p.columnLower[column]? = some lower)
    (hupper : p.columnUpper[column]? = some upper) (hkind : p.kinds[column]? = some kind) :
    p.checkColumnValue column value = .ok () ↔
      misses value lower upper = false ∧ (kind.isIntegral = true → isFractional value = false) := by
  simp only [checkColumnValue, hlower, hupper, hkind]
  cases misses value lower upper with
  | true => exact iff_of_false (by rintro ⟨⟩) (by rintro ⟨⟨⟩, -⟩)
  | false =>
    rw [and_iff_right rfl]
    cases kind.isIntegral with
    | false => exact iff_of_true rfl (by rintro ⟨⟩)
    | true =>
      cases isFractional value with
      | false => exact iff_of_true rfl fun _ => rfl
      | true => exact iff_of_false (by rintro ⟨⟩) fun h => Bool.noConfusion (h rfl)

theorem checkRowActivity_eq_ok_iff {x : List Binary64} {row : Nat} {activity lower upper : Binary64}
    (hactivity : p.matrix.activity? row x = some activity) (hlower : p.rowLower[row]? = some lower)
    (hupper : p.rowUpper[row]? = some upper) :
    p.checkRowActivity x row = .ok () ↔ misses activity lower upper = false := by
  simp only [checkRowActivity, hactivity, hlower, hupper]
  cases misses activity lower upper with
  | true => exact iff_of_false (by rintro ⟨⟩) (by rintro ⟨⟩)
  | false => exact iff_of_true rfl rfl

/-- The check looks at the columns and then at the rows. -/
theorem checkStart_eq (h : p.Consistent) (hstart : p.start ≠ []) :
    p.checkStart = .ok () ↔
      (∀ (column : Nat) (value lower upper : Binary64) (kind : VariableKind),
        p.start[column]? = some value → p.columnLower[column]? = some lower →
        p.columnUpper[column]? = some upper → p.kinds[column]? = some kind →
        misses value lower upper = false ∧
          (kind.isIntegral = true → isFractional value = false)) ∧
      ∀ (row : Nat) (activity lower upper : Binary64),
        p.matrix.activity? row p.start = some activity → p.rowLower[row]? = some lower →
        p.rowUpper[row]? = some upper → misses activity lower upper = false := by
  have hlength : p.start.length = p.columnCount := h.start.resolve_left hstart
  have hcheck : p.checkStart =
      (p.start.zipIdx.forM (fun entry => p.checkColumnValue entry.2 entry.1) >>= fun _ =>
        (List.range p.rowCount).forM (p.checkRowActivity p.start)) := by
    rw [checkStart, if_neg (by simpa using hstart), if_neg (by simpa using hlength)]
  rw [hcheck, then_eq_ok_iff, forM_eq_ok_iff, forM_eq_ok_iff]
  refine and_congr ⟨fun hall column value lower upper kind hvalue hl hu hk => ?_, ?_⟩
    ⟨fun hall row activity lower upper hactivity hl hu => ?_, fun hall row hmem => ?_⟩
  · have hmem := List.mk_mem_zipIdx_iff_getElem?.mpr hvalue
    exact (checkColumnValue_eq_ok_iff hl hu hk).mp (hall (value, column) hmem)
  · rintro hall ⟨value, column⟩ hmem
    have hvalue := List.mk_mem_zipIdx_iff_getElem?.mp hmem
    obtain ⟨hcolumn, -⟩ := List.getElem?_eq_some_iff.mp hvalue
    rw [hlength] at hcolumn
    have hl := List.getElem?_eq_getElem (h.columnLower ▸ hcolumn)
    have hu := List.getElem?_eq_getElem (h.columnUpper ▸ hcolumn)
    have hk := List.getElem?_eq_getElem (h.kinds ▸ hcolumn)
    exact (checkColumnValue_eq_ok_iff hl hu hk).mpr (hall column value _ _ _ hvalue hl hu hk)
  · have hrow : row < p.rowCount := h.rowLower ▸ (List.getElem?_eq_some_iff.mp hl).1
    exact (checkRowActivity_eq_ok_iff hactivity hl hu).mp (hall row (List.mem_range.mpr hrow))
  · have hrow := List.mem_range.mp hmem
    obtain ⟨activity, hactivity⟩ :=
      Option.isSome_iff_exists.mp (isSome_activity? h hlength hrow)
    have hl := List.getElem?_eq_getElem (h.rowLower.symm ▸ hrow)
    have hu := List.getElem?_eq_getElem (h.rowUpper.symm ▸ hrow)
    exact (checkRowActivity_eq_ok_iff hactivity hl hu).mpr (hall row activity _ _ hactivity hl hu)

end Check

/-- **What the check of a start accepts.** On an accepted problem a start passes exactly if every value
and every activity keeps its bounds within the tolerance, as far as it can be compared with them, and
every value of an integral column is within the tolerance of a whole number, as far as it is finite. -/
theorem checkStart_accepts {p : Problem} (hvalid : p.validate = .ok ()) (hstart : p.start ≠ []) :
    p.checkStart = .ok () ↔
      (∀ (column : Nat) (value lower upper : Binary64) (kind : VariableKind),
        p.start[column]? = some value → p.columnLower[column]? = some lower →
        p.columnUpper[column]? = some upper → p.kinds[column]? = some kind →
        Keeps value lower upper ∧
          (kind.isIntegral = true → value.isFinite = true →
            ∃ n : Int, |value.toRat - n| ≤ startTolerance.toRat)) ∧
      ∀ (row : Nat) (activity lower upper : Binary64),
        p.matrix.activity? row p.start = some activity → p.rowLower[row]? = some lower →
        p.rowUpper[row]? = some upper → Keeps activity lower upper := by
  rw [checkStart_eq (validate_eq_ok_iff.mp hvalid) hstart]
  simp only [misses_eq_false_iff, isFractional_eq_false_iff]

/-- A row of a whole number between zero and one, and a start that has it at one, but no number in
the other column. -/
def adrift : Problem :=
  { empty with
    matrix := ⟨[[.one]], [[0]], 2⟩
    objective := [.one, .one]
    columnLower := [.zero, .zero]
    columnUpper := [.one, .one]
    rowLower := [.zero]
    rowUpper := [.one]
    kinds := [.integer, .continuous]
    start := [.one, .nan] }

theorem checkStart_adrift : adrift.checkStart = .ok () := by decide +kernel

theorem checkStart_accepts_adrift :
    adrift.validate = .ok () ∧ adrift.start ≠ [] ∧ Keeps .nan .zero .one ∧
    ∃ n : Int, |Binary64.one.toRat - n| ≤ startTolerance.toRat := by
  have hvalid : adrift.validate = .ok () := rfl
  have hstart : adrift.start ≠ [] := by decide
  obtain ⟨hcolumns, -⟩ := (checkStart_accepts hvalid hstart).mp checkStart_adrift
  obtain ⟨-, hwhole⟩ := hcolumns 0 .one .zero .one .integer rfl rfl rfl rfl
  obtain ⟨hkeeps, -⟩ := hcolumns 1 .nan .zero .one .continuous rfl rfl rfl rfl
  exact ⟨hvalid, hstart, hkeeps, hwhole rfl (by decide)⟩

/-- The start passes with a value that is neither at least the lower bound nor at most the upper one,
whatever the tolerance. -/
theorem adrift_accepted :
    adrift.validate = .ok () ∧ adrift.checkStart = .ok () ∧ adrift.start[1]? = some .nan ∧
    adrift.columnLower[1]? = some .zero ∧ adrift.columnUpper[1]? = some .one ∧
    (Binary64.zero.sub startTolerance).le .nan = false ∧
    Binary64.nan.le (Binary64.one.add startTolerance) = false :=
  ⟨rfl, checkStart_adrift, rfl, rfl, rfl, by decide +kernel, by decide +kernel⟩

end Problem

end IsolatedSolving
