import IsolatedSolving.Proofs.Solution.Comparison

/-! Results that improve on one another.

Of a row of results, the `improvements` are those that are strictly better than the last such result
before them. Only the comparison with the last one counts: a NaN is not comparable with anything, so
nothing improves on a result with such an objective. -/
namespace IsolatedSolving.Solution

/-- The results that are better than the last such result before them. The first one has to be better
than `start`. -/
def improvements (sense : Sense) (start : Solution) : List Solution → List Solution
  | [] => []
  | c :: cs =>
    if c.isBetter start sense then c :: improvements sense c cs else improvements sense start cs

/-- The last improvement on the empty result, or that result if there is none. -/
def bestOf (sense : Sense) (cs : List Solution) : Solution :=
  (improvements sense (empty sense) cs).getLastD (empty sense)

section Improvements
variable {sense : Sense} {start other : Solution} {cs ds : List Solution} {c : Solution}

theorem improvements_of_better (h : c.isBetter start sense = true) (cs : List Solution) :
    improvements sense start (c :: cs) = c :: improvements sense c cs := if_pos h

theorem improvements_of_not (h : c.isBetter start sense = false) (cs : List Solution) :
    improvements sense start (c :: cs) = improvements sense start cs := by
  rw [improvements, h]
  rfl

theorem improvements_append (sense : Sense) (start : Solution) (cs ds : List Solution) :
    improvements sense start (cs ++ ds) = improvements sense start cs ++
      improvements sense ((improvements sense start cs).getLastD start) ds := by
  induction cs generalizing start with
  | nil => rfl
  | cons c cs ih =>
    rw [List.cons_append]
    cases hbetter : c.isBetter start sense with
    | true =>
      rw [improvements_of_better hbetter, improvements_of_better hbetter, ih, List.getLastD_cons,
        List.cons_append]
    | false => rw [improvements_of_not hbetter, improvements_of_not hbetter, ih]

/-- The resources that a result took do not matter. -/
theorem improvements_congr (h : start.Agrees other) (cs : List Solution) :
    improvements sense start cs = improvements sense other cs := by
  induction cs with
  | nil => rfl
  | cons c cs ih => rw [improvements, improvements, h.isBetter, ih]

theorem improvements_sublist (sense : Sense) (start : Solution) (cs : List Solution) :
    (improvements sense start cs).Sublist cs := by
  induction cs generalizing start with
  | nil => exact List.Sublist.slnil
  | cons c cs ih =>
    rw [improvements]
    split
    · exact (ih c).cons_cons c
    · exact (ih start).cons c

theorem improvements_concat_of_better (h : c.isBetter (bestOf sense cs) sense = true) :
    improvements sense (empty sense) (cs ++ [c]) = improvements sense (empty sense) cs ++ [c] := by
  rw [improvements_append, ← bestOf, improvements_of_better h]
  rfl

theorem improvements_concat_of_not (h : c.isBetter (bestOf sense cs) sense = false) :
    improvements sense (empty sense) (cs ++ [c]) = improvements sense (empty sense) cs := by
  rw [improvements_append, ← bestOf, improvements_of_not h]
  exact List.append_nil _

theorem bestOf_concat_of_better (h : c.isBetter (bestOf sense cs) sense = true) :
    bestOf sense (cs ++ [c]) = c := by
  rw [bestOf, improvements_concat_of_better h, List.getLastD_concat]

theorem bestOf_concat_of_not (h : c.isBetter (bestOf sense cs) sense = false) :
    bestOf sense (cs ++ [c]) = bestOf sense cs := by
  rw [bestOf, improvements_concat_of_not h, bestOf]

end Improvements

end IsolatedSolving.Solution
