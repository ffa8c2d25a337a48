import Mathlib.Tactic

/-!
# Weighted means of lists

The mean of the values of a list by the weights of its members, and how it moves
when a member is added at the end.
-/

namespace WeightedMean

variable {α K : Type} [Field K] (value weight : α → K)

/-- The sum of the weights. -/
def total (l : List α) : K := (l.map weight).sum

/-- The weighted sum over the sum of the weights. -/
def mean (l : List α) : K := (l.map fun a => value a * weight a).sum / total weight l

theorem total_append (l : List α) (a : α) : total weight (l ++ [a]) = total weight l + weight a := by
  simp [total]

theorem mean_neg (l : List α) : mean (fun a => -value a) weight l = -mean value weight l := by
  have hsum : (l.map fun a => -value a * weight a).sum =
      -(l.map fun a => value a * weight a).sum := by
    induction l with
    | nil => simp
    | cons a l ih =>
      simp only [List.map_cons, List.sum_cons, ih]
      ring
  rw [mean, mean, hsum, neg_div]

variable [LinearOrder K] [IsStrictOrderedRing K]

/-- A bound of the values is one of the weighted sum. -/
theorem mul_total_le (l : List α) (v : K) (hv : ∀ a ∈ l, v ≤ value a)
    (hw : ∀ a ∈ l, 0 ≤ weight a) : v * total weight l ≤ (l.map fun a => value a * weight a).sum := by
  induction l with
  | nil => simp [total]
  | cons a l ih =>
    have hrest := ih (fun b hb => hv b (List.mem_cons_of_mem a hb)) fun b hb =>
      hw b (List.mem_cons_of_mem a hb)
    have hhead : v * weight a ≤ value a * weight a :=
      mul_le_mul_of_nonneg_right (hv a List.mem_cons_self) (hw a List.mem_cons_self)
    simp only [total, List.map_cons, List.sum_cons, mul_add] at hrest ⊢
    exact add_le_add hhead hrest

theorem le_mean (l : List α) (v : K) (hv : ∀ a ∈ l, v ≤ value a) (hw : ∀ a ∈ l, 0 ≤ weight a)
    (htotal : 0 < total weight l) : v ≤ mean value weight l := by
  rw [mean, le_div_iff₀ htotal]
  exact mul_total_le value weight l v hv hw

theorem mean_le (l : List α) (v : K) (hv : ∀ a ∈ l, value a ≤ v) (hw : ∀ a ∈ l, 0 ≤ weight a)
    (htotal : 0 < total weight l) : mean value weight l ≤ v := by
  have hneg := le_mean (fun a => -value a) weight l (-v) (fun a ha => neg_le_neg (hv a ha)) hw htotal
  rw [mean_neg] at hneg
  exact neg_le_neg_iff.mp hneg

/-- A value below the mean pulls it down. -/
theorem mean_append_lt (l : List α) (a : α) (ha : value a < mean value weight l)
    (hw : 0 < weight a) (htotal : 0 < total weight l) :
    mean value weight (l ++ [a]) < mean value weight l := by
  have hsum : value a * total weight l < (l.map fun b => value b * weight b).sum := by
    rwa [mean, lt_div_iff₀ htotal] at ha
  have hmul := mul_lt_mul_of_pos_right hsum hw
  rw [mean, mean, total_append, div_lt_div_iff₀ (add_pos htotal hw) htotal]
  simp only [List.map_append, List.map_cons, List.map_nil, List.sum_append, List.sum_cons,
    List.sum_nil, add_zero]
  linarith

/-- A value above the mean pulls it up. -/
theorem lt_mean_append (l : List α) (a : α) (ha : mean value weight l < value a)
    (hw : 0 < weight a) (htotal : 0 < total weight l) :
    mean value weight l < mean value weight (l ++ [a]) := by
  have hneg : -value a < mean (fun a => -value a) weight l := by
    rw [mean_neg]
    exact neg_lt_neg ha
  have hlt := mean_append_lt (fun a => -value a) weight l a hneg hw htotal
  rw [mean_neg, mean_neg] at hlt
  exact neg_lt_neg_iff.mp hlt

end WeightedMean
