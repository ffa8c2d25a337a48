import Mathlib.Tactic

/-!
# Token buckets

A bucket holds at most a budget and refills at a constant rate. It stores the time of
its last use and what was left then. Two facts carry its users: what a use takes comes
out of an allowance for the interval it lies in, and a use that takes nothing leaves
every later level as it was.
-/

namespace TokenBucket

variable {α : Type} [Field α] [LinearOrder α] [IsStrictOrderedRing α]

/-- What was left at the last use. -/
structure Bucket (α : Type) where
  stamp : α
  remaining : α
  deriving DecidableEq

variable (budget rate : α)

/-- What a bucket holds at a time. -/
def level (b : Bucket α) (now : α) : α :=
  min budget (b.remaining + max 0 (now - b.stamp) * rate)

/-- Take a cost if the bucket holds it; the stamp moves in any case. -/
def take (b : Bucket α) (now cost : α) : Bool × Bucket α :=
  if level budget rate b now < cost then (false, ⟨now, level budget rate b now⟩)
  else (true, ⟨now, level budget rate b now - cost⟩)

omit [IsStrictOrderedRing α] in
theorem take_stamp (b : Bucket α) (now cost : α) : (take budget rate b now cost).2.stamp = now := by
  unfold take
  split
  · rfl
  · rfl

omit [IsStrictOrderedRing α] in
theorem level_le (b : Bucket α) (now : α) : level budget rate b now ≤ budget := min_le_left _ _

omit [IsStrictOrderedRing α] in
/-- A use sees the level only. -/
theorem take_congr (b b' : Bucket α) (now cost : α)
    (h : level budget rate b now = level budget rate b' now) :
    take budget rate b now cost = take budget rate b' now cost := by
  rw [take, take, h]

theorem level_le_refilled (b : Bucket α) (now : α) (h : b.stamp ≤ now) :
    level budget rate b now ≤ b.remaining + (now - b.stamp) * rate := by
  have hmax : max 0 (now - b.stamp) = now - b.stamp := max_eq_right (sub_nonneg.mpr h)
  rw [level, hmax]
  exact min_le_right _ _

theorem level_nonneg (hbudget : 0 ≤ budget) (hrate : 0 ≤ rate) (b : Bucket α)
    (h : 0 ≤ b.remaining) (now : α) : 0 ≤ level budget rate b now := by
  have hrefill : 0 ≤ max 0 (now - b.stamp) * rate := mul_nonneg (le_max_left _ _) hrate
  exact le_min hbudget (add_nonneg h hrefill)

theorem take_remaining_nonneg (hbudget : 0 ≤ budget) (hrate : 0 ≤ rate) (b : Bucket α)
    (h : 0 ≤ b.remaining) (now cost : α) : 0 ≤ (take budget rate b now cost).2.remaining := by
  unfold take
  split
  · exact level_nonneg budget rate hbudget hrate b h now
  · rename_i hcost
    exact sub_nonneg.mpr (not_lt.mp hcost)

/-- A full bucket stays full. -/
theorem level_full (hrate : 0 ≤ rate) (stamp now : α) :
    level budget rate ⟨stamp, budget⟩ now = budget := by
  have hrefill : 0 ≤ max 0 (now - stamp) * rate := mul_nonneg (le_max_left _ _) hrate
  exact min_eq_left (le_add_of_nonneg_right hrefill)

/-- What the refill reaches: any cost within the budget, from some time on. -/
theorem le_level (hrate : 0 < rate) (b : Bucket α) (cost now : α) (hcost : cost ≤ budget)
    (hnow : b.stamp + (cost - b.remaining) / rate ≤ now) : cost ≤ level budget rate b now := by
  have hwait : (cost - b.remaining) / rate ≤ max 0 (now - b.stamp) :=
    (le_sub_iff_add_le'.mpr hnow).trans (le_max_right _ _)
  have hrefill : cost - b.remaining ≤ max 0 (now - b.stamp) * rate := (div_le_iff₀ hrate).mp hwait
  exact le_min hcost (sub_le_iff_le_add'.mp hrefill)

omit [IsStrictOrderedRing α] in
theorem take_granted_iff (b : Bucket α) (now cost : α) :
    (take budget rate b now cost).1 = true ↔ cost ≤ level budget rate b now := by
  unfold take
  split
  · rename_i hcost
    simpa using hcost
  · rename_i hcost
    simpa using hcost

/-- Reading the level in between changes no later level. -/
theorem level_level (hrate : 0 ≤ rate) (b : Bucket α) (t u : α) (ht : b.stamp ≤ t) (hu : t ≤ u) :
    level budget rate ⟨t, level budget rate b t⟩ u = level budget rate b u := by
  have hmax : max 0 (u - b.stamp) = max 0 (t - b.stamp) + max 0 (u - t) := by
    rw [max_eq_right (sub_nonneg.mpr (ht.trans hu)), max_eq_right (sub_nonneg.mpr ht),
      max_eq_right (sub_nonneg.mpr hu)]
    ring
  have hrefill : 0 ≤ max 0 (u - t) * rate := mul_nonneg (le_max_left _ _) hrate
  unfold level
  rw [hmax, add_mul, ← add_assoc]
  rcases le_total budget (b.remaining + max 0 (t - b.stamp) * rate) with hfull | hpart
  · rw [min_eq_left hfull, min_eq_left (le_add_of_nonneg_right hrefill),
      min_eq_left (hfull.trans (le_add_of_nonneg_right hrefill))]
  · rw [min_eq_right hpart]

/-! ### The allowance of an interval -/

/-- What may still be taken up to `t₁`, counted from `t₀` on. -/
def allowance (t₀ t₁ : α) (b : Bucket α) : α :=
  if b.stamp < t₀ then budget + rate * (t₁ - t₀) else b.remaining + rate * (t₁ - b.stamp)

variable {budget rate}

theorem allowance_nonneg (hbudget : 0 ≤ budget) (hrate : 0 ≤ rate) (t₀ t₁ : α) (ht : t₀ ≤ t₁)
    (b : Bucket α) (h : 0 ≤ b.remaining) (hstamp : b.stamp ≤ t₁) :
    0 ≤ allowance budget rate t₀ t₁ b := by
  unfold allowance
  split
  · exact add_nonneg hbudget (mul_nonneg hrate (sub_nonneg.mpr ht))
  · exact add_nonneg h (mul_nonneg hrate (sub_nonneg.mpr hstamp))

/-- From a stamp inside the interval on, no more than the level and the refill is left. -/
theorem allowance_stamped (hrate : 0 ≤ rate) (t₀ t₁ now left : α) (ht : t₀ ≤ now) (h : left ≤ budget) :
    left + rate * (t₁ - now) ≤ budget + rate * (t₁ - t₀) := by
  have hlater : t₁ - now ≤ t₁ - t₀ := sub_le_sub_left ht t₁
  exact add_le_add h (mul_le_mul_of_nonneg_left hlater hrate)

omit [IsStrictOrderedRing α] in
/-- A use before the interval leaves its allowance. -/
theorem allowance_before (t₀ t₁ now cost : α) (b : Bucket α) (hstamp : b.stamp ≤ now) (hnow : now < t₀) :
    allowance budget rate t₀ t₁ (take budget rate b now cost).2 = allowance budget rate t₀ t₁ b := by
  rw [allowance, allowance, take_stamp, if_pos hnow, if_pos (lt_of_le_of_lt hstamp hnow)]

/-- What a use in the interval takes comes out of the allowance. -/
theorem allowance_take (hrate : 0 ≤ rate) (t₀ t₁ now cost : α) (b : Bucket α)
    (hstamp : b.stamp ≤ now) (hnow : t₀ ≤ now) :
    (if (take budget rate b now cost).1 then cost else 0) +
        allowance budget rate t₀ t₁ (take budget rate b now cost).2 ≤
      allowance budget rate t₀ t₁ b := by
  have hlevel : level budget rate b now + rate * (t₁ - now) ≤ allowance budget rate t₀ t₁ b := by
    unfold allowance
    split
    · exact allowance_stamped hrate t₀ t₁ now _ hnow (level_le budget rate b now)
    · have hrefilled := level_le_refilled budget rate b now hstamp
      have hsplit : (now - b.stamp) * rate + rate * (t₁ - now) = rate * (t₁ - b.stamp) := by ring
      linarith only [hrefilled, hsplit]
  have hafter : ¬ (take budget rate b now cost).2.stamp < t₀ := by
    rw [take_stamp]
    exact not_lt.mpr hnow
  rw [allowance, if_neg hafter, take_stamp]
  unfold take
  split
  · simp only [Bool.false_eq_true, if_false, zero_add]
    exact hlevel
  · simp only [if_true]
    linarith only [hlevel]

end TokenBucket
