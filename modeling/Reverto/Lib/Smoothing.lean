import Mathlib.Tactic

/-!
# Exponential smoothing

The mean of a series that is moved by a fixed part of the way towards each next value, and
the sum in which each value decays by a fixed factor with every later one.
-/

namespace Smoothing

section Towards

variable {K : Type} [Field K]

/-- The mean moved by the part `a` of the way towards a value. -/
def towards (a m x : K) : K := (1 - a) * m + a * x

/-- The mean behind a series. -/
def smooth (a m : K) (xs : List K) : K := xs.foldl (towards a) m

theorem smooth_cons (a m x : K) (xs : List K) : smooth a m (x :: xs) = smooth a (towards a m x) xs := rfl

theorem smooth_snoc (a m x : K) (xs : List K) :
    smooth a m (xs ++ [x]) = towards a (smooth a m xs) x := by
  rw [smooth, List.foldl_append]
  rfl

/-- Smoothing does not depend on the unit and the origin of the values. -/
theorem smooth_affine (a c d m : K) (xs : List K) :
    smooth a (c * m + d) (xs.map fun x => c * x + d) = c * smooth a m xs + d := by
  induction xs generalizing m with
  | nil => rfl
  | cons x xs ih =>
    have hstep : towards a (c * m + d) (c * x + d) = c * towards a m x + d := by
      rw [towards, towards]
      ring
    rw [List.map_cons, smooth_cons, smooth_cons, hstep, ih]

variable [LinearOrder K] [IsStrictOrderedRing K]

theorem towards_ge (a m x low : K) (h0 : 0 ≤ a) (h1 : a ≤ 1) (hm : low ≤ m) (hx : low ≤ x) :
    low ≤ towards a m x := by
  have hleft : (1 - a) * low ≤ (1 - a) * m := mul_le_mul_of_nonneg_left hm (by linarith)
  have hright : a * low ≤ a * x := mul_le_mul_of_nonneg_left hx h0
  rw [towards]
  linarith

/-- A lower bound of the start and of the values is one of the mean. -/
theorem smooth_ge (a m low : K) (xs : List K) (h0 : 0 ≤ a) (h1 : a ≤ 1) (hm : low ≤ m)
    (hxs : ∀ x ∈ xs, low ≤ x) : low ≤ smooth a m xs := by
  induction xs generalizing m with
  | nil => exact hm
  | cons x xs ih =>
    rw [smooth_cons]
    refine ih _ (towards_ge a m x low h0 h1 hm (hxs x List.mem_cons_self)) fun y hy => ?_
    exact hxs y (List.mem_cons_of_mem x hy)

/-- An upper bound, from the lower bound of the negatives. -/
theorem smooth_le (a m high : K) (xs : List K) (h0 : 0 ≤ a) (h1 : a ≤ 1) (hm : m ≤ high)
    (hxs : ∀ x ∈ xs, x ≤ high) : smooth a m xs ≤ high := by
  have hneg := smooth_ge a (-1 * m + 0) (-high) (xs.map fun x => -1 * x + 0) h0 h1 (by linarith)
    fun y hy => by
      obtain ⟨x, hx, rfl⟩ := List.mem_map.mp hy
      linarith [hxs x hx]
  rw [smooth_affine] at hneg
  linarith

/-- Of two means of a falling series the faster one is behind: it is not above the slower. -/
theorem smooth_lag (a b m : K) (xs : List K) (hb0 : 0 ≤ b) (hba : b ≤ a) (ha1 : a ≤ 1)
    (hfall : (m :: xs).Pairwise fun x y => y ≤ x) : smooth a m xs ≤ smooth b m xs := by
  -- the slower mean stays above the last value, so that both gaps are of one sign
  have hboth : ∀ (ys : List K) (p q : K), p ≤ q → (∀ y ∈ ys, y ≤ q) →
      ys.Pairwise (fun x y => y ≤ x) → smooth a p ys ≤ smooth b q ys := by
    intro ys
    induction ys with
    | nil => exact fun p q hpq _ _ => hpq
    | cons y ys ih =>
      intro p q hpq hq hys
      obtain ⟨hhead, htail⟩ := List.pairwise_cons.mp hys
      have hyq := hq y List.mem_cons_self
      have hgap : (1 - a) * p ≤ (1 - a) * q := mul_le_mul_of_nonneg_left hpq (by linarith)
      have hslow : (a - b) * y ≤ (a - b) * q := mul_le_mul_of_nonneg_left hyq (by linarith)
      have hstep : towards a p y ≤ towards b q y := by
        rw [towards, towards]
        linarith
      have hbelow : y ≤ towards b q y := towards_ge b q y y hb0 (hba.trans ha1) hyq le_rfl
      rw [smooth_cons, smooth_cons]
      exact ih _ _ hstep (fun z hz => (hhead z hz).trans hbelow) htail
  obtain ⟨hhead, htail⟩ := List.pairwise_cons.mp hfall
  exact hboth xs m m le_rfl hhead htail

end Towards

section Decay

variable {K : Type} [Field K]

/-- The sum in which every value decays by `q` with each later one. -/
def decayed (q : K) (xs : List K) : K := xs.foldl (fun s x => q * s + x) 0

theorem decayed_snoc (q x : K) (xs : List K) : decayed q (xs ++ [x]) = q * decayed q xs + x := by
  rw [decayed, List.foldl_append]
  rfl

theorem decayed_scale (q c : K) (xs : List K) :
    decayed q (xs.map fun x => c * x) = c * decayed q xs := by
  induction xs using List.reverseRecOn with
  | nil => exact (mul_zero c).symm
  | append_singleton xs x ih =>
    rw [List.map_append, List.map_singleton, decayed_snoc, decayed_snoc, ih]
    ring

variable [LinearOrder K] [IsStrictOrderedRing K]

theorem decayed_nonneg (q : K) (xs : List K) (hq : 0 ≤ q) (hxs : ∀ x ∈ xs, 0 ≤ x) :
    0 ≤ decayed q xs := by
  induction xs using List.reverseRecOn with
  | nil => exact le_rfl
  | append_singleton xs x ih =>
    have hprior := ih fun y hy => hxs y (List.mem_append_left _ hy)
    have hlast := hxs x (List.mem_append_right _ (List.mem_singleton_self x))
    rw [decayed_snoc]
    exact add_nonneg (mul_nonneg hq hprior) hlast

/-- Values that are not negative and do not all vanish leave something, unless they decay at once. -/
theorem decayed_eq_zero_iff (q : K) (xs : List K) (hq : 0 < q) (hxs : ∀ x ∈ xs, 0 ≤ x) :
    decayed q xs = 0 ↔ ∀ x ∈ xs, x = 0 := by
  induction xs using List.reverseRecOn with
  | nil => exact iff_of_true rfl fun x hx => absurd hx List.not_mem_nil
  | append_singleton xs x ih =>
    have hprior := decayed_nonneg q xs hq.le fun y hy => hxs y (List.mem_append_left _ hy)
    have hlast := hxs x (List.mem_append_right _ (List.mem_singleton_self x))
    have ih := ih fun y hy => hxs y (List.mem_append_left _ hy)
    rw [decayed_snoc, add_eq_zero_iff_of_nonneg (mul_nonneg hq.le hprior) hlast,
      mul_eq_zero_iff_left hq.ne', ih]
    constructor
    · intro h y hy
      rcases List.mem_append.mp hy with hy | hy
      · exact h.1 y hy
      · rw [List.mem_singleton.mp hy]
        exact h.2
    · intro h
      exact ⟨fun y hy => h y (List.mem_append_left _ hy),
        h x (List.mem_append_right _ (List.mem_singleton_self x))⟩

end Decay

end Smoothing
