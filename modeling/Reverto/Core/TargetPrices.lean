import Mathlib.Tactic
import Reverto.Core.MinimumProfit

/-!
# Targets and reported PnL (core/inverse_perp_math.py, paper/paper_state.py)

A price is at or beyond a target exactly where `calculate_pnl` reports the configured
percentage, times the leverage squared. The PnL of a deal is that of its orders.
-/

namespace Reverto

open TradingEngine MinimumProfit

namespace TargetPrices

variable (d : PaperDeal)

/-- An order of the deal as a deal of its own. -/
def alone (o : PaperOrder) : PaperDeal := { d with orders := [o] }

/-- Orders at positive prices and of positive sizes, and a leverage. -/
structure Filled : Prop where
  orders : d.orders ≠ []
  price : ∀ o ∈ d.orders, 0 < o.price
  size : ∀ o ∈ d.orders, 0 < o.size
  leverage : 1 ≤ d.leverage

/-- The targets of a percentage and the PnL reported at a price agree. -/
structure TargetsAgree (pct price : ℚ) : Prop where
  takeProfit : ∃ target, computeTpTargetPrice d.avgEntryPrice pct d.side = .ok target ∧
    (reaches d.side price target = true ↔ (d.leverage : ℚ) ^ 2 * pct ≤ (d.calculatePnl price).2)
  stopLoss : ∃ target, computeSlTargetPrice d.avgEntryPrice pct d.side = .ok target ∧
    (slHit d.side price target = true ↔ (d.calculatePnl price).2 ≤ -((d.leverage : ℚ) ^ 2 * pct))
  additive : (d.calculatePnl price).1 =
    (d.orders.map fun o => ((alone d o).calculatePnl price).1).sum

/-! ### The average entry -/

variable {d}

theorem sum_pos (f : PaperOrder → ℚ) (l : List PaperOrder) (hne : l ≠ []) (hf : ∀ o ∈ l, 0 < f o) :
    0 < (l.map f).sum := by
  refine List.sum_pos _ ?_ ?_
  · intro x hx
    obtain ⟨o, ho, rfl⟩ := List.mem_map.mp hx
    exact hf o ho
  · intro h
    exact hne (List.map_eq_nil_iff.mp h)

theorem Filled.totalSize (h : Filled d) : 0 < d.totalSize :=
  sum_pos PaperOrder.size d.orders h.orders h.size

theorem Filled.avg (h : Filled d) : 0 < d.avgEntryPrice := by
  rw [PaperDeal.avgEntryPrice, if_neg h.orders]
  have hvalue : 0 < (d.orders.map fun o => o.price * o.size).sum :=
    sum_pos (fun o => o.price * o.size) d.orders h.orders
      fun o ho => mul_pos (h.price o ho) (h.size o ho)
  exact div_pos hvalue h.totalSize

theorem Filled.alone (h : Filled d) (o : PaperOrder) (ho : o ∈ d.orders) : Filled (alone d o) := by
  refine ⟨List.cons_ne_nil _ _, ?_, ?_, h.leverage⟩
  · intro x hx
    rw [List.mem_singleton.mp hx]
    exact h.price o ho
  · intro x hx
    rw [List.mem_singleton.mp hx]
    exact h.size o ho

/-- The value of the orders is that of the whole size at the average. -/
theorem avg_mul_size (h : Filled d) :
    d.avgEntryPrice * d.totalSize = (d.orders.map fun o => o.price * o.size).sum := by
  rw [PaperDeal.avgEntryPrice, if_neg h.orders]
  exact div_mul_cancel₀ _ (ne_of_gt h.totalSize)

/-! ### The reported percentage -/

theorem pct_eq (h : Filled d) (price : ℚ) (hp : 0 < price) :
    (d.calculatePnl price).2 = (d.leverage : ℚ) ^ 2 * 100 * relativeMove d price := by
  have hsize : d.totalSize ≠ 0 := ne_of_gt h.totalSize
  have hleverage : (d.leverage : ℚ) ≠ 0 := by
    have hpos := h.leverage
    exact_mod_cast (by omega : d.leverage ≠ 0)
  have hfactor : pnlFactor d = (d.leverage : ℚ) ^ 2 * 100 := by
    unfold pnlFactor
    field_simp
  rw [calculatePnl_pct d price h.orders hp h.avg, hfactor]
  ring

theorem leverage_pos (h : Filled d) : (0 : ℚ) < (d.leverage : ℚ) ^ 2 := by
  have hpos := h.leverage
  have hcast : (0 : ℚ) < d.leverage := by exact_mod_cast (by omega : 0 < d.leverage)
  exact pow_pos hcast 2

/-- A gain in percent of the margin is a relative move of the price. -/
theorem gain_iff (h : Filled d) (pct price : ℚ) (hp : 0 < price) :
    (d.leverage : ℚ) ^ 2 * pct ≤ (d.calculatePnl price).2 ↔ pct / 100 ≤ relativeMove d price := by
  have hsquare := leverage_pos h
  rw [pct_eq h price hp, mul_assoc, mul_le_mul_iff_right₀ hsquare, div_le_iff₀ (by norm_num), mul_comm]

theorem loss_iff (h : Filled d) (pct price : ℚ) (hp : 0 < price) :
    (d.calculatePnl price).2 ≤ -((d.leverage : ℚ) ^ 2 * pct) ↔ relativeMove d price ≤ -(pct / 100) := by
  have hsquare := leverage_pos h
  rw [pct_eq h price hp, ← mul_neg, mul_assoc, mul_le_mul_iff_right₀ hsquare, ← neg_div,
    le_div_iff₀ (by norm_num), mul_comm]

/-! ### The targets -/

theorem takeProfit_iff (pct price : ℚ) (h0 : 0 < pct) (h1 : pct < 100) (hp : 0 < price) :
    ∃ target, computeTpTargetPrice d.avgEntryPrice pct d.side = .ok target ∧
      (reaches d.side price target = true ↔ pct / 100 ≤ relativeMove d price) := by
  unfold reaches relativeMove
  cases d.side with
  | long =>
    have hpos : 0 < 1 - pct / 100 := by linarith
    refine ⟨_, pyDiv_ok _ _ (ne_of_gt hpos), ?_⟩
    rw [decide_eq_true_iff, div_le_iff₀ hpos, le_div_iff₀ hp]
    constructor
    · intro h
      linarith
    · intro h
      linarith
  | short =>
    have hpos : 0 < 1 + pct / 100 := by linarith
    refine ⟨_, pyDiv_ok _ _ (ne_of_gt hpos), ?_⟩
    rw [decide_eq_true_iff, le_div_iff₀ hpos, le_div_iff₀ hp]
    constructor
    · intro h
      linarith
    · intro h
      linarith

theorem stopLoss_iff (pct price : ℚ) (h0 : 0 < pct) (h1 : pct < 100) (hp : 0 < price) :
    ∃ target, computeSlTargetPrice d.avgEntryPrice pct d.side = .ok target ∧
      (slHit d.side price target = true ↔ relativeMove d price ≤ -(pct / 100)) := by
  unfold slHit relativeMove
  cases d.side with
  | long =>
    have hpos : 0 < 1 + pct / 100 := by linarith
    refine ⟨_, pyDiv_ok _ _ (ne_of_gt hpos), ?_⟩
    rw [decide_eq_true_iff, le_div_iff₀ hpos, div_le_iff₀ hp]
    constructor
    · intro h
      linarith
    · intro h
      linarith
  | short =>
    have hpos : 0 < 1 - pct / 100 := by linarith
    refine ⟨_, pyDiv_ok _ _ (ne_of_gt hpos), ?_⟩
    rw [decide_eq_true_iff, div_le_iff₀ hpos, div_le_iff₀ hp]
    constructor
    · intro h
      linarith
    · intro h
      linarith

/-! ### The PnL of the orders -/

/-- The PnL in terms of the size and the value of the orders. -/
theorem pnl_eq (h : Filled d) (price : ℚ) (hp : 0 < price) :
    (d.calculatePnl price).1 =
      (match d.side with
        | .long => price * d.totalSize - (d.orders.map fun o => o.price * o.size).sum
        | .short => (d.orders.map fun o => o.price * o.size).sum - price * d.totalSize) /
        price * d.leverage := by
  have hguard : ¬ (d.orders = [] ∨ price ≤ 0) := by
    intro hor
    rcases hor with hnil | hle
    · exact h.orders hnil
    · exact absurd hp (not_lt.mpr hle)
  rw [← avg_mul_size h, PaperDeal.calculatePnl, if_neg hguard, if_neg (not_le.mpr h.avg)]
  cases d.side with
  | long =>
    dsimp only
    ring
  | short =>
    dsimp only
    ring

theorem sum_linear (a b : ℚ) (l : List PaperOrder) :
    (l.map fun o => a * o.size + b * (o.price * o.size)).sum =
      a * (l.map PaperOrder.size).sum + b * (l.map fun o => o.price * o.size).sum := by
  induction l with
  | nil => simp
  | cons o l ih =>
    simp only [List.map_cons, List.sum_cons, ih]
    ring

theorem pnl_additive (h : Filled d) (price : ℚ) (hp : 0 < price) :
    (d.calculatePnl price).1 = (d.orders.map fun o => ((alone d o).calculatePnl price).1).sum := by
  have hone : ∀ o ∈ d.orders, ((alone d o).calculatePnl price).1 =
      (match d.side with
        | .long => price * o.size - o.price * o.size
        | .short => o.price * o.size - price * o.size) / price * d.leverage := by
    intro o ho
    rw [pnl_eq (h.alone o ho) price hp]
    simp only [alone, PaperDeal.totalSize, List.map_cons, List.map_nil, List.sum_cons, List.sum_nil,
      add_zero]
  rw [List.map_congr_left hone, pnl_eq h price hp]
  cases d.side with
  | long =>
    have hterm : (fun o : PaperOrder => (price * o.size - o.price * o.size) / price * d.leverage) =
        fun o => (price / price * d.leverage) * o.size + (-(d.leverage / price)) * (o.price * o.size) := by
      funext o
      ring
    dsimp only
    rw [hterm, sum_linear, PaperDeal.totalSize]
    ring
  | short =>
    have hterm : (fun o : PaperOrder => (o.price * o.size - price * o.size) / price * d.leverage) =
        fun o => (-(price / price * d.leverage)) * o.size + (d.leverage / price) * (o.price * o.size) := by
      funext o
      ring
    dsimp only
    rw [hterm, sum_linear, PaperDeal.totalSize]
    ring

/-- Targets and reports agree for every filled deal. -/
theorem targetsAgree (h : Filled d) (pct price : ℚ) (h0 : 0 < pct) (h1 : pct < 100) (hp : 0 < price) :
    TargetsAgree d pct price where
  takeProfit := by
    obtain ⟨target, htarget, hiff⟩ := takeProfit_iff (d := d) pct price h0 h1 hp
    exact ⟨target, htarget, hiff.trans (gain_iff h pct price hp).symm⟩
  stopLoss := by
    obtain ⟨target, htarget, hiff⟩ := stopLoss_iff (d := d) pct price h0 h1 hp
    exact ⟨target, htarget, hiff.trans (loss_iff h pct price hp).symm⟩
  additive := pnl_additive h price hp

/-- A short with a DCA order and a leverage of 3. -/
def ladderedShort : PaperDeal where
  id := "202501010000-0001"
  botName := "laddered"
  symbol := "BTC/USD"
  side := .short
  leverage := 3
  orders := [⟨1, 63000, 1 / 100, 0, .base⟩, ⟨2, 64890, 3 / 200, 0, .dca⟩]
  openedAt := 0

theorem targetsAgree_ladderedShort : TargetsAgree ladderedShort 3 62000 :=
  targetsAgree ⟨by decide, by decide +kernel, by decide +kernel, by decide⟩ 3 62000 (by decide +kernel)
    (by decide +kernel) (by decide +kernel)

end TargetPrices

end Reverto
