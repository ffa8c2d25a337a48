import Mathlib.Tactic
import Reverto.Core.MonitorRounds

/-!
# The floor under a take profit (core/trading_engine.py, config/models.py)

`_check_tp` compares the profit at the tick price with `minimum_tp_pct` where the
target is reached. A fill on the wick is at a better price than the tick's, and an
indicator group closes a deal without the comparison.
-/

namespace Reverto

open TradingEngine PriceGuard MonitorRounds

namespace MinimumProfit

variable (cfg : BotConfig) (sig : Signals)

/-! ### Profit along the price -/

/-- The factor by which the profit in percent exceeds the relative move of the price. -/
def pnlFactor (d : PaperDeal) : ℚ :=
  d.totalSize * d.leverage / (d.totalSize / d.leverage) * 100

theorem pnlFactor_nonneg (d : PaperDeal) : 0 ≤ pnlFactor d := by
  have hsquare : (0 : ℚ) ≤ d.leverage * d.leverage := mul_self_nonneg _
  have hratio : (0 : ℚ) ≤ d.totalSize / d.totalSize := by
    by_cases hsize : d.totalSize = 0
    · simp [hsize]
    · simp [hsize]
  have hfactor : pnlFactor d = d.leverage * d.leverage * (d.totalSize / d.totalSize) * 100 := by
    unfold pnlFactor
    rw [div_div_eq_mul_div]
    ring
  rw [hfactor]
  positivity

/-- The relative move of the price in the direction the deal gains. -/
def relativeMove (d : PaperDeal) (price : ℚ) : ℚ :=
  match d.side with
  | .long => (price - d.avgEntryPrice) / price
  | .short => (d.avgEntryPrice - price) / price

theorem calculatePnl_pct (d : PaperDeal) (price : ℚ) (ho : d.orders ≠ []) (hp : 0 < price)
    (havg : 0 < d.avgEntryPrice) :
    (d.calculatePnl price).2 = relativeMove d price * pnlFactor d := by
  have hguard : ¬ (d.orders = [] ∨ price ≤ 0) := by
    rintro (h | h)
    · exact ho h
    · exact absurd hp (not_lt.mpr h)
  rw [PaperDeal.calculatePnl, if_neg hguard, if_neg (not_le.mpr havg)]
  unfold relativeMove pnlFactor
  cases d.side with
  | long =>
    simp only
    ring
  | short =>
    simp only
    ring

/-- A better price moves the deal further. -/
theorem relativeMove_mono (d : PaperDeal) (p q : ℚ) (havg : 0 < d.avgEntryPrice) (hp : 0 < p)
    (hq : 0 < q) (h : reaches d.side q p = true) : relativeMove d p ≤ relativeMove d q := by
  unfold reaches at h
  unfold relativeMove
  cases hside : d.side with
  | long =>
    rw [hside] at h
    have hle : p ≤ q := of_decide_eq_true h
    have hratio : d.avgEntryPrice / q ≤ d.avgEntryPrice / p :=
      div_le_div_of_nonneg_left havg.le hp hle
    simp only [sub_div, div_self hp.ne', div_self hq.ne']
    linarith
  | short =>
    rw [hside] at h
    have hle : q ≤ p := of_decide_eq_true h
    have hratio : d.avgEntryPrice / p ≤ d.avgEntryPrice / q :=
      div_le_div_of_nonneg_left havg.le hq hle
    simp only [sub_div, div_self hp.ne', div_self hq.ne']
    linarith

/-- The profit in percent is no lower at a better price. -/
theorem pnlPct_mono (d : PaperDeal) (p q : ℚ) (hp : 0 < p) (hq : 0 < q)
    (h : reaches d.side q p = true) : (d.calculatePnl p).2 ≤ (d.calculatePnl q).2 := by
  by_cases ho : d.orders = []
  · simp [PaperDeal.calculatePnl, ho]
  by_cases havg : d.avgEntryPrice ≤ 0
  · simp [PaperDeal.calculatePnl, havg]
  rw [calculatePnl_pct d p ho hp (not_le.mp havg), calculatePnl_pct d q ho hq (not_le.mp havg)]
  exact mul_le_mul_of_nonneg_right (relativeMove_mono d p q (not_le.mp havg) hp hq h)
    (pnlFactor_nonneg d)

/-! ### The floor -/

/-- No take profit of the tick realises less than the configured minimum. -/
def MinimumKept (w : World) (log : List EngineEvent) : Prop :=
  ∀ m ∈ cfg.takeProfit.minimumTpPct, ∀ d ∈ w.engine.state.openDeals.items, ∀ f trigger,
    .tpClosed d.id f trigger ∈ log → m ≤ (d.calculatePnl f).2

/-- An indicator group closes the deal: neither price nor wick reaches its target. -/
def GroupFires (c : Candles) (price : ℚ) (d : PaperDeal) : Prop :=
  (∃ pct target, tpTargetPct cfg d = some pct ∧
    computeTpTargetPrice d.avgEntryPrice pct d.side = .ok target ∧
    wickHit cfg d price target = false ∧ reaches d.side price target = false) ∧
  (IndicatorEngine.checkTpIndicatorGroups cfg sig c).isSome = true

/-- No group fires below the minimum, and no wick fills below it where the price or
the target is not positive. -/
def MinimumSafe (inp : TickInput) (w : World) : Prop :=
  ∀ t, inp.ticker = .ok t → ∀ m ∈ cfg.takeProfit.minimumTpPct,
    ∀ d ∈ w.engine.state.openDeals.items,
      (GroupFires cfg sig inp.candles t.tickPrice (trackWick t.tickPrice d) →
        m ≤ (d.calculatePnl t.tickPrice).2) ∧
      ∀ target, TargetFills cfg sig inp.candles t.tickPrice (trackWick t.tickPrice d) target →
        reaches d.side t.tickPrice target = false → t.tickPrice ≤ 0 ∨ target ≤ 0 →
          m ≤ (d.calculatePnl target).2

theorem tpVerdict_indicatorFill_iff (c : Candles) (price : ℚ) (d : PaperDeal) :
    (∃ info, tpVerdict cfg sig c d price = .ok (.indicatorFill info)) ↔
      GroupFires cfg sig c price d := by
  unfold tpVerdict GroupFires
  cases tpTargetPct cfg d with
  | none => simp
  | some pct =>
    cases htarget : computeTpTargetPrice d.avgEntryPrice pct d.side with
    | error x => simp [htarget, bind, Except.bind]
    | ok target =>
      have hmiss : (∃ pct' target', some pct = some pct' ∧
          computeTpTargetPrice d.avgEntryPrice pct' d.side = .ok target' ∧
          wickHit cfg d price target' = false ∧ reaches d.side price target' = false) ↔
          ¬ (wickHit cfg d price target = true ∨ reaches d.side price target = true) := by
        constructor
        · rintro ⟨pct', target', hpct, h, hwick, hreach⟩
          cases hpct
          cases Except.ok.inj (h.symm.trans htarget)
          simp [hwick, hreach]
        · intro h
          obtain ⟨hwick, hreach⟩ := not_or.mp h
          exact ⟨pct, target, rfl, htarget, by simpa using hwick, by simpa using hreach⟩
      simp only [hmiss, bind, Except.bind, pure, Except.pure, htarget]
      by_cases hhit : wickHit cfg d price target = true ∨ reaches d.side price target = true
      · have hor : (wickHit cfg d price target || reaches d.side price target) = true := by
          simpa using hhit
        simp only [hor, if_true, hhit, not_true_eq_false, false_and, iff_false, not_exists]
        intro info
        cases tpGates cfg sig c d price with
        | error x => simp
        | ok passed => cases passed <;> simp
      · have hor : (wickHit cfg d price target || reaches d.side price target) = false := by
          simpa using hhit
        simp only [hor, hhit, not_false_eq_true, true_and, Bool.false_eq_true, if_false]
        cases IndicatorEngine.checkTpIndicatorGroups cfg sig c with
        | none => simp
        | some info => simp

/-- A target fill has passed the comparison with the minimum at the tick price. -/
theorem tpGates_minimum (c : Candles) (price : ℚ) (d : PaperDeal) (m : ℚ)
    (hm : m ∈ cfg.takeProfit.minimumTpPct) (h : tpGates cfg sig c d price = .ok true) :
    m ≤ (d.calculatePnl price).2 := by
  have hmin : cfg.takeProfit.minimumTpPct = some m := hm
  by_contra hlt
  simp [tpGates, hmin, not_le.mp hlt] at h

theorem reaches_of_not (side : Side) (p q : ℚ) (h : reaches side p q = false) :
    reaches side q p = true := by
  unfold reaches at h ⊢
  cases side with
  | long => simpa using (not_le.mp (of_decide_eq_false h)).le
  | short => simpa using (not_le.mp (of_decide_eq_false h)).le

/-! ### The ticks of a life -/

/-- In every life, the take profits of a tick realise the minimum exactly when no
indicator group fires below it, and no wick fills below it at a price or target that
is not positive. -/
theorem minimumKept_iff (initialBalanceBtc : ℚ) (ls : List LifeStep) (inp : TickInput) :
    MinimumKept cfg (afterLife cfg sig initialBalanceBtc ls)
        (tick cfg sig inp (afterLife cfg sig initialBalanceBtc ls)).log ↔
      MinimumSafe cfg sig inp (afterLife cfg sig initialBalanceBtc ls) := by
  have hone := (oneOpen_life cfg sig initialBalanceBtc ls).memory
  generalize afterLife cfg sig initialBalanceBtc ls = w at hone ⊢
  constructor
  · intro h t ht m hm d hd
    refine ⟨fun hfires => ?_, fun target hfills hreach _ => ?_⟩
    · obtain ⟨info, hv⟩ := (tpVerdict_indicatorFill_iff cfg sig _ _ _).mpr hfires
      exact h m hm d hd _ _
        ((tick_tpClosed_iff cfg sig inp w hone d hd _ _).mpr ⟨t, ht, Or.inr ⟨info, hv, rfl, rfl⟩⟩)
    · have hfill : target =
          if reaches (trackWick t.tickPrice d).side t.tickPrice target then t.tickPrice
          else target := (if_neg (Bool.eq_false_iff.mp hreach)).symm
      have hv := (tpVerdict_priceFill_iff cfg sig _ _ _ _).mpr ⟨target, hfills, hfill⟩
      exact h m hm d hd _ _
        ((tick_tpClosed_iff cfg sig inp w hone d hd _ _).mpr ⟨t, ht, Or.inl ⟨hv, rfl⟩⟩)
  · intro h m hm d hd f trigger hlog
    obtain ⟨t, ht, ⟨hv, _⟩ | ⟨info, hv, rfl, _⟩⟩ :=
      (tick_tpClosed_iff cfg sig inp w hone d hd f trigger).mp hlog
    · obtain ⟨target, hfills, hf⟩ := (tpVerdict_priceFill_iff cfg sig _ _ _ _).mp hv
      have hgate : m ≤ (d.calculatePnl t.tickPrice).2 :=
        tpGates_minimum cfg sig _ _ (trackWick t.tickPrice d) m hm hfills.2.2
      cases hreach : reaches d.side t.tickPrice target with
      | true =>
        have hprice : f = t.tickPrice := hf.trans (if_pos hreach)
        rw [hprice]
        exact hgate
      | false =>
        have htarget : f = target := hf.trans (if_neg (Bool.eq_false_iff.mp hreach))
        rw [htarget]
        by_cases hpos : t.tickPrice ≤ 0 ∨ target ≤ 0
        · exact (h t ht m hm d hd).2 target hfills hreach hpos
        · -- the wick is at a better price than the tick
          obtain ⟨hprice, htarget⟩ := not_or.mp hpos
          exact hgate.trans (pnlPct_mono d _ _ (not_le.mp hprice) (not_le.mp htarget)
            (reaches_of_not _ _ _ hreach))
    · exact (h t ht m hm d hd).1 ((tpVerdict_indicatorFill_iff cfg sig _ _ _).mp ⟨info, hv⟩)

/-! ### A group that fires below the minimum -/

/-- A minimum of 2% and a take-profit group with one indicator. -/
def flooredBot : BotConfig :=
  { BotConfig.small "floored" with
    stopLoss := .off
    takeProfit := .floored 2 (by norm_num) [⟨1, "exit", [.ofType "RSI" none]⟩] }

/-- Signals that always fire. -/
def eager : Signals := ⟨fun _ _ => .ok true, fun _ _ _ _ _ => true⟩

/-- Opened at 100, the deal is closed at 100 with a profit of nothing. -/
theorem not_minimumKept_group :
    ¬ ∀ (cfg : BotConfig) (sig : Signals) (initialBalanceBtc : ℚ) (ls : List LifeStep)
      (inp : TickInput), MinimumKept cfg (afterLife cfg sig initialBalanceBtc ls)
        (tick cfg sig inp (afterLife cfg sig initialBalanceBtc ls)).log := by
  intro h
  have hclosed : ∃ d ∈ (afterLife flooredBot eager 1
        [.tick (.atPrice 100)]).engine.state.openDeals.items,
      .tpClosed d.id 100 (.indicatorTp "exit" ["RSI"]) ∈
        (tick flooredBot eager (.atPrice 100)
          (afterLife flooredBot eager 1 [.tick (.atPrice 100)])).log ∧
      ¬ 2 ≤ (d.calculatePnl 100).2 := by decide +kernel
  obtain ⟨d, hd, hlog, hlow⟩ := hclosed
  exact hlow (h flooredBot eager 1 [.tick (.atPrice 100)] (.atPrice 100) 2 rfl d hd 100 _ hlog)

end MinimumProfit

end Reverto
