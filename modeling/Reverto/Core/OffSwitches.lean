import Mathlib.Tactic
import Reverto.Core.MonitorRounds

/-!
# Exits that are switched off (core/trading_engine.py, config/models.py)

The stop-loss type `none` and the take-profit switches of the configuration, merged
with the overrides of a deal. `_check_tp` reads no `price_enabled`, and `_check_sl`
treats every type of an override but `trailing` as fixed.
-/

namespace Reverto

open TradingEngine PriceGuard MonitorRounds

namespace OffSwitches

variable (cfg : BotConfig) (sig : Signals)

/-! ### Effective settings -/

/-- The stop-loss type of a deal: its override's where that names one, else the
configuration's. -/
def effectiveSlType (d : PaperDeal) : SlType :=
  match d.slOverride with
  | some ov => ov.type.getD (slTypeOf cfg.stopLoss.type)
  | none => slTypeOf cfg.stopLoss.type

/-- The price take profit of a deal is off, by the configuration or by its override. -/
def priceTpOff (d : PaperDeal) : Bool :=
  !cfg.takeProfit.priceEnabled ||
    match d.tpOverride with
    | some ov => decide (ov.enabled = some false)
    | none => false

/-- No exit that is switched off for a deal open before the tick closes it. -/
def OffKept (w : World) (log : List EngineEvent) : Prop :=
  ∀ d ∈ w.engine.state.openDeals.items,
    (effectiveSlType cfg d = .none → ∀ f, .slClosed d.id f ∉ log) ∧
    (priceTpOff cfg d = true → ∀ f, .tpClosed d.id f .priceTp ∉ log)

/-! ### When they fire all the same -/

/-- An override that is not disabled has a line, and the price is beyond it. -/
def OverrideStops (price : ℚ) (d : PaperDeal) : Prop :=
  ∃ ov line, d.slOverride = some ov ∧ ov.enabled.getD true = true ∧
    computeSlTargetPrice d.avgEntryPrice (ov.pct.getD cfg.stopLoss.pct) d.side = .ok line ∧
    slHit d.side price line = true

/-- No open deal whose stop-loss type is `none` comes to a line of its override, and
none whose price take profit is off to its target. -/
def OffSafe (inp : TickInput) (w : World) : Prop :=
  ∀ t, inp.ticker = .ok t → ∀ d ∈ w.engine.state.openDeals.items,
    (effectiveSlType cfg d = .none →
      tpPasses cfg sig inp.candles t.tickPrice (trackWick t.tickPrice d) = true →
      ¬ OverrideStops cfg t.tickPrice d) ∧
    (priceTpOff cfg d = true → ∀ target,
      ¬ TargetFills cfg sig inp.candles t.tickPrice (trackWick t.tickPrice d) target)

/-- A deal of type `none` is stopped by its override only. -/
theorem slCloses_iff (price : ℚ) (d : PaperDeal) (h : effectiveSlType cfg d = .none) :
    (∃ s, slSettings cfg d = some s ∧ slVerdict cfg d price s = .ok true) ↔
      OverrideStops cfg price d := by
  unfold effectiveSlType at h
  unfold slSettings OverrideStops
  cases hov : d.slOverride with
  | none =>
    rw [hov] at h
    have htype : cfg.stopLoss.type = .none := by
      cases ht : cfg.stopLoss.type with
      | none => rfl
      | fixed => simp [ht, slTypeOf] at h
      | trailing => simp [ht, slTypeOf] at h
    simp [htype]
  | some ov =>
    rw [hov] at h
    simp only at h ⊢
    have hverdict : ∀ pct, slVerdict cfg d price (.none, pct) = .ok true ↔
        ∃ line, computeSlTargetPrice d.avgEntryPrice pct d.side = .ok line ∧
          slHit d.side price line = true := by
      intro pct
      simp only [slVerdict, slReference]
      cases computeSlTargetPrice d.avgEntryPrice pct d.side with
      | error x => simp [Except.map]
      | ok line => simp [Except.map]
    by_cases hon : ov.enabled.getD true = true
    · simp only [hon, if_true, h, Option.some.injEq, exists_eq_left', hverdict]
      constructor
      · rintro ⟨line, hline, hhit⟩
        exact ⟨ov, line, rfl, hon, hline, hhit⟩
      · rintro ⟨ov', line, rfl, _, hline, hhit⟩
        exact ⟨line, hline, hhit⟩
    · simp only [if_neg hon]
      constructor
      · rintro ⟨s, hs, _⟩
        cases hs
      · rintro ⟨ov', line, hov', hon', _⟩
        cases hov'
        exact absurd hon' hon

/-! ### The ticks of a life -/

/-- In every life, a tick keeps exits off exactly when no deal with the stop-loss
type `none` comes to a line of its override, and none whose price take profit is off
comes to its target. -/
theorem offKept_iff (initialBalanceBtc : ℚ) (ls : List LifeStep) (inp : TickInput) :
    OffKept cfg (afterLife cfg sig initialBalanceBtc ls)
        (tick cfg sig inp (afterLife cfg sig initialBalanceBtc ls)).log ↔
      OffSafe cfg sig inp (afterLife cfg sig initialBalanceBtc ls) := by
  have hone := (oneOpen_life cfg sig initialBalanceBtc ls).memory
  generalize afterLife cfg sig initialBalanceBtc ls = w at hone ⊢
  constructor
  · intro h t ht d hd
    obtain ⟨hsl, htp⟩ := h d hd
    refine ⟨fun hnone hpass hstop => ?_, fun hoff target hfills => ?_⟩
    · have hcloses := (slCloses_iff cfg t.tickPrice (trackWick t.tickPrice d) hnone).mpr hstop
      exact hsl hnone t.tickPrice
        ((tick_slClosed_iff cfg sig inp w hone d hd _).mpr ⟨t, ht, rfl, hpass, hcloses⟩)
    · have hv := (tpVerdict_priceFill_iff cfg sig _ _ _ _).mpr ⟨target, hfills, rfl⟩
      exact htp hoff _
        ((tick_tpClosed_iff cfg sig inp w hone d hd _ _).mpr ⟨t, ht, Or.inl ⟨hv, rfl⟩⟩)
  · intro h d hd
    constructor
    · intro hnone f hlog
      obtain ⟨t, ht, _, hpass, hcloses⟩ := (tick_slClosed_iff cfg sig inp w hone d hd f).mp hlog
      have hstop := (slCloses_iff cfg t.tickPrice (trackWick t.tickPrice d) hnone).mp hcloses
      exact (h t ht d hd).1 hnone hpass hstop
    · intro hoff f hlog
      obtain ⟨t, ht, ⟨hv, _⟩ | ⟨info, _, _, htrigger⟩⟩ :=
        (tick_tpClosed_iff cfg sig inp w hone d hd f _).mp hlog
      · obtain ⟨target, hfills, _⟩ := (tpVerdict_priceFill_iff cfg sig _ _ _ _).mp hv
        exact (h t ht d hd).2 hoff target hfills
      · cases htrigger

/-! ### A take profit that is off and fills -/

/-- A bot whose price take profit is switched off. -/
def indicatorOnlyBot : BotConfig :=
  { BotConfig.small "indicator-only" with stopLoss := .off, takeProfit := .indicatorOnly }

/-- Opened at 100, the deal is closed at 104 by the price take profit of 3%. -/
theorem not_offKept_price_disabled :
    ¬ ∀ (cfg : BotConfig) (sig : Signals) (initialBalanceBtc : ℚ) (ls : List LifeStep)
      (inp : TickInput), OffKept cfg (afterLife cfg sig initialBalanceBtc ls)
        (tick cfg sig inp (afterLife cfg sig initialBalanceBtc ls)).log := by
  intro h
  have hopen : ∃ d ∈ (afterLife indicatorOnlyBot .silent 1
        [.tick (.atPrice 100)]).engine.state.openDeals.items,
      priceTpOff indicatorOnlyBot d = true ∧ .tpClosed d.id 104 .priceTp ∈
        (tick indicatorOnlyBot .silent (.atPrice 104)
          (afterLife indicatorOnlyBot .silent 1 [.tick (.atPrice 100)])).log := by
    decide +kernel
  obtain ⟨d, hd, hoff, hclosed⟩ := hopen
  exact (h indicatorOnlyBot .silent 1 [.tick (.atPrice 100)] (.atPrice 104) d hd).2 hoff 104 hclosed

end OffSwitches

end Reverto
