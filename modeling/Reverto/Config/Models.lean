import Mathlib.Tactic

/-!
# Bot configuration (config/models.py, DrawdownGuardConfig of core/drawdown_guard.py)

The pydantic models a bot YAML is validated against. A bound of a `Field` is a
field of the structure, so a configuration the loader refuses cannot be built.
-/

namespace Reverto

/-- `direction` of the config and `side` of a deal. -/
inductive Side where
  | long
  | short
  deriving DecidableEq, Repr

/-- The literals of `IndicatorConfig.timeframe`. -/
inductive Timeframe where
  | m15
  | m30
  | h1
  | h2
  | h4
  | h12
  | d1
  deriving DecidableEq, Repr

/-- `StopLossConfig.type` -/
inductive StopLossType where
  | none
  | fixed
  | trailing
  deriving DecidableEq, Repr

/-- `LiquidationGuard` -/
structure LiquidationGuardConfig where
  warnPct : ℚ := 15
  emergencyClosePct : ℚ := 5
  deriving DecidableEq, Repr

/-- `LeverageConfig` -/
structure LeverageConfig where
  enabled : Bool := false
  size : ℕ := 1
  liquidationGuard : LiquidationGuardConfig := {}
  size_ge : 1 ≤ size := by norm_num
  size_le : size ≤ 125 := by norm_num
  deriving DecidableEq

/-- Twofold leverage, not enabled. -/
def LeverageConfig.twofold : LeverageConfig := { size := 2 }

/-- `DCAConfig` -/
structure DCAConfig where
  enabled : Bool := true
  baseOrderSize : ℚ
  maxOrders : ℕ := 5
  orderSpacingPct : ℚ := 5 / 2
  multiplier : ℚ := 1
  stepScale : ℚ := 1
  takerFee : ℚ := 6 / 10000
  maxCumulativeSize : Option ℚ := none
  baseOrderSize_pos : 0 < baseOrderSize := by norm_num
  maxOrders_le : maxOrders ≤ 50 := by norm_num
  orderSpacingPct_pos : 0 < orderSpacingPct := by norm_num
  orderSpacingPct_le : orderSpacingPct ≤ 50 := by norm_num
  multiplier_pos : 0 < multiplier := by norm_num
  multiplier_le : multiplier ≤ 10 := by norm_num
  stepScale_pos : 0 < stepScale := by norm_num
  stepScale_le : stepScale ≤ 5 := by norm_num
  takerFee_nonneg : 0 ≤ takerFee := by norm_num
  takerFee_le : takerFee ≤ 1 / 100 := by norm_num
  maxCumulativeSize_pos : ∀ m ∈ maxCumulativeSize, 0 < m := by simp
  deriving DecidableEq

/-- A ladder with a ceiling on its total size. -/
def DCAConfig.capped (size cap : ℚ) (hsize : 0 < size) (hcap : 0 < cap) : DCAConfig :=
  { baseOrderSize := size
    maxCumulativeSize := some cap
    baseOrderSize_pos := hsize
    maxCumulativeSize_pos := by simpa using hcap }

/-- Orders of 0.01 BTC with a cap. -/
def DCAConfig.smallCapped (cap : ℚ) (h : 0 < cap) : DCAConfig :=
  .capped (1 / 100) cap (by norm_num) h

/-- Three orders, of which the last is larger. -/
def DCAConfig.growing : DCAConfig := { baseOrderSize := 1 / 100, maxOrders := 3, multiplier := 5 / 2 }

/-- `IndicatorConfig` -/
structure IndicatorConfig where
  type : String
  period : Option ℤ := none
  threshold : Option String := none
  fast : Option ℤ := none
  slow : Option ℤ := none
  signal : Option String := none
  timeframe : Option Timeframe := none
  condition : Option String := none
  priceSource : Option String := none
  macdFast : Option ℤ := none
  macdSlow : Option ℤ := none
  macdSignal : Option ℤ := none
  oscillatorMaType : Option String := none
  signalMaType : Option String := none
  usePercentile : Option Bool := none
  multiplier : Option ℚ := none
  maType : Option String := none
  squeezeThreshold : Option ℚ := none
  value : Option String := none
  initialAf : Option ℚ := none
  maxAf : Option ℚ := none
  atrPeriod : Option ℤ := none
  lookback : Option ℤ := none
  triggerType : Option String := none
  leftBars : Option ℤ := none
  rightBars : Option ℤ := none
  proximityPct : Option ℚ := none
  volumeThreshold : Option ℚ := none
  minTouches : Option ℤ := none
  basePeriods : Option ℤ := none
  pumpPeriods : Option ℤ := none
  pumpFromBasePct : Option ℚ := none
  baseCrackPct : Option ℚ := none
  squeezeThreshold_pos : ∀ t ∈ squeezeThreshold, 0 < t := by simp
  volumeThreshold_nonneg : ∀ t ∈ volumeThreshold, 0 ≤ t := by simp
  minTouches_ge : ∀ t ∈ minTouches, 1 ≤ t := by simp
  deriving DecidableEq

/-- An indicator with its parameters left to their defaults. -/
def IndicatorConfig.ofType (type : String) (timeframe : Option Timeframe) : IndicatorConfig :=
  { type := type, timeframe := timeframe }

/-- `IndicatorGroup` -/
structure IndicatorGroup where
  id : ℤ := 1
  name : String := ""
  indicators : List IndicatorConfig := []
  deriving DecidableEq

/-- `EntryConfig` -/
structure EntryConfig where
  indicators : List IndicatorConfig := []
  indicatorGroups : List IndicatorGroup := []
  deriving DecidableEq

/-- `TakeProfitConfig` -/
structure TakeProfitConfig where
  enabled : Bool := true
  targetPct : ℚ := 3
  priceEnabled : Bool := true
  indicatorConfirm : Option String := none
  minimumTpPct : Option ℚ := none
  indicatorGroups : List IndicatorGroup := []
  targetPct_pos : 0 < targetPct := by norm_num
  targetPct_le : targetPct ≤ 100 := by norm_num
  minimumTpPct_range : ∀ m ∈ minimumTpPct, 0 ≤ m ∧ m ≤ 100 := by simp
  deriving DecidableEq

/-- The highest target the field accepts. -/
def TakeProfitConfig.full : TakeProfitConfig := { targetPct := 100 }

/-- No take profit on the price. -/
def TakeProfitConfig.indicatorOnly : TakeProfitConfig := { priceEnabled := false }

/-- A take profit that waits for a condition of MACD. -/
def TakeProfitConfig.confirmed (condition : String) : TakeProfitConfig :=
  { indicatorConfirm := some condition }

/-- A minimum profit under the groups that may take it. -/
def TakeProfitConfig.floored (minimumTpPct : ℚ) (h : 0 ≤ minimumTpPct ∧ minimumTpPct ≤ 100)
    (indicatorGroups : List IndicatorGroup) : TakeProfitConfig :=
  { minimumTpPct := some minimumTpPct
    indicatorGroups := indicatorGroups
    minimumTpPct_range := by simpa using h }

/-- `StopLossConfig` -/
structure StopLossConfig where
  type : StopLossType := .fixed
  pct : ℚ := 5
  pct_nonneg : 0 ≤ pct := by norm_num
  pct_le : pct ≤ 100 := by norm_num
  deriving DecidableEq

/-- No stop loss. -/
def StopLossConfig.off : StopLossConfig := { type := .none }

/-- A stop that follows the price. -/
def StopLossConfig.trailing : StopLossConfig := { type := .trailing }

/-- `DrawdownGuardConfig.metric` -/
inductive DrawdownMetric where
  | equity
  | balance
  deriving DecidableEq, Repr

/-- `DrawdownGuardConfig.action` -/
inductive DrawdownAction where
  | pause
  | stop
  deriving DecidableEq, Repr

/-- `DrawdownGuardConfig` -/
structure DrawdownGuardConfig where
  enabled : Bool := false
  maxDrawdownPct : ℚ := 10
  metric : DrawdownMetric := .equity
  action : DrawdownAction := .pause
  maxDrawdownPct_pos : 0 < maxDrawdownPct := by norm_num
  maxDrawdownPct_le : maxDrawdownPct ≤ 100 := by norm_num
  deriving DecidableEq

/-- The guard on the balance. -/
def DrawdownGuardConfig.onBalance : DrawdownGuardConfig := { enabled := true, metric := .balance }

/-- `BotConfig`, the fields the engine reads. -/
structure BotConfig where
  name : String
  pair : String := "BTC/USD"
  direction : Side := .long
  timeframe : Timeframe := .h1
  useWickSimulation : Bool := true
  leverage : LeverageConfig := {}
  dca : DCAConfig
  entry : EntryConfig := {}
  takeProfit : TakeProfitConfig := {}
  stopLoss : StopLossConfig := {}
  drawdownGuard : DrawdownGuardConfig := {}
  timeframe_engine : timeframe = .m15 ∨ timeframe = .h1 ∨ timeframe = .h4 ∨ timeframe = .d1 :=
    by decide
  deriving DecidableEq

/-- A bot with a base order and every other field at its default. -/
def BotConfig.ofBaseOrder (name : String) (size : ℚ) (h : 0 < size) : BotConfig :=
  { name := name, dca := { baseOrderSize := size, baseOrderSize_pos := h } }

/-- A base order of 0.01 BTC. -/
def BotConfig.small (name : String) : BotConfig := .ofBaseOrder name (1 / 100) (by norm_num)

/-- `self.config.leverage.size` as the number the PnL formula multiplies by. -/
def BotConfig.leverageSize (cfg : BotConfig) : ℚ := cfg.leverage.size

end Reverto
