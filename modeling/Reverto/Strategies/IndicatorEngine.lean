import Mathlib.Tactic
import Reverto.Core.InversePerpMath
import Reverto.Paper.PaperState

/-!
# Entry and take-profit signals (strategies/indicator_engine.py)

The group logic of the indicator engine. What one indicator says about a
series of candles is the parameter `Signals`.
-/

namespace Reverto

/-- The candle caches of the engine, per timeframe; no closes means no data. -/
structure Candles where
  closesPerTf : Timeframe → List ℚ
  highsPerTf : Timeframe → Option (List ℚ)
  lowsPerTf : Timeframe → Option (List ℚ)

/-- `check_macd_signal` and `_evaluate_indicator` (closes, highs, lows, opens).
The former may raise, the latter answers False where it would. -/
structure Signals where
  checkMacdSignal : List ℚ → String → Except PyError Bool
  evaluateIndicator :
    IndicatorConfig → List ℚ → Option (List ℚ) → Option (List ℚ) → Option (List ℚ) → Bool

/-- Signals that never fire. -/
def Signals.silent : Signals := ⟨fun _ _ => .ok false, fun _ _ _ _ _ => false⟩

namespace IndicatorEngine

/-- One indicator of a group; without closes it blocks the group. -/
def indicatorOk (sig : Signals) (c : Candles) (botTimeframe : Timeframe)
    (ind : IndicatorConfig) : Bool :=
  let tf := ind.timeframe.getD botTimeframe
  match c.closesPerTf tf with
  | [] => false
  | closes => sig.evaluateIndicator ind closes (c.highsPerTf tf) (c.lowsPerTf tf) none

/-- `_eval_groups`: the first group whose indicators all agree. -/
def evalGroups (sig : Signals) (groups : List IndicatorGroup) (c : Candles)
    (botTimeframe : Timeframe) : Option GroupTrigger :=
  groups.findSome? fun g =>
    if g.indicators ≠ [] ∧ g.indicators.all (indicatorOk sig c botTimeframe) = true then
      some ⟨g.id, g.name, g.indicators.map IndicatorConfig.type⟩
    else none

/-- `_all_indicators` -/
def allIndicators (entry : EntryConfig) : List IndicatorConfig :=
  entry.indicators ++ entry.indicatorGroups.flatMap IndicatorGroup.indicators

/-- `check_entry_signal`: `(triggered, trigger_info)`. -/
def checkEntrySignal (cfg : BotConfig) (sig : Signals) (c : Candles) :
    Bool × Option GroupTrigger :=
  if allIndicators cfg.entry = [] ∧ cfg.entry.indicatorGroups = [] then (true, none)
  else if (allIndicators cfg.entry).any fun i => i.type.toUpper = "ASAP" then
    (true, some ⟨0, "ASAP", ["ASAP"]⟩)
  else
    let groups :=
      if cfg.entry.indicatorGroups ≠ [] then
        cfg.entry.indicatorGroups.filter fun g => g.indicators ≠ []
      else if cfg.entry.indicators ≠ [] then
        [{ id := 1, name := "Default", indicators := cfg.entry.indicators }]
      else []
    match evalGroups sig groups c cfg.timeframe with
    | some trigger => (true, some trigger)
    | none => (false, none)

/-- `check_tp_confirmation` -/
def checkTpConfirmation (cfg : BotConfig) (sig : Signals) (c : Candles) : Except PyError Bool :=
  match cfg.takeProfit.indicatorConfirm with
  | none => .ok true
  | some "" => .ok true
  | some condition =>
    match c.closesPerTf cfg.timeframe with
    | [] => .ok false
    | closes => sig.checkMacdSignal closes condition

/-- `check_tp_indicator_groups` -/
def checkTpIndicatorGroups (cfg : BotConfig) (sig : Signals) (c : Candles) :
    Option GroupTrigger :=
  evalGroups sig cfg.takeProfit.indicatorGroups c cfg.timeframe

end IndicatorEngine

end Reverto
