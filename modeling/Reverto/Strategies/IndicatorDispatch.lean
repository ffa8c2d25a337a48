import Mathlib.Tactic
import Reverto.Lib.ScriptArray
import Reverto.Strategies.IndicatorEngine
import Reverto.Strategies.ParabolicSar
import Reverto.Strategies.Qfl
import Reverto.Strategies.Supertrend
import Reverto.Strategies.SupportResistance

/-!
# Dispatch of the band and level indicators (strategies/indicator_engine.py)

`_evaluate_indicator` and `_dispatch_indicator` for parabolic SAR, Supertrend, support
and resistance, and QFL. `x or d` is that of a script. The other types, and counts
below zero, are left to a parameter.
-/

namespace Reverto

open Script

namespace IndicatorEngine

variable (other : Signals)

/-- `not series`: none, or an empty list. -/
def isMissing (series : Option (List ℚ)) : Bool := (series.getD []).isEmpty

/-- The `PARABOLIC_SAR` branch. -/
def dispatchParabolicSar (ind : IndicatorConfig) (closes : List ℚ) (highs lows : Option (List ℚ)) :
    Except PyError Bool :=
  if isMissing highs || isMissing lows then .ok false
  else
    ParabolicSar.checkParabolicSarSignal (highs.getD []) (lows.getD []) closes
      (truthyOr ind.initialAf (2 / 100)) (truthyOr ind.maxAf (20 / 100))
      (textOr ind.condition "bullish")

/-- The `SUPERTREND` branch, given its period. -/
def dispatchSupertrend (ind : IndicatorConfig) (closes : List ℚ) (highs lows : Option (List ℚ))
    (atrPeriod : ℕ) : Except PyError Bool :=
  match highs, lows with
  | some hs, some ls =>
    Supertrend.checkSupertrendSignal hs ls closes atrPeriod (truthyOr ind.multiplier 3)
      (textOr ind.condition "bullish")
  | _, _ => .ok false

/-- The `SUPPORT_RESISTANCE` branch, given its counts. -/
def dispatchSupportResistance (ind : IndicatorConfig) (closes : List ℚ)
    (highs lows : Option (List ℚ)) (leftBars rightBars : ℕ) : Except PyError Bool :=
  if isMissing highs || isMissing lows then .ok false
  else
    SupportResistance.checkSupportResistanceSignal (highs.getD []) (lows.getD []) closes
      { leftBars := leftBars
        rightBars := rightBars
        proximityPct := truthyOr ind.proximityPct 1
        condition := textOr ind.condition "price_crossing_down"
        value := textOr ind.value "resistance"
        volumeThreshold := truthyOr ind.volumeThreshold 0
        minTouches := (truthyOr ind.minTouches 1).toNat }

/-- The `QFL` branch, given its counts. -/
def dispatchQfl (ind : IndicatorConfig) (closes : List ℚ) (highs lows : Option (List ℚ))
    (basePeriods pumpPeriods : ℕ) : Except PyError Bool :=
  Qfl.checkQflSignal closes (textOr ind.condition "below_base")
    { basePeriods := basePeriods
      pumpPeriods := pumpPeriods
      pumpPct := truthyOr ind.pumpFromBasePct 3
      baseCrackPct := truthyOr ind.baseCrackPct 3 } highs lows

/-- `_dispatch_indicator` -/
def dispatchIndicator (ind : IndicatorConfig) (closes : List ℚ)
    (highs lows opens : Option (List ℚ)) : Except PyError Bool :=
  let rest := .ok (other.evaluateIndicator ind closes highs lows opens)
  match ind.type.toUpper with
  | "PARABOLIC_SAR" => dispatchParabolicSar ind closes highs lows
  | "SUPERTREND" =>
    match truthyOr ind.atrPeriod 10 with
    | .ofNat atrPeriod => dispatchSupertrend ind closes highs lows atrPeriod
    | .negSucc _ => rest
  | "SUPPORT_RESISTANCE" =>
    match truthyOr ind.leftBars 15, truthyOr ind.rightBars 15 with
    | .ofNat leftBars, .ofNat rightBars =>
      dispatchSupportResistance ind closes highs lows leftBars rightBars
    | _, _ => rest
  | "QFL" =>
    match truthyOr ind.basePeriods 36, truthyOr ind.pumpPeriods 8 with
    | .ofNat basePeriods, .ofNat pumpPeriods =>
      dispatchQfl ind closes highs lows basePeriods pumpPeriods
    | _, _ => rest
  | _ => rest

/-- `_evaluate_indicator`; what raises is False. -/
def evaluateIndicator (ind : IndicatorConfig) (closes : List ℚ)
    (highs lows opens : Option (List ℚ)) : Bool :=
  match dispatchIndicator other ind closes highs lows opens with
  | .ok signal => signal
  | .error _ => false

/-- The signals of the engine. -/
def engineSignals : Signals := { other with evaluateIndicator := evaluateIndicator other }

end IndicatorEngine

end Reverto
