import Mathlib.Tactic
import Reverto.Strategies.IndicatorEngine

/-!
# Market structure (strategies/indicators/market_structure.py)

Swing highs and lows of a series of closes, and the condition on them that the
indicator engine asks for.
-/

namespace Reverto

namespace MarketStructure

/-- A close that beats the `lookback` closes on either side of it. -/
def swingAt (beats : ℚ → ℚ → Bool) (closes : List ℚ) (lookback i : ℕ) : Option (ℕ × ℚ) :=
  match closes[i]? with
  | none => none
  | some pivot =>
    if ((closes.drop (i - lookback)).take lookback).all (beats pivot) &&
        ((closes.drop (i + 1)).take lookback).all (beats pivot) then some (i, pivot)
    else none

/-- `_swing_points`: `(swing_highs, swing_lows)`. -/
def swingPoints (closes : List ℚ) (lookback : ℕ) : List (ℕ × ℚ) × List (ℕ × ℚ) :=
  let indices := List.range' lookback (closes.length - lookback - lookback)
  let highAt := swingAt (fun a b => decide (b < a)) closes lookback
  let lowAt := swingAt (fun a b => decide (a < b)) closes lookback
  (indices.filterMap highAt, indices.filterMap fun i => if (highAt i).isSome then none else lowAt i)

/-- The last swing compared with the one before it; False where there is none. -/
def lastTwo (compare : ℚ → ℚ → Bool) (swings : List (ℕ × ℚ)) : Bool :=
  match swings.reverse with
  | last :: previous :: _ => compare last.2 previous.2
  | _ => false

/-- The latest close compared with the last swing. -/
def breaks (compare : ℚ → ℚ → Bool) (closes : List ℚ) (swings : List (ℕ × ℚ)) : Bool :=
  match closes.getLast?, swings.getLast? with
  | some latest, some swing => compare latest swing.2
  | _, _ => false

/-- `check_market_structure_signal` -/
def checkMarketStructureSignal (closes : List ℚ) (lookback : ℕ) (condition : String) :
    Except PyError Bool :=
  if closes.length < lookback * 10 then .error .indicatorError
  else
    let above : ℚ → ℚ → Bool := fun a b => decide (b < a)
    let below : ℚ → ℚ → Bool := fun a b => decide (a < b)
    let highs := (swingPoints closes lookback).1
    let lows := (swingPoints closes lookback).2
    match condition with
    | "bullish_bos" => .ok (breaks above closes highs)
    | "bearish_bos" => .ok (breaks below closes lows)
    | "higher_low" => .ok (lastTwo above lows)
    | "lower_high" => .ok (lastTwo below highs)
    | "bullish_structure" => .ok (lastTwo above highs && lastTwo above lows)
    | "bearish_structure" => .ok (lastTwo below highs && lastTwo below lows)
    | _ => .error .indicatorError

/-- `indicator.lookback or 3`; a negative lookback is not one of the module's. -/
def lookbackOf (indicator : IndicatorConfig) : Option ℕ :=
  match indicator.lookback with
  | none => some 3
  | some n => if n = 0 then some 3 else if 0 < n then some n.toNat else none

/-- `indicator.condition or "bullish_bos"` -/
def conditionOf (indicator : IndicatorConfig) : String :=
  match indicator.condition with
  | none => "bullish_bos"
  | some "" => "bullish_bos"
  | some condition => condition

end MarketStructure

open MarketStructure in
/-- The `MARKET_STRUCTURE` branch of `_dispatch_indicator` on top of the other
indicators; an exception is logged and answered with False. -/
def Signals.withMarketStructure (others : Signals) : Signals :=
  { others with
    evaluateIndicator := fun indicator closes highs lows opens =>
      match decide (indicator.type.toUpper = "MARKET_STRUCTURE"), lookbackOf indicator with
      | true, some lookback =>
        match checkMarketStructureSignal closes lookback (conditionOf indicator) with
        | .ok signal => signal
        | .error _ => false
      | _, _ => others.evaluateIndicator indicator closes highs lows opens }

end Reverto
