import Mathlib.Tactic
import Reverto.Strategies.Ema

/-!
# RSI (strategies/indicators/rsi.py)

`calculate_rsi`, `_rsi_series` and `check_rsi_signal`. A series of a dataframe holds `none`
for a NaN; `ewm` here is the one with adjusted weights.
-/

namespace Reverto

namespace Rsi

open Smoothing

/-- `series.diff()` behind its first value. -/
def moves (closes : List ℚ) : List ℚ := List.zipWith (fun a b => b - a) closes closes.tail

/-- `series.diff()` -/
def diff (closes : List ℚ) : List (Option ℚ) :=
  if closes = [] then [] else none :: (moves closes).map some

/-- `delta.clip(lower=0)` -/
def gain (delta : List (Option ℚ)) : List (Option ℚ) := delta.map fun d => d.map fun x => max x 0

/-- `-delta.clip(upper=0)` -/
def loss (delta : List (Option ℚ)) : List (Option ℚ) := delta.map fun d => d.map fun x => -min x 0

/-- The variables of the loop of `ewm(adjust=True).mean()`. -/
structure EwmState where
  weighted : Option ℚ := none
  oldWt : ℚ := 1
  nobs : ℕ := 0

/-- One round of the loop. -/
def ewmRound (alpha : ℚ) (s : EwmState) (cur : Option ℚ) : EwmState :=
  match s.weighted, cur with
  | some w, some x =>
    let oldWt := s.oldWt * (1 - alpha)
    { weighted := some ((oldWt * w + x) / (oldWt + 1)), oldWt := oldWt + 1, nobs := s.nobs + 1 }
  | some _, none => { s with oldWt := s.oldWt * (1 - alpha) }
  | none, some x => { s with weighted := some x, nobs := s.nobs + 1 }
  | none, none => s

/-- `if nobs >= minp` -/
def EwmState.output (s : EwmState) (minPeriods : ℕ) : Option ℚ :=
  if minPeriods ≤ s.nobs then s.weighted else none

/-- The outputs behind a state. -/
def ewmFrom (alpha : ℚ) (minPeriods : ℕ) : EwmState → List (Option ℚ) → List (Option ℚ)
  | _, [] => []
  | s, x :: xs =>
    (ewmRound alpha s x).output minPeriods :: ewmFrom alpha minPeriods (ewmRound alpha s x) xs

/-- `series.ewm(com=period - 1, min_periods=period).mean()`; a negative `com` is refused. -/
def ewmMean (period : ℕ) (s : List (Option ℚ)) : Except PyError (List (Option ℚ)) :=
  if period < 1 then .error .indicatorError else .ok (ewmFrom (1 / period) period {} s)

/-- `100 - (100 / (1 + rs))` with `rs` over a loss that is not 0, else 100. -/
def rsiValue (avgGain avgLoss : Option ℚ) : ℚ :=
  match avgGain, avgLoss with
  | some g, some l => if l = 0 then 100 else 100 - 100 / (1 + g / l)
  | _, _ => 100

/-- `rsi`, before it is rounded. -/
def rsiValues (closes : List ℚ) (period : ℕ) : Except PyError (List ℚ) :=
  if closes.length < period + 1 then .error .indicatorError
  else do
    let avgGain ← ewmMean period (gain (diff closes))
    let avgLoss ← ewmMean period (loss (diff closes))
    pure (List.zipWith rsiValue avgGain avgLoss)

/-- `series[-k]`, for a `k` of 1 or more. -/
def fromEnd {α : Type} (series : List α) (k : ℕ) : Except PyError α :=
  match series.reverse[k - 1]? with
  | some value => .ok value
  | none => .error .indexError

/-- `calculate_rsi` -/
def calculateRsi (closes : List ℚ) (period : ℕ) : Except PyError ℚ := do
  let rsi ← rsiValues closes period
  let last ← fromEnd rsi 1
  pure (Decimal.roundTo 2 last)

/-- `_rsi_series` -/
def rsiSeries (closes : List ℚ) (period : ℕ) : Except PyError (List ℚ) := do
  let rsi ← rsiValues closes period
  pure (rsi.map (Decimal.roundTo 2))

/-! ### Signals -/

/-- The conditions `check_rsi_signal` knows. -/
inductive RsiCondition where
  | crossAbove50
  | crossBelow50
  | bullishDivergence
  | bearishDivergence
  | below (value : ℕ)
  | above (value : ℕ)
  | crossAbove (value : ℕ)
  | crossBelow (value : ℕ)
  deriving DecidableEq, Repr

/-- `int(digits)` of `(\d+)$`; a line break may end the text. -/
def parseDigits (digits : List Char) : Option ℕ :=
  let digits := if digits.getLast? = some '\n' then digits.dropLast else digits
  if digits ≠ [] ∧ digits.all Char.isDigit then
    some (digits.foldl (fun n c => 10 * n + (c.toNat - 48)) 0)
  else none

/-- The operations of `_THRESHOLD_RE`. -/
def operations : List (String × (ℕ → RsiCondition)) :=
  [("cross_above_", .crossAbove), ("cross_below_", .crossBelow), ("above_", .above),
    ("below_", .below)]

/-- `_THRESHOLD_RE.match(threshold)`, with the range of the value. -/
def matchThreshold (threshold : List Char) : Option RsiCondition :=
  (operations.find? fun op => op.1.toList.isPrefixOf threshold).bind fun op =>
    (parseDigits (threshold.drop op.1.length)).bind fun value =>
      if 1 ≤ value ∧ value ≤ 99 then some (op.2 value) else none

/-- The condition a text names. -/
def parseThreshold (threshold : String) : Option RsiCondition :=
  if threshold = "rsi_cross_above_50" then some .crossAbove50
  else if threshold = "rsi_cross_below_50" then some .crossBelow50
  else if threshold = "rsi_bullish_divergence" then some .bullishDivergence
  else if threshold = "rsi_bearish_divergence" then some .bearishDivergence
  else matchThreshold threshold.toList

/-- `prev` and `curr`, and the comparison of the two. -/
def crossing (closes : List ℚ) (period : ℕ) (test : ℚ → ℚ → Bool) : Except PyError Bool := do
  let prev ← calculateRsi closes.dropLast period
  let curr ← calculateRsi closes period
  pure (test prev curr)

/-- `prev < value and curr >= value` -/
def crossesAbove (value : ℚ) (prev curr : ℚ) : Bool := decide (prev < value) && decide (value ≤ curr)

/-- `prev > value and curr <= value` -/
def crossesBelow (value : ℚ) (prev curr : ℚ) : Bool := decide (value < prev) && decide (curr ≤ value)

/-- The branches of the two divergences. -/
def divergence (closes : List ℚ) (period : ℕ) (test : ℚ → ℚ → ℚ → ℚ → Bool) :
    Except PyError Bool :=
  let lookback := 5
  if closes.length < period + lookback + 1 then .ok false
  else do
    let rsi ← rsiSeries closes period
    let close ← fromEnd closes 1
    let closeBack ← fromEnd closes lookback
    let value ← fromEnd rsi 1
    let valueBack ← fromEnd rsi lookback
    pure (test close closeBack value valueBack)

/-- `check_rsi_signal` for a condition. -/
def holds (closes : List ℚ) (period : ℕ) : RsiCondition → Except PyError Bool
  | .crossAbove50 =>
    if closes.length < period + 2 then .ok false else crossing closes period (crossesAbove 50)
  | .crossBelow50 =>
    if closes.length < period + 2 then .ok false else crossing closes period (crossesBelow 50)
  | .bullishDivergence =>
    divergence closes period fun close closeBack value valueBack =>
      decide (close < closeBack) && decide (valueBack < value)
  | .bearishDivergence =>
    divergence closes period fun close closeBack value valueBack =>
      decide (closeBack < close) && decide (value < valueBack)
  | .below value => do
    let rsi ← calculateRsi closes period
    pure (decide (rsi < value))
  | .above value => do
    let rsi ← calculateRsi closes period
    pure (decide ((value : ℚ) < rsi))
  | .crossAbove value =>
    if closes.length < period + 2 then .error .indicatorError
    else crossing closes period (crossesAbove value)
  | .crossBelow value =>
    if closes.length < period + 2 then .error .indicatorError
    else crossing closes period (crossesBelow value)

/-- `check_rsi_signal` -/
def checkRsiSignal (closes : List ℚ) (period : ℕ) (threshold : String) : Except PyError Bool :=
  match parseThreshold threshold with
  | some condition => holds closes period condition
  | none => .error .indicatorError

end Rsi

end Reverto
