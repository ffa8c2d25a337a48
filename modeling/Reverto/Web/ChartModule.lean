import Mathlib.Tactic
import Reverto.Lib.IndexScan
import Reverto.Lib.ScriptArray
import Reverto.Strategies.ParabolicSar

/-!
# Indicator lines in the browser (web/static/chart_module.js)

The calculations the browser backtest shares with the chart, over any type of
numbers. An array that is filled by index is a function of the index; a
calculation that reads a property of a candle that is not there throws and is
`none`.
-/

namespace Reverto

open Script

/-- A candle of `/api/candles`; the server gives every field. -/
structure JsCandle (ν : Type) where
  time : ℤ
  «open» : ν
  high : ν
  low : ν
  close : ν
  volume : ν
  deriving DecidableEq, Repr

namespace ChartModule

variable {ν : Type} [Add ν] [Sub ν] [Mul ν] [Div ν] [Neg ν] [Max ν] [LT ν] [LE ν]
  [DecidableLT ν] [DecidableLE ν] [DecidableEq ν] [ScriptNumber ν]

/-- A point of a line: `{ time, value }`. -/
abbrev Point (ν : Type) := ℤ × ν

/-- The times of the candles `a .. a + m - 1` with a value each. -/
def points (candles : List (JsCandle ν)) (value : ℕ → ν) (a m : ℕ) : List (Point ν) :=
  (List.range' a m).filterMap fun i => candles[i]?.map fun c => (c.time, value i)

/-! ### Averages -/

/-- `_emaArray` -/
def emaArray (values : ℕ → ν) (period : ℤ) : ℕ → ν
  | 0 => values 0
  | i + 1 =>
    let k : ν := ofRat 2 / ofRat (period + 1)
    k * values (i + 1) + (ofRat 1 - k) * emaArray values period i

/-- The average gain and loss of `calcRSILine`. -/
structure GainLoss (ν : Type) where
  avgGain : ν
  avgLoss : ν

/-- The sums over the first `period` deltas. -/
def rsiSums (closes : List ν) (period : ℕ) : GainLoss ν :=
  IndexScan.scan (fun k s =>
    let d := read closes (k + 1) - read closes k
    if ofRat 0 ≤ d then { s with avgGain := s.avgGain + d }
    else { s with avgLoss := s.avgLoss + -d }) ⟨ofRat 0, ofRat 0⟩ period

/-- The averages at the index `period + k`. -/
def rsiAverages (closes : List ν) (period k : ℕ) : GainLoss ν :=
  let sums := rsiSums closes period
  let alpha : ν := ofRat 1 / ofRat period
  IndexScan.scan (fun k s =>
    let i : ℤ := period + k + 1
    let d := read closes i - read closes (i - 1)
    let gain := if ofRat 0 < d then d else ofRat 0
    let loss := if d < ofRat 0 then -d else ofRat 0
    ⟨(ofRat 1 - alpha) * s.avgGain + alpha * gain, (ofRat 1 - alpha) * s.avgLoss + alpha * loss⟩)
    ⟨sums.avgGain / ofRat period, sums.avgLoss / ofRat period⟩ k

/-- `rsiAt` -/
def rsiAt (s : GainLoss ν) : ν :=
  if s.avgLoss = ofRat 0 then ofRat 100
  else ofRat 100 - ofRat 100 / (ofRat 1 + s.avgGain / s.avgLoss)

/-- `calcRSILine`; there is no candle at a negative period. -/
def calcRSILine (candles : List (JsCandle ν)) (period : ℤ) : Option (List (Point ν)) :=
  if (candles.length : ℤ) < period + 1 then some []
  else if period < 0 then none
  else
    let closes := candles.map JsCandle.close
    let p := period.toNat
    some (points candles (fun i => rsiAt (rsiAverages closes p (i - p))) p (candles.length - p))

/-- What `calcMACDLines` returns. -/
structure MacdLines (ν : Type) where
  macd : List (Point ν)
  signal : List (Point ν)
  histogram : List (Point ν)

/-- `macd[i]` -/
def macdAt (candles : List (JsCandle ν)) (fast slow : ℤ) (i : ℕ) : ν :=
  let closes := fun i : ℕ => read (candles.map JsCandle.close) i
  emaArray closes fast i - emaArray closes slow i

/-- `signalArr[i]` -/
def macdSignalAt (candles : List (JsCandle ν)) (fast slow signal : ℤ) : ℕ → ν :=
  emaArray (macdAt candles fast slow) signal

/-- `calcMACDLines` -/
def calcMACDLines (candles : List (JsCandle ν)) (fast slow signal : ℤ) : MacdLines ν :=
  let line := fun value => points candles value slow.toNat (candles.length - slow.toNat)
  { macd := line (macdAt candles fast slow)
    signal := line (macdSignalAt candles fast slow signal)
    histogram := line fun i => macdAt candles fast slow i - macdSignalAt candles fast slow signal i }

/-- What `calcBollingerLines` returns. -/
structure BollingerLines (ν : Type) where
  upper : List (Point ν)
  middle : List (Point ν)
  lower : List (Point ν)

/-- `window` -/
def bollingerWindow (candles : List (JsCandle ν)) (period i : ℕ) : List ν :=
  (slice candles ((i : ℤ) - period + 1) (i + 1)).map JsCandle.close

/-- `mean` -/
def windowMean (window : List ν) (period : ℕ) : ν := window.foldl (· + ·) (ofRat 0) / ofRat period

/-- `std` -/
def windowStd (sqrt : ν → ν) (window : List ν) (period : ℕ) : ν :=
  let mean := windowMean window period
  sqrt (window.foldl (fun variance v => variance + (v - mean) * (v - mean)) (ofRat 0) / ofRat period)

/-- `calcBollingerLines`; there is no candle at a negative index. -/
def calcBollingerLines (sqrt : ν → ν) (candles : List (JsCandle ν)) (period : ℤ) (multiplier : ν) :
    Option (BollingerLines ν) :=
  if period < 1 then none
  else
    let p := period.toNat
    let mean := fun i => windowMean (bollingerWindow candles p i) p
    let std := fun i => windowStd sqrt (bollingerWindow candles p i) p
    let line := fun value => points candles value (p - 1) (candles.length - (p - 1))
    some
      { upper := line fun i => mean i + multiplier * std i
        middle := line mean
        lower := line fun i => mean i - multiplier * std i }

/-! ### Support and resistance -/

/-- The state of the loop of `calcSR`; a level that is null is `none`. -/
structure SrState (ν : Type) where
  curRes : Option ν := none
  curSup : Option ν := none
  resTouches : ℤ := 0
  supTouches : ℤ := 0

/-- `volOsc[p]` -/
def volOscAt (candles : List (JsCandle ν)) (p : ℕ) : ν :=
  let vols := fun i : ℕ => read (candles.map JsCandle.volume) i
  let ema5 := emaArray vols 5 p
  let ema10 := emaArray vols 10 p
  if ema10 = ofRat 0 then ofRat 0 else ofRat 100 * (ema5 - ema10) / ema10

/-- The volume filter lets the pivot at `p` through. -/
def volumeOk (candles : List (JsCandle ν)) (vt : ℚ) (p : ℕ) : Bool :=
  if 0 < vt then decide (ofRat vt < volOscAt candles p) else true

/-- The candle `p` is `leftBars` or more from the start, and its high is above
those of the bars around it. -/
def pivotHigh (candles : List (JsCandle ν)) (leftBars rightBars p : ℤ) : Bool :=
  let highs := candles.map JsCandle.high
  let h := read highs p
  exceeds h (largest (between highs (p - leftBars) p)) &&
    exceeds h (largest (between highs (p + 1) (p + rightBars + 1)))

/-- The same for the lows. -/
def pivotLow (candles : List (JsCandle ν)) (leftBars rightBars p : ℤ) : Bool :=
  let lows := candles.map JsCandle.low
  let l := read lows p
  undercuts l (smallest (between lows (p - leftBars) p)) &&
    undercuts l (smallest (between lows (p + 1) (p + rightBars + 1)))

/-- `Math.abs(x - level) / level < 0.005` -/
def touches (x level : ν) : Bool :=
  decide (ScriptNumber.abs (x - level) / level < (ofRat (5 / 1000) : ν))

/-- The part of a round of `calcSR` that looks for pivots. -/
def srPivots (candles : List (JsCandle ν)) (leftBars rightBars : ℤ) (vt : ℚ) (i : ℕ)
    (s : SrState ν) : SrState ν :=
  let p : ℤ := i - rightBars
  if leftBars ≤ p then
    let s :=
      if pivotHigh candles leftBars rightBars p && volumeOk candles vt p.toNat then
        { s with curRes := some (read (candles.map JsCandle.high) p), resTouches := 1 }
      else s
    if pivotLow candles leftBars rightBars p && volumeOk candles vt p.toNat then
      { s with curSup := some (read (candles.map JsCandle.low) p), supTouches := 1 }
    else s
  else s

/-- A round of `calcSR`. -/
def srStep (candles : List (JsCandle ν)) (leftBars rightBars : ℤ) (vt : ℚ) (mt : ℤ) (i : ℕ)
    (s : SrState ν) : SrState ν :=
  let s := srPivots candles leftBars rightBars vt i s
  let s := match s.curRes with
    | some level =>
      if 1 < mt ∧ touches (read (candles.map JsCandle.high) i) level = true then
        { s with resTouches := s.resTouches + 1 }
      else s
    | none => s
  match s.curSup with
  | some level =>
    if 1 < mt ∧ touches (read (candles.map JsCandle.low) i) level = true then
      { s with supTouches := s.supTouches + 1 }
    else s
  | none => s

/-- What `calcSR` returns, by index. -/
structure SrSeries (ν : Type) where
  resSeries : ℕ → Option ν
  supSeries : ℕ → Option ν

/-- The loop reads a candle that is not there. -/
def srThrows (n : ℕ) (leftBars rightBars : ℤ) : Bool :=
  (List.range n).any fun i =>
    decide (leftBars ≤ (i : ℤ) - rightBars) &&
      (decide ((i : ℤ) - rightBars < 0) || decide ((n : ℤ) ≤ (i : ℤ) - rightBars))

/-- The state after the candle `i`. -/
def srStateAt (candles : List (JsCandle ν)) (leftBars rightBars : ℤ) (vt : ℚ) (mt : ℤ) (i : ℕ) :
    SrState ν :=
  IndexScan.scan (srStep candles leftBars rightBars vt mt) {} (i + 1)

/-- `calcSR` -/
def calcSR (candles : List (JsCandle ν)) (leftBars rightBars : ℤ) (volumeThreshold : ℚ)
    (minTouches : ℤ) : Option (SrSeries ν) :=
  let mt := truthyOr (some minTouches) 1
  let stateAt := srStateAt candles leftBars rightBars volumeThreshold mt
  if srThrows candles.length leftBars rightBars then none
  else some
    { resSeries := fun i => if mt ≤ (stateAt i).resTouches then (stateAt i).curRes else none
      supSeries := fun i => if mt ≤ (stateAt i).supTouches then (stateAt i).curSup else none }

/-! ### Bases -/

/-- The state of the loop of `calcQFL`; `curHH` is null, or minus infinity, or a high. -/
structure QflState (ν : Type) where
  curBase : Option ν := none
  curHH : Option (Option ν) := none

/-- `newBase` -/
def newBaseAt (lo : List ν) (bp pp : ℤ) (i : ℕ) : Bool :=
  let lowestLow := smallest (between lo (max 0 ((i : ℤ) - bp + 1)) (i + 1))
  if pp + 1 ≤ i then
    let endPp1 := max 1 ((i : ℤ) - pp)
    let endPp := (i : ℤ) - pp + 1
    let llPp1 := smallest (between lo (max 0 (endPp1 - bp)) endPp1)
    let llPp := smallest (between lo (max 0 (endPp - bp)) endPp)
    (match llPp with
      | none => false
      | some v => undercuts v llPp1) && decide (llPp = lowestLow)
  else false

/-- `hi[i] > curHH` -/
def beatsHH (h : ν) : Option (Option ν) → Bool
  | none => true
  | some curHH => exceeds h curHH

/-- A round of `calcQFL`. -/
def qflStep (candles : List (JsCandle ν)) (bp pp : ℤ) (i : ℕ) (s : QflState ν) : QflState ν :=
  let hi := candles.map JsCandle.high
  let lo := candles.map JsCandle.low
  let newBase := newBaseAt lo bp pp i
  let offsetHigh := largest (between hi (max 0 ((i : ℤ) - pp + 1)) (i + 1))
  { curHH := if newBase || beatsHH (read hi i) s.curHH then some offsetHigh else s.curHH
    curBase :=
      if newBase then smallest (between lo (max 0 ((i : ℤ) - bp + 1)) (i + 1)) else s.curBase }

/-- `buyLimit` -/
def buyLimitAt (low : ν) (pumpFrac crackFrac : ν) (s : QflState ν) : Option ν :=
  match s.curBase, s.curHH with
  | some base, some (some hh) =>
    if ofRat 0 < base ∧ pumpFrac < (hh - base) / base ∧ crackFrac < (base - low) / base then
      some (base * (ofRat 1 - crackFrac))
    else none
  | _, _ => none

/-- What `calcQFL` returns, by index. -/
structure QflSeries (ν : Type) where
  baseSeries : ℕ → Option ν
  buyLimitSeries : ℕ → Option ν

/-- The state after the candle `i`. -/
def qflStateAt (candles : List (JsCandle ν)) (bp pp : ℤ) (i : ℕ) : QflState ν :=
  IndexScan.scan (qflStep candles bp pp) {} (i + 1)

/-- `calcQFL` -/
def calcQFL (candles : List (JsCandle ν)) (basePeriods pumpPeriods : ℤ)
    (pumpPct baseCrackPct : ℚ) : QflSeries ν :=
  let bp := truthyOr (some basePeriods) 36
  let pp := min (truthyOr (some pumpPeriods) 8) (bp - 1)
  let pumpFrac : ν := ofRat (truthyOr (some pumpPct) 3) / ofRat 100
  let crackFrac : ν := ofRat (truthyOr (some baseCrackPct) 3) / ofRat 100
  { baseSeries := fun i => (qflStateAt candles bp pp i).curBase
    buyLimitSeries := fun i =>
      buyLimitAt (read (candles.map JsCandle.low) i) pumpFrac crackFrac (qflStateAt candles bp pp i) }

end ChartModule

end Reverto
