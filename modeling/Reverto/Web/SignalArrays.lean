import Mathlib.Tactic
import Reverto.Config.Models
import Reverto.Web.ChartModule

/-!
# Signal arrays of the browser backtest (web/static/app.js, RevertoBacktest)

`_precomputeSignalArrays` and `_evalTpIndicator`. The array of an indicator is a
function of the index; an indicator whose lines throw has none. `Math.sqrt` is a
parameter.
-/

namespace Reverto

open Script ChartModule

namespace RevertoBacktest

variable {ν : Type} [Add ν] [Sub ν] [Mul ν] [Div ν] [Neg ν] [Min ν] [Max ν] [LT ν] [LE ν]
  [DecidableLT ν] [DecidableLE ν] [DecidableEq ν] [ScriptNumber ν]

/-! ### Thresholds -/

/-- `[a-z_]`, upper case included. -/
def isWordChar (c : Char) : Bool := c.isAlpha || c == '_'

/-- `thr.match(/^([a-z_]+)_(\d+)/i)`, the condition and the number. -/
def matchThreshold (thr : String) : Option (String × ℕ) :=
  let word := thr.toList.takeWhile isWordChar
  let digits := (thr.toList.dropWhile isWordChar).takeWhile Char.isDigit
  match word.reverse, digits with
  | '_' :: c :: cs, d :: ds =>
    some (String.ofList (c :: cs).reverse, (d :: ds).foldl (fun n e => 10 * n + (e.toNat - 48)) 0)
  | _, _ => none

/-! ### Entry indicators -/

/-- `timeToI` -/
def timeToI (candles : List (JsCandle ν)) : List (ℤ × ℕ) :=
  candles.zipIdx.map fun p => (p.1.time, p.2)

/-- `rsiByIdx[j]`, `none` where it stays NaN. -/
def rsiByIdx (candles : List (JsCandle ν)) (line : List (Point ν)) (j : ℕ) : Option ν :=
  (line.reverse.find? fun p => decide (mapGet (timeToI candles) p.1 = some j)).map Prod.snd

/-- What an RSI condition says about the value at an index and the one before it. -/
def rsiHit (cond : String) (value : ν) (v : ν) (prev : Option ν) : Bool :=
  match cond with
  | "below" => decide (v < value)
  | "above" => decide (value < v)
  | "cross_above" =>
    match prev.filter ScriptNumber.isFinite with
    | none => false
    | some prev => decide (prev ≤ value) && decide (value < v)
  | "cross_below" =>
    match prev.filter ScriptNumber.isFinite with
    | none => false
    | some prev => decide (value ≤ prev) && decide (v < value)
  | _ => false

/-- The RSI array, given the values by index. -/
def rsiArray (cond : String) (value : ν) (rsi : ℕ → Option ν) (i : ℕ) : Bool :=
  match (rsi i).filter ScriptNumber.isFinite with
  | none => false
  | some v => rsiHit cond value v (if i = 0 then none else rsi (i - 1))

/-- `type === 'RSI'` -/
def rsiSignals (candles : List (JsCandle ν)) (ind : IndicatorConfig) : Option (ℕ → Bool) :=
  let period := truthyOr ind.period 14
  let m := (matchThreshold (textOr ind.threshold "below_35")).getD ("below", 30)
  (calcRSILine candles period).map fun line =>
    rsiArray m.1 (ofRat (m.2 : ℚ)) (rsiByIdx candles line)

/-- What a MACD condition says about the three values at an index. -/
def macdHit (cond : String) (h m s : Option ν) : Bool :=
  match cond, h, m, s with
  | "histogram_positive", some h, _, _ => decide (ofRat 0 < h)
  | "histogram_negative", some h, _, _ => decide (h < ofRat 0)
  | "macd_above_signal", _, some m, some s => decide (s < m)
  | "macd_below_signal", _, some m, some s => decide (m < s)
  | _, _, _, _ => false

/-- The value of a line at the time of a candle. -/
def lineAt (candles : List (JsCandle ν)) (line : List (Point ν)) (i : ℕ) : Option ν :=
  candles[i]?.bind fun c => mapGet line c.time

/-- `type === 'MACD'` -/
def macdSignals (candles : List (JsCandle ν)) (ind : IndicatorConfig) : ℕ → Bool :=
  let macdData := calcMACDLines candles (truthyOr ind.macdFast 12) (truthyOr ind.macdSlow 26)
    (truthyOr ind.macdSignal 9)
  fun i => macdHit (textOr ind.condition "histogram_positive")
    (lineAt candles macdData.histogram i) (lineAt candles macdData.macd i)
    (lineAt candles macdData.signal i)

/-- What a Bollinger condition says about a close and the bands at its index. -/
def bollingerHit (cond : String) (c : ν) (lo mid up : Option ν) : Bool :=
  match cond, lo, mid, up with
  | "price_below_lower", some lo, _, _ => decide (c < lo)
  | "price_above_upper", _, _, some up => decide (up < c)
  | "price_above_middle", _, some mid, _ => decide (mid < c)
  | "price_below_middle", _, some mid, _ => decide (c < mid)
  | "squeeze", some lo, some mid, some up =>
    decide (ofRat 0 < mid) && decide ((up - lo) / mid < (ofRat (2 / 100) : ν))
  | _, _, _, _ => false

/-- `type === 'BOLLINGER'` -/
def bollingerSignals (sqrt : ν → ν) (candles : List (JsCandle ν)) (ind : IndicatorConfig) :
    Option (ℕ → Bool) :=
  (calcBollingerLines sqrt candles (truthyOr ind.period 20) (ofRat (ind.multiplier.getD 2))).map
    fun bb i => bollingerHit (textOr ind.condition "price_below_lower")
      (read (candles.map JsCandle.close) i) (lineAt candles bb.lower i)
      (lineAt candles bb.middle i) (lineAt candles bb.upper i)

/-- The variables of the PARABOLIC_SAR loop. -/
structure SarState (ν : Type) where
  trend : Trend
  ep : ν
  sar : ν
  af : ν

/-- Before the loop. -/
def sarStart (candles : List (JsCandle ν)) (iaf : ν) : SarState ν :=
  let cl := candles.map JsCandle.close
  let hi := candles.map JsCandle.high
  let lo := candles.map JsCandle.low
  if read cl 0 ≤ read cl 1 then ⟨.up, read hi 1, read lo 0, iaf⟩
  else ⟨.down, read lo 1, read hi 0, iaf⟩

/-- The round of the loop at the index `i`. -/
def sarStep (candles : List (JsCandle ν)) (iaf maf : ν) (i : ℕ) (s : SarState ν) : SarState ν :=
  let hi := candles.map JsCandle.high
  let lo := candles.map JsCandle.low
  let newSar := s.sar + s.af * (s.ep - s.sar)
  match s.trend with
  | .up =>
    let newSar := min newSar
      (min (read lo (i - 1)) (if 3 ≤ i then read lo (i - 2) else read lo (i - 1)))
    if read lo i < newSar then ⟨.down, read lo i, s.ep, iaf⟩
    else if s.ep < read hi i then ⟨.up, read hi i, newSar, min (s.af + iaf) maf⟩
    else { s with sar := newSar }
  | .down =>
    let newSar := max newSar
      (max (read hi (i - 1)) (if 3 ≤ i then read hi (i - 2) else read hi (i - 1)))
    if newSar < read hi i then ⟨.up, read hi i, s.ep, iaf⟩
    else if read lo i < s.ep then ⟨.down, read lo i, newSar, min (s.af + iaf) maf⟩
    else { s with sar := newSar }

/-- The variables after the index `k + 1`. -/
def sarAt (candles : List (JsCandle ν)) (iaf maf : ν) (k : ℕ) : SarState ν :=
  IndexScan.scan (fun k => sarStep candles iaf maf (k + 2)) (sarStart candles iaf) k

/-- What a PARABOLIC_SAR condition says about a trend and the one before it. -/
def sarHit (cond : String) (prevTrend trend : Trend) : Bool :=
  match cond with
  | "bullish" => decide (trend = .up)
  | "price_greater_than" => decide (trend = .up)
  | "bearish" => decide (trend = .down)
  | "price_lower_than" => decide (trend = .down)
  | "bullish_flip" => decide (prevTrend = .down ∧ trend = .up)
  | "price_crossing_up" => decide (prevTrend = .down ∧ trend = .up)
  | "bearish_flip" => decide (prevTrend = .up ∧ trend = .down)
  | "price_crossing_down" => decide (prevTrend = .up ∧ trend = .down)
  | _ => false

/-- `type === 'PARABOLIC_SAR'` -/
def parabolicSarSignals (candles : List (JsCandle ν)) (ind : IndicatorConfig) (i : ℕ) : Bool :=
  let iaf : ν := ofRat (ind.initialAf.getD (2 / 100))
  let maf : ν := ofRat (ind.maxAf.getD (20 / 100))
  decide (10 ≤ candles.length) && decide (2 ≤ i) &&
    sarHit (textOr ind.condition "bullish") (sarAt candles iaf maf (i - 2)).trend
      (sarAt candles iaf maf (i - 1)).trend

/-- `tr[i]`, with what an index before the array reads. -/
def trueRangeAt (candles : List (JsCandle ν)) (i : ℤ) : ν :=
  let high := read (candles.map JsCandle.high) i
  let low := read (candles.map JsCandle.low) i
  let prevClose := read (candles.map JsCandle.close) (i - 1)
  if i < 0 then nan
  else if i = 0 then ofRat 0
  else max (high - low) (max (ScriptNumber.abs (high - prevClose)) (ScriptNumber.abs (low - prevClose)))

/-- `atr[atrP + k]` -/
def atrAt (candles : List (JsCandle ν)) (atrP : ℤ) (k : ℕ) : ν :=
  IndexScan.scan (fun k atr =>
    (atr * ofRat (atrP - 1) + trueRangeAt candles (atrP + k + 1)) / ofRat (atrP : ℚ))
    (IndexScan.scan (fun k s => s + trueRangeAt candles (k + 1)) (ofRat 0) atrP.toNat
      / ofRat (atrP : ℚ)) k

/-- The variables of the SUPERTREND loop: `pFU`, `pFL` and `pT`. -/
structure BandState (ν : Type) where
  finalUpper : ν
  finalLower : ν
  trend : Trend

/-- The round of the loop at the index `atrP + k`. -/
def bandStep (candles : List (JsCandle ν)) (atrP : ℤ) (mult : ν) (k : ℕ) (s : BandState ν) :
    BandState ν :=
  let i : ℤ := atrP + k
  let close := read (candles.map JsCandle.close) i
  let prevClose := read (candles.map JsCandle.close) (i - 1)
  let mid := (read (candles.map JsCandle.high) i + read (candles.map JsCandle.low) i) / ofRat 2
  let bU := mid + mult * atrAt candles atrP k
  let bL := mid - mult * atrAt candles atrP k
  if k = 0 then ⟨bU, bL, if bU < close then .up else .down⟩
  else
    let fU := if bU < s.finalUpper ∨ s.finalUpper < prevClose then bU else s.finalUpper
    let fL := if s.finalLower < bL ∨ prevClose < s.finalLower then bL else s.finalLower
    match s.trend with
    | .up => ⟨fU, fL, if close < fL then .down else .up⟩
    | .down => ⟨fU, fL, if fU < close then .up else .down⟩

/-- The variables before the index `atrP + k`. -/
def bandAt (candles : List (JsCandle ν)) (atrP : ℤ) (mult : ν) (k : ℕ) : BandState ν :=
  IndexScan.scan (bandStep candles atrP mult) ⟨ofRat 0, ofRat 0, .up⟩ k

/-- What a SUPERTREND condition says about a trend and the one before it. -/
def supertrendHit (cond : String) (pT trend : Trend) : Bool :=
  match cond with
  | "bullish" => decide (trend = .up)
  | "bearish" => decide (trend = .down)
  | "bullish_flip" => decide (pT = .down ∧ trend = .up)
  | "from_down_to_up" => decide (pT = .down ∧ trend = .up)
  | "bearish_flip" => decide (pT = .up ∧ trend = .down)
  | "from_up_to_down" => decide (pT = .up ∧ trend = .down)
  | _ => false

/-- `type === 'SUPERTREND'` -/
def supertrendSignals (candles : List (JsCandle ν)) (ind : IndicatorConfig) (i : ℕ) : Bool :=
  let atrP := ind.atrPeriod.getD 10
  let mult : ν := ofRat (ind.multiplier.getD 3)
  let k := (i - atrP).toNat
  decide (atrP + 1 < candles.length) && decide (atrP ≤ i) &&
    supertrendHit (textOr ind.condition "bullish") (bandAt candles atrP mult k).trend
      (bandAt candles atrP mult (k + 1)).trend

/-- The close at `i` beats the `lb` closes on either side of it. -/
def isSwing (beats : ν → ν → Bool) (closes : List ν) (lb i : ℤ) : Bool :=
  (slice closes (i - lb) i).all (beats (read closes i)) &&
    (slice closes (i + 1) (i + 1 + lb)).all (beats (read closes i))

/-- `p > x` for every close around the index. -/
def isSwingHigh (closes : List ν) (lb i : ℤ) : Bool := isSwing (fun p x => decide (x < p)) closes lb i

/-- `p < x` for every close around an index that is no swing high. -/
def isSwingLow (closes : List ν) (lb i : ℤ) : Bool :=
  !isSwingHigh closes lb i && isSwing (fun p x => decide (p < x)) closes lb i

/-- The indices the swing loop visits. -/
def swingIndices (n : ℕ) (lb : ℤ) : List ℤ :=
  (List.range ((n : ℤ) - lb - lb).toNat).map fun k => lb + k

/-- `swHi.filter(s => s.i < i)` and the same for `swLo`, the last swing first. -/
def swingsBefore (swing : ℤ → Bool) (n : ℕ) (lb : ℤ) (i : ℕ) : List ℤ :=
  (((swingIndices n lb).filter swing).filter fun s : ℤ => decide (s < i)).reverse

/-- The closes of the last swings, compared with the latest close or each other. -/
def structureHit (cond : String) (close : ν) (lastHi lastLo : List ν) : Bool :=
  match cond, lastHi, lastLo with
  | "bullish_bos", h :: _, _ => decide (h < close)
  | "bearish_bos", _, l :: _ => decide (close < l)
  | "higher_low", _, l :: l' :: _ => decide (l' < l)
  | "lower_high", h :: h' :: _, _ => decide (h < h')
  | _, _, _ => false

/-- `type === 'MARKET_STRUCTURE'` -/
def marketStructureSignals (candles : List (JsCandle ν)) (ind : IndicatorConfig) (i : ℕ) : Bool :=
  let lb := ind.lookback.getD 3
  let closes := candles.map JsCandle.close
  let n := candles.length
  structureHit (textOr ind.condition "bullish_bos") (read closes i)
    ((swingsBefore (isSwingHigh closes lb) n lb i).map (read closes))
    ((swingsBefore (isSwingLow closes lb) n lb i).map (read closes))

/-- What a SUPPORT_RESISTANCE condition says about two closes and the levels. -/
def levelHit (cond val : String) (proxPct : ν) (c p : ν) (res sup : Option ν) : Bool :=
  match (if val = "support" then sup else res) with
  | none => false
  | some lv =>
    match cond, sup, res with
    | "price_crossing_up", _, _ => decide (p < lv) && decide (lv ≤ c)
    | "price_crossing_down", _, _ => decide (lv < p) && decide (c ≤ lv)
    | "price_greater_than", _, _ => decide (lv < c)
    | "price_lower_than", _, _ => decide (c < lv)
    | "near_support", some sup, _ => decide (ScriptNumber.abs (c - sup) / sup * ofRat 100 ≤ proxPct)
    | "near_resistance", _, some res =>
      decide (ScriptNumber.abs (c - res) / res * ofRat 100 ≤ proxPct)
    | "below_support", some sup, _ => decide (c < sup)
    | "above_resistance", _, some res => decide (res < c)
    | _, _, _ => false

/-- `type === 'SUPPORT_RESISTANCE'` -/
def supportResistanceSignals (candles : List (JsCandle ν)) (ind : IndicatorConfig) :
    Option (ℕ → Bool) :=
  let closes := candles.map JsCandle.close
  (calcSR candles (truthyOr ind.leftBars 15) (truthyOr ind.rightBars 15)
    (truthyOr ind.volumeThreshold 0) (truthyOr ind.minTouches 1)).map fun sr i =>
      decide (1 ≤ i) && levelHit (textOr ind.condition "price_crossing_down")
        (textOr ind.value "resistance") (ofRat (ind.proximityPct.getD 1)) (read closes i)
        (read closes (i - 1)) (sr.resSeries i) (sr.supSeries i)

/-- What a QFL condition says about a close and the base. -/
def qflHit (cond : String) (close : ν) (base buyLimit : Option ν) : Bool :=
  match cond, base, buyLimit with
  | "below_base", _, some _ => true
  | "near_base", some base, _ =>
    decide (ScriptNumber.abs (close - base) / base < (ofRat (5 / 1000) : ν))
  | "base_retest", some base, _ =>
    decide (base * ofRat (998 / 1000) ≤ close) && decide (close ≤ base * ofRat (1002 / 1000))
  | _, _, _ => false

/-- `type === 'QFL'` -/
def qflSignals (candles : List (JsCandle ν)) (ind : IndicatorConfig) (i : ℕ) : Bool :=
  let qfl := calcQFL candles (truthyOr ind.basePeriods 36) (truthyOr ind.pumpPeriods 8)
    (truthyOr ind.pumpFromBasePct 3) (truthyOr ind.baseCrackPct 3)
  qflHit (textOr ind.condition "below_base") (read (candles.map JsCandle.close) i)
    (qfl.baseSeries i) (qfl.buyLimitSeries i)

/-- The array of one indicator; a type the browser does not know is always true. -/
def indicatorSignals (sqrt : ν → ν) (candles : List (JsCandle ν)) (ind : IndicatorConfig) :
    Option (ℕ → Bool) :=
  match ind.type with
  | "RSI" => rsiSignals candles ind
  | "MACD" => some (macdSignals candles ind)
  | "BOLLINGER" => bollingerSignals sqrt candles ind
  | "PARABOLIC_SAR" => some (parabolicSarSignals candles ind)
  | "SUPERTREND" => some (supertrendSignals candles ind)
  | "MARKET_STRUCTURE" => some (marketStructureSignals candles ind)
  | "SUPPORT_RESISTANCE" => supportResistanceSignals candles ind
  | "QFL" => some (qflSignals candles ind)
  | _ => some fun _ => true

/-! ### Groups -/

/-- `entry_trigger` of a deal. -/
structure JsTrigger where
  groupName : String
  indicators : List String
  deriving DecidableEq, Repr

/-- What `_precomputeSignalArrays` leaves: the combined array, and the array of
each group with what a deal records of the group. -/
structure EntrySignals where
  combined : ℕ → Bool
  groups : List ((ℕ → Bool) × JsTrigger)

/-- `allGroups` with `_groupMeta`. -/
def allGroups (entry : EntryConfig) : List IndicatorGroup :=
  let groups := entry.indicatorGroups.filter fun g => g.indicators ≠ []
  if groups ≠ [] then groups
  else if entry.indicators ≠ [] then [{ id := 1, name := "Group 1", indicators := entry.indicators }]
  else []

/-- `groupAnd` -/
def groupSignals (sqrt : ν → ν) (candles : List (JsCandle ν)) (g : IndicatorGroup) :
    Option (ℕ → Bool) :=
  (g.indicators.mapM (indicatorSignals sqrt candles)).map fun arrays i => arrays.all fun a => a i

/-- What a deal records of the group with an index. -/
def groupTrigger (gi : ℕ) (g : IndicatorGroup) : JsTrigger :=
  ⟨textOr (some g.name) s!"Group {gi + 1}", g.indicators.map IndicatorConfig.type⟩

/-- `_precomputeSignalArrays` -/
def precomputeSignalArrays (sqrt : ν → ν) (candles : List (JsCandle ν)) (entry : EntryConfig) :
    Option EntrySignals :=
  if allGroups entry = [] then some ⟨fun _ => true, []⟩
  else
    ((allGroups entry).mapM (groupSignals sqrt candles)).map fun arrays =>
      { combined := fun i => arrays.any fun g => g i
        groups := arrays.zip ((allGroups entry).zipIdx.map fun g => groupTrigger g.2 g.1) }

/-! ### Take-profit indicators -/

/-- `_evalTpIndicator`; what throws is false. -/
def evalTpIndicator (candles : List (JsCandle ν)) (ind : IndicatorConfig) (i : ℕ) : Bool :=
  if i < 1 then false
  else if ind.type.toUpper = "RSI" then
    match (calcRSILine candles (truthyOr ind.period 14)).bind fun line => lineAt candles line i with
    | none => false
    | some v =>
      let m := (matchThreshold (textOr ind.threshold "above_70")).getD ("above", 70)
      match m.1 with
      | "above" => decide ((ofRat (m.2 : ℚ) : ν) < v)
      | "below" => decide (v < (ofRat (m.2 : ℚ) : ν))
      | _ => false
  else if ind.type.toUpper = "MACD" then
    let md := calcMACDLines candles (truthyOr ind.macdFast 12) (truthyOr ind.macdSlow 26)
      (truthyOr ind.macdSignal 9)
    match textOr ind.condition "histogram_positive", lineAt candles md.histogram i with
    | "histogram_positive", some h => decide (ofRat 0 < h)
    | "histogram_negative", some h => decide (h < ofRat 0)
    | _, _ => false
  else false

end RevertoBacktest

end Reverto
