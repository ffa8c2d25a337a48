import Mathlib.Tactic
import Reverto.Lib.Program
import Reverto.Paper.PaperState
import Reverto.Web.SignalArrays

/-!
# The browser backtest (web/static/app.js, class RevertoBacktest)

The constructor, the methods and `run`, over any type of numbers. The equity
curve, the progress callback and the console output are left out.
-/

namespace Reverto

open Script

/-- `entryFilter`: the days and hours entries are allowed on. -/
structure EntryFilter where
  days : Option (List ℕ) := none
  hours : Option (List ℕ) := none
  deriving DecidableEq, Repr

/-- The config the constructor reads: the bot block of the YAML as it is written
or of the wizard. A key that is left out, alone or with its block, is `none`. -/
structure BrowserConfig where
  tpEnabled : Option Bool := none
  tpTargetPct : Option ℚ := none
  tpPriceEnabled : Option Bool := none
  tpIndicatorGroups : List IndicatorGroup := []
  slType : Option StopLossType := none
  slPct : Option ℚ := none
  dcaEnabled : Option Bool := none
  baseOrderSize : Option ℚ := none
  maxOrders : Option ℕ := none
  orderSpacingPct : Option ℚ := none
  stepScale : Option ℚ := none
  multiplier : Option ℚ := none
  takerFee : Option ℚ := none
  leverageEnabled : Option Bool := none
  leverageSize : Option ℕ := none
  entry : EntryConfig := {}
  entryFilter : Option EntryFilter := none
  entryFilterUtc : Option Bool := none

/-- What the browser backtest does to its deal. -/
inductive BrowserEvent (ν : Type) where
  | opened (price size : ν)
  | dcaFilled (price size : ν)
  | closed (price : ν) (reason : CloseReason)
  deriving DecidableEq, Repr

namespace RevertoBacktest

/-- An entry of `deal.orders`. -/
structure JsOrder (ν : Type) where
  price : ν
  size : ν
  type : OrderType
  deriving DecidableEq, Repr

/-- `open_deal` -/
structure JsDeal (ν : Type) where
  id : ℕ
  openedAt : ℤ
  openedIdx : ℕ
  orders : List (JsOrder ν)
  dcaCount : ℕ
  peakPrice : ν
  entryFeeBtc : ν
  dcaFeesBtc : ν
  entryTrigger : JsTrigger

/-- An entry of `closed_deals`. -/
structure JsClosedDeal (ν : Type) where
  id : ℕ
  openedAt : ℤ
  closedAt : ℤ
  avgEntryPrice : ν
  closePrice : ν
  dcaCount : ℕ
  orders : List (JsOrder ν)
  grossPnlBtc : ν
  pnlBtc : ν
  pnlPct : ν
  entryFeeBtc : ν
  dcaFeesBtc : ν
  exitFeeBtc : ν
  totalFeesBtc : ν
  reason : CloseReason
  totalSize : ν
  entryTrigger : JsTrigger
  exitTrigger : String

/-- The members of a backtest that `run` changes. -/
structure BrowserState (ν : Type) where
  balanceBtc : ν
  openDeal : Option (JsDeal ν) := none
  closedDeals : List (JsClosedDeal ν) := []
  feesPaidBtc : ν
  dealCounter : ℕ := 0

/-- The members the constructor takes from the config. -/
structure Settings (ν : Type) where
  tpEnabled : Bool
  tpPct : ν
  tpPriceEnabled : Bool
  tpIndGroups : List IndicatorGroup
  slPct : ν
  slType : StopLossType
  dcaEnabled : Bool
  baseSize : ν
  maxOrders : ℕ
  spacing : ν
  stepScale : ν
  mult : ν
  takerFee : ν
  lev : ν

/-- A method of the backtest. -/
abbrev BrowserM (ν : Type) := Program Empty (BrowserEvent ν) (BrowserState ν)

/-- `constructor` -/
def settings {ν : Type} [ScriptNumber ν] (config : BrowserConfig) : Settings ν where
  tpEnabled := config.tpEnabled.getD true
  tpPct := ofRat (truthyOr config.tpTargetPct 3)
  tpPriceEnabled := config.tpPriceEnabled.getD true
  tpIndGroups := config.tpIndicatorGroups.filter fun g => g.indicators ≠ []
  slPct := ofRat (truthyOr config.slPct 5)
  slType := config.slType.getD .fixed
  dcaEnabled := config.dcaEnabled.getD true
  baseSize := ofRat (truthyOr config.baseOrderSize (1 / 1000))
  maxOrders := truthyOr config.maxOrders 1
  spacing := ofRat (truthyOr config.orderSpacingPct (5 / 2))
  stepScale := ofRat (config.stepScale.getD 1)
  mult := ofRat (truthyOr config.multiplier 1)
  takerFee := ofRat (truthyOr config.takerFee (6 / 10000))
  lev := ofRat ((truthyOr (if config.leverageEnabled.getD false then config.leverageSize else none) 1 :
    ℕ) : ℚ)

variable {ν : Type} [Add ν] [Sub ν] [Mul ν] [Div ν] [Neg ν] [Min ν] [Max ν] [LT ν] [LE ν]
  [DecidableLT ν] [DecidableLE ν] [DecidableEq ν] [ScriptNumber ν]

/-! ### Deals -/

/-- `_totalSize` -/
def totalSize (orders : List (JsOrder ν)) : ν := orders.foldl (fun s o => s + o.size) (ofRat 0)

/-- `_avgEntry` -/
def avgEntry (orders : List (JsOrder ν)) : ν :=
  orders.foldl (fun totVal o => totVal + o.size * o.price) (ofRat 0) / totalSize orders

section Methods

variable (st : Settings ν)

/-- `_calcFee` -/
def calcFee (size : ν) : ν := size * st.takerFee

/-- `_openDeal` -/
def openDeal (price : ν) (time : ℤ) (i : ℕ) (trigger : JsTrigger) : BrowserM ν Unit := do
  let fee := calcFee st st.baseSize
  Program.modify fun s =>
    { s with
      dealCounter := s.dealCounter + 1
      balanceBtc := s.balanceBtc - fee
      feesPaidBtc := s.feesPaidBtc + fee
      openDeal := some
        { id := s.dealCounter + 1
          openedAt := time
          openedIdx := i
          orders := [⟨price, st.baseSize, .base⟩]
          dcaCount := 0
          peakPrice := ofRat 0
          entryFeeBtc := fee
          dcaFeesBtc := ofRat 0
          entryTrigger := trigger } }
  Program.emit (.opened price st.baseSize)

/-- What `_closeDeal` appends to `closed_deals`. -/
def closedDeal (deal : JsDeal ν) (price : ν) (reason : CloseReason) (time : ℤ)
    (exitTrigger : String) : JsClosedDeal ν :=
  let avg := avgEntry deal.orders
  let size := totalSize deal.orders
  let grossPnlBtc := size * (price - avg) / avg * st.lev
  let exitFee := calcFee st size
  let dealFees := deal.entryFeeBtc + deal.dcaFeesBtc + exitFee
  let netPnlBtc := grossPnlBtc - dealFees
  let margin := size / st.lev
  { id := deal.id
    openedAt := deal.openedAt
    closedAt := time
    avgEntryPrice := avg
    closePrice := price
    dcaCount := deal.dcaCount
    orders := deal.orders
    grossPnlBtc := grossPnlBtc
    pnlBtc := netPnlBtc
    pnlPct := if ofRat 0 < margin then netPnlBtc / margin * ofRat 100 else ofRat 0
    entryFeeBtc := deal.entryFeeBtc
    dcaFeesBtc := deal.dcaFeesBtc
    exitFeeBtc := exitFee
    totalFeesBtc := dealFees
    reason := reason
    totalSize := size
    entryTrigger := deal.entryTrigger
    exitTrigger := exitTrigger }

/-- `_closeDeal`, with the `exit_trigger` the deal then has. -/
def closeDeal (deal : JsDeal ν) (price : ν) (reason : CloseReason) (time : ℤ)
    (exitTrigger : String) : BrowserM ν Unit := do
  let closed := closedDeal st deal price reason time exitTrigger
  Program.modify fun s =>
    { s with
      balanceBtc := s.balanceBtc + (closed.grossPnlBtc - closed.exitFeeBtc)
      feesPaidBtc := s.feesPaidBtc + closed.exitFeeBtc
      closedDeals := s.closedDeals ++ [closed]
      openDeal := none }
  Program.emit (.closed price reason)

/-- A group of take-profit indicators of which every one agrees. -/
def tpGroupHit (candles : List (JsCandle ν)) (candleIdx : ℕ) : Bool :=
  st.tpIndGroups.any fun g => g.indicators.all fun ind => evalTpIndicator candles ind candleIdx

/-- `_checkTp` -/
def checkTp (candles : List (JsCandle ν)) (deal : JsDeal ν) (candle : JsCandle ν)
    (candleIdx : ℕ) : BrowserM ν Bool :=
  if st.tpEnabled = false then pure false
  else
    let tpPrice := avgEntry deal.orders * (ofRat 1 + st.tpPct / ofRat 100)
    if st.tpPriceEnabled = true ∧ tpPrice ≤ candle.high then do
      closeDeal st deal tpPrice .tp candle.time "price_tp"
      pure true
    else if tpGroupHit st candles candleIdx = true then do
      closeDeal st deal candle.close .tp candle.time "indicator_tp"
      pure true
    else pure false

/-- `peak_price` after the candle. -/
def newPeak (deal : JsDeal ν) (candle : JsCandle ν) : ν :=
  let peak := if deal.peakPrice = ofRat 0 then candle.open else deal.peakPrice
  if peak < candle.high then candle.high else peak

/-- The stop line below a reference price. -/
def stopAt (deal : JsDeal ν) (candle : JsCandle ν) (reference : ν) : BrowserM ν Bool :=
  let slPrice := reference * (ofRat 1 - st.slPct / ofRat 100)
  if candle.low ≤ slPrice then do
    closeDeal st deal slPrice .sl candle.time "price_sl"
    pure true
  else pure false

/-- `_checkSl` -/
def checkSl (deal : JsDeal ν) (candle : JsCandle ν) : BrowserM ν Bool :=
  match st.slType with
  | .none => pure false
  | .trailing => do
    let deal := { deal with peakPrice := newPeak deal candle }
    Program.modify fun s => { s with openDeal := some deal }
    stopAt st deal candle deal.peakPrice
  | .fixed => stopAt st deal candle (avgEntry deal.orders)

/-- `nextDca` is reached. -/
def dcaDue (deal : JsDeal ν) (candle : JsCandle ν) : Bool :=
  match deal.orders.getLast? with
  | none => false
  | some last =>
    let step := st.spacing * ScriptNumber.pow st.stepScale deal.dcaCount
    decide (candle.close ≤ last.price * (ofRat 1 - step / ofRat 100))

/-- `_checkDca` -/
def checkDca (deal : JsDeal ν) (candle : JsCandle ν) : BrowserM ν Unit :=
  if st.dcaEnabled = false then pure ()
  else if st.maxOrders ≤ 1 then pure ()
  else if st.maxOrders - 1 ≤ deal.dcaCount then pure ()
  else if dcaDue st deal candle = true then do
    let dcaSize := st.baseSize * ScriptNumber.pow st.mult deal.dcaCount
    let fee := calcFee st dcaSize
    Program.modify fun s =>
      { s with
        balanceBtc := s.balanceBtc - fee
        feesPaidBtc := s.feesPaidBtc + fee
        openDeal := some
          { deal with
            dcaFeesBtc := deal.dcaFeesBtc + fee
            orders := deal.orders ++ [⟨candle.close, dcaSize, .dca⟩]
            dcaCount := deal.dcaCount + 1 } }
    Program.emit (.dcaFilled candle.close dcaSize)
  else pure ()

/-! ### The loop of `run` -/

/-- The open deal at a candle. -/
def monitorDeal (candles : List (JsCandle ν)) (candle : JsCandle ν) (i : ℕ) : BrowserM ν Unit := do
  let s ← Program.get
  match s.openDeal with
  | none => pure ()
  | some deal => do
    let closed ← checkTp st candles deal candle i
    if closed then pure ()
    else do
      let closed ← checkSl st deal candle
      if closed then pure ()
      else do
        let s ← Program.get
        match s.openDeal with
        | none => pure ()
        | some deal => checkDca st deal candle

/-- `_lastEntryTrigger`: the first group whose array is true. -/
def entryTrigger (signals : EntrySignals) (sigIdx : ℕ) : JsTrigger :=
  ((signals.groups.find? fun g => g.1 sigIdx).map Prod.snd).getD ⟨"Entry", []⟩

/-- `getUTCDay()` and `getUTCHours()` of a time in seconds. -/
def utcParts (time : ℤ) : ℕ × ℕ := (((time / 86400 + 4) % 7).toNat, (time / 3600 % 24).toNat)

/-- The entry filter lets a candle through; `localParts` is the clock of the browser. -/
def filterAllows (localParts : ℤ → ℕ × ℕ) (config : BrowserConfig) (time : ℤ) : Bool :=
  match config.entryFilter with
  | none => true
  | some ef =>
    let parts := if config.entryFilterUtc.getD true then utcParts time else localParts time
    (ef.days.all fun days => decide (parts.1 ∈ days)) &&
      ef.hours.all fun hours => decide (parts.2 ∈ hours)

/-- The entry check at a candle; it reads the signals of the candle before. -/
def checkEntry (localParts : ℤ → ℕ × ℕ) (config : BrowserConfig) (warmup : ℕ)
    (signals : EntrySignals) (candle : JsCandle ν) (i : ℕ) : BrowserM ν Unit := do
  let s ← Program.get
  match s.openDeal with
  | some _ => pure ()
  | none =>
    if warmup ≤ i ∧ 1 ≤ i ∧ signals.combined (i - 1) = true ∧
        filterAllows localParts config candle.time = true then
      openDeal st candle.close candle.time i (entryTrigger signals (i - 1))
    else pure ()

/-- One round of the loop. -/
def candleStep (localParts : ℤ → ℕ × ℕ) (config : BrowserConfig) (warmup : ℕ)
    (signals : EntrySignals) (candles : List (JsCandle ν)) (p : JsCandle ν × ℕ) :
    BrowserM ν Unit := do
  monitorDeal st candles p.1 p.2
  checkEntry st localParts config warmup signals p.1 p.2

end Methods

/-- `warmup` -/
def warmupOf (total : ℕ) : ℕ := min 78 (total / 4)

/-- Before the loop. -/
def init (initialBalance : ν) : BrowserState ν :=
  { balanceBtc := initialBalance, feesPaidBtc := ofRat 0 }

/-- The loop of `run` over the first candles, each event under the index of its
candle; `none` where the signal arrays throw. -/
def runThrough (sqrt : ν → ν) (localParts : ℤ → ℕ × ℕ) (config : BrowserConfig)
    (candles : List (JsCandle ν)) (initialBalance : ν) (m : ℕ) :
    Option (Program.Outcome Empty (ℕ × BrowserEvent ν) (BrowserState ν) Unit) :=
  (precomputeSignalArrays sqrt candles config.entry).map fun signals =>
    Program.forEach (fun p => Program.relabel (fun e => (p.2, e))
      (candleStep (settings config) localParts config (warmupOf candles.length) signals candles p))
      (candles.zipIdx.take m) (init initialBalance)

/-- `run` -/
def run (sqrt : ν → ν) (localParts : ℤ → ℕ × ℕ) (config : BrowserConfig)
    (candles : List (JsCandle ν)) (initialBalance : ν) :
    Option (Program.Outcome Empty (ℕ × BrowserEvent ν) (BrowserState ν) Unit) :=
  runThrough sqrt localParts config candles initialBalance candles.length

end RevertoBacktest

end Reverto
