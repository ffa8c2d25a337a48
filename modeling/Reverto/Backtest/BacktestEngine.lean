import Mathlib.Tactic
import Reverto.Core.InversePerpMath
import Reverto.Lib.Program
import Reverto.Strategies.IndicatorEngine

/-!
# The backtest (backtest/backtest_engine.py)

One definition per method, in the order of the source. The ids drawn and the wall
clock, which the orders of the ladder and the closes are stamped with, are the
parameter `BacktestEnv`.
-/

namespace Reverto

/-- `BacktestCandle`, without the volume, which nothing reads. -/
structure BacktestCandle where
  timestamp : ℤ
  «open» : ℚ
  high : ℚ
  low : ℚ
  close : ℚ
  deriving DecidableEq, Repr

/-- `BacktestCandle.dt` -/
def BacktestCandle.dt (c : BacktestCandle) : Instant := c.timestamp * 1000

/-- `candles_per_tf`, `none` for a timeframe that is not a key. -/
abbrev CandlesPerTf := Timeframe → Option (List BacktestCandle)

/-- The four dicts of `_ohlc_up_to`. -/
structure OhlcWindow where
  candles : Candles
  opensPerTf : Timeframe → Option (List ℚ)

/-- What a backtest draws from outside while it processes a candle. -/
structure BacktestEnv where
  newDealId : ℕ → String
  clock : ℕ → Instant

/-- The members of a `BacktestEngine` that `run` changes. -/
structure BacktestState where
  state : PaperState
  feesPaidBtc : ℚ := 0
  candlesProcessed : ℕ := 0
  tfPointers : Timeframe → ℕ := fun _ => 0

/-- What a backtest does to its deals. -/
inductive BacktestEvent where
  | opened (price size : ℚ) (trigger : Option GroupTrigger)
  | dcaFilled (price size : ℚ)
  | closed (price : ℚ) (reason : CloseReason) (trigger : ExitTrigger)
  deriving DecidableEq, Repr

/-- A method of the backtest. -/
abbrev BacktestM := Program PyError BacktestEvent BacktestState

/-- The entry check of the backtest hands the opens on to the indicators. -/
def Signals.withOpens (sig : Signals) (opensPerTf : Timeframe → Option (List ℚ))
    (botTimeframe : Timeframe) : Signals :=
  { sig with
    evaluateIndicator := fun ind closes highs lows _ =>
      sig.evaluateIndicator ind closes highs lows (opensPerTf (ind.timeframe.getD botTimeframe)) }

namespace BacktestEngine

variable (cfg : BotConfig) (sig : Signals) (env : BacktestEnv) (data : CandlesPerTf)

/-! ### Set-up -/

/-- `required_timeframes` -/
def requiredTimeframes : List Timeframe :=
  cfg.timeframe :: (IndicatorEngine.allIndicators cfg.entry).map fun i => i.timeframe.getD cfg.timeframe

/-- `__init__` raises nothing: every required timeframe is given. -/
def accepts : Bool := (requiredTimeframes cfg).all fun tf => (data tf).isSome

/-- `driving_candles` -/
def drivingCandles : List BacktestCandle := (data cfg.timeframe).getD []

/-- `__init__` -/
def init (initialBalanceBtc : ℚ) : BacktestState := { state := PaperState.init initialBalanceBtc }

/-! ### Candles up to a time -/

/-- The `while` loop of `_ohlc_up_to` on the pointer of one timeframe. -/
def advance (candles : List BacktestCandle) (curTs : ℤ) (ptr : ℕ) : ℕ :=
  ptr + ((candles.drop ptr).takeWhile fun c => decide (c.timestamp < curTs)).length

/-- The pointers after that loop. -/
def advanceAll (curTs : ℤ) (tfPointers : Timeframe → ℕ) (tf : Timeframe) : ℕ :=
  match data tf with
  | none => tfPointers tf
  | some candles => advance candles curTs (tfPointers tf)

/-- The candles before the pointers, as the indicator engine takes them. -/
def windowsAt (tfPointers : Timeframe → ℕ) : OhlcWindow where
  candles :=
    { closesPerTf := fun tf => ((data tf).getD []).take (tfPointers tf) |>.map BacktestCandle.close
      highsPerTf := fun tf => (data tf).map fun cs => (cs.take (tfPointers tf)).map BacktestCandle.high
      lowsPerTf := fun tf => (data tf).map fun cs => (cs.take (tfPointers tf)).map BacktestCandle.low }
  opensPerTf := fun tf => (data tf).map fun cs => (cs.take (tfPointers tf)).map BacktestCandle.open

/-- `_ohlc_up_to` -/
def ohlcUpTo (curTs : ℤ) : BacktestM OhlcWindow := do
  Program.modify fun s => { s with tfPointers := advanceAll data curTs s.tfPointers }
  let s ← Program.get
  pure (windowsAt data s.tfPointers)

/-! ### Opening and closing -/

/-- `_calc_fee` -/
def calcFee (size : ℚ) : ℚ := Decimal.roundTo 10 (size * cfg.dca.takerFee)

/-- Update the account. -/
def onState (f : PaperState → PaperState) (s : BacktestState) : BacktestState :=
  { s with state := f s.state }

/-- `balance_btc -= fee` and `_fees_paid_btc += fee`. -/
def chargeFee (fee : ℚ) : BacktestM Unit :=
  Program.modify fun s =>
    { s with
      state := { s.state with balanceBtc := s.state.balanceBtc - fee }
      feesPaidBtc := s.feesPaidBtc + fee }

theorem id_exitTrigger (exitTrigger : ExitTrigger) (d : PaperDeal) :
    PaperDeal.id { d with exitTrigger := some exitTrigger } = d.id := rfl

/-- `_close_deal` -/
def closeDeal (now : Instant) (dealId : String) (price : ℚ) (reason : CloseReason)
    (exitTrigger : ExitTrigger) : BacktestM Unit := do
  let s ← Program.get
  match s.state.openDeals.get? dealId with
  | none => pure ()
  | some d => do
    Program.modify (onState fun s =>
      s.updateDeal dealId (fun e => { e with exitTrigger := some exitTrigger })
        (id_exitTrigger exitTrigger))
    Program.modify (onState fun s => s.closeDeal dealId price reason now)
    chargeFee (calcFee cfg d.totalSize)
    Program.emit (.closed price reason exitTrigger)

/-- The deal `_open_deal` builds; a backtest is long whatever the config says. -/
def newDeal (dealId : String) (price : ℚ) (dt : Instant) (entryTrigger : Option GroupTrigger) :
    PaperDeal :=
  PaperDeal.postInit
    { id := dealId
      botName := cfg.name
      symbol := cfg.pair
      side := .long
      leverage := cfg.leverage.size
      orders := [⟨1, price, cfg.dca.baseOrderSize, dt, .base⟩]
      openedAt := dt
      entryTrigger := entryTrigger }

/-- `_open_deal` -/
def openDeal (dealId : String) (price : ℚ) (dt : Instant) (entryTrigger : Option GroupTrigger) :
    BacktestM Unit := do
  Program.modify (onState fun s => s.openDeal (newDeal cfg dealId price dt entryTrigger))
  chargeFee (calcFee cfg cfg.dca.baseOrderSize)
  Program.emit (.opened price cfg.dca.baseOrderSize entryTrigger)

/-! ### Processing a candle -/

/-- The stop-loss part of `_check_tp_sl_intracandle`: a candle that trades at the
line or below fills there. -/
def stopAt (now : Instant) (candle : BacktestCandle) (d : PaperDeal) (reference : ℚ)
    (trigger : ExitTrigger) : BacktestM Bool := do
  let slPrice ← Program.lift (computeSlTargetPrice reference cfg.stopLoss.pct d.side)
  if candle.low ≤ slPrice then do
    closeDeal cfg now d.id slPrice .sl trigger
    pure true
  else pure false

/-- `_peak_price` after the candle. -/
def newPeak (d : PaperDeal) (candle : BacktestCandle) : ℚ :=
  max (if d.peakPrice = 0 then candle.open else d.peakPrice) candle.high

/-- `_check_tp_sl_intracandle` -/
def checkTpSlIntracandle (now : Instant) (w : OhlcWindow) (candle : BacktestCandle)
    (d : PaperDeal) : BacktestM Bool := do
  let tpPrice ← Program.lift
    (computeTpTargetPrice d.avgEntryPrice cfg.takeProfit.targetPct d.side)
  if (cfg.takeProfit.enabled && cfg.takeProfit.priceEnabled && decide (tpPrice ≤ candle.high))
      = true then do
    closeDeal cfg now d.id tpPrice .tp .priceTp
    pure true
  else
    match (if cfg.takeProfit.enabled then IndicatorEngine.checkTpIndicatorGroups cfg sig w.candles
      else none) with
    | some info => do
      closeDeal cfg now d.id candle.close .tp (.indicatorTp info.groupName info.indicators)
      pure true
    | none =>
      match cfg.stopLoss.type with
      | .none => pure false
      | .trailing => do
        Program.modify (onState fun s =>
          s.updateDeal d.id (fun e => { e with peakPrice := newPeak d candle }) fun _ => rfl)
        stopAt cfg now candle d (newPeak d candle) .trailingSl
      | .fixed => stopAt cfg now candle d d.avgEntryPrice .priceSl

/-- `_check_dca` -/
def checkDca (now : Instant) (d : PaperDeal) (price : ℚ) : BacktestM Unit :=
  if cfg.dca.enabled = false then pure ()
  else if cfg.dca.maxOrders ≤ 1 then pure ()
  else if cfg.dca.maxOrders - 1 ≤ d.dcaCount then pure ()
  else
    match d.orders.getLast? with
    | none => Program.raise .indexError
    | some last =>
      let step := cfg.dca.orderSpacingPct * cfg.dca.stepScale ^ d.dcaCount
      if price ≤ last.price * (1 - step / 100) then do
        let dcaSize := Decimal.roundTo 8 (cfg.dca.baseOrderSize * cfg.dca.multiplier ^ d.dcaCount)
        let order : PaperOrder := ⟨d.dcaCount + 2, price, dcaSize, now, .dca⟩
        Program.modify (onState fun s =>
          s.updateDeal d.id (fun e => { e with orders := e.orders ++ [order] }) fun _ => rfl)
        chargeFee (calcFee cfg dcaSize)
        Program.emit (.dcaFilled price dcaSize)
      else pure ()

/-- One round of the loop of `_process_candle`. -/
def monitorDeal (now : Instant) (w : OhlcWindow) (candle : BacktestCandle) (dealId : String) :
    BacktestM Unit := do
  let s ← Program.get
  match s.state.openDeals.get? dealId with
  | none => pure ()
  | some d => do
    let closed ← checkTpSlIntracandle cfg sig now w candle d
    if closed then pure ()
    else do
      let s ← Program.get
      match s.state.openDeals.get? dealId with
      | none => pure ()
      | some d => checkDca cfg now d candle.close

/-- The entry check of `_process_candle`. -/
def checkEntry (dealId : String) (w : OhlcWindow) (candle : BacktestCandle) : BacktestM Unit := do
  let s ← Program.get
  if s.state.openDeals.items = [] ∧ w.candles.closesPerTf cfg.timeframe ≠ [] then
    match IndicatorEngine.checkEntrySignal cfg (sig.withOpens w.opensPerTf cfg.timeframe)
      w.candles with
    | (true, trigger) => openDeal cfg dealId candle.close candle.dt trigger
    | (false, _) => pure ()
  else pure ()

/-- `_process_candle` for the candle with the given index. -/
def processCandle (i : ℕ) (w : OhlcWindow) (candle : BacktestCandle) : BacktestM Unit := do
  let s ← Program.get
  Program.forEach (monitorDeal cfg sig (env.clock i) w candle)
    (s.state.openDeals.items.map PaperDeal.id)
  checkEntry cfg sig (env.newDealId i) w candle

/-! ### Main loop -/

/-- `warmup` -/
def warmup : ℕ := 78

/-- One round of the loop of `run`. -/
def candleStep (p : BacktestCandle × ℕ) : BacktestM Unit :=
  if p.2 < warmup then pure ()
  else do
    let w ← ohlcUpTo data p.1.timestamp
    processCandle cfg sig env p.2 w p.1
    Program.modify fun s => { s with candlesProcessed := s.candlesProcessed + 1 }

/-- The close of the deals that are still open at the end. -/
def closeOut (now : Instant) (lastPrice : ℚ) : BacktestM Unit := do
  let s ← Program.get
  Program.forEach (fun dealId => closeDeal cfg now dealId lastPrice .endOfData .timeout)
    (s.state.openDeals.items.map PaperDeal.id)

/-- `run` -/
def run : BacktestM Unit := do
  Program.forEach (candleStep cfg sig env data) (drivingCandles cfg data).zipIdx
  match (drivingCandles cfg data).getLast? with
  | none => pure ()
  | some last => closeOut cfg (env.clock (drivingCandles cfg data).length) last.close

/-- The events of a backtest through the driving candle with index `i`; a backtest
that is not accepted has none. -/
def eventsThrough (initialBalanceBtc : ℚ) (i : ℕ) : List BacktestEvent :=
  if accepts cfg data then
    (Program.forEach (candleStep cfg sig env data) ((drivingCandles cfg data).zipIdx.take (i + 1))
      (init initialBalanceBtc)).log
  else []

end BacktestEngine

end Reverto
