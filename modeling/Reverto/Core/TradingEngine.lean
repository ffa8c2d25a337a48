import Mathlib.Tactic
import Reverto.Core.EngineState
import Reverto.Core.LiquidationGuard
import Reverto.Exchanges.PublicExchange
import Reverto.Strategies.IndicatorEngine

/-!
# The tick of the paper engine (core/trading_engine.py, paper/paper_engine.py)

One definition per method, in the order of the source. What a tick meets from
outside (ticker, schedule verdict, candles, sentinel files, ids drawn, answers
of the ledger, clock) is its `TickInput`.
-/

namespace Reverto

/-- How one attempt of `deal_store.create_deal` ends. -/
inductive CreateOutcome where
  | ok
  | integrityError
  | failed
  deriving DecidableEq, Repr

/-- The ids `new_deal_id` draws while a deal is opened and the answers of the ledger. -/
structure OpenInput where
  newDealId : ℕ → String
  createOutcome : ℕ → CreateOutcome

/-- The ids of the three attempts. -/
def OpenInput.ids (inp : OpenInput) : List String :=
  [inp.newDealId 0, inp.newDealId 1, inp.newDealId 2]

/-- The first id drawn is free. -/
def OpenInput.accepted (dealId : String) : OpenInput := ⟨fun _ => dealId, fun _ => .ok⟩

/-- A deal sentinel file with a well-formed deal id. -/
inductive Sentinel where
  | edit (dealId : String) (settings : EditSettings)
  | act (dealId : String) (action : CloseAction)
  | unknown (dealId : String)
  deriving DecidableEq, Repr

/-- What a tick meets. -/
structure TickInput where
  ticker : Except PyError Ticker
  isOpen : Bool
  candles : Candles
  manualTrigger : Bool
  manualOpen : OpenInput
  sentinels : List Sentinel
  entryOpen : OpenInput
  clockOk : Bool
  now : Instant

namespace TradingEngine

variable (cfg : BotConfig) (sig : Signals) (c : Candles) (now : Instant)

/-! ### Fees and closing -/

/-- `PaperEngine._deduct_balance` -/
def deductBalance (amount : ℚ) : EngineM Bool := do
  let w ← Program.get
  if w.engine.state.balanceBtc < amount then pure false
  else do
    Program.modify (World.onState fun s => { s with balanceBtc := s.balanceBtc - amount })
    pure true

/-- `_deduct_balance(fee, ...)` and `self._fees_paid_btc += fee`, whatever the
former answers. -/
def chargeFee (fee : ℚ) : EngineM Unit := do
  let deducted ← deductBalance fee
  Program.modify fun w =>
    { w with engine := { w.engine with feesPaidBtc := w.engine.feesPaidBtc + fee } }
  Program.emit (.fee fee deducted)

/-- `_calc_fee` -/
def calcFee (size : ℚ) : ℚ := size * cfg.dca.takerFee

/-- The close shared by the take-profit and stop-loss branches. -/
def closeOpenDeal (d : PaperDeal) (fillPrice : ℚ) (reason : CloseReason) (trigger : ExitTrigger) :
    EngineM Unit := do
  Program.modify (World.setExitTrigger d.id trigger)
  Program.modify (World.onState fun s => s.closeDeal d.id fillPrice reason now)
  chargeFee (calcFee cfg d.totalSize)
  Program.emit (.ledger (.closeDeal d.id fillPrice reason (d.calculatePnl fillPrice).1
    (d.calculatePnl fillPrice).2 now trigger))

/-! ### Take profit -/

/-- The target percentage of the deal, `none` where its take profit is off. -/
def tpTargetPct (d : PaperDeal) : Option ℚ :=
  match d.tpOverride with
  | some ov =>
    if ov.enabled.getD true then some (ov.targetPct.getD cfg.takeProfit.targetPct) else none
  | none => if cfg.takeProfit.enabled then some cfg.takeProfit.targetPct else none

/-- The extreme since open in the direction the deal gains, folded with the tick. -/
def wickExtreme (d : PaperDeal) (price : ℚ) : ℚ :=
  match d.side with
  | .long => max d.wickHighSinceOpen price
  | .short => min d.wickLowSinceOpen price

/-- `wick_hit` -/
def wickHit (d : PaperDeal) (price target : ℚ) : Bool :=
  cfg.useWickSimulation && reaches d.side (wickExtreme d price) target

/-- The minimum-profit and confirmation gates of a reached target. -/
def tpGates (d : PaperDeal) (price : ℚ) : Except PyError Bool :=
  if (match cfg.takeProfit.minimumTpPct with
      | some minTp => decide ((d.calculatePnl price).2 < minTp)
      | none => false) then .ok false
  else
    match c.closesPerTf cfg.timeframe with
    | [] => .ok true
    | _ => IndicatorEngine.checkTpConfirmation cfg sig c

/-- What `_check_tp` decides about a deal. -/
inductive TpVerdict where
  | idle
  | held
  | priceFill (fillPrice : ℚ)
  | indicatorFill (info : GroupTrigger)
  deriving DecidableEq, Repr

/-- The decision of `_check_tp`. -/
def tpVerdict (d : PaperDeal) (price : ℚ) : Except PyError TpVerdict :=
  match tpTargetPct cfg d with
  | none => .ok .idle
  | some tpPct => do
    let target ← computeTpTargetPrice d.avgEntryPrice tpPct d.side
    let tickHit := reaches d.side price target
    if wickHit cfg d price target || tickHit then do
      let passed ← tpGates cfg sig c d price
      if passed then pure (.priceFill (if tickHit then price else target)) else pure .held
    else
      match IndicatorEngine.checkTpIndicatorGroups cfg sig c with
      | some info => pure (.indicatorFill info)
      | none => pure .idle

/-- `_check_tp` -/
def checkTp (d : PaperDeal) (price : ℚ) : EngineM Unit := do
  let verdict ← Program.lift (tpVerdict cfg sig c d price)
  match verdict with
  | .idle => pure ()
  | .held => Program.emit (.tpHeld d.id)
  | .priceFill fillPrice => do
    closeOpenDeal cfg now d fillPrice .tp .priceTp
    Program.emit (.tpClosed d.id fillPrice .priceTp)
  | .indicatorFill info => do
    closeOpenDeal cfg now d price .tp (.indicatorTp info.groupName info.indicators)
    Program.emit (.tpClosed d.id price (.indicatorTp info.groupName info.indicators))

/-! ### Stop loss -/

/-- `StopLossConfig.type` as the override may also spell it. -/
def slTypeOf : StopLossType → SlType
  | .none => .none
  | .fixed => .fixed
  | .trailing => .trailing

/-- `sl_type` and `sl_pct`, `none` where the deal has no stop loss. -/
def slSettings (d : PaperDeal) : Option (SlType × ℚ) :=
  match d.slOverride with
  | some ov =>
    if ov.enabled.getD true then
      some (ov.type.getD (slTypeOf cfg.stopLoss.type), ov.pct.getD cfg.stopLoss.pct)
    else none
  | none =>
    if cfg.stopLoss.type = .none then none
    else some (slTypeOf cfg.stopLoss.type, cfg.stopLoss.pct)

/-- The trailing peak (trough for a short) after this tick. -/
def newPeak (d : PaperDeal) (price : ℚ) : ℚ :=
  let peak := if d.peakPrice = 0 then price else d.peakPrice
  match d.side with
  | .long =>
    max peak (if cfg.useWickSimulation then max d.wickHighSinceOpen price else price)
  | .short =>
    min peak (if cfg.useWickSimulation then min d.wickLowSinceOpen price else price)

/-- The price the stop is derived from: the peak, or the average entry. -/
def slReference (d : PaperDeal) (price : ℚ) : SlType → ℚ
  | .trailing => newPeak cfg d price
  | _ => d.avgEntryPrice

/-- `tick_hit` of the stop: at or beyond it in the direction the deal loses. -/
def slHit (side : Side) (price slPrice : ℚ) : Bool :=
  match side with
  | .long => decide (price ≤ slPrice)
  | .short => decide (slPrice ≤ price)

/-- `_check_sl` -/
def checkSl (d : PaperDeal) (price : ℚ) : EngineM Unit :=
  match slSettings cfg d with
  | none => pure ()
  | some (slType, slPct) => do
    if slType = .trailing then
      Program.modify (World.setPeakPrice d.id (newPeak cfg d price))
    else pure ()
    let slPrice ← Program.lift (computeSlTargetPrice (slReference cfg d price slType) slPct d.side)
    if slHit d.side price slPrice then do
      closeOpenDeal cfg now d price .sl (if slType = .trailing then .trailingSl else .priceSl)
      Program.emit (.slClosed d.id price)
    else pure ()

/-! ### DCA ladder -/

/-- The ladder has a rung left for the deal. -/
def dcaAllowed (d : PaperDeal) : Bool :=
  cfg.dca.enabled && d.dcaEnabled && decide (1 < cfg.dca.maxOrders) &&
    decide (d.dcaCount < cfg.dca.maxOrders - 1)

/-- `step`: the spacing of the next rung in percent. -/
def dcaStep (d : PaperDeal) : ℚ := cfg.dca.orderSpacingPct * cfg.dca.stepScale ^ d.dcaCount

/-- `triggered`: the tick is at or beyond the next rung from the last order. -/
def dcaTriggered (d : PaperDeal) (lastOrderPrice price : ℚ) : Bool :=
  match d.side with
  | .long => decide (price ≤ lastOrderPrice * (1 - dcaStep cfg d / 100))
  | .short => decide (lastOrderPrice * (1 + dcaStep cfg d / 100) ≤ price)

/-- `dca_size` -/
def dcaSize (d : PaperDeal) : ℚ :=
  Decimal.roundTo 8 (cfg.dca.baseOrderSize * cfg.dca.multiplier ^ d.dcaCount)

/-- The order `_check_dca` appends. -/
def dcaOrder (d : PaperDeal) (price : ℚ) : PaperOrder :=
  ⟨d.dcaCount + 2, price, dcaSize cfg d, now, .dca⟩

/-- The decision of `_check_dca`. -/
def dcaVerdict (d : PaperDeal) (price : ℚ) : Except PyError Bool :=
  if dcaAllowed cfg d then
    match d.orders.getLast? with
    | none => .error .indexError
    | some last => .ok (dcaTriggered cfg d last.price price)
  else .ok false

/-- `_check_dca` -/
def checkDca (d : PaperDeal) (price : ℚ) : EngineM Bool := do
  let triggered ← Program.lift (dcaVerdict cfg d price)
  if triggered then do
    let order := dcaOrder cfg now d price
    Program.modify (World.addOrder d.id order)
    chargeFee (calcFee cfg order.size)
    Program.emit (.ledger (.saveOrder order d.id (calcFee cfg order.size)))
    Program.emit (.ledger (.saveDeal { d with orders := d.orders ++ [order] }))
    Program.emit (.dcaFilled d.id price)
    pure true
  else pure false

/-! ### Monitoring -/

/-- `_update_deal_wick_trackers` on one deal. -/
def trackWick (tickPrice : ℚ) (d : PaperDeal) : PaperDeal :=
  { d with
    wickHighSinceOpen := if d.wickHighSinceOpen < tickPrice then tickPrice else d.wickHighSinceOpen
    wickLowSinceOpen := if tickPrice < d.wickLowSinceOpen then tickPrice else d.wickLowSinceOpen }

theorem trackWick_id (tickPrice : ℚ) (d : PaperDeal) : (trackWick tickPrice d).id = d.id := rfl

/-- `_update_deal_wick_trackers` -/
def updateDealWickTrackers (tickPrice : ℚ) : EngineM Unit :=
  Program.modify (World.onState fun s =>
    { s with openDeals := s.openDeals.mapValues (trackWick tickPrice) (trackWick_id tickPrice) })

/-- `MAX_DCA_PER_TICK` -/
def maxDcaPerTick : ℕ := 1

/-- Run `f` on the deal while it is still in `open_deals`, else `continue` with `z`. -/
def whileOpen {α : Type} (dealId : String) (z : α) (f : PaperDeal → EngineM α) : EngineM α := do
  let w ← Program.get
  match w.deal? dealId with
  | none => pure z
  | some d => f d

/-- One round of the loop of `_monitor_open_deals`; returns `dca_count_this_tick`. -/
def monitorDeal (price : ℚ) (dcaCount : ℕ) (dealId : String) : EngineM ℕ := do
  whileOpen dealId () fun d => checkTp cfg sig c now d price
  whileOpen dealId () fun d => checkSl cfg now d price
  whileOpen dealId dcaCount fun d =>
    if maxDcaPerTick ≤ dcaCount then pure dcaCount
    else do
      let placed ← checkDca cfg now d price
      pure (if placed then dcaCount + 1 else dcaCount)

/-- The loop of `_monitor_open_deals` over the snapshot of open deals. -/
def monitorDeals (price : ℚ) (dcaCount : ℕ) : List String → EngineM Unit
  | [] => pure ()
  | dealId :: rest => do
    let n ← monitorDeal cfg sig c now price dcaCount dealId
    monitorDeals price n rest

/-- `_monitor_open_deals` -/
def monitorOpenDeals (price : ℚ) : EngineM Unit := do
  updateDealWickTrackers price
  let w ← Program.get
  monitorDeals cfg sig c now price 0 (w.engine.state.openDeals.items.map PaperDeal.id)

/-! ### Drawdown guard -/

/-- `_current_equity_btc` -/
def currentEquityBtc (s : PaperState) (price : ℚ) : ℚ :=
  s.balanceBtc + (s.openDeals.items.map fun d => (d.calculatePnl price).1).sum

/-- The reading the guard is fed with. -/
def drawdownReading (s : PaperState) (price : ℚ) : ℚ :=
  match cfg.drawdownGuard.metric with
  | .balance => s.balanceBtc
  | .equity => currentEquityBtc s price

/-- `_update_drawdown_guard` on the members it touches. -/
def drawdownStep (price : ℚ) (e : EngineState) : EngineState :=
  if !cfg.drawdownGuard.enabled then e
  else
    let g := e.drawdownGuard.update cfg.drawdownGuard (drawdownReading cfg e.state price)
    if !g.triggered || e.pausedByDrawdown then { e with drawdownGuard := g }
    else
      { e with
        drawdownGuard := g
        running := if cfg.drawdownGuard.action = .stop then false else e.running
        pausedByDrawdown := true }

/-- `_update_drawdown_guard` -/
def updateDrawdownGuard (price : ℚ) : EngineM Unit :=
  Program.modify fun w => { w with engine := drawdownStep cfg price w.engine }

/-! ### Opening -/

/-- `_db_create_deal_with_retry`: the id the row got, after at most three attempts. -/
def createWithRetry (inp : OpenInput) : Option String :=
  match inp.createOutcome 0 with
  | .ok => some (inp.newDealId 0)
  | .failed => none
  | .integrityError =>
    match inp.createOutcome 1 with
    | .ok => some (inp.newDealId 1)
    | .failed => none
    | .integrityError =>
      match inp.createOutcome 2 with
      | .ok => some (inp.newDealId 2)
      | _ => none

/-- The base order and the deal `_open_deal` builds. -/
def newDeal (dealId : String) (price : ℚ) (trigger : Option GroupTrigger) : PaperDeal :=
  PaperDeal.postInit
    { id := dealId
      botName := cfg.name
      symbol := cfg.pair
      side := cfg.direction
      leverage := cfg.leverage.size
      orders := [⟨1, price, cfg.dca.baseOrderSize, now, .base⟩]
      openedAt := now
      entryTrigger := trigger }

/-- `_open_deal`; the open is refused when the ledger has no row for it. -/
def openDeal (inp : OpenInput) (price : ℚ) (trigger : Option GroupTrigger) : EngineM Unit :=
  match createWithRetry inp with
  | none => pure ()
  | some dealId => do
    let deal := newDeal cfg now dealId price trigger
    let fee := calcFee cfg cfg.dca.baseOrderSize
    Program.emit (.ledger (.createDeal deal))
    Program.modify (World.onState fun s => s.openDeal deal)
    chargeFee fee
    Program.emit (.ledger (.saveOrder ⟨1, price, cfg.dca.baseOrderSize, now, .base⟩ dealId fee))
    Program.emit (.opened dealId price)

/-- `_manual_trigger_liq_safe` -/
def manualTriggerLiqSafe (price : ℚ) : Bool :=
  if cfg.leverage.size ≤ 1 ∨ cfg.leverage.enabled = false then true
  else
    let liqPrice := calculateLiquidationPrice price cfg.leverage.size .long
    if liqPrice ≤ 0 ∨ price ≤ 0 then false
    else decide (cfg.leverage.liquidationGuard.emergencyClosePct < |price - liqPrice| / price * 100)

/-- `_check_manual_trigger` -/
def checkManualTrigger (inp : TickInput) (price : ℚ) : EngineM Unit := do
  let w ← Program.get
  if inp.manualTrigger = true ∧ w.engine.state.openDeals.items = [] ∧
      manualTriggerLiqSafe cfg price = true then
    openDeal cfg now inp.manualOpen price none
  else pure ()

/-- `_check_entry` -/
def checkEntry (inp : TickInput) (price : ℚ) : EngineM Unit := do
  let w ← Program.get
  if w.engine.state.openDeals.items = [] ∧ c.closesPerTf cfg.timeframe ≠ [] then
    match IndicatorEngine.checkEntrySignal cfg sig c with
    | (true, trigger) => openDeal cfg now inp.entryOpen price trigger
    | (false, _) => pure ()
  else pure ()

/-! ### Sentinels -/

/-- The edit branch of `_check_deal_sentinels`: a present key replaces the whole value. -/
def applySettings (s : EditSettings) (d : PaperDeal) : PaperDeal :=
  { d with
    tpOverride := if s.tpOverride.isSome then s.tpOverride else d.tpOverride
    slOverride := if s.slOverride.isSome then s.slOverride else d.slOverride
    dcaEnabled := s.dcaEnabled.getD d.dcaEnabled }

theorem applySettings_id (s : EditSettings) (d : PaperDeal) : (applySettings s d).id = d.id := rfl

/-- An edit that gives the deal other take-profit settings. -/
def tpChanged (s : EditSettings) (d : PaperDeal) : Bool :=
  decide ((applySettings s d).tpOverride ≠ d.tpOverride)

/-- The cancel and close branch: `DealCloseHandler.close_deal`, whose fee the
engine adds to its counter. -/
def handleClose (d : PaperDeal) (price : ℚ) (action : CloseAction) : EngineM Unit := do
  let w ← Program.get
  match DealCloseHandler.accept w.engine.state d.id price with
  | .error _ => pure ()
  | .ok deal => do
    let state := DealCloseHandler.actState cfg.dca.takerFee w.engine.state deal price now action
    let result := DealCloseHandler.result cfg.dca.takerFee deal price now action
    Program.emit (.ledger (DealCloseHandler.ledgerCall deal price now action))
    Program.modify fun w =>
      { w with
        engine :=
          { w.engine with state := state, feesPaidBtc := w.engine.feesPaidBtc + result.feeBtc }
        file := some (DealCloseHandler.persistState cfg.name state w.file) }
    Program.emit (.handlerClosed deal.id price action)

/-- One sentinel of `_check_deal_sentinels`. -/
def consumeSentinel (price : ℚ) : Sentinel → EngineM Unit
  | .edit dealId settings => whileOpen dealId () fun d => do
    Program.modify (World.onDeal d.id (applySettings settings) (applySettings_id settings))
    Program.emit (.edited d.id settings (tpChanged settings d))
  | .act dealId action => whileOpen dealId () fun d => handleClose cfg now d price action
  | .unknown _ => pure ()

/-- `_check_deal_sentinels` -/
def checkDealSentinels (inp : TickInput) (price : ℚ) : EngineM Unit :=
  Program.forEach (consumeSentinel cfg now price) inp.sentinels

/-! ### The tick -/

/-- `_write_state` -/
def writeState (price : ℚ) (isOpen : Bool) : EngineM Unit :=
  Program.modify fun w => { w with file := some (writeStateDoc cfg w.engine price isOpen now) }

/-- The `if is_open and not self._paused_by_drawdown` of the tick. -/
def entryStep (inp : TickInput) (price : ℚ) : EngineM Unit := do
  let w ← Program.get
  if inp.isOpen = true ∧ w.engine.pausedByDrawdown = false then
    checkEntry cfg sig inp.candles inp.now inp price
  else pure ()

/-- The body of `_tick` once the price is known. -/
def tickAt (inp : TickInput) (price : ℚ) : EngineM Unit := do
  Program.modify fun w => { w with engine := { w.engine with currentPrice := price } }
  monitorOpenDeals cfg sig inp.candles inp.now price
  updateDrawdownGuard cfg price
  checkManualTrigger cfg inp.now inp price
  checkDealSentinels cfg inp.now inp price
  entryStep cfg sig inp price
  writeState cfg inp.now price inp.isOpen

/-- The `try` block of `_tick`; an exception is logged and the tick is over. -/
def tickBody (inp : TickInput) : EngineM Unit :=
  Program.handle
    (Program.lift inp.ticker >>= fun ticker => tickAt cfg sig inp ticker.tickPrice)
    fun e => Program.emit (.tickError e)

/-- `LiveEngine._pre_tick_hook`; a paper engine is one whose clock is always right. -/
def preTickHook (inp : TickInput) : EngineM Unit :=
  Program.modify fun w =>
    { w with
      engine :=
        if inp.clockOk then { w.engine with pausedByClockSkew := false }
        else
          { w.engine with
            pausedByClockSkew := true
            prevDrawdownForSkew := w.engine.pausedByDrawdown
            pausedByDrawdown := true } }

/-- `LiveEngine._post_tick_hook` -/
def postTickHook : EngineM Unit :=
  Program.modify fun w =>
    { w with
      engine :=
        if w.engine.pausedByClockSkew then
          { w.engine with pausedByDrawdown := w.engine.prevDrawdownForSkew }
        else w.engine }

/-- `_tick` -/
def tick (inp : TickInput) : EngineM Unit := do
  preTickHook inp
  tickBody cfg sig inp
  postTickHook

end TradingEngine

end Reverto
