import Mathlib.Tactic
import Reverto.Core.InversePerpMath
import Reverto.Lib.Program
import Reverto.Paper.CloseHandler

/-!
# State, events and persistence of an engine (core/trading_engine.py)

`EngineState` is the memory of the engine process, `World` adds the state file
it shares with the portal. `_write_state` and `_load_state` connect the two.
-/

namespace Reverto

/-- The members of a `TradingEngine` that outlive a tick. -/
structure EngineState where
  state : PaperState
  feesPaidBtc : ℚ := 0
  drawdownGuard : DrawdownGuard := {}
  pausedByDrawdown : Bool := false
  pausedByClockSkew : Bool := false
  prevDrawdownForSkew : Bool := false
  running : Bool := true
  currentPrice : ℚ := 0
  deriving DecidableEq

/-- An engine process and its `state.json`. -/
structure World where
  engine : EngineState
  file : Option StateDoc
  deriving DecidableEq

/-- Per-deal settings of an edit sentinel. -/
structure EditSettings where
  tpOverride : Option TpOverride := none
  slOverride : Option SlOverride := none
  dcaEnabled : Option Bool := none
  deriving DecidableEq, Repr

/-- What an operation of the engine does that is seen from outside the state. -/
inductive EngineEvent where
  | ledger (call : LedgerCall)
  | fee (amount : ℚ) (deducted : Bool)
  | opened (dealId : String) (price : ℚ)
  | dcaFilled (dealId : String) (price : ℚ)
  | tpHeld (dealId : String)
  | tpClosed (dealId : String) (fillPrice : ℚ) (trigger : ExitTrigger)
  | slClosed (dealId : String) (fillPrice : ℚ)
  | handlerClosed (dealId : String) (price : ℚ) (action : CloseAction)
  | edited (dealId : String) (settings : EditSettings) (tpChanged : Bool)
  | tickError (error : PyError)
  deriving DecidableEq, Repr

/-- A method of the engine. -/
abbrev EngineM := Program PyError EngineEvent World

/-! ### Persistence -/

/-- `CLOSED_DEALS_UI_CAP` -/
def closedDealsUiCap : ℕ := 50

/-- `_write_state` -/
def writeStateDoc (cfg : BotConfig) (e : EngineState) (price : ℚ) (isOpen : Bool) (now : Instant) :
    StateDoc where
  botName := cfg.name
  running := some true
  currentPrice := price
  scheduleOpen := some isOpen
  balanceBtc := some (Decimal.roundTo 8 e.state.balanceBtc)
  initialBalanceBtc := some e.state.initialBalanceBtc
  totalPnlBtc := some e.state.totalPnlBtc
  winRate := some (PaperState.winRate e.state.closedDeals)
  openDealsCount := e.state.openDeals.items.length
  closedDealsCount := e.state.closedDeals.length
  feesPaidBtc := some (Decimal.roundTo 10 e.feesPaidBtc)
  updatedAt := some now
  lastHeartbeat := some now
  openDeals := e.state.openDeals.items.map fun d => dealToDict d price
  closedDeals := (e.state.closedDeals.reverse.take closedDealsUiCap).map fun d => dealToDict d 0
  drawdownGuard := some e.drawdownGuard
  pausedByDrawdown := e.pausedByDrawdown
  pausedByClockSkew := e.pausedByClockSkew

/-- `__init__` followed by `_load_state`. -/
def bootEngine (initialBalanceBtc : ℚ) : Option StateDoc → EngineState
  | none => { state := PaperState.init initialBalanceBtc }
  | some doc =>
    { state :=
        { balanceBtc := doc.balanceBtc.getD initialBalanceBtc
          initialBalanceBtc := doc.initialBalanceBtc.getD initialBalanceBtc
          openDeals := doc.loadOpenDeals
          closedDeals := doc.closedDeals.map dictToDeal }
      feesPaidBtc := doc.feesPaidBtc.getD 0
      drawdownGuard := doc.drawdownGuard.getD {}
      pausedByDrawdown := doc.pausedByDrawdown }

/-- An engine that was just created, without a state file. -/
def freshWorld (initialBalanceBtc : ℚ) : World := ⟨bootEngine initialBalanceBtc none, none⟩

/-! ### Updates of the world -/

namespace World

/-- Update the account. -/
def onState (f : PaperState → PaperState) (w : World) : World :=
  { w with engine := { w.engine with state := f w.engine.state } }

/-- Update an open deal. -/
def onDeal (dealId : String) (f : PaperDeal → PaperDeal) (hf : ∀ d, (f d).id = d.id) :
    World → World :=
  onState fun s => s.updateDeal dealId f hf

/-- Note on an open deal why it is about to be closed. -/
abbrev setExitTrigger (dealId : String) (trigger : ExitTrigger) : World → World :=
  onDeal dealId (fun d => { d with exitTrigger := some trigger }) fun _ => rfl

/-- Move the trailing peak of an open deal. -/
abbrev setPeakPrice (dealId : String) (peakPrice : ℚ) : World → World :=
  onDeal dealId (fun d => { d with peakPrice := peakPrice }) fun _ => rfl

/-- Append an order to an open deal. -/
abbrev addOrder (dealId : String) (order : PaperOrder) : World → World :=
  onDeal dealId (fun d => { d with orders := d.orders ++ [order] }) fun _ => rfl

/-- The deal open under an id. -/
def deal? (w : World) (dealId : String) : Option PaperDeal :=
  w.engine.state.openDeals.get? dealId

@[simp] theorem onState_state (f : PaperState → PaperState) (w : World) :
    (w.onState f).engine.state = f w.engine.state := rfl

@[simp] theorem onState_fees (f : PaperState → PaperState) (w : World) :
    (w.onState f).engine.feesPaidBtc = w.engine.feesPaidBtc := rfl

@[simp] theorem onState_guard (f : PaperState → PaperState) (w : World) :
    (w.onState f).engine.drawdownGuard = w.engine.drawdownGuard := rfl

@[simp] theorem onState_paused (f : PaperState → PaperState) (w : World) :
    (w.onState f).engine.pausedByDrawdown = w.engine.pausedByDrawdown := rfl

@[simp] theorem onState_file (f : PaperState → PaperState) (w : World) :
    (w.onState f).file = w.file := rfl

end World

end Reverto
