import Mathlib.Tactic
import Reverto.Core.DrawdownGuard
import Reverto.Paper.PaperState

/-!
# The state file (paper/state_io.py)

The JSON documents of `state.json` and the codec of deals. A key that a loader
reads with a default is an `Option`; the labels no loader reads are left out.
-/

namespace Reverto

/-- The dict of `deal_to_dict`. -/
structure DealDoc where
  id : String
  botName : String
  symbol : String
  side : Side
  leverage : ℕ
  orderCount : ℕ
  dcaCount : ℕ
  entryPrice : ℚ
  avgEntryPrice : ℚ
  totalSize : ℚ
  pnlBtc : ℚ
  pnlPct : ℚ
  openedAt : Instant
  closedAt : Option Instant
  closePrice : Option ℚ
  closeReason : Option CloseReason
  isOpen : Bool
  peakPrice : ℚ
  tpOverride : Option TpOverride
  slOverride : Option SlOverride
  dcaEnabled : Bool
  wickHighSinceOpen : Option ℚ
  wickLowSinceOpen : Option ℚ
  entryTrigger : Option GroupTrigger
  exitTrigger : Option ExitTrigger
  orders : List PaperOrder
  deriving DecidableEq, Repr

/-- The PnL `deal_to_dict` shows: stored for a closed deal, unrealised at a
non-zero current price for an open one. -/
def PaperDeal.shownPnl (d : PaperDeal) (currentPrice : ℚ) : ℚ × ℚ :=
  if d.isOpen = false then (d.pnlBtc, d.pnlPct)
  else if currentPrice ≠ 0 then d.calculatePnl currentPrice
  else (0, 0)

/-- `deal_to_dict` -/
def dealToDict (d : PaperDeal) (currentPrice : ℚ) : DealDoc where
  id := d.id
  botName := d.botName
  symbol := d.symbol
  side := d.side
  leverage := d.leverage
  orderCount := d.orders.length
  dcaCount := d.dcaCount
  entryPrice := match d.orders with
    | [] => 0
    | o :: _ => Decimal.roundTo 2 o.price
  avgEntryPrice := Decimal.roundTo 2 d.avgEntryPrice
  totalSize := d.totalSize
  pnlBtc := Decimal.roundTo 8 (d.shownPnl currentPrice).1
  pnlPct := Decimal.roundTo 4 (d.shownPnl currentPrice).2
  openedAt := d.openedAt
  closedAt := d.closedAt
  closePrice := d.closePrice
  closeReason := d.closeReason
  isOpen := d.isOpen
  peakPrice := d.peakPrice
  tpOverride := d.tpOverride
  slOverride := d.slOverride
  dcaEnabled := d.dcaEnabled
  wickHighSinceOpen := some d.wickHighSinceOpen
  wickLowSinceOpen := some d.wickLowSinceOpen
  entryTrigger := d.entryTrigger
  exitTrigger := d.exitTrigger
  orders := d.orders

/-- `dict_to_deal`: trackers missing from an old file start at the entry price. -/
def dictToDeal (x : DealDoc) : PaperDeal :=
  let d : PaperDeal :=
    { id := x.id, botName := x.botName, symbol := x.symbol, side := x.side
      leverage := x.leverage, orders := x.orders, isOpen := x.isOpen, openedAt := x.openedAt
      closedAt := x.closedAt, closePrice := x.closePrice, closeReason := x.closeReason
      pnlBtc := x.pnlBtc, pnlPct := x.pnlPct }
  { d with
    peakPrice := x.peakPrice
    tpOverride := x.tpOverride
    slOverride := x.slOverride
    dcaEnabled := x.dcaEnabled
    wickHighSinceOpen := x.wickHighSinceOpen.getD d.avgEntryPrice
    wickLowSinceOpen := x.wickLowSinceOpen.getD d.avgEntryPrice
    entryTrigger := x.entryTrigger
    exitTrigger := x.exitTrigger }

@[simp] theorem dealToDict_id (d : PaperDeal) (p : ℚ) : (dealToDict d p).id = d.id := rfl

@[simp] theorem dictToDeal_id (x : DealDoc) : (dictToDeal x).id = x.id := rfl

@[simp] theorem dealToDict_pnlBtc (d : PaperDeal) (p : ℚ) :
    (dealToDict d p).pnlBtc = Decimal.roundTo 8 (d.shownPnl p).1 := rfl

/-- Decoding an encoded deal gives it back, its PnL as shown in the document. -/
theorem dictToDeal_dealToDict (d : PaperDeal) (p : ℚ) :
    dictToDeal (dealToDict d p) =
      { d with
        pnlBtc := Decimal.roundTo 8 (d.shownPnl p).1
        pnlPct := Decimal.roundTo 4 (d.shownPnl p).2 } := rfl

theorem shownPnl_closed (d : PaperDeal) (p : ℚ) (h : d.isOpen = false) :
    d.shownPnl p = (d.pnlBtc, d.pnlPct) := by
  simp [PaperDeal.shownPnl, h]

/-- The document of a closed deal is stable under a load and a second save. -/
theorem dealToDict_reencode (d : PaperDeal) (p q : ℚ) (h : d.isOpen = false) :
    dealToDict (dictToDeal (dealToDict d p)) q = dealToDict d p := by
  have hs := shownPnl_closed d p h
  rw [dictToDeal_dealToDict, hs]
  have hs' := shownPnl_closed
    { d with pnlBtc := Decimal.roundTo 8 d.pnlBtc, pnlPct := Decimal.roundTo 4 d.pnlPct } q h
  simp only [dealToDict, hs, hs', Decimal.roundTo_roundTo]
  rfl

/-- `state.json` -/
structure StateDoc where
  botName : String := ""
  running : Option Bool := none
  currentPrice : ℚ := 0
  scheduleOpen : Option Bool := none
  balanceBtc : Option ℚ := none
  initialBalanceBtc : Option ℚ := none
  totalPnlBtc : Option ℚ := none
  winRate : Option ℚ := none
  openDealsCount : ℕ := 0
  closedDealsCount : ℕ := 0
  feesPaidBtc : Option ℚ := none
  updatedAt : Option Instant := none
  lastHeartbeat : Option Instant := none
  openDeals : List DealDoc := []
  closedDeals : List DealDoc := []
  drawdownGuard : Option DrawdownGuard := none
  pausedByDrawdown : Bool := false
  pausedByClockSkew : Bool := false
  stoppedAt : Option Instant := none
  stoppedReason : Option String := none
  deriving DecidableEq

/-- `mark_stopped`: the document it writes back. -/
def StateDoc.markStopped (file : Option StateDoc) : StateDoc :=
  { file.getD {} with running := some false, currentPrice := 0 }

/-- The open deals of a document, as `load` files them under their ids. -/
def StateDoc.loadOpenDeals (doc : StateDoc) : OpenDeals :=
  KeyedDict.ofList (doc.openDeals.map dictToDeal)

/-- `load_paper_state_from_file` -/
def loadPaperStateFromFile : Option StateDoc → PaperState
  | none => PaperState.init (1 / 10)
  | some doc =>
    { balanceBtc := doc.balanceBtc.getD 0
      initialBalanceBtc := doc.initialBalanceBtc.getD (1 / 10)
      openDeals := doc.loadOpenDeals
      closedDeals := doc.closedDeals.map dictToDeal }

end Reverto
