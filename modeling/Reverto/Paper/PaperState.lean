import Mathlib.Tactic
import Reverto.Config.Models
import Reverto.Lib.Decimal
import Reverto.Lib.KeyedDict

/-!
# Deals and the paper account (paper/paper_state.py)

Prices, sizes and balances are exact rationals. A deal in `open_deals` is the
object the engine mutates, so updates of an open deal go through its id.
-/

namespace Reverto

/-- A `datetime`, in microseconds. -/
abbrev Instant := ℤ

/-- `PaperOrder.order_type` -/
inductive OrderType where
  | base
  | dca
  deriving DecidableEq, Repr

/-- `PaperOrder` -/
structure PaperOrder where
  orderNumber : ℕ
  price : ℚ
  size : ℚ
  timestamp : Instant
  orderType : OrderType
  deriving DecidableEq, Repr

/-- `PaperDeal.close_reason` -/
inductive CloseReason where
  | tp
  | sl
  | manual
  | cancelled
  | endOfData
  deriving DecidableEq, Repr

/-- `entry_trigger`, and the group an indicator take-profit fired on. -/
structure GroupTrigger where
  groupId : ℤ
  groupName : String
  indicators : List String
  deriving DecidableEq, Repr

/-- `exit_trigger` -/
inductive ExitTrigger where
  | priceTp
  | indicatorTp (groupName : String) (indicators : List String)
  | priceSl
  | trailingSl
  | manual
  | cancelled
  | timeout
  deriving DecidableEq, Repr

/-- `_tp_override`: the keys the PATCH endpoint may put in the dict. -/
structure TpOverride where
  enabled : Option Bool := none
  targetPct : Option ℚ := none
  deriving DecidableEq, Repr

/-- The `type` of an `_sl_override`; the endpoint accepts any string. -/
inductive SlType where
  | none
  | fixed
  | trailing
  | other (s : String)
  deriving DecidableEq, Repr

/-- `_sl_override` -/
structure SlOverride where
  enabled : Option Bool := none
  type : Option SlType := none
  pct : Option ℚ := none
  deriving DecidableEq, Repr

/-- `PaperDeal` -/
structure PaperDeal where
  id : String
  botName : String
  symbol : String
  side : Side
  leverage : ℕ
  orders : List PaperOrder
  isOpen : Bool := true
  openedAt : Instant
  closedAt : Option Instant := none
  closePrice : Option ℚ := none
  closeReason : Option CloseReason := none
  pnlBtc : ℚ := 0
  pnlPct : ℚ := 0
  entryTrigger : Option GroupTrigger := none
  exitTrigger : Option ExitTrigger := none
  peakPrice : ℚ := 0
  tpOverride : Option TpOverride := none
  slOverride : Option SlOverride := none
  dcaEnabled : Bool := true
  wickHighSinceOpen : ℚ := 0
  wickLowSinceOpen : ℚ := 0
  deriving DecidableEq, Repr

namespace PaperDeal

/-- `total_size` -/
def totalSize (d : PaperDeal) : ℚ := (d.orders.map PaperOrder.size).sum

/-- `avg_entry_price` -/
def avgEntryPrice (d : PaperDeal) : ℚ :=
  if d.orders = [] then 0
  else (d.orders.map fun o => o.price * o.size).sum / d.totalSize

/-- `dca_count` -/
def dcaCount (d : PaperDeal) : ℕ := (d.orders.filter fun o => o.orderType = .dca).length

/-- `__post_init__`: trackers still at the default 0 start at the entry price. -/
def postInit (d : PaperDeal) : PaperDeal :=
  { d with
    wickHighSinceOpen :=
      if d.wickHighSinceOpen = 0 ∧ d.orders ≠ [] then d.avgEntryPrice else d.wickHighSinceOpen
    wickLowSinceOpen :=
      if d.wickLowSinceOpen = 0 ∧ d.orders ≠ [] then d.avgEntryPrice else d.wickLowSinceOpen }

/-- `calculate_pnl`: `(pnl_btc, pnl_pct)` at a price, `(0, 0)` where the
formula is undefined. -/
def calculatePnl (d : PaperDeal) (currentPrice : ℚ) : ℚ × ℚ :=
  if d.orders = [] ∨ currentPrice ≤ 0 then (0, 0)
  else if d.avgEntryPrice ≤ 0 then (0, 0)
  else
    let move := match d.side with
      | .long => currentPrice - d.avgEntryPrice
      | .short => d.avgEntryPrice - currentPrice
    let pnlBtc := d.totalSize * move / currentPrice * d.leverage
    let marginBtc := d.totalSize / d.leverage
    (pnlBtc, pnlBtc / marginBtc * 100)

/-- What `PaperState.close_deal` writes on the deal. -/
def closed (d : PaperDeal) (closePrice : ℚ) (reason : CloseReason) (now : Instant) : PaperDeal :=
  { d with
    isOpen := false
    closedAt := some now
    closePrice := some closePrice
    closeReason := some reason
    pnlBtc := (d.calculatePnl closePrice).1
    pnlPct := (d.calculatePnl closePrice).2 }

@[simp] theorem closed_id (d : PaperDeal) (p : ℚ) (r : CloseReason) (t : Instant) :
    (d.closed p r t).id = d.id := rfl

@[simp] theorem closed_pnlBtc (d : PaperDeal) (p : ℚ) (r : CloseReason) (t : Instant) :
    (d.closed p r t).pnlBtc = (d.calculatePnl p).1 := rfl

theorem totalSize_nonneg (d : PaperDeal) (h : ∀ o ∈ d.orders, 0 ≤ o.size) : 0 ≤ d.totalSize :=
  List.sum_nonneg (List.forall_mem_map.mpr h)

theorem avgEntryPrice_congr (d e : PaperDeal) (ho : d.orders = e.orders) :
    d.avgEntryPrice = e.avgEntryPrice := by
  simp only [avgEntryPrice, totalSize, ho]

/-- The PnL reads the orders, the side and the leverage only. -/
theorem calculatePnl_congr (d e : PaperDeal) (p : ℚ) (ho : d.orders = e.orders)
    (hs : d.side = e.side) (hl : d.leverage = e.leverage) :
    d.calculatePnl p = e.calculatePnl p := by
  have ht : d.totalSize = e.totalSize := by simp only [totalSize, ho]
  have ha := avgEntryPrice_congr d e ho
  simp only [calculatePnl, ho, ht, ha, hs, hl]

end PaperDeal

/-- `open_deals`, keyed by the deal's id. -/
abbrev OpenDeals := KeyedDict PaperDeal.id

/-- `PaperState` -/
structure PaperState where
  balanceBtc : ℚ
  initialBalanceBtc : ℚ
  openDeals : OpenDeals
  closedDeals : List PaperDeal
  deriving DecidableEq

namespace PaperState

/-- `PaperState(initial_balance_btc)` -/
def init (initialBalanceBtc : ℚ) : PaperState :=
  ⟨initialBalanceBtc, initialBalanceBtc, KeyedDict.empty, []⟩

/-- `open_deal` -/
def openDeal (s : PaperState) (d : PaperDeal) : PaperState :=
  { s with openDeals := s.openDeals.set d }

/-- `close_deal`: no effect when the deal is not open. -/
def closeDeal (s : PaperState) (dealId : String) (closePrice : ℚ) (reason : CloseReason)
    (now : Instant) : PaperState :=
  match s.openDeals.get? dealId with
  | none => s
  | some d =>
    { s with
      openDeals := s.openDeals.pop dealId
      balanceBtc := s.balanceBtc + (d.calculatePnl closePrice).1
      closedDeals := s.closedDeals ++ [d.closed closePrice reason now] }

/-- Write through the reference to an open deal. -/
def updateDeal (s : PaperState) (dealId : String) (f : PaperDeal → PaperDeal)
    (hf : ∀ d, (f d).id = d.id) : PaperState :=
  { s with openDeals := s.openDeals.modify dealId f hf }

/-- `total_pnl_btc` -/
def totalPnlBtc (s : PaperState) : ℚ := (s.closedDeals.map PaperDeal.pnlBtc).sum

/-- `_win_rate` -/
def winRate (closed : List PaperDeal) : ℚ :=
  if closed = [] then 0
  else Decimal.roundTo 2
    (((closed.filter fun d => 0 < d.pnlBtc).length : ℚ) / closed.length * 100)

theorem closeDeal_none (s : PaperState) (i : String) (p : ℚ) (r : CloseReason) (t : Instant)
    (h : s.openDeals.get? i = none) : s.closeDeal i p r t = s := by
  simp only [closeDeal, h]

theorem closeDeal_some (s : PaperState) (i : String) (p : ℚ) (r : CloseReason) (t : Instant)
    (d : PaperDeal) (h : s.openDeals.get? i = some d) :
    s.closeDeal i p r t =
      { s with
        openDeals := s.openDeals.pop i
        balanceBtc := s.balanceBtc + (d.calculatePnl p).1
        closedDeals := s.closedDeals ++ [d.closed p r t] } := by
  simp only [closeDeal, h]

theorem closeDeal_openDeals (s : PaperState) (i : String) (p : ℚ) (r : CloseReason)
    (t : Instant) : (s.closeDeal i p r t).openDeals = s.openDeals.pop i := by
  cases h : s.openDeals.get? i with
  | none => rw [closeDeal_none s i p r t h, KeyedDict.pop_of_none _ _ h]
  | some d => rw [closeDeal_some s i p r t d h]

/-- Closing appends at most one deal to the history. -/
theorem closeDeal_closedDeals (s : PaperState) (i : String) (p : ℚ) (r : CloseReason)
    (t : Instant) :
    ∃ ds, (s.closeDeal i p r t).closedDeals = s.closedDeals ++ ds ∧ ∀ d ∈ ds, d.isOpen = false := by
  cases h : s.openDeals.get? i with
  | none =>
    rw [closeDeal_none s i p r t h]
    exact ⟨[], by simp, by simp⟩
  | some d =>
    rw [closeDeal_some s i p r t d h]
    exact ⟨[d.closed p r t], rfl, by simp [PaperDeal.closed]⟩

/-- Closing a deal books its PnL on the balance and in the history alike. -/
theorem closeDeal_booked (s : PaperState) (i : String) (p : ℚ) (r : CloseReason) (t : Instant) :
    (s.closeDeal i p r t).balanceBtc - (s.closeDeal i p r t).totalPnlBtc
      = s.balanceBtc - s.totalPnlBtc := by
  cases h : s.openDeals.get? i with
  | none => rw [closeDeal_none s i p r t h]
  | some d =>
    rw [closeDeal_some s i p r t d h]
    simp only [totalPnlBtc, List.map_append, List.sum_append, List.map_cons, List.map_nil,
      List.sum_cons, List.sum_nil, PaperDeal.closed_pnlBtc]
    ring

end PaperState

end Reverto
