import Mathlib.Tactic
import Reverto.Paper.PaperState

/-!
# Ledger of deals (core/deal_store.py)

The `deals` table as its rows in insertion order, and the calls the engine and
the close handler make on it.
-/

namespace Reverto

/-- `deals.status` -/
inductive DealStatus where
  | open
  | closed
  deriving DecidableEq, Repr

/-- A row of `deals`. -/
structure DealRow where
  id : String
  userId : ℕ
  botSlug : String
  botName : String
  side : Side
  status : DealStatus
  closeReason : Option CloseReason
  openedAt : Instant
  closedAt : Option Instant
  initialPrice : ℚ
  avgEntry : ℚ
  closePrice : Option ℚ
  totalSize : ℚ
  leverage : ℕ
  pnlBtc : ℚ
  pnlPct : ℚ
  peakPrice : ℚ
  entryTrigger : Option GroupTrigger
  exitTrigger : Option ExitTrigger
  deriving DecidableEq, Repr

/-- Whose rows a call works on. -/
structure LedgerOwner where
  userId : ℕ
  botSlug : String
  botName : String
  deriving DecidableEq, Repr

/-- `_deal_row_tuple` -/
def dealRowTuple (o : LedgerOwner) (d : PaperDeal) : DealRow where
  id := d.id
  userId := o.userId
  botSlug := o.botSlug
  botName := o.botName
  side := d.side
  status := if d.isOpen then .open else .closed
  closeReason := d.closeReason
  openedAt := d.openedAt
  closedAt := d.closedAt
  initialPrice := match d.orders with
    | [] => 0
    | ord :: _ => ord.price
  avgEntry := d.avgEntryPrice
  closePrice := d.closePrice
  totalSize := d.totalSize
  leverage := d.leverage
  pnlBtc := d.pnlBtc
  pnlPct := d.pnlPct
  peakPrice := d.peakPrice
  entryTrigger := d.entryTrigger
  exitTrigger := d.exitTrigger

/-- The row is one of this bot. -/
def DealRow.OwnedBy (r : DealRow) (o : LedgerOwner) : Prop := r.userId = o.userId ∧ r.botSlug = o.botSlug

instance (r : DealRow) (o : LedgerOwner) : Decidable (r.OwnedBy o) :=
  inferInstanceAs (Decidable (_ ∧ _))

theorem dealRowTuple_ownedBy (o : LedgerOwner) (d : PaperDeal) : (dealRowTuple o d).OwnedBy o :=
  ⟨rfl, rfl⟩

/-- A call of the engine or the close handler on the ledger. -/
inductive LedgerCall where
  | createDeal (deal : PaperDeal)
  | saveOrder (order : PaperOrder) (dealId : String) (feeBtc : ℚ)
  | saveDeal (deal : PaperDeal)
  | closeDeal (dealId : String) (closePrice : ℚ) (reason : CloseReason) (pnlBtc pnlPct : ℚ)
      (closedAt : Instant) (exitTrigger : ExitTrigger)
  deriving DecidableEq, Repr

/-- `close_deal`: `UPDATE deals ... WHERE id = ? AND user_id = ?`. -/
def DealRow.close (r : DealRow) (closePrice : ℚ) (reason : CloseReason) (pnlBtc pnlPct : ℚ)
    (closedAt : Instant) (exitTrigger : ExitTrigger) : DealRow :=
  { r with
    status := .closed
    closePrice := some closePrice
    closeReason := some reason
    pnlBtc := pnlBtc
    pnlPct := pnlPct
    closedAt := some closedAt
    exitTrigger := some exitTrigger }

/-- The `deals` table after a call that went through. -/
def LedgerCall.apply (o : LedgerOwner) (rows : List DealRow) : LedgerCall → List DealRow
  | .createDeal d => if rows.any fun r => r.id = d.id then rows else rows ++ [dealRowTuple o d]
  | .saveOrder .. => rows
  | .saveDeal d =>
    if rows.any fun r => r.id = d.id ∧ r.userId = o.userId ∧ r.botSlug = o.botSlug then
      rows.map fun r =>
        if r.id = d.id ∧ r.userId = o.userId ∧ r.botSlug = o.botSlug then dealRowTuple o d else r
    else if rows.any fun r => r.id = d.id then rows
    else rows ++ [dealRowTuple o d]
  | .closeDeal dealId price reason pnlBtc pnlPct closedAt trigger =>
    rows.map fun r =>
      if r.id = dealId ∧ r.userId = o.userId then
        r.close price reason pnlBtc pnlPct closedAt trigger
      else r

end Reverto
