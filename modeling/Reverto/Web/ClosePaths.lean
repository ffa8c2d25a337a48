import Mathlib.Tactic
import Reverto.Core.LedgerOps
import Reverto.Core.EngineSteps
import Reverto.Web.OfflineCloses

/-!
# Closing a deal with and without the engine

Both paths run `DealCloseHandler`. The running bot then writes its full state;
the stopped bot leaves the document of the handler, which owns the balance and
the deals and keeps what the engine wrote last in the other fields.
-/

namespace Reverto

variable (cfg : BotConfig) (sig : Signals)

/-! ### The two paths -/

/-- The engine loaded from the document consumes the sentinel and writes its state. -/
def runningClose (initialBalanceBtc : ℚ) (doc : StateDoc) (dealId : String) (price : ℚ)
    (isOpen : Bool) (now : Instant) (action : CloseAction) : Option StateDoc × List LedgerCall :=
  let w : World := ⟨bootEngine initialBalanceBtc (some doc), some doc⟩
  let o := (EngineOp.sentinel now price (.act dealId action)).program cfg sig w
  let o' := (EngineOp.write now price isOpen).program cfg sig o.state
  (o'.state.file, ledgerCalls (o.log ++ o'.log))

/-- `_close_deal_offline` on the document: what it writes and its ledger call. -/
def offlineClose (doc : StateDoc) (dealId : String) (price : ℚ) (now : Instant)
    (action : CloseAction) : Except CloseError (StateDoc × LedgerCall) :=
  let state := loadPaperStateFromFile (some doc)
  match DealCloseHandler.accept state dealId price with
  | .error e => .error e
  | .ok deal =>
    .ok
      (DealCloseHandler.persistState cfg.name
          (DealCloseHandler.actState cfg.dca.takerFee state deal price now action) (some doc),
        DealCloseHandler.ledgerCall deal price now action)

/-- The fields both paths should agree on. -/
structure SamePersisted (a b : StateDoc) : Prop where
  balance : a.balanceBtc = b.balanceBtc
  fees : a.feesPaidBtc = b.feesPaidBtc
  totalPnl : a.totalPnlBtc = b.totalPnlBtc
  winRate : a.winRate = b.winRate
  openDeals : a.openDeals = b.openDeals
  closedDeals : a.closedDeals = b.closedDeals

/-- The dict of a deal when no price is known: an open deal shows no PnL. -/
def DealDoc.unpriced (x : DealDoc) : DealDoc :=
  if x.isOpen then { x with pnlBtc := 0, pnlPct := 0 } else x

/-- The exit fee of an action. -/
def exitFee (d : PaperDeal) : CloseAction → ℚ
  | .close => d.totalSize * cfg.dca.takerFee
  | .cancel => 0

/-- The history of a document after the deal is closed. -/
def closedHistory (doc : StateDoc) (d : PaperDeal) (price : ℚ) (now : Instant)
    (action : CloseAction) : List PaperDeal :=
  doc.closedDeals.map dictToDeal ++ [DealCloseHandler.closedDeal d price now action]

/-- The running bot shows the account of the stopped one: the balance to 8
decimals, the open deals with their PnL, the last deals of the history first. -/
structure ShowsAccount (running stopped : StateDoc) : Prop where
  balance : running.balanceBtc = stopped.balanceBtc.map (Decimal.roundTo 8)
  openDeals : running.openDeals.map DealDoc.unpriced = stopped.openDeals
  closedDeals : running.closedDeals = stopped.closedDeals.reverse.take closedDealsUiCap

/-- The fields only the engine writes: the running bot derives them from its
history and the fee, the stopped one keeps those of the document. -/
structure DerivedBy (doc : StateDoc) (history : List PaperDeal) (fee : ℚ)
    (running stopped : StateDoc) : Prop where
  fees : running.feesPaidBtc = some (Decimal.roundTo 10 (doc.feesPaidBtc.getD 0 + fee))
  totalPnl : running.totalPnlBtc = some (history.map PaperDeal.pnlBtc).sum
  winRate : running.winRate = some (PaperState.winRate history)
  keptFees : stopped.feesPaidBtc = doc.feesPaidBtc
  keptTotalPnl : stopped.totalPnlBtc = doc.totalPnlBtc
  keptWinRate : stopped.winRate = doc.winRate

/-! ### What each path writes -/

theorem dealToDict_unpriced (d : PaperDeal) (price : ℚ) :
    (dealToDict d price).unpriced = dealToDict d 0 := by
  cases h : d.isOpen with
  | true => simp [DealDoc.unpriced, dealToDict, PaperDeal.shownPnl, h]
  | false => simp [DealDoc.unpriced, dealToDict, PaperDeal.shownPnl, h]

theorem feeBtc_eq (d : PaperDeal) (price : ℚ) (now : Instant) (action : CloseAction) :
    (DealCloseHandler.result cfg.dca.takerFee d price now action).feeBtc = exitFee cfg d action := by
  cases action with
  | close => rfl
  | cancel => rfl

theorem actState_exitFee (s : PaperState) (d : PaperDeal) (price : ℚ) (now : Instant)
    (action : CloseAction) (h : s.openDeals.get? d.id = some d) :
    DealCloseHandler.actState cfg.dca.takerFee s d price now action =
      { s with
        openDeals := s.openDeals.pop d.id
        balanceBtc := s.balanceBtc + (d.calculatePnl price).1 - exitFee cfg d action
        closedDeals := s.closedDeals ++ [DealCloseHandler.closedDeal d price now action] } := by
  rw [DealCloseHandler.actState_eq cfg.dca.takerFee s d price now action h]
  cases action with
  | close => rfl
  | cancel => rfl

section Paths

variable (initialBalanceBtc : ℚ) (doc : StateDoc) (d : PaperDeal) (price : ℚ) (isOpen : Bool)
  (now : Instant) (action : CloseAction)

/-- The engine after the sentinel of an open deal. -/
theorem runningClose_eq (hd : doc.loadOpenDeals.get? d.id = some d) (hprice : 0 < price) :
    runningClose cfg sig initialBalanceBtc doc d.id price isOpen now action =
      let w : World := ⟨bootEngine initialBalanceBtc (some doc), some doc⟩
      (some (writeStateDoc cfg (TradingEngine.afterHandler cfg now d price action w).engine price
          isOpen now),
        [DealCloseHandler.ledgerCall d price now action]) := by
  have hopen : (⟨bootEngine initialBalanceBtc (some doc), some doc⟩ : World).deal? d.id = some d :=
    hd
  simp only [runningClose, EngineOp.program, TradingEngine.consumeSentinel_run, hopen,
    if_neg (not_le.mpr hprice)]
  rfl

/-- The portal's close of an open deal. -/
theorem offlineClose_eq (hd : doc.loadOpenDeals.get? d.id = some d) (hprice : 0 < price) :
    offlineClose cfg doc d.id price now action =
      .ok
        (DealCloseHandler.persistState cfg.name
            (DealCloseHandler.actState cfg.dca.takerFee (loadPaperStateFromFile (some doc)) d price
              now action) (some doc),
          DealCloseHandler.ledgerCall d price now action) := by
  have hopen : (loadPaperStateFromFile (some doc)).openDeals.get? d.id = some d := hd
  simp only [offlineClose, DealCloseHandler.accept, hopen, if_neg (not_le.mpr hprice)]

/-- The four steps of the request write the document of the close. -/
theorem closeSteps_offlineClose (p : Portal) (n : ℕ) (stopped : StateDoc) (call : LedgerCall)
    (hidle : p.tasks n = .idle) (hfree : p.stateLock = none) (hbot : p.bot = .stopped)
    (hfile : p.file = some doc)
    (hclose : offlineClose cfg doc d.id price now action = .ok (stopped, call)) :
    ∃ p', Machine.run (Portal.step cfg sig initialBalanceBtc) p
        [.closeBegin n ⟨d.id, price, action⟩, .closeAct n now, .closeMerge n, .closeWrite n]
          = some p' ∧ p'.file = some stopped ∧ p'.Done d.id := by
  have hstopped : p.botRunning = false := by simp [Portal.botRunning, hbot]
  simp only [offlineClose] at hclose
  cases haccept : DealCloseHandler.accept (loadPaperStateFromFile (some doc)) d.id price with
  | error e =>
    rw [haccept] at hclose
    cases hclose
  | ok deal =>
    rw [haccept] at hclose
    cases hclose
    simp [Machine.run, Portal.step, Portal.closeStep, hidle, hfree, hstopped, hfile, haccept,
      Portal.setTask, Portal.Done]

end Paths

/-- The state file of a bot that was killed with one deal open. -/
def oneOpenDoc : StateDoc := Portal.oneOpenFile.getD {}

end Reverto
