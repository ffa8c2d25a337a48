import Mathlib.Tactic
import Reverto.Core.Accounting

/-!
# What an operation does to the ledger (core/trading_engine.py, core/deal_store.py)

An operation makes no call on the ledger, opens one deal, adds an order to one, or
closes one. This module says so with the deals in memory before and after it.
-/

namespace Reverto

/-- The ledger calls among the events of the engine. -/
def ledgerCalls (log : List EngineEvent) : List LedgerCall :=
  log.filterMap fun
    | .ledger call => some call
    | _ => none

namespace TradingEngine

/-- The open deals by what the ledger keeps of an open deal. -/
def openView (w : World) : List (String × Bool) :=
  w.engine.state.openDeals.items.map fun d => (d.id, d.isOpen)

/-- The deal as the history keeps it, and the PnL the ledger is told. -/
structure ClosedAs (e : PaperDeal) (dealId : String) (reason : CloseReason) (pnlBtc pnlPct : ℚ) :
    Prop where
  id : e.id = dealId
  isOpen : e.isOpen = false
  closeReason : e.closeReason = some reason
  pnl : (pnlBtc = e.pnlBtc ∧ pnlPct = e.pnlPct) ∨
    (reason = .cancelled ∧ pnlBtc = 0 ∧ pnlPct = 0)

/-- The calls of an operation, with the deals before and after it. -/
inductive LedgerEffect (w w' : World) : List LedgerCall → Prop
  | quiet (hopen : openView w' = openView w)
    (hclosed : w'.engine.state.closedDeals = w.engine.state.closedDeals) : LedgerEffect w w' []
  | opened (d : PaperDeal) (o : PaperOrder) (fee : ℚ) (hd : d.isOpen = true)
    (hopen : w'.engine.state.openDeals = w.engine.state.openDeals.set d)
    (hclosed : w'.engine.state.closedDeals = w.engine.state.closedDeals) :
    LedgerEffect w w' [.createDeal d, .saveOrder o d.id fee]
  | filled (d e : PaperDeal) (o : PaperOrder) (fee : ℚ) (he : w.deal? d.id = some e)
    (hd : d.isOpen = e.isOpen) (hopen : openView w' = openView w)
    (hclosed : w'.engine.state.closedDeals = w.engine.state.closedDeals) :
    LedgerEffect w w' [.saveOrder o d.id fee, .saveDeal d]
  | closed (d e : PaperDeal) (price : ℚ) (reason : CloseReason) (pnlBtc pnlPct : ℚ) (now : Instant)
    (trigger : ExitTrigger) (hd : w.deal? d.id = some d)
    (hopen : w'.engine.state.openDeals = w.engine.state.openDeals.pop d.id)
    (hclosed : w'.engine.state.closedDeals = w.engine.state.closedDeals ++ [e])
    (he : ClosedAs e d.id reason pnlBtc pnlPct) :
    LedgerEffect w w' [.closeDeal d.id price reason pnlBtc pnlPct now trigger]

variable (cfg : BotConfig) (sig : Signals) (now : Instant)

theorem ledgerEffect_same (w w' : World) (h : w'.engine.state.openDeals = w.engine.state.openDeals)
    (h' : w'.engine.state.closedDeals = w.engine.state.closedDeals) : LedgerEffect w w' [] := by
  refine .quiet ?_ h'
  simp only [openView, h]

/-- Writing through to an open deal keeps the view of it. -/
theorem openView_onDeal (i : String) (f : PaperDeal → PaperDeal) (hf : ∀ d, (f d).id = d.id)
    (hopen : ∀ d, (f d).isOpen = d.isOpen) (w : World) :
    openView (World.onDeal i f hf w) = openView w := by
  simp only [openView, World.onDeal, World.onState_state, PaperState.updateDeal, KeyedDict.modify,
    KeyedDict.mapValues_items, List.map_map]
  apply List.map_congr_left
  intro d _
  simp only [Function.comp_apply]
  split
  · rw [hf, hopen]
  · rfl

/-- The close of a deal by the take profit or the stop loss. -/
theorem ledgerEffect_afterClose (d e : PaperDeal) (f : ℚ) (r : CloseReason) (t : ExitTrigger)
    (w v : World) (hd : w.deal? d.id = some d) (hv : v.deal? d.id = some e)
    (ho : e.orders = d.orders) (hs : e.side = d.side) (hl : e.leverage = d.leverage)
    (hopen : v.engine.state.openDeals.pop d.id = w.engine.state.openDeals.pop d.id)
    (hclosed : v.engine.state.closedDeals = w.engine.state.closedDeals) :
    LedgerEffect w (afterClose cfg now d f r t v)
      [.closeDeal d.id f r (d.calculatePnl f).1 (d.calculatePnl f).2 now t] := by
  have hid : e.id = d.id := (KeyedDict.get?_mem _ _ _ hv).2
  have hpnl : ({ e with exitTrigger := some t } : PaperDeal).calculatePnl f = d.calculatePnl f :=
    PaperDeal.calculatePnl_congr _ d f ho hs hl
  have hhistory := booked_closedDeals now d e f r t v hv
  rw [hclosed] at hhistory
  refine .closed d _ f r _ _ now t hd ?_ hhistory ?_
  · rw [← hopen]
    exact booked_openDeals now d f r t v
  · refine ⟨hid, rfl, rfl, Or.inl ⟨?_, ?_⟩⟩
    · rw [PaperDeal.closed, hpnl]
    · rw [PaperDeal.closed, hpnl]

theorem peaked_view (d : PaperDeal) (price : ℚ) (t : SlType) (w : World) :
    openView (peaked cfg d price t w) = openView w := by
  unfold peaked
  split
  · exact openView_onDeal d.id (fun e => { e with peakPrice := newPeak cfg d price })
      (fun _ => rfl) (fun _ => rfl) w
  · rfl

/-- Every operation has one of the effects. -/
theorem ledgerEffect_op (op : EngineOp) (w : World) :
    LedgerEffect w (op.program cfg sig w).state (ledgerCalls (op.program cfg sig w).log) := by
  have hstep := opStep_program cfg sig op w
  generalize (op.program cfg sig w).log = l, (op.program cfg sig w).state = v at hstep ⊢
  cases hstep with
  | idle => exact ledgerEffect_same _ _ rfl rfl
  | setPrice price => exact ledgerEffect_same _ _ rfl rfl
  | logError e => exact ledgerEffect_same _ _ rfl rfl
  | write now price isOpen => exact ledgerEffect_same _ _ rfl rfl
  | drawdown price =>
    have h := (drawdownStep_account cfg price w.engine).1
    exact ledgerEffect_same _ _ (congrArg PaperState.openDeals h) (congrArg PaperState.closedDeals h)
  | preTick inp =>
    have h := (preTickHook_account inp w).1
    exact ledgerEffect_same _ _ (congrArg PaperState.openDeals h) (congrArg PaperState.closedDeals h)
  | postTick =>
    have h := (postTickHook_account w).1
    exact ledgerEffect_same _ _ (congrArg PaperState.openDeals h) (congrArg PaperState.closedDeals h)
  | trackWicks price =>
    refine .quiet ?_ rfl
    simp only [openView, updateDealWickTrackers, Program.modify_run, World.onState_state,
      KeyedDict.mapValues_items, List.map_map]
    exact List.map_congr_left fun d _ => rfl
  | opened now inp price t i hi => exact .opened (newDeal cfg now i price t) _ _ rfl rfl rfl
  | held c now price d hd hv => exact ledgerEffect_same _ _ rfl rfl
  | tookProfit c now price d v f t hd hv hf =>
    exact ledgerEffect_afterClose cfg now d d f _ _ w w hd hd rfl rfl rfl rfl rfl
  | peaked now price d s hd hs =>
    exact .quiet (peaked_view cfg d price s.1 w) (peaked_closedDeals cfg d price s.1 w)
  | stopped now price d s hd hs hv =>
    obtain ⟨e, he, ho, hside, hl⟩ := Accounting.peaked_deal? cfg d price s.1 w hd
    exact ledgerEffect_afterClose cfg now d e price _ _ w _ hd he ho hside hl
      (peaked_pop cfg d price s.1 w) (peaked_closedDeals cfg d price s.1 w)
  | filled now price d hd hv =>
    have hview := openView_onDeal d.id
      (fun e => { e with orders := e.orders ++ [dcaOrder cfg now d price] })
      (fun _ => rfl) (fun _ => rfl) w
    exact .filled { d with orders := d.orders ++ [dcaOrder cfg now d price] } d
      (dcaOrder cfg now d price) (calcFee cfg (dcaSize cfg d)) hd rfl hview rfl
  | edited now price d settings hd =>
    exact .quiet (openView_onDeal d.id _ (applySettings_id settings) (fun _ => rfl) w) rfl
  | acted now price d action hd hp =>
    have hself : w.engine.state.openDeals.get? d.id = some d := hd
    have hstate := DealCloseHandler.actState_eq cfg.dca.takerFee w.engine.state d price now action hself
    have hopen : (afterHandler cfg now d price action w).engine.state.openDeals =
        w.engine.state.openDeals.pop d.id := by
      simp only [afterHandler, hstate]
    have hclosed : (afterHandler cfg now d price action w).engine.state.closedDeals =
        w.engine.state.closedDeals ++ [DealCloseHandler.closedDeal d price now action] := by
      simp only [afterHandler, hstate]
    cases action with
    | close =>
      exact .closed d _ price .manual _ _ now .manual hself hopen hclosed
        ⟨rfl, rfl, rfl, Or.inl ⟨rfl, rfl⟩⟩
    | cancel =>
      exact .closed d _ price .cancelled _ _ now .cancelled hself hopen hclosed
        ⟨rfl, rfl, rfl, Or.inr ⟨rfl, rfl, rfl⟩⟩

/-- A document lists the deals of an account, of the closed ones possibly not all. -/
structure Lists (s : PaperState) (doc : StateDoc) : Prop where
  openDeals : ∃ price, doc.openDeals = s.openDeals.items.map fun d => dealToDict d price
  closedDeals : ∃ l : List PaperDeal, doc.closedDeals = l.map (fun d => dealToDict d 0) ∧
    l ⊆ s.closedDeals ∧ ((s.closedDeals.map PaperDeal.id).Nodup → (l.map PaperDeal.id).Nodup)

theorem lists_writeStateDoc (e : EngineState) (price : ℚ) (isOpen : Bool) :
    Lists e.state (writeStateDoc cfg e price isOpen now) where
  openDeals := ⟨price, rfl⟩
  closedDeals := by
    refine ⟨e.state.closedDeals.reverse.take closedDealsUiCap, rfl, ?_, ?_⟩
    · intro d hd
      exact List.mem_reverse.mp (List.mem_of_mem_take hd)
    · intro h
      have hrev : (e.state.closedDeals.reverse.map PaperDeal.id).Nodup := by
        rw [List.map_reverse]
        exact List.nodup_reverse.mpr h
      exact hrev.sublist ((List.take_sublist _ _).map PaperDeal.id)

theorem lists_persistState (botName : String) (s : PaperState) (file : Option StateDoc) :
    Lists s (DealCloseHandler.persistState botName s file) where
  openDeals := ⟨0, rfl⟩
  closedDeals := ⟨s.closedDeals, rfl, fun _ hd => hd, id⟩

/-- An operation that writes the file lists the deals it leaves in memory. -/
theorem lists_op (op : EngineOp) (w : World) (h : savesFile w op = true) :
    ∃ doc, (op.program cfg sig w).state.file = some doc ∧
      Lists (op.program cfg sig w).state.engine.state doc := by
  cases op with
  | write now price isOpen =>
    exact ⟨_, rfl, lists_writeStateDoc cfg now w.engine price isOpen⟩
  | sentinel now price s =>
    cases s with
    | act i action =>
      exact ⟨_, file_act cfg sig now price i action w h, lists_persistState cfg.name _ w.file⟩
    | unknown i => cases h
    | edit i settings => cases h
  | _ => cases h

end TradingEngine

end Reverto
