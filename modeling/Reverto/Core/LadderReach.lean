import Mathlib.Tactic
import Reverto.Core.LadderSize
import Reverto.Core.MonitorRounds
import Reverto.Core.MonitorSafety

/-!
# The deals a bot can build (core/trading_engine.py)

The orders of every deal of a life, open or closed, and the lives that fill a whole ladder.
-/

namespace Reverto

open TradingEngine PriceGuard

namespace LadderReach

open LadderSize MonitorRounds

variable (cfg : BotConfig) (sig : Signals)

/-- The deals of an account. -/
def dealsOf (s : PaperState) : List PaperDeal := s.openDeals.items ++ s.closedDeals

/-- A deal of a life, open or closed. -/
def Lives (d : PaperDeal) : Prop :=
  ∃ (initialBalanceBtc : ℚ) (ls : List LifeStep),
    d ∈ dealsOf (afterLife cfg sig initialBalanceBtc ls).engine.state

/-! ### What holds of the orders of every deal -/

section Rule

variable (Q : List PaperOrder → Prop)

/-- The orders of every deal of the account. -/
def DealsHold (s : PaperState) : Prop := ∀ d ∈ dealsOf s, Q d.orders

/-- The orders of every deal in memory and in the file. -/
structure AllHold (w : World) : Prop where
  memory : DealsHold Q w.engine.state
  file : DealsHold Q (fileState w.file)

theorem dealsHold_iff (s : PaperState) :
    DealsHold Q s ↔ OrdersHold Q s ∧ ∀ d ∈ s.closedDeals, Q d.orders := by
  simp only [DealsHold, dealsOf, List.forall_mem_append, OrdersHold]

theorem dealsHold_congr (s s' : PaperState) (hopen : s'.openDeals = s.openDeals)
    (hclosed : s'.closedDeals = s.closedDeals) (h : DealsHold Q s) : DealsHold Q s' := by
  unfold DealsHold dealsOf
  rw [hopen, hclosed]
  exact h

theorem dealsHold_fileState (s : PaperState) (doc : StateDoc) (hlists : Lists s doc)
    (h : DealsHold Q s) : DealsHold Q (fileState (some doc)) := by
  obtain ⟨hopen, hclosed⟩ := (dealsHold_iff Q s).mp h
  refine (dealsHold_iff Q _).mpr ⟨ordersHold_fileState Q s doc hlists hopen, fun x hx => ?_⟩
  obtain ⟨d, hd, rfl⟩ := fileState_closed s doc hlists x hx
  exact hclosed d hd

theorem dealsHold_closed (s s' : PaperState) (d e : PaperDeal)
    (hd : s.openDeals.get? d.id = some d) (he : e.orders = d.orders)
    (hopen : s'.openDeals = s.openDeals.pop d.id) (hclosed : s'.closedDeals = s.closedDeals ++ [e])
    (h : DealsHold Q s) : DealsHold Q s' := by
  obtain ⟨hopens, hcloseds⟩ := (dealsHold_iff Q s).mp h
  refine (dealsHold_iff Q s').mpr ⟨fun x hx => ?_, fun x hx => ?_⟩
  · rw [hopen] at hx
    exact hopens x (List.mem_of_mem_filter hx)
  · rw [hclosed] at hx
    rcases List.mem_append.mp hx with hx | hx
    · exact hcloseds x hx
    · rw [List.mem_singleton.mp hx, he]
      exact hopens d (KeyedDict.get?_mem _ _ _ hd).1

/-- An operation keeps the rule where it fills no rung, or fills as the rule allows. -/
theorem dealsHold_op (op : EngineOp) (w : World)
    (hopens : OrdersHold Q w.engine.state →
      OrdersHold Q (op.program cfg sig w).state.engine.state)
    (h : DealsHold Q w.engine.state) : DealsHold Q (op.program cfg sig w).state.engine.state := by
  cases historyStep_op cfg sig op w with
  | same hclosed =>
    obtain ⟨hopen, hcloseds⟩ := (dealsHold_iff Q _).mp h
    refine (dealsHold_iff Q _).mpr ⟨hopens hopen, ?_⟩
    rw [hclosed]
    exact hcloseds
  | closed d e hd he hpop hclosed =>
    have horders : e.orders = d.orders := by
      obtain ⟨trigger, peak, price, reason, now, rfl⟩ := he
      rfl
    exact dealsHold_closed Q _ _ d e hd horders hpop hclosed h

theorem allHold_op (op : EngineOp) (w : World)
    (hopens : OrdersHold Q w.engine.state →
      OrdersHold Q (op.program cfg sig w).state.engine.state)
    (h : AllHold Q w) : AllHold Q (op.program cfg sig w).state := by
  have hmemory := dealsHold_op cfg sig Q op w hopens h.memory
  exact ⟨hmemory, fileState_op cfg sig (DealsHold Q) (dealsHold_fileState Q) op w hmemory h.file⟩

/-- The steps of a life other than ticks move deals between memory, file and history. -/
theorem allHold_still (l : LifeStep) (htick : ∀ inp, l ≠ .tick inp) (w : World) (h : AllHold Q w) :
    AllHold Q (l.program cfg sig w).state := by
  cases l with
  | tick inp => exact absurd rfl (htick inp)
  | stop =>
    obtain ⟨hopen, hclosed⟩ := markStopped_deals w.file
    exact ⟨h.memory, dealsHold_congr Q _ _ hopen hclosed h.file⟩
  | restart b =>
    obtain ⟨hopen, hclosed⟩ := bootEngine_deals b w.file
    exact ⟨dealsHold_congr Q _ _ hopen hclosed h.file, h.file⟩
  | closeOffline i price now action =>
    refine ⟨h.memory, ?_⟩
    show DealsHold Q (fileState (LifeStep.offlineFile cfg w.file i price now action))
    rcases LifeStep.offlineFile_cases cfg w.file i price now action with
      hfile | ⟨s, d, doc, hfile, hlists, hd, hopen, hclosed⟩
    · rw [hfile]
      exact h.file
    · rw [hfile]
      have horders : (DealCloseHandler.closedDeal d price now action).orders = d.orders := by
        cases action <;> rfl
      exact dealsHold_fileState Q s doc hlists
        (dealsHold_closed Q _ _ d _ hd horders hopen hclosed h.file)

/-- Every deal of a life keeps a rule of openings and rungs. -/
theorem allHold_life (hQ : OrderRule cfg Q) (initialBalanceBtc : ℚ) (ls : List LifeStep) :
    AllHold Q (afterLife cfg sig initialBalanceBtc ls) := by
  have hstep : ∀ l : LifeStep,
      Program.Respects (fun w _ w' => AllHold Q w → AllHold Q w') (l.program cfg sig) := by
    intro l w h
    cases l with
    | tick inp =>
      exact Program.runsAs_rel _ _ _ (Program.traceRel_invariant (AllHold Q))
        (fun op _ v hv => allHold_op cfg sig Q op v (ordersHold_op cfg sig Q hQ op v) hv) _ _ _
        (tick_runs cfg sig inp w) h
    | stop => exact allHold_still cfg sig Q .stop (by simp) w h
    | restart b => exact allHold_still cfg sig Q (.restart b) (by simp) w h
    | closeOffline i price now action =>
      exact allHold_still cfg sig Q (.closeOffline i price now action) (by simp) w h
  have hrun := Program.runsAs_rel (LifeStep.program cfg sig) (fun _ => True) _
    (Program.traceRel_invariant (AllHold Q)) (fun l _ => hstep l)
    (freshWorld initialBalanceBtc) _ _ ⟨ls, fun _ _ => trivial, rfl⟩
  have hempty : ∀ b, DealsHold Q (PaperState.init b) := by
    intro b d hd
    cases hd
  exact hrun ⟨hempty initialBalanceBtc, hempty 0⟩

end Rule

/-! ### The sizes of a ladder -/

/-- The sizes of a base order and its first `n` rungs. -/
def ladderOrders (n : ℕ) : List ℚ := cfg.dca.baseOrderSize :: (List.range n).map (rungSize cfg)

/-- The orders fill the first `n` rungs of the configuration. -/
structure FillsRungs (orders : List PaperOrder) (n : ℕ) : Prop where
  count : (orders.filter fun o => o.orderType = .dca).length = n
  sizes : orders.map PaperOrder.size = ladderOrders cfg n
  bounded : n ≤ maxRungs cfg

theorem ladderOrders_succ (n : ℕ) :
    ladderOrders cfg (n + 1) = ladderOrders cfg n ++ [rungSize cfg n] := by
  rw [ladderOrders, List.range_succ, List.map_append]
  rfl

theorem ladderOrders_subset (n m : ℕ) (h : n ≤ m) : ladderOrders cfg n ⊆ ladderOrders cfg m := by
  intro x hx
  rcases List.mem_cons.mp hx with rfl | hx
  · exact List.mem_cons_self
  · obtain ⟨k, hk, rfl⟩ := List.mem_map.mp hx
    have hlt := List.mem_range.mp hk
    exact List.mem_cons_of_mem _ (List.mem_map_of_mem (List.mem_range.mpr (by omega)))

theorem ladderOrders_sum (n : ℕ) : (ladderOrders cfg n).sum = ladderSize cfg n := by
  rw [ladderOrders, List.sum_cons, ladderSize]

theorem orderRule_fillsRungs : OrderRule cfg fun orders => ∃ n, FillsRungs cfg orders n where
  base now price := ⟨0, rfl, rfl, Nat.zero_le _⟩
  rung := by
    rintro now d price ⟨n, hcount, hsizes, _⟩ hv
    have hdca : d.dcaCount = n := hcount
    have hmax := dcaVerdict_maxRungs cfg d price hv
    rw [hdca] at hmax
    have horder : (dcaOrder cfg now d price).size = rungSize cfg n := by
      rw [← hdca]
      rfl
    refine ⟨n + 1, ?_, ?_, hmax⟩
    · rw [List.filter_append, List.length_append, hcount]
      rfl
    · rw [List.map_append, hsizes, ladderOrders_succ, List.map_cons, List.map_nil, horder]

/-- The orders of a deal of a life are the first of the ladder. -/
theorem fillsRungs_of_lives (d : PaperDeal) (h : Lives cfg sig d) :
    ∃ n, FillsRungs cfg d.orders n := by
  obtain ⟨b, ls, hd⟩ := h
  exact (allHold_life cfg sig _ (orderRule_fillsRungs cfg) b ls).memory d hd

/-! ### The end of a tick -/

section Late

variable (inp : TickInput) (price : ℚ)

theorem bind_state {α : Type} (m : EngineM Unit) (k : Unit → EngineM α) (h : Program.Returns m)
    (u : World) : ((m >>= k) u).state = (k () (m u).state).state := by
  obtain ⟨a, ha⟩ := h u
  rw [Program.bind_ok m k u a ha]

/-- The account of the tick behind its monitoring, part by part. -/
theorem afterMonitoring_state (u : World) :
    (afterMonitoring cfg sig inp price u).state =
      (writeState cfg inp.now price inp.isOpen
        (entryStep cfg sig inp price
          (checkDealSentinels cfg inp.now inp price
            (checkManualTrigger cfg inp.now inp price
              (updateDrawdownGuard cfg price u).state).state).state).state).state := by
  have hguard : Program.Returns (updateDrawdownGuard cfg price) := Program.returns_modify _
  rw [afterMonitoring, bind_state _ _ hguard,
    bind_state _ _ (checkManualTrigger_returns cfg inp price),
    bind_state _ _ (checkDealSentinels_returns cfg inp price),
    bind_state _ _ (entryStep_returns cfg sig inp price)]

/-- The account a tick leaves is the one it writes. -/
structure Written (s : PaperState) (w : World) : Prop where
  state : w.engine.state = s
  file : ∃ doc, w.file = some doc ∧ Lists s doc

theorem written_writeState (u : World) :
    Written u.engine.state (writeState cfg inp.now price inp.isOpen u).state where
  state := rfl
  file := ⟨_, rfl, lists_writeStateDoc cfg inp.now u.engine price inp.isOpen⟩

theorem manualTrigger_idle (u : World)
    (h : ¬ (inp.manualTrigger = true ∧ u.engine.state.openDeals.items = [] ∧
      manualTriggerLiqSafe cfg price = true)) :
    (checkManualTrigger cfg inp.now inp price u).state = u := by
  rw [checkManualTrigger, Program.get_bind_run, if_neg h]
  rfl

theorem manualTrigger_opens (u : World) (i : String) (hmanual : inp.manualTrigger = true)
    (hflat : u.engine.state.openDeals.items = []) (hsafe : manualTriggerLiqSafe cfg price = true)
    (hid : createWithRetry inp.manualOpen = some i) :
    (checkManualTrigger cfg inp.now inp price u).state = afterOpen cfg inp.now i price none u := by
  rw [checkManualTrigger, Program.get_bind_run, if_pos ⟨hmanual, hflat, hsafe⟩, openDeal_run, hid]

theorem entryStep_open (u : World) (h : u.engine.state.openDeals.items ≠ []) :
    (entryStep cfg sig inp price u).state = u := by
  have hclosed : entryOpens cfg sig inp u.engine.state u.engine.pausedByDrawdown = false := by
    simp [entryOpens, h]
  rw [(entryStep_spec cfg sig price inp u).2 hclosed]

theorem updateDrawdownGuard_state (u : World) :
    (updateDrawdownGuard cfg price u).state.engine.state = u.engine.state :=
  (drawdownStep_account cfg price u.engine).1

/-- The deals after an opening where none was open. -/
theorem afterOpen_items (i : String) (t : Option GroupTrigger) (u : World)
    (hflat : u.engine.state.openDeals.items = []) :
    (afterOpen cfg inp.now i price t u).engine.state.openDeals.items =
      [newDeal cfg inp.now i price t] := by
  have hnone : u.engine.state.openDeals.get? (newDeal cfg inp.now i price t).id = none := by
    rw [KeyedDict.get?_eq_none_iff, hflat]
    exact List.not_mem_nil
  have hset := KeyedDict.set_items_new u.engine.state.openDeals (newDeal cfg inp.now i price t) hnone
  rw [hflat] at hset
  exact hset

/-- An edit of the one open deal. -/
theorem edit_items (u : World) (d : PaperDeal) (settings : EditSettings)
    (h : u.engine.state.openDeals.items = [d]) :
    (consumeSentinel cfg inp.now price (.edit d.id settings) u).state.engine.state.openDeals.items =
      [applySettings settings d] := by
  have hmem : d ∈ u.engine.state.openDeals.items := by
    rw [h]
    exact List.mem_singleton_self d
  have hget : u.deal? d.id = some d := KeyedDict.get?_of_mem _ d hmem
  rw [consumeSentinel_run]
  simp only [hget]
  show (u.engine.state.openDeals.modify d.id (applySettings settings)
    (applySettings_id settings)).items = _
  rw [KeyedDict.modify, KeyedDict.mapValues_items, h]
  simp

/-- Behind the monitoring of an open deal a tick without sentinels leaves the account alone. -/
theorem late_open (u : World) (d : PaperDeal) (h : u.engine.state.openDeals.items = [d])
    (hsentinels : inp.sentinels = []) :
    Written u.engine.state (afterMonitoring cfg sig inp price u).state := by
  have hdrawdown := updateDrawdownGuard_state cfg price u
  obtain ⟨v, hv⟩ : ∃ v, v = (updateDrawdownGuard cfg price u).state := ⟨_, rfl⟩
  rw [← hv] at hdrawdown
  have hne : v.engine.state.openDeals.items ≠ [] := by
    rw [hdrawdown, h]
    exact List.cons_ne_nil _ _
  have hsame : (checkDealSentinels cfg inp.now inp price v).state = v := by
    rw [checkDealSentinels, hsentinels]
    rfl
  rw [afterMonitoring_state, ← hv, manualTrigger_idle cfg inp price v (fun hc => hne hc.2.1), hsame,
    entryStep_open cfg sig inp price v hne, ← hdrawdown]
  exact written_writeState cfg inp price v

/-- The one open deal is edited by the sentinel of the tick. -/
theorem late_edit (u : World) (d : PaperDeal) (settings : EditSettings)
    (h : u.engine.state.openDeals.items = [d]) (hsentinels : inp.sentinels = [.edit d.id settings]) :
    ∃ s, s.openDeals.items = [applySettings settings d] ∧
      Written s (afterMonitoring cfg sig inp price u).state := by
  have hdrawdown := updateDrawdownGuard_state cfg price u
  obtain ⟨v, hv⟩ : ∃ v, v = (updateDrawdownGuard cfg price u).state := ⟨_, rfl⟩
  rw [← hv] at hdrawdown
  have hitems : v.engine.state.openDeals.items = [d] := by rw [hdrawdown, h]
  have hne : v.engine.state.openDeals.items ≠ [] := by
    rw [hitems]
    exact List.cons_ne_nil _ _
  have hedit := edit_items cfg inp price v d settings hitems
  have hsentinel : (checkDealSentinels cfg inp.now inp price v).state =
      (consumeSentinel cfg inp.now price (.edit d.id settings) v).state := by
    rw [checkDealSentinels, hsentinels, Program.forEach,
      bind_state _ _ (consumeSentinel_returns cfg inp.now price _)]
    rfl
  obtain ⟨x, hx⟩ : ∃ x, x = (consumeSentinel cfg inp.now price (.edit d.id settings) v).state :=
    ⟨_, rfl⟩
  rw [← hx] at hedit
  have hopen : x.engine.state.openDeals.items ≠ [] := by
    rw [hedit]
    exact List.cons_ne_nil _ _
  refine ⟨x.engine.state, hedit, ?_⟩
  rw [afterMonitoring_state, ← hv, manualTrigger_idle cfg inp price v (fun hc => hne hc.2.1),
    hsentinel, ← hx, entryStep_open cfg sig inp price x hopen]
  exact written_writeState cfg inp price x

/-- The manual trigger opens a deal, which the sentinel of the same tick edits. -/
theorem late_manual (u : World) (i : String) (settings : EditSettings)
    (hflat : u.engine.state.openDeals.items = []) (hmanual : inp.manualTrigger = true)
    (hsafe : manualTriggerLiqSafe cfg price = true)
    (hid : createWithRetry inp.manualOpen = some i) (hsentinels : inp.sentinels = [.edit i settings]) :
    ∃ s, s.openDeals.items = [applySettings settings (newDeal cfg inp.now i price none)] ∧
      Written s (afterMonitoring cfg sig inp price u).state := by
  have hdrawdown := updateDrawdownGuard_state cfg price u
  obtain ⟨v, hv⟩ : ∃ v, v = (updateDrawdownGuard cfg price u).state := ⟨_, rfl⟩
  rw [← hv] at hdrawdown
  have hvflat : v.engine.state.openDeals.items = [] := by rw [hdrawdown, hflat]
  have hopened := afterOpen_items cfg inp price i none v hvflat
  obtain ⟨y, hy⟩ : ∃ y, y = afterOpen cfg inp.now i price none v := ⟨_, rfl⟩
  rw [← hy] at hopened
  have hedit := edit_items cfg inp price y _ settings hopened
  have hnew : (newDeal cfg inp.now i price none).id = i := rfl
  rw [hnew] at hedit
  have hsentinel : (checkDealSentinels cfg inp.now inp price y).state =
      (consumeSentinel cfg inp.now price (.edit i settings) y).state := by
    rw [checkDealSentinels, hsentinels, Program.forEach,
      bind_state _ _ (consumeSentinel_returns cfg inp.now price _)]
    rfl
  obtain ⟨x, hx⟩ : ∃ x, x = (consumeSentinel cfg inp.now price (.edit i settings) y).state :=
    ⟨_, rfl⟩
  rw [← hx] at hedit
  have hopen : x.engine.state.openDeals.items ≠ [] := by
    rw [hedit]
    exact List.cons_ne_nil _ _
  refine ⟨x.engine.state, hedit, ?_⟩
  rw [afterMonitoring_state, ← hv, manualTrigger_opens cfg inp price v i hmanual hvflat hsafe hid,
    ← hy, hsentinel, ← hx, entryStep_open cfg sig inp price x hopen]
  exact written_writeState cfg inp price x

/-- The entry opens a deal. -/
theorem late_entry (u : World) (i : String) (t : Option GroupTrigger)
    (hflat : u.engine.state.openDeals.items = []) (hmanual : inp.manualTrigger = false)
    (hsentinels : inp.sentinels = []) (hopen : inp.isOpen = true)
    (hcloses : inp.candles.closesPerTf cfg.timeframe ≠ [])
    (hsignal : IndicatorEngine.checkEntrySignal cfg sig inp.candles = (true, t))
    (hpaused : (drawdownStep cfg price u.engine).pausedByDrawdown = false)
    (hid : createWithRetry inp.entryOpen = some i) :
    ∃ s, s.openDeals.items = [newDeal cfg inp.now i price t] ∧
      Written s (afterMonitoring cfg sig inp price u).state := by
  have hdrawdown := updateDrawdownGuard_state cfg price u
  obtain ⟨v, hv⟩ : ∃ v, v = (updateDrawdownGuard cfg price u).state := ⟨_, rfl⟩
  have hrunning : v.engine.pausedByDrawdown = false := by
    rw [hv]
    exact hpaused
  rw [← hv] at hdrawdown
  have hvflat : v.engine.state.openDeals.items = [] := by rw [hdrawdown, hflat]
  have hsame : (checkDealSentinels cfg inp.now inp price v).state = v := by
    rw [checkDealSentinels, hsentinels]
    rfl
  have hentry : (entryStep cfg sig inp price v).state = afterOpen cfg inp.now i price t v := by
    rw [entryStep, Program.get_bind_run, if_pos ⟨hopen, hrunning⟩,
      checkEntry_signal cfg sig price inp v t ⟨hvflat, hcloses⟩ hsignal, openDeal_run, hid]
  refine ⟨(afterOpen cfg inp.now i price t v).engine.state,
    afterOpen_items cfg inp price i t v hvflat, ?_⟩
  rw [afterMonitoring_state, ← hv,
    manualTrigger_idle cfg inp price v (fun hc => by rw [hmanual] at hc; cases hc.1), hsame, hentry]
  exact written_writeState cfg inp price _

/-- A tick whose monitoring returns ends as what comes behind it. -/
theorem tick_written (w u : World) (l : List EngineEvent) (t : Ticker) (ht : inp.ticker = .ok t)
    (hmonitor : monitorDeals cfg sig inp.candles inp.now t.tickPrice 0
      ((tracked t.tickPrice (hooked inp w)).engine.state.openDeals.items.map PaperDeal.id)
      (tracked t.tickPrice (hooked inp w)) = ⟨.ok (), l, u⟩) (s : PaperState)
    (h : Written s (afterMonitoring cfg sig inp t.tickPrice u).state) :
    Written s (tick cfg sig inp w).state := by
  have hbody : (bodyAt cfg sig inp t.tickPrice w).state =
      (afterMonitoring cfg sig inp t.tickPrice u).state := by
    rw [bodyAt, afterTracking_run, Program.bind_ok _ _ _ () (by rw [hmonitor]), hmonitor]
  rw [(tick_run_ok cfg sig inp t ht w).2, hbody]
  refine ⟨(postTickHook_account _).1.trans h.state, ?_⟩
  rw [(postTick_running _).2]
  exact h.file

end Late

/-! ### A ladder that is filled -/

/-- Switch take profit and stop loss off. -/
def openEnded : EditSettings := ⟨some { enabled := some false }, some { enabled := some false }, some true⟩

/-- A deal on its `n`-th rung that only its ladder can act on. -/
structure OnRung (n : ℕ) (d : PaperDeal) : Prop where
  fills : FillsRungs cfg d.orders n
  takeProfit : tpTargetPct cfg d = none
  stopLoss : slSettings cfg d = none
  dca : d.dcaEnabled = true
  side : d.side = cfg.direction
  last : ∃ o, d.orders.getLast? = some o ∧ (cfg.direction = .long → 0 ≤ o.price ∧ (n = 0 ∨ o.price = 0))

/-- A price beyond the next rung: a long falls to nothing, a short rises by the spacing. -/
def nextPrice (d : PaperDeal) : ℚ :=
  match cfg.direction, d.orders.getLast? with
  | .short, some o => o.price * (1 + dcaStep cfg d / 100)
  | _, _ => 0

theorem OnRung.reload (n : ℕ) (d : PaperDeal) (p : ℚ) (h : OnRung cfg n d) :
    OnRung cfg n (dictToDeal (dealToDict d p)) :=
  ⟨h.fills, h.takeProfit, h.stopLoss, h.dca, h.side, h.last⟩

theorem OnRung.track (n : ℕ) (d : PaperDeal) (p : ℚ) (h : OnRung cfg n d) :
    OnRung cfg n (trackWick p d) :=
  ⟨h.fills, h.takeProfit, h.stopLoss, h.dca, h.side, h.last⟩

theorem OnRung.triggers (n : ℕ) (d : PaperDeal) (h : OnRung cfg n d) (hn : n < maxRungs cfg) :
    dcaVerdict cfg d (nextPrice cfg d) = .ok true := by
  have hcount : d.dcaCount = n := h.fills.count
  obtain ⟨o, ho, hlong⟩ := h.last
  have henabled : cfg.dca.enabled = true := by
    by_contra hoff
    rw [maxRungs, if_neg hoff] at hn
    omega
  rw [maxRungs, if_pos henabled] at hn
  have hallowed : dcaAllowed cfg d = true := by
    simp only [dcaAllowed, henabled, h.dca, hcount, Bool.true_and, Bool.and_eq_true,
      decide_eq_true_eq]
    omega
  rw [dcaVerdict, if_pos hallowed, ho]
  refine congrArg Except.ok ?_
  unfold dcaTriggered nextPrice
  rw [h.side]
  cases hside : cfg.direction with
  | short => simp [ho]
  | long =>
    obtain ⟨hpos, hzero⟩ := hlong hside
    simp only [decide_eq_true_eq]
    rcases hzero with hfirst | hzero
    · have hstep : dcaStep cfg d ≤ 50 := by
        rw [dcaStep, hcount, hfirst, pow_zero, mul_one]
        exact cfg.dca.orderSpacingPct_le
      exact mul_nonneg hpos (by linarith)
    · rw [hzero, zero_mul]

/-- The deal with the rung filled. -/
theorem OnRung.filled (n : ℕ) (d : PaperDeal) (now : Instant) (h : OnRung cfg n d)
    (hn : n < maxRungs cfg) :
    OnRung cfg (n + 1)
      { d with orders := d.orders ++ [dcaOrder cfg now d (nextPrice cfg d)] } := by
  have hv := h.triggers cfg n d hn
  have hcount : d.dcaCount = n := h.fills.count
  have hsize : (dcaOrder cfg now d (nextPrice cfg d)).size = rungSize cfg n := by
    rw [← hcount]
    rfl
  refine ⟨⟨?_, ?_, hn⟩, h.takeProfit, h.stopLoss, h.dca, h.side, ?_⟩
  · rw [List.filter_append, List.length_append, h.fills.count]
    rfl
  · rw [List.map_append, h.fills.sizes, ladderOrders_succ, List.map_cons, List.map_nil, hsize]
  · refine ⟨_, List.getLast?_concat, fun hlong => ?_⟩
    have hprice : (dcaOrder cfg now d (nextPrice cfg d)).price = 0 := by
      show nextPrice cfg d = 0
      rw [nextPrice, hlong]
    rw [hprice]
    exact ⟨le_refl 0, .inr rfl⟩

/-- A tick at the price of the next rung. -/
def rungTick (d : PaperDeal) : TickInput where
  ticker := .ok ⟨nextPrice cfg d, nextPrice cfg d, nextPrice cfg d, none⟩
  isOpen := true
  candles := ⟨fun _ => [], fun _ => none, fun _ => none⟩
  manualTrigger := false
  manualOpen := .accepted ""
  sentinels := []
  entryOpen := .accepted ""
  clockOk := true
  now := 0

/-- The monitoring of a deal on its ladder fills the rung that the price has reached. -/
theorem monitor_rung (inp : TickInput) (n : ℕ) (d : PaperDeal) (v : World)
    (hitems : v.engine.state.openDeals.items = [d]) (h : OnRung cfg n d) (hn : n < maxRungs cfg) :
    monitorDeals cfg sig inp.candles inp.now (nextPrice cfg d) 0
        (v.engine.state.openDeals.items.map PaperDeal.id) v =
      ⟨.ok (), dcaLog cfg inp.now d (nextPrice cfg d) v, afterDca cfg inp.now d (nextPrice cfg d) v⟩ := by
  have hmem : d ∈ v.engine.state.openDeals.items := by
    rw [hitems]
    exact List.mem_singleton_self d
  have hget : v.deal? d.id = some d := KeyedDict.get?_of_mem _ d hmem
  have hidle : tpVerdict cfg sig inp.candles d (nextPrice cfg d) = .ok .idle := by
    rw [tpVerdict, h.takeProfit]
  have htp : EngineOp.program cfg sig (.takeProfit inp.candles inp.now (nextPrice cfg d) d.id) v =
      ⟨.ok (), [], v⟩ := by
    simp only [EngineOp.program, whileOpen_run, hget, checkTp_run, hidle]
  have hsl : slRound cfg (nextPrice cfg d) inp.now d.id v = ⟨.ok (), [], v⟩ := by
    simp only [slRound, whileOpen_run, hget, checkSl_run, h.stopLoss]
  have hcheck : checkDca cfg inp.now d (nextPrice cfg d) v =
      ⟨.ok true, dcaLog cfg inp.now d (nextPrice cfg d) v,
        afterDca cfg inp.now d (nextPrice cfg d) v⟩ := by
    rw [checkDca_run, h.triggers cfg n d hn]
  have hdca : dcaRound cfg (nextPrice cfg d) inp.now 0 d.id v =
      ⟨.ok 1, dcaLog cfg inp.now d (nextPrice cfg d) v,
        afterDca cfg inp.now d (nextPrice cfg d) v⟩ := by
    have hfirst : ¬ maxDcaPerTick ≤ 0 := by decide
    simp only [dcaRound, whileOpen_run, hget, if_neg hfirst]
    rw [Program.bind_ok _ _ _ true (by rw [hcheck]), hcheck]
    simp
  have hround : monitorDeal cfg sig inp.candles inp.now (nextPrice cfg d) 0 d.id v =
      ⟨.ok 1, dcaLog cfg inp.now d (nextPrice cfg d) v,
        afterDca cfg inp.now d (nextPrice cfg d) v⟩ := by
    rw [monitorDeal_eq, Program.bind_ok _ _ _ () (by rw [htp]), htp, monitorTail_eq,
      Program.bind_ok _ _ _ () (by rw [hsl]), hsl, hdca]
    rfl
  rw [hitems, List.map_cons, List.map_nil, monitorDeals_cons, Program.bind_ok _ _ _ 1 (by rw [hround]),
    hround]
  simp [monitorDeals]

theorem afterDca_items (now : Instant) (price : ℚ) (d : PaperDeal) (v : World)
    (hitems : v.engine.state.openDeals.items = [d]) :
    (afterDca cfg now d price v).engine.state.openDeals.items =
      [{ d with orders := d.orders ++ [dcaOrder cfg now d price] }] := by
  show (v.engine.state.openDeals.modify d.id
    (fun e => { e with orders := e.orders ++ [dcaOrder cfg now d price] }) fun _ => rfl).items = _
  rw [KeyedDict.modify, KeyedDict.mapValues_items, hitems]
  simp

/-- One deal is open, on its `n`-th rung, and the file has it. -/
def StandsOn (n : ℕ) (w : World) : Prop :=
  ∃ s d, s.openDeals.items = [d] ∧ OnRung cfg n d ∧ Written s w

/-- The tick at the next rung. -/
theorem standsOn_tick (n : ℕ) (d : PaperDeal) (w : World)
    (hitems : w.engine.state.openDeals.items = [d]) (h : OnRung cfg n d) (hn : n < maxRungs cfg) :
    StandsOn cfg (n + 1) (tick cfg sig (rungTick cfg d) w).state := by
  obtain ⟨q, hq⟩ : ∃ q, q = nextPrice cfg d := ⟨_, rfl⟩
  have htracked : nextPrice cfg (trackWick q d) = nextPrice cfg d := rfl
  have hd := h.track cfg n d q
  obtain ⟨v, hv⟩ : ∃ v, v = tracked q (hooked (rungTick cfg d) w) := ⟨_, rfl⟩
  have hvitems : v.engine.state.openDeals.items = [trackWick q d] := by
    rw [hv]
    show (hooked (rungTick cfg d) w).engine.state.openDeals.items.map (trackWick q) = _
    rw [hooked, (preTickHook_account _ w).1, hitems]
    rfl
  have hmonitor := monitor_rung cfg sig (rungTick cfg d) n (trackWick q d) v hvitems hd hn
  have hafter := afterDca_items cfg 0 (nextPrice cfg (trackWick q d)) (trackWick q d) v hvitems
  have hlate := late_open cfg sig (rungTick cfg d) q _ _ hafter rfl
  rw [htracked, ← hq] at hmonitor hafter hlate
  have hticker : (rungTick cfg d).ticker = .ok ⟨q, q, q, none⟩ := by
    rw [hq]
    rfl
  rw [hv] at hmonitor
  have hwritten := tick_written cfg sig (rungTick cfg d) w _ _ ⟨q, q, q, none⟩ hticker hmonitor _
    (hv ▸ hlate)
  have hfilled := hd.filled cfg n (trackWick q d) 0 hn
  rw [htracked, ← hq] at hfilled
  exact ⟨_, _, hv ▸ hafter, hfilled, hwritten⟩

/-- A restart finds the deal in the file. -/
theorem standsOn_restart (n : ℕ) (w : World) (h : StandsOn cfg n w) :
    ∃ d, ((LifeStep.restart 1).program cfg sig w).state.engine.state.openDeals.items = [d] ∧
      OnRung cfg n d := by
  obtain ⟨s, d, hitems, hd, hw⟩ := h
  obtain ⟨doc, hfile, hlists⟩ := hw.file
  obtain ⟨price, hload⟩ := fileState_openItems s doc hlists
  refine ⟨dictToDeal (dealToDict d price), ?_, hd.reload cfg n d price⟩
  show (bootEngine 1 w.file).state.openDeals.items = _
  rw [(bootEngine_deals 1 w.file).1, hfile, hload, hitems]
  rfl

/-- From the first rung the whole ladder can be filled. -/
theorem standsOn_ladder (ls : List LifeStep) (n : ℕ) (hn : n ≤ maxRungs cfg)
    (h : StandsOn cfg 0 (afterLife cfg sig 1 ls)) :
    ∃ ls', StandsOn cfg n (afterLife cfg sig 1 ls') := by
  induction n with
  | zero => exact ⟨ls, h⟩
  | succ n ih =>
    obtain ⟨ls', hls'⟩ := ih (by omega)
    obtain ⟨d, hitems, hd⟩ := standsOn_restart cfg sig n _ hls'
    refine ⟨ls' ++ [.restart 1, .tick (rungTick cfg d)], ?_⟩
    rw [afterLife, Program.runAll_append]
    exact standsOn_tick cfg sig n d _ hitems hd (by omega)

end LadderReach

end Reverto
