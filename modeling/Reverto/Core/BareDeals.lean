import Mathlib.Tactic
import Reverto.Core.LadderOpenings
import Reverto.Core.StopEvaluation

/-!
# Deals that never come to their ladder (core/trading_engine.py)

Where only the entry can open deals and their first monitoring raises or closes them, no edit
reaches a deal and no rung is filled.
-/

namespace Reverto

open TradingEngine PriceGuard

namespace LadderReach

open LadderSize MonitorRounds

variable (cfg : BotConfig) (sig : Signals)

/-- The deal is as the entry opened it, up to trackers. -/
structure Untouched (d : PaperDeal) : Prop where
  side : d.side = cfg.direction
  tpOverride : d.tpOverride = none
  slOverride : d.slOverride = none

/-- The orders of a deal that only the entry has touched. -/
def BareOrders (orders : List PaperOrder) : Prop :=
  CanEnter cfg sig ∧ orders.map PaperOrder.size = [cfg.dca.baseOrderSize]

/-- No deal of the account has come to its ladder. -/
structure Bare (s : PaperState) : Prop where
  untouched : ∀ d ∈ s.openDeals.items, Untouched cfg d
  orders : DealsHold (BareOrders cfg sig) s

/-- Nor has one in memory or in the file. -/
structure BareWorld (w : World) : Prop where
  memory : Bare cfg sig w.engine.state
  file : Bare cfg sig (fileState w.file)
  one : OneOpen w

theorem bare_congr (s s' : PaperState) (hopen : s'.openDeals = s.openDeals)
    (hclosed : s'.closedDeals = s.closedDeals) (h : Bare cfg sig s) : Bare cfg sig s' where
  untouched := by
    rw [hopen]
    exact h.untouched
  orders := dealsHold_congr _ s s' hopen hclosed h.orders

theorem bare_fileState (s : PaperState) (doc : StateDoc) (hlists : Lists s doc)
    (h : Bare cfg sig s) : Bare cfg sig (fileState (some doc)) where
  untouched := by
    obtain ⟨price, hitems⟩ := fileState_openItems s doc hlists
    intro x hx
    rw [hitems] at hx
    obtain ⟨d, hd, rfl⟩ := List.mem_map.mp hx
    exact ⟨(h.untouched d hd).side, (h.untouched d hd).tpOverride, (h.untouched d hd).slOverride⟩
  orders := dealsHold_fileState _ s doc hlists h.orders

/-! ### The checks of a bot whose deals do not survive -/

section Checks

variable (d : PaperDeal) (price : ℚ) (h : Untouched cfg d) (hs : ¬ Survives cfg)
include h hs

/-- The take profit raises, or the stop loss raises or closes. -/
theorem ends_of_not_survives :
    (∀ (sig : Signals) (c : Candles), ∃ x, tpVerdict cfg sig c d price = .error x) ∨
      ∃ s, slSettings cfg d = some s ∧ slVerdict cfg d price s ≠ .ok false := by
  by_cases htp : cfg.takeProfit.enabled = true ∧ cfg.direction = .long ∧ cfg.takeProfit.targetPct = 100
  · obtain ⟨henabled, hside, hpct⟩ := htp
    refine .inl fun sig c => ⟨.zeroDivisionError, ?_⟩
    have hon : tpTargetPct cfg d = some 100 := by
      rw [tpTargetPct, h.tpOverride]
      simp only [henabled, if_true, hpct]
    have htarget : computeTpTargetPrice d.avgEntryPrice 100 d.side = .error .zeroDivisionError := by
      rw [h.side, hside]
      norm_num [computeTpTargetPrice, pyDiv]
    simp only [tpVerdict, hon, htarget, bind, Except.bind]
  right
  have hset : ∀ type, cfg.stopLoss.type = type → type ≠ .none →
      slSettings cfg d = some (slTypeOf type, cfg.stopLoss.pct) := by
    intro type htype hne
    rw [slSettings, h.slOverride]
    simp only [htype, if_neg hne]
  by_cases hshort : cfg.stopLoss.type ≠ .none ∧ cfg.direction = .short ∧ cfg.stopLoss.pct = 100
  · obtain ⟨hne, hside, hpct⟩ := hshort
    refine ⟨_, hset _ rfl hne, fun hv => ?_⟩
    have hundef : StopEvaluation.SlUndefined d cfg.stopLoss.pct := by
      rw [StopEvaluation.SlUndefined, h.side, hside]
      exact hpct
    obtain ⟨x, hx⟩ := (StopEvaluation.slVerdict_error_iff cfg price d
      (slTypeOf cfg.stopLoss.type, cfg.stopLoss.pct)).mpr hundef
    rw [hx] at hv
    cases hv
  have htrailing : cfg.stopLoss.type = .trailing ∧ cfg.stopLoss.pct = 0 := by
    by_contra hno
    exact hs ⟨htp, hshort, hno⟩
  obtain ⟨htype, hpct⟩ := htrailing
  refine ⟨_, hset .trailing htype (by simp), ?_⟩
  -- a trail of 0% runs along the extreme, which the price never passes
  have hline : computeSlTargetPrice (newPeak cfg d price) 0 d.side = .ok (newPeak cfg d price) := by
    unfold computeSlTargetPrice
    cases d.side with
    | long => norm_num [pyDiv]
    | short => norm_num [pyDiv]
  have hhit : slHit d.side price (newPeak cfg d price) = true := by
    unfold slHit newPeak
    cases d.side with
    | long =>
      simp only [decide_eq_true_eq]
      refine le_max_of_le_right ?_
      split
      · exact le_max_right _ _
      · exact le_rfl
    | short =>
      simp only [decide_eq_true_eq]
      refine min_le_of_right_le ?_
      split
      · exact min_le_right _ _
      · exact le_rfl
  rw [hpct, slVerdict]
  show (computeSlTargetPrice (newPeak cfg d price) 0 d.side).map (slHit d.side price) ≠ .ok false
  rw [hline, Except.map, hhit]
  simp

/-- The round of such a deal fills no rung, and returns only where it closes the deal. -/
theorem round_of_not_survives (c : Candles) (n : ℕ) :
    (∀ i p, .dcaFilled i p ∉ roundEvents cfg sig c price d) ∧
      (roundEnd cfg sig c price n d = .aborts ∨ ∃ f, roundEnd cfg sig c price n d = .closes f) := by
  rcases ends_of_not_survives cfg d price h hs with htp | ⟨s, hset, hv⟩
  · obtain ⟨x, hx⟩ := htp sig c
    constructor
    · intro i p hi
      rw [roundEvents, hx] at hi
      cases hi
    · left
      rw [roundEnd, hx]
  · have htail : (∀ i p, .dcaFilled i p ∉ tailEvents cfg price d) ∧
        (tailEnd cfg price n d = .aborts ∨ tailEnd cfg price n d = .closes price) := by
      unfold tailEvents tailEnd
      rw [hset]
      simp only [Option.map_some]
      cases hend : slVerdict cfg d price s with
      | error x => simp
      | ok hit =>
        cases hit with
        | true => simp
        | false => exact absurd hend hv
    obtain ⟨hquiet, hend⟩ := htail
    unfold roundEvents roundEnd
    cases tpVerdict cfg sig c d price with
    | error x => simp
    | ok v =>
      cases v with
      | priceFill f => simp
      | indicatorFill info => simp
      | idle =>
        refine ⟨hquiet, hend.imp_right fun hc => ⟨price, hc⟩⟩
      | held =>
        refine ⟨fun i p hi => ?_, hend.imp_right fun hc => ⟨price, hc⟩⟩
        rcases List.mem_cons.mp hi with hi | hi
        · cases hi
        · exact hquiet i p hi

end Checks

/-! ### The monitoring of a bare account -/

/-- Monitoring that fills no rung keeps the account bare and the file. -/
def KeepsBare (w : World) (l : List EngineEvent) (w' : World) : Prop :=
  (∀ i p, .dcaFilled i p ∉ l) → Bare cfg sig w.engine.state →
    Bare cfg sig w'.engine.state ∧ w'.file = w.file

theorem keepsBare_traceRel : Program.TraceRel (KeepsBare cfg sig) where
  nil _ _ h := ⟨h, rfl⟩
  append := by
    intro w l v l' u h h' hquiet hbare
    obtain ⟨hv, hfile⟩ := h (fun i p hi => hquiet i p (List.mem_append_left _ hi)) hbare
    obtain ⟨hu, hfile'⟩ := h' (fun i p hi => hquiet i p (List.mem_append_right _ hi)) hv
    exact ⟨hu, hfile'.trans hfile⟩

theorem keepsBare_op (inp : TickInput) (price : ℚ) (op : EngineOp)
    (hop : EngineOp.Monitors inp price op) :
    Program.Respects (KeepsBare cfg sig) (op.program cfg sig) := by
  intro w hquiet h
  have htrack : ∀ p, op ≠ .trackWicks p := by
    rintro p rfl
    cases hop
  have hedit : ∀ i s b, .edited i s b ∉ (op.program cfg sig w).log := by
    intro i s b he
    obtain ⟨now, p, rfl⟩ := loggedBy_op cfg sig op w _ he
    cases hop
  have hopen : ∀ i p, .opened i p ∉ (op.program cfg sig w).log := by
    intro i p he
    obtain ⟨now, o, t, rfl⟩ := loggedBy_op cfg sig op w _ he
    cases hop
  have hfrom : ∀ d' ∈ (op.program cfg sig w).state.engine.state.openDeals.items,
      ∃ d ∈ w.engine.state.openDeals.items, d'.orders = d.orders ∧ (Untouched cfg d → Untouched cfg d') := by
    intro d' hd'
    rcases continues_op cfg sig op htrack w d' hd' with ⟨d, hd, hstep⟩ | ⟨now, p, t, _, he⟩
    · cases hstep with
      | same => exact ⟨d', hd, rfl, fun hu => hu⟩
      | peak now p hp => exact ⟨d, hd, rfl, fun hu => ⟨hu.side, hu.tpOverride, hu.slOverride⟩⟩
      | order now p hp => exact absurd hp (hquiet _ _)
      | settings s he => exact absurd he (hedit _ _ _)
    · exact absurd he (hopen _ _)
  have hsave : savesFile w op = false := by
    cases hop <;> rfl
  refine ⟨⟨fun d' hd' => ?_, ?_⟩, file_kept cfg sig op w hsave⟩
  · obtain ⟨d, hd, _, hu⟩ := hfrom d' hd'
    exact hu (h.untouched d hd)
  · refine dealsHold_op cfg sig _ op w (fun horders d' hd' => ?_) h.orders
    obtain ⟨d, hd, hsame, _⟩ := hfrom d' hd'
    rw [hsame]
    exact horders d hd

variable (hladder : ¬ CanLadder cfg sig)
include hladder

/-- Monitoring keeps the account bare, and returns only where no deal is open any more. -/
theorem monitor_bare (inp : TickInput) (price : ℚ) (v : World) (h : Bare cfg sig v.engine.state)
    (hone : v.engine.state.openDeals.items.length ≤ 1) :
    let o := monitorDeals cfg sig inp.candles inp.now price 0
      (v.engine.state.openDeals.items.map PaperDeal.id) v
    (Bare cfg sig o.state.engine.state ∧ o.state.file = v.file) ∧
      (o.result = .ok () → o.state.engine.state.openDeals.items = []) := by
  intro o
  have hmeet := meets_items v
  have hdoom : ∀ d ∈ v.engine.state.openDeals.items, ¬ Survives cfg := by
    intro d hd hs
    have hbare := h.orders d (List.mem_append_left _ hd)
    exact hladder (.inr ⟨hbare.1, hs⟩)
  have hevents := monitorDeals_events cfg sig inp price v.engine.state.openDeals.items v hone hmeet.2
  have hquiet : ∀ i p, .dcaFilled i p ∉ o.log := by
    intro i p hi
    have hmem : EngineEvent.dcaFilled i p ∈ o.log.filter isManagement :=
      List.mem_filter.mpr ⟨hi, rfl⟩
    rw [hevents] at hmem
    obtain ⟨d, hd, hround⟩ := List.mem_flatMap.mp hmem
    exact (round_of_not_survives cfg sig d price (h.untouched d hd) (hdoom d hd) inp.candles 0).1 i p
      hround
  have hkeep : KeepsBare cfg sig v o.log o.state :=
    monitorDeals_respects_ops cfg sig (KeepsBare cfg sig) (keepsBare_traceRel cfg sig) inp price
      (fun op hop => keepsBare_op cfg sig inp price op hop) _ 0 v
  refine ⟨hkeep hquiet h, fun hok => ?_⟩
  cases hitems : v.engine.state.openDeals.items with
  | nil =>
    have hrun : o.state = v := by
      show (monitorDeals cfg sig inp.candles inp.now price 0
        (v.engine.state.openDeals.items.map PaperDeal.id) v).state = v
      rw [hitems]
      rfl
    rw [hrun, hitems]
  | cons d ds =>
    have hnil : ds = [] := by
      rw [hitems, List.length_cons] at hone
      exact List.length_eq_zero_iff.mp (by omega)
    have hd : d ∈ v.engine.state.openDeals.items := by
      rw [hitems]
      exact List.mem_cons_self
    have hget := hmeet.2 d hd
    have horun : o = monitorDeals cfg sig inp.candles inp.now price 0 [d.id] v := by
      show monitorDeals cfg sig inp.candles inp.now price 0
        (v.engine.state.openDeals.items.map PaperDeal.id) v = _
      rw [hitems, hnil]
      rfl
    have hspec := monitorDeal_spec cfg sig price inp 0 d v hget
    rcases (round_of_not_survives cfg sig d price (h.untouched d hd) (hdoom d hd) inp.candles 0).2 with
      hend | ⟨f, hend⟩
    · rw [hend] at hspec
      obtain ⟨⟨x, hx⟩, _, _⟩ := hspec
      rw [horun, monitorDeals_cons, Program.bind_error _ _ _ x hx] at hok
      cases hok
    · have hgone := StopEvaluation.round_gone cfg price sig inp 0 d v hget f hend
      rw [hend] at hspec
      have hstate : o.state = (monitorDeal cfg sig inp.candles inp.now price 0 d.id v).state := by
        rw [horun, monitorDeals_cons, Program.bind_ok _ _ _ 0 hspec.1]
        rfl
      rw [hstate]
      refine List.eq_nil_iff_forall_not_mem.mpr fun e he => ?_
      have hself : (monitorDeal cfg sig inp.candles inp.now price 0 d.id v).state.deal? e.id = some e :=
        KeyedDict.get?_of_mem _ e he
      by_cases hid : e.id = d.id
      · rw [hid, hgone] at hself
        cases hself
      · rw [monitorDeal_other cfg sig inp price 0 d.id e.id hid v] at hself
        have hmem := (KeyedDict.get?_mem _ _ _ hself).1
        rw [hitems, hnil, List.mem_singleton] at hmem
        exact hid (congrArg PaperDeal.id hmem)

/-! ### The life of a bare account -/

omit hladder in
/-- No sentinel finds a deal where none is open. -/
theorem sentinels_flat (inp : TickInput) (price : ℚ) (v : World)
    (hflat : v.engine.state.openDeals.items = []) :
    (checkDealSentinels cfg inp.now inp price v).state = v := by
  have hnone : ∀ i, v.deal? i = none := by
    intro i
    rw [World.deal?, KeyedDict.get?_eq_none_iff, hflat]
    exact List.not_mem_nil
  have hone : ∀ s, consumeSentinel cfg inp.now price s v = ⟨.ok (), [], v⟩ := by
    intro s
    rw [consumeSentinel_run]
    cases s with
    | unknown i => rfl
    | edit i settings => simp only [hnone]
    | act i action => simp only [hnone]
  have hall : ∀ ss : List Sentinel, (Program.forEach (consumeSentinel cfg inp.now price) ss v).state = v := by
    intro ss
    induction ss with
    | nil => rfl
    | cons s ss ih =>
      rw [Program.forEach, bind_state _ _ (consumeSentinel_returns cfg inp.now price s), hone]
      exact ih
  exact hall inp.sentinels

/-- Behind a monitoring that left no deal open only the entry acts. -/
theorem late_bare (inp : TickInput) (price : ℚ) (u : World)
    (hflat : u.engine.state.openDeals.items = []) (h : Bare cfg sig u.engine.state) :
    ∃ s, Bare cfg sig s ∧ Written s (afterMonitoring cfg sig inp price u).state := by
  have hdrawdown := updateDrawdownGuard_state cfg price u
  obtain ⟨v, hv⟩ : ∃ v, v = (updateDrawdownGuard cfg price u).state := ⟨_, rfl⟩
  rw [← hv] at hdrawdown
  have hvflat : v.engine.state.openDeals.items = [] := by rw [hdrawdown, hflat]
  have hvbare : Bare cfg sig v.engine.state := by
    rw [hdrawdown]
    exact h
  have hmanual : (checkManualTrigger cfg inp.now inp price v).state = v :=
    manualTrigger_idle cfg inp price v fun hc => hladder (.inl ⟨price, hc.2.2⟩)
  obtain ⟨x, hx⟩ : ∃ x, x = (entryStep cfg sig inp price v).state := ⟨_, rfl⟩
  have hentry : Bare cfg sig x.engine.state := by
    have hkept : Program.Respects (fun w (_ : List EngineEvent) w' =>
        Bare cfg sig w.engine.state → Bare cfg sig w'.engine.state) (entryStep cfg sig inp price) := by
      refine respects_entryStep cfg sig (fun _ h => h) inp price fun w t hwflat hcloses hsignal hw => ?_
      have henter : CanEnter cfg sig := ⟨inp.candles, hcloses, congrArg Prod.fst hsignal⟩
      rw [openDeal_run]
      cases createWithRetry inp.entryOpen with
      | none => exact hw
      | some i =>
        have hitems := afterOpen_items cfg inp price i t w hwflat
        refine ⟨fun d hd => ?_, (dealsHold_iff _ _).mpr ⟨fun d hd => ?_, ?_⟩⟩
        · rw [hitems] at hd
          rw [List.mem_singleton.mp hd]
          exact ⟨rfl, rfl, rfl⟩
        · rw [hitems] at hd
          rw [List.mem_singleton.mp hd]
          exact ⟨henter, rfl⟩
        · exact ((dealsHold_iff _ _).mp hw.orders).2
    rw [hx]
    exact hkept v hvbare
  refine ⟨x.engine.state, hentry, ?_⟩
  rw [afterMonitoring_state, ← hv, hmanual, sentinels_flat cfg inp price v hvflat, ← hx]
  exact written_writeState cfg inp price x

theorem bareWorld_tick (inp : TickInput) (w : World) (h : BareWorld cfg sig w) :
    BareWorld cfg sig (tick cfg sig inp w).state := by
  have hone := oneOpen_step cfg sig (.tick inp) w h.one
  cases ht : inp.ticker with
  | error e =>
    have hstate := (tick_run_error cfg sig inp e ht w).2
    have hmemory : (tick cfg sig inp w).state.engine.state = w.engine.state := by
      rw [hstate, (postTickHook_account _).1, hooked, (preTickHook_account inp w).1]
    have hfile : (tick cfg sig inp w).state.file = w.file := by
      rw [hstate, (postTick_running _).2]
      rfl
    exact ⟨by rw [hmemory]; exact h.memory, by rw [hfile]; exact h.file, hone⟩
  | ok t =>
    obtain ⟨v, hv⟩ : ∃ v, v = tracked t.tickPrice (hooked inp w) := ⟨_, rfl⟩
    have haccount : (hooked inp w).engine.state = w.engine.state := (preTickHook_account inp w).1
    have hitems : v.engine.state.openDeals.items =
        w.engine.state.openDeals.items.map (trackWick t.tickPrice) := by
      rw [hv]
      show (hooked inp w).engine.state.openDeals.items.map (trackWick t.tickPrice) = _
      rw [haccount]
    have hclosed : v.engine.state.closedDeals = w.engine.state.closedDeals := by
      rw [hv]
      show (hooked inp w).engine.state.closedDeals = _
      rw [haccount]
    have hvfile : v.file = w.file := by
      rw [hv]
      rfl
    have hvbare : Bare cfg sig v.engine.state := by
      obtain ⟨hopens, hcloseds⟩ := (dealsHold_iff _ _).mp h.memory.orders
      refine ⟨fun x hx => ?_, (dealsHold_iff _ _).mpr ⟨fun x hx => ?_, ?_⟩⟩
      · rw [hitems] at hx
        obtain ⟨d, hd, rfl⟩ := List.mem_map.mp hx
        have hu := h.memory.untouched d hd
        exact ⟨hu.side, hu.tpOverride, hu.slOverride⟩
      · rw [hitems] at hx
        obtain ⟨d, hd, rfl⟩ := List.mem_map.mp hx
        exact hopens d hd
      · rw [hclosed]
        exact hcloseds
    have hvone : v.engine.state.openDeals.items.length ≤ 1 := by
      rw [hitems, List.length_map]
      exact h.one.memory
    obtain ⟨⟨hbare, hfile⟩, hflat⟩ := monitor_bare cfg sig hladder inp t.tickPrice v hvbare hvone
    obtain ⟨o, ho⟩ : ∃ o, o = monitorDeals cfg sig inp.candles inp.now t.tickPrice 0
        (v.engine.state.openDeals.items.map PaperDeal.id) v := ⟨_, rfl⟩
    rw [← ho] at hbare hfile hflat
    have hbody : bodyAt cfg sig inp t.tickPrice w = (monitorDeals cfg sig inp.candles inp.now
        t.tickPrice 0 (v.engine.state.openDeals.items.map PaperDeal.id) >>= fun _ =>
          afterMonitoring cfg sig inp t.tickPrice) v := by
      rw [bodyAt, ← hv, afterTracking_run]
    have hstate := (tick_run_ok cfg sig inp t ht w).2
    cases hresult : o.result with
    | error x =>
      rw [hbody, Program.bind_error _ _ _ x (by rw [← ho]; exact hresult), ← ho] at hstate
      refine ⟨?_, ?_, hone⟩
      · rw [hstate, (postTickHook_account _).1]
        exact hbare
      · rw [hstate, (postTick_running _).2, hfile, hvfile]
        exact h.file
    | ok done =>
      rw [hbody, Program.bind_ok _ _ _ () (by rw [← ho]; exact hresult), ← ho] at hstate
      obtain ⟨s, hs, hwritten⟩ := late_bare cfg sig hladder inp t.tickPrice o.state (hflat hresult) hbare
      obtain ⟨doc, hdoc, hlists⟩ := hwritten.file
      refine ⟨?_, ?_, hone⟩
      · rw [hstate, (postTickHook_account _).1, hwritten.state]
        exact hs
      · rw [hstate, (postTick_running _).2, hdoc]
        exact bare_fileState cfg sig s doc hlists hs

theorem bareWorld_step (l : LifeStep) (w : World) (h : BareWorld cfg sig w) :
    BareWorld cfg sig (l.program cfg sig w).state := by
  have hone := oneOpen_step cfg sig l w h.one
  have hmoved : AllHold (BareOrders cfg sig) w := ⟨h.memory.orders, h.file.orders⟩
  cases l with
  | tick inp => exact bareWorld_tick cfg sig hladder inp w h
  | stop =>
    obtain ⟨hopen, hclosed⟩ := markStopped_deals w.file
    exact ⟨h.memory, bare_congr cfg sig _ _ hopen hclosed h.file, hone⟩
  | restart b =>
    obtain ⟨hopen, hclosed⟩ := bootEngine_deals b w.file
    exact ⟨bare_congr cfg sig _ _ hopen hclosed h.file, h.file, hone⟩
  | closeOffline i price now action =>
    have hall := allHold_still cfg sig _ (.closeOffline i price now action) (by simp) w hmoved
    refine ⟨h.memory, ⟨?_, hall.file⟩, hone⟩
    show ∀ d ∈ (fileState (LifeStep.offlineFile cfg w.file i price now action)).openDeals.items,
      Untouched cfg d
    rcases LifeStep.offlineFile_cases cfg w.file i price now action with
      hfile | ⟨s, d, doc, hfile, hlists, _, hopen, _⟩
    · rw [hfile]
      exact h.file.untouched
    · rw [hfile]
      obtain ⟨p, hitems⟩ := fileState_openItems s doc hlists
      intro x hx
      rw [hitems] at hx
      obtain ⟨e, he, rfl⟩ := List.mem_map.mp hx
      rw [hopen] at he
      have hu := h.file.untouched e (List.mem_of_mem_filter he)
      exact ⟨hu.side, hu.tpOverride, hu.slOverride⟩

theorem bareWorld_life (initialBalanceBtc : ℚ) (ls : List LifeStep) :
    BareWorld cfg sig (afterLife cfg sig initialBalanceBtc ls) := by
  have hrun := Program.runsAs_rel (LifeStep.program cfg sig) (fun _ => True) _
    (Program.traceRel_invariant (BareWorld cfg sig))
    (fun l _ w h => bareWorld_step cfg sig hladder l w h)
    (freshWorld initialBalanceBtc) _ _ ⟨ls, fun _ _ => trivial, rfl⟩
  have hempty : ∀ b, Bare cfg sig (PaperState.init b) := by
    intro b
    refine ⟨fun d hd => ?_, fun d hd => ?_⟩
    · cases hd
    · cases hd
  exact hrun ⟨hempty initialBalanceBtc, hempty 0, ⟨Nat.zero_le _, Nat.zero_le _⟩⟩

/-- Every deal of such a bot is a base order that the entry placed. -/
theorem bare_of_lives (d : PaperDeal) (h : Lives cfg sig d) : BareOrders cfg sig d.orders := by
  obtain ⟨b, ls, hd⟩ := h
  exact (bareWorld_life cfg sig hladder b ls).memory.orders d hd

end LadderReach

end Reverto
