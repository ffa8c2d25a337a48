import Mathlib.Tactic
import Reverto.Core.EngineLife
import Reverto.Core.PriceGuard

/-!
# The round of the open deal (core/trading_engine.py)

In every life of a bot at most one deal is open. What a tick does about it by price
is then a function of the deal as the tick tracks it.
-/

namespace Reverto

open TradingEngine PriceGuard

namespace MonitorRounds

variable (cfg : BotConfig) (sig : Signals)

/-! ### One open deal -/

/-- At most one deal is open in memory, and at most one in the file. -/
structure OneOpen (w : World) : Prop where
  memory : w.engine.state.openDeals.items.length ≤ 1
  file : (fileState w.file).openDeals.items.length ≤ 1

theorem length_openDeals (s : PaperState) : s.openDeals.items.length = s.openIds.length := by
  rw [PaperState.openIds, List.length_map]

/-- An operation that opens nothing adds no deal. -/
theorem openIds_op (op : EngineOp) (hopen : ∀ now i p t, op ≠ .open now i p t) (w : World) :
    (op.program cfg sig w).state.engine.state.openIds ⊆ w.engine.state.openIds := by
  intro i hi
  obtain ⟨d', hd', rfl⟩ := List.mem_map.mp hi
  by_cases htrack : ∃ price, op = .trackWicks price
  · obtain ⟨price, rfl⟩ := htrack
    obtain ⟨d, hd, rfl⟩ := List.mem_map.mp hd'
    have hid : d.id ∈ w.engine.state.openIds := List.mem_map_of_mem hd
    exact hid
  rcases continues_op cfg sig op (fun price hp => htrack ⟨price, hp⟩) w d' hd' with
    ⟨d, hd, hstep⟩ | ⟨now, price, t, _, hopened⟩
  · rw [hstep.id_eq]
    exact List.mem_map_of_mem hd
  · obtain ⟨now', inp, t', hop⟩ := loggedBy_op cfg sig op w _ hopened
    exact absurd hop (hopen now' inp price t')

theorem length_op (op : EngineOp) (hopen : ∀ now i p t, op ≠ .open now i p t) (w : World) :
    (op.program cfg sig w).state.engine.state.openDeals.items.length ≤
      w.engine.state.openDeals.items.length := by
  have hsub := List.Nodup.subperm (op.program cfg sig w).state.engine.state.openDeals.nodup
    (openIds_op cfg sig op hopen w)
  rw [length_openDeals, length_openDeals]
  exact hsub.length_le

theorem length_fileState (s : PaperState) (doc : StateDoc) (hlists : Lists s doc) :
    (fileState (some doc)).openDeals.items.length = s.openDeals.items.length := by
  rw [length_openDeals, length_openDeals, fileState_openIds s doc hlists]

theorem oneOpen_op (op : EngineOp) (hopen : ∀ now i p t, op ≠ .open now i p t) (w : World)
    (h : OneOpen w) : OneOpen (op.program cfg sig w).state := by
  have hmemory := (length_op cfg sig op hopen w).trans h.memory
  refine ⟨hmemory, ?_⟩
  refine fileState_op cfg sig (fun s => s.openDeals.items.length ≤ 1) (fun s doc hlists hs => ?_) op w
    hmemory h.file
  rw [length_fileState s doc hlists]
  exact hs

theorem oneOpen_openDeal (now : Instant) (inp : OpenInput) (price : ℚ) (t : Option GroupTrigger)
    (w : World) (hflat : w.engine.state.openDeals.items = []) (h : OneOpen w) :
    OneOpen (openDeal cfg now inp price t w).state := by
  rw [openDeal_run]
  cases createWithRetry inp with
  | none => exact h
  | some i =>
    have hnone : w.engine.state.openDeals.get? (newDeal cfg now i price t).id = none := by
      rw [KeyedDict.get?_eq_none_iff, hflat]
      exact List.not_mem_nil
    have hitems := KeyedDict.set_items_new w.engine.state.openDeals (newDeal cfg now i price t) hnone
    rw [hflat] at hitems
    refine ⟨?_, h.file⟩
    show (w.engine.state.openDeals.set (newDeal cfg now i price t)).items.length ≤ 1
    rw [hitems]
    exact le_refl 1

/-- A close by the portal adds no deal to the file. -/
theorem length_offline (file : Option StateDoc) (i : String) (price : ℚ) (now : Instant)
    (action : CloseAction) :
    (fileState (LifeStep.offlineFile cfg file i price now action)).openDeals.items.length ≤
      (fileState file).openDeals.items.length := by
  rcases LifeStep.offlineFile_cases cfg file i price now action with
    hfile | ⟨s, d, doc, hfile, hlists, _, hopen, _⟩
  · rw [hfile]
  · rw [hfile, length_fileState s doc hlists, hopen]
    exact List.length_filter_le _ _

/-- One step of a life. -/
theorem oneOpen_step (l : LifeStep) :
    Program.Respects (fun w _ w' => OneOpen w → OneOpen w') (l.program cfg sig) := by
  have hR := Program.traceRel_invariant (ω := EngineEvent) OneOpen
  cases l with
  | tick inp =>
    refine tick_respects_body cfg sig _ hR inp ?_ fun t _ => ?_
    · rintro op (⟨e, rfl⟩ | rfl | rfl)
      · exact oneOpen_op cfg sig (.logError e) (by simp)
      · exact oneOpen_op cfg sig (.preTick inp) (by simp)
      · exact oneOpen_op cfg sig .postTick (by simp)
    · refine tickAt_respects cfg sig _ hR inp t.tickPrice ?_ ?_ ?_
      · exact fun op hop => oneOpen_op cfg sig op (hop.not_open inp _ op)
      · exact fun w hflat => oneOpen_openDeal cfg inp.now inp.manualOpen _ none w hflat
      · exact fun w trigger hflat => oneOpen_openDeal cfg inp.now inp.entryOpen _ trigger w hflat
  | stop =>
    intro w h
    refine ⟨h.memory, ?_⟩
    show (fileState (some (StateDoc.markStopped w.file))).openDeals.items.length ≤ 1
    rw [(markStopped_deals w.file).1]
    exact h.file
  | restart b =>
    intro w h
    refine ⟨?_, h.file⟩
    show (bootEngine b w.file).state.openDeals.items.length ≤ 1
    rw [(bootEngine_deals b w.file).1]
    exact h.file
  | closeOffline i price now action =>
    exact fun w h => ⟨h.memory, (length_offline cfg w.file i price now action).trans h.file⟩

/-- The world after a life. -/
abbrev afterLife (initialBalanceBtc : ℚ) (ls : List LifeStep) : World :=
  (Program.runAll (LifeStep.program cfg sig) ls (freshWorld initialBalanceBtc)).2

theorem oneOpen_life (initialBalanceBtc : ℚ) (ls : List LifeStep) :
    OneOpen (afterLife cfg sig initialBalanceBtc ls) := by
  have hrun := Program.runsAs_rel (LifeStep.program cfg sig) (fun _ => True) _
    (Program.traceRel_invariant OneOpen) (fun l _ => oneOpen_step cfg sig l)
    (freshWorld initialBalanceBtc) _ _ ⟨ls, fun _ _ => trivial, rfl⟩
  exact hrun ⟨Nat.zero_le _, Nat.zero_le _⟩

/-! ### The events of a round -/

section Round

variable (c : Candles) (price : ℚ) (d : PaperDeal)

/-- The DCA check of the round. -/
def dcaEvents : List EngineEvent :=
  if dcaVerdict cfg d price = .ok true then [.dcaFilled d.id price] else []

/-- Stop loss and DCA check of the round. -/
def tailEvents : List EngineEvent :=
  match slSettings cfg d with
  | none => dcaEvents cfg price d
  | some s =>
    match slVerdict cfg d price s with
    | .error _ => []
    | .ok true => [.slClosed d.id price]
    | .ok false => dcaEvents cfg price d

/-- What a round that no rung preceded does about the deal by price. -/
def roundEvents : List EngineEvent :=
  match tpVerdict cfg sig c d price with
  | .error _ => []
  | .ok .idle => tailEvents cfg price d
  | .ok .held => .tpHeld d.id :: tailEvents cfg price d
  | .ok (.priceFill f) => [.tpClosed d.id f .priceTp]
  | .ok (.indicatorFill info) => [.tpClosed d.id price (.indicatorTp info.groupName info.indicators)]

end Round

/-- The DCA check of a round in a world that may have moved the peak of the deal. -/
theorem dcaRound_events (now : Instant) (price : ℚ) (d e : PaperDeal) (w : World)
    (h : w.deal? d.id = some e) (ho : e.orders = d.orders) (hs : e.side = d.side)
    (he : e.dcaEnabled = d.dcaEnabled) :
    (dcaRound cfg price now 0 d.id w).log.filter isManagement = dcaEvents cfg price d := by
  have hid : e.id = d.id := (KeyedDict.get?_mem _ _ _ h).2
  have hv := dcaVerdict_congr cfg price d e ho hs he
  have hzero : ¬ maxDcaPerTick ≤ 0 := by simp [maxDcaPerTick]
  have hrun := Program.map_run (checkDca cfg now e price) (fun placed => if placed then 0 + 1 else 0) w
  simp only [dcaRound, whileOpen_run, h, if_neg hzero, hrun.1, checkDca_run, hv, dcaEvents]
  cases dcaVerdict cfg d price with
  | error x => simp
  | ok b =>
    cases b with
    | false => simp
    | true => simp [dcaLog, isManagement, hid]

/-- Stop loss and DCA check of a round. -/
theorem monitorTail_events (inp : TickInput) (price : ℚ) (d : PaperDeal) (w : World)
    (h : w.deal? d.id = some d) :
    (monitorTail cfg inp price 0 d.id w).log.filter isManagement = tailEvents cfg price d := by
  -- the DCA check after a stop loss that logged nothing and left the ladder alone
  have hkeep : ∀ (v : World) (e : PaperDeal),
      slRound cfg price inp.now d.id w = ⟨.ok (), [], v⟩ → v.deal? d.id = some e →
      e.orders = d.orders → e.side = d.side → e.dcaEnabled = d.dcaEnabled →
      (monitorTail cfg inp price 0 d.id w).log.filter isManagement = dcaEvents cfg price d := by
    intro v e hrun he ho hs hd
    rw [monitorTail_eq, Program.bind_ok _ _ _ () (by rw [hrun]), hrun]
    exact dcaRound_events cfg inp.now price d e v he ho hs hd
  unfold tailEvents
  cases hsl : slSettings cfg d with
  | none =>
    have hrun : slRound cfg price inp.now d.id w = ⟨.ok (), [], w⟩ := by
      simp only [slRound, whileOpen_run, h, checkSl_run, hsl]
    exact hkeep w d hrun h rfl rfl rfl
  | some s =>
    obtain ⟨e, he, ho, hs, hd, _⟩ := peaked_spec cfg price d s.1 w h
    have hrun : slRound cfg price inp.now d.id w = checkSl cfg inp.now d price w := by
      simp only [slRound, whileOpen_run, h]
    rw [checkSl_run, hsl] at hrun
    simp only at hrun ⊢
    cases hv : slVerdict cfg d price s with
    | error x =>
      rw [hv] at hrun
      rw [monitorTail_eq, Program.bind_error _ _ _ x (by rw [hrun]), hrun]
      rfl
    | ok hit =>
      rw [hv] at hrun
      cases hit with
      | false => exact hkeep _ e hrun he ho hs hd
      | true =>
        have hgone := afterClose_deal? cfg inp.now d price .sl (slTrigger s.1)
          (peaked cfg d price s.1 w)
        rw [monitorTail_eq, Program.bind_ok _ _ _ () (by rw [hrun]), hrun]
        simp only [dcaRound_closed cfg price inp.now 0 d.id _ hgone, List.append_nil]
        rfl

/-- A round that no rung preceded. -/
theorem monitorDeal_events (inp : TickInput) (price : ℚ) (d : PaperDeal) (w : World)
    (h : w.deal? d.id = some d) :
    (monitorDeal cfg sig inp.candles inp.now price 0 d.id w).log.filter isManagement =
      roundEvents cfg sig inp.candles price d := by
  have htail := monitorTail_events cfg inp price d w h
  have hprog : EngineOp.program cfg sig (.takeProfit inp.candles inp.now price d.id) w =
      checkTp cfg sig inp.candles inp.now d price w := by
    simp only [EngineOp.program, whileOpen_run, h]
  rw [checkTp_run] at hprog
  -- a round whose take profit closed the deal
  have hclose : ∀ f t,
      EngineOp.program cfg sig (.takeProfit inp.candles inp.now price d.id) w =
        ⟨.ok (), closeLog cfg inp.now d f .tp t w ++ [.tpClosed d.id f t],
          afterClose cfg inp.now d f .tp t w⟩ →
      (monitorDeal cfg sig inp.candles inp.now price 0 d.id w).log.filter isManagement =
        [.tpClosed d.id f t] := by
    intro f t hrun
    have hgone := afterClose_deal? cfg inp.now d f .tp t w
    have hsl : slRound cfg price inp.now d.id (afterClose cfg inp.now d f .tp t w) =
        ⟨.ok (), [], afterClose cfg inp.now d f .tp t w⟩ := by
      simp only [slRound, whileOpen_run, hgone]
    have hrest : monitorTail cfg inp price 0 d.id (afterClose cfg inp.now d f .tp t w) =
        ⟨.ok 0, [], afterClose cfg inp.now d f .tp t w⟩ := by
      rw [monitorTail_eq, Program.bind_ok _ _ _ () (by rw [hsl]), hsl,
        dcaRound_closed cfg price inp.now 0 d.id _ hgone]
      rfl
    rw [monitorDeal_eq, Program.bind_ok _ _ _ () (by rw [hrun]), hrun, hrest]
    rfl
  unfold roundEvents
  cases hv : tpVerdict cfg sig inp.candles d price with
  | error x =>
    rw [hv] at hprog
    rw [monitorDeal_eq, Program.bind_error _ _ _ x (by rw [hprog]), hprog]
    rfl
  | ok v =>
    rw [hv] at hprog
    cases v with
    | priceFill f => exact hclose f .priceTp hprog
    | indicatorFill info => exact hclose price _ hprog
    | idle =>
      rw [monitorDeal_eq, Program.bind_ok _ _ _ () (by rw [hprog]), hprog]
      exact htail
    | held =>
      rw [monitorDeal_eq, Program.bind_ok _ _ _ () (by rw [hprog]), hprog]
      exact congrArg (EngineEvent.tpHeld d.id :: ·) htail

/-! ### The events of a tick -/

/-- What a tick does about the open deals by price, when at most one is open. -/
def tickEvents (inp : TickInput) (s : PaperState) : List EngineEvent :=
  match inp.ticker with
  | .error _ => []
  | .ok t => s.openDeals.items.flatMap fun d =>
    roundEvents cfg sig inp.candles t.tickPrice (trackWick t.tickPrice d)

theorem monitorDeals_events (inp : TickInput) (price : ℚ) (ds : List PaperDeal) (w : World)
    (hone : ds.length ≤ 1) (h : ∀ d ∈ ds, w.deal? d.id = some d) :
    (monitorDeals cfg sig inp.candles inp.now price 0 (ds.map PaperDeal.id) w).log.filter
      isManagement = ds.flatMap fun d => roundEvents cfg sig inp.candles price d := by
  match ds with
  | [] => rfl
  | [d] =>
    have hround := monitorDeal_events cfg sig inp price d w (h d (List.mem_singleton_self d))
    rw [List.map_cons, monitorDeals_cons, Program.bind_run]
    cases (monitorDeal cfg sig inp.candles inp.now price 0 d.id w).result with
    | error x => simpa using hround
    | ok n => simpa [monitorDeals] using hround
  | _ :: _ :: _ => simp at hone

theorem tick_events (inp : TickInput) (w : World) (hone : w.engine.state.openDeals.items.length ≤ 1) :
    (tick cfg sig inp w).log.filter isManagement = tickEvents cfg sig inp w.engine.state := by
  unfold tickEvents
  cases ht : inp.ticker with
  | error e =>
    rw [(tick_run_error cfg sig inp e ht w).1]
    rfl
  | ok t =>
    have hitems : (tracked t.tickPrice (hooked inp w)).engine.state.openDeals.items =
        w.engine.state.openDeals.items.map (trackWick t.tickPrice) := by
      show ((hooked inp w).engine.state.openDeals.items.map _) = _
      rw [hooked, (preTickHook_account inp w).1]
    have hloop := monitorDeals_events cfg sig inp t.tickPrice
      (tracked t.tickPrice (hooked inp w)).engine.state.openDeals.items
      (tracked t.tickPrice (hooked inp w)) (by rw [hitems, List.length_map]; exact hone)
      fun d hd => KeyedDict.get?_of_mem _ d hd
    have hquiet : ∀ v, (afterMonitoring cfg sig inp t.tickPrice v).log.filter isManagement = [] := by
      intro v
      refine List.filter_eq_nil_iff.mpr fun e he => ?_
      simp [afterMonitoring_noManagement cfg sig inp t.tickPrice v e he]
    have hbody : (bodyAt cfg sig inp t.tickPrice w).log.filter isManagement =
        w.engine.state.openDeals.items.flatMap fun d =>
          roundEvents cfg sig inp.candles t.tickPrice (trackWick t.tickPrice d) := by
      rw [bodyAt, afterTracking_run, Program.bind_run]
      rw [hitems, List.flatMap_map] at hloop
      rw [hitems]
      split
      · exact hloop
      · rw [List.filter_append, hquiet, List.append_nil]
        exact hloop
    rw [(tick_run_ok cfg sig inp t ht w).1, List.filter_append, hbody]
    cases (bodyAt cfg sig inp t.tickPrice w).result with
    | ok _ => exact List.append_nil _
    | error x => exact List.append_nil _

/-- The events of a tick about a deal, when no other deal is open. -/
theorem mem_tick_iff (inp : TickInput) (w : World) (e : EngineEvent) (he : isManagement e = true)
    (hone : w.engine.state.openDeals.items.length ≤ 1) :
    e ∈ (tick cfg sig inp w).log ↔
      ∃ t, inp.ticker = .ok t ∧ ∃ d ∈ w.engine.state.openDeals.items,
        e ∈ roundEvents cfg sig inp.candles t.tickPrice (trackWick t.tickPrice d) := by
  have hevents := tick_events cfg sig inp w hone
  have hfilter : e ∈ (tick cfg sig inp w).log ↔
      e ∈ (tick cfg sig inp w).log.filter isManagement := by
    rw [List.mem_filter, and_iff_left he]
  rw [hfilter, hevents, tickEvents]
  cases inp.ticker with
  | error x => simp
  | ok t => simp [List.mem_flatMap]

/-- The deal an event names is the open one. -/
theorem eq_of_id (w : World) (d e : PaperDeal) (hd : d ∈ w.engine.state.openDeals.items)
    (he : e ∈ w.engine.state.openDeals.items) (h : d.id = e.id) : d = e := by
  have hget := KeyedDict.get?_of_mem w.engine.state.openDeals d hd
  rw [h, KeyedDict.get?_of_mem w.engine.state.openDeals e he] at hget
  exact (Option.some.inj hget).symm

/-! ### The closes of a round -/

section Closes

variable (c : Candles) (price : ℚ) (d : PaperDeal)

theorem mem_dcaEvents (e : EngineEvent) (h : e ∈ dcaEvents cfg price d) :
    e = .dcaFilled d.id price := by
  unfold dcaEvents at h
  split at h
  · exact List.mem_singleton.mp h
  · cases h

theorem mem_tailEvents_sl (i : String) (f : ℚ) :
    .slClosed i f ∈ tailEvents cfg price d ↔
      i = d.id ∧ f = price ∧ ∃ s, slSettings cfg d = some s ∧ slVerdict cfg d price s = .ok true := by
  unfold tailEvents
  cases slSettings cfg d with
  | none =>
    refine ⟨fun h => ?_, fun ⟨_, _, s, hs, _⟩ => by cases hs⟩
    cases mem_dcaEvents cfg price d _ h
  | some s =>
    simp only
    cases hv : slVerdict cfg d price s with
    | error x =>
      constructor
      · intro h
        cases h
      · rintro ⟨_, _, s', hs, hok⟩
        cases hs
        rw [hv] at hok
        cases hok
    | ok hit =>
      cases hit with
      | true =>
        constructor
        · intro h
          have heq := List.mem_singleton.mp h
          injection heq with hi hf
          exact ⟨hi, hf, s, rfl, hv⟩
        · rintro ⟨rfl, rfl, _⟩
          exact List.mem_singleton_self _
      | false =>
        refine ⟨fun h => ?_, ?_⟩
        · cases mem_dcaEvents cfg price d _ h
        · rintro ⟨_, _, s', hs, hok⟩
          cases hs
          rw [hv] at hok
          cases hok

theorem tailEvents_no_tp (i : String) (f : ℚ) (t : ExitTrigger) :
    .tpClosed i f t ∉ tailEvents cfg price d := by
  intro h
  unfold tailEvents at h
  cases hs : slSettings cfg d with
  | none =>
    simp only [hs] at h
    cases mem_dcaEvents cfg price d _ h
  | some s =>
    simp only [hs] at h
    cases hv : slVerdict cfg d price s with
    | error x => simp [hv] at h
    | ok hit =>
      cases hit with
      | true => simp [hv] at h
      | false =>
        simp only [hv] at h
        cases mem_dcaEvents cfg price d _ h

/-- The stop loss closes the deal of a round that its take profit leaves to it. -/
theorem mem_roundEvents_sl (i : String) (f : ℚ) :
    .slClosed i f ∈ roundEvents cfg sig c price d ↔
      i = d.id ∧ f = price ∧ tpPasses cfg sig c price d = true ∧
        ∃ s, slSettings cfg d = some s ∧ slVerdict cfg d price s = .ok true := by
  have htail := mem_tailEvents_sl cfg price d i f
  unfold roundEvents tpPasses
  cases tpVerdict cfg sig c d price with
  | error x => simp
  | ok v =>
    cases v with
    | priceFill g => simp
    | indicatorFill info => simp
    | idle => simpa using htail
    | held => simpa using htail

/-- The take profit closes the deal at the price it decided on. -/
theorem mem_roundEvents_tp (i : String) (f : ℚ) (t : ExitTrigger) :
    .tpClosed i f t ∈ roundEvents cfg sig c price d ↔
      i = d.id ∧
        ((tpVerdict cfg sig c d price = .ok (.priceFill f) ∧ t = .priceTp) ∨
          ∃ info, tpVerdict cfg sig c d price = .ok (.indicatorFill info) ∧ f = price ∧
            t = .indicatorTp info.groupName info.indicators) := by
  have htail := tailEvents_no_tp cfg price d i f t
  unfold roundEvents
  cases tpVerdict cfg sig c d price with
  | error x => simp
  | ok v =>
    cases v with
    | idle => simpa using htail
    | held => simpa using htail
    | priceFill g =>
      simp only [List.mem_singleton, EngineEvent.tpClosed.injEq, Except.ok.injEq,
        TpVerdict.priceFill.injEq, reduceCtorEq, false_and, exists_false, or_false]
      constructor
      · rintro ⟨rfl, rfl, rfl⟩
        exact ⟨rfl, rfl, rfl⟩
      · rintro ⟨rfl, rfl, rfl⟩
        exact ⟨rfl, rfl, rfl⟩
    | indicatorFill info =>
      simp only [List.mem_singleton, EngineEvent.tpClosed.injEq, Except.ok.injEq,
        reduceCtorEq, false_and, false_or, TpVerdict.indicatorFill.injEq]
      constructor
      · rintro ⟨rfl, rfl, rfl⟩
        exact ⟨rfl, info, rfl, rfl, rfl⟩
      · rintro ⟨rfl, info', rfl, rfl, rfl⟩
        exact ⟨rfl, rfl, rfl⟩

/-- The target of the deal is reached and its gates let the fill pass. -/
def TargetFills (target : ℚ) : Prop :=
  (∃ pct, tpTargetPct cfg d = some pct ∧
    computeTpTargetPrice d.avgEntryPrice pct d.side = .ok target) ∧
  (wickHit cfg d price target = true ∨ reaches d.side price target = true) ∧
  tpGates cfg sig c d price = .ok true

theorem tpVerdict_priceFill_iff (f : ℚ) :
    tpVerdict cfg sig c d price = .ok (.priceFill f) ↔
      ∃ target, TargetFills cfg sig c price d target ∧
        f = if reaches d.side price target then price else target := by
  unfold tpVerdict TargetFills
  cases tpTargetPct cfg d with
  | none => simp
  | some pct =>
    cases htarget : computeTpTargetPrice d.avgEntryPrice pct d.side with
    | error x => simp [htarget, bind, Except.bind]
    | ok target =>
      have hunique : ∀ target', (∃ pct', some pct = some pct' ∧
          computeTpTargetPrice d.avgEntryPrice pct' d.side = .ok target') ↔ target' = target := by
        intro target'
        constructor
        · rintro ⟨pct', hpct, h⟩
          cases hpct
          exact Except.ok.inj (h.symm.trans htarget)
        · rintro rfl
          exact ⟨pct, rfl, htarget⟩
      simp only [hunique, and_assoc, exists_eq_left, bind, Except.bind, pure, Except.pure, htarget]
      by_cases hhit : wickHit cfg d price target = true ∨ reaches d.side price target = true
      · have hor : (wickHit cfg d price target || reaches d.side price target) = true := by
          simpa using hhit
        simp only [hor, if_true, hhit, true_and]
        cases tpGates cfg sig c d price with
        | error x => simp
        | ok passed =>
          cases passed with
          | false => simp
          | true =>
            simp only [if_true, Except.ok.injEq, TpVerdict.priceFill.injEq, true_and]
            exact eq_comm
      · have hor : (wickHit cfg d price target || reaches d.side price target) = false := by
          simpa using hhit
        simp only [hor, hhit, false_and, iff_false, Bool.false_eq_true, if_false]
        cases IndicatorEngine.checkTpIndicatorGroups cfg sig c with
        | none => simp
        | some info => simp

end Closes

/-! ### The closes of a tick -/

section Tick

variable (inp : TickInput) (w : World) (hone : w.engine.state.openDeals.items.length ≤ 1)
  (d : PaperDeal) (hd : d ∈ w.engine.state.openDeals.items)
include hone hd

theorem mem_tick_round (e : EngineEvent) (he : isManagement e = true)
    (hid : ∀ t x, e ∈ roundEvents cfg sig inp.candles t x → x.id = d.id) :
    e ∈ (tick cfg sig inp w).log ↔
      ∃ t, inp.ticker = .ok t ∧
        e ∈ roundEvents cfg sig inp.candles t.tickPrice (trackWick t.tickPrice d) := by
  rw [mem_tick_iff cfg sig inp w e he hone]
  constructor
  · rintro ⟨t, ht, x, hx, hround⟩
    have hxid := hid t.tickPrice (trackWick t.tickPrice x) hround
    rw [trackWick_id] at hxid
    obtain rfl := eq_of_id w x d hx hd hxid
    exact ⟨t, ht, hround⟩
  · rintro ⟨t, ht, hround⟩
    exact ⟨t, ht, d, hd, hround⟩

/-- When a tick closes the open deal by its stop loss. -/
theorem tick_slClosed_iff (f : ℚ) :
    .slClosed d.id f ∈ (tick cfg sig inp w).log ↔
      ∃ t, inp.ticker = .ok t ∧ f = t.tickPrice ∧
        tpPasses cfg sig inp.candles t.tickPrice (trackWick t.tickPrice d) = true ∧
        ∃ s, slSettings cfg (trackWick t.tickPrice d) = some s ∧
          slVerdict cfg (trackWick t.tickPrice d) t.tickPrice s = .ok true := by
  rw [mem_tick_round cfg sig inp w hone d hd (.slClosed d.id f) rfl fun t x hx =>
    ((mem_roundEvents_sl cfg sig _ _ _ _ _).mp hx).1.symm]
  refine exists_congr fun t => and_congr_right fun _ => ?_
  rw [mem_roundEvents_sl]
  exact and_iff_right (trackWick_id t.tickPrice d).symm

/-- When a tick closes the open deal by its take profit. -/
theorem tick_tpClosed_iff (f : ℚ) (trigger : ExitTrigger) :
    .tpClosed d.id f trigger ∈ (tick cfg sig inp w).log ↔
      ∃ t, inp.ticker = .ok t ∧
        ((tpVerdict cfg sig inp.candles (trackWick t.tickPrice d) t.tickPrice =
              .ok (.priceFill f) ∧ trigger = .priceTp) ∨
          ∃ info, tpVerdict cfg sig inp.candles (trackWick t.tickPrice d) t.tickPrice =
              .ok (.indicatorFill info) ∧ f = t.tickPrice ∧
            trigger = .indicatorTp info.groupName info.indicators) := by
  rw [mem_tick_round cfg sig inp w hone d hd (.tpClosed d.id f trigger) rfl fun t x hx =>
    ((mem_roundEvents_tp cfg sig _ _ _ _ _ _).mp hx).1.symm]
  refine exists_congr fun t => and_congr_right fun _ => ?_
  rw [mem_roundEvents_tp]
  exact and_iff_right (trackWick_id t.tickPrice d).symm

end Tick

end MonitorRounds

end Reverto
