import Mathlib.Tactic
import Reverto.Core.TradingEngine

/-!
# Operations of the engine and their runs (core/trading_engine.py)

The elementary operations a tick is made of. An operation may be run at any
state, so what holds of every run of operations holds of every run of ticks.
-/

namespace Reverto

/-- One operation of the engine with its arguments. -/
inductive EngineOp where
  | setPrice (price : ℚ)
  | trackWicks (price : ℚ)
  | takeProfit (c : Candles) (now : Instant) (price : ℚ) (dealId : String)
  | stopLoss (now : Instant) (price : ℚ) (dealId : String)
  | dca (now : Instant) (price : ℚ) (dealId : String)
  | drawdown (price : ℚ)
  | open (now : Instant) (inp : OpenInput) (price : ℚ) (trigger : Option GroupTrigger)
  | sentinel (now : Instant) (price : ℚ) (s : Sentinel)
  | write (now : Instant) (price : ℚ) (isOpen : Bool)
  | logError (e : PyError)
  | preTick (inp : TickInput)
  | postTick

namespace EngineOp

open TradingEngine

variable (cfg : BotConfig) (sig : Signals)

/-- The method an operation runs. -/
def program : EngineOp → EngineM Unit
  | .setPrice price =>
    Program.modify fun w => { w with engine := { w.engine with currentPrice := price } }
  | .trackWicks price => updateDealWickTrackers price
  | .takeProfit c now price dealId => whileOpen dealId () fun d => checkTp cfg sig c now d price
  | .stopLoss now price dealId => whileOpen dealId () fun d => checkSl cfg now d price
  | .dca now price dealId => whileOpen dealId () fun d => do
    let _ ← checkDca cfg now d price
    pure ()
  | .drawdown price => updateDrawdownGuard cfg price
  | .open now inp price trigger => openDeal cfg now inp price trigger
  | .sentinel now price s => consumeSentinel cfg now price s
  | .write now price isOpen => writeState cfg now price isOpen
  | .logError e => Program.emit (.tickError e)
  | .preTick inp => preTickHook inp
  | .postTick => postTickHook

/-- The operations of one tick after the trackers are updated. -/
inductive During (inp : TickInput) (price : ℚ) : EngineOp → Prop
  | takeProfit (dealId : String) : During inp price (.takeProfit inp.candles inp.now price dealId)
  | stopLoss (dealId : String) : During inp price (.stopLoss inp.now price dealId)
  | dca (dealId : String) : During inp price (.dca inp.now price dealId)
  | drawdown : During inp price (.drawdown price)
  | manualOpen : During inp price (.open inp.now inp.manualOpen price none)
  | entryOpen (trigger : Option GroupTrigger) :
      During inp price (.open inp.now inp.entryOpen price trigger)
  | sentinel (s : Sentinel) : During inp price (.sentinel inp.now price s)
  | write : During inp price (.write inp.now price inp.isOpen)

theorem During.ne_trackWicks (inp : TickInput) (price : ℚ) (op : EngineOp)
    (h : During inp price op) : ∀ p, op ≠ .trackWicks p := by
  intro p hp
  subst hp
  cases h

/-- The operations of one tick after its monitoring loop. -/
inductive Late (inp : TickInput) (price : ℚ) : EngineOp → Prop
  | drawdown : Late inp price (.drawdown price)
  | manualOpen : Late inp price (.open inp.now inp.manualOpen price none)
  | entryOpen (trigger : Option GroupTrigger) :
      Late inp price (.open inp.now inp.entryOpen price trigger)
  | sentinel (s : Sentinel) : Late inp price (.sentinel inp.now price s)
  | write : Late inp price (.write inp.now price inp.isOpen)

theorem Late.during (inp : TickInput) (price : ℚ) (op : EngineOp) (h : Late inp price op) :
    During inp price op := by
  cases h with
  | drawdown => exact .drawdown
  | manualOpen => exact .manualOpen
  | entryOpen trigger => exact .entryOpen trigger
  | sentinel s => exact .sentinel s
  | write => exact .write

/-- What the monitoring loop does about a deal after its take profit. -/
inductive TailOf (inp : TickInput) (price : ℚ) (dealId : String) : EngineOp → Prop
  | stopLoss : TailOf inp price dealId (.stopLoss inp.now price dealId)
  | dca : TailOf inp price dealId (.dca inp.now price dealId)

theorem TailOf.during (inp : TickInput) (price : ℚ) (dealId : String) (op : EngineOp)
    (h : TailOf inp price dealId op) : During inp price op := by
  cases h with
  | stopLoss => exact .stopLoss dealId
  | dca => exact .dca dealId

end EngineOp

namespace TradingEngine

variable (cfg : BotConfig) (sig : Signals)

/-! ### A tick is a run of operations -/

theorem whileOpen_run {α : Type} (dealId : String) (z : α) (f : PaperDeal → EngineM α) (w : World) :
    whileOpen dealId z f w =
      match w.deal? dealId with
      | none => ⟨.ok z, [], w⟩
      | some d => f d w := by
  simp only [whileOpen, Program.get_bind_run]
  cases w.deal? dealId with
  | none => rfl
  | some d => rfl

section Rules

variable {R : World → List EngineEvent → World → Prop} (hR : Program.TraceRel R)
include hR

theorem respects_whileOpen {α : Type} (dealId : String) (z : α) (f : PaperDeal → EngineM α)
    (hf : ∀ w d, w.deal? dealId = some d → R w (f d w).log (f d w).state) :
    Program.Respects R (whileOpen dealId z f) := by
  refine Program.respects_get_bind _ fun w => ?_
  cases h : w.deal? dealId with
  | none => exact hR.nil w
  | some d => exact hf w d h

end Rules

/-- What a tick does once the open deals are monitored. -/
def afterMonitoring (inp : TickInput) (price : ℚ) : EngineM Unit := do
  updateDrawdownGuard cfg price
  checkManualTrigger cfg inp.now inp price
  checkDealSentinels cfg inp.now inp price
  entryStep cfg sig inp price
  writeState cfg inp.now price inp.isOpen

/-- What a tick does once the trackers are updated. -/
def afterTracking (inp : TickInput) (price : ℚ) : EngineM Unit := do
  let w ← Program.get
  monitorDeals cfg sig inp.candles inp.now price 0 (w.engine.state.openDeals.items.map PaperDeal.id)
  afterMonitoring cfg sig inp price

theorem afterTracking_run (inp : TickInput) (price : ℚ) (w : World) :
    afterTracking cfg sig inp price w =
      (monitorDeals cfg sig inp.candles inp.now price 0
          (w.engine.state.openDeals.items.map PaperDeal.id) >>= fun _ =>
        afterMonitoring cfg sig inp price) w := rfl

/-- Runs of the operations a tick performs after tracking. -/
abbrev RunsDuring (inp : TickInput) (price : ℚ) : World → List EngineEvent → World → Prop :=
  Program.RunsAs (EngineOp.program cfg sig) (EngineOp.During inp price)

/-- Stop loss and DCA of one round of the monitoring loop. -/
def monitorTail (inp : TickInput) (price : ℚ) (n : ℕ) (dealId : String) : EngineM ℕ := do
  whileOpen dealId () fun d => checkSl cfg inp.now d price
  whileOpen dealId n fun d =>
    if maxDcaPerTick ≤ n then pure n
    else do
      let placed ← checkDca cfg inp.now d price
      pure (if placed then n + 1 else n)

theorem monitorDeal_eq (inp : TickInput) (price : ℚ) (n : ℕ) (dealId : String) :
    monitorDeal cfg sig inp.candles inp.now price n dealId =
      EngineOp.program cfg sig (.takeProfit inp.candles inp.now price dealId) >>= fun _ =>
        monitorTail cfg inp price n dealId := rfl

theorem monitorTail_runs (inp : TickInput) (price : ℚ) (n : ℕ) (dealId : String) :
    Program.Respects
      (Program.RunsAs (EngineOp.program cfg sig) (EngineOp.TailOf inp price dealId))
      (monitorTail cfg inp price n dealId) := by
  have hR := Program.runsAs_traceRel (EngineOp.program cfg sig)
    (EngineOp.TailOf inp price dealId)
  have hone := fun op h => Program.respects_one (EngineOp.program cfg sig)
    (EngineOp.TailOf inp price dealId) op h
  refine Program.respects_bind hR _ _ (hone _ .stopLoss) fun _ => ?_
  refine respects_whileOpen hR _ _ _ fun w d hd => ?_
  split
  · exact hR.nil w
  · have hdca := hone _ .dca w
    have hrun : EngineOp.program cfg sig (.dca inp.now price dealId) w =
        (checkDca cfg inp.now d price >>= fun _ => pure ()) w := by
      simp only [EngineOp.program, whileOpen_run, hd]
    rw [hrun] at hdca
    have h1 := Program.map_run (checkDca cfg inp.now d price) (fun _ => ()) w
    have h2 := Program.map_run (checkDca cfg inp.now d price)
      (fun placed => if placed then n + 1 else n) w
    rw [h1.1, h1.2] at hdca
    rw [h2.1, h2.2]
    exact hdca

theorem monitorDeal_runs (inp : TickInput) (price : ℚ) (n : ℕ) (dealId : String) :
    Program.Respects (RunsDuring cfg sig inp price)
      (monitorDeal cfg sig inp.candles inp.now price n dealId) := by
  have hR := Program.runsAs_traceRel (EngineOp.program cfg sig) (EngineOp.During inp price)
  have hone := fun op h => Program.respects_one (EngineOp.program cfg sig)
    (EngineOp.During inp price) op h
  rw [monitorDeal_eq]
  refine Program.respects_bind hR _ _ (hone _ (.takeProfit dealId)) fun _ w => ?_
  exact Program.runsAs_mono _ _ _ (EngineOp.TailOf.during inp price dealId) _ _ _
    (monitorTail_runs cfg sig inp price n dealId w)

theorem monitorDeals_runs (inp : TickInput) (price : ℚ) (ids : List String) (n : ℕ) :
    Program.Respects (RunsDuring cfg sig inp price)
      (monitorDeals cfg sig inp.candles inp.now price n ids) := by
  have hR := Program.runsAs_traceRel (EngineOp.program cfg sig) (EngineOp.During inp price)
  induction ids generalizing n with
  | nil => exact Program.respects_pure hR ()
  | cons dealId ids ih =>
    exact Program.respects_bind hR _ _ (monitorDeal_runs cfg sig inp price n dealId) fun m => ih m

section Openings

variable {R : World → List EngineEvent → World → Prop} (hnil : ∀ w, R w [] w) (inp : TickInput)
  (price : ℚ)
include hnil

/-- A manual trigger opens a deal where none is open, or does nothing. -/
theorem respects_checkManualTrigger
    (hopen : ∀ w, w.engine.state.openDeals.items = [] →
      R w (openDeal cfg inp.now inp.manualOpen price none w).log
        (openDeal cfg inp.now inp.manualOpen price none w).state) :
    Program.Respects R (checkManualTrigger cfg inp.now inp price) := by
  refine Program.respects_get_bind _ fun w => ?_
  split
  · rename_i h
    exact hopen w h.2.1
  · exact hnil w

/-- An entry opens a deal on a signal where none is open, or does nothing. -/
theorem respects_entryStep
    (hopen : ∀ w trigger, w.engine.state.openDeals.items = [] →
      inp.candles.closesPerTf cfg.timeframe ≠ [] →
      IndicatorEngine.checkEntrySignal cfg sig inp.candles = (true, trigger) →
      R w (openDeal cfg inp.now inp.entryOpen price trigger w).log
        (openDeal cfg inp.now inp.entryOpen price trigger w).state) :
    Program.Respects R (entryStep cfg sig inp price) := by
  refine Program.respects_get_bind _ fun w => ?_
  split
  · rw [checkEntry, Program.get_bind_run]
    split
    · rename_i h
      cases hsignal : IndicatorEngine.checkEntrySignal cfg sig inp.candles with
      | mk triggered trigger =>
        cases triggered with
        | true => exact hopen w trigger h.1 h.2 hsignal
        | false => exact hnil w
    · exact hnil w
  · exact hnil w

end Openings

/-- Runs of the operations a tick performs after its monitoring loop. -/
abbrev RunsLate (inp : TickInput) (price : ℚ) : World → List EngineEvent → World → Prop :=
  Program.RunsAs (EngineOp.program cfg sig) (EngineOp.Late inp price)

theorem checkManualTrigger_runs (inp : TickInput) (price : ℚ) :
    Program.Respects (RunsLate cfg sig inp price) (checkManualTrigger cfg inp.now inp price) := by
  have hR := Program.runsAs_traceRel (EngineOp.program cfg sig) (EngineOp.Late inp price)
  refine respects_checkManualTrigger cfg hR.nil inp price fun w _ => ?_
  exact Program.respects_one (EngineOp.program cfg sig) _ _ EngineOp.Late.manualOpen w

theorem entryStep_runs (inp : TickInput) (price : ℚ) :
    Program.Respects (RunsLate cfg sig inp price) (entryStep cfg sig inp price) := by
  have hR := Program.runsAs_traceRel (EngineOp.program cfg sig) (EngineOp.Late inp price)
  refine respects_entryStep cfg sig hR.nil inp price fun w trigger _ _ _ => ?_
  have hopen : EngineOp.Late inp price (.open inp.now inp.entryOpen price trigger) :=
    .entryOpen trigger
  exact Program.respects_one (EngineOp.program cfg sig) _ _ hopen w

theorem afterMonitoring_runs (inp : TickInput) (price : ℚ) :
    Program.Respects (RunsLate cfg sig inp price) (afterMonitoring cfg sig inp price) := by
  have hR := Program.runsAs_traceRel (EngineOp.program cfg sig) (EngineOp.Late inp price)
  have hone := fun op h => Program.respects_one (EngineOp.program cfg sig)
    (EngineOp.Late inp price) op h
  refine Program.respects_bind hR _ _ (hone _ .drawdown) fun _ => ?_
  refine Program.respects_bind hR _ _ (checkManualTrigger_runs cfg sig inp price) fun _ => ?_
  refine Program.respects_bind hR _ _ ?_ fun _ => ?_
  · exact Program.respects_forEach hR _ _ fun s _ => hone _ (.sentinel s)
  · exact Program.respects_bind hR _ _ (entryStep_runs cfg sig inp price) fun _ => hone _ .write

theorem afterTracking_runs (inp : TickInput) (price : ℚ) :
    Program.Respects (RunsDuring cfg sig inp price) (afterTracking cfg sig inp price) := by
  have hR := Program.runsAs_traceRel (EngineOp.program cfg sig) (EngineOp.During inp price)
  refine Program.respects_bind hR _ _ (Program.respects_get hR) fun w => ?_
  refine Program.respects_bind hR _ _ (monitorDeals_runs cfg sig inp price _ 0) fun _ v => ?_
  exact Program.runsAs_mono _ _ _ (EngineOp.Late.during inp price) _ _ _
    (afterMonitoring_runs cfg sig inp price v)

/-- The state a tick goes on from once its price is known and tracked. -/
def tracked (price : ℚ) (w : World) : World :=
  World.onState (fun s => { s with openDeals := s.openDeals.mapValues (trackWick price) (trackWick_id price) })
    { w with engine := { w.engine with currentPrice := price } }

/-- What a tick does at a price. -/
theorem tickAt_run (inp : TickInput) (price : ℚ) (w : World) :
    tickAt cfg sig inp price w = afterTracking cfg sig inp price (tracked price w) := by
  have h : tickAt cfg sig inp price =
      Program.modify (fun w => { w with engine := { w.engine with currentPrice := price } }) >>=
        fun _ => updateDealWickTrackers price >>= fun _ => afterTracking cfg sig inp price := by
    simp only [tickAt, afterTracking, afterMonitoring, monitorOpenDeals, Program.bind_assoc]
  rw [h]
  rfl

/-- A relation that composes holds of a tick when it holds of the operations
during the tick, of tracking, of the hooks and of the log of an exception. -/
theorem tick_respects (R : World → List EngineEvent → World → Prop) (hR : Program.TraceRel R)
    (inp : TickInput) (hpre : Program.Respects R (preTickHook inp))
    (htrack : ∀ price w, R w [] (tracked price w))
    (hop : ∀ price op, EngineOp.During inp price op →
      Program.Respects R (EngineOp.program cfg sig op))
    (herr : ∀ e, Program.Respects R (Program.emit (.tickError e) : EngineM Unit))
    (hpost : Program.Respects R postTickHook) : Program.Respects R (tick cfg sig inp) := by
  refine Program.respects_bind hR _ _ hpre fun _ => ?_
  refine Program.respects_bind hR _ _ ?_ fun _ => hpost
  refine Program.respects_handle hR _ _ ?_ herr
  refine Program.respects_bind hR _ _ (Program.respects_lift hR _) fun ticker w => ?_
  rw [tickAt_run]
  have hrun := afterTracking_runs cfg sig inp ticker.tickPrice (tracked ticker.tickPrice w)
  have hafter := Program.runsAs_rel _ _ R hR (hop ticker.tickPrice) _ _ _ hrun
  exact hR.append _ _ _ _ _ (htrack ticker.tickPrice w) hafter

/-- The world the body of a tick starts from. -/
def hooked (inp : TickInput) (w : World) : World := (preTickHook inp w).state

/-- The outcome of the body of a tick whose ticker arrived, without the log of
an exception. -/
def bodyAt (inp : TickInput) (price : ℚ) (w : World) :
    Program.Outcome PyError EngineEvent World Unit :=
  afterTracking cfg sig inp price (tracked price (hooked inp w))

/-- A tick whose ticker arrived. -/
theorem tick_run_ok (inp : TickInput) (t : Ticker) (h : inp.ticker = .ok t) (w : World) :
    (tick cfg sig inp w).log = (bodyAt cfg sig inp t.tickPrice w).log ++
        (match (bodyAt cfg sig inp t.tickPrice w).result with
          | .ok _ => []
          | .error e => [.tickError e]) ∧
      (tick cfg sig inp w).state =
        (postTickHook (bodyAt cfg sig inp t.tickPrice w).state).state := by
  have htick : tick cfg sig inp w =
      (tickBody cfg sig inp >>= fun _ => postTickHook) (hooked inp w) := rfl
  have hat : (Program.lift inp.ticker >>= fun ticker => tickAt cfg sig inp ticker.tickPrice)
      (hooked inp w) = bodyAt cfg sig inp t.tickPrice w := by
    rw [h, Program.lift_ok, Program.pure_bind]
    exact tickAt_run cfg sig inp t.tickPrice (hooked inp w)
  cases hr : (bodyAt cfg sig inp t.tickPrice w).result with
  | ok _ =>
    have hbody : tickBody cfg sig inp (hooked inp w) = bodyAt cfg sig inp t.tickPrice w :=
      (Program.handle_ok _ _ _ () ((congrArg Program.Outcome.result hat).trans hr)).trans hat
    rw [htick, Program.bind_ok _ _ _ () ((congrArg Program.Outcome.result hbody).trans hr), hbody]
    exact ⟨rfl, rfl⟩
  | error e =>
    have hbody : tickBody cfg sig inp (hooked inp w) =
        ⟨.ok (), (bodyAt cfg sig inp t.tickPrice w).log ++ [.tickError e],
          (bodyAt cfg sig inp t.tickPrice w).state⟩ := by
      have hh := Program.handle_error _ (fun e => (Program.emit (.tickError e) : EngineM Unit)) _ e
        ((congrArg Program.Outcome.result hat).trans hr)
      rw [hat] at hh
      exact hh
    rw [htick, Program.bind_ok _ _ _ () (congrArg Program.Outcome.result hbody), hbody]
    exact ⟨List.append_nil _, rfl⟩

/-- A tick whose ticker did not arrive. -/
theorem tick_run_error (inp : TickInput) (e : PyError) (h : inp.ticker = .error e) (w : World) :
    (tick cfg sig inp w).log = [.tickError e] ∧
      (tick cfg sig inp w).state = (postTickHook (hooked inp w)).state := by
  have htick : tick cfg sig inp w =
      (tickBody cfg sig inp >>= fun _ => postTickHook) (hooked inp w) := rfl
  have hbody : tickBody cfg sig inp (hooked inp w) = ⟨.ok (), [.tickError e], hooked inp w⟩ := by
    simp [tickBody, h, Program.handle, Program.bind_run]
  rw [htick, Program.bind_ok _ _ _ () (by rw [hbody]), hbody]
  exact ⟨List.append_nil _, rfl⟩

/-- A tick is a run of operations. -/
theorem tick_runs (inp : TickInput) :
    Program.Respects (Program.RunsAs (EngineOp.program cfg sig) fun _ => True)
      (tick cfg sig inp) := by
  have hR := Program.runsAs_traceRel (EngineOp.program cfg sig) fun _ => True
  have hone := fun op => Program.respects_one (EngineOp.program cfg sig) (fun _ => True) op trivial
  refine tick_respects cfg sig _ hR inp (hone (.preTick inp)) ?_ (fun _ op _ => hone op)
    (fun e => hone (.logError e)) (hone .postTick)
  intro price w
  exact ⟨[.setPrice price, .trackWicks price], by simp, rfl⟩

/-! ### Runs of ticks -/

/-- The world before the `k`-th tick of a run. -/
def worldAt (w : World) (inp : ℕ → TickInput) : ℕ → World
  | 0 => w
  | k + 1 => (tick cfg sig (inp k) (worldAt w inp k)).state

/-- The events of the `k`-th tick of a run. -/
def logAt (w : World) (inp : ℕ → TickInput) (k : ℕ) : List EngineEvent :=
  (tick cfg sig (inp k) (worldAt cfg sig w inp k)).log

/-- A world reached by ticks is reached by operations. -/
theorem worldAt_runs (w : World) (inp : ℕ → TickInput) (k : ℕ) :
    ∃ ops, (Program.runAll (EngineOp.program cfg sig) ops w).2 = worldAt cfg sig w inp k := by
  induction k with
  | zero => exact ⟨[], rfl⟩
  | succ k ih =>
    obtain ⟨ops, hops⟩ := ih
    obtain ⟨more, _, hmore⟩ := tick_runs cfg sig (inp k) (worldAt cfg sig w inp k)
    refine ⟨ops ++ more, ?_⟩
    rw [Program.runAll_append, hops, hmore]
    rfl

end TradingEngine

end Reverto
