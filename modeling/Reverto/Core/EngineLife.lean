import Mathlib.Tactic
import Reverto.Core.LedgerReplay

/-!
# The life of a bot (core/trading_engine.py, web/routes/deals.py)

Ticks, stops, restarts and closes by the portal, in any order. A restart builds
the engine from the state file. A deal is opened only where no deal is open, which
the rule for ticks in this module keeps.
-/

namespace Reverto

open TradingEngine

/-! ### Ticks and their openings -/

namespace EngineOp

/-- The checks of the monitoring loop. -/
inductive Monitors (inp : TickInput) (price : ℚ) : EngineOp → Prop
  | takeProfit (dealId : String) : Monitors inp price (.takeProfit inp.candles inp.now price dealId)
  | stopLoss (dealId : String) : Monitors inp price (.stopLoss inp.now price dealId)
  | dca (dealId : String) : Monitors inp price (.dca inp.now price dealId)

/-- The operations of a tick that open no deal. -/
inductive Manages (inp : TickInput) (price : ℚ) : EngineOp → Prop
  | monitors (op : EngineOp) (h : Monitors inp price op) : Manages inp price op
  | drawdown : Manages inp price (.drawdown price)
  | sentinel (s : Sentinel) : Manages inp price (.sentinel inp.now price s)
  | write : Manages inp price (.write inp.now price inp.isOpen)
  | setPrice : Manages inp price (.setPrice price)
  | trackWicks : Manages inp price (.trackWicks price)
  | preTick : Manages inp price (.preTick inp)
  | postTick : Manages inp price .postTick
  | logError (e : PyError) : Manages inp price (.logError e)

theorem Manages.not_open (inp : TickInput) (price : ℚ) (op : EngineOp) (h : Manages inp price op) :
    ∀ now i p t, op ≠ .open now i p t := by
  rintro now i p t rfl
  cases h with
  | monitors _ h => cases h

end EngineOp

namespace TradingEngine

variable (cfg : BotConfig) (sig : Signals)

section Rules

variable (R : World → List EngineEvent → World → Prop) (hR : Program.TraceRel R) (inp : TickInput)
include hR

theorem monitorDeals_respects_ops (price : ℚ)
    (hop : ∀ op, EngineOp.Monitors inp price op → Program.Respects R (op.program cfg sig))
    (ids : List String) (n : ℕ) :
    Program.Respects R (monitorDeals cfg sig inp.candles inp.now price n ids) := by
  refine monitorDeals_respects cfg sig R hR inp price (fun i => hop _ (.takeProfit i)) ?_ ids n
  intro i op h
  cases h with
  | stopLoss => exact hop _ (.stopLoss i)
  | dca => exact hop _ (.dca i)

/-- The body of a tick, given what its operations and its openings do; the latter
start where no deal is open. -/
theorem tickAt_respects (price : ℚ)
    (hop : ∀ op, EngineOp.Manages inp price op → Program.Respects R (op.program cfg sig))
    (hmanual : ∀ w, w.engine.state.openDeals.items = [] →
      R w (openDeal cfg inp.now inp.manualOpen price none w).log
        (openDeal cfg inp.now inp.manualOpen price none w).state)
    (hentry : ∀ w trigger, w.engine.state.openDeals.items = [] →
      R w (openDeal cfg inp.now inp.entryOpen price trigger w).log
        (openDeal cfg inp.now inp.entryOpen price trigger w).state) :
    Program.Respects R (tickAt cfg sig inp price) := by
  refine Program.respects_bind hR _ _ (hop _ .setPrice) fun _ => ?_
  refine Program.respects_bind hR _ _ ?_ fun _ => ?_
  · refine Program.respects_bind hR _ _ (hop _ .trackWicks) fun _ => ?_
    refine Program.respects_bind hR _ _ (Program.respects_get hR) fun w => ?_
    exact monitorDeals_respects_ops cfg sig R hR inp price (fun op h => hop op (.monitors op h)) _ 0
  refine Program.respects_bind hR _ _ (hop _ .drawdown) fun _ => ?_
  refine Program.respects_bind hR _ _ ?_ fun _ => ?_
  · exact respects_checkManualTrigger cfg hR.nil inp price hmanual
  refine Program.respects_bind hR _ _ ?_ fun _ => ?_
  · exact Program.respects_forEach hR _ _ fun s _ => hop _ (.sentinel s)
  refine Program.respects_bind hR _ _ ?_ fun _ => hop _ .write
  exact respects_entryStep cfg sig hR.nil inp price fun w trigger hflat _ _ => hentry w trigger hflat

/-- A tick does something to the deals only where its ticker arrived. -/
theorem tick_respects_body
    (hhooks : ∀ op, (∃ e, op = .logError e) ∨ op = .preTick inp ∨ op = .postTick →
      Program.Respects R (EngineOp.program cfg sig op))
    (hbody : ∀ t, inp.ticker = .ok t → Program.Respects R (tickAt cfg sig inp t.tickPrice)) :
    Program.Respects R (tick cfg sig inp) := by
  refine Program.respects_bind hR _ _ (hhooks (.preTick inp) (by simp)) fun _ => ?_
  refine Program.respects_bind hR _ _ ?_ fun _ => hhooks .postTick (by simp)
  refine Program.respects_handle hR _ _ ?_ fun e => hhooks (.logError e) (by simp)
  cases ht : inp.ticker with
  | error e => exact fun w => hR.nil w
  | ok t => exact hbody t ht

end Rules

/-- What holds of the account after an operation, and survives a reload, holds of
the file it leaves. -/
theorem fileState_op (P : PaperState → Prop)
    (hreload : ∀ s doc, Lists s doc → P s → P (fileState (some doc))) (op : EngineOp) (w : World)
    (hmemory : P (op.program cfg sig w).state.engine.state) (hfile : P (fileState w.file)) :
    P (fileState (op.program cfg sig w).state.file) := by
  cases hsave : savesFile w op with
  | false =>
    rw [file_kept cfg sig op w hsave]
    exact hfile
  | true =>
    obtain ⟨doc, hdoc, hlists⟩ := lists_op cfg sig op w hsave
    rw [hdoc]
    exact hreload _ doc hlists hmemory

end TradingEngine

/-! ### Steps of a life -/

/-- What happens to a bot. -/
inductive LifeStep where
  | tick (inp : TickInput)
  | stop
  | restart (initialBalanceBtc : ℚ)
  | closeOffline (dealId : String) (price : ℚ) (now : Instant) (action : CloseAction)

/-- A tick at a price in an open schedule, whose entry may open a deal. -/
def TickInput.atPrice (price : ℚ) : TickInput :=
  { ticker := .ok ⟨price, price, price, none⟩
    isOpen := true
    candles := ⟨fun _ => [100], fun _ => none, fun _ => none⟩
    manualTrigger := false
    manualOpen := .accepted "202501010000-0001"
    sentinels := []
    entryOpen := .accepted "202501010000-0001"
    clockOk := true
    now := 0 }

namespace LifeStep

variable (cfg : BotConfig) (sig : Signals)

/-- `_close_deal_offline` on the state file. -/
def offlineFile (file : Option StateDoc) (dealId : String) (price : ℚ) (now : Instant)
    (action : CloseAction) : Option StateDoc :=
  let state := loadPaperStateFromFile file
  match DealCloseHandler.accept state dealId price with
  | .error _ => file
  | .ok deal =>
    some (DealCloseHandler.persistState cfg.name
      (DealCloseHandler.actState cfg.dca.takerFee state deal price now action) file)

/-- A close by the portal leaves the file alone, or moves one of its open deals to its history. -/
theorem offlineFile_cases (file : Option StateDoc) (i : String) (price : ℚ) (now : Instant)
    (action : CloseAction) :
    offlineFile cfg file i price now action = file ∨
      ∃ s d doc, offlineFile cfg file i price now action = some doc ∧ Lists s doc ∧
        (fileState file).openDeals.get? d.id = some d ∧
        s.openDeals = (fileState file).openDeals.pop d.id ∧
        s.closedDeals = (fileState file).closedDeals ++
          [DealCloseHandler.closedDeal d price now action] := by
  obtain ⟨hopen, hclosed⟩ := loadPaperStateFromFile_deals file
  cases hacc : DealCloseHandler.accept (loadPaperStateFromFile file) i price with
  | error e =>
    left
    simp only [offlineFile, hacc]
  | ok d =>
    right
    obtain ⟨hd, rfl, _⟩ := DealCloseHandler.accept_ok _ _ _ _ hacc
    have hstate := DealCloseHandler.actState_eq cfg.dca.takerFee _ d price now action hd
    refine ⟨_, d, _, by simp only [offlineFile, hacc]; rfl, lists_persistState cfg.name _ file, ?_,
      ?_, ?_⟩
    · rw [← hopen]
      exact hd
    · rw [hstate, ← hopen]
    · rw [hstate, ← hclosed]

/-- What a step does. -/
def program : LifeStep → EngineM Unit
  | .tick inp => TradingEngine.tick cfg sig inp
  | .stop => Program.modify fun w => { w with file := some (StateDoc.markStopped w.file) }
  | .restart initialBalanceBtc =>
    Program.modify fun w => { w with engine := bootEngine initialBalanceBtc w.file }
  | .closeOffline dealId price now action =>
    Program.modify fun w => { w with file := offlineFile cfg w.file dealId price now action }

/-- The ticks of the step have a positive price. -/
def PricePos : LifeStep → Prop
  | .tick inp => ∀ t, inp.ticker = .ok t → 0 < t.tickPrice
  | _ => True

/-- The ids the step may draw. -/
def ids : LifeStep → List String
  | .tick inp => inp.manualOpen.ids ++ inp.entryOpen.ids
  | _ => []

/-- The `k`-th tick of a life whose ids count on, at a price and in an open schedule. -/
def tickAt (k : ℕ) (price : ℚ) : LifeStep :=
  .tick
    { ticker := .ok ⟨price, price, price, none⟩
      isOpen := true
      candles := ⟨fun _ => [100], fun _ => none, fun _ => none⟩
      manualTrigger := false
      manualOpen := ⟨fun j => toString (6 * k + j), fun _ => .ok⟩
      sentinels := []
      entryOpen := ⟨fun j => toString (6 * k + 3 + j), fun _ => .ok⟩
      clockOk := true
      now := 0 }

theorem pricePos_tickAt (k : ℕ) (price : ℚ) (h : 0 < price) : (tickAt k price).PricePos := by
  intro t ht
  cases ht
  exact h

end LifeStep

end Reverto
