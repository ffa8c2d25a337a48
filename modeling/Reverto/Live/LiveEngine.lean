import Mathlib.Tactic
import Reverto.Core.PriceGuard
import Reverto.Core.WickTakeProfit

/-!
# Pauses of the live engine (live/live_engine.py, core/trading_engine.py)

A live engine pauses by drawdown until it is reset and by clock skew for one
tick. The pause is one flag. The automatic entry reads it; the manual trigger
and the DCA check do not.
-/

namespace Reverto

namespace LiveEngine

open TradingEngine PriceGuard

variable (cfg : BotConfig) (sig : Signals)

/-! ### The DCA fills of the monitoring loop -/

/-- The fill of a rung. -/
def isDcaFill : EngineEvent → Bool
  | .dcaFilled _ _ => true
  | _ => false

/-- The loop over the deals reaches a DCA check whose rung is hit. -/
def ladderFills (c : Candles) (price : ℚ) : List PaperDeal → Bool
  | [] => false
  | d :: ds =>
    match roundEnd cfg sig c price 0 d with
    | .aborts => false
    | .fills => true
    | .closes _ => ladderFills c price ds
    | .rests => ladderFills c price ds

/-- A round with `n` rungs filled before logs a fill exactly when it counts one. -/
def CountsFill (n : ℕ) (o : Program.Outcome PyError EngineEvent World ℕ) : Prop :=
  (∃ e ∈ o.log, isDcaFill e = true) ↔ o.result = .ok (n + 1)

theorem countsFill_none (n : ℕ) (r : Except PyError ℕ) (w : World) (h : r ≠ .ok (n + 1)) :
    CountsFill n ⟨r, [], w⟩ := by
  constructor
  · intro hf
    obtain ⟨e, he, _⟩ := hf
    cases he
  · intro hr
    exact absurd hr h

theorem countsFill_bind (n : ℕ) (m : EngineM Unit) (f : Unit → EngineM ℕ) (w : World)
    (hm : ∀ e ∈ (m w).log, isDcaFill e = false) (hf : ∀ v, CountsFill n (f () v)) :
    CountsFill n ((m >>= f) w) := by
  cases hr : (m w).result with
  | error x =>
    rw [Program.bind_error m f w x hr]
    constructor
    · intro h
      obtain ⟨e, he, htrue⟩ := h
      rw [hm e he] at htrue
      cases htrue
    · intro h
      cases h
  | ok u =>
    rw [Program.bind_ok m f w u hr]
    have hrest := hf (m w).state
    constructor
    · intro h
      obtain ⟨e, he, htrue⟩ := h
      rcases List.mem_append.mp he with he | he
      · rw [hm e he] at htrue
        cases htrue
      · exact hrest.mp ⟨e, he, htrue⟩
    · intro h
      obtain ⟨e, he, htrue⟩ := hrest.mpr h
      exact ⟨e, List.mem_append_right _ he, htrue⟩

theorem noDca_op (op : EngineOp) (hop : ∀ now price i, op ≠ .dca now price i) (w : World) :
    ∀ e ∈ (op.program cfg sig w).log, isDcaFill e = false := by
  intro e he
  have hlogged := loggedBy_op cfg sig op w e he
  cases e with
  | dcaFilled i price =>
    obtain ⟨now, h⟩ := hlogged
    exact absurd h (hop now price i)
  | _ => rfl

theorem dcaRound_countsFill (now : Instant) (price : ℚ) (n : ℕ) (i : String) (w : World) :
    CountsFill n (dcaRound cfg price now n i w) := by
  have hn : (.ok n : Except PyError ℕ) ≠ .ok (n + 1) := by simp
  simp only [dcaRound, whileOpen_run]
  cases w.deal? i with
  | none => exact countsFill_none n _ w hn
  | some d =>
    simp only
    split
    · exact countsFill_none n _ w hn
    · have hrun := checkDca_run cfg now d price w
      cases hd : dcaVerdict cfg d price with
      | error x =>
        rw [hd] at hrun
        rw [Program.bind_error _ _ _ x (by rw [hrun]), hrun]
        exact countsFill_none n _ w (by simp)
      | ok b =>
        rw [hd] at hrun
        cases b with
        | false =>
          rw [Program.bind_ok _ _ _ false (by rw [hrun]), hrun]
          exact countsFill_none n _ w hn
        | true =>
          rw [Program.bind_ok _ _ _ true (by rw [hrun]), hrun]
          exact ⟨fun _ => rfl, fun _ => ⟨.dcaFilled d.id price, by simp [dcaLog], rfl⟩⟩

theorem monitorDeal_countsFill (inp : TickInput) (price : ℚ) (n : ℕ) (i : String) (w : World) :
    CountsFill n (monitorDeal cfg sig inp.candles inp.now price n i w) := by
  rw [monitorDeal_eq]
  have htp := noDca_op cfg sig (.takeProfit inp.candles inp.now price i) (fun _ _ _ h => by cases h) w
  refine countsFill_bind n _ _ w htp fun v => ?_
  rw [monitorTail_eq]
  have hsl := noDca_op cfg sig (.stopLoss inp.now price i) (fun _ _ _ h => by cases h) v
  refine countsFill_bind n _ _ v hsl fun u => ?_
  exact dcaRound_countsFill cfg inp.now price n i u

/-- The loop fills a rung exactly when the deals it meets lead it to one. -/
theorem monitorDeals_fills_iff (inp : TickInput) (price : ℚ) (ds : List PaperDeal) (w : World)
    (h : Meets w ds) :
    (∃ e ∈ (monitorDeals cfg sig inp.candles inp.now price 0 (ds.map PaperDeal.id) w).log,
      isDcaFill e = true) ↔ ladderFills cfg sig inp.candles price ds = true := by
  induction ds generalizing w with
  | nil =>
    constructor
    · intro hf
      obtain ⟨e, he, _⟩ := hf
      cases he
    · intro hf
      cases hf
  | cons d ds ih =>
    have hspec := monitorDeal_spec cfg sig price inp 0 d w (h.2 d List.mem_cons_self)
    have hcount := monitorDeal_countsFill cfg sig inp price 0 d.id w
    have hrest := ih _ (meets_tail cfg sig price inp 0 d ds w h)
    -- a round that goes on without a fill leaves the question to the rest
    have hpass : (monitorDeal cfg sig inp.candles inp.now price 0 d.id w).result = .ok 0 →
        ((∃ e ∈ (monitorDeals cfg sig inp.candles inp.now price 0
          ((d :: ds).map PaperDeal.id) w).log, isDcaFill e = true) ↔
          ladderFills cfg sig inp.candles price ds = true) := by
      intro hx
      rw [List.map_cons, monitorDeals_cons, Program.bind_ok _ _ _ 0 hx, ← hrest]
      constructor
      · intro hf
        obtain ⟨e, he, htrue⟩ := hf
        rcases List.mem_append.mp he with he | he
        · have hone := hcount.mp ⟨e, he, htrue⟩
          rw [hx] at hone
          simp at hone
        · exact ⟨e, he, htrue⟩
      · intro hf
        obtain ⟨e, he, htrue⟩ := hf
        exact ⟨e, List.mem_append_right _ he, htrue⟩
    rw [ladderFills]
    cases hend : roundEnd cfg sig inp.candles price 0 d with
    | aborts =>
      rw [hend] at hspec
      obtain ⟨⟨x, hx⟩, _⟩ := hspec
      rw [List.map_cons, monitorDeals_cons, Program.bind_error _ _ _ x hx]
      constructor
      · intro hf
        have hone := hcount.mp hf
        rw [hx] at hone
        cases hone
      · intro hf
        cases hf
    | closes f =>
      rw [hend] at hspec
      exact hpass hspec.1
    | rests =>
      rw [hend] at hspec
      exact hpass hspec.1
    | fills =>
      rw [hend] at hspec
      obtain ⟨e, he, htrue⟩ := hcount.mpr hspec.1
      rw [List.map_cons, monitorDeals_cons, Program.bind_ok _ _ _ 1 hspec.1]
      exact ⟨fun _ => rfl, fun _ => ⟨e, List.mem_append_left _ he, htrue⟩⟩

/-! ### Openings while paused -/

/-- The monitoring loop of a tick. -/
def loopAt (inp : TickInput) (price : ℚ) (w : World) :
    Program.Outcome PyError EngineEvent World Unit :=
  monitorDeals cfg sig inp.candles inp.now price 0
    ((tracked price (hooked inp w)).engine.state.openDeals.items.map PaperDeal.id)
    (tracked price (hooked inp w))

/-- The world as the manual trigger finds it: after the loop and the drawdown guard. -/
def atTrigger (inp : TickInput) (price : ℚ) (w : World) : World :=
  { (loopAt cfg sig inp price w).state with
    engine := drawdownStep cfg price (loopAt cfg sig inp price w).state.engine }

/-- Trading is paused, by drawdown or by clock skew. -/
def paused (e : EngineState) : Bool := e.pausedByDrawdown || e.pausedByClockSkew

/-- What a tick does once the drawdown guard is updated. -/
def fromTrigger (inp : TickInput) (price : ℚ) : EngineM Unit := do
  checkManualTrigger cfg inp.now inp price
  checkDealSentinels cfg inp.now inp price
  entryStep cfg sig inp price
  writeState cfg inp.now price inp.isOpen

theorem bodyAt_run (inp : TickInput) (price : ℚ) (w : World) :
    bodyAt cfg sig inp price w =
      match (loopAt cfg sig inp price w).result with
      | .error x =>
        ⟨.error x, (loopAt cfg sig inp price w).log, (loopAt cfg sig inp price w).state⟩
      | .ok _ =>
        ⟨(fromTrigger cfg sig inp price (atTrigger cfg sig inp price w)).result,
          (loopAt cfg sig inp price w).log ++
            (fromTrigger cfg sig inp price (atTrigger cfg sig inp price w)).log,
          (fromTrigger cfg sig inp price (atTrigger cfg sig inp price w)).state⟩ := by
  have hafter : ∀ v, afterMonitoring cfg sig inp price v =
      fromTrigger cfg sig inp price { v with engine := drawdownStep cfg price v.engine } :=
    fun _ => rfl
  obtain ⟨loop, hloop⟩ : ∃ loop, loop = monitorDeals cfg sig inp.candles inp.now price 0
      ((tracked price (hooked inp w)).engine.state.openDeals.items.map PaperDeal.id) := ⟨_, rfl⟩
  have hat : loopAt cfg sig inp price w = loop (tracked price (hooked inp w)) := by
    rw [hloop, loopAt]
  rw [bodyAt, afterTracking_run, atTrigger, hat, ← hloop]
  cases hr : (loop (tracked price (hooked inp w))).result with
  | error x => rw [Program.bind_error loop _ _ x hr]
  | ok u => rw [Program.bind_ok loop _ _ u hr, hafter]

/-- A round of the monitoring loop leaves the flags alone. -/
theorem loopAt_accountOnly (inp : TickInput) (price : ℚ) (w : World) :
    AccountOnly (hooked inp w) (loopAt cfg sig inp price w).state := by
  have htracked : AccountOnly (hooked inp w) (tracked price (hooked inp w)) := ⟨_, _, _, rfl⟩
  refine accountOnly_trans _ _ _ htracked ?_
  refine monitorDeals_respects cfg sig _ accountOnly_traceRel inp price ?_ ?_ _ 0 _
  · intro i v
    exact accountOnly_op cfg sig _ (fun _ h => by cases h) (fun _ h => by cases h)
      (fun h => by cases h) v
  · intro i op hop v
    cases hop with
    | stopLoss =>
      exact accountOnly_op cfg sig _ (fun _ h => by cases h) (fun _ h => by cases h)
        (fun h => by cases h) v
    | dca =>
      exact accountOnly_op cfg sig _ (fun _ h => by cases h) (fun _ h => by cases h)
        (fun h => by cases h) v

/-- What follows the guard in a tick leaves the flags alone. -/
theorem fromTrigger_accountOnly (inp : TickInput) (price : ℚ) (w : World) :
    AccountOnly w (fromTrigger cfg sig inp price w).state := by
  have hR := accountOnly_traceRel
  have hone : ∀ op : EngineOp, (∀ p, op ≠ .drawdown p) → (∀ i, op ≠ .preTick i) → op ≠ .postTick →
      Program.Respects (fun w (_ : List EngineEvent) w' => AccountOnly w w') (op.program cfg sig) :=
    fun op h h' h'' v => accountOnly_op cfg sig op h h' h'' v
  have hopen : ∀ (i : OpenInput) (t : Option GroupTrigger),
      Program.Respects (fun w (_ : List EngineEvent) w' => AccountOnly w w')
        (openDeal cfg inp.now i price t) :=
    fun i t => hone (.open inp.now i price t) (fun _ h => by cases h) (fun _ h => by cases h)
      (fun h => by cases h)
  refine Program.respects_bind hR _ _ ?_ (fun _ => ?_) w
  · exact respects_checkManualTrigger cfg hR.nil inp price fun v _ => hopen _ _ v
  refine Program.respects_bind hR _ _ ?_ fun _ => ?_
  · exact Program.respects_forEach hR _ _ fun s _ => hone (.sentinel inp.now price s)
      (fun _ h => by cases h) (fun _ h => by cases h) (fun h => by cases h)
  refine Program.respects_bind hR _ _ ?_ fun _ => ?_
  · exact respects_entryStep cfg sig hR.nil inp price fun v t _ _ _ => hopen _ t v
  exact hone (.write inp.now price inp.isOpen) (fun _ h => by cases h) (fun _ h => by cases h)
    (fun h => by cases h)

theorem drawdownStep_flags (price : ℚ) (e : EngineState) :
    (drawdownStep cfg price e).pausedByClockSkew = e.pausedByClockSkew ∧
      (e.pausedByDrawdown = true → (drawdownStep cfg price e).pausedByDrawdown = true) := by
  unfold drawdownStep
  split
  · exact ⟨rfl, id⟩
  · dsimp only
    split
    · exact ⟨rfl, id⟩
    · exact ⟨rfl, fun _ => rfl⟩

/-- With a wrong clock the pre-tick hook has raised the drawdown flag too. -/
theorem hooked_flags (inp : TickInput) (w : World) :
    (hooked inp w).engine.pausedByClockSkew = !inp.clockOk ∧
      (inp.clockOk = false → (hooked inp w).engine.pausedByDrawdown = true) := by
  simp only [hooked, preTickHook, Program.modify_run]
  cases inp.clockOk with
  | true => simp
  | false => simp

theorem atTrigger_paused (inp : TickInput) (price : ℚ) (w : World)
    (h : paused (atTrigger cfg sig inp price w).engine = true) :
    (atTrigger cfg sig inp price w).engine.pausedByDrawdown = true := by
  obtain ⟨s, fees, p, hloop⟩ := loopAt_accountOnly cfg sig inp price w
  obtain ⟨hskew, hstays⟩ := drawdownStep_flags cfg price (loopAt cfg sig inp price w).state.engine
  obtain ⟨hclock, hraised⟩ := hooked_flags inp w
  simp only [paused, Bool.or_eq_true] at h
  rcases h with h | h
  · exact h
  · -- a skewed tick
    have hwrong : inp.clockOk = false := by
      have hs : (atTrigger cfg sig inp price w).engine.pausedByClockSkew = !inp.clockOk := by
        rw [← hclock, atTrigger, hskew, hloop]
      rw [hs] at h
      simpa using h
    refine hstays ?_
    rw [hloop]
    exact hraised hwrong

theorem checkManualTrigger_entry (inp : TickInput) (price : ℚ) (v : World)
    (h : manualOpens cfg price inp v.engine.state = true) :
    ∃ e ∈ (checkManualTrigger cfg inp.now inp price v).log, isEntry e = true := by
  have hrun : checkManualTrigger cfg inp.now inp price v =
      (if inp.manualTrigger = true ∧ v.engine.state.openDeals.items = [] ∧
        manualTriggerLiqSafe cfg price = true then openDeal cfg inp.now inp.manualOpen price none
      else pure ()) v := rfl
  simp only [manualOpens, Bool.and_eq_true, decide_eq_true_eq] at h
  obtain ⟨i, hi⟩ := Option.isSome_iff_exists.mp h.2
  rw [hrun, if_pos ⟨h.1.1.1, h.1.1.2, h.1.2⟩, openDeal_run, hi]
  exact ⟨.opened i price, by simp [openLog], rfl⟩

/-- While paused only the manual trigger opens a deal. -/
theorem fromTrigger_entry_iff (inp : TickInput) (price : ℚ) (v : World)
    (h : v.engine.pausedByDrawdown = true) :
    (∀ e ∈ (fromTrigger cfg sig inp price v).log, isEntry e = false) ↔
      manualOpens cfg price inp v.engine.state = false := by
  cases hm : manualOpens cfg price inp v.engine.state with
  | true =>
    obtain ⟨e, he, hentry⟩ := checkManualTrigger_entry cfg inp price v hm
    have hreturns : ∃ u, (checkManualTrigger cfg inp.now inp price v).result = .ok u := by
      have hret : Program.Returns (checkManualTrigger cfg inp.now inp price) := by
        refine Program.returns_get_bind _ fun w =>
          Program.returns_ite _ _ _ ?_ (Program.returns_pure ())
        exact openDeal_returns cfg inp.now inp.manualOpen price none
      exact hret v
    obtain ⟨u, hu⟩ := hreturns
    constructor
    · intro hall
      have hmem : e ∈ (fromTrigger cfg sig inp price v).log := by
        rw [fromTrigger, Program.bind_ok _ _ v u hu]
        exact List.mem_append_left _ he
      rw [hall e hmem] at hentry
      cases hentry
    · intro hf
      cases hf
  | false =>
    have hmanual := (checkManualTrigger_spec cfg price inp v).2 hm
    -- the sentinels open nothing and leave the flag up
    have hR := Program.traceRel_and accountOnly_traceRel
      (Program.traceRel_forall (σ := World) fun e => isEntry e = false)
    have hsentinels := Program.respects_forEach hR (consumeSentinel cfg inp.now price) inp.sentinels
      (fun s _ u => ⟨accountOnly_op cfg sig (.sentinel inp.now price s) (fun _ h => by cases h)
          (fun _ h => by cases h) (fun h => by cases h) u,
        noEntry_op cfg sig (.sentinel inp.now price s) (fun _ _ _ _ h => by cases h) u⟩) v
    obtain ⟨⟨s, fees, p, hflags⟩, hquiet⟩ := hsentinels
    obtain ⟨u, hu⟩ := Program.returns_forEach (consumeSentinel cfg inp.now price) inp.sentinels
      (consumeSentinel_returns cfg inp.now price) v
    have hpaused : (checkDealSentinels cfg inp.now inp price v).state.engine.pausedByDrawdown
        = true := by
      rw [checkDealSentinels, hflags]
      exact h
    have hentry : entryStep cfg sig inp price (checkDealSentinels cfg inp.now inp price v).state =
        ⟨.ok (), [], (checkDealSentinels cfg inp.now inp price v).state⟩ := by
      simp only [entryStep, Program.get_bind_run, hpaused]
      simp
    have hlog : (fromTrigger cfg sig inp price v).log =
        (checkDealSentinels cfg inp.now inp price v).log := by
      have hreturn : (checkDealSentinels cfg inp.now inp price v).result = .ok u := hu
      rw [fromTrigger, Program.bind_ok _ _ v () (by rw [hmanual]), hmanual]
      dsimp only
      rw [Program.bind_ok _ _ v u hreturn, Program.bind_ok _ _ _ () (by rw [hentry]), hentry]
      simp [writeState]
    rw [hlog]
    exact ⟨fun _ => rfl, fun _ => hquiet⟩

/-! ### What a pause holds back -/

/-- While trading is paused the tick opens no deal, and with a wrong clock it
fills no rung. -/
structure PauseHolds (inp : TickInput) (w : World) : Prop where
  noEntry : ∀ t, inp.ticker = .ok t → paused (atTrigger cfg sig inp t.tickPrice w).engine = true →
    ∀ e ∈ (tick cfg sig inp w).log, isEntry e = false
  noDca : inp.clockOk = false → ∀ e ∈ (tick cfg sig inp w).log, isDcaFill e = false

/-- The manual trigger opens nothing while paused, and no open deal of a tick
with a wrong clock reaches a DCA check whose rung is hit. -/
structure OrdersNothing (inp : TickInput) (w : World) : Prop where
  manual : ∀ t, inp.ticker = .ok t → paused (atTrigger cfg sig inp t.tickPrice w).engine = true →
    (loopAt cfg sig inp t.tickPrice w).result = .ok () →
    manualOpens cfg t.tickPrice inp (atTrigger cfg sig inp t.tickPrice w).engine.state = false
  ladder : ∀ t, inp.ticker = .ok t → inp.clockOk = false →
    ladderFills cfg sig inp.candles t.tickPrice
      (tracked t.tickPrice (hooked inp w)).engine.state.openDeals.items = false

theorem tick_events (p : EngineEvent → Bool) (hp : ∀ e, p (.tickError e) = false) (inp : TickInput)
    (t : Ticker) (ht : inp.ticker = .ok t) (w : World) :
    (∀ e ∈ (tick cfg sig inp w).log, p e = false) ↔
      ∀ e ∈ (bodyAt cfg sig inp t.tickPrice w).log, p e = false := by
  rw [(tick_run_ok cfg sig inp t ht w).1]
  cases (bodyAt cfg sig inp t.tickPrice w).result with
  | ok _ => simp
  | error x =>
    constructor
    · intro h e he
      exact h e (List.mem_append_left _ he)
    · intro h e he
      rcases List.mem_append.mp he with he | he
      · exact h e he
      · rw [List.mem_singleton.mp he]
        exact hp x

theorem bodyAt_entry_iff (inp : TickInput) (price : ℚ) (w : World)
    (h : paused (atTrigger cfg sig inp price w).engine = true) :
    (∀ e ∈ (bodyAt cfg sig inp price w).log, isEntry e = false) ↔
      ((loopAt cfg sig inp price w).result = .ok () →
        manualOpens cfg price inp (atTrigger cfg sig inp price w).engine.state = false) := by
  have hquiet : ∀ e ∈ (loopAt cfg sig inp price w).log, isEntry e = false :=
    monitorDeals_noEntry cfg sig inp price _ 0 _
  have hrest := fromTrigger_entry_iff cfg sig inp price _ (atTrigger_paused cfg sig inp price w h)
  rw [bodyAt_run]
  cases hr : (loopAt cfg sig inp price w).result with
  | error x =>
    constructor
    · intro _ hf
      cases hf
    · intro _
      exact hquiet
  | ok u =>
    simp only [forall_const]
    rw [← hrest]
    constructor
    · intro hall e he
      exact hall e (List.mem_append_right _ he)
    · intro hall e he
      rcases List.mem_append.mp he with he | he
      · exact hquiet e he
      · exact hall e he

theorem bodyAt_dca_iff (inp : TickInput) (price : ℚ) (w : World) :
    (∀ e ∈ (bodyAt cfg sig inp price w).log, isDcaFill e = false) ↔
      ladderFills cfg sig inp.candles price
        (tracked price (hooked inp w)).engine.state.openDeals.items = false := by
  have hfills := monitorDeals_fills_iff cfg sig inp price
    (tracked price (hooked inp w)).engine.state.openDeals.items (tracked price (hooked inp w))
    (meets_items _)
  have hlate : ∀ e ∈ (bodyAt cfg sig inp price w).log, isDcaFill e = true →
      e ∈ (loopAt cfg sig inp price w).log := by
    intro e he htrue
    rw [bodyAt, afterTracking_run, Program.bind_run] at he
    split at he
    · exact he
    · rcases List.mem_append.mp he with he | he
      · exact he
      · have hnone := afterMonitoring_noManagement cfg sig inp price _ e he
        cases e with
        | dcaFilled i p => cases hnone
        | _ => cases htrue
  have hloop : ∀ e ∈ (loopAt cfg sig inp price w).log, e ∈ (bodyAt cfg sig inp price w).log := by
    intro e he
    rw [bodyAt_run]
    cases (loopAt cfg sig inp price w).result with
    | error x => exact he
    | ok u => exact List.mem_append_left _ he
  rw [← Bool.not_eq_true, ← hfills]
  constructor
  · intro hall hf
    obtain ⟨e, he, htrue⟩ := hf
    rw [hall e (hloop e he)] at htrue
    cases htrue
  · intro hnone e he
    cases htrue : isDcaFill e with
    | false => rfl
    | true => exact absurd ⟨e, hlate e he htrue, htrue⟩ hnone

/-- A tick keeps to its pause exactly when neither the manual trigger nor the
DCA check orders anything. -/
theorem pauseHolds_iff (inp : TickInput) (w : World) :
    PauseHolds cfg sig inp w ↔ OrdersNothing cfg sig inp w := by
  cases ht : inp.ticker with
  | error x =>
    have hlog := (tick_run_error cfg sig inp x ht w).1
    constructor
    · intro _
      refine ⟨fun t h => ?_, fun t h => ?_⟩
      · rw [ht] at h
        cases h
      · rw [ht] at h
        cases h
    · intro _
      refine ⟨fun t h => ?_, fun _ e he => ?_⟩
      · rw [ht] at h
        cases h
      · rw [hlog] at he
        cases List.mem_singleton.mp he
        rfl
  | ok t =>
    have hentry := tick_events cfg sig isEntry (fun _ => rfl) inp t ht w
    have hdca := tick_events cfg sig isDcaFill (fun _ => rfl) inp t ht w
    have hfills := bodyAt_dca_iff cfg sig inp t.tickPrice w
    constructor
    · intro h
      refine ⟨fun t' ht' hp => ?_, fun t' ht' hclock => ?_⟩
      · rw [ht] at ht'
        cases ht'
        exact (bodyAt_entry_iff cfg sig inp t.tickPrice w hp).mp (hentry.mp (h.noEntry t ht hp))
      · rw [ht] at ht'
        cases ht'
        exact hfills.mp (hdca.mp (h.noDca hclock))
    · intro h
      refine ⟨fun t' ht' hp => ?_, fun hclock => ?_⟩
      · rw [ht] at ht'
        cases ht'
        exact hentry.mpr ((bodyAt_entry_iff cfg sig inp t.tickPrice w hp).mpr (h.manual t ht hp))
      · exact hdca.mpr (hfills.mpr (h.ladder t ht hclock))

/-- Every tick of a run keeps to its pause exactly when in none of them the
manual trigger or the DCA check orders while paused. -/
theorem pauseHolds_run_iff (w : World) (inp : ℕ → TickInput) :
    (∀ k, PauseHolds cfg sig (inp k) (worldAt cfg sig w inp k)) ↔
      ∀ k, OrdersNothing cfg sig (inp k) (worldAt cfg sig w inp k) := by
  constructor
  · intro h k
    exact (pauseHolds_iff cfg sig (inp k) _).mp (h k)
  · intro h k
    exact (pauseHolds_iff cfg sig (inp k) _).mpr (h k)

/-- The clock is right at the first tick only; the price falls from 100 to 90. -/
def skewedFall (k : ℕ) : TickInput :=
  if k = 0 then WickTakeProfit.tickAtPrice 100
  else { WickTakeProfit.tickAtPrice 90 with clockOk := false }

/-- The skewed tick at 90 fills a rung of the deal opened at 100. -/
theorem not_pauseHolds_skewed_dca :
    ¬ ∀ (cfg : BotConfig) (sig : Signals) (initialBalanceBtc : ℚ) (inp : ℕ → TickInput) (k : ℕ),
      PauseHolds cfg sig (inp k) (worldAt cfg sig (freshWorld initialBalanceBtc) inp k) := by
  intro h
  have hnone := (h WickTakeProfit.ladderBot .silent 1 skewedFall 1).noDca (by decide +kernel)
    (.dcaFilled "202501010000-0001" 90) (by decide +kernel)
  cases hnone

/-- A skewed tick with a manual trigger opens a deal. -/
theorem not_pauseHolds_skewed_trigger :
    ¬ PauseHolds WickTakeProfit.ladderBot .silent
      { WickTakeProfit.tickAtPrice 100 with clockOk := false, manualTrigger := true }
      (freshWorld 1) := by
  intro h
  have hnone := h.noEntry ⟨100, 100, 100, none⟩ (by decide +kernel) (by decide +kernel)
    (.opened "202501010000-0001" 100) (by decide +kernel)
  cases hnone

end LiveEngine

end Reverto
