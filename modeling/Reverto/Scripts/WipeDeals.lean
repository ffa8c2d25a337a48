import Mathlib.Tactic
import Reverto.Core.EngineLife
import Reverto.Core.EngineTwins
import Reverto.Web.DrawdownReset

/-!
# The wipe (scripts/wipe_deals.py)

`_reset_state_file` gives a state file the account and the deals of a new bot and
keeps its drawdown guard and pause flag. `_load_state` restores both, so a wiped bot
is a new one whose guard remembers.
-/

namespace Reverto

/-- `_reset_state_file`: the document it writes back. -/
def StateDoc.wiped (doc : StateDoc) : StateDoc :=
  { doc with
    balanceBtc := some (doc.initialBalanceBtc.getD (1 / 10))
    totalPnlBtc := some 0
    winRate := some 0
    openDealsCount := 0
    closedDealsCount := 0
    feesPaidBtc := some 0
    openDeals := []
    closedDeals := [] }

/-- A bot started on a wiped file. -/
def wipedWorld (initialBalanceBtc : ℚ) (doc : StateDoc) : World :=
  ⟨bootEngine initialBalanceBtc (some doc.wiped), some doc.wiped⟩

/-- A guard over one tick: it reads the value, if the tick has one for it. A tick with a
wrong clock puts the pause flag back. -/
def GuardView.tick (cfg : DrawdownGuardConfig) (clockOk : Bool) (reading : Option ℚ)
    (g : GuardView) : GuardView :=
  match reading with
  | none => g
  | some value =>
    if !cfg.enabled then g
    else
      ⟨g.guard.update cfg value,
        if clockOk then g.paused || (g.guard.update cfg value).triggered else g.paused⟩

namespace WipeDeals

open TradingEngine LiveEngine

variable (cfg : BotConfig) (sig : Signals)

/-- Two bots with the same balance and pause, and both running or both stopped. -/
def SameFace (w v : World) : Prop :=
  w.engine.state.balanceBtc = v.engine.state.balanceBtc ∧
    w.engine.pausedByDrawdown = v.engine.pausedByDrawdown ∧ w.engine.running = v.engine.running

/-- Two bots make the same openings, DCA fills and closes tick by tick, with the same
pauses and balances, for as long as they run. -/
def SameRun : List TickInput → World → World → Prop
  | [], w, v => SameFace w v
  | inp :: inputs, w, v =>
    SameFace w v ∧
      (w.engine.running = true →
        (TradingEngine.tick cfg sig inp w).log.filter EngineEvent.isTrade =
            (TradingEngine.tick cfg sig inp v).log.filter EngineEvent.isTrade ∧
          SameRun inputs (TradingEngine.tick cfg sig inp w).state
            (TradingEngine.tick cfg sig inp v).state)

/-- The value a tick feeds to the guard, if it gets that far. -/
def readingAt (inp : TickInput) (w : World) : Option ℚ :=
  match inp.ticker with
  | .error _ => none
  | .ok t =>
    match (loopAt cfg sig inp t.tickPrice w).result with
    | .error _ => none
    | .ok _ =>
      some (drawdownReading cfg (loopAt cfg sig inp t.tickPrice w).state.engine.state t.tickPrice)

/-- A guard that reads along with a bot pauses at the ticks at which the bot pauses. -/
def SamePauses : List TickInput → World → GuardView → Prop
  | [], v, g => g.paused = v.engine.pausedByDrawdown
  | inp :: inputs, v, g =>
    g.paused = v.engine.pausedByDrawdown ∧
      (v.engine.running = true →
        SamePauses inputs (TradingEngine.tick cfg sig inp v).state
          (g.tick cfg.drawdownGuard inp.clockOk (readingAt cfg sig inp v)))

/-- The guard does not pause, and it remembers neither a trigger nor a peak above a balance. -/
def NothingRemembered (initialBalanceBtc : ℚ) (g : GuardView) : Prop :=
  g.paused = false ∧
    (cfg.drawdownGuard.enabled = true →
      g.guard.triggered = false ∧ ∀ peak, g.guard.peakValue = some peak → peak ≤ initialBalanceBtc)

/-! ### The guard of an engine over a tick -/

theorem drawdownStep_guardView (price : ℚ) (e : EngineState) :
    (drawdownStep cfg price e).guardView =
      e.guardView.tick cfg.drawdownGuard true (some (drawdownReading cfg e.state price)) := by
  unfold drawdownStep GuardView.tick
  cases cfg.drawdownGuard.enabled with
  | false => rfl
  | true =>
    simp only [Bool.not_true, Bool.false_eq_true, if_false, if_true, EngineState.guardView]
    cases (e.drawdownGuard.update cfg.drawdownGuard (drawdownReading cfg e.state price)).triggered with
    | false => simp
    | true => cases e.pausedByDrawdown <;> simp

/-- The loop ends exactly with a pause that was not there before. -/
theorem drawdownStep_running (price : ℚ) (e : EngineState) :
    (drawdownStep cfg price e).running =
      if (drawdownStep cfg price e).pausedByDrawdown && !e.pausedByDrawdown &&
          decide (cfg.drawdownGuard.action = .stop) then false
      else e.running := by
  unfold drawdownStep
  split
  · cases e.pausedByDrawdown <;> simp
  · dsimp only
    split
    · cases e.pausedByDrawdown <;> simp
    · rename_i hfired
      simp only [Bool.or_eq_true, Bool.not_eq_true', not_or, Bool.not_eq_true] at hfired
      simp [hfired.2]

theorem drawdownStep_state (price : ℚ) (e : EngineState) :
    (drawdownStep cfg price e).state = e.state := by
  unfold drawdownStep
  split
  · rfl
  · dsimp only
    split <;> rfl

/-- The view of the guard before the hooks of a tick are undone. -/
theorem hooked_guardView (inp : TickInput) (w : World) :
    (hooked inp w).engine.guardView =
      ⟨w.engine.drawdownGuard, w.engine.pausedByDrawdown || !inp.clockOk⟩ := by
  simp only [hooked, preTickHook, Program.modify_run]
  cases inp.clockOk with
  | true => simp [EngineState.guardView]
  | false => simp [EngineState.guardView]

/-- The post-tick hook puts the pause flag of a tick with a wrong clock back. -/
theorem postTick_guardView (inp : TickInput) (w x : World) (g : GuardView)
    (hview : x.engine.guardView = g)
    (hskew : x.engine.pausedByClockSkew = (hooked inp w).engine.pausedByClockSkew)
    (hprev : x.engine.prevDrawdownForSkew = (hooked inp w).engine.prevDrawdownForSkew) :
    (postTickHook x).state.engine.guardView =
      ⟨g.guard, if inp.clockOk then g.paused else w.engine.pausedByDrawdown⟩ := by
  rw [← hview]
  simp only [hooked, preTickHook, Program.modify_run] at hskew hprev
  simp only [postTickHook, Program.modify_run]
  cases hclock : inp.clockOk with
  | true =>
    simp only [hclock, if_true] at hskew
    rw [if_neg (by simp [hskew])]
    rfl
  | false =>
    simp only [hclock, Bool.false_eq_true, if_false] at hskew hprev
    rw [if_pos hskew, ← hprev]
    rfl

theorem accountOnly_guardView (w w' : World) (h : AccountOnly w w') :
    w'.engine.guardView = w.engine.guardView := by
  obtain ⟨s, fees, p, heng⟩ := h
  rw [heng]
  rfl

/-- The guard after the body of a tick whose monitoring loop returned. -/
theorem bodyAt_guardView (inp : TickInput) (price : ℚ) (w : World)
    (hr : (loopAt cfg sig inp price w).result = .ok ()) :
    (bodyAt cfg sig inp price w).state.engine.guardView =
      (atTrigger cfg sig inp price w).engine.guardView := by
  have hbody := bodyAt_run cfg sig inp price w
  rw [hr] at hbody
  rw [hbody]
  exact accountOnly_guardView _ _ (fromTrigger_accountOnly cfg sig inp price _)

theorem atTrigger_guardView (inp : TickInput) (price : ℚ) (w : World) :
    (atTrigger cfg sig inp price w).engine.guardView =
      GuardView.tick cfg.drawdownGuard true
        (some (drawdownReading cfg (loopAt cfg sig inp price w).state.engine.state price))
        ⟨w.engine.drawdownGuard, w.engine.pausedByDrawdown || !inp.clockOk⟩ := by
  have hloop := accountOnly_guardView _ _ (loopAt_accountOnly cfg sig inp price w)
  rw [hooked_guardView] at hloop
  rw [← hloop]
  exact drawdownStep_guardView cfg price _

/-- What a tick does to the guard depends on the value it reads only. -/
theorem tick_guardView (inp : TickInput) (w : World) :
    (TradingEngine.tick cfg sig inp w).state.engine.guardView =
      w.engine.guardView.tick cfg.drawdownGuard inp.clockOk (readingAt cfg sig inp w) := by
  cases ht : inp.ticker with
  | error e =>
    rw [(tick_run_error cfg sig inp e ht w).2,
      postTick_guardView inp w _ _ (hooked_guardView inp w) rfl rfl]
    simp only [readingAt, ht, GuardView.tick, EngineState.guardView]
    cases inp.clockOk <;> simp
  | ok t =>
    obtain ⟨hskew, hprev⟩ := bodyAt_hooks cfg sig inp t.tickPrice w
    rw [(tick_run_ok cfg sig inp t ht w).2]
    cases hr : (loopAt cfg sig inp t.tickPrice w).result with
    | error x =>
      have hbody := bodyAt_run cfg sig inp t.tickPrice w
      rw [hr] at hbody
      have hstate : (bodyAt cfg sig inp t.tickPrice w).state =
          (loopAt cfg sig inp t.tickPrice w).state := by rw [hbody]
      have hview := (accountOnly_guardView _ _ (loopAt_accountOnly cfg sig inp t.tickPrice w)).trans
        (hooked_guardView inp w)
      rw [← hstate] at hview
      rw [postTick_guardView inp w _ _ hview hskew hprev]
      simp only [readingAt, ht, hr, GuardView.tick, EngineState.guardView]
      cases inp.clockOk <;> simp
    | ok u =>
      have hview := (bodyAt_guardView cfg sig inp t.tickPrice w hr).trans
        (atTrigger_guardView cfg sig inp t.tickPrice w)
      rw [postTick_guardView inp w _ _ hview hskew hprev]
      simp only [readingAt, ht, hr, GuardView.tick, EngineState.guardView]
      cases cfg.drawdownGuard.enabled <;> cases inp.clockOk <;> simp

/-! ### Bots that differ in the guard only -/

section Pair

variable {w v : World}

theorem alike_loopAt (h : Alike 0 w v) (inp : TickInput) (price : ℚ) :
    (loopAt cfg sig inp price w).result = (loopAt cfg sig inp price v).result ∧
      Alike 0 (loopAt cfg sig inp price w).state (loopAt cfg sig inp price v).state := by
  obtain ⟨hresult, _, halike⟩ := loopAt_twins cfg sig (Q := fun _ => True) (Or.inl rfl) h inp price
    (fun _ _ => trivial) (fun _ _ => trivial)
  exact ⟨hresult, halike⟩

theorem balance_eq (h : Alike 0 w v) :
    w.engine.state.balanceBtc = v.engine.state.balanceBtc :=
  sub_eq_zero.mp (abs_nonpos_iff.mp h.balance)

/-- No PnL that a deal shows is in the equity. -/
theorem currentEquityBtc_unshown (s : PaperState) (price : ℚ) :
    currentEquityBtc s price =
      s.balanceBtc + ((OpenDeals.unshown s.openDeals).items.map fun d => (d.calculatePnl price).1).sum := by
  rw [currentEquityBtc, OpenDeals.unshown, KeyedDict.mapValues_items, List.map_map]
  rfl

theorem drawdownReading_eq (h : Alike 0 w v) (price : ℚ) :
    drawdownReading cfg w.engine.state price = drawdownReading cfg v.engine.state price := by
  have hbalance := balance_eq h
  unfold drawdownReading
  cases cfg.drawdownGuard.metric with
  | balance => exact hbalance
  | equity =>
    simp only [currentEquityBtc_unshown]
    rw [h.deals, hbalance]

theorem readingAt_eq (h : Alike 0 w v) (inp : TickInput) :
    readingAt cfg sig inp w = readingAt cfg sig inp v := by
  unfold readingAt
  cases inp.ticker with
  | error e => rfl
  | ok t =>
    obtain ⟨hresult, halike⟩ := alike_loopAt cfg sig h inp t.tickPrice
    dsimp only
    rw [hresult, drawdownReading_eq cfg halike t.tickPrice]

theorem sameFace_of_alike (h : Alike 0 w v) : SameFace w v := ⟨balance_eq h, h.paused, h.running⟩

/-- Guards that leave the same pause leave the bots alike. -/
theorem alike_drawdownStep (h : Alike 0 w v) (price : ℚ)
    (hpaused : (drawdownStep cfg price w.engine).pausedByDrawdown =
      (drawdownStep cfg price v.engine).pausedByDrawdown) :
    Alike 0 { w with engine := drawdownStep cfg price w.engine }
      { v with engine := drawdownStep cfg price v.engine } := by
  refine ⟨?_, ?_, hpaused, ?_⟩
  · simp only [drawdownStep_state]
    exact h.deals
  · simp only [drawdownStep_state]
    exact h.balance
  · simp only [drawdownStep_running cfg price w.engine, drawdownStep_running cfg price v.engine]
    rw [hpaused, h.paused, h.running]

/-- A tick after which both bots have the same pause is the same tick for both. -/
theorem tick_alike (h : Alike 0 w v) (inp : TickInput)
    (hpaused : (TradingEngine.tick cfg sig inp w).state.engine.pausedByDrawdown =
      (TradingEngine.tick cfg sig inp v).state.engine.pausedByDrawdown) :
    (TradingEngine.tick cfg sig inp w).log.filter EngineEvent.isTrade =
        (TradingEngine.tick cfg sig inp v).log.filter EngineEvent.isTrade ∧
      Alike 0 (TradingEngine.tick cfg sig inp w).state (TradingEngine.tick cfg sig inp v).state := by
  refine tick_twins cfg sig (Q := fun _ => True) (Or.inl rfl) h inp ?_
    (fun _ _ => trivial) (fun _ _ => trivial)
  intro t ht hr hloop
  refine alike_drawdownStep cfg hloop t.tickPrice ?_
  have hrv : (loopAt cfg sig inp t.tickPrice v).result = .ok () := by
    rw [← (alike_loopAt cfg sig h inp t.tickPrice).1]
    exact hr
  have hpause : ∀ u : World, (loopAt cfg sig inp t.tickPrice u).result = .ok () →
      (TradingEngine.tick cfg sig inp u).state.engine.pausedByDrawdown =
        if inp.clockOk then (atTrigger cfg sig inp t.tickPrice u).engine.pausedByDrawdown
        else u.engine.pausedByDrawdown := by
    intro u hu
    obtain ⟨hskew, hprev⟩ := bodyAt_hooks cfg sig inp t.tickPrice u
    have hview := postTick_guardView inp u _ _ (bodyAt_guardView cfg sig inp t.tickPrice u hu)
      hskew hprev
    rw [(tick_run_ok cfg sig inp t ht u).2]
    exact congrArg GuardView.paused hview
  rw [hpause w hr, hpause v hrv] at hpaused
  cases hclock : inp.clockOk with
  | true =>
    rw [hclock] at hpaused
    exact hpaused
  | false =>
    -- both flags are raised by the hook and stay
    have hraised : ∀ u : World, (atTrigger cfg sig inp t.tickPrice u).engine.pausedByDrawdown = true := by
      intro u
      obtain ⟨s, fees, p, heng⟩ := loopAt_accountOnly cfg sig inp t.tickPrice u
      refine (drawdownStep_flags cfg t.tickPrice _).2 ?_
      rw [heng]
      exact (hooked_flags inp u).2 hclock
    exact (hraised w).trans (hraised v).symm

/-- Two bots that differ in the guard only run alike exactly when their guards pause alike. -/
theorem sameRun_iff (inputs : List TickInput) (w v : World) (h : Alike 0 w v) :
    SameRun cfg sig inputs w v ↔ SamePauses cfg sig inputs v w.engine.guardView := by
  induction inputs generalizing w v with
  | nil =>
    constructor
    · intro _
      exact h.paused
    · intro _
      exact sameFace_of_alike h
  | cons inp inputs ih =>
    have hview := tick_guardView cfg sig inp w
    rw [readingAt_eq cfg sig h inp] at hview
    constructor
    · intro hrun
      refine ⟨h.paused, fun hrunning => ?_⟩
      obtain ⟨_, hnext⟩ := hrun.2 (h.running.trans hrunning)
      have hface : SameFace (TradingEngine.tick cfg sig inp w).state
          (TradingEngine.tick cfg sig inp v).state := by
        cases inputs with
        | nil => exact hnext
        | cons _ _ => exact hnext.1
      rw [← hview]
      exact (ih _ _ (tick_alike cfg sig h inp hface.2.1).2).mp hnext
    · intro hpauses
      refine ⟨sameFace_of_alike h, fun hrunning => ?_⟩
      have hnext := hpauses.2 (h.running.symm.trans hrunning)
      rw [← hview] at hnext
      have hpaused : (TradingEngine.tick cfg sig inp w).state.engine.pausedByDrawdown =
          (TradingEngine.tick cfg sig inp v).state.engine.pausedByDrawdown := by
        cases inputs with
        | nil => exact hnext
        | cons _ _ => exact hnext.1
      obtain ⟨htrades, halike⟩ := tick_alike cfg sig h inp hpaused
      exact ⟨htrades, (ih _ _ halike).mpr hnext⟩

end Pair

/-! ### A guard that remembers nothing -/

/-- A bot that has not traded, with the guard of another bot. The guards have read the same,
or the bot's own is new and the other one forgets at the first reading. -/
structure Forgets (initialBalanceBtc : ℚ) (v : World) (g : GuardView) : Prop where
  paused : g.paused = v.engine.pausedByDrawdown
  guards : cfg.drawdownGuard.enabled = true →
    (g.guard.triggered = v.engine.drawdownGuard.triggered ∧
      g.guard.peakValue = v.engine.drawdownGuard.peakValue) ∨
    (v.engine.drawdownGuard = {} ∧ v.engine.state.openDeals.items = [] ∧
      v.engine.state.balanceBtc = initialBalanceBtc ∧ g.guard.triggered = false ∧
      ∀ peak, g.guard.peakValue = some peak → peak ≤ initialBalanceBtc)

/-- The loop of a bot without open deals. -/
theorem loopAt_empty (inp : TickInput) (price : ℚ) (w : World)
    (h : w.engine.state.openDeals.items = []) :
    loopAt cfg sig inp price w = ⟨.ok (), [], tracked price (hooked inp w)⟩ := by
  have hstate : (hooked inp w).engine.state = w.engine.state := (preTickHook_account inp w).1
  have hids : (tracked price (hooked inp w)).engine.state.openDeals.items.map PaperDeal.id = [] := by
    simp only [tracked, World.onState_state, KeyedDict.mapValues_items, hstate, h, List.map_nil]
  rw [loopAt, hids]
  rfl

/-- A bot without open deals reads its balance. -/
theorem readingAt_empty (inp : TickInput) (w : World) (h : w.engine.state.openDeals.items = []) :
    readingAt cfg sig inp w =
      match inp.ticker with
      | .error _ => none
      | .ok _ => some w.engine.state.balanceBtc := by
  have hstate : (hooked inp w).engine.state = w.engine.state := (preTickHook_account inp w).1
  unfold readingAt
  cases inp.ticker with
  | error e => rfl
  | ok t =>
    have hbalance : (tracked t.tickPrice (hooked inp w)).engine.state.balanceBtc =
        w.engine.state.balanceBtc := by
      simp only [tracked, World.onState_state, hstate]
    have hdeals : (tracked t.tickPrice (hooked inp w)).engine.state.openDeals.items = [] := by
      simp only [tracked, World.onState_state, KeyedDict.mapValues_items, hstate, h, List.map_nil]
    simp only [loopAt_empty cfg sig inp t.tickPrice w h, drawdownReading]
    cases cfg.drawdownGuard.metric with
    | balance => rw [hbalance]
    | equity =>
      simp only [currentEquityBtc]
      rw [hdeals, hbalance, List.map_nil, List.sum_nil, add_zero]

theorem forgets_tick (b : ℚ) (inp : TickInput) (v : World) (g : GuardView) (h : Forgets cfg b v g) :
    Forgets cfg b (TradingEngine.tick cfg sig inp v).state
      (g.tick cfg.drawdownGuard inp.clockOk (readingAt cfg sig inp v)) := by
  have hview := tick_guardView cfg sig inp v
  have hguard := congrArg GuardView.guard hview
  have hpaused := congrArg GuardView.paused hview
  simp only [EngineState.guardView] at hguard hpaused
  cases hreading : readingAt cfg sig inp v with
  | none =>
    rw [hreading] at hguard hpaused
    simp only [GuardView.tick] at hguard hpaused
    refine ⟨h.paused.trans hpaused.symm, fun henabled => ?_⟩
    rw [hguard]
    rcases h.guards henabled with hsame | ⟨hnew, hdeals, hbalance, hclear⟩
    · exact Or.inl hsame
    · -- no deal is open, so the ticker did not arrive
      rw [readingAt_empty cfg sig inp v hdeals] at hreading
      cases ht : inp.ticker with
      | ok t =>
        rw [ht] at hreading
        cases hreading
      | error e =>
        have hstate : (TradingEngine.tick cfg sig inp v).state.engine.state = v.engine.state := by
          rw [(tick_run_error cfg sig inp e ht v).2, (postTickHook_account _).1]
          exact (preTickHook_account inp v).1
        rw [hstate]
        exact Or.inr ⟨hnew, hdeals, hbalance, hclear⟩
  | some value =>
    rw [hreading] at hguard hpaused
    simp only [GuardView.tick] at hguard hpaused ⊢
    cases henabled : cfg.drawdownGuard.enabled with
    | false =>
      simp only [henabled, Bool.not_false, if_true] at hpaused ⊢
      exact ⟨h.paused.trans hpaused.symm, fun hcontra => absurd (henabled.symm.trans hcontra) (by simp)⟩
    | true =>
      simp only [henabled, Bool.not_true, Bool.false_eq_true, if_false] at hguard hpaused ⊢
      have hagrees : (g.guard.update cfg.drawdownGuard value).triggered =
            (v.engine.drawdownGuard.update cfg.drawdownGuard value).triggered ∧
          (g.guard.update cfg.drawdownGuard value).peakValue =
            (v.engine.drawdownGuard.update cfg.drawdownGuard value).peakValue := by
        rcases h.guards henabled with hsame | ⟨hnew, hdeals, hbalance, htriggered, hpeak⟩
        · exact DrawdownGuard.update_agrees _ _ _ value hsame
        · have hvalue : value = b := by
            rw [readingAt_empty cfg sig inp v hdeals, hbalance] at hreading
            cases ht : inp.ticker with
            | error e =>
              rw [ht] at hreading
              cases hreading
            | ok t =>
              rw [ht] at hreading
              exact (Option.some.inj hreading).symm
          subst hvalue
          have hkept := DrawdownGuard.update_peak cfg.drawdownGuard g.guard value henabled htriggered hpeak
          have hfresh := DrawdownGuard.update_peak cfg.drawdownGuard v.engine.drawdownGuard value
            henabled (by rw [hnew]) (by rw [hnew]; intro peak hp; cases hp)
          exact ⟨hkept.1.trans hfresh.1.symm, hkept.2.trans hfresh.2.symm⟩
      refine ⟨?_, fun _ => Or.inl ?_⟩
      · rw [hpaused, ← hagrees.1, h.paused]
      · rw [hguard]
        exact hagrees

theorem samePauses_of_forgets (b : ℚ) (inputs : List TickInput) (v : World) (g : GuardView)
    (h : Forgets cfg b v g) : SamePauses cfg sig inputs v g := by
  induction inputs generalizing v g with
  | nil => exact h.paused
  | cons inp inputs ih => exact ⟨h.paused, fun _ => ih _ _ (forgets_tick cfg sig b inp v g h)⟩

/-! ### The wiped bot -/

theorem alike_wiped (b : ℚ) (doc : StateDoc) (hbalance : doc.initialBalanceBtc.getD (1 / 10) = b)
    (hpaused : doc.pausedByDrawdown = false) : Alike 0 (wipedWorld b doc) (freshWorld b) := by
  refine ⟨rfl, ?_, hpaused, rfl⟩
  show |doc.initialBalanceBtc.getD (1 / 10) - b| ≤ 0
  rw [hbalance, sub_self, abs_zero]

/-- A wiped bot runs like a new one exactly when its file has the balance of the new one and
the kept guard pauses as the new one's. That is so on every run when the kept guard
remembers nothing. -/
theorem wiped_runs_fresh (b : ℚ) (doc : StateDoc) :
    (∀ inputs, SameRun cfg sig inputs (wipedWorld b doc) (freshWorld b) ↔
      doc.initialBalanceBtc.getD (1 / 10) = b ∧
        SamePauses cfg sig inputs (freshWorld b) (fileGuardView (some doc))) ∧
    (doc.initialBalanceBtc.getD (1 / 10) = b ∧
        NothingRemembered cfg b (fileGuardView (some doc)) →
      ∀ inputs, SameRun cfg sig inputs (wipedWorld b doc) (freshWorld b)) := by
  have hview : (wipedWorld b doc).engine.guardView = fileGuardView (some doc) := rfl
  have hexact : ∀ inputs, SameRun cfg sig inputs (wipedWorld b doc) (freshWorld b) ↔
      doc.initialBalanceBtc.getD (1 / 10) = b ∧
        SamePauses cfg sig inputs (freshWorld b) (fileGuardView (some doc)) := by
    intro inputs
    constructor
    · intro hrun
      have hface : SameFace (wipedWorld b doc) (freshWorld b) := by
        cases inputs with
        | nil => exact hrun
        | cons _ _ => exact hrun.1
      have halike := alike_wiped b doc hface.1 hface.2.1
      rw [← hview]
      exact ⟨hface.1, (sameRun_iff cfg sig inputs _ _ halike).mp hrun⟩
    · rintro ⟨hbalance, hpauses⟩
      have hpaused : doc.pausedByDrawdown = false := by
        cases inputs with
        | nil => exact hpauses
        | cons _ _ => exact hpauses.1
      rw [← hview] at hpauses
      exact (sameRun_iff cfg sig inputs _ _ (alike_wiped b doc hbalance hpaused)).mpr hpauses
  refine ⟨hexact, ?_⟩
  rintro ⟨hbalance, hpaused, hclear⟩ inputs
  refine (hexact inputs).mpr ⟨hbalance, ?_⟩
  have hforgets : Forgets cfg b (freshWorld b) (fileGuardView (some doc)) := by
    refine ⟨hpaused, fun henabled => Or.inr ?_⟩
    exact ⟨rfl, rfl, rfl, hclear henabled⟩
  exact samePauses_of_forgets cfg sig b inputs _ _ hforgets

/-! ### A peak from before the wipe -/

/-- A base order of two bitcoins, with the guard on the balance. -/
def richBot : BotConfig :=
  { BotConfig.ofBaseOrder "rich" 2 (by norm_num) with drawdownGuard := .onBalance }

/-- A deal opened by hand and closed through the portal at twice its price. -/
def richPast : List TickInput :=
  [{ TickInput.atPrice 100 with manualTrigger := true },
    { TickInput.atPrice 200 with sentinels := [.act "202501010000-0001" .close] },
    TickInput.atPrice 200]

/-- The file the engine has written by then. -/
def richFile : StateDoc :=
  ((Program.runAll (TradingEngine.tick richBot .silent) richPast (freshWorld (1 / 10))).2.file).getD {}

/-- The peak of the closed deal pauses the wiped bot at its first tick. -/
theorem not_wiped_runs_fresh :
    ¬ ∀ (cfg : BotConfig) (sig : Signals) (b : ℚ) (past inputs : List TickInput) (doc : StateDoc),
      (Program.runAll (TradingEngine.tick cfg sig) past (freshWorld b)).2.file = some doc →
        SameRun cfg sig inputs (wipedWorld b doc) (freshWorld b) := by
  intro h
  have hfile : (Program.runAll (TradingEngine.tick richBot .silent) richPast
      (freshWorld (1 / 10))).2.file = some richFile := by decide +kernel
  have hrun := h richBot .silent (1 / 10) richPast [TickInput.atPrice 200] richFile hfile
  have hpaused := (hrun.2 rfl).2.2.1
  revert hpaused
  decide +kernel

end WipeDeals

end Reverto
