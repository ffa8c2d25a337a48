import Mathlib.Tactic
import Reverto.Live.LiveEngine
import Reverto.Web.DrawdownReset

/-!
# The persisted drawdown pause (live/live_engine.py, core/trading_engine.py)

A tick with a wrong clock borrows the drawdown flag, and the state write inside
that tick persists it. An engine process runs its ticks between boots and
crashes; the guard's history is kept beside it.
-/

namespace Reverto

/-- Where the engine process is. -/
inductive LivePhase where
  | stopped
  | idle (e : EngineState)
  | ticking (e : EngineState)
  deriving DecidableEq

/-- The drawdown flag of the process, a flag borrowed for the running tick aside. -/
def LivePhase.ownFlag : LivePhase → Bool
  | .stopped => false
  | .idle e => e.pausedByDrawdown
  | .ticking e => if e.pausedByClockSkew then e.prevDrawdownForSkew else e.pausedByDrawdown

/-- The guard of the process has triggered. -/
def LivePhase.guardTriggered : LivePhase → Bool
  | .stopped => false
  | .idle e => e.drawdownGuard.triggered
  | .ticking e => e.drawdownGuard.triggered

/-- An engine process and its state file. `fired` says that the drawdown guard
has triggered and was not reset since. -/
structure LiveRun where
  file : Option StateDoc
  bot : LivePhase
  fired : Bool
  deriving DecidableEq

/-- What happens next. A reset of the portal writes back a document it has read. -/
inductive LiveStep where
  | boot (initialBalanceBtc : ℚ)
  | beginTick (inp : TickInput)
  | op (op : EngineOp)
  | endTick
  | stop
  | crash
  | reset (doc : StateDoc)

/-- The operations between the two hooks of a tick. -/
def EngineOp.inTick : EngineOp → Bool
  | .preTick _ => false
  | .postTick => false
  | _ => true

namespace LiveRun

open TradingEngine

variable (cfg : BotConfig) (sig : Signals)

/-- One step of the process, its crashes and the portal's resets. -/
def step (s : LiveRun) : LiveStep → Option LiveRun
  | .boot initialBalanceBtc =>
    match s.bot with
    | .stopped => some { s with bot := .idle (bootEngine initialBalanceBtc s.file) }
    | _ => none
  | .beginTick inp =>
    match s.bot with
    | .idle e => some { s with bot := .ticking (preTickHook inp ⟨e, s.file⟩).state.engine }
    | _ => none
  | .op op =>
    match s.bot with
    | .ticking e =>
      if op.inTick then
        let w := (op.program cfg sig ⟨e, s.file⟩).state
        some
          { file := w.file
            bot := .ticking w.engine
            fired := s.fired || (!e.drawdownGuard.triggered && w.engine.drawdownGuard.triggered) }
      else none
    | _ => none
  | .endTick =>
    match s.bot with
    | .ticking e => some { s with bot := .idle (postTickHook ⟨e, s.file⟩).state.engine }
    | _ => none
  | .stop =>
    match s.bot with
    | .idle _ => some { s with bot := .stopped, file := some (StateDoc.markStopped s.file) }
    | _ => none
  | .crash => some { s with bot := .stopped }
  | .reset doc => some { s with file := some doc.drawdownReset, fired := false }

/-- Before the first boot. -/
def initial : LiveRun := ⟨none, .stopped, false⟩

/-- The pause that is persisted, and the one the process would go on with, stem
from a guard that has triggered and was not reset since. -/
structure PauseEarned (s : LiveRun) : Prop where
  persisted : (fileGuardView s.file).paused = true → s.fired = true
  loaded : s.bot.ownFlag = true → s.fired = true

/-- A state write of a tick with a wrong clock comes after the guard has
triggered, and a reset meets no process that has anything to clear. -/
def KeepsPause (s : LiveRun) : LiveStep → Prop
  | .op (.write _ _ _) =>
    match s.bot with
    | .ticking e => e.pausedByClockSkew = true → s.fired = true
    | _ => True
  | .reset _ => s.bot.ownFlag = false ∧ s.bot.guardTriggered = false
  | _ => True

instance (s : LiveRun) (l : LiveStep) : Decidable (KeepsPause s l) := by
  unfold KeepsPause
  split
  · split <;> infer_instance
  · infer_instance
  · infer_instance

/-- What the steps keep. -/
structure Earned (s : LiveRun) : Prop where
  persisted : (fileGuardView s.file).paused = true → s.fired = true
  persistedGuard : (fileGuardView s.file).guard.triggered = true → s.fired = true
  loaded : s.bot.ownFlag = true → s.fired = true
  loadedGuard : s.bot.guardTriggered = true → s.fired = true

theorem earned_initial : Earned initial where
  persisted h := by cases h
  persistedGuard h := by cases h
  loaded h := by cases h
  loadedGuard h := by cases h

/-- A process that is no longer there. -/
theorem earned_stopped (s : LiveRun) (file : Option StateDoc) (h : Earned s)
    (hfile : fileGuardView file = fileGuardView s.file) :
    Earned { s with bot := .stopped, file := file } := by
  refine ⟨?_, ?_, ?_, ?_⟩
  · intro hp
    rw [hfile] at hp
    exact h.persisted hp
  · intro hp
    rw [hfile] at hp
    exact h.persistedGuard hp
  · intro hp
    cases hp
  · intro hp
    cases hp

/-- An operation that neither writes the state nor feeds the guard. -/
theorem earned_account (s : LiveRun) (e : EngineState) (w : World) (hbot : s.bot = .ticking e)
    (h : Earned s) (hacc : AccountOnly ⟨e, s.file⟩ w)
    (hpersisted : (fileGuardView w.file).paused = true → s.fired = true)
    (hguard : (fileGuardView w.file).guard.triggered = true → s.fired = true) :
    Earned
      { file := w.file
        bot := .ticking w.engine
        fired := s.fired || (!e.drawdownGuard.triggered && w.engine.drawdownGuard.triggered) } := by
  obtain ⟨st, fees, price, heng⟩ := hacc
  have hflag : (LivePhase.ticking w.engine).ownFlag = s.bot.ownFlag := by
    rw [hbot, heng]
    rfl
  have htriggered : (LivePhase.ticking w.engine).guardTriggered = s.bot.guardTriggered := by
    rw [hbot, heng]
    rfl
  refine ⟨?_, ?_, ?_, ?_⟩
  · intro hp
    simp only [hpersisted hp, Bool.true_or]
  · intro hp
    simp only [hguard hp, Bool.true_or]
  · intro hp
    rw [hflag] at hp
    simp only [h.loaded hp, Bool.true_or]
  · intro hp
    rw [htriggered] at hp
    simp only [h.loadedGuard hp, Bool.true_or]

/-- A reading raises the flag only when the guard has triggered. -/
theorem drawdownStep_own (price : ℚ) (e : EngineState) :
    (LivePhase.ticking (drawdownStep cfg price e)).ownFlag = true →
      (LivePhase.ticking e).ownFlag = true ∨
        (drawdownStep cfg price e).drawdownGuard.triggered = true := by
  unfold drawdownStep
  split
  · exact Or.inl
  · dsimp only
    split
    · exact Or.inl
    · rename_i hfired
      intro _
      simp only [Bool.or_eq_true, Bool.not_eq_true', not_or, Bool.not_eq_false] at hfired
      exact Or.inr hfired.1

theorem earned_drawdown (s : LiveRun) (e : EngineState) (price : ℚ) (hbot : s.bot = .ticking e)
    (h : Earned s) :
    Earned
      { file := s.file
        bot := .ticking (drawdownStep cfg price e)
        fired := s.fired || (!e.drawdownGuard.triggered &&
          (drawdownStep cfg price e).drawdownGuard.triggered) } := by
  have hloaded : (LivePhase.ticking e).ownFlag = true → s.fired = true := by
    have hl := h.loaded
    rw [hbot] at hl
    exact hl
  -- a guard that has triggered now did so before, or fires in this step
  have hguard : (drawdownStep cfg price e).drawdownGuard.triggered = true →
      (s.fired || (!e.drawdownGuard.triggered &&
        (drawdownStep cfg price e).drawdownGuard.triggered)) = true := by
    intro ht
    cases hbefore : e.drawdownGuard.triggered with
    | true =>
      have hf : s.fired = true := by
        have hl := h.loadedGuard
        rw [hbot] at hl
        exact hl hbefore
      simp only [hf, Bool.true_or]
    | false => simp only [ht, Bool.not_false, Bool.and_true, Bool.or_true]
  refine ⟨?_, ?_, ?_, ?_⟩
  · intro hp
    simp only [h.persisted hp, Bool.true_or]
  · intro hp
    simp only [h.persistedGuard hp, Bool.true_or]
  · intro hp
    rcases drawdownStep_own cfg price e hp with hown | ht
    · simp only [hloaded hown, Bool.true_or]
    · exact hguard ht
  · intro hp
    exact hguard hp

/-- A process that goes on with the flag and the guard it had. -/
theorem earned_moved (s : LiveRun) (bot : LivePhase) (h : Earned s)
    (hflag : bot.ownFlag = s.bot.ownFlag) (hguard : bot.guardTriggered = s.bot.guardTriggered) :
    Earned { s with bot := bot } := by
  refine ⟨h.persisted, h.persistedGuard, fun hp => h.loaded ?_, fun hp => h.loadedGuard ?_⟩
  · rw [← hflag]
    exact hp
  · rw [← hguard]
    exact hp

theorem earned_beginTick (s : LiveRun) (e : EngineState) (inp : TickInput) (hbot : s.bot = .idle e)
    (h : Earned s) :
    Earned { s with bot := .ticking (preTickHook inp ⟨e, s.file⟩).state.engine } := by
  apply earned_moved s _ h
  · rw [hbot]
    simp only [preTickHook, Program.modify_run, LivePhase.ownFlag]
    cases inp.clockOk with
    | true => rfl
    | false => rfl
  · rw [hbot]
    simp only [preTickHook, Program.modify_run, LivePhase.guardTriggered]
    cases inp.clockOk with
    | true => rfl
    | false => rfl

theorem earned_endTick (s : LiveRun) (e : EngineState) (hbot : s.bot = .ticking e) (h : Earned s) :
    Earned { s with bot := .idle (postTickHook ⟨e, s.file⟩).state.engine } := by
  apply earned_moved s _ h
  · rw [hbot]
    simp only [postTickHook, Program.modify_run, LivePhase.ownFlag]
    cases e.pausedByClockSkew with
    | true => rfl
    | false => rfl
  · rw [hbot]
    simp only [postTickHook, Program.modify_run, LivePhase.guardTriggered]
    cases e.pausedByClockSkew with
    | true => rfl
    | false => rfl

/-- The state write of a tick persists the flag of the engine. -/
theorem earned_write (s : LiveRun) (e : EngineState) (now : Instant) (price : ℚ)
    (isOpen : Bool) (hbot : s.bot = .ticking e) (h : Earned s)
    (hG : KeepsPause s (.op (.write now price isOpen)))
    (hacc : AccountOnly ⟨e, s.file⟩
      ((EngineOp.write now price isOpen).program cfg sig ⟨e, s.file⟩).state) :
    Earned
      { file := ((EngineOp.write now price isOpen).program cfg sig ⟨e, s.file⟩).state.file
        bot := .ticking ((EngineOp.write now price isOpen).program cfg sig ⟨e, s.file⟩).state.engine
        fired := s.fired || (!e.drawdownGuard.triggered &&
          ((EngineOp.write now price isOpen).program cfg sig
            ⟨e, s.file⟩).state.engine.drawdownGuard.triggered) } := by
  have hloaded := h.loaded
  have hguard := h.loadedGuard
  rw [hbot] at hloaded hguard
  simp only [KeepsPause, hbot] at hG
  refine earned_account s e _ hbot h hacc (fun hp => ?_) hguard
  -- the flag is the engine's own, or it is borrowed after the guard has triggered
  cases hskew : e.pausedByClockSkew with
  | true => exact hG hskew
  | false =>
    refine hloaded ?_
    simp only [LivePhase.ownFlag, hskew]
    exact hp

theorem earned_op (s : LiveRun) (e : EngineState) (o : EngineOp) (hbot : s.bot = .ticking e)
    (h : Earned s) (hin : o.inTick = true) (hG : KeepsPause s (.op o)) :
    Earned
      { file := (o.program cfg sig ⟨e, s.file⟩).state.file
        bot := .ticking (o.program cfg sig ⟨e, s.file⟩).state.engine
        fired := s.fired || (!e.drawdownGuard.triggered &&
          (o.program cfg sig ⟨e, s.file⟩).state.engine.drawdownGuard.triggered) } := by
  by_cases hdd : ∃ price, o = .drawdown price
  · obtain ⟨price, rfl⟩ := hdd
    exact earned_drawdown cfg s e price hbot h
  · have hacc : AccountOnly ⟨e, s.file⟩ (o.program cfg sig ⟨e, s.file⟩).state := by
      refine accountOnly_op cfg sig o (fun price hp => hdd ⟨price, hp⟩) ?_ ?_ _
      · intro inp hp
        subst hp
        cases hin
      · intro hp
        subst hp
        cases hin
    by_cases hw : ∃ now price isOpen, o = .write now price isOpen
    · obtain ⟨now, price, isOpen, rfl⟩ := hw
      exact earned_write cfg sig s e now price isOpen hbot h hG hacc
    · have hfile : fileGuardView (o.program cfg sig ⟨e, s.file⟩).state.file =
          fileGuardView s.file := by
        rcases file_op cfg sig o (fun now price isOpen hp => hw ⟨now, price, isOpen, hp⟩)
          ⟨e, s.file⟩ with hf | hf
        · rw [hf]
        · rw [hf]
          exact persistState_guardView cfg.name _ s.file
      refine earned_account s e _ hbot h hacc (fun hp => h.persisted ?_)
        fun hp => h.persistedGuard ?_
      · rw [← hfile]
        exact hp
      · rw [← hfile]
        exact hp

theorem earned_step (s : LiveRun) (l : LiveStep) (s' : LiveRun) (h : Earned s)
    (hG : KeepsPause s l) (hs : step cfg sig s l = some s') : Earned s' := by
  cases l with
  | boot initialBalanceBtc =>
    cases hbot : s.bot with
    | idle e => simp [step, hbot] at hs
    | ticking e => simp [step, hbot] at hs
    | stopped =>
      simp only [step, hbot, Option.some.injEq] at hs
      subst hs
      have hview := bootEngine_guardView initialBalanceBtc s.file
      refine ⟨h.persisted, h.persistedGuard, fun hp => h.persisted ?_, fun hp => h.persistedGuard ?_⟩
      · rw [← hview]
        exact hp
      · rw [← hview]
        exact hp
  | beginTick inp =>
    cases hbot : s.bot with
    | stopped => simp [step, hbot] at hs
    | ticking e => simp [step, hbot] at hs
    | idle e =>
      simp only [step, hbot, Option.some.injEq] at hs
      subst hs
      exact earned_beginTick s e inp hbot h
  | endTick =>
    cases hbot : s.bot with
    | stopped => simp [step, hbot] at hs
    | idle e => simp [step, hbot] at hs
    | ticking e =>
      simp only [step, hbot, Option.some.injEq] at hs
      subst hs
      exact earned_endTick s e hbot h
  | stop =>
    cases hbot : s.bot with
    | stopped => simp [step, hbot] at hs
    | ticking e => simp [step, hbot] at hs
    | idle e =>
      simp only [step, hbot, Option.some.injEq] at hs
      subst hs
      exact earned_stopped s _ h (markStopped_guardView s.file)
  | crash =>
    simp only [step, Option.some.injEq] at hs
    subst hs
    exact earned_stopped s s.file h rfl
  | reset doc =>
    simp only [step, Option.some.injEq] at hs
    subst hs
    obtain ⟨hflag, hguard⟩ := hG
    refine ⟨?_, ?_, fun hp => ?_, fun hp => ?_⟩
    · intro hp
      cases hp
    · intro hp
      cases hp
    · have hown : s.bot.ownFlag = true := hp
      rw [hflag] at hown
      cases hown
    · have hown : s.bot.guardTriggered = true := hp
      rw [hguard] at hown
      cases hown
  | op o =>
    cases hbot : s.bot with
    | stopped => simp [step, hbot] at hs
    | idle e => simp [step, hbot] at hs
    | ticking e =>
      simp only [step, hbot] at hs
      split at hs
      · rename_i hin
        simp only [Option.some.injEq] at hs
        subst hs
        exact earned_op cfg sig s e o hbot h hin hG
      · cases hs

/-- In a run whose state writes keep to the condition a pause is always earned. -/
theorem pauseEarned_run (ls : List LiveStep) (s : LiveRun)
    (hG : Machine.Guarded (step cfg sig) KeepsPause initial ls)
    (hrun : Machine.run (step cfg sig) initial ls = some s) : PauseEarned s := by
  have h := Machine.run_invariant (step cfg sig) (fun _ => True) KeepsPause Earned
    (fun s l s' _ hI hl hs => earned_step cfg sig s l s' hI hl hs) initial s ls earned_initial
    (fun _ _ => trivial) hG hrun
  exact ⟨h.persisted, h.loaded⟩

/-- A state write of a tick with a wrong clock breaks it while the guard has not triggered. -/
theorem not_pauseEarned_write (s s' : LiveRun) (e : EngineState) (now : Instant) (price : ℚ)
    (isOpen : Bool) (hbot : s.bot = .ticking e) (hborrowed : e.pausedByDrawdown = true)
    (hguard : e.drawdownGuard.triggered = false) (hfired : s.fired = false)
    (hs : step cfg sig s (.op (.write now price isOpen)) = some s') : ¬ PauseEarned s' := by
  have hin : (EngineOp.write now price isOpen).inTick = true := rfl
  simp only [step, hbot, hin, if_true, Option.some.injEq] at hs
  subst hs
  intro h
  have hearned := h.persisted hborrowed
  have hstill : (s.fired || (!e.drawdownGuard.triggered && e.drawdownGuard.triggered)) = true :=
    hearned
  rw [hfired, hguard] at hstill
  cases hstill

/-! ### A tick is such a run -/

/-- Operations between the hooks, as steps. -/
theorem run_ops (ops : List EngineOp) (h : ∀ op ∈ ops, op.inTick = true) (w : World) (fired : Bool) :
    ∃ fired', Machine.run (step cfg sig) ⟨w.file, .ticking w.engine, fired⟩ (ops.map .op) =
      some ⟨(Program.runAll (EngineOp.program cfg sig) ops w).2.file,
        .ticking (Program.runAll (EngineOp.program cfg sig) ops w).2.engine, fired'⟩ := by
  induction ops generalizing w fired with
  | nil => exact ⟨fired, rfl⟩
  | cons op ops ih =>
    have hin := h op List.mem_cons_self
    obtain ⟨fired', hrun⟩ := ih (fun o ho => h o (List.mem_cons_of_mem op ho))
      (op.program cfg sig w).state
      (fired || (!w.engine.drawdownGuard.triggered &&
        (op.program cfg sig w).state.engine.drawdownGuard.triggered))
    refine ⟨fired', ?_⟩
    have hstep : step cfg sig ⟨w.file, .ticking w.engine, fired⟩ (.op op) =
        some ⟨(op.program cfg sig w).state.file, .ticking (op.program cfg sig w).state.engine,
          fired || (!w.engine.drawdownGuard.triggered &&
            (op.program cfg sig w).state.engine.drawdownGuard.triggered)⟩ := by
      simp only [step, hin, if_true]
    rw [List.map_cons, Machine.run_cons_eq_some]
    exact ⟨_, hstep, hrun⟩

theorem inTick_during (inp : TickInput) (price : ℚ) (op : EngineOp)
    (h : EngineOp.During inp price op) : op.inTick = true := by
  cases h with
  | takeProfit dealId => rfl
  | stopLoss dealId => rfl
  | dca dealId => rfl
  | drawdown => rfl
  | manualOpen => rfl
  | entryOpen trigger => rfl
  | sentinel s => rfl
  | write => rfl

/-- The try block of a tick is a run of operations between the hooks. -/
theorem tick_ops (inp : TickInput) (w : World) :
    ∃ ops : List EngineOp, (∀ op ∈ ops, op.inTick = true) ∧
      (tick cfg sig inp w).state =
        (postTickHook
          (Program.runAll (EngineOp.program cfg sig) ops (hooked inp w)).2).state := by
  cases ht : inp.ticker with
  | error x => exact ⟨[], by simp, (tick_run_error cfg sig inp x ht w).2⟩
  | ok t =>
    obtain ⟨ops, hops, hrun⟩ := afterTracking_runs cfg sig inp t.tickPrice
      (tracked t.tickPrice (hooked inp w))
    refine ⟨.setPrice t.tickPrice :: .trackWicks t.tickPrice :: ops, ?_, ?_⟩
    · intro op hop
      rcases List.mem_cons.mp hop with rfl | hop
      · rfl
      · rcases List.mem_cons.mp hop with rfl | hop
        · rfl
        · exact inTick_during inp t.tickPrice op (hops op hop)
    · rw [(tick_run_ok cfg sig inp t ht w).2]
      have hstate : (Program.runAll (EngineOp.program cfg sig)
          (.setPrice t.tickPrice :: .trackWicks t.tickPrice :: ops) (hooked inp w)).2 =
          (bodyAt cfg sig inp t.tickPrice w).state := by
        have htwo : (Program.runAll (EngineOp.program cfg sig)
            (.setPrice t.tickPrice :: .trackWicks t.tickPrice :: ops) (hooked inp w)).2 =
            (Program.runAll (EngineOp.program cfg sig) ops
              (tracked t.tickPrice (hooked inp w))).2 := rfl
        rw [htwo, hrun]
        rfl
      rw [hstate]

/-- A tick of an idle process is a run: the pre-tick hook, operations, the post-tick hook. -/
theorem tick_is_run (inp : TickInput) (w : World) (fired : Bool) :
    ∃ (ops : List EngineOp) (fired' : Bool),
      Machine.run (step cfg sig) ⟨w.file, .idle w.engine, fired⟩
        (.beginTick inp :: (ops.map .op ++ [.endTick])) =
        some ⟨(tick cfg sig inp w).state.file, .idle (tick cfg sig inp w).state.engine, fired'⟩ := by
  obtain ⟨ops, hin, hstate⟩ := tick_ops cfg sig inp w
  obtain ⟨fired', hrun⟩ := run_ops cfg sig ops hin (hooked inp w) fired
  refine ⟨ops, fired', ?_⟩
  rw [Machine.run_cons_eq_some]
  refine ⟨⟨w.file, .ticking (hooked inp w).engine, fired⟩, rfl, ?_⟩
  rw [Machine.run_append_eq_some]
  refine ⟨_, hrun, ?_⟩
  rw [Machine.run_cons_eq_some]
  refine ⟨_, rfl, ?_⟩
  rw [hstate]
  rfl

/-! ### A pause from a wrong clock -/

/-- One tick with a wrong clock, a crash after it, and the next boot. -/
def skewThenRestart : List LiveStep :=
  [.boot 1, .beginTick { WickTakeProfit.tickAtPrice 100 with clockOk := false },
    .op (.write 0 100 true), .endTick, .crash, .boot 1]

/-- The engine comes back paused by drawdown though its guard never triggered. -/
theorem not_pauseEarned_skewed :
    ¬ ∀ (cfg : BotConfig) (sig : Signals) (ls : List LiveStep) (s : LiveRun),
      Machine.run (step cfg sig) initial ls = some s → PauseEarned s := by
  intro h
  obtain ⟨s, hs⟩ : ∃ s, Machine.run (step (.small "live") .silent) initial skewThenRestart = some s :=
    ⟨_, rfl⟩
  have hearned := (h (.small "live") .silent skewThenRestart s hs).loaded
  cases hs
  have hfired : false = true := hearned rfl
  cases hfired

/-- The same with a right clock. -/
def rightClock : List LiveStep :=
  [.boot 1, .beginTick (WickTakeProfit.tickAtPrice 100), .op (.write 0 100 true), .endTick,
    .crash, .boot 1]

theorem pauseEarned_right_clock :
    ∃ s, Machine.run (step (.small "live") .silent) initial rightClock = some s ∧ PauseEarned s := by
  have hguarded : Machine.Guarded (step (.small "live") .silent) KeepsPause initial rightClock := by
    decide +kernel
  have hsome : (Machine.run (step (.small "live") .silent) initial rightClock).isSome = true := by
    decide +kernel
  obtain ⟨s, hs⟩ := Option.isSome_iff_exists.mp hsome
  exact ⟨s, hs, pauseEarned_run (.small "live") .silent rightClock s hguarded hs⟩

end LiveRun

end Reverto
