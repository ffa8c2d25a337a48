import Mathlib.Tactic
import Reverto.Core.EngineSteps
import Reverto.Web.Portal

/-!
# The drawdown reset (web/routes/drawdown.py)

The reset edits the state file. An engine that is loaded keeps its guard in
memory and writes it over the edit, so the reset holds in runs where no engine
is loaded at its write, and until a clock-skewed tick writes its pause.
-/

namespace Reverto

/-- The guard and the pause flag, in memory or in a file. -/
structure GuardView where
  guard : DrawdownGuard
  paused : Bool
  deriving DecidableEq

/-- What `api_drawdown_reset` writes. -/
def GuardView.clear : GuardView := ⟨DrawdownGuard.reset, false⟩

/-- The guard of an engine. -/
def EngineState.guardView (e : EngineState) : GuardView := ⟨e.drawdownGuard, e.pausedByDrawdown⟩

/-- The guard an engine takes from a state file. -/
def fileGuardView : Option StateDoc → GuardView
  | none => .clear
  | some doc => ⟨doc.drawdownGuard.getD {}, doc.pausedByDrawdown⟩

theorem bootEngine_guardView (initialBalanceBtc : ℚ) (file : Option StateDoc) :
    (bootEngine initialBalanceBtc file).guardView = fileGuardView file := by
  cases file with
  | none => rfl
  | some doc => rfl

theorem markStopped_guardView (file : Option StateDoc) :
    fileGuardView (some (StateDoc.markStopped file)) = fileGuardView file := by
  cases file with
  | none => rfl
  | some doc => rfl

/-- The close handler merges into the file and keeps the guard there. -/
theorem persistState_guardView (name : String) (s : PaperState) (file : Option StateDoc) :
    fileGuardView (some (DealCloseHandler.persistState name s file)) = fileGuardView file := by
  cases file with
  | none => rfl
  | some doc => rfl

/-! ### A guard that started clear -/

section Readings

variable (cfg : DrawdownGuardConfig)

/-- The guard started clear and has read some of the values, in order. -/
def FreshFrom (readings : List ℚ) (v : GuardView) : Prop :=
  ∃ vs, vs.Sublist readings ∧ v.guard = DrawdownGuard.reset.updates cfg vs ∧
    (v.paused = true → v.guard.triggered = true)

/-- The guard is neither triggered nor pausing, unless some of the values
trigger a guard that was reset. -/
def TriggersAnew (readings : List ℚ) (v : GuardView) : Prop :=
  v.guard.triggered = true ∨ v.paused = true →
    ∃ vs, vs.Sublist readings ∧ (DrawdownGuard.reset.updates cfg vs).triggered = true

theorem triggersAnew_of_fresh (readings : List ℚ) (v : GuardView) (h : FreshFrom cfg readings v) :
    TriggersAnew cfg readings v := by
  obtain ⟨vs, hvs, hguard, hpaused⟩ := h
  intro htriggered
  refine ⟨vs, hvs, ?_⟩
  rw [← hguard]
  rcases htriggered with h | h
  · exact h
  · exact hpaused h

theorem freshFrom_clear (readings : List ℚ) : FreshFrom cfg readings .clear :=
  ⟨[], List.nil_sublist readings, rfl, fun h => by cases h⟩

theorem freshFrom_append (readings more : List ℚ) (v : GuardView) (h : FreshFrom cfg readings v) :
    FreshFrom cfg (readings ++ more) v := by
  obtain ⟨vs, hvs, hrest⟩ := h
  exact ⟨vs, hvs.trans (List.sublist_append_left readings more), hrest⟩

end Readings

/-! ### The guard under the operations of an engine -/

namespace TradingEngine

variable (cfg : BotConfig) (sig : Signals)

/-- The guard in memory stays, and the one in the file stays or is written from memory. -/
structure GuardFrame (w w' : World) : Prop where
  memory : w'.engine.guardView = w.engine.guardView
  skew : w'.engine.pausedByClockSkew = w.engine.pausedByClockSkew
  file : fileGuardView w'.file = fileGuardView w.file ∨ fileGuardView w'.file = w.engine.guardView

theorem guardFrame_same (w w' : World) (hmem : w'.engine.guardView = w.engine.guardView)
    (hskew : w'.engine.pausedByClockSkew = w.engine.pausedByClockSkew) (hfile : w'.file = w.file) :
    GuardFrame w w' :=
  ⟨hmem, hskew, Or.inl (by rw [hfile])⟩

/-- The operations that do not feed or set the guard. -/
theorem guardFrame_op (op : EngineOp) (hdrawdown : ∀ price, op ≠ .drawdown price)
    (hpre : ∀ inp, op ≠ .preTick inp) (hpost : op ≠ .postTick) (w : World) :
    GuardFrame w (op.program cfg sig w).state := by
  have hclose : ∀ (now : Instant) (d : PaperDeal) (f : ℚ) (r : CloseReason) (t : ExitTrigger)
      (v : World), GuardFrame w v → GuardFrame w (afterClose cfg now d f r t v) :=
    fun now d f r t v h => ⟨h.memory, h.skew, h.file⟩
  have hpeak : ∀ d price t, GuardFrame w (peaked cfg d price t w) := by
    intro d price t
    unfold peaked
    split
    · exact guardFrame_same _ _ rfl rfl rfl
    · exact guardFrame_same _ _ rfl rfl rfl
  have hstep := opStep_program cfg sig op w
  generalize (op.program cfg sig w).log = l, (op.program cfg sig w).state = v at hstep ⊢
  cases hstep with
  | drawdown price => exact absurd rfl (hdrawdown price)
  | preTick inp => exact absurd rfl (hpre inp)
  | postTick => exact absurd rfl hpost
  | write now price isOpen => exact ⟨rfl, rfl, Or.inr rfl⟩
  | tookProfit c now price d v f t hd hv hf => exact hclose now d f _ _ w (guardFrame_same _ _ rfl rfl rfl)
  | peaked now price d s hd hs => exact hpeak d price s.1
  | stopped now price d s hd hs hv => exact hclose now d price _ _ _ (hpeak d price s.1)
  | acted now price d action hd hp => exact ⟨rfl, rfl, Or.inl (persistState_guardView _ _ _)⟩
  | _ => exact guardFrame_same _ _ rfl rfl rfl

/-- A reading moves the guard on by that value. -/
theorem drawdownStep_fresh (price : ℚ) (e : EngineState) (readings : List ℚ)
    (henabled : cfg.drawdownGuard.enabled = true)
    (h : FreshFrom cfg.drawdownGuard readings e.guardView) :
    FreshFrom cfg.drawdownGuard (readings ++ [drawdownReading cfg e.state price])
      (drawdownStep cfg price e).guardView := by
  obtain ⟨vs, hvs, hguard, hpaused⟩ := h
  have hsub : (vs ++ [drawdownReading cfg e.state price]).Sublist
      (readings ++ [drawdownReading cfg e.state price]) := hvs.append_right _
  have hread : e.drawdownGuard.update cfg.drawdownGuard (drawdownReading cfg e.state price)
      = DrawdownGuard.reset.updates cfg.drawdownGuard
        (vs ++ [drawdownReading cfg e.state price]) := by
    rw [DrawdownGuard.updates_append_one, ← hguard]
    rfl
  refine ⟨_, hsub, ?_, ?_⟩
  · rw [← hread]
    simp only [drawdownStep, henabled, Bool.not_true, Bool.false_eq_true, if_false]
    split <;> rfl
  · simp only [drawdownStep, henabled, Bool.not_true, Bool.false_eq_true, if_false]
    split
    · rename_i hnone
      intro hp
      -- a guard that is already pausing was triggered before the reading
      have hbefore : e.drawdownGuard.triggered = true := hpaused hp
      exact DrawdownGuard.update_keeps_triggered _ _ _ hbefore
    · rename_i hfired
      intro _
      simp only [Bool.or_eq_true, Bool.not_eq_true', not_or, Bool.not_eq_false] at hfired
      exact hfired.1

theorem drawdownStep_skew (price : ℚ) (e : EngineState) :
    (drawdownStep cfg price e).pausedByClockSkew = e.pausedByClockSkew := by
  unfold drawdownStep
  split
  · rfl
  · dsimp only
    split <;> rfl

end TradingEngine

namespace Portal

open TradingEngine

variable (cfg : BotConfig) (sig : Signals) (initialBalanceBtc : ℚ)

/-- The value a step feeds to the guard. -/
def guardReading (p : Portal) : PortalStep → List ℚ
  | .engineOp (.drawdown price) =>
    match p.bot with
    | .running e => if cfg.drawdownGuard.enabled then [drawdownReading cfg e.state price] else []
    | _ => []
  | _ => []

/-- A bot and the values its guard has read since the last reset, if there was one. -/
structure Watched where
  portal : Portal
  readings : Option (List ℚ)

/-- A step, with what the guard reads on record. -/
def Watched.step (s : Watched) (l : PortalStep) : Option Watched :=
  (Portal.step cfg sig initialBalanceBtc s.portal l).map fun p =>
    ⟨p, match l with
      | .resetWrite _ => some []
      | _ => s.readings.map fun rs => rs ++ s.portal.guardReading cfg l⟩

/-- A stopped bot before its first reset. -/
def Watched.initial (file : Option StateDoc) : Watched := ⟨Portal.initial file, none⟩

/-- Since the last reset the guard, in a running engine and in an engine loaded
from the file, is clear or was triggered by values it read after the reset. -/
def ResetKept (s : Watched) : Prop :=
  ∀ rs, s.readings = some rs →
    (∀ e, s.portal.bot = .running e → TriggersAnew cfg.drawdownGuard rs e.guardView) ∧
      TriggersAnew cfg.drawdownGuard rs (bootEngine initialBalanceBtc s.portal.file).guardView

/-- The bot process has nothing in memory that it could write over a reset. -/
def NothingToClear : BotProcess → Prop
  | .stopped | .starting => True
  | .running e => e.guardView = .clear ∧ e.pausedByClockSkew = false
  | .stopping _ read => fileGuardView read = .clear

/-- Resets meet no loaded guard, and no tick after a reset has a skewed clock. -/
def ResetReaches (s : Watched) : PortalStep → Prop
  | .resetWrite _ => NothingToClear s.portal.bot
  | .engineOp (.preTick inp) => s.readings ≠ none → inp.clockOk = true
  | _ => True

/-- Resets, the engine and its process; no offline closes or reconciles. -/
def ResetStep : PortalStep → Prop
  | .closeBegin .. | .closeAct .. | .closeMerge _ | .closeWrite _ | .reconcileRead _
  | .reconcileCheck .. | .reconcileWrite .. => False
  | _ => True

/-- Since the last reset every copy of the guard started clear. -/
structure FreshSince (s : Watched) (rs : List ℚ) : Prop where
  file : FreshFrom cfg.drawdownGuard rs (fileGuardView s.portal.file)
  memory : ∀ e, s.portal.bot = .running e →
    FreshFrom cfg.drawdownGuard rs e.guardView ∧ e.pausedByClockSkew = false
  stopping : ∀ e read, s.portal.bot = .stopping e read →
    FreshFrom cfg.drawdownGuard rs (fileGuardView read)

theorem resetKept_of_fresh (s : Watched) (h : ∀ rs, s.readings = some rs → FreshSince cfg s rs) :
    ResetKept cfg initialBalanceBtc s := by
  intro rs hrs
  have hfresh := h rs hrs
  refine ⟨fun e he => triggersAnew_of_fresh _ _ _ (hfresh.memory e he).1, ?_⟩
  rw [bootEngine_guardView]
  exact triggersAnew_of_fresh _ _ _ hfresh.file

/-- One operation of an engine whose clock is right. -/
theorem fresh_engineOp (p : Portal) (rs : List ℚ) (op : EngineOp) (e : EngineState)
    (hbot : p.bot = .running e) (hmem : FreshFrom cfg.drawdownGuard rs e.guardView)
    (hskew : e.pausedByClockSkew = false)
    (hfile : FreshFrom cfg.drawdownGuard rs (fileGuardView p.file))
    (hclock : ∀ inp, op = .preTick inp → inp.clockOk = true) :
    let w := (op.program cfg sig ⟨e, p.file⟩).state
    let rs' := rs ++ p.guardReading cfg (.engineOp op)
    FreshFrom cfg.drawdownGuard rs' w.engine.guardView ∧ w.engine.pausedByClockSkew = false ∧
      FreshFrom cfg.drawdownGuard rs' (fileGuardView w.file) := by
  intro w rs'
  have hgrow := freshFrom_append cfg.drawdownGuard rs (p.guardReading cfg (.engineOp op))
  have hframe : GuardFrame ⟨e, p.file⟩ w →
      FreshFrom cfg.drawdownGuard rs' w.engine.guardView ∧ w.engine.pausedByClockSkew = false ∧
      FreshFrom cfg.drawdownGuard rs' (fileGuardView w.file) := by
    intro hf
    refine ⟨?_, hf.skew.trans hskew, ?_⟩
    · rw [hf.memory]
      exact hgrow _ hmem
    · rcases hf.file with h | h
      · rw [h]
        exact hgrow _ hfile
      · rw [h]
        exact hgrow _ hmem
  by_cases hop : (∃ price, op = .drawdown price) ∨ (∃ inp, op = .preTick inp) ∨ op = .postTick
  · rcases hop with ⟨price, rfl⟩ | ⟨inp, rfl⟩ | rfl
    · refine ⟨?_, (drawdownStep_skew cfg price e).trans hskew, hgrow _ hfile⟩
      by_cases henabled : cfg.drawdownGuard.enabled = true
      · have hreading : p.guardReading cfg (.engineOp (.drawdown price))
            = [drawdownReading cfg e.state price] := by
          simp only [guardReading, hbot, henabled, if_true]
        have hread := drawdownStep_fresh cfg price e rs henabled hmem
        simp only [rs', hreading]
        exact hread
      · have hidle : drawdownStep cfg price e = e := by
          simp only [drawdownStep, henabled, Bool.not_false, if_true]
        have hw : w.engine = e := hidle
        rw [hw]
        exact hgrow _ hmem
    · have hok := hclock inp rfl
      have hw : w = ⟨{ e with pausedByClockSkew := false }, p.file⟩ := by
        simp only [w, EngineOp.program, preTickHook, Program.modify_run, hok, if_true]
      rw [hw]
      exact ⟨hgrow _ hmem, rfl, hgrow _ hfile⟩
    · have hw : w = ⟨e, p.file⟩ := by
        simp only [w, EngineOp.program, postTickHook, Program.modify_run, hskew]
        rfl
      rw [hw]
      exact ⟨hgrow _ hmem, hskew, hgrow _ hfile⟩
  · simp only [not_or, not_exists] at hop
    exact hframe (guardFrame_op cfg sig op hop.1 hop.2.1 hop.2.2 ⟨e, p.file⟩)

/-- A bot without a loaded engine. -/
theorem freshSince_unloaded (s : Watched) (rs : List ℚ)
    (hfile : FreshFrom cfg.drawdownGuard rs (fileGuardView s.portal.file))
    (hrun : ∀ e, s.portal.bot ≠ .running e) (hstop : ∀ e read, s.portal.bot ≠ .stopping e read) :
    FreshSince cfg s rs :=
  ⟨hfile, fun e he => absurd he (hrun e), fun e read he => absurd he (hstop e read)⟩

/-- Right after a reset. -/
theorem freshSince_reset (p : Portal) (n : ℕ) (doc : StateDoc) (hG : NothingToClear p.bot) :
    FreshSince cfg
      ⟨{ p.setTask n .idle with
          file := some doc.drawdownReset
          trace := p.trace ++ [.drawdownReset] }, some []⟩ [] where
  file := freshFrom_clear _ _
  memory := by
    intro e he
    have hbot : p.bot = .running e := he
    rw [hbot] at hG
    obtain ⟨hclear, hskew⟩ := hG
    rw [hclear]
    exact ⟨freshFrom_clear _ _, hskew⟩
  stopping := by
    intro e read he
    have hbot : p.bot = .stopping e read := he
    rw [hbot] at hG
    have hclear : fileGuardView read = .clear := hG
    rw [hclear]
    exact freshFrom_clear _ _

theorem freshSince_step (s : Watched) (l : PortalStep) (s' : Watched) (hl : ResetStep l)
    (h : ∀ rs, s.readings = some rs → FreshSince cfg s rs) (hG : ResetReaches s l)
    (hstep : Watched.step cfg sig initialBalanceBtc s l = some s') :
    ∀ rs, s'.readings = some rs → FreshSince cfg s' rs := by
  obtain ⟨p', hp', rfl⟩ := Option.map_eq_some_iff.mp hstep
  have hm := step_moves cfg sig initialBalanceBtc s.portal p' l hp'
  intro rs' hrs'
  cases hm with
  | resetWrite n doc htask =>
    cases hrs'
    exact freshSince_reset cfg s.portal n doc hG
  | engineOp op e hbot =>
    obtain ⟨rs, hrs, rfl⟩ := Option.map_eq_some_iff.mp hrs'
    have hfresh := h rs hrs
    obtain ⟨hmem, hskew⟩ := hfresh.memory e hbot
    have hclock : ∀ inp, op = .preTick inp → inp.clockOk = true := by
      rintro inp rfl
      exact hG (by rw [hrs]; exact Option.some_ne_none rs)
    obtain ⟨hmem', hskew', hfile'⟩ :=
      fresh_engineOp cfg sig s.portal rs op e hbot hmem hskew hfresh.file hclock
    refine ⟨hfile', fun e' he' => ?_, fun e' read he' => by cases he'⟩
    cases he'
    exact ⟨hmem', hskew'⟩
  | spawn hbot =>
    obtain ⟨rs, hrs, rfl⟩ := Option.map_eq_some_iff.mp hrs'
    exact freshSince_unloaded cfg _ _ (freshFrom_append _ _ _ _ (h rs hrs).file)
      (fun e he => by cases he) fun e read he => by cases he
  | kill hbot =>
    obtain ⟨rs, hrs, rfl⟩ := Option.map_eq_some_iff.mp hrs'
    exact freshSince_unloaded cfg _ _ (freshFrom_append _ _ _ _ (h rs hrs).file)
      (fun e he => by cases he) fun e read he => by cases he
  | boot hbot hlock =>
    obtain ⟨rs, hrs, rfl⟩ := Option.map_eq_some_iff.mp hrs'
    have hfile := freshFrom_append cfg.drawdownGuard rs [] _ (h rs hrs).file
    refine ⟨hfile, fun e he => ?_, fun e read he => by cases he⟩
    cases he
    rw [bootEngine_guardView]
    refine ⟨hfile, ?_⟩
    cases s.portal.file with
    | none => rfl
    | some doc => rfl
  | stopRead e hbot =>
    obtain ⟨rs, hrs, rfl⟩ := Option.map_eq_some_iff.mp hrs'
    have hfile := freshFrom_append cfg.drawdownGuard rs [] _ (h rs hrs).file
    refine ⟨hfile, ?_, ?_⟩
    · intro e' he
      cases he
    · intro e' read' he
      cases he
      exact hfile
  | stopWrite e read hbot =>
    obtain ⟨rs, hrs, rfl⟩ := Option.map_eq_some_iff.mp hrs'
    have hread := freshFrom_append cfg.drawdownGuard rs [] _ ((h rs hrs).stopping e read hbot)
    refine freshSince_unloaded cfg _ _ ?_ (fun e he => by cases he) fun e read he => by cases he
    rw [markStopped_guardView]
    exact hread
  | resetRead n doc htask hfile =>
    obtain ⟨rs, hrs, rfl⟩ := Option.map_eq_some_iff.mp hrs'
    have hfresh := h rs hrs
    have hnone : s.portal.guardReading cfg (.resetRead n) = [] := rfl
    rw [hnone, List.append_nil]
    exact ⟨hfresh.file, hfresh.memory, hfresh.stopping⟩
  | closeBegin n req htask hfree hbot => exact absurd hl id
  | closeRefused n now req state e htask haccept => exact absurd hl id
  | closeAct n now req state deal htask haccept => exact absurd hl id
  | closeMerge n req state htask => exact absurd hl id
  | closeWrite n req state doc htask => exact absurd hl id
  | reconcileRead n doc htask hfile => exact absurd hl id
  | reconcileCheck n stale doc next htask hnext => exact absurd hl id
  | reconcileWrite n now doc reason htask => exact absurd hl id

/-- In a run whose resets meet no loaded guard, and without clock-skewed ticks
after a reset, every reset takes effect. -/
theorem resetKept_run (file : Option StateDoc) (ls : List PortalStep) (s : Watched)
    (hls : ∀ l ∈ ls, ResetStep l)
    (hG : Machine.Guarded (Watched.step cfg sig initialBalanceBtc) ResetReaches
      (Watched.initial file) ls)
    (hrun : Machine.run (Watched.step cfg sig initialBalanceBtc) (Watched.initial file) ls
      = some s) :
    ResetKept cfg initialBalanceBtc s := by
  have hfresh := Machine.run_invariant _ ResetStep ResetReaches
    (fun s => ∀ rs, s.readings = some rs → FreshSince cfg s rs)
    (fun s l s' => freshSince_step cfg sig initialBalanceBtc s l s') (Watched.initial file) s ls
    (fun rs hrs => by cases hrs) hls hG hrun
  exact resetKept_of_fresh cfg initialBalanceBtc s hfresh

/-- A reset under a running engine whose guard is triggered or pausing does not
take effect. -/
theorem not_resetKept_of_running (s s' : Watched) (n : ℕ) (e : EngineState)
    (hbot : s.portal.bot = .running e)
    (htriggered : e.drawdownGuard.triggered = true ∨ e.pausedByDrawdown = true)
    (hstep : Watched.step cfg sig initialBalanceBtc s (.resetWrite n) = some s') :
    ¬ ResetKept cfg initialBalanceBtc s' := by
  obtain ⟨p', hp', rfl⟩ := Option.map_eq_some_iff.mp hstep
  have hm := step_moves cfg sig initialBalanceBtc s.portal p' _ hp'
  intro hkept
  cases hm with
  | resetWrite n doc htask =>
    obtain ⟨vs, hvs, hnew⟩ := (hkept [] rfl).1 e hbot htriggered
    cases List.sublist_nil.mp hvs
    cases hnew

instance (b : BotProcess) : Decidable (NothingToClear b) :=
  match b with
  | .stopped | .starting => .isTrue trivial
  | .running e => inferInstanceAs (Decidable (e.guardView = .clear ∧ _))
  | .stopping _ read => inferInstanceAs (Decidable (fileGuardView read = .clear))

instance (s : Watched) : ∀ l, Decidable (ResetReaches s l)
  | .resetWrite _ => inferInstanceAs (Decidable (NothingToClear s.portal.bot))
  | .engineOp (.preTick _) => inferInstanceAs (Decidable (s.readings ≠ none → _))
  | .engineOp (.setPrice _) | .engineOp (.trackWicks _) | .engineOp (.takeProfit ..)
  | .engineOp (.stopLoss ..) | .engineOp (.dca ..) | .engineOp (.drawdown _)
  | .engineOp (.open ..) | .engineOp (.sentinel ..) | .engineOp (.write ..)
  | .engineOp (.logError _) | .engineOp .postTick
  | .spawn | .boot | .kill | .stopRead | .stopWrite | .closeBegin .. | .closeAct ..
  | .closeMerge _ | .closeWrite _ | .reconcileRead _ | .reconcileCheck .. | .reconcileWrite ..
  | .resetRead _ => .isTrue trivial

/-- A bot that pauses when its balance is 10% below the peak. -/
def guardedBot : BotConfig :=
  { BotConfig.ofBaseOrder "guarded" 250 (by norm_num) with drawdownGuard := .onBalance }

/-- The guard reads a balance of 1 BTC, and of 0.85 BTC after the entry fee. -/
def guardFires : List PortalStep :=
  [.spawn, .boot, .engineOp (.drawdown 50000),
    .engineOp (.open 0 (.accepted "202501010000-0001") 50000 none),
    .engineOp (.drawdown 50000), .engineOp (.write 1 50000 true)]

/-- A reset of the running bot leaves the guard triggered. -/
theorem resetKept_running :
    ¬ ∀ (cfg : BotConfig) (sig : Signals) (initialBalanceBtc : ℚ) (file : Option StateDoc)
      (ls : List PortalStep) (s : Watched), (∀ l ∈ ls, ResetStep l) →
      Machine.run (Watched.step cfg sig initialBalanceBtc) (Watched.initial file) ls = some s →
      ResetKept cfg initialBalanceBtc s := by
  intro h
  have hend : ∃ s ∈ Machine.run (Watched.step guardedBot .silent 1) (Watched.initial none)
      (guardFires ++ [.resetRead 0, .resetWrite 0]), s.readings = some [] ∧
      (match s.portal.bot with
        | .running e => e.drawdownGuard.triggered
        | _ => false) = true := by
    decide +kernel
  obtain ⟨s, hrun, hreadings, htriggered⟩ := hend
  have hsteps : ∀ l ∈ guardFires ++ [.resetRead 0, .resetWrite 0], ResetStep l := by
    simp [guardFires, ResetStep]
  have hkept := h guardedBot .silent 1 none _ s hsteps hrun
  cases hbot : s.portal.bot with
  | running e =>
    rw [hbot] at htriggered
    obtain ⟨vs, hvs, hnew⟩ := (hkept [] hreadings).1 e hbot (Or.inl htriggered)
    cases List.sublist_nil.mp hvs
    cases hnew
  | _ => simp [hbot] at htriggered

/-- A reset after the bot ended, and the bot started again. -/
theorem resetKept_stopped :
    ∃ s, Machine.run (Watched.step guardedBot .silent 1) (Watched.initial none)
        (guardFires ++ [.kill, .resetRead 0, .resetWrite 0, .spawn, .boot,
          .engineOp (.drawdown 50000)]) = some s ∧ ResetKept guardedBot 1 s := by
  have hsome : (Machine.run (Watched.step guardedBot .silent 1) (Watched.initial none)
      (guardFires ++ [.kill, .resetRead 0, .resetWrite 0, .spawn, .boot,
        .engineOp (.drawdown 50000)])).isSome = true := by
    decide +kernel
  obtain ⟨s, hrun⟩ := Option.isSome_iff_exists.mp hsome
  refine ⟨s, hrun, resetKept_run guardedBot .silent 1 none _ s ?_ ?_ hrun⟩
  · simp [guardFires, ResetStep]
  · decide +kernel

end Portal

end Reverto
