import Mathlib.Tactic
import Reverto.Core.EngineLife
import Reverto.Live.LiveEngine
import Reverto.Web.Portal

/-!
# The ends of an engine's loop (core/trading_engine.py, main_paper.py, main_live.py)

The loop of `start` ends by a stop request, by Ctrl-C, once `running` is false, or
by the one error a tick raises again. What each leaves in the state file, and what
`read_state` (web/app.py) makes of it until the next start.
-/

namespace Reverto

/-- How `start` ends; where it comes to `stop`, whether `mark_stopped` could write. -/
inductive LoopExit where
  | sigterm (written : Bool)
  | keyboardInterrupt (written : Bool)
  | runningFalse
  | notImplemented
  deriving DecidableEq

/-- One engine process: its whole ticks, the operations of a tick that is cut off, and the end. -/
structure EngineRun where
  ticks : List TickInput
  begun : List EngineOp
  exit : LoopExit

/-- The end is no error. -/
def LoopExit.clean : LoopExit → Bool
  | .notImplemented => false
  | _ => true

/-- The end comes to `stop`, and its write goes through. -/
def LoopExit.stops : LoopExit → Bool
  | .sigterm written => written
  | .keyboardInterrupt written => written
  | _ => false

/-- The state file after the end. -/
def LoopExit.leave (exit : LoopExit) (file : Option StateDoc) : Option StateDoc :=
  if exit.stops then some (StateDoc.markStopped file) else file

/-- The reason `read_state` stamps on a document, if any. -/
def StateDoc.exitReason (doc : StateDoc) (pidAlive heartbeatStale : Bool) : Option String :=
  if doc.running = some true ∧ (pidAlive = false ∨ heartbeatStale = true) then
    some (if pidAlive = false then "silent_exit" else "heartbeat_stale")
  else none

/-- The stop reason of a state file. -/
def fileReason (file : Option StateDoc) : Option String := file.bind StateDoc.stoppedReason

namespace TradingEngine

variable (cfg : BotConfig) (sig : Signals)

/-- `while self.running: self._tick()` -/
def loop : List TickInput → World → World
  | [], w => w
  | inp :: rest, w =>
    if w.engine.running = true then loop rest (tick cfg sig inp w).state else w

end TradingEngine

namespace EngineRun

open TradingEngine

variable (cfg : BotConfig) (sig : Signals) (initialBalanceBtc : ℚ) (file : Option StateDoc)

/-- The engine after its whole ticks. -/
def looped (r : EngineRun) : World :=
  loop cfg sig r.ticks ⟨bootEngine initialBalanceBtc file, file⟩

/-- The engine at the end of its loop. -/
def last (r : EngineRun) : World :=
  (Program.runAll (EngineOp.program cfg sig) r.begun (r.looped cfg sig initialBalanceBtc file)).2

/-- The state file it leaves. -/
def leaves (r : EngineRun) : Option StateDoc :=
  r.exit.leave (r.last cfg sig initialBalanceBtc file).file

/-- The loop may end so: it is over, or something ends it. -/
def Ends (r : EngineRun) : Prop :=
  match r.exit with
  | .runningFalse =>
    r.begun = [] ∧ (r.looped cfg sig initialBalanceBtc file).engine.running = false
  | _ => (r.looped cfg sig initialBalanceBtc file).engine.running = true

end EngineRun

/-! ### The stop reason of the file -/

namespace TradingEngine

variable (cfg : BotConfig) (sig : Signals)

/-- An operation keeps the stop reason of the file or clears it. -/
theorem fileReason_op (op : EngineOp) (w : World) :
    fileReason (op.program cfg sig w).state.file = none ∨
      fileReason (op.program cfg sig w).state.file = fileReason w.file := by
  by_cases hwrite : ∃ now price isOpen, op = .write now price isOpen
  · obtain ⟨now, price, isOpen, rfl⟩ := hwrite
    exact Or.inl rfl
  · have hother : ∀ now price isOpen, op ≠ .write now price isOpen :=
      fun now price isOpen h => hwrite ⟨now, price, isOpen, h⟩
    refine Or.inr ?_
    rcases file_op cfg sig op hother w with hfile | hfile
    · rw [hfile]
    · rw [hfile]
      cases w.file with
      | none => rfl
      | some doc => rfl

theorem fileReason_runAll (ops : List EngineOp) (w : World) :
    fileReason (Program.runAll (EngineOp.program cfg sig) ops w).2.file = none ∨
      fileReason (Program.runAll (EngineOp.program cfg sig) ops w).2.file = fileReason w.file := by
  induction ops generalizing w with
  | nil => exact Or.inr rfl
  | cons op ops ih =>
    rcases ih (op.program cfg sig w).state with hnone | hkept
    · exact Or.inl hnone
    · rw [Program.runAll, hkept]
      exact fileReason_op cfg sig op w

/-- The ticks of a loop are a run of operations. -/
theorem loop_runs (inputs : List TickInput) (w : World) :
    ∃ ops, (Program.runAll (EngineOp.program cfg sig) ops w).2 = loop cfg sig inputs w := by
  induction inputs generalizing w with
  | nil => exact ⟨[], rfl⟩
  | cons inp rest ih =>
    rw [loop]
    split
    · obtain ⟨ops, _, hops⟩ := tick_runs cfg sig inp w
      obtain ⟨more, hmore⟩ := ih (tick cfg sig inp w).state
      refine ⟨ops ++ more, ?_⟩
      rw [Program.runAll_append, hops]
      exact hmore
    · exact ⟨[], rfl⟩

end TradingEngine

namespace EngineRun

open TradingEngine

variable (cfg : BotConfig) (sig : Signals) (initialBalanceBtc : ℚ) (file : Option StateDoc)

/-- Up to its end an engine records no stop reason. -/
theorem fileReason_last (r : EngineRun) :
    fileReason (r.last cfg sig initialBalanceBtc file).file = none ∨
      fileReason (r.last cfg sig initialBalanceBtc file).file = fileReason file := by
  obtain ⟨ops, hops⟩ :=
    loop_runs cfg sig r.ticks ⟨bootEngine initialBalanceBtc file, file⟩
  have hrun := fileReason_runAll cfg sig (ops ++ r.begun) ⟨bootEngine initialBalanceBtc file, file⟩
  rw [Program.runAll_append, hops] at hrun
  exact hrun

end EngineRun

/-! ### What the portal makes of a document that says stopped -/

/-- The document a request of the portal holds. -/
def Task.document : Task → Option StateDoc
  | .closeMerged _ _ doc => some doc
  | .reconcileRead doc => some doc
  | .reconcileChecked doc _ => some doc
  | .resetRead doc => some doc
  | _ => none

namespace Portal

variable (cfg : BotConfig) (sig : Signals) (initialBalanceBtc : ℚ)

/-- The check of `read_state` is `exitReason`. -/
theorem reconcileCheck_eq (p : Portal) (n : ℕ) (stale : Bool) (doc : StateDoc)
    (h : p.tasks n = .reconcileRead doc) :
    reconcileStep p (.reconcileCheck n stale) =
      some (p.setTask n
        (match doc.exitReason p.botRunning stale with
          | some reason => .reconcileChecked doc reason
          | none => .idle)) := by
  simp only [reconcileStep, h, StateDoc.exitReason]
  split
  · rfl
  · rfl

/-- No process runs, and no document, on disk or in a request, says it does. -/
structure Settled (p : Portal) : Prop where
  bot : p.bot = .stopped
  file : ∀ doc, p.file = some doc → doc.running ≠ some true
  held : ∀ n doc, (p.tasks n).document = some doc → doc.running ≠ some true
  unchecked : ∀ n doc reason, p.tasks n ≠ .reconcileChecked doc reason

/-- A thread moves on to a task of that kind. -/
theorem settled_setTask (p : Portal) (n : ℕ) (t : Task) (h : Settled p)
    (hheld : ∀ doc, t.document = some doc → doc.running ≠ some true)
    (hunchecked : ∀ doc reason, t ≠ .reconcileChecked doc reason) : Settled (p.setTask n t) where
  bot := h.bot
  file := h.file
  held := by
    intro m doc hm
    by_cases hmn : m = n
    · subst hmn
      rw [setTask_self] at hm
      exact hheld doc hm
    · rw [setTask_of_ne p n m t hmn] at hm
      exact h.held m doc hm
  unchecked := by
    intro m doc reason hm
    by_cases hmn : m = n
    · subst hmn
      rw [setTask_self] at hm
      exact hunchecked doc reason hm
    · rw [setTask_of_ne p n m t hmn] at hm
      exact h.unchecked m doc reason hm

theorem settled_idle (p : Portal) (n : ℕ) (h : Settled p) : Settled (p.setTask n .idle) := by
  refine settled_setTask p n .idle h ?_ ?_
  · intro doc hdoc
    cases hdoc
  · intro doc reason hchecked
    cases hchecked

/-- A request ends with a document of that kind. -/
theorem settled_write (p : Portal) (n : ℕ) (doc : StateDoc) (lock : Option ℕ)
    (trace : List PortalEvent) (h : Settled p) (hdoc : doc.running ≠ some true) :
    Settled { p.setTask n .idle with file := some doc, stateLock := lock, trace := trace } := by
  have hidle := settled_idle p n h
  refine ⟨hidle.bot, ?_, hidle.held, hidle.unchecked⟩
  intro doc' hfile
  cases hfile
  exact hdoc

theorem settled_step (p p' : Portal) (l : PortalStep) (h : Settled p) (hl : l ≠ .spawn)
    (hs : step cfg sig initialBalanceBtc p l = some p') : Settled p' := by
  have hm := step_moves cfg sig initialBalanceBtc p p' l hs
  cases hm with
  | spawn hbot => exact absurd rfl hl
  | boot hbot hlock =>
    rw [h.bot] at hbot
    cases hbot
  | kill hbot => exact absurd h.bot hbot
  | stopRead e hbot =>
    rw [h.bot] at hbot
    cases hbot
  | stopWrite e read hbot =>
    rw [h.bot] at hbot
    cases hbot
  | engineOp op e hbot =>
    rw [h.bot] at hbot
    cases hbot
  | closeBegin n req htask hlock hbot =>
    have hset := settled_setTask p n (.closeLoaded req (loadPaperStateFromFile p.file)) h
      (fun doc hdoc => by cases hdoc) (fun doc reason hc => by cases hc)
    exact ⟨hset.bot, hset.file, hset.held, hset.unchecked⟩
  | closeRefused n now req state e htask haccept =>
    have hset := settled_idle p n h
    exact ⟨hset.bot, hset.file, hset.held, hset.unchecked⟩
  | closeAct n now req state deal htask haccept =>
    exact settled_setTask p n _ h (fun doc hdoc => by cases hdoc) (fun doc reason hc => by cases hc)
  | closeMerge n req state htask =>
    refine settled_setTask p n _ h ?_ (fun doc reason hc => by cases hc)
    intro doc hdoc
    cases hdoc
    cases hfile : p.file with
    | none => simp [DealCloseHandler.persistState]
    | some old => exact h.file old hfile
  | closeWrite n req state doc htask =>
    exact settled_write p n doc none _ h (h.held n doc (by rw [htask]; rfl))
  | reconcileRead n doc htask hfile =>
    refine settled_setTask p n _ h ?_ (fun doc reason hc => by cases hc)
    intro doc' hdoc
    cases hdoc
    exact h.file doc hfile
  | reconcileCheck n stale doc next htask hnext =>
    have hstopped := h.held n doc (by rw [htask]; rfl)
    have hreason : doc.exitReason p.botRunning stale = none := by
      simp [StateDoc.exitReason, hstopped]
    have hcheck := reconcileCheck_eq p n stale doc htask
    have hs' : reconcileStep p (.reconcileCheck n stale) = some (p.setTask n next) := hs
    rw [hcheck, hreason] at hs'
    have heq : p.setTask n .idle = p.setTask n next := Option.some.inj hs'
    rw [← heq]
    exact settled_idle p n h
  | reconcileWrite n now doc reason htask => exact absurd htask (h.unchecked n doc reason)
  | resetRead n doc htask hfile =>
    refine settled_setTask p n _ h ?_ (fun doc reason hc => by cases hc)
    intro doc' hdoc
    cases hdoc
    exact h.file doc hfile
  | resetWrite n doc htask =>
    exact settled_write p n doc.drawdownReset p.stateLock _ h
      (h.held n doc (by rw [htask]; rfl))

theorem settled_initial (file : Option StateDoc)
    (h : ∀ doc, file = some doc → doc.running ≠ some true) : Settled (initial file) where
  bot := rfl
  file := h
  held := by
    intro n doc hdoc
    cases hdoc
  unchecked := by
    intro n doc reason hc
    cases hc

end Portal

/-! ### The ends that come to `stop` -/

namespace EngineRun

open TradingEngine

variable (cfg : BotConfig) (sig : Signals) (initialBalanceBtc : ℚ) (file : Option StateDoc)

/-- A stop that goes through leaves a document that says stopped, without a reason of its own. -/
theorem leaves_stopped (r : EngineRun) (h : r.exit.stops = true) :
    ∃ doc, r.leaves cfg sig initialBalanceBtc file = some doc ∧ doc.running = some false ∧
      (doc.stoppedReason = none ∨ doc.stoppedReason = fileReason file) := by
  refine ⟨StateDoc.markStopped (r.last cfg sig initialBalanceBtc file).file, ?_, rfl, ?_⟩
  · rw [leaves, LoopExit.leave, if_pos h]
  · have hreason : (StateDoc.markStopped (r.last cfg sig initialBalanceBtc file).file).stoppedReason =
        fileReason (r.last cfg sig initialBalanceBtc file).file := by
      cases (r.last cfg sig initialBalanceBtc file).file with
      | none => rfl
      | some doc => rfl
    rw [hreason]
    exact fileReason_last cfg sig initialBalanceBtc file r

end EngineRun

/-! ### The loop that ends by itself -/

namespace TradingEngine

open LiveEngine

variable (cfg : BotConfig) (sig : Signals)

/-- After the monitoring loop a tick writes the file, whatever the guard decided. -/
theorem fromTrigger_writes (inp : TickInput) (price : ℚ) (w : World) :
    ∃ doc, (fromTrigger cfg sig inp price w).state.file = some doc ∧ doc.running = some true := by
  obtain ⟨_, w1, hmanual⟩ := Program.bind_ends _ _ (checkManualTrigger_returns cfg inp price) w
  obtain ⟨_, w2, hsentinels⟩ := Program.bind_ends _ _ (checkDealSentinels_returns cfg inp price) w1
  obtain ⟨_, w3, hentry⟩ := Program.bind_ends _ _ (entryStep_returns cfg sig inp price) w2
  have hend : (fromTrigger cfg sig inp price w).state =
      (writeState cfg inp.now price inp.isOpen w3).state :=
    hmanual.trans (hsentinels.trans hentry)
  rw [hend]
  exact ⟨_, rfl, rfl⟩

/-- A tick that stops the loop has written a document that says running. -/
theorem tick_running (inp : TickInput) (w : World) (h : w.engine.running = true) :
    (tick cfg sig inp w).state.engine.running = true ∨
      ∃ doc, (tick cfg sig inp w).state.file = some doc ∧ doc.running = some true := by
  cases ht : inp.ticker with
  | error e =>
    rw [(tick_run_error cfg sig inp e ht w).2, (postTick_running _).1, hooked_running]
    exact Or.inl h
  | ok t =>
    rw [(tick_run_ok cfg sig inp t ht w).2, (postTick_running _).1, (postTick_running _).2,
      bodyAt_run]
    cases (loopAt cfg sig inp t.tickPrice w).result with
    | ok _ => exact Or.inr (fromTrigger_writes cfg sig inp t.tickPrice _)
    | error e =>
      obtain ⟨s, fees, price, hloop⟩ := loopAt_accountOnly cfg sig inp t.tickPrice w
      refine Or.inl ?_
      show (loopAt cfg sig inp t.tickPrice w).state.engine.running = true
      rw [hloop]
      show (hooked inp w).engine.running = true
      rw [hooked_running]
      exact h

theorem loop_running (inputs : List TickInput) (w : World)
    (h : w.engine.running = true ∨ ∃ doc, w.file = some doc ∧ doc.running = some true) :
    (loop cfg sig inputs w).engine.running = true ∨
      ∃ doc, (loop cfg sig inputs w).file = some doc ∧ doc.running = some true := by
  induction inputs generalizing w with
  | nil => exact h
  | cons inp rest ih =>
    rw [loop]
    split
    · rename_i hrunning
      exact ih _ (tick_running cfg sig inp w hrunning)
    · exact h

end TradingEngine

namespace EngineRun

open TradingEngine

variable (cfg : BotConfig) (sig : Signals) (initialBalanceBtc : ℚ) (file : Option StateDoc)

/-- The end that the drawdown guard brings about does not come to `stop`: the document left
says running, and a read without a process takes it for a silent exit. -/
theorem runningFalse_silent_exit (r : EngineRun) (hexit : r.exit = .runningFalse)
    (hends : r.Ends cfg sig initialBalanceBtc file) (stale : Bool) :
    ∃ doc, r.leaves cfg sig initialBalanceBtc file = some doc ∧
      doc.exitReason false stale = some "silent_exit" := by
  rw [Ends, hexit] at hends
  obtain ⟨hbegun, hover⟩ := hends
  have hboot : (bootEngine initialBalanceBtc file).running = true := by
    cases file with
    | none => rfl
    | some doc => rfl
  rcases loop_running cfg sig r.ticks ⟨bootEngine initialBalanceBtc file, file⟩ (Or.inl hboot) with
    hrunning | ⟨doc, hfile, hdoc⟩
  · have hfalse : (loop cfg sig r.ticks ⟨bootEngine initialBalanceBtc file, file⟩).engine.running =
        false := hover
    rw [hrunning] at hfalse
    cases hfalse
  · refine ⟨doc, ?_, ?_⟩
    · rw [leaves, hexit, last, hbegun]
      exact hfile
    · simp [StateDoc.exitReason, hdoc]

/-! ### A stop request after one tick -/

/-- One whole tick, and SIGTERM. -/
def stoppedBySigterm : EngineRun := ⟨[.atPrice 100], [], .sigterm true⟩

end EngineRun

end Reverto
