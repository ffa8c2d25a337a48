import Mathlib.Tactic
import Reverto.Core.EngineOps
import Reverto.Lib.Machine

/-!
# The portal and a bot process around one state file

The readers and writers of one bot's `state.json`: the bot subprocess
(main_paper.py, core/trading_engine.py), the offline close (web/routes/deals.py),
the silent-exit reconcile of `read_state` (web/app.py) and the drawdown reset
(web/routes/drawdown.py). The requests of the portal run in threads, so each is
a task that takes one step at a time; a write replaces the file as a whole.
-/

namespace Reverto

/-- The bot subprocess. Its pid file is written before the engine is built. -/
inductive BotProcess where
  | stopped
  | starting
  | running (engine : EngineState)
  | stopping (engine : EngineState) (read : Option StateDoc)
  deriving DecidableEq

/-- A request to close or cancel a deal. -/
structure CloseRequest where
  dealId : String
  currentPrice : ℚ
  action : CloseAction
  deriving DecidableEq, Repr

/-- A request of the portal between two of its steps. -/
inductive Task where
  | idle
  | closeLoaded (req : CloseRequest) (state : PaperState)
  | closeActed (req : CloseRequest) (state : PaperState)
  | closeMerged (req : CloseRequest) (state : PaperState) (doc : StateDoc)
  | reconcileRead (doc : StateDoc)
  | reconcileChecked (doc : StateDoc) (reason : String)
  | resetRead (doc : StateDoc)
  deriving DecidableEq

/-- An offline close between its load and its end. -/
def Task.closing : Task → Bool
  | .closeLoaded .. | .closeActed .. | .closeMerged .. => true
  | _ => false

/-- What has happened: events of the engine, and requests that returned success. -/
inductive PortalEvent where
  | engine (event : EngineEvent)
  | dealClosedOffline (dealId : String)
  | drawdownReset
  deriving DecidableEq

/-- One bot with everything around its state file. -/
structure Portal where
  file : Option StateDoc
  bot : BotProcess
  stateLock : Option ℕ
  tasks : ℕ → Task
  trace : List PortalEvent

/-- The steps. The number of a step is the thread of the request. -/
inductive PortalStep where
  | spawn
  | boot
  | kill
  | stopRead
  | stopWrite
  | engineOp (op : EngineOp)
  | closeBegin (thread : ℕ) (req : CloseRequest)
  | closeAct (thread : ℕ) (now : Instant)
  | closeMerge (thread : ℕ)
  | closeWrite (thread : ℕ)
  | reconcileRead (thread : ℕ)
  | reconcileCheck (thread : ℕ) (heartbeatStale : Bool)
  | reconcileWrite (thread : ℕ) (now : Instant)
  | resetRead (thread : ℕ)
  | resetWrite (thread : ℕ)

/-- The document `_persist_silent_exit_reconcile` writes back. -/
def StateDoc.reconciled (doc : StateDoc) (reason : String) (now : Instant) : StateDoc :=
  { doc with
    running := some false
    currentPrice := 0
    stoppedAt := some now
    stoppedReason := some reason }

/-- The document `api_drawdown_reset` writes back. -/
def StateDoc.drawdownReset (doc : StateDoc) : StateDoc :=
  { doc with
    drawdownGuard := some {}
    pausedByDrawdown := false }

namespace Portal

variable (cfg : BotConfig) (sig : Signals) (initialBalanceBtc : ℚ)

/-- The task of a thread moves on. -/
def setTask (p : Portal) (thread : ℕ) (t : Task) : Portal :=
  { p with tasks := Function.update p.tasks thread t }

/-- `BotInfo.running`: the pid file names a live process. -/
def botRunning (p : Portal) : Bool := decide (p.bot ≠ .stopped)

/-- One step of the bot subprocess. -/
def botStep (p : Portal) : PortalStep → Option Portal
  | .spawn => if p.bot = .stopped then some { p with bot := .starting } else none
  | .boot =>
    -- `_load_state` runs while the subprocess holds the state lock
    if p.bot = .starting ∧ p.stateLock = none then
      some { p with bot := .running (bootEngine initialBalanceBtc p.file) }
    else none
  | .kill => if p.bot ≠ .stopped then some { p with bot := .stopped } else none
  | .stopRead =>
    match p.bot with
    | .running e => some { p with bot := .stopping e p.file }
    | _ => none
  | .stopWrite =>
    match p.bot with
    | .stopping _ read => some { p with bot := .stopped, file := some (StateDoc.markStopped read) }
    | _ => none
  | .engineOp op =>
    match p.bot with
    | .running e =>
      let o := op.program cfg sig ⟨e, p.file⟩
      some
        { p with
          bot := .running o.state.engine
          file := o.state.file
          trace := p.trace ++ o.log.map .engine }
    | _ => none
  | _ => none

/-- One step of `_close_deal_offline`; the state lock is held from the first to the last. -/
def closeStep (p : Portal) : PortalStep → Option Portal
  | .closeBegin thread req =>
    if p.tasks thread = .idle ∧ p.stateLock = none ∧ p.botRunning = false then
      some { p.setTask thread (.closeLoaded req (loadPaperStateFromFile p.file)) with
        stateLock := some thread }
    else none
  | .closeAct thread now =>
    match p.tasks thread with
    | .closeLoaded req state =>
      match DealCloseHandler.accept state req.dealId req.currentPrice with
      | .error _ => some { p.setTask thread .idle with stateLock := none }
      | .ok deal =>
        some (p.setTask thread (.closeActed req
          (DealCloseHandler.actState cfg.dca.takerFee state deal req.currentPrice now req.action)))
    | _ => none
  | .closeMerge thread =>
    match p.tasks thread with
    | .closeActed req state =>
      some (p.setTask thread
        (.closeMerged req state (DealCloseHandler.persistState cfg.name state p.file)))
    | _ => none
  | .closeWrite thread =>
    match p.tasks thread with
    | .closeMerged req _ doc =>
      some
        { p.setTask thread .idle with
          file := some doc
          stateLock := none
          trace := p.trace ++ [.dealClosedOffline req.dealId] }
    | _ => none
  | _ => none

/-- One step of `read_state` on a document that says the bot is running. -/
def reconcileStep (p : Portal) : PortalStep → Option Portal
  | .reconcileRead thread =>
    match p.tasks thread, p.file with
    | .idle, some doc => some (p.setTask thread (.reconcileRead doc))
    | _, _ => none
  | .reconcileCheck thread heartbeatStale =>
    match p.tasks thread with
    | .reconcileRead doc =>
      if doc.running = some true ∧ (p.botRunning = false ∨ heartbeatStale = true) then
        some (p.setTask thread (.reconcileChecked doc
          (if p.botRunning = false then "silent_exit" else "heartbeat_stale")))
      else some (p.setTask thread .idle)
    | _ => none
  | .reconcileWrite thread now =>
    match p.tasks thread with
    | .reconcileChecked doc reason =>
      some { p.setTask thread .idle with file := some (doc.reconciled reason now) }
    | _ => none
  | _ => none

/-- One step of `api_drawdown_reset`. -/
def resetStep (p : Portal) : PortalStep → Option Portal
  | .resetRead thread =>
    match p.tasks thread, p.file with
    | .idle, some doc => some (p.setTask thread (.resetRead doc))
    | _, _ => none
  | .resetWrite thread =>
    match p.tasks thread with
    | .resetRead doc =>
      some
        { p.setTask thread .idle with
          file := some doc.drawdownReset
          trace := p.trace ++ [.drawdownReset] }
    | _ => none
  | _ => none

/-- One step of the system, if it is enabled. -/
def step (p : Portal) (l : PortalStep) : Option Portal :=
  match l with
  | .closeBegin .. | .closeAct .. | .closeMerge .. | .closeWrite .. => closeStep cfg p l
  | .reconcileRead .. | .reconcileCheck .. | .reconcileWrite .. => reconcileStep p l
  | .resetRead .. | .resetWrite .. => resetStep p l
  | _ => botStep cfg sig initialBalanceBtc p l

/-- No process and no request, and some state file. -/
def initial (file : Option StateDoc) : Portal := ⟨file, .stopped, none, fun _ => .idle, []⟩

@[simp] theorem setTask_file (p : Portal) (n : ℕ) (t : Task) : (p.setTask n t).file = p.file := rfl

@[simp] theorem setTask_bot (p : Portal) (n : ℕ) (t : Task) : (p.setTask n t).bot = p.bot := rfl

@[simp] theorem setTask_stateLock (p : Portal) (n : ℕ) (t : Task) :
    (p.setTask n t).stateLock = p.stateLock := rfl

@[simp] theorem setTask_trace (p : Portal) (n : ℕ) (t : Task) :
    (p.setTask n t).trace = p.trace := rfl

@[simp] theorem setTask_self (p : Portal) (n : ℕ) (t : Task) : (p.setTask n t).tasks n = t :=
  Function.update_self ..

theorem setTask_of_ne (p : Portal) (n m : ℕ) (t : Task) (h : m ≠ n) :
    (p.setTask n t).tasks m = p.tasks m := Function.update_of_ne h _ _

/-! ### What a step can do -/

/-- The enabled steps and the states they lead to. -/
inductive Moves (p : Portal) : PortalStep → Portal → Prop
  | spawn (hbot : p.bot = .stopped) : Moves p .spawn { p with bot := .starting }
  | boot (hbot : p.bot = .starting) (hlock : p.stateLock = none) :
      Moves p .boot { p with bot := .running (bootEngine initialBalanceBtc p.file) }
  | kill (hbot : p.bot ≠ .stopped) : Moves p .kill { p with bot := .stopped }
  | stopRead (e : EngineState) (hbot : p.bot = .running e) :
      Moves p .stopRead { p with bot := .stopping e p.file }
  | stopWrite (e : EngineState) (read : Option StateDoc) (hbot : p.bot = .stopping e read) :
      Moves p .stopWrite { p with bot := .stopped, file := some (StateDoc.markStopped read) }
  | engineOp (op : EngineOp) (e : EngineState) (hbot : p.bot = .running e) :
      Moves p (.engineOp op)
        { p with
          bot := .running (op.program cfg sig ⟨e, p.file⟩).state.engine
          file := (op.program cfg sig ⟨e, p.file⟩).state.file
          trace := p.trace ++ (op.program cfg sig ⟨e, p.file⟩).log.map .engine }
  | closeBegin (n : ℕ) (req : CloseRequest) (htask : p.tasks n = .idle)
      (hlock : p.stateLock = none) (hbot : p.bot = .stopped) :
      Moves p (.closeBegin n req)
        { p.setTask n (.closeLoaded req (loadPaperStateFromFile p.file)) with
          stateLock := some n }
  | closeRefused (n : ℕ) (now : Instant) (req : CloseRequest) (state : PaperState)
      (e : CloseError) (htask : p.tasks n = .closeLoaded req state)
      (haccept : DealCloseHandler.accept state req.dealId req.currentPrice = .error e) :
      Moves p (.closeAct n now) { p.setTask n .idle with stateLock := none }
  | closeAct (n : ℕ) (now : Instant) (req : CloseRequest) (state : PaperState)
      (deal : PaperDeal) (htask : p.tasks n = .closeLoaded req state)
      (haccept : DealCloseHandler.accept state req.dealId req.currentPrice = .ok deal) :
      Moves p (.closeAct n now)
        (p.setTask n (.closeActed req
          (DealCloseHandler.actState cfg.dca.takerFee state deal req.currentPrice now req.action)))
  | closeMerge (n : ℕ) (req : CloseRequest) (state : PaperState)
      (htask : p.tasks n = .closeActed req state) :
      Moves p (.closeMerge n)
        (p.setTask n (.closeMerged req state (DealCloseHandler.persistState cfg.name state p.file)))
  | closeWrite (n : ℕ) (req : CloseRequest) (state : PaperState) (doc : StateDoc)
      (htask : p.tasks n = .closeMerged req state doc) :
      Moves p (.closeWrite n)
        { p.setTask n .idle with
          file := some doc
          stateLock := none
          trace := p.trace ++ [.dealClosedOffline req.dealId] }
  | reconcileRead (n : ℕ) (doc : StateDoc) (htask : p.tasks n = .idle)
      (hfile : p.file = some doc) :
      Moves p (.reconcileRead n) (p.setTask n (.reconcileRead doc))
  | reconcileCheck (n : ℕ) (stale : Bool) (doc : StateDoc) (next : Task)
      (htask : p.tasks n = .reconcileRead doc)
      (hnext : next = .idle ∨ ∃ reason, next = .reconcileChecked doc reason) :
      Moves p (.reconcileCheck n stale) (p.setTask n next)
  | reconcileWrite (n : ℕ) (now : Instant) (doc : StateDoc) (reason : String)
      (htask : p.tasks n = .reconcileChecked doc reason) :
      Moves p (.reconcileWrite n now)
        { p.setTask n .idle with file := some (doc.reconciled reason now) }
  | resetRead (n : ℕ) (doc : StateDoc) (htask : p.tasks n = .idle) (hfile : p.file = some doc) :
      Moves p (.resetRead n) (p.setTask n (.resetRead doc))
  | resetWrite (n : ℕ) (doc : StateDoc) (htask : p.tasks n = .resetRead doc) :
      Moves p (.resetWrite n)
        { p.setTask n .idle with
          file := some doc.drawdownReset
          trace := p.trace ++ [.drawdownReset] }

theorem botStep_moves (p p' : Portal) (l : PortalStep)
    (h : botStep cfg sig initialBalanceBtc p l = some p') :
    Moves cfg sig initialBalanceBtc p l p' := by
  cases l with
  | spawn =>
    obtain ⟨hbot, hp⟩ := Option.ite_none_right_eq_some.mp h
    cases hp
    exact .spawn hbot
  | boot =>
    obtain ⟨⟨hbot, hlock⟩, hp⟩ := Option.ite_none_right_eq_some.mp h
    cases hp
    exact .boot hbot hlock
  | kill =>
    obtain ⟨hbot, hp⟩ := Option.ite_none_right_eq_some.mp h
    cases hp
    exact .kill hbot
  | stopRead =>
    cases hbot : p.bot with
    | running e =>
      simp only [botStep, hbot] at h
      cases h
      exact .stopRead e hbot
    | _ => simp [botStep, hbot] at h
  | stopWrite =>
    cases hbot : p.bot with
    | stopping e read =>
      simp only [botStep, hbot] at h
      cases h
      exact .stopWrite e read hbot
    | _ => simp [botStep, hbot] at h
  | engineOp op =>
    cases hbot : p.bot with
    | running e =>
      simp only [botStep, hbot] at h
      cases h
      exact .engineOp op e hbot
    | _ => simp [botStep, hbot] at h
  | _ => cases h

theorem closeStep_moves (p p' : Portal) (l : PortalStep) (h : closeStep cfg p l = some p') :
    Moves cfg sig initialBalanceBtc p l p' := by
  cases l with
  | closeBegin n req =>
    obtain ⟨⟨htask, hlock, hbot⟩, hp⟩ := Option.ite_none_right_eq_some.mp h
    cases hp
    have hstopped : p.bot = .stopped := by simpa [botRunning] using hbot
    exact .closeBegin n req htask hlock hstopped
  | closeAct n now =>
    cases htask : p.tasks n with
    | closeLoaded req state =>
      cases haccept : DealCloseHandler.accept state req.dealId req.currentPrice with
      | error e =>
        simp only [closeStep, htask, haccept] at h
        cases h
        exact .closeRefused n now req state e htask haccept
      | ok deal =>
        simp only [closeStep, htask, haccept] at h
        cases h
        exact .closeAct n now req state deal htask haccept
    | _ => simp [closeStep, htask] at h
  | closeMerge n =>
    cases htask : p.tasks n with
    | closeActed req state =>
      simp only [closeStep, htask] at h
      cases h
      exact .closeMerge n req state htask
    | _ => simp [closeStep, htask] at h
  | closeWrite n =>
    cases htask : p.tasks n with
    | closeMerged req state doc =>
      simp only [closeStep, htask] at h
      cases h
      exact .closeWrite n req state doc htask
    | _ => simp [closeStep, htask] at h
  | _ => cases h

theorem reconcileStep_moves (p p' : Portal) (l : PortalStep) (h : reconcileStep p l = some p') :
    Moves cfg sig initialBalanceBtc p l p' := by
  cases l with
  | reconcileRead n =>
    cases htask : p.tasks n with
    | idle =>
      cases hfile : p.file with
      | none => simp [reconcileStep, htask, hfile] at h
      | some doc =>
        simp only [reconcileStep, htask, hfile] at h
        cases h
        exact .reconcileRead n doc htask hfile
    | _ => simp [reconcileStep, htask] at h
  | reconcileCheck n stale =>
    cases htask : p.tasks n with
    | reconcileRead doc =>
      simp only [reconcileStep, htask] at h
      split at h
      · cases h
        exact .reconcileCheck n stale doc _ htask (Or.inr ⟨_, rfl⟩)
      · cases h
        exact .reconcileCheck n stale doc _ htask (Or.inl rfl)
    | _ => simp [reconcileStep, htask] at h
  | reconcileWrite n now =>
    cases htask : p.tasks n with
    | reconcileChecked doc reason =>
      simp only [reconcileStep, htask] at h
      cases h
      exact .reconcileWrite n now doc reason htask
    | _ => simp [reconcileStep, htask] at h
  | _ => cases h

theorem resetStep_moves (p p' : Portal) (l : PortalStep) (h : resetStep p l = some p') :
    Moves cfg sig initialBalanceBtc p l p' := by
  cases l with
  | resetRead n =>
    cases htask : p.tasks n with
    | idle =>
      cases hfile : p.file with
      | none => simp [resetStep, htask, hfile] at h
      | some doc =>
        simp only [resetStep, htask, hfile] at h
        cases h
        exact .resetRead n doc htask hfile
    | _ => simp [resetStep, htask] at h
  | resetWrite n =>
    cases htask : p.tasks n with
    | resetRead doc =>
      simp only [resetStep, htask] at h
      cases h
      exact .resetWrite n doc htask
    | _ => simp [resetStep, htask] at h
  | _ => cases h

/-- Every step is one of the moves. -/
theorem step_moves (p p' : Portal) (l : PortalStep)
    (h : step cfg sig initialBalanceBtc p l = some p') :
    Moves cfg sig initialBalanceBtc p l p' := by
  cases l with
  | closeBegin n req => exact closeStep_moves cfg sig initialBalanceBtc p p' _ h
  | closeAct n now => exact closeStep_moves cfg sig initialBalanceBtc p p' _ h
  | closeMerge n => exact closeStep_moves cfg sig initialBalanceBtc p p' _ h
  | closeWrite n => exact closeStep_moves cfg sig initialBalanceBtc p p' _ h
  | reconcileRead n => exact reconcileStep_moves cfg sig initialBalanceBtc p p' _ h
  | reconcileCheck n stale => exact reconcileStep_moves cfg sig initialBalanceBtc p p' _ h
  | reconcileWrite n now => exact reconcileStep_moves cfg sig initialBalanceBtc p p' _ h
  | resetRead n => exact resetStep_moves cfg sig initialBalanceBtc p p' _ h
  | resetWrite n => exact resetStep_moves cfg sig initialBalanceBtc p p' _ h
  | spawn => exact botStep_moves cfg sig initialBalanceBtc p p' _ h
  | boot => exact botStep_moves cfg sig initialBalanceBtc p p' _ h
  | kill => exact botStep_moves cfg sig initialBalanceBtc p p' _ h
  | stopRead => exact botStep_moves cfg sig initialBalanceBtc p p' _ h
  | stopWrite => exact botStep_moves cfg sig initialBalanceBtc p p' _ h
  | engineOp op => exact botStep_moves cfg sig initialBalanceBtc p p' _ h

/-! ### The state lock -/

/-- Offline closes exclude each other and a loaded engine. -/
structure LockHeld (p : Portal) : Prop where
  holder : ∀ n, (p.tasks n).closing = true → p.stateLock = some n
  excluded : p.stateLock ≠ none → ∀ e, p.bot ≠ .running e

theorem lockHeld_initial (file : Option StateDoc) : LockHeld (initial file) where
  holder := fun n h => absurd h (by simp [initial, Task.closing])
  excluded := fun h => absurd rfl h

/-- A thread moves on without touching the lock or the bot. -/
theorem lockHeld_setTask (p : Portal) (n : ℕ) (t : Task) (h : LockHeld p)
    (ht : t.closing = true → p.stateLock = some n) : LockHeld (p.setTask n t) where
  holder := by
    intro m hm
    by_cases hmn : m = n
    · subst hmn
      rw [setTask_self] at hm
      exact ht hm
    · rw [setTask_of_ne p n m t hmn] at hm
      exact h.holder m hm
  excluded := h.excluded

/-- The holder lets go of the lock. -/
theorem lockHeld_release (p : Portal) (n : ℕ) (h : LockHeld p)
    (hn : (p.tasks n).closing = true) : LockHeld { p.setTask n .idle with stateLock := none } where
  holder := by
    intro m hm
    by_cases hmn : m = n
    · subst hmn
      have hidle := setTask_self p m .idle
      have hm' : ((p.setTask m .idle).tasks m).closing = true := hm
      rw [hidle] at hm'
      cases hm'
    · have hm' : ((p.setTask n .idle).tasks m).closing = true := hm
      rw [setTask_of_ne p n m _ hmn] at hm'
      have hboth := (h.holder m hm').symm.trans (h.holder n hn)
      exact absurd (Option.some.inj hboth) hmn
  excluded := fun hne => absurd rfl hne

theorem lockHeld_step (p p' : Portal) (l : PortalStep) (h : LockHeld p)
    (hm : Moves cfg sig initialBalanceBtc p l p') : LockHeld p' := by
  cases hm with
  | spawn hbot => exact ⟨h.holder, fun _ e he => by cases he⟩
  | boot hbot hlock => exact ⟨h.holder, fun hne => absurd hlock hne⟩
  | kill hbot => exact ⟨h.holder, fun _ e he => by cases he⟩
  | stopRead e hbot => exact ⟨h.holder, fun _ e he => by cases he⟩
  | stopWrite e read hbot => exact ⟨h.holder, fun _ e he => by cases he⟩
  | engineOp op e hbot => exact ⟨h.holder, fun hne => absurd hbot (h.excluded hne e)⟩
  | closeBegin n req htask hlock hbot =>
    refine ⟨fun m hm => ?_, fun _ e he => ?_⟩
    · by_cases hmn : m = n
      · rw [hmn]
      · have hm' : ((p.setTask n _).tasks m).closing = true := hm
        rw [setTask_of_ne p n m _ hmn] at hm'
        have hheld := h.holder m hm'
        rw [hlock] at hheld
        cases hheld
    · have he' : p.bot = .running e := he
      rw [hbot] at he'
      cases he'
  | closeRefused n now req state e htask haccept =>
    exact lockHeld_release p n h (by rw [htask]; rfl)
  | closeAct n now req state deal htask haccept =>
    exact lockHeld_setTask p n _ h fun _ => h.holder n (by rw [htask]; rfl)
  | closeMerge n req state htask =>
    exact lockHeld_setTask p n _ h fun _ => h.holder n (by rw [htask]; rfl)
  | closeWrite n req state doc htask =>
    have hfree := lockHeld_release p n h (by rw [htask]; rfl)
    exact ⟨hfree.holder, hfree.excluded⟩
  | reconcileRead n doc htask hfile => exact lockHeld_setTask p n _ h fun hc => by cases hc
  | reconcileCheck n stale doc next htask hnext =>
    refine lockHeld_setTask p n _ h fun hc => ?_
    rcases hnext with rfl | ⟨reason, rfl⟩
    · cases hc
    · cases hc
  | reconcileWrite n now doc reason htask =>
    have hidle := lockHeld_setTask p n .idle h fun hc => by cases hc
    exact ⟨hidle.holder, hidle.excluded⟩
  | resetRead n doc htask hfile => exact lockHeld_setTask p n _ h fun hc => by cases hc
  | resetWrite n doc htask =>
    have hidle := lockHeld_setTask p n .idle h fun hc => by cases hc
    exact ⟨hidle.holder, hidle.excluded⟩

end Portal

end Reverto
