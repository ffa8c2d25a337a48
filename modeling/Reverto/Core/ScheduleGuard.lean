import Mathlib.Tactic
import Reverto.Core.WickTakeProfit

/-!
# Trading schedule (core/schedule_guard.py, ScheduleConfig of config/models.py)

`is_open` and `_next_open` on the strings of the configuration, and the tick of
an engine that evaluates its schedule. Times and dates are compared as strings,
as the source does.
-/

namespace Reverto

/-- `ScheduleWindow` -/
structure ScheduleWindow where
  days : List String
  fromTime : String
  toTime : String
  deriving DecidableEq, Repr

/-- `ScheduleConfig`; the timezone is the one the local times are given in. -/
structure ScheduleConfig where
  enabled : Bool := false
  tradingWindows : List ScheduleWindow := []
  blackoutDates : List String := []
  deriving DecidableEq, Repr

/-- `strftime("%Y-%m-%d")` and `weekday()` of a day. -/
structure CalendarDay where
  date : String
  weekday : ℕ
  deriving DecidableEq, Repr

/-- A moment in the configured timezone: the day `n` days ahead of it, and
`strftime("%H:%M")`. -/
structure LocalTime where
  day : ℕ → CalendarDay
  time : String

namespace ScheduleGuard

/-- `DAY_MAP[d]` -/
def dayMap (d : String) : Except PyError ℕ :=
  if d = "mon" then .ok 0
  else if d = "tue" then .ok 1
  else if d = "wed" then .ok 2
  else if d = "thu" then .ok 3
  else if d = "fri" then .ok 4
  else if d = "sat" then .ok 5
  else if d = "sun" then .ok 6
  else .error .keyError

/-- `[DAY_MAP[d.lower()] for d in window.days]` -/
def windowDays (window : ScheduleWindow) : Except PyError (List ℕ) :=
  window.days.mapM fun d => dayMap d.toLower

/-- `_time_in_window`; a window whose end is before its start spans midnight. -/
def timeInWindow (current ft tt : String) : Bool :=
  if ft ≤ tt then decide (ft ≤ current ∧ current ≤ tt)
  else decide (ft ≤ current ∨ current ≤ tt)

/-- The loop of `is_open` over the windows. -/
def inSomeWindow (now : LocalTime) : List ScheduleWindow → Except PyError Bool
  | [] => .ok false
  | window :: rest => do
    let days ← windowDays window
    if (now.day 0).weekday ∈ days ∧ timeInWindow now.time window.fromTime window.toTime = true then
      pure true
    else inSomeWindow now rest

/-- `is_open` -/
def isOpen (schedule : ScheduleConfig) (now : LocalTime) : Except PyError Bool :=
  if (now.day 0).date ∈ schedule.blackoutDates then .ok false
  else if schedule.tradingWindows = [] then .ok true
  else inSomeWindow now schedule.tradingWindows

/-- The windows of one day in `_next_open`. -/
def nextOpenDay (now : LocalTime) (ahead : ℕ) : List ScheduleWindow → Except PyError (Option String)
  | [] => .ok none
  | window :: rest => do
    let days ← windowDays window
    if (now.day ahead).weekday ∈ days ∧ (ahead = 0 → now.time < window.fromTime) then
      pure (some ((now.day ahead).date ++ " " ++ window.fromTime))
    else nextOpenDay now ahead rest

/-- The loop of `_next_open` over the days. -/
def nextOpenFrom (schedule : ScheduleConfig) (now : LocalTime) : List ℕ → Except PyError String
  | [] => .ok "No upcoming trading window found"
  | ahead :: rest =>
    if (now.day ahead).date ∈ schedule.blackoutDates then nextOpenFrom schedule now rest
    else do
      match ← nextOpenDay now ahead schedule.tradingWindows with
      | some opening => pure opening
      | none => nextOpenFrom schedule now rest

/-- `_next_open` -/
def nextOpen (schedule : ScheduleConfig) (now : LocalTime) : Except PyError String :=
  nextOpenFrom schedule now (List.range 8)

/-- `status(is_open=...)["next_open"]` -/
def status (schedule : ScheduleConfig) (now : LocalTime) : Except PyError String :=
  nextOpen schedule now

/-- `_check_schedule_transition`: a change of the verdict asks for the status;
returns the new `_last_schedule_state`. -/
def checkScheduleTransition (schedule : ScheduleConfig) (now : LocalTime) (last : Option Bool)
    (isOpen : Bool) : Except PyError (Option Bool) :=
  match last with
  | none => .ok (some isOpen)
  | some before =>
    if isOpen = before then .ok (some isOpen)
    else do
      let _ ← status schedule now
      pure (some isOpen)

end ScheduleGuard

/-! ### The tick of an engine with a schedule -/

/-- An engine with its `_last_schedule_state`. -/
structure ScheduledEngine where
  world : World
  lastScheduleState : Option Bool

/-- A method of an engine with a schedule. -/
abbrev ScheduledM := Program PyError EngineEvent ScheduledEngine

/-- The clock as `is_open` and, a moment later, `status` read it. -/
structure ScheduleClock where
  atIsOpen : LocalTime
  atStatus : LocalTime

namespace ScheduledEngine

/-- The engine in another world. -/
def setWorld (w : World) (s : ScheduledEngine) : ScheduledEngine := { s with world := w }

/-- A method that leaves `_last_schedule_state` alone. -/
def onWorld {α : Type} (m : EngineM α) : ScheduledM α := Program.zoom world setWorld m

theorem onWorld_bind {α β : Type} (m : EngineM α) (f : α → EngineM β) :
    onWorld (m >>= f) = onWorld m >>= fun a => onWorld (f a) :=
  Program.zoom_bind world setWorld (fun _ _ => rfl) (fun _ _ _ => rfl) m f

variable (cfg : BotConfig) (sig : Signals) (schedule : ScheduleConfig) (clock : ScheduleClock)

open TradingEngine

/-- `_check_schedule_transition` on the engine. -/
def checkTransition (isOpen : Bool) : ScheduledM Unit := do
  let s ← Program.get
  let last ← Program.lift
    (ScheduleGuard.checkScheduleTransition schedule clock.atStatus s.lastScheduleState isOpen)
  Program.modify fun s => { s with lastScheduleState := last }

/-- The body of `_tick` once the price is known. -/
def tickAt (inp : TickInput) (price : ℚ) : ScheduledM Unit := do
  onWorld (Program.modify fun w => { w with engine := { w.engine with currentPrice := price } })
  let isOpen ← Program.lift (ScheduleGuard.isOpen schedule clock.atIsOpen)
  checkTransition schedule clock isOpen
  onWorld (monitorOpenDeals cfg sig inp.candles inp.now price)
  onWorld (updateDrawdownGuard cfg price)
  onWorld (checkManualTrigger cfg inp.now inp price)
  onWorld (checkDealSentinels cfg inp.now inp price)
  onWorld (entryStep cfg sig { inp with isOpen := isOpen } price)
  onWorld (writeState cfg inp.now price isOpen)

/-- The `try` block of `_tick`. Its last statement is the state write. -/
def tryBlock (inp : TickInput) : ScheduledM Unit :=
  Program.lift inp.ticker >>= fun ticker => tickAt cfg sig schedule clock inp ticker.tickPrice

/-- `_tick` -/
def tick (inp : TickInput) : ScheduledM Unit := do
  onWorld (preTickHook inp)
  Program.handle (tryBlock cfg sig schedule clock inp) fun e => Program.emit (.tickError e)
  onWorld postTickHook

/-! ### A tick by what its schedule evaluates to -/

/-- The schedule as the tick evaluates it: `is_open`, then the transition check. -/
def evaluate (last : Option Bool) : Except PyError Bool := do
  let isOpen ← ScheduleGuard.isOpen schedule clock.atIsOpen
  let _ ← ScheduleGuard.checkScheduleTransition schedule clock.atStatus last isOpen
  pure isOpen

/-- The engine once the price is set. -/
def priced (price : ℚ) (w : World) : World :=
  { w with engine := { w.engine with currentPrice := price } }

theorem checkScheduleTransition_ok (now : LocalTime) (last next : Option Bool) (isOpen : Bool)
    (h : ScheduleGuard.checkScheduleTransition schedule now last isOpen = .ok next) :
    next = some isOpen := by
  unfold ScheduleGuard.checkScheduleTransition at h
  cases last with
  | none =>
    cases h
    rfl
  | some before =>
    simp only at h
    split at h
    · cases h
      rfl
    · cases hs : ScheduleGuard.status schedule now with
      | error e =>
        rw [hs] at h
        cases h
      | ok opening =>
        rw [hs] at h
        cases h
        rfl

/-- `is_open` and the transition check of a tick. -/
def evaluateStep : ScheduledM Bool := do
  let isOpen ← Program.lift (ScheduleGuard.isOpen schedule clock.atIsOpen)
  checkTransition schedule clock isOpen
  pure isOpen

theorem evaluateStep_run (s : ScheduledEngine) :
    evaluateStep schedule clock s =
      match evaluate schedule clock s.lastScheduleState with
      | .error e => ⟨.error e, [], s⟩
      | .ok isOpen => ⟨.ok isOpen, [], { s with lastScheduleState := some isOpen }⟩ := by
  unfold evaluateStep evaluate
  cases ho : ScheduleGuard.isOpen schedule clock.atIsOpen with
  | error e => rfl
  | ok isOpen =>
    simp only [Program.lift_ok, Program.pure_bind, checkTransition, Program.bind_assoc,
      Program.get_bind_run]
    cases ht : ScheduleGuard.checkScheduleTransition schedule clock.atStatus s.lastScheduleState
        isOpen with
    | error e =>
      simp only [bind, Except.bind, ht]
      rfl
    | ok next =>
      have hnext := checkScheduleTransition_ok schedule clock.atStatus _ next isOpen ht
      subst hnext
      simp only [bind, Except.bind, ht]
      rfl

/-- What a tick does once its schedule is evaluated. -/
def afterEvaluation (inp : TickInput) (price : ℚ) : EngineM Unit := do
  monitorOpenDeals cfg sig inp.candles inp.now price
  afterMonitoring cfg sig inp price

theorem tickAt_eq (inp : TickInput) (price : ℚ) :
    tickAt cfg sig schedule clock inp price =
      onWorld (Program.modify (priced price)) >>= fun _ =>
        evaluateStep schedule clock >>= fun isOpen =>
          onWorld (afterEvaluation cfg sig { inp with isOpen := isOpen } price) := by
  simp only [tickAt, evaluateStep, afterEvaluation, afterMonitoring, onWorld_bind,
    Program.bind_assoc, Program.pure_bind]
  rfl

/-- A schedule that cannot be evaluated ends the tick before a deal is monitored;
otherwise the tick is that of an engine whose schedule has this verdict. -/
theorem tickAt_run (inp : TickInput) (price : ℚ) (s : ScheduledEngine) :
    tickAt cfg sig schedule clock inp price s =
      match evaluate schedule clock s.lastScheduleState with
      | .error e => ⟨.error e, [], s.setWorld (priced price s.world)⟩
      | .ok isOpen =>
        onWorld (TradingEngine.tickAt cfg sig { inp with isOpen := isOpen } price)
          { s with lastScheduleState := some isOpen } := by
  rw [tickAt_eq]
  have hpriced : onWorld (Program.modify (priced price)) s =
      ⟨.ok (), [], s.setWorld (priced price s.world)⟩ := rfl
  have hstep := evaluateStep_run schedule clock (s.setWorld (priced price s.world))
  have hlast : (s.setWorld (priced price s.world)).lastScheduleState = s.lastScheduleState := rfl
  rw [hlast] at hstep
  rw [Program.bind_ok _ _ s () (by rw [hpriced]), hpriced]
  cases he : evaluate schedule clock s.lastScheduleState with
  | error e =>
    rw [he] at hstep
    rw [Program.bind_error _ _ _ e (by rw [hstep]), hstep]
    rfl
  | ok isOpen =>
    rw [he] at hstep
    rw [Program.bind_ok _ _ _ isOpen (by rw [hstep]), hstep]
    rfl

/-! ### The schedule gates only new entries -/

/-- The engine the `try` block of a tick starts from. -/
def hooked (inp : TickInput) (s : ScheduledEngine) : ScheduledEngine :=
  s.setWorld (TradingEngine.hooked inp s.world)

/-- The tick gets to its state write. -/
def WritesState (inp : TickInput) (s : ScheduledEngine) : Prop :=
  (tryBlock cfg sig schedule clock inp (hooked inp s)).result = .ok ()

/-- At this time and after this verdict the schedule gates only new entries: in
every engine the tick manages the open deals and writes the state as it would
without a schedule, and a disabled schedule blocks no entry. -/
structure GatesEntriesOnly (last : Option Bool) : Prop where
  sameManagement : ∀ cfg sig inp w,
    (tick cfg sig schedule clock inp ⟨w, last⟩).log.filter isManagement =
      (tick cfg sig {} clock inp ⟨w, last⟩).log.filter isManagement
  keepsWrite : ∀ cfg sig inp w, WritesState cfg sig {} clock inp ⟨w, last⟩ →
    WritesState cfg sig schedule clock inp ⟨w, last⟩
  disabledOpen : schedule.enabled = false → ∀ cfg sig inp w,
    (tick cfg sig schedule clock inp ⟨w, last⟩).log.filter isEntry =
      (tick cfg sig {} clock inp ⟨w, last⟩).log.filter isEntry

theorem tick_log (inp : TickInput) (s : ScheduledEngine) :
    (tick cfg sig schedule clock inp s).log =
      (tryBlock cfg sig schedule clock inp (hooked inp s)).log ++
        (match (tryBlock cfg sig schedule clock inp (hooked inp s)).result with
          | .ok _ => []
          | .error e => [.tickError e]) := by
  have htick : tick cfg sig schedule clock inp s =
      (Program.handle (tryBlock cfg sig schedule clock inp)
          (fun e => Program.emit (.tickError e)) >>= fun _ => onWorld postTickHook)
        (hooked inp s) := rfl
  cases hr : (tryBlock cfg sig schedule clock inp (hooked inp s)).result with
  | ok _ =>
    have hb := Program.handle_ok _ (fun e => (Program.emit (.tickError e) : ScheduledM Unit)) _ () hr
    rw [htick, Program.bind_ok _ _ _ () (by rw [hb, hr]), hb]
    rfl
  | error e =>
    have hb := Program.handle_error _ (fun e => (Program.emit (.tickError e) : ScheduledM Unit)) _
      e hr
    rw [htick, Program.bind_ok _ _ _ () (by rw [hb]; rfl), hb]
    exact List.append_nil _

theorem tryBlock_ok (inp : TickInput) (t : Ticker) (h : inp.ticker = .ok t) (s : ScheduledEngine)
    (isOpen : Bool) (hev : evaluate schedule clock s.lastScheduleState = .ok isOpen) :
    (tryBlock cfg sig schedule clock inp s).result =
        (TradingEngine.tickAt cfg sig { inp with isOpen := isOpen } t.tickPrice s.world).result ∧
      (tryBlock cfg sig schedule clock inp s).log =
        (TradingEngine.tickAt cfg sig { inp with isOpen := isOpen } t.tickPrice s.world).log := by
  have hrun : tryBlock cfg sig schedule clock inp s =
      tickAt cfg sig schedule clock inp t.tickPrice s := by
    simp only [tryBlock, h, Program.lift_ok, Program.pure_bind]
  rw [hrun, tickAt_run, hev]
  exact ⟨rfl, rfl⟩

theorem tryBlock_error (inp : TickInput) (t : Ticker) (h : inp.ticker = .ok t)
    (s : ScheduledEngine) (e : PyError)
    (hev : evaluate schedule clock s.lastScheduleState = .error e) :
    tryBlock cfg sig schedule clock inp s =
      ⟨.error e, [], s.setWorld (priced t.tickPrice s.world)⟩ := by
  have hrun : tryBlock cfg sig schedule clock inp s =
      tickAt cfg sig schedule clock inp t.tickPrice s := by
    simp only [tryBlock, h, Program.lift_ok, Program.pure_bind]
  rw [hrun, tickAt_run, hev]

/-- The verdict of the schedule changes neither how the body of a tick ends nor
what it does about the open deals. -/
theorem tickAt_isOpen (inp : TickInput) (price : ℚ) (a b : Bool) (w : World) :
    (TradingEngine.tickAt cfg sig { inp with isOpen := a } price w).result =
        (TradingEngine.tickAt cfg sig { inp with isOpen := b } price w).result ∧
      (TradingEngine.tickAt cfg sig { inp with isOpen := a } price w).log.filter isManagement =
        (TradingEngine.tickAt cfg sig { inp with isOpen := b } price w).log.filter isManagement := by
  have hrun : ∀ o, TradingEngine.tickAt cfg sig { inp with isOpen := o } price w =
      (monitorDeals cfg sig inp.candles inp.now price 0
          ((tracked price w).engine.state.openDeals.items.map PaperDeal.id) >>= fun _ =>
        afterMonitoring cfg sig { inp with isOpen := o } price) (tracked price w) := by
    intro o
    rw [TradingEngine.tickAt_run, afterTracking_run]
  have hquiet : ∀ o v, (afterMonitoring cfg sig { inp with isOpen := o } price v).log.filter
      isManagement = [] := by
    intro o v
    rw [List.filter_eq_nil_iff]
    intro e he
    have hm := afterMonitoring_noManagement cfg sig { inp with isOpen := o } price v e he
    simp [hm]
  rw [hrun a, hrun b]
  generalize monitorDeals cfg sig inp.candles inp.now price 0
    ((tracked price w).engine.state.openDeals.items.map PaperDeal.id) = loop
  cases hloop : (loop (tracked price w)).result with
  | error e =>
    rw [Program.bind_error _ _ _ e hloop, Program.bind_error _ _ _ e hloop]
    exact ⟨rfl, rfl⟩
  | ok u =>
    rw [Program.bind_ok _ _ _ u hloop, Program.bind_ok _ _ _ u hloop]
    obtain ⟨_, ha⟩ := afterMonitoring_returns cfg sig { inp with isOpen := a } price
      (loop (tracked price w)).state
    obtain ⟨_, hb⟩ := afterMonitoring_returns cfg sig { inp with isOpen := b } price
      (loop (tracked price w)).state
    refine ⟨ha.trans hb.symm, ?_⟩
    simp only [List.filter_append, hquiet]

theorem nextOpenDay_none (now : LocalTime) (ahead : ℕ) :
    ScheduleGuard.nextOpenDay now ahead [] = .ok none := rfl

/-- Without windows and blackout dates the schedule is open and always evaluates. -/
theorem evaluate_empty (last : Option Bool) : evaluate {} clock last = .ok true := by
  have hnext : ∀ days, ScheduleGuard.nextOpenFrom {} clock.atStatus days =
      .ok "No upcoming trading window found" := by
    intro days
    induction days with
    | nil => rfl
    | cons ahead days ih =>
      simp only [ScheduleGuard.nextOpenFrom, List.not_mem_nil, if_false, nextOpenDay_none]
      exact ih
  have htransition : ScheduleGuard.checkScheduleTransition {} clock.atStatus last true =
      .ok (some true) := by
    cases last with
    | none => rfl
    | some before =>
      cases before with
      | true => rfl
      | false =>
        simp only [ScheduleGuard.checkScheduleTransition, ScheduleGuard.status,
          ScheduleGuard.nextOpen, hnext]
        rfl
  simp only [evaluate, ScheduleGuard.isOpen, List.not_mem_nil, if_false, if_true]
  simp only [bind, Except.bind, htransition]
  rfl

theorem writesState_iff (inp : TickInput) (t : Ticker) (h : inp.ticker = .ok t) (w : World)
    (last : Option Bool) (isOpen : Bool) (hev : evaluate schedule clock last = .ok isOpen) :
    WritesState cfg sig schedule clock inp ⟨w, last⟩ ↔
      (TradingEngine.tickAt cfg sig { inp with isOpen := isOpen } t.tickPrice
        (TradingEngine.hooked inp w)).result = .ok () := by
  rw [WritesState, (tryBlock_ok cfg sig schedule clock inp t h (hooked inp ⟨w, last⟩) isOpen hev).1]
  rfl

/-- The events of a tick that satisfy `p`, where `p` ignores the log of an exception. -/
theorem tick_filter (p : EngineEvent → Bool) (hp : ∀ e, p (.tickError e) = false) (inp : TickInput)
    (s : ScheduledEngine) :
    (tick cfg sig schedule clock inp s).log.filter p =
      (tryBlock cfg sig schedule clock inp (hooked inp s)).log.filter p := by
  rw [tick_log, List.filter_append]
  cases (tryBlock cfg sig schedule clock inp (hooked inp s)).result with
  | ok _ => exact List.append_nil _
  | error e => simp [hp]

theorem tryBlock_noTicker (inp : TickInput) (e : PyError) (h : inp.ticker = .error e)
    (s : ScheduledEngine) : tryBlock cfg sig schedule clock inp s = ⟨.error e, [], s⟩ := by
  simp only [tryBlock, h]
  rfl

/-- The body of a tick of a fresh engine that is asked to enter at 100. -/
def probeBody (isOpen : Bool) : Program.Outcome PyError EngineEvent World Unit :=
  TradingEngine.tickAt (.small "entry") .silent
    { WickTakeProfit.tickAtPrice 100 with isOpen := isOpen } (⟨100, 100, 100, none⟩ : Ticker).tickPrice
    (TradingEngine.hooked (WickTakeProfit.tickAtPrice 100) (freshWorld 1))

theorem probeBody_run (isOpen : Bool) :
    (probeBody isOpen).result = .ok () ∧
      (probeBody isOpen).log.filter isEntry =
        if isOpen then [.opened "202501010000-0001" 100] else [] := by
  cases isOpen with
  | true => decide +kernel
  | false => decide +kernel

/-- Once its schedule is evaluated a fresh engine writes its state, and it
enters when the schedule is open. -/
theorem probe_tick (last : Option Bool) (isOpen : Bool)
    (hev : evaluate schedule clock last = .ok isOpen) :
    WritesState (.small "entry") .silent schedule clock (WickTakeProfit.tickAtPrice 100)
        ⟨freshWorld 1, last⟩ ∧
      (tick (.small "entry") .silent schedule clock (WickTakeProfit.tickAtPrice 100)
        ⟨freshWorld 1, last⟩).log.filter isEntry =
          if isOpen then [.opened "202501010000-0001" 100] else [] := by
  have hticker : (WickTakeProfit.tickAtPrice 100).ticker = .ok ⟨100, 100, 100, none⟩ := by
    simp only [WickTakeProfit.tickAtPrice]
  have hblock := tryBlock_ok (.small "entry") .silent schedule clock (WickTakeProfit.tickAtPrice 100)
    ⟨100, 100, 100, none⟩ hticker
    (hooked (WickTakeProfit.tickAtPrice 100) ⟨freshWorld 1, last⟩) isOpen hev
  have hbody := probeBody_run isOpen
  rw [tick_filter _ _ _ _ _ (fun _ => rfl), WritesState, hblock.1, hblock.2]
  exact hbody

/-- The schedule gates only new entries exactly when it can be evaluated and,
where it is disabled, is open. -/
theorem gatesEntriesOnly_iff (last : Option Bool) :
    GatesEntriesOnly schedule clock last ↔
      ∃ isOpen, evaluate schedule clock last = .ok isOpen ∧
        (schedule.enabled = false → isOpen = true) := by
  constructor
  · intro h
    have hempty := evaluate_empty clock last
    cases hev : evaluate schedule clock last with
    | error e =>
      -- a tick that would have written its state does not
      have hticker : (WickTakeProfit.tickAtPrice 100).ticker = .ok ⟨100, 100, 100, none⟩ := by
        simp only [WickTakeProfit.tickAtPrice]
      have hwrites := h.keepsWrite (.small "entry") .silent (WickTakeProfit.tickAtPrice 100)
        (freshWorld 1) (probe_tick {} clock last true hempty).1
      rw [WritesState, tryBlock_error _ _ schedule clock _ _ hticker _ e hev] at hwrites
      cases hwrites
    | ok isOpen =>
      refine ⟨isOpen, rfl, fun hdis => ?_⟩
      cases isOpen with
      | true => rfl
      | false =>
        -- an entry that would have been made is not
        have hentry := h.disabledOpen hdis (.small "entry") .silent (WickTakeProfit.tickAtPrice 100)
          (freshWorld 1)
        rw [(probe_tick schedule clock last false hev).2, (probe_tick {} clock last true hempty).2]
          at hentry
        exact absurd hentry (by simp)
  · intro h
    obtain ⟨isOpen, hev, hdis⟩ := h
    have hempty := evaluate_empty clock last
    refine ⟨?_, ?_, ?_⟩
    · intro cfg sig inp w
      rw [tick_filter _ _ _ _ _ (fun _ => rfl), tick_filter _ _ _ _ _ (fun _ => rfl)]
      cases ht : inp.ticker with
      | error e => rw [tryBlock_noTicker _ _ _ _ _ e ht, tryBlock_noTicker _ _ _ _ _ e ht]
      | ok t =>
        rw [(tryBlock_ok cfg sig schedule clock inp t ht (hooked inp ⟨w, last⟩) isOpen hev).2,
          (tryBlock_ok cfg sig {} clock inp t ht (hooked inp ⟨w, last⟩) true hempty).2]
        exact (tickAt_isOpen cfg sig inp t.tickPrice isOpen true _).2
    · intro cfg sig inp w hw
      cases ht : inp.ticker with
      | error e =>
        rw [WritesState, tryBlock_noTicker _ _ _ _ _ e ht] at hw
        cases hw
      | ok t =>
        rw [writesState_iff cfg sig {} clock inp t ht w last true hempty] at hw
        rw [writesState_iff cfg sig schedule clock inp t ht w last isOpen hev,
          (tickAt_isOpen cfg sig inp t.tickPrice isOpen true _).1]
        exact hw
    · intro hd cfg sig inp w
      have hopen := hdis hd
      subst hopen
      rw [tick_filter _ _ _ _ _ (fun _ => rfl), tick_filter _ _ _ _ _ (fun _ => rfl)]
      cases ht : inp.ticker with
      | error e => rw [tryBlock_noTicker _ _ _ _ _ e ht, tryBlock_noTicker _ _ _ _ _ e ht]
      | ok t =>
        rw [(tryBlock_ok cfg sig schedule clock inp t ht (hooked inp ⟨w, last⟩) true hev).2,
          (tryBlock_ok cfg sig {} clock inp t ht (hooked inp ⟨w, last⟩) true hempty).2]

/-- Every day name of the schedule is in the map, in whatever case. -/
def KnownDays (schedule : ScheduleConfig) : Prop :=
  ∀ window ∈ schedule.tradingWindows, ∀ d ∈ window.days,
    ∃ n, ScheduleGuard.dayMap d.toLower = .ok n

theorem windowDays_ok (days : List String) (h : ∀ d ∈ days, ∃ n, ScheduleGuard.dayMap d.toLower = .ok n) :
    ∃ ns, days.mapM (fun d => ScheduleGuard.dayMap d.toLower) = .ok ns := by
  induction days with
  | nil => exact ⟨[], rfl⟩
  | cons d days ih =>
    obtain ⟨n, hn⟩ := h d List.mem_cons_self
    obtain ⟨ns, hns⟩ := ih fun e he => h e (List.mem_cons_of_mem _ he)
    refine ⟨n :: ns, ?_⟩
    rw [List.mapM_cons, hn]
    simp only [bind, Except.bind, hns]
    rfl

theorem inSomeWindow_ok (now : LocalTime) (windows : List ScheduleWindow)
    (h : ∀ window ∈ windows, ∃ ns, ScheduleGuard.windowDays window = .ok ns) :
    ∃ o, ScheduleGuard.inSomeWindow now windows = .ok o := by
  induction windows with
  | nil => exact ⟨false, rfl⟩
  | cons window windows ih =>
    obtain ⟨ns, hns⟩ := h window List.mem_cons_self
    simp only [ScheduleGuard.inSomeWindow, hns, bind, Except.bind]
    split
    · exact ⟨true, rfl⟩
    · exact ih fun v hv => h v (List.mem_cons_of_mem _ hv)

theorem nextOpenDay_ok (now : LocalTime) (ahead : ℕ) (windows : List ScheduleWindow)
    (h : ∀ window ∈ windows, ∃ ns, ScheduleGuard.windowDays window = .ok ns) :
    ∃ o, ScheduleGuard.nextOpenDay now ahead windows = .ok o := by
  induction windows with
  | nil => exact ⟨none, rfl⟩
  | cons window windows ih =>
    obtain ⟨ns, hns⟩ := h window List.mem_cons_self
    simp only [ScheduleGuard.nextOpenDay, hns, bind, Except.bind]
    split
    · exact ⟨_, rfl⟩
    · exact ih fun v hv => h v (List.mem_cons_of_mem _ hv)

theorem nextOpenFrom_ok (now : LocalTime) (days : List ℕ)
    (h : ∀ ahead, ∃ o, ScheduleGuard.nextOpenDay now ahead schedule.tradingWindows = .ok o) :
    ∃ opening, ScheduleGuard.nextOpenFrom schedule now days = .ok opening := by
  induction days with
  | nil => exact ⟨_, rfl⟩
  | cons ahead days ih =>
    simp only [ScheduleGuard.nextOpenFrom]
    split
    · exact ih
    · obtain ⟨o, ho⟩ := h ahead
      simp only [ho, bind, Except.bind]
      cases o with
      | none => exact ih
      | some opening => exact ⟨opening, rfl⟩

/-- A schedule with known day names can be evaluated at every time. -/
theorem evaluate_known (last : Option Bool) (h : KnownDays schedule) :
    ∃ isOpen, evaluate schedule clock last = .ok isOpen := by
  have hdays : ∀ window ∈ schedule.tradingWindows, ∃ ns, ScheduleGuard.windowDays window = .ok ns :=
    fun window hw => windowDays_ok window.days (h window hw)
  have hopen : ∃ o, ScheduleGuard.isOpen schedule clock.atIsOpen = .ok o := by
    unfold ScheduleGuard.isOpen
    split
    · exact ⟨false, rfl⟩
    · split
      · exact ⟨true, rfl⟩
      · exact inSomeWindow_ok clock.atIsOpen schedule.tradingWindows hdays
  obtain ⟨o, ho⟩ := hopen
  have htransition : ∃ next, ScheduleGuard.checkScheduleTransition schedule clock.atStatus last o =
      .ok next := by
    unfold ScheduleGuard.checkScheduleTransition
    cases last with
    | none => exact ⟨_, rfl⟩
    | some before =>
      dsimp only
      split
      · exact ⟨_, rfl⟩
      · obtain ⟨opening, hn⟩ := nextOpenFrom_ok schedule clock.atStatus (List.range 8)
          fun ahead => nextOpenDay_ok clock.atStatus ahead schedule.tradingWindows hdays
        simp only [ScheduleGuard.status, ScheduleGuard.nextOpen, hn, bind, Except.bind]
        exact ⟨some o, rfl⟩
  obtain ⟨next, hnext⟩ := htransition
  refine ⟨o, ?_⟩
  simp only [evaluate, ho, hnext, bind, Except.bind]
  rfl

/-- A Monday morning; every day after it is a Tuesday of the same date. -/
def mondayMorning : LocalTime :=
  ⟨fun n => if n = 0 then ⟨"2025-01-06", 0⟩ else ⟨"2025-01-07", 1⟩, "09:30"⟩

/-- A window whose day is spelled out. -/
def spelledOutDay : ScheduleConfig :=
  { enabled := true, tradingWindows := [⟨["monday"], "09:00", "17:00"⟩] }

/-- The deal opened at 100 has lost more than its stop loss of 5% allows at 90. -/
def losingWorld : World :=
  (TradingEngine.tick (.small "entry") .silent (WickTakeProfit.tickAtPrice 100)
    (freshWorld 1)).state

/-- A day name outside the map keeps the stop loss from being evaluated. -/
theorem not_gatesEntriesOnly_spelledOutDay :
    ¬ (∀ schedule clock last, GatesEntriesOnly schedule clock last) ∧
      .slClosed "202501010000-0001" 90 ∈
        (tick (.small "entry") .silent {} ⟨mondayMorning, mondayMorning⟩
          (WickTakeProfit.tickAtPrice 90) ⟨losingWorld, none⟩).log ∧
      (tick (.small "entry") .silent spelledOutDay ⟨mondayMorning, mondayMorning⟩
        (WickTakeProfit.tickAtPrice 90) ⟨losingWorld, none⟩).log = [.tickError .keyError] := by
  have hclosed : .slClosed "202501010000-0001" 90 ∈
      (tick (.small "entry") .silent {} ⟨mondayMorning, mondayMorning⟩
        (WickTakeProfit.tickAtPrice 90) ⟨losingWorld, none⟩).log := by decide +kernel
  have hraised : (tick (.small "entry") .silent spelledOutDay ⟨mondayMorning, mondayMorning⟩
      (WickTakeProfit.tickAtPrice 90) ⟨losingWorld, none⟩).log = [.tickError .keyError] := by
    decide +kernel
  refine ⟨fun h => ?_, hclosed, hraised⟩
  have hsame := (h spelledOutDay ⟨mondayMorning, mondayMorning⟩ none).sameManagement
    (.small "entry") .silent (WickTakeProfit.tickAtPrice 90) losingWorld
  rw [hraised] at hsame
  have hmem : .slClosed "202501010000-0001" 90 ∈
      ((tick (.small "entry") .silent {} ⟨mondayMorning, mondayMorning⟩
        (WickTakeProfit.tickAtPrice 90) ⟨losingWorld, none⟩).log.filter isManagement) :=
    List.mem_filter.mpr ⟨hclosed, rfl⟩
  rw [← hsame] at hmem
  cases hmem

end ScheduledEngine

end Reverto
