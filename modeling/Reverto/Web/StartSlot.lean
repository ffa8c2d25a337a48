import Mathlib.Tactic
import Reverto.Core.UserStore
import Reverto.Lib.KeyedDict
import Reverto.Lib.Machine

/-!
# Starting, stopping and restarting a bot (web/app.py, live/builtin_provider.py, main_paper.py)

The requests for one bot and the subprocesses they leave. A request runs up to its
next `await` in one step; the registry's lock is never held over one, so claiming
the start slot does not wait. Subprocesses boot, write their pid file and end at
any time.
-/

namespace Reverto

/-- A subprocess before it wrote its pid file, after it, after its `atexit` handler, after
a SIGKILL, and dead but not yet waited for. -/
inductive SubprocessPhase where
  | booting
  | running
  | exiting
  | killed
  | zombie
  deriving DecidableEq

structure Subprocess where
  pid : ℕ
  phase : SubprocessPhase
  deriving DecidableEq

/-- What a subprocess, or the kernel with it, does. -/
inductive SubprocessAct where
  | writePid
  | atexit
  | die
  | reaped
  deriving DecidableEq

/-- A request; a restart with whether the config it loads is a live one. -/
inductive LaunchRequest where
  | start (dryRun : Bool)
  | stop
  | restart (isLive : Bool)
  deriving DecidableEq

/-- Where a request is; `stop_bot` with the restart that awaits it. -/
inductive LaunchAwait where
  | startBot (dryRun : Bool)
  | pollPid (dryRun : Bool) (pid : ℕ) (deadline : Instant)
  | stopBot (restart : Option Bool)
  | signal (restart : Option Bool)
  | pollExit (restart : Option Bool) (pid : ℕ) (deadline : Instant)
  | pollKilled (restart : Option Bool) (pid left : ℕ)
  | restartBot (isLive : Bool)
  | pollGone (isLive : Bool) (deadline : Instant)
  deriving DecidableEq

/-- What a start meets between its checks and the new process. -/
inductive LaunchOutcome where
  | refused (error : String)
  | failed (error : String)
  | spawned (pid : ℕ)
  deriving DecidableEq

/-- The pid file, the subprocesses the kernel has, the other processes of the machine,
the start slot, and the requests. -/
structure Launcher where
  pidFile : Option ℕ
  procs : KeyedDict Subprocess.pid
  others : List ℕ
  starting : Bool
  clock : Instant
  tasks : List LaunchAwait
  answers : List (Except String String)
  deriving DecidableEq

/-- What happens next. -/
inductive LaunchStep where
  | elapse (d : ℕ)
  | arrive (request : LaunchRequest)
  | resume (i : ℕ) (known : Bool) (outcome : LaunchOutcome)
  | subprocess (pid : ℕ) (act : SubprocessAct)
  | others (pids : List ℕ)
  deriving DecidableEq

/-- The process has not ended. -/
def Subprocess.live (p : Subprocess) : Bool := p.phase != .zombie

/-- The first thing a request does. -/
def LaunchRequest.entry : LaunchRequest → LaunchAwait
  | .start dryRun => .startBot dryRun
  | .stop => .stopBot none
  | .restart isLive => .restartBot isLive

/-- `NOTIFY_DRAIN_TIMEOUT_S` -/
def NOTIFY_DRAIN_TIMEOUT : Instant := 15 * second

/-- `_STOP_SAFETY_MARGIN_S` -/
def STOP_SAFETY_MARGIN : Instant := 3 * second

namespace Launcher

/-- `os.kill(pid, 0)` finds a process, dead ones not yet waited for included. -/
def PidAlive (s : Launcher) (pid : ℕ) : Prop :=
  pid ∈ s.procs.items.map Subprocess.pid ∨ pid ∈ s.others

instance (s : Launcher) (pid : ℕ) : Decidable (PidAlive s pid) :=
  inferInstanceAs (Decidable (_ ∨ _))

/-- `BotInfo.running` -/
def running (s : Launcher) : Bool :=
  match s.pidFile with
  | none => false
  | some pid => decide (PidAlive s pid)

/-- `BotInfo.pid`, as text. -/
def pidText (s : Launcher) : String :=
  match s.pidFile with
  | none => "None"
  | some pid => toString pid

/-- A request goes on to its next `await`. -/
def goOn (i : ℕ) (t : LaunchAwait) (s : Launcher) : Launcher := { s with tasks := s.tasks.set i t }

/-- A request is answered. -/
def answer (i : ℕ) (a : Except String String) (s : Launcher) : Launcher :=
  { s with tasks := s.tasks.eraseIdx i, answers := s.answers ++ [a] }

def unlinkPid (s : Launcher) : Launcher := { s with pidFile := none }

/-- `os.kill(pid, signal.SIGKILL)` -/
def sigkill (pid : ℕ) (s : Launcher) : Launcher :=
  { s with
    procs := s.procs.modify pid
      (fun p => if p.phase = .zombie then p else { p with phase := .killed })
      (by intro p; split <;> rfl) }

/-- What a start answers once its process runs. -/
def started (slug : String) (dryRun : Bool) (pid : ℕ) : String :=
  slug ++ " started " ++ (if dryRun then "in DRY-RUN " else "") ++ "(PID " ++ toString pid ++ ")"

/-- The loop that waits for a pid file, and `end_start`. -/
def pollPid (slug : String) (i : ℕ) (dryRun : Bool) (pid : ℕ) (deadline : Instant) (s : Launcher) :
    Launcher :=
  if s.clock < deadline ∧ s.pidFile = none then goOn i (.pollPid dryRun pid deadline) s
  else answer i (.ok (started slug dryRun pid)) { s with starting := false }

/-- `subprocess.Popen` and what follows, with the start slot claimed. -/
def popen (slug : String) (i : ℕ) (dryRun : Bool) (pid : ℕ) (s : Launcher) : Option Launcher :=
  if h : PidAlive s pid then none
  else
    some (pollPid slug i dryRun pid (s.clock + 3 * second)
      { s with
        starting := true
        procs := s.procs.append ⟨pid, .booting⟩ fun hmem => h (Or.inl hmem) })

/-- `start_bot`, and `start_bot_dry_run`, which alone looks at the config. -/
def startBot (slug : String) (i : ℕ) (dryRun known : Bool) (outcome : LaunchOutcome)
    (s : Launcher) : Option Launcher :=
  if known = false then some (answer i (.error ("Unknown bot: " ++ slug)) s)
  else if running s = true then
    some (answer i (.error (slug ++ " already running (PID " ++ pidText s ++ ")")) s)
  else
    match outcome with
    | .refused e => if dryRun then some (answer i (.error e) s) else none
    | .failed e =>
      if s.starting = true then some (answer i (.error "Bot is already starting") s)
      else some (answer i (.error e) s)
    | .spawned pid =>
      if s.starting = true then some (answer i (.error "Bot is already starting") s)
      else popen slug i dryRun pid s

/-- The loop of `restart_bot` that waits for the pid file to go. -/
def pollGone (i : ℕ) (isLive : Bool) (deadline : Instant) (s : Launcher) : Launcher :=
  if s.clock < deadline ∧ ¬ (s.pidFile = none ∧ running s = false) then
    goOn i (.pollGone isLive deadline) s
  else goOn i (.startBot isLive) s

/-- `stop_bot` returns, to the restart that awaits it or as the answer. -/
def stopReturns (i : ℕ) (restart : Option Bool) (a : Except String String) (s : Launcher) :
    Launcher :=
  match restart, a with
  | some isLive, .ok _ => pollGone i isLive (s.clock + 5 * second) s
  | _, a => answer i a s

/-- `stop_bot` up to the signal. -/
def stopBot (slug : String) (i : ℕ) (restart : Option Bool) (known : Bool) (s : Launcher) : Launcher :=
  if known = false then stopReturns i restart (.error ("Unknown bot: " ++ slug)) s
  else if running s = true then goOn i (.signal restart) s
  else stopReturns i restart (.error (slug ++ " is not running")) (unlinkPid s)

/-- The end of `stop_bot`. -/
def finishStop (slug : String) (i : ℕ) (restart : Option Bool) (pid : ℕ) (s : Launcher) : Launcher :=
  stopReturns i restart (.ok (slug ++ " stopped (PID " ++ toString pid ++ ")")) (unlinkPid s)

/-- The wait for the kernel after a SIGKILL. -/
def pollKilled (slug : String) (i : ℕ) (restart : Option Bool) (pid : ℕ) : ℕ → Launcher → Launcher
  | 0, s => finishStop slug i restart pid s
  | left + 1, s =>
    if PidAlive s pid then goOn i (.pollKilled restart pid left) s
    else finishStop slug i restart pid s

/-- The wait of `stop_bot` for a graceful exit, and what follows. -/
def pollExit (slug : String) (i : ℕ) (restart : Option Bool) (pid : ℕ) (deadline : Instant)
    (s : Launcher) : Launcher :=
  if s.clock < deadline ∧ PidAlive s pid ∧ s.pidFile ≠ none then
    goOn i (.pollExit restart pid deadline) s
  else if PidAlive s pid then pollKilled slug i restart pid 20 (sigkill pid s)
  else finishStop slug i restart pid s

/-- `os.kill(pid, signal.SIGTERM)` with the pid read again. -/
def signal (slug : String) (i : ℕ) (restart : Option Bool) (s : Launcher) : Launcher :=
  match s.pidFile with
  | none =>
    stopReturns i restart (.error "'NoneType' object cannot be interpreted as an integer") s
  | some pid =>
    if PidAlive s pid then
      pollExit slug i restart pid (s.clock + (NOTIFY_DRAIN_TIMEOUT + STOP_SAFETY_MARGIN)) s
    else stopReturns i restart (.error "Process not found — already stopped?") (unlinkPid s)

/-- `restart_bot` up to its first `await`. -/
def restartBot (slug : String) (i : ℕ) (isLive known : Bool) (s : Launcher) : Launcher :=
  if known = false then answer i (.error ("Unknown bot: " ++ slug)) s
  else if running s = true then goOn i (.stopBot (some isLive)) s
  else pollGone i isLive (s.clock + 5 * second) s

/-- A request goes on. -/
def resume (slug : String) (i : ℕ) (known : Bool) (outcome : LaunchOutcome) (s : Launcher) :
    LaunchAwait → Option Launcher
  | .startBot dryRun => startBot slug i dryRun known outcome s
  | .pollPid dryRun pid deadline => some (pollPid slug i dryRun pid deadline s)
  | .stopBot restart => some (stopBot slug i restart known s)
  | .signal restart => some (signal slug i restart s)
  | .pollExit restart pid deadline => some (pollExit slug i restart pid deadline s)
  | .pollKilled restart pid left => some (pollKilled slug i restart pid left s)
  | .restartBot isLive => some (restartBot slug i isLive known s)
  | .pollGone isLive deadline => some (pollGone i isLive deadline s)

/-- A subprocess enters another phase. -/
def become (pid : ℕ) (phase : SubprocessPhase) (s : Launcher) : Launcher :=
  { s with procs := s.procs.modify pid (fun p => { p with phase := phase }) fun _ => rfl }

/-- What `main_paper.py` and `main_live.py` do with the pid file, and the ends of a process. -/
def actOf (p : Subprocess) (act : SubprocessAct) (s : Launcher) : Option Launcher :=
  match act, p.phase with
  | .writePid, .booting => some (become p.pid .running { s with pidFile := some p.pid })
  | .atexit, .running => some (become p.pid .exiting (unlinkPid s))
  | .die, .zombie => none
  | .die, _ => some (become p.pid .zombie s)
  | .reaped, .zombie => some { s with procs := s.procs.pop p.pid }
  | _, _ => none

/-- One step. -/
def step (slug : String) (s : Launcher) : LaunchStep → Option Launcher
  | .elapse d => some { s with clock := s.clock + d }
  | .arrive request => some { s with tasks := s.tasks ++ [request.entry] }
  | .resume i known outcome => (s.tasks[i]?).bind (resume slug i known outcome s)
  | .subprocess pid act => (s.procs.get? pid).bind fun p => actOf p act s
  | .others pids =>
    if ∀ p ∈ s.procs.items, p.pid ∉ pids then some { s with others := pids } else none

/-- The portal once it has started, with what an earlier one left. -/
def boot (pidFile : Option ℕ) (procs : KeyedDict Subprocess.pid) (others : List ℕ)
    (clock : Instant) : Launcher := ⟨pidFile, procs, others, false, clock, [], []⟩

/-! ### The property -/

/-- How many subprocesses of the bot are live. -/
def liveCount (s : Launcher) : ℕ := s.procs.items.countP Subprocess.live

/-- At most one subprocess of the bot is live. -/
def AtMostOne (s : Launcher) : Prop := liveCount s ≤ 1

instance (s : Launcher) : Decidable (AtMostOne s) := inferInstanceAs (Decidable (_ ≤ _))

/-- Every live subprocess is the one the pid file names. -/
def Seen (s : Launcher) : Prop := ∀ p ∈ s.procs.items, p.live = true → s.pidFile = some p.pid

instance (s : Launcher) : Decidable (Seen s) := inferInstanceAs (Decidable (∀ p ∈ _, _ → _))

/-- The step is a start that gets past the pid file and the start slot. -/
def getsPast (s : Launcher) : LaunchStep → Bool
  | .resume i true (.spawned _) =>
    match s.tasks[i]? with
    | some (.startBot _) => !running s && !s.starting
    | _ => false
  | _ => false

/-- A start that gets past both finds no live subprocess that the pid file does not name. -/
def Unraced (s : Launcher) (l : LaunchStep) : Prop := getsPast s l = true → Seen s

instance (s : Launcher) (l : LaunchStep) : Decidable (Unraced s l) :=
  inferInstanceAs (Decidable (_ → _))

/-! ### What a step does to the subprocesses -/

@[simp] theorem goOn_procs (i : ℕ) (t : LaunchAwait) (s : Launcher) :
    (goOn i t s).procs = s.procs := rfl

@[simp] theorem answer_procs (i : ℕ) (a : Except String String) (s : Launcher) :
    (answer i a s).procs = s.procs := rfl

@[simp] theorem unlinkPid_procs (s : Launcher) : (unlinkPid s).procs = s.procs := rfl

@[simp] theorem pollPid_procs (slug : String) (i : ℕ) (dryRun : Bool) (pid : ℕ)
    (deadline : Instant) (s : Launcher) : (pollPid slug i dryRun pid deadline s).procs = s.procs := by
  unfold pollPid
  split
  · rfl
  · rfl

@[simp] theorem pollGone_procs (i : ℕ) (isLive : Bool) (deadline : Instant) (s : Launcher) :
    (pollGone i isLive deadline s).procs = s.procs := by
  unfold pollGone
  split
  · rfl
  · rfl

@[simp] theorem stopReturns_procs (i : ℕ) (restart : Option Bool) (a : Except String String)
    (s : Launcher) : (stopReturns i restart a s).procs = s.procs := by
  unfold stopReturns
  split
  · exact pollGone_procs _ _ _ s
  · rfl

theorem stopBot_procs (slug : String) (i : ℕ) (restart : Option Bool) (known : Bool)
    (s : Launcher) : (stopBot slug i restart known s).procs = s.procs := by
  unfold stopBot
  split
  · exact stopReturns_procs i restart _ s
  · split
    · rfl
    · exact stopReturns_procs i restart _ (unlinkPid s)

theorem finishStop_procs (slug : String) (i : ℕ) (restart : Option Bool) (pid : ℕ)
    (s : Launcher) : (finishStop slug i restart pid s).procs = s.procs :=
  stopReturns_procs i restart _ (unlinkPid s)

theorem pollKilled_procs (slug : String) (i : ℕ) (restart : Option Bool) (pid left : ℕ)
    (s : Launcher) : (pollKilled slug i restart pid left s).procs = s.procs := by
  cases left with
  | zero => exact finishStop_procs slug i restart pid s
  | succ left =>
    rw [pollKilled]
    split
    · rfl
    · exact finishStop_procs slug i restart pid s

theorem restartBot_procs (slug : String) (i : ℕ) (isLive known : Bool) (s : Launcher) :
    (restartBot slug i isLive known s).procs = s.procs := by
  unfold restartBot
  split
  · rfl
  · split
    · rfl
    · exact pollGone_procs _ _ _ s

/-- A SIGKILL makes no subprocess live. -/
theorem liveCount_sigkill (pid : ℕ) (s : Launcher) : liveCount (sigkill pid s) ≤ liveCount s := by
  refine KeyedDict.countP_modify_le s.procs pid _ (by intro p; split <;> rfl) Subprocess.live
    fun p _ hp => ?_
  split at hp
  · exact hp
  · rename_i hphase
    simp [Subprocess.live, hphase]

/-- What changes no subprocess changes no count. -/
theorem liveCount_eq (s s' : Launcher) (h : s'.procs = s.procs) : liveCount s' = liveCount s := by
  rw [liveCount, liveCount, h]

theorem liveCount_pollExit (slug : String) (i : ℕ) (restart : Option Bool) (pid : ℕ)
    (deadline : Instant) (s : Launcher) :
    liveCount (pollExit slug i restart pid deadline s) ≤ liveCount s := by
  unfold pollExit
  split
  · exact le_refl _
  · split
    · rw [liveCount_eq (sigkill pid s) _ (pollKilled_procs slug i restart pid 20 _)]
      exact liveCount_sigkill pid s
    · rw [liveCount_eq s _ (finishStop_procs slug i restart pid s)]

theorem liveCount_signal (slug : String) (i : ℕ) (restart : Option Bool) (s : Launcher) :
    liveCount (signal slug i restart s) ≤ liveCount s := by
  unfold signal
  split
  · rw [liveCount_eq s _ (stopReturns_procs i restart _ s)]
  · split
    · exact liveCount_pollExit slug i restart _ _ s
    · rw [liveCount_eq s _ (stopReturns_procs i restart _ (unlinkPid s))]

/-- A process that goes into another phase was live, or is not. -/
theorem liveCount_become (p : Subprocess) (phase : SubprocessPhase) (s : Launcher)
    (hp : s.procs.get? p.pid = some p) (h : p.live = true ∨ phase = .zombie) :
    liveCount (become p.pid phase s) ≤ liveCount s := by
  refine KeyedDict.countP_modify_le s.procs p.pid (fun q => { q with phase := phase })
    (fun _ => rfl) Subprocess.live fun q hq hlive => ?_
  rw [hp] at hq
  cases hq
  rcases h with h | rfl
  · exact h
  · simp [Subprocess.live] at hlive

theorem liveCount_actOf (p : Subprocess) (act : SubprocessAct) (s s' : Launcher)
    (hp : s.procs.get? p.pid = some p) (h : actOf p act s = some s') :
    liveCount s' ≤ liveCount s := by
  unfold actOf at h
  split at h
  · rename_i hphase
    cases h
    exact liveCount_become p .running { s with pidFile := some p.pid } hp
      (Or.inl (by simp [Subprocess.live, hphase]))
  · rename_i hphase
    cases h
    exact liveCount_become p .exiting (unlinkPid s) hp (Or.inl (by simp [Subprocess.live, hphase]))
  · cases h
  · cases h
    exact liveCount_become p .zombie s hp (Or.inr rfl)
  · cases h
    exact List.Sublist.countP_le List.filter_sublist
  · cases h

/-- A process more, and it is live. -/
theorem liveCount_popen (slug : String) (i : ℕ) (dryRun : Bool) (pid : ℕ) (s s' : Launcher)
    (h : popen slug i dryRun pid s = some s') : liveCount s' = liveCount s + 1 := by
  unfold popen at h
  split at h
  · cases h
  · cases h
    rw [liveCount, pollPid_procs, KeyedDict.append_items, List.countP_append]
    rfl

/-- A start launches a process, or no subprocess changes. -/
theorem startBot_cases (slug : String) (i : ℕ) (dryRun known : Bool) (outcome : LaunchOutcome)
    (s s' : Launcher) (h : startBot slug i dryRun known outcome s = some s') :
    s'.procs = s.procs ∨
      ∃ pid, known = true ∧ outcome = .spawned pid ∧ running s = false ∧ s.starting = false ∧
        popen slug i dryRun pid s = some s' := by
  unfold startBot at h
  split at h
  · cases h
    exact Or.inl rfl
  · rename_i hknown
    split at h
    · cases h
      exact Or.inl rfl
    · rename_i hrunning
      split at h
      · split at h
        · cases h
          exact Or.inl rfl
        · cases h
      · split at h
        · cases h
          exact Or.inl rfl
        · cases h
          exact Or.inl rfl
      · rename_i pid
        split at h
        · cases h
          exact Or.inl rfl
        · rename_i hstarting
          exact Or.inr ⟨pid, by simpa using hknown, rfl, by simpa using hrunning,
            by simpa using hstarting, h⟩

/-- A request that goes on launches a process past both checks, or makes none live. -/
theorem resume_cases (slug : String) (i : ℕ) (known : Bool) (outcome : LaunchOutcome)
    (t : LaunchAwait) (s s' : Launcher) (h : resume slug i known outcome s t = some s') :
    liveCount s' ≤ liveCount s ∨
      ∃ dryRun pid, t = .startBot dryRun ∧ known = true ∧ outcome = .spawned pid ∧
        running s = false ∧ s.starting = false ∧ popen slug i dryRun pid s = some s' := by
  cases t with
  | startBot dryRun =>
    rcases startBot_cases slug i dryRun known outcome s s' h with hprocs | ⟨pid, hpid⟩
    · exact Or.inl (le_of_eq (liveCount_eq s s' hprocs))
    · exact Or.inr ⟨dryRun, pid, rfl, hpid⟩
  | pollPid dryRun pid deadline =>
    cases h
    exact Or.inl (le_of_eq (liveCount_eq s _ (pollPid_procs slug i dryRun pid deadline s)))
  | stopBot restart =>
    cases h
    exact Or.inl (le_of_eq (liveCount_eq s _ (stopBot_procs slug i restart known s)))
  | signal restart =>
    cases h
    exact Or.inl (liveCount_signal slug i restart s)
  | pollExit restart pid deadline =>
    cases h
    exact Or.inl (liveCount_pollExit slug i restart pid deadline s)
  | pollKilled restart pid left =>
    cases h
    exact Or.inl (le_of_eq (liveCount_eq s _ (pollKilled_procs slug i restart pid left s)))
  | restartBot isLive =>
    cases h
    exact Or.inl (le_of_eq (liveCount_eq s _ (restartBot_procs slug i isLive known s)))
  | pollGone isLive deadline =>
    cases h
    exact Or.inl (le_of_eq (liveCount_eq s _ (pollGone_procs i isLive deadline s)))

theorem getsPast_iff (s : Launcher) (l : LaunchStep) :
    getsPast s l = true ↔
      ∃ i pid dryRun, l = .resume i true (.spawned pid) ∧
        s.tasks[i]? = some (.startBot dryRun) ∧ running s = false ∧ s.starting = false := by
  constructor
  · intro h
    unfold getsPast at h
    split at h
    · rename_i i pid
      split at h
      · rename_i dryRun htask
        rw [Bool.and_eq_true, Bool.not_eq_true', Bool.not_eq_true'] at h
        exact ⟨i, pid, dryRun, rfl, htask, h⟩
      · cases h
    · cases h
  · rintro ⟨i, pid, dryRun, rfl, htask, hrunning, hstarting⟩
    simp [getsPast, htask, hrunning, hstarting]

/-- A step that is no start past both checks makes no subprocess live. -/
theorem liveCount_step (slug : String) (s s' : Launcher) (l : LaunchStep)
    (hpast : getsPast s l = false) (h : step slug s l = some s') : liveCount s' ≤ liveCount s := by
  cases l with
  | elapse d =>
    cases h
    exact le_refl _
  | arrive request =>
    cases h
    exact le_refl _
  | resume i known outcome =>
    obtain ⟨t, ht, hresume⟩ := Option.bind_eq_some_iff.mp h
    rcases resume_cases slug i known outcome t s s' hresume with
      hle | ⟨dryRun, pid, rfl, rfl, rfl, hrunning, hstarting, _⟩
    · exact hle
    · have htrue := (getsPast_iff s (.resume i true (.spawned pid))).mpr
        ⟨i, pid, dryRun, rfl, ht, hrunning, hstarting⟩
      rw [hpast] at htrue
      cases htrue
  | subprocess pid act =>
    obtain ⟨p, hp, hact⟩ := Option.bind_eq_some_iff.mp h
    obtain ⟨_, rfl⟩ := s.procs.get?_mem pid p hp
    exact liveCount_actOf p act s s' hp hact
  | others pids =>
    simp only [step] at h
    split at h
    · cases h
      exact le_refl _
    · cases h

/-- A start past both checks launches a process. -/
theorem liveCount_getsPast (slug : String) (s s' : Launcher) (l : LaunchStep)
    (hpast : getsPast s l = true) (h : step slug s l = some s') :
    liveCount s' = liveCount s + 1 ∧ running s = false := by
  obtain ⟨i, pid, dryRun, rfl, htask, hrunning, hstarting⟩ := (getsPast_iff s l).mp hpast
  refine ⟨liveCount_popen slug i dryRun pid s s' ?_, hrunning⟩
  simpa [step, htask, resume, startBot, hrunning, hstarting] using h

/-- Where no process runs by the pid file, all live ones are named by it if there is none. -/
theorem seen_iff (s : Launcher) (h : running s = false) : Seen s ↔ liveCount s = 0 := by
  rw [liveCount, List.countP_eq_zero]
  constructor
  · intro hseen p hp hlive
    have hfile := hseen p hp hlive
    have halive : PidAlive s p.pid := Or.inl (List.mem_map_of_mem hp)
    simp [running, hfile, halive] at h
  · intro hnone p hp hlive
    exact absurd hlive (hnone p hp)

/-- One subprocess runs. -/
def oneRunning : Launcher :=
  boot (some 41) (KeyedDict.ofList [⟨41, .running⟩]) [1] 1700000000000000

/-- What a request finds that launches nothing. -/
def idle (i : ℕ) : LaunchStep := .resume i true (.failed "")

/-- A restart waits for the end of the subprocess and launches another. -/
def restartRun : List LaunchStep :=
  [.arrive (.restart false), idle 0, idle 0, idle 0, .subprocess 41 .atexit, .subprocess 41 .die,
    idle 0, .subprocess 41 .reaped, idle 0, .resume 0 true (.spawned 57), .elapse 2000000,
    .subprocess 57 .writePid, idle 0]

/-- A killed subprocess left its pid file, so the first start gives up its slot at once. -/
def doubleClick : List LaunchStep :=
  [.arrive (.start false), .resume 0 true (.spawned 57), .arrive (.start false),
    .resume 0 true (.spawned 58), .subprocess 57 .writePid, .subprocess 58 .writePid]

end Launcher

end Reverto
