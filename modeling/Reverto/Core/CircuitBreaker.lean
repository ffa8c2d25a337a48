import Mathlib.Tactic
import Reverto.Lib.Program

/-!
# The circuit breaker (core/circuit_breaker.py)

The breaker keeps a failure count, the time it opened and the permanent latch. The
class docstring documents a machine of four states; `Documented` is that machine.
-/

namespace Reverto

/-- The arguments of `CircuitBreaker`; whether a callback is given. -/
structure BreakerConfig where
  name : String
  failureThreshold : ℤ := 5
  cooldownSeconds : ℚ := 60
  onPermanentOpen : Bool := true

/-- The attributes of a `CircuitBreaker`, and `time.time()`. -/
structure CircuitBreaker where
  clock : ℚ
  failureCount : ℤ
  openedAt : Option ℚ
  permanentOpen : Bool
  deriving DecidableEq

/-- What a caller sees: answers and calls of the permanent callback. -/
inductive BreakerEvent where
  | isOpen (answer : Bool)
  | isPermanentlyOpen (answer : Bool)
  | permanentCallback (name reason : String)
  deriving DecidableEq

/-- Calls of the breaker's methods, and time that passes between them. -/
inductive BreakerOp where
  | elapse (seconds : ℚ≥0)
  | isOpen
  | isPermanentlyOpen
  | recordSuccess
  | recordFailure (permanent : Bool)
  | reset
  deriving DecidableEq

namespace CircuitBreaker

/-- Methods of the breaker; none of them raises. -/
abbrev BreakerM := Program Empty BreakerEvent CircuitBreaker

variable (cfg : BreakerConfig)

/-- `__init__` -/
def new (clock : ℚ) : CircuitBreaker := ⟨clock, 0, none, false⟩

/-- `is_open` -/
def isOpen : BreakerM Bool := do
  let s ← Program.get
  if s.permanentOpen then pure true
  else match s.openedAt with
    | none => pure false
    | some openedAt =>
      if cfg.cooldownSeconds ≤ s.clock - openedAt then do
        Program.modify fun s => { s with openedAt := none, failureCount := 0 }
        pure false
      else pure true

/-- `record_success` -/
def recordSuccess : BreakerM Unit := Program.modify fun s => { s with failureCount := 0 }

/-- `_enter_permanent_open` -/
def enterPermanentOpen (reason : String) : BreakerM Unit := do
  let s ← Program.get
  if s.permanentOpen then pure ()
  else do
    Program.modify fun s => { s with permanentOpen := true, openedAt := some s.clock }
    if cfg.onPermanentOpen then Program.emit (.permanentCallback cfg.name reason) else pure ()

/-- `record_failure` -/
def recordFailure (permanent : Bool) : BreakerM Unit :=
  if permanent then enterPermanentOpen cfg "permanent error"
  else do
    Program.modify fun s => { s with failureCount := s.failureCount + 1 }
    let s ← Program.get
    if s.openedAt = none ∧ cfg.failureThreshold ≤ s.failureCount then
      Program.modify fun s => { s with openedAt := some s.clock }
    else pure ()

/-- `reset` -/
def reset : BreakerM Unit :=
  Program.modify fun s => { s with failureCount := 0, openedAt := none, permanentOpen := false }

/-- A call and what its caller sees. -/
def program : BreakerOp → BreakerM Unit
  | .elapse seconds => Program.modify fun s => { s with clock := s.clock + seconds }
  | .isOpen => do
    let answer ← isOpen cfg
    Program.emit (.isOpen answer)
  | .isPermanentlyOpen => do
    let s ← Program.get
    Program.emit (.isPermanentlyOpen s.permanentOpen)
  | .recordSuccess => recordSuccess
  | .recordFailure permanent => recordFailure cfg permanent
  | .reset => reset

end CircuitBreaker

/-! ### The documented machine -/

namespace Documented

/-- The states of the docstring. -/
inductive Phase where
  | closed (failures : ℤ)
  | open (since : ℚ)
  | halfOpen
  | permanentOpen
  deriving DecidableEq

/-- The machine and the time. -/
structure Machine where
  clock : ℚ
  phase : Phase
  deriving DecidableEq

abbrev DocumentedM := Program Empty BreakerEvent Machine

variable (cfg : BreakerConfig)

/-- The cooldown of an open breaker has elapsed. -/
def Elapsed (t : Machine) : Prop :=
  match t.phase with
  | .open since => cfg.cooldownSeconds ≤ t.clock - since
  | _ => False

instance (t : Machine) : Decidable (Elapsed cfg t) := by
  unfold Elapsed
  cases t.phase <;> infer_instance

/-- The phase at the current time: once the cooldown has elapsed, half-open. -/
def phaseNow (t : Machine) : Phase := if Elapsed cfg t then .halfOpen else t.phase

/-- A failure opens a closed breaker that reaches the threshold, and a half-open one. -/
def failed (t : Machine) : Phase :=
  match phaseNow cfg t with
  | .closed failures =>
    if cfg.failureThreshold ≤ failures + 1 then .open t.clock else .closed (failures + 1)
  | .halfOpen => .open t.clock
  | phase => phase

/-- A success closes a half-open breaker and ends a streak of failures. -/
def succeeded (t : Machine) : Phase :=
  match phaseNow cfg t with
  | .closed _ => .closed 0
  | .halfOpen => .closed 0
  | phase => phase

/-- Calls are rejected. -/
def Phase.rejects : Phase → Bool
  | .open _ => true
  | .permanentOpen => true
  | _ => false

/-- A call of the documented machine and what its caller sees. -/
def program : BreakerOp → DocumentedM Unit
  | .elapse seconds => Program.modify fun t => { t with clock := t.clock + seconds }
  | .isOpen => do
    Program.modify fun t => { t with phase := phaseNow cfg t }
    let t ← Program.get
    Program.emit (.isOpen t.phase.rejects)
  | .isPermanentlyOpen => do
    let t ← Program.get
    Program.emit (.isPermanentlyOpen (decide (t.phase = .permanentOpen)))
  | .recordSuccess => Program.modify fun t => { t with phase := succeeded cfg t }
  | .recordFailure permanent => do
    let t ← Program.get
    if permanent then
      if t.phase = .permanentOpen then pure ()
      else do
        Program.modify fun t => { t with phase := .permanentOpen }
        if cfg.onPermanentOpen then
          Program.emit (.permanentCallback cfg.name "permanent error")
        else pure ()
    else Program.modify fun t => { t with phase := failed cfg t }
  | .reset => Program.modify fun t => { t with phase := .closed 0 }

/-! ### Where the breaker follows the machine -/

/-- The attributes that stand for a phase. -/
def Matches (s : CircuitBreaker) (t : Machine) : Prop :=
  s.clock = t.clock ∧
  match t.phase with
  | .closed failures => s.permanentOpen = false ∧ s.openedAt = none ∧ s.failureCount = failures
  | .open since => s.permanentOpen = false ∧ s.openedAt = some since
  | .halfOpen => s.permanentOpen = false ∧ s.openedAt = none ∧ s.failureCount = 0
  | .permanentOpen => s.permanentOpen = true

/-- An outcome is recorded only after an `is_open` that saw the cooldown elapse, and
a failure in half-open only where one failure opens the breaker. -/
def Polled (t : Machine) : BreakerOp → Prop
  | .recordSuccess => ¬ Elapsed cfg t
  | .recordFailure false =>
    ¬ Elapsed cfg t ∧ (t.phase = .halfOpen → cfg.failureThreshold ≤ 1)
  | _ => True

instance (t : Machine) (op : BreakerOp) : Decidable (Polled cfg t op) := by
  unfold Polled
  split <;> infer_instance

theorem phaseNow_of_not_elapsed (t : Machine) (h : ¬ Elapsed cfg t) : phaseNow cfg t = t.phase :=
  if_neg h

/-- The two answer the same to a call, and go on alike. -/
def Agrees (R : CircuitBreaker → Machine → Prop) (s : CircuitBreaker) (t : Machine)
    (op : BreakerOp) : Prop :=
  (CircuitBreaker.program cfg op s).log = (program cfg op t).log ∧
    R (CircuitBreaker.program cfg op s).state (program cfg op t).state

theorem agrees_isOpen (s : CircuitBreaker) (t : Machine) (h : Matches s t) :
    Agrees cfg Matches s t .isOpen := by
  obtain ⟨clock, count, openedAt, permanent⟩ := s
  obtain ⟨clock', phase⟩ := t
  obtain ⟨rfl, h⟩ := h
  cases phase with
  | closed failures =>
    obtain ⟨rfl, rfl, rfl⟩ := h
    exact ⟨rfl, rfl, rfl, rfl, rfl⟩
  | «open» since =>
    obtain ⟨rfl, rfl⟩ := h
    by_cases helapsed : cfg.cooldownSeconds ≤ clock - since
    · simp [Agrees, CircuitBreaker.program, CircuitBreaker.isOpen, program, Program.bind_run,
        phaseNow, Elapsed, helapsed, Phase.rejects, Matches]
    · simp [Agrees, CircuitBreaker.program, CircuitBreaker.isOpen, program, Program.bind_run,
        phaseNow, Elapsed, helapsed, Phase.rejects, Matches]
  | halfOpen =>
    obtain ⟨rfl, rfl, rfl⟩ := h
    exact ⟨rfl, rfl, rfl, rfl, rfl⟩
  | permanentOpen =>
    cases h
    exact ⟨rfl, rfl, rfl⟩

theorem agrees_recordSuccess (s : CircuitBreaker) (t : Machine) (h : Matches s t)
    (hpolled : ¬ Elapsed cfg t) : Agrees cfg Matches s t .recordSuccess := by
  refine ⟨rfl, ?_⟩
  show Matches { s with failureCount := 0 } { t with phase := succeeded cfg t }
  rw [succeeded, phaseNow_of_not_elapsed cfg t hpolled]
  obtain ⟨hclock, h⟩ := h
  cases hphase : t.phase with
  | closed failures =>
    simp only [hphase] at h
    exact ⟨hclock, h.1, h.2.1, rfl⟩
  | «open» since =>
    simp only [hphase] at h
    exact ⟨hclock, h.1, h.2⟩
  | halfOpen =>
    simp only [hphase] at h
    exact ⟨hclock, h.1, h.2.1, rfl⟩
  | permanentOpen =>
    simp only [hphase] at h
    exact ⟨hclock, h⟩

theorem agrees_transient (s : CircuitBreaker) (t : Machine) (h : Matches s t)
    (hpolled : Polled cfg t (.recordFailure false)) :
    Agrees cfg Matches s t (.recordFailure false) := by
  obtain ⟨hwait, hhalf⟩ := hpolled
  obtain ⟨clock, count, openedAt, permanent⟩ := s
  obtain ⟨clock', phase⟩ := t
  obtain ⟨rfl, h⟩ := h
  have hnow := phaseNow_of_not_elapsed cfg ⟨clock, phase⟩ hwait
  cases phase with
  | closed failures =>
    obtain ⟨rfl, rfl, rfl⟩ := h
    by_cases hopens : cfg.failureThreshold ≤ count + 1
    · simp [Agrees, CircuitBreaker.program, CircuitBreaker.recordFailure, program,
        Program.bind_run, failed, hnow, hopens, Matches]
    · simp [Agrees, CircuitBreaker.program, CircuitBreaker.recordFailure, program,
        Program.bind_run, failed, hnow, hopens, Matches]
  | «open» since =>
    obtain ⟨rfl, rfl⟩ := h
    simp [Agrees, CircuitBreaker.program, CircuitBreaker.recordFailure, program,
      Program.bind_run, failed, hnow, Matches]
  | halfOpen =>
    obtain ⟨rfl, rfl, rfl⟩ := h
    have hone := hhalf rfl
    simp [Agrees, CircuitBreaker.program, CircuitBreaker.recordFailure, program,
      Program.bind_run, failed, hnow, hone, Matches]
  | permanentOpen =>
    cases h
    by_cases hopens : openedAt = none ∧ cfg.failureThreshold ≤ count + 1
    · simp [Agrees, CircuitBreaker.program, CircuitBreaker.recordFailure, program,
        Program.bind_run, failed, hnow, hopens, Matches]
    · simp [Agrees, CircuitBreaker.program, CircuitBreaker.recordFailure, program,
        Program.bind_run, failed, hnow, hopens, Matches]

theorem permanentOpen_iff (s : CircuitBreaker) (t : Machine) (h : Matches s t) :
    s.permanentOpen = decide (t.phase = .permanentOpen) := by
  obtain ⟨-, h⟩ := h
  cases hphase : t.phase with
  | closed failures =>
    simp only [hphase] at h
    simp [h.1]
  | «open» since =>
    simp only [hphase] at h
    simp [h.1]
  | halfOpen =>
    simp only [hphase] at h
    simp [h.1]
  | permanentOpen =>
    simp only [hphase] at h
    simp [h]

theorem agrees_permanent (s : CircuitBreaker) (t : Machine) (h : Matches s t) :
    Agrees cfg Matches s t (.recordFailure true) := by
  have hlatch := permanentOpen_iff s t h
  obtain ⟨hclock, hphase⟩ := h
  by_cases hopen : t.phase = .permanentOpen
  · have hs : s.permanentOpen = true := by simp [hlatch, hopen]
    simp [Agrees, CircuitBreaker.program, CircuitBreaker.recordFailure,
      CircuitBreaker.enterPermanentOpen, program, Program.get_bind_run, hs, hopen, Matches, hclock]
  · have hs : s.permanentOpen = false := by simp [hlatch, hopen]
    cases hcallback : cfg.onPermanentOpen with
    | true =>
      simp [Agrees, CircuitBreaker.program, CircuitBreaker.recordFailure,
        CircuitBreaker.enterPermanentOpen, program, Program.get_bind_run,
        Program.modify_bind_run, hs, hopen, hcallback, Matches, hclock]
    | false =>
      simp [Agrees, CircuitBreaker.program, CircuitBreaker.recordFailure,
        CircuitBreaker.enterPermanentOpen, program, Program.get_bind_run,
        Program.modify_bind_run, hs, hopen, hcallback, Matches, hclock]

/-- What a polled call keeps. -/
theorem agrees_step (op : BreakerOp) (s : CircuitBreaker) (t : Machine) (h : Matches s t)
    (hpolled : Polled cfg t op) : Agrees cfg Matches s t op := by
  cases op with
  | elapse seconds =>
    refine ⟨rfl, ?_⟩
    obtain ⟨hclock, hphase⟩ := h
    exact ⟨congrArg (· + (seconds : ℚ)) hclock, hphase⟩
  | isOpen => exact agrees_isOpen cfg s t h
  | isPermanentlyOpen =>
    refine ⟨?_, h⟩
    simp only [CircuitBreaker.program, program, Program.get_bind_run, Program.emit_run,
      permanentOpen_iff s t h]
  | recordSuccess => exact agrees_recordSuccess cfg s t h hpolled
  | recordFailure permanent =>
    cases permanent with
    | true => exact agrees_permanent cfg s t h
    | false => exact agrees_transient cfg s t h hpolled
  | reset => exact ⟨rfl, h.1, rfl, rfl, rfl⟩

/-! ### Without a cooldown -/

/-- Without a cooldown a breaker rejects calls only when it is permanently open. -/
structure MatchesIdle (s : CircuitBreaker) (t : Machine) : Prop where
  clock : s.clock = t.clock
  latch : s.permanentOpen = decide (t.phase = .permanentOpen)
  opened : ∀ o, s.openedAt = some o → o ≤ s.clock
  since : ∀ o, t.phase = .open o → o ≤ t.clock

theorem phaseNow_permanentOpen_iff (t : Machine) :
    phaseNow cfg t = .permanentOpen ↔ t.phase = .permanentOpen := by
  obtain ⟨clock, phase⟩ := t
  unfold phaseNow Elapsed
  cases phase with
  | «open» since =>
    by_cases helapsed : cfg.cooldownSeconds ≤ clock - since
    · simp [helapsed]
    · simp [helapsed]
  | _ => simp

theorem rejects_of_not_open (p : Phase) (h : ∀ since, p ≠ .open since) :
    p.rejects = decide (p = .permanentOpen) := by
  cases p with
  | «open» since => exact absurd rfl (h since)
  | _ => rfl

theorem phaseNow_idle (hcooldown : cfg.cooldownSeconds ≤ 0) (t : Machine)
    (hsince : ∀ o, t.phase = .open o → o ≤ t.clock) (since : ℚ) : phaseNow cfg t ≠ .open since := by
  obtain ⟨clock, phase⟩ := t
  unfold phaseNow Elapsed
  cases phase with
  | «open» o =>
    have ho : o ≤ clock := hsince o rfl
    have helapsed : cfg.cooldownSeconds ≤ clock - o := by linarith
    simp [helapsed]
  | _ => simp

theorem agrees_idle_isOpen (hcooldown : cfg.cooldownSeconds ≤ 0) (s : CircuitBreaker)
    (t : Machine) (h : MatchesIdle s t) : Agrees cfg MatchesIdle s t .isOpen := by
  have hnotOpen := phaseNow_idle cfg hcooldown t h.since
  have hspec : program cfg .isOpen t =
      ⟨.ok (), [.isOpen (decide (t.phase = .permanentOpen))], { t with phase := phaseNow cfg t }⟩ := by
    have hrejects : (phaseNow cfg t).rejects = decide (t.phase = .permanentOpen) := by
      rw [rejects_of_not_open (phaseNow cfg t) hnotOpen]
      exact decide_eq_decide.mpr (phaseNow_permanentOpen_iff cfg t)
    simp only [program, Program.modify_bind_run, Program.get_bind_run, Program.emit_run, hrejects]
  have hcode : ∃ s', CircuitBreaker.program cfg .isOpen s = ⟨.ok (), [.isOpen s.permanentOpen], s'⟩ ∧
      s'.clock = s.clock ∧ s'.permanentOpen = s.permanentOpen ∧
      ∀ o, s'.openedAt = some o → o ≤ s'.clock := by
    cases hs : s.permanentOpen with
    | true =>
      refine ⟨s, ?_, rfl, hs, h.opened⟩
      simp [CircuitBreaker.program, CircuitBreaker.isOpen, Program.bind_run, hs]
    | false =>
      cases hopened : s.openedAt with
      | none =>
        refine ⟨s, ?_, rfl, hs, h.opened⟩
        simp [CircuitBreaker.program, CircuitBreaker.isOpen, Program.bind_run, hs, hopened]
      | some o =>
        have ho := h.opened o hopened
        have helapsed : cfg.cooldownSeconds ≤ s.clock - o := by linarith
        refine ⟨{ s with openedAt := none, failureCount := 0 }, ?_, rfl, hs, by simp⟩
        simp [CircuitBreaker.program, CircuitBreaker.isOpen, Program.bind_run, hs, hopened,
          helapsed]
  obtain ⟨s', hrun, hclock, hlatch, hopened⟩ := hcode
  rw [Agrees, hspec, hrun]
  refine ⟨by rw [h.latch], ?_, ?_, hopened, fun o ho => absurd ho (hnotOpen o)⟩
  · rw [hclock]
    exact h.clock
  · rw [hlatch, h.latch]
    exact decide_eq_decide.mpr (phaseNow_permanentOpen_iff cfg t).symm

theorem succeeded_cases (t : Machine) :
    succeeded cfg t = .closed 0 ∧ phaseNow cfg t ≠ .permanentOpen ∨
      succeeded cfg t = phaseNow cfg t := by
  unfold succeeded
  cases hnow : phaseNow cfg t with
  | closed failures => exact .inl ⟨rfl, by simp⟩
  | halfOpen => exact .inl ⟨rfl, by simp⟩
  | _ => exact .inr rfl

theorem failed_cases (t : Machine) :
    ((∃ n, failed cfg t = .closed n) ∨ failed cfg t = .open t.clock) ∧
        phaseNow cfg t ≠ .permanentOpen ∨
      failed cfg t = phaseNow cfg t := by
  unfold failed
  cases hnow : phaseNow cfg t with
  | closed failures =>
    left
    refine ⟨?_, by simp⟩
    by_cases hopens : cfg.failureThreshold ≤ failures + 1
    · exact .inr (if_pos hopens)
    · exact .inl ⟨failures + 1, if_neg hopens⟩
  | halfOpen => exact .inl ⟨.inr rfl, by simp⟩
  | _ => exact .inr rfl

theorem agrees_idle_recordSuccess (hcooldown : cfg.cooldownSeconds ≤ 0) (s : CircuitBreaker)
    (t : Machine) (h : MatchesIdle s t) : Agrees cfg MatchesIdle s t .recordSuccess := by
  have hpermanent := phaseNow_permanentOpen_iff cfg t
  refine ⟨rfl, h.clock, ?_, h.opened, fun o ho => ?_⟩
  · show s.permanentOpen = decide (succeeded cfg t = .permanentOpen)
    rw [h.latch]
    rcases succeeded_cases cfg t with ⟨hclosed, hnot⟩ | hsame
    · rw [hclosed]
      simpa using fun hp => hnot (hpermanent.mpr hp)
    · rw [hsame]
      exact decide_eq_decide.mpr hpermanent.symm
  · have ho : succeeded cfg t = .open o := ho
    rcases succeeded_cases cfg t with ⟨hclosed, -⟩ | hsame
    · rw [hclosed] at ho
      cases ho
    · rw [hsame] at ho
      exact absurd ho (phaseNow_idle cfg hcooldown t h.since o)

theorem agrees_idle_transient (hcooldown : cfg.cooldownSeconds ≤ 0) (s : CircuitBreaker)
    (t : Machine) (h : MatchesIdle s t) : Agrees cfg MatchesIdle s t (.recordFailure false) := by
  have hpermanent := phaseNow_permanentOpen_iff cfg t
  have hcode : ∃ s', CircuitBreaker.program cfg (.recordFailure false) s = ⟨.ok (), [], s'⟩ ∧
      s'.clock = s.clock ∧ s'.permanentOpen = s.permanentOpen ∧
      ∀ o, s'.openedAt = some o → o ≤ s'.clock := by
    by_cases hopens : s.openedAt = none ∧ cfg.failureThreshold ≤ s.failureCount + 1
    · refine ⟨{ s with failureCount := s.failureCount + 1, openedAt := some s.clock }, ?_, rfl,
        rfl, ?_⟩
      · simp [CircuitBreaker.program, CircuitBreaker.recordFailure, Program.modify_bind_run,
          Program.get_bind_run, hopens]
      · intro o ho
        exact le_of_eq (Option.some.inj ho).symm
    · refine ⟨{ s with failureCount := s.failureCount + 1 }, ?_, rfl, rfl, h.opened⟩
      simp [CircuitBreaker.program, CircuitBreaker.recordFailure, Program.modify_bind_run,
        Program.get_bind_run, hopens]
  obtain ⟨s', hrun, hclock, hlatch, hopened⟩ := hcode
  have hspec : program cfg (.recordFailure false) t =
      ⟨.ok (), [], { t with phase := failed cfg t }⟩ := rfl
  rw [Agrees, hrun, hspec]
  refine ⟨rfl, hclock.trans h.clock, ?_, hopened, fun o ho => ?_⟩
  · show s'.permanentOpen = decide (failed cfg t = .permanentOpen)
    rw [hlatch, h.latch]
    rcases failed_cases cfg t with ⟨hother, hnot⟩ | hsame
    · have hphase : t.phase ≠ .permanentOpen := fun hp => hnot (hpermanent.mpr hp)
      rcases hother with ⟨n, hclosed⟩ | hopen
      · simp [hphase, hclosed]
      · simp [hphase, hopen]
    · rw [hsame]
      exact decide_eq_decide.mpr hpermanent.symm
  · have ho : failed cfg t = .open o := ho
    rcases failed_cases cfg t with ⟨⟨n, hclosed⟩ | hopen, -⟩ | hsame
    · rw [hclosed] at ho
      cases ho
    · rw [hopen] at ho
      cases ho
      exact le_refl t.clock
    · rw [hsame] at ho
      exact absurd ho (phaseNow_idle cfg hcooldown t h.since o)

theorem agrees_idle_permanent (s : CircuitBreaker) (t : Machine) (h : MatchesIdle s t) :
    Agrees cfg MatchesIdle s t (.recordFailure true) := by
  by_cases hopen : t.phase = .permanentOpen
  · have hs : s.permanentOpen = true := by simp [h.latch, hopen]
    have hcode : CircuitBreaker.program cfg (.recordFailure true) s = ⟨.ok (), [], s⟩ := by
      simp [CircuitBreaker.program, CircuitBreaker.recordFailure,
        CircuitBreaker.enterPermanentOpen, Program.get_bind_run, hs]
    have hspec : program cfg (.recordFailure true) t = ⟨.ok (), [], t⟩ := by
      simp [program, Program.get_bind_run, hopen]
    rw [Agrees, hcode, hspec]
    exact ⟨rfl, h⟩
  · have hs : s.permanentOpen = false := by simp [h.latch, hopen]
    have hafter : MatchesIdle { s with permanentOpen := true, openedAt := some s.clock }
        { t with phase := .permanentOpen } :=
      { clock := h.clock
        latch := by simp
        opened := fun o ho => le_of_eq (Option.some.inj ho).symm
        since := by simp }
    cases hcallback : cfg.onPermanentOpen with
    | true =>
      simp only [Agrees, CircuitBreaker.program, CircuitBreaker.recordFailure, if_true,
        CircuitBreaker.enterPermanentOpen, program, Program.get_bind_run,
        Program.modify_bind_run, hs, hopen, hcallback, Bool.false_eq_true, if_false,
        Program.emit_run, true_and]
      exact hafter
    | false =>
      simp only [Agrees, CircuitBreaker.program, CircuitBreaker.recordFailure, if_true,
        CircuitBreaker.enterPermanentOpen, program, Program.get_bind_run,
        Program.modify_bind_run, hs, hopen, hcallback, Bool.false_eq_true, if_false,
        Program.pure_run, true_and]
      exact hafter

theorem agrees_idle_step (hcooldown : cfg.cooldownSeconds ≤ 0) (op : BreakerOp)
    (s : CircuitBreaker) (t : Machine) (h : MatchesIdle s t) : Agrees cfg MatchesIdle s t op := by
  cases op with
  | elapse seconds =>
    have hlater : (0 : ℚ) ≤ seconds := seconds.2
    refine ⟨rfl, congrArg (· + (seconds : ℚ)) h.clock, h.latch, fun o ho => ?_, fun o ho => ?_⟩
    · exact (h.opened o ho).trans (le_add_of_nonneg_right hlater)
    · exact (h.since o ho).trans (le_add_of_nonneg_right hlater)
  | isOpen => exact agrees_idle_isOpen cfg hcooldown s t h
  | isPermanentlyOpen =>
    refine ⟨?_, h⟩
    simp only [CircuitBreaker.program, program, Program.get_bind_run, Program.emit_run, h.latch]
  | recordSuccess => exact agrees_idle_recordSuccess cfg hcooldown s t h
  | recordFailure permanent =>
    cases permanent with
    | true => exact agrees_idle_permanent cfg s t h
    | false => exact agrees_idle_transient cfg hcooldown s t h
  | reset =>
    exact ⟨rfl, h.clock, rfl, by simp [CircuitBreaker.program, CircuitBreaker.reset],
      by simp [program]⟩

/-! ### Every run -/

/-- A breaker that opens at the second failure, for ten seconds. -/
def twoStrikes : BreakerConfig where
  name := "bitget-public"
  failureThreshold := 2
  cooldownSeconds := 10

end Documented

end Reverto
