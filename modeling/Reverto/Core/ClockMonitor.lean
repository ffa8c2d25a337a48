import Mathlib.Tactic

/-!
# Clock-skew monitor (core/clock_monitor.py)

The monitor under a sequence of checks. A check within a minute of the last
attempt to read the exchange's clock is answered from the cache; the calls that
reach the exchange are a function of the call times alone.
-/

namespace Reverto

/-- What becomes of an attempt to read the exchange's clock. -/
inductive FetchTime where
  /-- The client has no `fetch_time`. -/
  | missing
  /-- `fetch_time` raised. -/
  | raised
  | answered (exchangeMs localMs : ℤ)
  deriving DecidableEq, Repr

/-- A call of `check`: its `now` and what the exchange would answer at that moment. -/
structure ClockCall where
  now : ℚ
  fetchTime : FetchTime
  deriving DecidableEq, Repr

/-- `ClockMonitor` -/
structure ClockMonitor where
  maxSkewSeconds : ℚ := 5
  lastCheck : ℚ := 0
  lastSkew : ℚ := 0
  lastOk : Bool := true
  deriving DecidableEq, Repr

namespace ClockMonitor

/-- `_CACHE_TTL_SECONDS` -/
def cacheTtlSeconds : ℚ := 60

/-- `(exchange_ms - local_ms) / 1000.0` -/
def skewSeconds (exchangeMs localMs : ℤ) : ℚ := (exchangeMs - localMs) / 1000

/-- `check`: the monitor after the call, and `(skew_seconds, within_tolerance)`. -/
def check (m : ClockMonitor) (call : ClockCall) : ClockMonitor × ℚ × Bool :=
  if call.now - m.lastCheck < cacheTtlSeconds then (m, m.lastSkew, m.lastOk)
  else
    match call.fetchTime with
    | .missing => ({ m with lastCheck := call.now, lastSkew := 0, lastOk := true }, 0, true)
    | .answered exchangeMs localMs =>
      let skew := skewSeconds exchangeMs localMs
      let ok := decide (|skew| ≤ m.maxSkewSeconds)
      ({ m with lastCheck := call.now, lastSkew := skew, lastOk := ok }, skew, ok)
    -- the cached reading and its verdict stay
    | .raised => ({ m with lastCheck := call.now }, m.lastSkew, true)

/-- A new monitor after a sequence of checks. -/
def checks (maxSkewSeconds : ℚ) (calls : List ClockCall) : ClockMonitor :=
  calls.foldl (fun m call => (m.check call).1) { maxSkewSeconds := maxSkewSeconds }

/-! ### The attempts among the calls -/

/-- The calls that reach the exchange when the last attempt was at `last`. -/
def attemptsFrom (last : ℚ) : List ClockCall → List ClockCall
  | [] => []
  | call :: calls =>
    if call.now - last < cacheTtlSeconds then attemptsFrom last calls
    else call :: attemptsFrom call.now calls

/-- The calls of a new monitor that reach the exchange. -/
def attempts (calls : List ClockCall) : List ClockCall := attemptsFrom 0 calls

/-- The attempt that governs the answer to the last of the calls. -/
def governing (calls : List ClockCall) : Option ClockCall := (attempts calls).getLast?

/-- The last check is answered from the cache. -/
def Cached (calls : List ClockCall) (call : ClockCall) : Prop :=
  attempts (calls ++ [call]) = attempts calls

/-- The verdict on a reading; a raised fetch gives none. -/
def verdict (maxSkewSeconds : ℚ) : FetchTime → Option Bool
  | .missing => some true
  | .answered exchangeMs localMs => some (decide (|skewSeconds exchangeMs localMs| ≤ maxSkewSeconds))
  | .raised => none

/-- The verdict on the last reading the exchange gave. -/
def lastVerdict (maxSkewSeconds : ℚ) (calls : List ClockCall) : Option Bool :=
  ((attempts calls).filterMap fun call => verdict maxSkewSeconds call.fetchTime).getLast?

/-- No check whose governing attempt raised reports a skew failure. -/
def FailsOpen (maxSkewSeconds : ℚ) (calls : List ClockCall) : Prop :=
  ∀ earlier call, earlier ++ [call] <+: calls →
    ((governing (earlier ++ [call])).map ClockCall.fetchTime = some .raised) →
      ((checks maxSkewSeconds earlier).check call).2.2 = true

/-- No check is answered from the cache of a raised attempt while the reading
before that attempt was out of tolerance. -/
def NoStaleFailure (maxSkewSeconds : ℚ) (calls : List ClockCall) : Prop :=
  ∀ earlier call, earlier ++ [call] <+: calls → Cached earlier call →
    ((governing earlier).map ClockCall.fetchTime = some .raised) →
      lastVerdict maxSkewSeconds earlier ≠ some false

/-- The time of the last attempt. -/
def lastTime (last : ℚ) (made : List ClockCall) : ℚ := (made.getLast?.map ClockCall.now).getD last

theorem attemptsFrom_cached (last : ℚ) (call : ClockCall) (calls : List ClockCall)
    (h : call.now - last < cacheTtlSeconds) :
    attemptsFrom last (call :: calls) = attemptsFrom last calls :=
  if_pos h

theorem attemptsFrom_attempt (last : ℚ) (call : ClockCall) (calls : List ClockCall)
    (h : ¬ call.now - last < cacheTtlSeconds) :
    attemptsFrom last (call :: calls) = call :: attemptsFrom call.now calls :=
  if_neg h

theorem lastTime_cons (last : ℚ) (call : ClockCall) (made : List ClockCall) :
    lastTime last (call :: made) = lastTime call.now made := by
  rw [lastTime, lastTime, List.getLast?_cons]
  cases made.getLast? with
  | none => rfl
  | some attempt => rfl

theorem attemptsFrom_concat (last : ℚ) (calls : List ClockCall) (call : ClockCall) :
    attemptsFrom last (calls ++ [call]) =
      if call.now - lastTime last (attemptsFrom last calls) < cacheTtlSeconds then
        attemptsFrom last calls
      else attemptsFrom last calls ++ [call] := by
  induction calls generalizing last with
  | nil => rfl
  | cons first calls ih =>
    rw [List.cons_append]
    by_cases hcached : first.now - last < cacheTtlSeconds
    · rw [attemptsFrom_cached last first _ hcached, attemptsFrom_cached last first _ hcached]
      exact ih last
    · rw [attemptsFrom_attempt last first _ hcached, attemptsFrom_attempt last first _ hcached,
        lastTime_cons, ih first.now]
      split
      · rfl
      · rfl

/-! ### The monitor's fields -/

theorem checks_concat (maxSkewSeconds : ℚ) (calls : List ClockCall) (call : ClockCall) :
    checks maxSkewSeconds (calls ++ [call]) = ((checks maxSkewSeconds calls).check call).1 := by
  simp [checks]

theorem check_cached (m : ClockMonitor) (call : ClockCall)
    (h : call.now - m.lastCheck < cacheTtlSeconds) : m.check call = (m, m.lastSkew, m.lastOk) := by
  rw [check, if_pos h]

/-- An attempt is stamped whatever comes of it, and keeps the old verdict when it raises. -/
theorem check_attempt (m : ClockMonitor) (call : ClockCall)
    (h : ¬ call.now - m.lastCheck < cacheTtlSeconds) :
    (m.check call).1.maxSkewSeconds = m.maxSkewSeconds ∧ (m.check call).1.lastCheck = call.now ∧
      (m.check call).1.lastOk = (verdict m.maxSkewSeconds call.fetchTime).getD m.lastOk ∧
      (m.check call).2.2 = (verdict m.maxSkewSeconds call.fetchTime).getD true := by
  rw [check, if_neg h]
  cases call.fetchTime with
  | missing => exact ⟨rfl, rfl, rfl, rfl⟩
  | raised => exact ⟨rfl, rfl, rfl, rfl⟩
  | answered exchangeMs localMs => exact ⟨rfl, rfl, rfl, rfl⟩

/-- The monitor's fields in terms of the attempts among its calls. -/
structure Follows (m : ClockMonitor) (maxSkewSeconds : ℚ) (calls : List ClockCall) : Prop where
  tolerance : m.maxSkewSeconds = maxSkewSeconds
  time : m.lastCheck = lastTime 0 (attempts calls)
  ok : m.lastOk = (lastVerdict maxSkewSeconds calls).getD true

theorem attempts_concat (calls : List ClockCall) (call : ClockCall) :
    attempts (calls ++ [call]) =
      if call.now - lastTime 0 (attempts calls) < cacheTtlSeconds then attempts calls
      else attempts calls ++ [call] :=
  attemptsFrom_concat 0 calls call

theorem follows_check (m : ClockMonitor) (maxSkewSeconds : ℚ) (calls : List ClockCall)
    (call : ClockCall) (h : m.Follows maxSkewSeconds calls) :
    (m.check call).1.Follows maxSkewSeconds (calls ++ [call]) := by
  have hconcat := attempts_concat calls call
  rw [← h.time] at hconcat
  by_cases hcached : call.now - m.lastCheck < cacheTtlSeconds
  · rw [if_pos hcached] at hconcat
    rw [check_cached m call hcached]
    refine ⟨h.tolerance, ?_, ?_⟩
    · rw [hconcat]
      exact h.time
    · rw [lastVerdict, hconcat]
      exact h.ok
  · rw [if_neg hcached] at hconcat
    obtain ⟨htolerance, htime, hok, -⟩ := check_attempt m call hcached
    refine ⟨htolerance.trans h.tolerance, ?_, ?_⟩
    · rw [htime, hconcat, lastTime, List.getLast?_concat]
      rfl
    · rw [hok, lastVerdict, hconcat, h.tolerance, h.ok, lastVerdict, List.filterMap_append]
      cases hv : verdict maxSkewSeconds call.fetchTime with
      | none => simp [hv]
      | some ok => simp [hv]

theorem follows_checks (maxSkewSeconds : ℚ) (calls : List ClockCall) :
    (checks maxSkewSeconds calls).Follows maxSkewSeconds calls := by
  induction calls using List.reverseRecOn with
  | nil => exact ⟨rfl, rfl, rfl⟩
  | append_singleton calls call ih =>
    rw [checks_concat]
    exact follows_check _ maxSkewSeconds calls call ih

/-! ### A failed fetch behind a bad reading -/

theorem cached_iff (maxSkewSeconds : ℚ) (calls : List ClockCall) (call : ClockCall) :
    Cached calls call ↔ call.now - (checks maxSkewSeconds calls).lastCheck < cacheTtlSeconds := by
  rw [Cached, attempts_concat, (follows_checks maxSkewSeconds calls).time]
  split
  · next h => simp [h]
  · next h => simp [h]

/-- A check from the cache repeats the verdict on the last reading. -/
theorem answer_cached (maxSkewSeconds : ℚ) (calls : List ClockCall) (call : ClockCall)
    (h : Cached calls call) :
    ((checks maxSkewSeconds calls).check call).2.2 =
      (lastVerdict maxSkewSeconds calls).getD true := by
  rw [check_cached _ call ((cached_iff maxSkewSeconds calls call).mp h)]
  exact (follows_checks maxSkewSeconds calls).ok

/-- An attempt governs its own answer. -/
theorem governing_attempt (calls : List ClockCall) (call : ClockCall) (h : ¬ Cached calls call) :
    governing (calls ++ [call]) = some call := by
  have hconcat := attempts_concat calls call
  split at hconcat
  · exact absurd hconcat h
  · rw [governing, hconcat, List.getLast?_concat]

theorem answer_raised (maxSkewSeconds : ℚ) (calls : List ClockCall) (call : ClockCall)
    (h : ¬ Cached calls call) (hraised : call.fetchTime = .raised) :
    ((checks maxSkewSeconds calls).check call).2.2 = true := by
  have hattempt := mt (cached_iff maxSkewSeconds calls call).mpr h
  rw [(check_attempt _ call hattempt).2.2.2, hraised]
  rfl

/-- The monitor fails open exactly when no check is answered from the cache of a
raised attempt while the last reading is out of tolerance. -/
theorem failsOpen_iff (maxSkewSeconds : ℚ) (calls : List ClockCall) :
    FailsOpen maxSkewSeconds calls ↔ NoStaleFailure maxSkewSeconds calls := by
  constructor
  · intro h earlier call hpre hcached hraised hbad
    have hok := h earlier call hpre (by rw [governing, hcached]; exact hraised)
    rw [answer_cached maxSkewSeconds earlier call hcached, hbad] at hok
    cases hok
  · intro h earlier call hpre hraised
    by_cases hcached : Cached earlier call
    · rw [governing, hcached] at hraised
      have hgood := h earlier call hpre hcached hraised
      rw [answer_cached maxSkewSeconds earlier call hcached]
      cases hv : lastVerdict maxSkewSeconds earlier with
      | none => rfl
      | some ok =>
        cases ok with
        | true => rfl
        | false => exact absurd hv hgood
    · rw [governing_attempt earlier call hcached] at hraised
      exact answer_raised maxSkewSeconds earlier call hcached (Option.some.inj hraised)

/-- A reading thirty seconds off, a fetch that raises a minute later, and a check
answered from the cache. -/
def skewedThenRaised : List ClockCall :=
  [⟨1000, .answered 30000 0⟩, ⟨1060, .raised⟩, ⟨1061, .raised⟩]

/-- The check after the raised fetch reports the old failure. -/
theorem not_failsOpen_skewed :
    ¬ ∀ (maxSkewSeconds : ℚ) (calls : List ClockCall),
      (calls.map ClockCall.now).Pairwise (· ≤ ·) → FailsOpen maxSkewSeconds calls := by
  intro h
  have hok := h 5 skewedThenRaised (by decide +kernel) (skewedThenRaised.take 2) ⟨1061, .raised⟩
    (List.prefix_rfl) (by decide +kernel)
  revert hok
  decide +kernel

end ClockMonitor

end Reverto
