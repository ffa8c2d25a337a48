import Mathlib.Tactic
import Reverto.Backtest.LookAhead

/-!
# The pointers of a backtest (backtest/backtest_engine.py)

`_ohlc_up_to` leaves its pointers where the next call goes on from. Over calls whose
timestamps never go back each one returns what filtering every candle would.
-/

namespace Reverto

namespace BacktestEngine

variable (cfg : BotConfig) (sig : Signals) (env : BacktestEnv) (data : CandlesPerTf)

/-- The series of all candles with a timestamp before the current one. -/
def filteredWindow (curTs : ℤ) : OhlcWindow where
  candles :=
    { closesPerTf := fun tf =>
        (((data tf).getD []).filter fun c => decide (c.timestamp < curTs)).map BacktestCandle.close
      highsPerTf := fun tf => (data tf).map fun cs =>
        (cs.filter fun c => decide (c.timestamp < curTs)).map BacktestCandle.high
      lowsPerTf := fun tf => (data tf).map fun cs =>
        (cs.filter fun c => decide (c.timestamp < curTs)).map BacktestCandle.low }
  opensPerTf := fun tf => (data tf).map fun cs =>
    (cs.filter fun c => decide (c.timestamp < curTs)).map BacktestCandle.open

/-- Calls of `_ohlc_up_to` one after the other. -/
def ohlcCalls : List ℤ → BacktestM (List OhlcWindow)
  | [] => pure []
  | curTs :: later => do
    let window ← ohlcUpTo data curTs
    let windows ← ohlcCalls later
    pure (window :: windows)

/-! ### One call -/

theorem fullWindow_before (curTs : ℤ) :
    fullWindow (before curTs data) = filteredWindow data curTs := by
  have hcloses : ∀ tf, (before curTs data tf).getD [] =
      ((data tf).getD []).filter fun c => decide (c.timestamp < curTs) := by
    intro tf
    cases hcs : data tf with
    | none => simp only [before, hcs, Option.map_none, Option.getD_none, List.filter_nil]
    | some cs => simp only [before, hcs, Option.map_some, Option.getD_some, Timeline.before]
  have hother : ∀ (f : BacktestCandle → ℚ) tf,
      (before curTs data tf).map (fun cs => (cs.take ((before curTs data tf).getD []).length).map f) =
        (data tf).map fun cs => (cs.filter fun c => decide (c.timestamp < curTs)).map f := by
    intro f tf
    cases hcs : data tf with
    | none => simp only [before, hcs, Option.map_none]
    | some cs =>
      simp only [before, hcs, Option.map_some, Option.getD_some, List.take_length, Timeline.before]
  simp only [fullWindow, windowsAt, filteredWindow, List.take_length, hcloses]
  simp only [← hcloses, hother]

/-- Where the pointers have passed nothing too late, the walk ends behind the filtered
candles. -/
theorem windowsAt_filtered (hdata : Chronological data) (curTs : ℤ) (tfPointers : Timeframe → ℕ)
    (h : Passed data curTs tfPointers) :
    windowsAt data (advanceAll data curTs tfPointers) = filteredWindow data curTs := by
  rw [windowsAt_advanceAll data hdata curTs tfPointers h, fullWindow_before]

/-- A call made there. -/
theorem ohlcUpTo_run (hdata : Chronological data) (curTs : ℤ) (s : BacktestState)
    (h : Passed data curTs s.tfPointers) :
    ohlcUpTo data curTs s =
      ⟨.ok (filteredWindow data curTs), [],
        { s with tfPointers := advanceAll data curTs s.tfPointers }⟩ := by
  rw [ohlcUpTo, Program.modify_bind_run, Program.get_bind_run, Program.pure_run,
    windowsAt_filtered data hdata curTs s.tfPointers h]

/-! ### Calls one after the other -/

/-- Calls from pointers that have passed nothing too late for any of them. -/
theorem ohlcCalls_run (hdata : Chronological data) (calls : List ℤ) (s : BacktestState)
    (hcalls : calls.Pairwise (· ≤ ·)) (h : ∀ curTs ∈ calls, Passed data curTs s.tfPointers) :
    (ohlcCalls data calls s).result = .ok (calls.map (filteredWindow data)) := by
  induction calls generalizing s with
  | nil => rfl
  | cons curTs later ih =>
    obtain ⟨hfirst, hlater⟩ := List.pairwise_cons.mp hcalls
    have hpassed := h curTs List.mem_cons_self
    have hcall := ohlcUpTo_run data hdata curTs s hpassed
    -- where the call leaves the pointers suits every later one
    have hnext := ih { s with tfPointers := advanceAll data curTs s.tfPointers } hlater
      fun t ht => passed_advanceAll data hdata curTs t s.tfPointers hpassed (hfirst t ht)
    rw [ohlcCalls, Program.bind_ok _ _ s (filteredWindow data curTs) (by rw [hcall]), hcall]
    dsimp only
    rw [Program.bind_ok _ _ _ _ hnext]
    rfl

/-- From a new engine every call returns the filtered series. -/
theorem ohlcCalls_filtered (hdata : Chronological data) (calls : List ℤ)
    (hcalls : calls.Pairwise (· ≤ ·)) (initialBalanceBtc : ℚ) :
    (ohlcCalls data calls (init initialBalanceBtc)).result =
      .ok (calls.map (filteredWindow data)) :=
  ohlcCalls_run data hdata calls (init initialBalanceBtc) hcalls fun curTs _ =>
    passed_init data initialBalanceBtc curTs

/-- Hourly candles, two of them with one timestamp. -/
def tiedCandles : CandlesPerTf := fun tf =>
  if tf = .h1 then
    some [⟨0, 1, 1, 1, 1⟩, ⟨1000, 2, 2, 2, 2⟩, ⟨1000, 3, 3, 3, 3⟩, ⟨2000, 4, 4, 4, 4⟩]
  else none

theorem chronological_tied : Chronological tiedCandles := by
  intro tf cs hcs
  unfold tiedCandles at hcs
  split at hcs
  · cases hcs
    unfold Timeline.Sorted
    decide
  · cases hcs

theorem ohlcCalls_tied :
    (ohlcCalls tiedCandles [0, 1000, 1001, 1001, 5000] (init 1)).result =
        .ok ([0, 1000, 1001, 1001, 5000].map (filteredWindow tiedCandles)) ∧
      ([0, 1000, 1001, 1001, 5000].map fun curTs =>
        (filteredWindow tiedCandles curTs).candles.closesPerTf .h1) =
        [[], [1], [1, 2, 3], [1, 2, 3], [1, 2, 3, 4]] :=
  ⟨ohlcCalls_filtered tiedCandles chronological_tied _ (by decide) 1, by decide⟩

/-! ### The calls of a run -/

/-- One round of the loop of `run` with the filtered series. -/
def filteredStep (p : BacktestCandle × ℕ) : BacktestM Unit :=
  if p.2 < warmup then pure ()
  else do
    Program.modify fun s => { s with tfPointers := advanceAll data p.1.timestamp s.tfPointers }
    processCandle cfg sig env p.2 (filteredWindow data p.1.timestamp) p.1
    Program.modify fun s => { s with candlesProcessed := s.candlesProcessed + 1 }

/-- The candles that are left never go back, and the pointers suit each of them. -/
def WalksOn (l : List (BacktestCandle × ℕ)) (s : BacktestState) : Prop :=
  l.Pairwise (fun p q => p.1.timestamp ≤ q.1.timestamp) ∧
    ∀ p ∈ l, Passed data p.1.timestamp s.tfPointers

/-- A candle of such a run. -/
theorem candleStep_filtered (hdata : Chronological data) (p : BacktestCandle × ℕ)
    (l : List (BacktestCandle × ℕ)) (s : BacktestState) (h : WalksOn data (p :: l) s) :
    candleStep cfg sig env data p s = filteredStep cfg sig env data p s := by
  have hpassed := h.2 p List.mem_cons_self
  by_cases hp : warmup ≤ p.2
  · rw [candleStep_run cfg sig env data p s hp, filteredStep, if_neg (not_lt.mpr hp),
      windowsAt_filtered data hdata p.1.timestamp s.tfPointers hpassed, Program.modify_bind_run]
  · rw [candleStep, filteredStep, if_pos (not_le.mp hp), if_pos (not_le.mp hp)]

theorem walksOn_candleStep (hdata : Chronological data) (p : BacktestCandle × ℕ)
    (l : List (BacktestCandle × ℕ)) (s : BacktestState) (h : WalksOn data (p :: l) s) :
    WalksOn data l (candleStep cfg sig env data p s).state := by
  obtain ⟨hfirst, hlater⟩ := List.pairwise_cons.mp h.1
  refine ⟨hlater, fun q hq => ?_⟩
  exact passed_candleStep cfg sig env data hdata p s q.1.timestamp (h.2 p List.mem_cons_self)
    (hfirst q hq)

/-- A backtest on candles that never go back sees the filtered series at every candle. -/
theorem forEach_filtered (hdata : Chronological data) (initialBalanceBtc : ℚ) :
    Program.forEach (candleStep cfg sig env data) (drivingCandles cfg data).zipIdx
        (init initialBalanceBtc) =
      Program.forEach (filteredStep cfg sig env data) (drivingCandles cfg data).zipIdx
        (init initialBalanceBtc) := by
  have hsorted : (drivingCandles cfg data).Pairwise fun a b => a.timestamp ≤ b.timestamp := by
    unfold drivingCandles
    cases hcs : data cfg.timeframe with
    | none => exact List.Pairwise.nil
    | some cs => exact hdata cfg.timeframe cs hcs
  have hstart : WalksOn data (drivingCandles cfg data).zipIdx (init initialBalanceBtc) :=
    ⟨pairwise_zipIdx _ _ hsorted, fun p _ => passed_init data initialBalanceBtc p.1.timestamp⟩
  exact Program.forEach_congr _ _ (WalksOn data) (candleStep_filtered cfg sig env data hdata)
    (walksOn_candleStep cfg sig env data hdata) _ _ hstart

end BacktestEngine

end Reverto
