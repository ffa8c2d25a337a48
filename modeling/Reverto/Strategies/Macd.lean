import Mathlib.Tactic
import Reverto.Lib.Decimal
import Reverto.Strategies.IndicatorEngine

/-!
# MACD (strategies/indicators/macd.py)

`calculate_macd` and `check_macd_signal` on series of a dataframe, in which `none` is a NaN.
A NaN stands only at the front of a series, before a window is full.
-/

namespace Reverto

namespace Macd

/-- `series.rolling(window=window).mean()` -/
def rollingMean (window : ℕ) (s : List (Option ℚ)) : List (Option ℚ) :=
  (List.range s.length).map fun i =>
    if window = 0 ∨ i + 1 < window then none
    else (((s.drop (i + 1 - window)).take window).mapM id).map fun xs => xs.sum / window

/-- The mean of `ewm(adjust=False)` after one more value. -/
def ewmNext (alpha : ℚ) (mean x : Option ℚ) : Option ℚ :=
  match mean, x with
  | some m, some v => some ((1 - alpha) * m + alpha * v)
  | some m, none => some m
  | none, x => x

/-- The means behind `mean`. -/
def ewmFrom (alpha : ℚ) : Option ℚ → List (Option ℚ) → List (Option ℚ)
  | _, [] => []
  | mean, x :: xs => ewmNext alpha mean x :: ewmFrom alpha (ewmNext alpha mean x) xs

/-- `series.ewm(span=span, adjust=False).mean()`; a span below 1 is refused. -/
def ewmMean (span : ℕ) (s : List (Option ℚ)) : Except PyError (List (Option ℚ)) :=
  if span < 1 then .error .indicatorError else .ok (ewmFrom (2 / (span + 1)) none s)

/-- The mean of the given kind. -/
def meanOf (maType : String) (n : ℕ) (s : List (Option ℚ)) : Except PyError (List (Option ℚ)) :=
  if maType = "SMA" then .ok (rollingMean n s) else ewmMean n s

/-- The difference of two series. -/
def minus (s t : List (Option ℚ)) : List (Option ℚ) :=
  List.zipWith (fun a b => a.bind fun x => b.map fun y => x - y) s t

/-- `round(float(x), 4)` -/
def shown (x : Option ℚ) : Option ℚ := x.map (Decimal.roundTo 4)

/-- The result of `calculate_macd`. -/
structure MacdData where
  macd : Option ℚ
  signal : Option ℚ
  histogram : Option ℚ
  macdPrev : Option ℚ
  histogramSeries : List ℚ
  deriving DecidableEq

/-- `calculate_macd` -/
def calculateMacd (closes : List ℚ) (fast slow signal : ℕ)
    (oscillatorMaType signalMaType : String) : Except PyError MacdData :=
  if closes.length < slow * 3 then .error .indicatorError
  else do
    let maFast ← meanOf oscillatorMaType fast (closes.map some)
    let maSlow ← meanOf oscillatorMaType slow (closes.map some)
    let macdLine := minus maFast maSlow
    let signalLine ← meanOf signalMaType signal macdLine
    let histogram := minus macdLine signalLine
    match macdLine.getLast?, signalLine.getLast?, histogram.getLast? with
    | some macd, some signal, some hist =>
      pure {
        macd := shown macd
        signal := shown signal
        histogram := shown hist
        macdPrev := if 2 ≤ macdLine.length then shown (macdLine.dropLast.getLast?.join) else some 0
        histogramSeries := histogram.filterMap id }
    | _, _, _ => .error .indexError

/-- `calculate_macd` with the values of its parameters that every caller leaves to it. -/
def calculateDefault (closes : List ℚ) : Except PyError MacdData :=
  calculateMacd closes 12 26 9 "EMA" "EMA"

/-- `a < b` on floats. -/
def less (a b : Option ℚ) : Bool :=
  match a, b with
  | some x, some y => decide (x < y)
  | _, _ => false

/-- `a <= b` on floats. -/
def atMost (a b : Option ℚ) : Bool :=
  match a, b with
  | some x, some y => decide (x ≤ y)
  | _, _ => false

/-- `hist_val`, under `use_percentile` in units of the largest of the last hundred. -/
def histVal (usePercentile : Bool) (m : MacdData) : Option ℚ :=
  if usePercentile = true ∧ m.histogramSeries ≠ [] then
    let recent := m.histogramSeries.drop (m.histogramSeries.length - min 100 m.histogramSeries.length)
    let maxAbs := (recent.map abs).foldl max 0
    if 0 < maxAbs then m.histogram.map (· / maxAbs) else some 0
  else m.histogram

/-- The conditions that `check_macd_signal` knows. -/
def knownConditions : List String :=
  ["macd_cross_above_zero", "macd_cross_below_zero", "histogram_positive", "histogram_negative",
    "macd_above_signal", "macd_below_signal"]

/-- `check_macd_signal` behind `calculate_macd`. -/
def conditionHolds (m : MacdData) (condition : String) (usePercentile : Bool) : Except PyError Bool :=
  if condition = "macd_cross_above_zero" then
    .ok (less m.macdPrev (some 0) && atMost (some 0) m.macd)
  else if condition = "macd_cross_below_zero" then
    .ok (less (some 0) m.macdPrev && atMost m.macd (some 0))
  else if condition = "histogram_positive" then .ok (less (some 0) (histVal usePercentile m))
  else if condition = "histogram_negative" then .ok (less (histVal usePercentile m) (some 0))
  else if condition = "macd_above_signal" then .ok (less m.signal m.macd)
  else if condition = "macd_below_signal" then .ok (less m.macd m.signal)
  else .error .indicatorError

/-- `check_macd_signal` -/
def checkMacdSignal (closes : List ℚ) (condition : String) (usePercentile : Bool) :
    Except PyError Bool := do
  let m ← calculateDefault closes
  conditionHolds m condition usePercentile

/-! ### When it raises -/

theorem ewmFrom_length (alpha : ℚ) (mean : Option ℚ) (s : List (Option ℚ)) :
    (ewmFrom alpha mean s).length = s.length := by
  induction s generalizing mean with
  | nil => rfl
  | cons x xs ih => rw [ewmFrom, List.length_cons, List.length_cons, ih]

theorem ewmMean_ok (span : ℕ) (h : 1 ≤ span) (s : List (Option ℚ)) :
    ∃ t, ewmMean span s = .ok t ∧ t.length = s.length := by
  refine ⟨ewmFrom (2 / (span + 1)) none s, ?_, ewmFrom_length _ _ s⟩
  rw [ewmMean, if_neg (not_lt.mpr h)]

theorem minus_length (s t : List (Option ℚ)) (n : ℕ) (hs : s.length = n) (ht : t.length = n) :
    (minus s t).length = n := by
  rw [minus, List.length_zipWith, hs, ht, min_self]

theorem getLast?_some (s : List (Option ℚ)) (h : 0 < s.length) : ∃ x, s.getLast? = some x := by
  have hne : s ≠ [] := List.ne_nil_of_length_pos h
  exact ⟨s.getLast hne, List.getLast?_eq_some_getLast hne⟩

/-- With enough candles the means are all there. -/
theorem calculateDefault_ok (closes : List ℚ) (h : 78 ≤ closes.length) :
    ∃ m, calculateDefault closes = .ok m := by
  have hclosed : (closes.map some).length = closes.length := List.length_map some
  obtain ⟨fast, hfast, hfastLen⟩ := ewmMean_ok 12 (by norm_num) (closes.map some)
  obtain ⟨slow, hslow, hslowLen⟩ := ewmMean_ok 26 (by norm_num) (closes.map some)
  have hline := minus_length fast slow closes.length (hfastLen.trans hclosed) (hslowLen.trans hclosed)
  obtain ⟨signal, hsignal, hsignalLen⟩ := ewmMean_ok 9 (by norm_num) (minus fast slow)
  have hhist := minus_length (minus fast slow) signal closes.length hline (hsignalLen.trans hline)
  obtain ⟨macd, hmacd⟩ := getLast?_some (minus fast slow) (by omega)
  obtain ⟨sig, hsig⟩ := getLast?_some signal (by omega)
  obtain ⟨hist, hlast⟩ := getLast?_some (minus (minus fast slow) signal) (by omega)
  have hmean : ∀ n s, meanOf "EMA" n s = ewmMean n s := fun n s => if_neg (by decide)
  simp only [calculateDefault, calculateMacd, if_neg (show ¬ closes.length < 26 * 3 by omega), hmean,
    hfast, hslow, hsignal, hmacd, hsig, hlast, bind, Except.bind, pure, Except.pure]
  exact ⟨_, rfl⟩

theorem calculateDefault_short (closes : List ℚ) (h : closes.length < 78) :
    calculateDefault closes = .error .indicatorError := by
  rw [calculateDefault, calculateMacd, if_pos (show closes.length < 26 * 3 by omega)]

theorem conditionHolds_ok_iff (m : MacdData) (condition : String) (usePercentile : Bool) :
    (∃ b, conditionHolds m condition usePercentile = .ok b) ↔ condition ∈ knownConditions := by
  unfold conditionHolds
  split_ifs <;> simp_all [knownConditions]

/-- Too few candles, or a condition nobody has written. -/
theorem checkMacdSignal_error_iff (closes : List ℚ) (condition : String) (usePercentile : Bool) :
    (∃ x, checkMacdSignal closes condition usePercentile = .error x) ↔
      closes.length < 78 ∨ condition ∉ knownConditions := by
  by_cases hshort : closes.length < 78
  · have hrun : checkMacdSignal closes condition usePercentile = .error .indicatorError := by
      rw [checkMacdSignal, calculateDefault_short closes hshort]
      rfl
    exact iff_of_true ⟨_, hrun⟩ (.inl hshort)
  · obtain ⟨m, hm⟩ := calculateDefault_ok closes (by omega)
    have hrun : checkMacdSignal closes condition usePercentile =
        conditionHolds m condition usePercentile := by
      rw [checkMacdSignal, hm]
      rfl
    rw [hrun, ← conditionHolds_ok_iff m condition usePercentile]
    cases conditionHolds m condition usePercentile with
    | ok b => simp [hshort]
    | error x => simp

/-- The signals of the indicator engine, with MACD as its file computes it. -/
def signals (sig : Signals) : Signals :=
  { sig with checkMacdSignal := fun closes condition => checkMacdSignal closes condition false }

end Macd

end Reverto
