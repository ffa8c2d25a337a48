import Mathlib.Tactic
import Reverto.Core.CandleSupply
import Reverto.Strategies.IndicatorDispatch
import Reverto.Web.SignalArrays

/-!
# Entry signals of the browser and of the engine (web/static/app.js,
web/static/chart_module.js, strategies/indicator_engine.py)

`_precomputeSignalArrays` scans the list once, `check_entry_signal` evaluates every prefix
anew. The scans of parabolic SAR, Supertrend, support and resistance and QFL are followed
side by side, bar by bar.
-/

namespace Reverto

open Script

namespace SignalAgreement

/-- A field of the candles `0 .. i`. -/
def upTo (candles : List (JsCandle ℚ)) (i : ℕ) (f : JsCandle ℚ → ℚ) : List ℚ :=
  (candles.take (i + 1)).map f

theorem read_nat (xs : List ℚ) (j : ℕ) : read xs j = xs.getD j 0 := by
  rw [Script.read, if_pos (Int.natCast_nonneg j), Int.toNat_natCast]
  rfl

section Scans

variable (candles : List (JsCandle ℚ)) (i : ℕ)

theorem upTo_length (hi : i < candles.length) (f : JsCandle ℚ → ℚ) :
    (upTo candles i f).length = i + 1 := by
  rw [upTo, List.length_map, List.length_take]
  omega

/-- Both read the same values up to the index. -/
theorem upTo_getD (f : JsCandle ℚ → ℚ) (j : ℕ) (hj : j ≤ i) (z : ℤ) (hz : z = j) :
    read (candles.map f) z = (upTo candles i f).getD j 0 := by
  have htake : (upTo candles i f)[j]? = (candles.map f)[j]? := by
    rw [upTo, List.map_take, List.getElem?_take_of_lt (by omega)]
  rw [hz, read_nat, List.getD_eq_getElem?_getD, List.getD_eq_getElem?_getD, htake]

/-! ### Parabolic SAR -/

/-- The variables of the browser as those of the engine. -/
def toEngine (s : RevertoBacktest.SarState ℚ) : ParabolicSar.SarState := ⟨s.trend, s.ep, s.sar, s.af⟩

theorem sarStart_same (iaf : ℚ) (hi : 1 ≤ i) :
    ParabolicSar.sarStart (upTo candles i JsCandle.high) (upTo candles i JsCandle.low)
      (upTo candles i JsCandle.close) iaf = toEngine (RevertoBacktest.sarStart candles iaf) := by
  simp only [RevertoBacktest.sarStart, upTo_getD candles i _ 0 (Nat.zero_le i) 0 rfl,
    upTo_getD candles i _ 1 hi 1 rfl, ParabolicSar.sarStart, apply_ite toEngine]
  rfl

theorem sarRound_same (iaf maf : ℚ) (k : ℕ) (hk : k + 2 ≤ i) (s : RevertoBacktest.SarState ℚ) :
    ParabolicSar.sarRound (upTo candles i JsCandle.high) (upTo candles i JsCandle.low) iaf maf (k + 2)
      (toEngine s) = toEngine (RevertoBacktest.sarStep candles iaf maf (k + 2) s) := by
  have hhere := fun f => upTo_getD candles i f (k + 2) hk ((k + 2 : ℕ) : ℤ) rfl
  have hbefore := fun f => upTo_getD candles i f (k + 1) (by omega) (((k + 2 : ℕ) : ℤ) - 1) (by omega)
  have hsecond := fun f => upTo_getD candles i f k (by omega) (((k + 2 : ℕ) : ℤ) - 2) (by omega)
  obtain ⟨trend, ep, sar, af⟩ := s
  cases trend with
  | up =>
    simp only [RevertoBacktest.sarStep, hhere, hbefore, hsecond, ← min_assoc, apply_ite toEngine]
    rfl
  | down =>
    simp only [RevertoBacktest.sarStep, hhere, hbefore, hsecond, ← max_assoc, apply_ite toEngine]
    rfl

theorem sarAt_same (iaf maf : ℚ) (k : ℕ) (hk : k + 1 ≤ i) :
    ParabolicSar.sarAt (upTo candles i JsCandle.high) (upTo candles i JsCandle.low)
      (upTo candles i JsCandle.close) iaf maf (k + 1) =
        toEngine (RevertoBacktest.sarAt candles iaf maf k) :=
  IndexScan.scan_rel (fun s t => s = toEngine t) _ _ _ _ k (sarStart_same candles i iaf (by omega))
    fun j hj s t hst => by
      rw [hst]
      exact sarRound_same candles i iaf maf j (by omega) t

/-- Both name the same conditions. -/
theorem sarHit_eq (condition : String) (prev curr : Trend) :
    RevertoBacktest.sarHit condition prev curr = ParabolicSar.trendHit condition prev curr := by
  unfold RevertoBacktest.sarHit ParabolicSar.trendHit
  split <;> simp

theorem checkParabolicSar_run (iaf maf : ℚ) (condition : String) (hi : i < candles.length)
    (hn : 9 ≤ i) :
    ParabolicSar.checkParabolicSarSignal (upTo candles i JsCandle.high) (upTo candles i JsCandle.low)
        (upTo candles i JsCandle.close) iaf maf condition =
      .ok (RevertoBacktest.sarHit condition (RevertoBacktest.sarAt candles iaf maf (i - 2)).trend
        (RevertoBacktest.sarAt candles iaf maf (i - 1)).trend) := by
  obtain ⟨n, rfl⟩ := Nat.exists_eq_add_of_le' (show 2 ≤ i by omega)
  have hlength := upTo_length candles (n + 2) hi
  have hcurr := sarAt_same candles (n + 2) iaf maf (n + 1) (by omega)
  have hprev := sarAt_same candles (n + 2) iaf maf n (by omega)
  rw [ParabolicSar.checkParabolicSarSignal, ParabolicSar.calculateParabolicSar]
  simp only [hlength, if_neg (show ¬ n + 2 + 1 < 10 by omega), ne_eq, not_true_eq_false, or_self,
    if_false, bind, Except.bind]
  rw [SeriesLoop.reverse_map_range]
  dsimp only
  rw [hcurr, hprev, ← sarHit_eq]
  rfl

/-! ### Supertrend -/

theorem trAt_same (j : ℕ) (hj : j + 1 ≤ i) (z : ℤ) (hz : z = j + 1) :
    RevertoBacktest.trueRangeAt candles z =
      Supertrend.trAt (upTo candles i JsCandle.high) (upTo candles i JsCandle.low)
        (upTo candles i JsCandle.close) (j + 1) := by
  have hhere := fun f => upTo_getD candles i f (j + 1) hj z (by omega)
  have hbefore := fun f => upTo_getD candles i f j (by omega) (z - 1) (by omega)
  simp only [RevertoBacktest.trueRangeAt, if_neg (show ¬ z < 0 by omega),
    if_neg (show ¬ z = 0 by omega), hhere, hbefore, ← max_assoc, abs_rat]
  rfl

theorem atrAt_same (a k : ℕ) (hk : a + k ≤ i) :
    RevertoBacktest.atrAt candles a k =
      Supertrend.atrAt (upTo candles i JsCandle.high) (upTo candles i JsCandle.low)
        (upTo candles i JsCandle.close) a k := by
  have hsum : ∀ m ≤ i, IndexScan.scan
      (fun k s => s + RevertoBacktest.trueRangeAt candles ((k : ℤ) + 1)) (ofRat 0) m =
        ((List.range' 1 m).map (Supertrend.trAt (upTo candles i JsCandle.high)
          (upTo candles i JsCandle.low) (upTo candles i JsCandle.close))).sum := by
    intro m
    induction m with
    | zero => exact fun _ => rfl
    | succ m ih =>
      intro hm
      rw [IndexScan.scan_succ, ih (by omega), List.range'_concat, List.map_append, List.sum_append,
        one_mul, List.map_singleton, List.sum_singleton, trAt_same candles i m hm _ rfl,
        Nat.add_comm 1 m]
  rw [RevertoBacktest.atrAt, Supertrend.atrAt, Int.toNat_natCast, hsum a (by omega)]
  refine IndexScan.scan_congr _ _ _ _ fun j hj s => ?_
  rw [trAt_same candles i (a + j) (by omega) _ (by push_cast; ring)]
  simp only [ofRat_rat]
  push_cast
  rfl

/-- The bands of the browser as those of the engine. -/
def toBands (s : RevertoBacktest.BandState ℚ) : Supertrend.BandState :=
  ⟨s.finalUpper, s.finalLower, s.trend⟩

theorem bandRound_same (a : ℕ) (mult : ℚ) (k : ℕ) (hk : a + (k + 1) ≤ i)
    (s : RevertoBacktest.BandState ℚ) :
    Supertrend.bandRound (upTo candles i JsCandle.high) (upTo candles i JsCandle.low)
      (upTo candles i JsCandle.close) a mult (k + 1) (toBands s) =
        toBands (RevertoBacktest.bandStep candles a mult (k + 1) s) := by
  have hhere := fun f => upTo_getD candles i f (a + (k + 1)) hk ((a : ℤ) + ((k + 1 : ℕ) : ℤ))
    (by push_cast; ring)
  have hbefore := fun f => upTo_getD candles i f (a + (k + 1) - 1) (by omega)
    ((a : ℤ) + ((k + 1 : ℕ) : ℤ) - 1) (by omega)
  obtain ⟨upper, lower, trend⟩ := s
  cases trend with
  | up =>
    simp only [RevertoBacktest.bandStep, hhere, hbefore, atrAt_same candles i a (k + 1) hk,
      Nat.succ_ne_zero, if_false]
    rfl
  | down =>
    simp only [RevertoBacktest.bandStep, hhere, hbefore, atrAt_same candles i a (k + 1) hk,
      Nat.succ_ne_zero, if_false]
    rfl

theorem bandAt_same (a : ℕ) (mult : ℚ) (k : ℕ) (hk : a + k ≤ i) :
    Supertrend.bandAt (upTo candles i JsCandle.high) (upTo candles i JsCandle.low)
      (upTo candles i JsCandle.close) a mult k =
        toBands (RevertoBacktest.bandAt candles a mult (k + 1)) := by
  induction k with
  | zero =>
    have hhere := fun f => upTo_getD candles i f a (by omega) ((a : ℤ) + ((0 : ℕ) : ℤ)) (by simp)
    rw [RevertoBacktest.bandAt, IndexScan.scan_succ]
    simp only [RevertoBacktest.bandStep, hhere, atrAt_same candles i a 0 hk]
    rfl
  | succ k ih =>
    rw [Supertrend.bandAt_succ, ih (by omega), bandRound_same candles i a mult k hk]
    rfl

/-- Both name the same conditions; where the engine raises the browser has no signal. -/
theorem supertrendHit_eq (condition : String) (prev curr : Trend) :
    RevertoBacktest.supertrendHit condition prev curr =
      (Supertrend.trendHit? condition prev curr).getD false := by
  unfold RevertoBacktest.supertrendHit Supertrend.trendHit?
  split <;> simp

theorem checkSupertrend_run (a : ℕ) (mult : ℚ) (condition : String) (hi : i < candles.length)
    (ha : 1 ≤ a) (hn : a ≤ i) :
    Supertrend.checkSupertrendSignal (upTo candles i JsCandle.high) (upTo candles i JsCandle.low)
        (upTo candles i JsCandle.close) a mult condition =
      match Supertrend.trendHit? condition (RevertoBacktest.bandAt candles a mult (i - a)).trend
        (RevertoBacktest.bandAt candles a mult (i - a + 1)).trend with
      | some hit => .ok hit
      | none => .error .indicatorError := by
  obtain ⟨n, rfl⟩ := Nat.exists_eq_add_of_le' (show 1 ≤ i by omega)
  have hlength := upTo_length candles (n + 1) hi
  have hcurr := bandAt_same candles (n + 1) a mult (n + 1 - a) (by omega)
  have hprev : (if n < a then ((0 : ℚ), Trend.up) else
      ((Supertrend.bandAt (upTo candles (n + 1) JsCandle.high) (upTo candles (n + 1) JsCandle.low)
        (upTo candles (n + 1) JsCandle.close) a mult (n - a)).line,
        (Supertrend.bandAt (upTo candles (n + 1) JsCandle.high) (upTo candles (n + 1) JsCandle.low)
          (upTo candles (n + 1) JsCandle.close) a mult (n - a)).trend)).2 =
      (RevertoBacktest.bandAt candles a mult (n + 1 - a)).trend := by
    by_cases hfirst : n < a
    · have hzero : n + 1 - a = 0 := by omega
      rw [if_pos hfirst, hzero]
      rfl
    · have hsucc : n + 1 - a = n - a + 1 := by omega
      rw [if_neg hfirst, hsucc, bandAt_same candles (n + 1) a mult (n - a) (by omega)]
      rfl
  rw [Supertrend.checkSupertrendSignal, Supertrend.calculateSupertrend]
  simp only [hlength, ne_eq, not_true_eq_false, or_self, if_false,
    if_neg (show ¬ n + 1 + 1 < a + 1 by omega), if_neg (show ¬ a = 0 by omega), bind, Except.bind]
  rw [SeriesLoop.reverse_map_range]
  dsimp only
  rw [hprev, if_neg (show ¬ n + 1 < a by omega), hcurr]
  rfl

/-! ### Support and resistance -/

/-- A window that ends at the index or before it. -/
theorem between_upTo (f : JsCandle ℚ → ℚ) (s e : ℕ) (he : e ≤ i + 1) (zs ze : ℤ) (hs : zs = s)
    (hze : ze = e) : between (candles.map f) zs ze = SeriesLoop.slice (upTo candles i f) s e := by
  have htake : (upTo candles i f).take e = (candles.map f).take e := by
    rw [upTo, List.map_take, List.take_take, min_eq_left he]
  rw [hs, hze, between, SeriesLoop.slice, htake, Int.toNat_natCast, Int.toNat_natCast]

theorem window_ne_nil (hi : i < candles.length) (f : JsCandle ℚ → ℚ) (s e : ℕ) (hse : s < e)
    (he : e ≤ i + 1) : SeriesLoop.slice (upTo candles i f) s e ≠ [] := by
  have hlength := upTo_length candles i hi f
  exact SeriesLoop.slice_ne_nil _ s e hse (by omega)

theorem beyond_highs (value : ℚ) (window : List ℚ) (h : window ≠ []) :
    SupportResistance.highs.beyond value window = .ok (exceeds value (largest window)) := by
  rw [largest_eq_max?, SupportResistance.PivotKind.beyond]
  cases hm : window.max? with
  | none => exact absurd (List.max?_eq_none_iff.mp hm) h
  | some m =>
    have hextreme : SupportResistance.highs.extreme window = some m := hm
    rw [hextreme]
    rfl

theorem beyond_lows (value : ℚ) (window : List ℚ) (h : window ≠ []) :
    SupportResistance.lows.beyond value window = .ok (undercuts value (smallest window)) := by
  rw [smallest_eq_min?, SupportResistance.PivotKind.beyond]
  cases hm : window.min? with
  | none => exact absurd (List.min?_eq_none_iff.mp hm) h
  | some m =>
    have hextreme : SupportResistance.lows.extreme window = some m := hm
    rw [hextreme]
    rfl

/-- Two tests that do not raise. -/
theorem isPivot_of_beyond (kind : SupportResistance.PivotKind) (series : List ℚ)
    (leftBars rightBars p : ℕ) (left right : Bool)
    (hleft : kind.beyond (series.getD p 0) (SeriesLoop.slice series (p - leftBars) p) = .ok left)
    (hright : kind.beyond (series.getD p 0) (SeriesLoop.slice series (p + 1) (p + rightBars + 1)) =
      .ok right) :
    kind.isPivot series leftBars rightBars p = .ok (left && right) := by
  rw [SupportResistance.PivotKind.isPivot, hleft, hright]
  cases left with
  | true => rfl
  | false => rfl

section Pivots

variable (leftBars rightBars k : ℕ) (hi : i < candles.length) (hleft : 1 ≤ leftBars)
  (hright : 1 ≤ rightBars) (hk : k ≤ i) (hbars : leftBars + rightBars ≤ k)

include hi hleft hright hk hbars

/-- A pivot of the engine's series is one of the candles up to the index. -/
theorem isPivot_upTo (kind : SupportResistance.PivotKind) (f : JsCandle ℚ → ℚ)
    (test : ℚ → List ℚ → Bool)
    (htest : ∀ value window, window ≠ [] → kind.beyond value window = .ok (test value window)) :
    kind.isPivot (upTo candles i f) leftBars rightBars (k - rightBars) =
      .ok (test (read (candles.map f) ((k : ℤ) - rightBars))
          (between (candles.map f) ((k : ℤ) - rightBars - leftBars) ((k : ℤ) - rightBars)) &&
        test (read (candles.map f) ((k : ℤ) - rightBars))
          (between (candles.map f) ((k : ℤ) - rightBars + 1) ((k : ℤ) - rightBars + rightBars + 1))) := by
  have hvalue := upTo_getD candles i f (k - rightBars) (by omega) ((k : ℤ) - rightBars) (by omega)
  have hbefore := between_upTo candles i f (k - rightBars - leftBars) (k - rightBars) (by omega)
    ((k : ℤ) - rightBars - leftBars) ((k : ℤ) - rightBars) (by omega) (by omega)
  have hafter := between_upTo candles i f (k - rightBars + 1) (k - rightBars + rightBars + 1)
    (by omega) ((k : ℤ) - rightBars + 1) ((k : ℤ) - rightBars + rightBars + 1) (by omega) (by omega)
  rw [hvalue, hbefore, hafter]
  exact isPivot_of_beyond _ _ _ _ _ _ _
    (htest _ _ (window_ne_nil candles i hi f _ _ (by omega) (by omega)))
    (htest _ _ (window_ne_nil candles i hi f _ _ (by omega) (by omega)))

theorem isPivot_highs :
    SupportResistance.highs.isPivot (upTo candles i JsCandle.high) leftBars rightBars
        (k - rightBars) =
      .ok (ChartModule.pivotHigh candles leftBars rightBars ((k : ℤ) - rightBars)) :=
  isPivot_upTo candles i leftBars rightBars k hi hleft hright hk hbars _ JsCandle.high _ beyond_highs

theorem isPivot_lows :
    SupportResistance.lows.isPivot (upTo candles i JsCandle.low) leftBars rightBars
        (k - rightBars) =
      .ok (ChartModule.pivotLow candles leftBars rightBars ((k : ℤ) - rightBars)) :=
  isPivot_upTo candles i leftBars rightBars k hi hleft hright hk hbars _ JsCandle.low _ beyond_lows

end Pivots

/-- A level and its touches in the browser and in the engine. -/
structure SameSide (side : Option ℚ × ℤ) (t : SupportResistance.SrTrack) : Prop where
  level : side.1 = t.level
  touches : side.2 = t.touches
  pos : ∀ level ∈ t.level, 0 < level

/-- The pivot test of a round, on one side. -/
def confirmed (pivot : Bool) (price : ℚ) (side : Option ℚ × ℤ) : Option ℚ × ℤ :=
  if pivot then (some price, 1) else side

/-- The touch test of a round, on one side. -/
def touched (minTouches : ℤ) (price : ℚ) (side : Option ℚ × ℤ) : Option ℚ × ℤ :=
  match side.1 with
  | some level =>
    if 1 < minTouches ∧ ChartModule.touches price level = true then (side.1, side.2 + 1) else side
  | none => side

/-- The entry of a series. -/
def entryOf (minTouches : ℤ) (side : Option ℚ × ℤ) : Option ℚ :=
  if minTouches ≤ side.2 then side.1 else none

/-- The resistance of a state. -/
def resSide (s : ChartModule.SrState ℚ) : Option ℚ × ℤ := (s.curRes, s.resTouches)

/-- The support of a state. -/
def supSide (s : ChartModule.SrState ℚ) : Option ℚ × ℤ := (s.curSup, s.supTouches)

/-- The two sides of a round do not meet. -/
theorem srPivots_sides (leftBars rightBars : ℤ) (k : ℕ) (s : ChartModule.SrState ℚ) :
    resSide (ChartModule.srPivots candles leftBars rightBars 0 k s) =
        confirmed (decide (leftBars ≤ k - rightBars) &&
          ChartModule.pivotHigh candles leftBars rightBars (k - rightBars))
            (read (candles.map JsCandle.high) (k - rightBars)) (resSide s) ∧
      supSide (ChartModule.srPivots candles leftBars rightBars 0 k s) =
        confirmed (decide (leftBars ≤ k - rightBars) &&
          ChartModule.pivotLow candles leftBars rightBars (k - rightBars))
            (read (candles.map JsCandle.low) (k - rightBars)) (supSide s) := by
  have hvolume : ∀ p, ChartModule.volumeOk candles 0 p = true := fun p => if_neg (lt_irrefl 0)
  unfold ChartModule.srPivots
  by_cases hbars : leftBars ≤ k - rightBars
  · simp only [if_pos hbars, decide_eq_true hbars, Bool.true_and, hvolume, Bool.and_true]
    cases ChartModule.pivotHigh candles leftBars rightBars (k - rightBars) <;>
      cases ChartModule.pivotLow candles leftBars rightBars (k - rightBars) <;> exact ⟨rfl, rfl⟩
  · simp only [if_neg hbars, decide_eq_false hbars, Bool.false_and]
    exact ⟨rfl, rfl⟩

theorem srStep_sides (leftBars rightBars minTouches : ℤ) (k : ℕ) (s : ChartModule.SrState ℚ) :
    resSide (ChartModule.srStep candles leftBars rightBars 0 minTouches k s) =
        touched minTouches (read (candles.map JsCandle.high) k)
          (confirmed (decide (leftBars ≤ k - rightBars) &&
            ChartModule.pivotHigh candles leftBars rightBars (k - rightBars))
              (read (candles.map JsCandle.high) (k - rightBars)) (resSide s)) ∧
      supSide (ChartModule.srStep candles leftBars rightBars 0 minTouches k s) =
        touched minTouches (read (candles.map JsCandle.low) k)
          (confirmed (decide (leftBars ≤ k - rightBars) &&
            ChartModule.pivotLow candles leftBars rightBars (k - rightBars))
              (read (candles.map JsCandle.low) (k - rightBars)) (supSide s)) := by
  obtain ⟨hres, hsup⟩ := srPivots_sides candles leftBars rightBars k s
  rw [← hres, ← hsup, ChartModule.srStep]
  generalize ChartModule.srPivots candles leftBars rightBars 0 k s = t
  obtain ⟨curRes, curSup, resTouches, supTouches⟩ := t
  cases curRes with
  | none =>
    cases curSup with
    | none => exact ⟨rfl, rfl⟩
    | some support =>
      by_cases hlow : 1 < minTouches ∧
          ChartModule.touches (read (candles.map JsCandle.low) k) support = true
      · simp only [resSide, supSide, touched, if_pos hlow, and_self]
      · simp only [resSide, supSide, touched, if_neg hlow, and_self]
  | some level =>
    by_cases hhigh : 1 < minTouches ∧
        ChartModule.touches (read (candles.map JsCandle.high) k) level = true
    · cases curSup with
      | none => simp only [resSide, supSide, touched, if_pos hhigh, and_self]
      | some support =>
        by_cases hlow : 1 < minTouches ∧
            ChartModule.touches (read (candles.map JsCandle.low) k) support = true
        · simp only [resSide, supSide, touched, if_pos hhigh, if_pos hlow, and_self]
        · simp only [resSide, supSide, touched, if_pos hhigh, if_neg hlow, and_self]
    · cases curSup with
      | none => simp only [resSide, supSide, touched, if_neg hhigh, and_self]
      | some support =>
        by_cases hlow : 1 < minTouches ∧
            ChartModule.touches (read (candles.map JsCandle.low) k) support = true
        · simp only [resSide, supSide, touched, if_neg hhigh, if_pos hlow, and_self]
        · simp only [resSide, supSide, touched, if_neg hhigh, if_neg hlow, and_self]

theorem confirm_same (kind : SupportResistance.PivotKind) (f : JsCandle ℚ → ℚ)
    (hpos : ∀ c ∈ candles, 0 < f c) (hi : i < candles.length) (leftBars rightBars k : ℕ) (pivot : Bool)
    (hk : k ≤ i) (side : Option ℚ × ℤ) (t : SupportResistance.SrTrack) (h : SameSide side t)
    (hpivot : leftBars + rightBars ≤ k →
      kind.isPivot (upTo candles i f) leftBars rightBars (k - rightBars) = .ok pivot) :
    ∃ u, t.confirm kind (upTo candles i f) leftBars rightBars (fun _ => true) k = .ok u ∧
      SameSide (confirmed (decide ((leftBars : ℤ) ≤ k - rightBars) && pivot)
        (read (candles.map f) (k - rightBars)) side) u ∧ u.series = t.series := by
  unfold SupportResistance.SrTrack.confirm
  by_cases hbars : leftBars + rightBars ≤ k
  · have hvalue := upTo_getD candles i f (k - rightBars) (by omega) ((k : ℤ) - rightBars) (by omega)
    have hleft : (leftBars : ℤ) ≤ k - rightBars := by omega
    simp only [if_pos hbars, decide_eq_true hleft, hpivot hbars, hvalue, bind, Except.bind,
      Bool.true_and, Bool.and_true]
    cases pivot with
    | false => exact ⟨t, rfl, h, rfl⟩
    | true =>
      refine ⟨_, rfl, ⟨rfl, rfl, fun level hlevel => ?_⟩, rfl⟩
      cases hlevel
      have hlength : k - rightBars < (upTo candles i f).length := by
        rw [upTo_length candles i hi]
        omega
      rw [List.getD_eq_getElem?_getD, List.getElem?_eq_getElem hlength, Option.getD_some]
      obtain ⟨c, hc, hcf⟩ := List.mem_map.mp (List.getElem_mem hlength)
      rw [← hcf]
      exact hpos c (List.mem_of_mem_take hc)
  · rw [if_neg hbars, decide_eq_false (by omega)]
    exact ⟨t, rfl, h, rfl⟩

theorem touch_same (minTouches : ℕ) (value : ℚ) (side : Option ℚ × ℤ)
    (t : SupportResistance.SrTrack) (h : SameSide side t) :
    ∃ u, t.touch minTouches value = .ok u ∧ SameSide (touched minTouches value side) u ∧
      u.series = t.series := by
  obtain ⟨hlevel, htouches, hpos⟩ := h
  obtain ⟨level, count⟩ := side
  dsimp only at hlevel htouches
  subst hlevel htouches
  unfold SupportResistance.SrTrack.touch touched
  cases hl : t.level with
  | none => exact ⟨t, rfl, ⟨hl.symm, rfl, hpos⟩, rfl⟩
  | some level =>
    have hne := (hpos level hl).ne'
    have hposLevel : ∀ l ∈ some level, 0 < l := hl ▸ hpos
    by_cases hmany : 1 < minTouches
    · have hmany' : (1 : ℤ) < minTouches := by exact_mod_cast hmany
      simp only [if_pos hmany, pyDiv, if_neg hne, bind, Except.bind, ChartModule.touches, abs_rat,
        ofRat_rat, hmany', true_and, decide_eq_true_eq]
      split
      · exact ⟨_, rfl, ⟨rfl, rfl, hposLevel⟩, rfl⟩
      · exact ⟨_, rfl, ⟨hl.symm, rfl, hpos⟩, rfl⟩
    · have hfew : ¬ ((1 : ℤ) < minTouches) := by exact_mod_cast hmany
      dsimp only
      rw [if_neg hmany, if_neg fun hboth => hfew hboth.1]
      exact ⟨t, rfl, ⟨hl.symm, rfl, hpos⟩, rfl⟩

theorem record_same (minTouches : ℕ) (side : Option ℚ × ℤ) (t : SupportResistance.SrTrack)
    (h : SameSide side t) :
    SameSide side (t.record minTouches) ∧
      (t.record minTouches).series = t.series ++ [entryOf minTouches side] := by
  refine ⟨⟨h.level, h.touches, h.pos⟩, ?_⟩
  simp only [SupportResistance.SrTrack.record, entryOf, h.level, h.touches, Nat.cast_le]

theorem SameSide.entry_pos (minTouches : ℕ) {side : Option ℚ × ℤ} {t : SupportResistance.SrTrack}
    (h : SameSide side t) : ∀ level ∈ entryOf minTouches side, 0 < level := by
  intro level hlevel
  unfold entryOf at hlevel
  split at hlevel
  · exact h.pos level (h.level ▸ hlevel)
  · cases hlevel

/-- The levels in force for the browser at an index. -/
def resAt (leftBars rightBars minTouches i : ℕ) : Option ℚ :=
  entryOf minTouches (resSide (ChartModule.srStateAt candles leftBars rightBars 0 minTouches i))

def supAt (leftBars rightBars minTouches i : ℕ) : Option ℚ :=
  entryOf minTouches (supSide (ChartModule.srStateAt candles leftBars rightBars 0 minTouches i))

/-- The loops before candle `k`, side by side. -/
structure SrRun (leftBars rightBars minTouches k : ℕ)
    (tracks : SupportResistance.SrTrack × SupportResistance.SrTrack) : Prop where
  res : SameSide (resSide (IndexScan.scan
    (ChartModule.srStep candles leftBars rightBars 0 minTouches) {} k)) tracks.1
  sup : SameSide (supSide (IndexScan.scan
    (ChartModule.srStep candles leftBars rightBars 0 minTouches) {} k)) tracks.2
  resSeries : tracks.1.series = (List.range k).map (resAt candles leftBars rightBars minTouches)
  supSeries : tracks.2.series = (List.range k).map (supAt candles leftBars rightBars minTouches)

section Levels

variable (leftBars rightBars minTouches : ℕ) (hi : i < candles.length) (hleft : 1 ≤ leftBars)
  (hright : 1 ≤ rightBars) (hhigh : ∀ c ∈ candles, 0 < c.high) (hlow : ∀ c ∈ candles, 0 < c.low)

include hi hleft hright hhigh hlow

theorem srRound_same (k : ℕ) (hk : k ≤ i)
    (tracks : SupportResistance.SrTrack × SupportResistance.SrTrack)
    (h : SrRun candles leftBars rightBars minTouches k tracks) :
    ∃ next, SupportResistance.srRound (upTo candles i JsCandle.high) (upTo candles i JsCandle.low)
        leftBars rightBars minTouches (fun _ => true) k tracks = .ok next ∧
      SrRun candles leftBars rightBars minTouches (k + 1) next := by
  obtain ⟨hres, hsup, hresSeries, hsupSeries⟩ := h
  have hstep := srStep_sides candles leftBars rightBars minTouches k (IndexScan.scan
    (ChartModule.srStep candles leftBars rightBars 0 minTouches) {} k)
  obtain ⟨res₁, hres₁, hside₁, hseries₁⟩ := confirm_same candles i SupportResistance.highs
    JsCandle.high hhigh hi leftBars rightBars k _ hk _ _ hres
    (isPivot_highs candles i leftBars rightBars k hi hleft hright hk)
  obtain ⟨sup₁, hsup₁, hside₂, hseries₂⟩ := confirm_same candles i SupportResistance.lows
    JsCandle.low hlow hi leftBars rightBars k _ hk _ _ hsup
    (isPivot_lows candles i leftBars rightBars k hi hleft hright hk)
  obtain ⟨res₂, hres₂, hside₃, hseries₃⟩ := touch_same minTouches
    (read (candles.map JsCandle.high) k) _ _ hside₁
  obtain ⟨sup₂, hsup₂, hside₄, hseries₄⟩ := touch_same minTouches
    (read (candles.map JsCandle.low) k) _ _ hside₂
  rw [← hstep.1] at hside₃
  rw [← hstep.2] at hside₄
  obtain ⟨hside₅, hseries₅⟩ := record_same minTouches _ _ hside₃
  obtain ⟨hside₆, hseries₆⟩ := record_same minTouches _ _ hside₄
  have hreadHigh := upTo_getD candles i JsCandle.high k hk k rfl
  have hreadLow := upTo_getD candles i JsCandle.low k hk k rfl
  rw [hreadHigh] at hres₂
  rw [hreadLow] at hsup₂
  refine ⟨(res₂.record minTouches, sup₂.record minTouches), ?_, hside₅, hside₆, ?_, ?_⟩
  · simp only [SupportResistance.srRound, hres₁, hsup₁, hres₂, hsup₂, bind, Except.bind]
    rfl
  · rw [hseries₅, hseries₃, hseries₁, hresSeries, List.range_succ, List.map_append]
    rfl
  · rw [hseries₆, hseries₄, hseries₂, hsupSeries, List.range_succ, List.map_append]
    rfl

/-- The last entries of the engine are the browser's at the index. -/
theorem calculateSrSeries_run (volumeThreshold : ℚ) :
    ∃ res sup, SupportResistance.calculateSrSeries (upTo candles i JsCandle.high)
        (upTo candles i JsCandle.low) (upTo candles i JsCandle.close) leftBars rightBars none
        volumeThreshold minTouches = .ok (res, sup) ∧
      res.getLast?.join = resAt candles leftBars rightBars minTouches i ∧
      sup.getLast?.join = supAt candles leftBars rightBars minTouches i ∧
      (∀ level ∈ resAt candles leftBars rightBars minTouches i, 0 < level) ∧
      ∀ level ∈ supAt candles leftBars rightBars minTouches i, 0 < level := by
  have hlength := upTo_length candles i hi
  have hnone : ∀ l ∈ (none : Option ℚ), 0 < l := fun l hl => absurd hl (Option.not_mem_none l)
  obtain ⟨tracks, hloop, hrun⟩ := SeriesLoop.forRange_spec
    (SrRun candles leftBars rightBars minTouches) 0 (i + 1)
    (SupportResistance.srRound (upTo candles i JsCandle.high) (upTo candles i JsCandle.low)
      leftBars rightBars minTouches fun _ => true) ({}, {})
    ⟨⟨rfl, rfl, hnone⟩, ⟨rfl, rfl, hnone⟩, rfl, rfl⟩
    fun k hk _ t ht => srRound_same candles i leftBars rightBars minTouches hi hleft hright hhigh hlow
      k (by omega) t ht
  rw [zero_add] at hrun
  refine ⟨tracks.1.series, tracks.2.series, ?_, ?_, ?_, hrun.res.entry_pos minTouches,
    hrun.sup.entry_pos minTouches⟩
  · simp only [SupportResistance.calculateSrSeries, hlength, ne_eq, not_true_eq_false, or_self,
      if_false, SupportResistance.volOscOf, hloop, bind, Except.bind]
    rfl
  · rw [hrun.resSeries, List.range_succ, List.map_append, List.map_singleton, List.getLast?_concat]
    rfl
  · rw [hrun.supSeries, List.range_succ, List.map_append, List.map_singleton, List.getLast?_concat]
    rfl

end Levels

theorem upTo_getLast? (hi : i < candles.length) (f : JsCandle ℚ → ℚ) :
    (upTo candles i f).getLast? = some (read (candles.map f) i) := by
  have hlast : i < (upTo candles i f).length := by
    rw [upTo_length candles i hi]
    exact Nat.lt_succ_self i
  rw [upTo_getD candles i f i le_rfl i rfl, List.getLast?_eq_getElem?, upTo_length candles i hi,
    Nat.add_sub_cancel, List.getD_eq_getElem?_getD, List.getElem?_eq_getElem hlast]
  rfl

theorem upTo_getLastD (hi : i < candles.length) (f : JsCandle ℚ → ℚ) (d : ℚ) :
    (upTo candles i f).getLastD d = read (candles.map f) i := by
  rw [List.getLastD_eq_getLast?, upTo_getLast? candles i hi, Option.getD_some]

theorem upTo_dropLast (i : ℕ) (f : JsCandle ℚ → ℚ) (hi : i + 1 < candles.length) :
    (upTo candles (i + 1) f).dropLast = upTo candles i f := by
  have htake : (candles.take (i + 1 + 1)).dropLast = candles.take (i + 1) := by
    rw [List.dropLast_eq_take, List.length_take, min_eq_left (by omega), List.take_take,
      Nat.add_sub_cancel, min_eq_left (by omega)]
  rw [upTo, ← List.map_dropLast, htake, upTo]

/-- Below the level of the other side the browser does not look at the condition. -/
def Skipped (condition value : String) (proximityPct price : ℚ) (resistance support : Option ℚ) :
    Prop :=
  (value ≠ "support" ∧ resistance = none ∧ ∃ level ∈ support,
    condition = "near_support" ∧ |price - level| / level * 100 ≤ proximityPct ∨
      condition = "below_support" ∧ price < level) ∨
  (value = "support" ∧ support = none ∧ ∃ level ∈ resistance,
    condition = "near_resistance" ∧ |price - level| / level * 100 ≤ proximityPct ∨
      condition = "above_resistance" ∧ level < price)

theorem levelSignal_eq_iff (condition value : String) (proximityPct price prev : ℚ)
    (resistance support : Option ℚ) (hres : ∀ level ∈ resistance, 0 < level)
    (hsup : ∀ level ∈ support, 0 < level) :
    SupportResistance.levelSignal condition value proximityPct price prev resistance support =
        .ok (RevertoBacktest.levelHit condition value proximityPct price prev resistance support) ↔
      ¬ Skipped condition value proximityPct price resistance support := by
  have hpure : ∀ level x : ℚ, 0 < level → pyDiv x level = .ok (x / level) :=
    fun level x hlevel => if_neg hlevel.ne'
  unfold SupportResistance.levelSignal Skipped
  by_cases hv : value = "support"
  · simp only [RevertoBacktest.levelHit, hv, ne_eq, not_true_eq_false, false_and, false_or, true_and]
    split <;> cases resistance <;> cases support <;>
      simp_all [bind, Except.bind, pure, Except.pure]
  · simp only [RevertoBacktest.levelHit, ne_eq, hv, not_false_eq_true, true_and, false_and, or_false]
    split <;> cases resistance <;> cases support <;>
      simp_all [bind, Except.bind, pure, Except.pure]

theorem checkSupportResistance_run (q : SupportResistance.SrParams) (hi : i < candles.length)
    (hleft : 1 ≤ q.leftBars) (hright : 1 ≤ q.rightBars) (hhigh : ∀ c ∈ candles, 0 < c.high)
    (hlow : ∀ c ∈ candles, 0 < c.low) (hn : q.leftBars + q.rightBars ≤ i) (hvol : q.volumes = none) :
    SupportResistance.checkSupportResistanceSignal (upTo candles i JsCandle.high)
        (upTo candles i JsCandle.low) (upTo candles i JsCandle.close) q =
      SupportResistance.levelSignal q.condition q.value q.proximityPct
        (read (candles.map JsCandle.close) i) (read (candles.map JsCandle.close) (i - 1))
        (resAt candles q.leftBars q.rightBars q.minTouches i)
        (supAt candles q.leftBars q.rightBars q.minTouches i) := by
  obtain ⟨n, rfl⟩ := Nat.exists_eq_add_of_le' (show 1 ≤ i by omega)
  obtain ⟨res, sup, hseries, hres, hsup, -, -⟩ := calculateSrSeries_run candles (n + 1) q.leftBars
    q.rightBars q.minTouches hi hleft hright hhigh hlow q.volumeThreshold
  have hlength := upTo_length candles (n + 1) hi JsCandle.close
  have hindex : ((n + 1 : ℕ) : ℤ) - 1 = n := by omega
  rw [SupportResistance.checkSupportResistanceSignal, hlength, if_neg (by omega), hvol, hseries]
  simp only [bind, Except.bind, hres, hsup, upTo_getLastD candles (n + 1) hi JsCandle.close,
    upTo_dropLast candles n JsCandle.close hi, upTo_getLastD candles n (Nat.lt_of_succ_lt hi), hindex]

/-! ### Bases -/

/-- The variables of the browser and of the engine. -/
structure SameBase (s : ChartModule.QflState ℚ) (t : Qfl.QflState) : Prop where
  base : s.curBase = t.curBase
  high : s.curHH = t.curHh.map some
  pos : ∀ base ∈ t.curBase, 0 < base

section Bases

variable (q : Qfl.QflParams) (hi : i < candles.length) (hbase : 2 ≤ q.basePeriods)
  (hpump : 1 ≤ q.pumpPeriods) (hlow : ∀ c ∈ candles, 0 < c.low)

include hbase in
theorem newBase_same (k : ℕ) (hk : k ≤ i) (lowestLow : ℚ)
    (hlowest : (SeriesLoop.slice (upTo candles i JsCandle.low) (k + 1 - q.basePeriods) (k + 1)).min? =
      some lowestLow) :
    ChartModule.newBaseAt (candles.map JsCandle.low) q.basePeriods q.pp k =
      Qfl.newBase q (upTo candles i JsCandle.low) lowestLow k := by
  have hpp : q.pp ≤ q.basePeriods - 1 := min_le_right _ _
  have hwindow := between_upTo candles i JsCandle.low (k + 1 - q.basePeriods) (k + 1) (by omega)
    (max 0 ((k : ℤ) - q.basePeriods + 1)) (k + 1) (by omega) (by omega)
  have hbefore := between_upTo candles i JsCandle.low (max 1 (k - q.pp) - q.basePeriods)
    (max 1 (k - q.pp)) (by omega)
    (max 0 (max 1 ((k : ℤ) - q.pp) - q.basePeriods)) (max 1 ((k : ℤ) - q.pp))
  have hat := between_upTo candles i JsCandle.low (k - q.pp + 1 - q.basePeriods) (k - q.pp + 1)
    (by omega) (max 0 ((k : ℤ) - q.pp + 1 - q.basePeriods)) ((k : ℤ) - q.pp + 1)
  rw [ChartModule.newBaseAt, Qfl.newBase]
  by_cases hk' : q.pp + 1 ≤ k
  · have hk'' : (q.pp : ℤ) + 1 ≤ k := by omega
    rw [if_pos hk', if_pos hk'']
    dsimp only
    rw [hwindow, hbefore (by omega) (by omega), hat (by omega) (by omega), smallest_eq_min?,
      smallest_eq_min?, smallest_eq_min?, hlowest]
    unfold Qfl.minOrInf
    -- a minimum that may be infinity is compared in the same way
    cases (SeriesLoop.slice (upTo candles i JsCandle.low) (k - q.pp + 1 - q.basePeriods)
        (k - q.pp + 1)).min? with
    | none => simp
    | some v =>
      cases (SeriesLoop.slice (upTo candles i JsCandle.low) (max 1 (k - q.pp) - q.basePeriods)
          (max 1 (k - q.pp))).min? with
      | none => simp [undercuts]
      | some m => simp [undercuts]
  · rw [if_neg hk', if_neg (by omega)]

theorem buyLimit_same (lows : List ℚ) (k : ℕ) (curBase : Option ℚ) (hh : ℚ) :
    Qfl.buyLimit q lows k curBase (some hh) = ChartModule.buyLimitAt (lows.getD k 0)
      (q.pumpPct / 100) (q.baseCrackPct / 100) ⟨curBase, some (some hh)⟩ := by
  cases curBase with
  | none => rfl
  | some base => simp only [Qfl.buyLimit, ChartModule.buyLimitAt, ofRat_rat]

/-- A window of positive lows has a positive minimum. -/
theorem min_pos (window : List ℚ) (m : ℚ) (hm : window.min? = some m) (h : ∀ x ∈ window, 0 < x) :
    0 < m := h m (List.min?_mem hm)

include hi hbase hpump hlow in
theorem qflRound_same (k : ℕ) (hk : k ≤ i) (s : ChartModule.QflState ℚ) (t : Qfl.QflState)
    (h : SameBase s t) :
    ∃ next, Qfl.qflRound q (upTo candles i JsCandle.high) (upTo candles i JsCandle.low) k t =
        .ok next ∧
      SameBase (ChartModule.qflStep candles q.basePeriods q.pp k s) next ∧
      next.out.base = t.out.base ++
        [(ChartModule.qflStep candles q.basePeriods q.pp k s).curBase] ∧
      next.out.buyLimit = t.out.buyLimit ++
        [ChartModule.buyLimitAt (read (candles.map JsCandle.low) k) (q.pumpPct / 100)
          (q.baseCrackPct / 100) (ChartModule.qflStep candles q.basePeriods q.pp k s)] := by
  have hpp : 1 ≤ q.pp := le_min hpump (by omega)
  have hlengthLow := upTo_length candles i hi JsCandle.low
  have hlengthHigh := upTo_length candles i hi JsCandle.high
  obtain ⟨lowestLow, hlowest, hmin⟩ := Qfl.pyMin_slice (upTo candles i JsCandle.low)
    (k + 1 - q.basePeriods) (k + 1) (by omega) (by omega)
  obtain ⟨offsetHigh, hoffset, hmax⟩ := Qfl.pyMax_slice (upTo candles i JsCandle.high)
    (k + 1 - q.pp) (k + 1) (by omega) (by omega)
  have hnew := newBase_same candles i q hbase k hk lowestLow hlowest
  have hlows := between_upTo candles i JsCandle.low (k + 1 - q.basePeriods) (k + 1) (by omega)
    (max 0 ((k : ℤ) - q.basePeriods + 1)) (k + 1) (by omega) (by omega)
  have hhighs := between_upTo candles i JsCandle.high (k + 1 - q.pp) (k + 1) (by omega)
    (max 0 ((k : ℤ) - q.pp + 1)) (k + 1) (by omega) (by omega)
  have hhigh := upTo_getD candles i JsCandle.high k hk k rfl
  have hlowAt := upTo_getD candles i JsCandle.low k hk k rfl
  have hposLow : 0 < lowestLow := by
    refine min_pos _ _ hlowest fun x hx => ?_
    obtain ⟨j, -, -, hj⟩ := (SeriesLoop.mem_slice _ _ _ _).mp hx
    obtain ⟨c, hc, rfl⟩ := List.mem_map.mp (List.mem_of_getElem? hj)
    exact hlow c (List.mem_of_mem_take hc)
  obtain ⟨hbaseSame, hhighSame, hpos⟩ := h
  have hstep : ChartModule.qflStep candles q.basePeriods q.pp k s =
      { curBase := if Qfl.newBase q (upTo candles i JsCandle.low) lowestLow k then some lowestLow
          else t.curBase
        curHH := some (some (t.curHh.elim offsetHigh fun hh =>
          if Qfl.newBase q (upTo candles i JsCandle.low) lowestLow k ||
              decide (hh < (upTo candles i JsCandle.high).getD k 0) then offsetHigh else hh)) } := by
    rw [ChartModule.qflStep, hnew, hlows, hhighs, hhigh, largest_eq_max?, smallest_eq_min?, hlowest,
      hoffset, hbaseSame, hhighSame]
    generalize (upTo candles i JsCandle.high).getD k 0 = high
    cases t.curHh with
    | none => simp [ChartModule.beatsHH]
    | some hh =>
      cases Qfl.newBase q (upTo candles i JsCandle.low) lowestLow k with
      | true => simp
      | false => by_cases hbeats : hh < high <;> simp [ChartModule.beatsHH, exceeds, hbeats]
  rw [hstep]
  simp only [Qfl.qflRound, hmin, hmax, bind, Except.bind]
  refine ⟨_, rfl, ⟨rfl, by cases t.curHh <;> rfl, ?_⟩, rfl, ?_⟩
  · intro base hbase
    dsimp only at hbase
    split at hbase
    · cases hbase
      exact hposLow
    · exact hpos base hbase
  · dsimp only
    rw [hlowAt]
    cases t.curHh <;>
      exact congrArg (fun limit => t.out.buyLimit ++ [limit]) (buyLimit_same q _ k _ _)

/-- The loops before candle `k`, side by side. -/
structure QflRun (k : ℕ) (t : Qfl.QflState) : Prop where
  same : SameBase (IndexScan.scan (ChartModule.qflStep candles q.basePeriods q.pp) {} k) t
  base : t.out.base = (List.range k).map fun j =>
    (ChartModule.qflStateAt candles q.basePeriods q.pp j).curBase
  buyLimit : t.out.buyLimit = (List.range k).map fun j : ℕ =>
    ChartModule.buyLimitAt (read (candles.map JsCandle.low) j) (q.pumpPct / 100)
      (q.baseCrackPct / 100) (ChartModule.qflStateAt candles q.basePeriods q.pp j)

include hi hbase hpump hlow in
/-- The last entries of the engine are the browser's at the index. -/
theorem calculateQflSeries_run :
    ∃ out, Qfl.calculateQflSeries q (upTo candles i JsCandle.high) (upTo candles i JsCandle.low)
        (upTo candles i JsCandle.close) = .ok out ∧
      out.base.getLast?.join = (ChartModule.qflStateAt candles q.basePeriods q.pp i).curBase ∧
      out.buyLimit.getLast?.join = ChartModule.buyLimitAt (read (candles.map JsCandle.low) i)
        (q.pumpPct / 100) (q.baseCrackPct / 100)
        (ChartModule.qflStateAt candles q.basePeriods q.pp i) ∧
      ∀ base ∈ (ChartModule.qflStateAt candles q.basePeriods q.pp i).curBase, 0 < base := by
  have hlength := upTo_length candles i hi
  obtain ⟨t, hloop, hrun⟩ := SeriesLoop.forRange_spec (QflRun candles q) 0 (i + 1)
    (Qfl.qflRound q (upTo candles i JsCandle.high) (upTo candles i JsCandle.low)) {}
    ⟨⟨rfl, rfl, fun b hb => absurd hb (Option.not_mem_none b)⟩, rfl, rfl⟩ fun k hk _ t ht => by
      obtain ⟨next, hnext, hsame, hbaseNext, hlimitNext⟩ := qflRound_same candles i q hi hbase hpump
        hlow k (by omega) _ t ht.same
      refine ⟨next, hnext, hsame, ?_, ?_⟩
      · rw [hbaseNext, ht.base, List.range_succ, List.map_append]
        rfl
      · rw [hlimitNext, ht.buyLimit, List.range_succ, List.map_append]
        rfl
  rw [zero_add] at hrun
  refine ⟨t.out, ?_, ?_, ?_, fun base hb => hrun.same.pos base (hrun.same.base ▸ hb)⟩
  · simp only [Qfl.calculateQflSeries, hlength, ne_eq, not_true_eq_false, or_self, if_false, hloop,
      bind, Except.bind]
    rfl
  · rw [hrun.base, List.range_succ, List.map_append, List.map_singleton, List.getLast?_concat]
    rfl
  · rw [hrun.buyLimit, List.range_succ, List.map_append, List.map_singleton, List.getLast?_concat]
    rfl

/-- Where the engine raises the browser has no signal. -/
theorem baseSignal_eq (condition : String) (price : ℚ) (base limit : Option ℚ)
    (hpos : ∀ b ∈ base, 0 < b) :
    (match (if condition ≠ "below_base" ∧ condition ≠ "near_base" ∧ condition ≠ "base_retest" then
        .error .indicatorError
      else Qfl.baseSignal condition price base limit) with
      | .ok signal => signal
      | .error _ => false) = RevertoBacktest.qflHit condition price base limit := by
  have hpure : ∀ level x : ℚ, 0 < level → pyDiv x level = .ok (x / level) :=
    fun level x hlevel => if_neg hlevel.ne'
  by_cases hbelow : condition = "below_base"
  · subst hbelow
    cases limit <;> simp [Qfl.baseSignal, RevertoBacktest.qflHit]
  by_cases hnear : condition = "near_base"
  · subst hnear
    cases base with
    | none => simp [Qfl.baseSignal, RevertoBacktest.qflHit]
    | some base =>
      simp [Qfl.baseSignal, RevertoBacktest.qflHit, hpure _ _ (hpos base rfl), bind, Except.bind,
        pure, Except.pure]
  by_cases hretest : condition = "base_retest"
  · subst hretest
    cases base <;> simp [Qfl.baseSignal, RevertoBacktest.qflHit]
  · rw [if_pos ⟨hbelow, hnear, hretest⟩]
    unfold RevertoBacktest.qflHit
    split <;> simp_all

include hi hbase hpump hlow in
theorem checkQfl_run (condition : String) (hn : q.basePeriods ≤ i + 1) :
    (match Qfl.checkQflSignal (upTo candles i JsCandle.close) condition q
        (some (upTo candles i JsCandle.high)) (some (upTo candles i JsCandle.low)) with
      | .ok signal => signal
      | .error _ => false) =
      RevertoBacktest.qflHit condition (read (candles.map JsCandle.close) i)
        (ChartModule.qflStateAt candles q.basePeriods q.pp i).curBase
        (ChartModule.buyLimitAt (read (candles.map JsCandle.low) i) (q.pumpPct / 100)
          (q.baseCrackPct / 100) (ChartModule.qflStateAt candles q.basePeriods q.pp i)) := by
  obtain ⟨out, hout, hbaseOut, hlimitOut, hpos⟩ := calculateQflSeries_run candles i q hi hbase hpump hlow
  have hlength := upTo_length candles i hi
  have hseries : ∀ f, Qfl.seriesOr (some (upTo candles i f)) (upTo candles i JsCandle.close) =
      upTo candles i f := by
    intro f
    have hne : upTo candles i f ≠ [] := List.ne_nil_of_length_pos (by rw [hlength]; omega)
    exact if_pos ⟨hne, by rw [hlength, hlength]⟩
  rw [Qfl.checkQflSignal, hlength, hseries, hseries]
  simp only [if_neg (not_lt.mpr hn), hout, bind, Except.bind, upTo_getLast? candles i hi, hbaseOut,
    hlimitOut]
  exact baseSignal_eq condition _ _ _ hpos

end Bases

end Scans

end SignalAgreement

end Reverto
