import Mathlib.Tactic
import Reverto.Core.InversePerpMath
import Reverto.Lib.IndexScan
import Reverto.Lib.SeriesLoop

/-!
# Parabolic SAR (strategies/indicators/parabolic_sar.py)

The stop trails a trend and is clamped to the two bars before the current one;
a bar that reaches it turns the trend, and the stop becomes the extreme point of
the trend that ended.
-/

namespace Reverto

/-- The direction of a trend, 1 or -1. -/
inductive Trend where
  | up
  | down
  deriving DecidableEq, Repr

namespace ParabolicSar

/-- `trend`, `ep`, `sar` and `af`. -/
structure SarState where
  trend : Trend
  ep : ℚ
  sar : ℚ
  af : ℚ
  deriving DecidableEq, Repr

/-- The variables before the loop. -/
def sarStart (highs lows closes : List ℚ) (initialAf : ℚ) : SarState :=
  if closes.getD 0 0 ≤ closes.getD 1 0 then ⟨.up, highs.getD 1 0, lows.getD 0 0, initialAf⟩
  else ⟨.down, lows.getD 1 0, highs.getD 0 0, initialAf⟩

/-- `new_sar` of bar `i`, clamped to the bars before it. -/
def newSar (highs lows : List ℚ) (i : ℕ) (s : SarState) : ℚ :=
  let moved := s.sar + s.af * (s.ep - s.sar)
  match s.trend with
  | .up =>
    min (min moved (lows.getD (i - 1) 0))
      (if 3 ≤ i then lows.getD (i - 2) 0 else lows.getD (i - 1) 0)
  | .down =>
    max (max moved (highs.getD (i - 1) 0))
      (if 3 ≤ i then highs.getD (i - 2) 0 else highs.getD (i - 1) 0)

/-- The round of the loop at bar `i`. -/
def sarRound (highs lows : List ℚ) (initialAf maxAf : ℚ) (i : ℕ) (s : SarState) : SarState :=
  let new := newSar highs lows i s
  match s.trend with
  | .up =>
    if lows.getD i 0 < new then ⟨.down, lows.getD i 0, s.ep, initialAf⟩
    else if s.ep < highs.getD i 0 then ⟨.up, highs.getD i 0, new, min (s.af + initialAf) maxAf⟩
    else { s with sar := new }
  | .down =>
    if new < highs.getD i 0 then ⟨.up, highs.getD i 0, s.ep, initialAf⟩
    else if lows.getD i 0 < s.ep then ⟨.down, lows.getD i 0, new, min (s.af + initialAf) maxAf⟩
    else { s with sar := new }

/-- The variables after bar `i`; those of the first two bars are the same. -/
def sarAt (highs lows closes : List ℚ) (initialAf maxAf : ℚ) (i : ℕ) : SarState :=
  IndexScan.scan (fun k => sarRound highs lows initialAf maxAf (k + 2))
    (sarStart highs lows closes initialAf) (i - 1)

/-- `calculate_parabolic_sar`: `(sar, trend)` per bar. -/
def calculateParabolicSar (highs lows closes : List ℚ) (initialAf maxAf : ℚ) :
    Except PyError (List (ℚ × Trend)) :=
  let n := closes.length
  if n < 10 then .error .indicatorError
  else if highs.length ≠ n ∨ lows.length ≠ n then .error .indicatorError
  else .ok ((List.range n).map fun i =>
    let s := sarAt highs lows closes initialAf maxAf i
    (s.sar, s.trend))

/-- What a condition says about the trend and the one before it. -/
def trendHit (condition : String) (prev curr : Trend) : Bool :=
  match condition with
  | "bullish" | "price_greater_than" => decide (curr = .up)
  | "bearish" | "price_lower_than" => decide (curr = .down)
  | "bullish_flip" | "price_crossing_up" => decide (prev = .down) && decide (curr = .up)
  | "bearish_flip" | "price_crossing_down" => decide (prev = .up) && decide (curr = .down)
  | _ => false

/-- `check_parabolic_sar_signal` -/
def checkParabolicSarSignal (highs lows closes : List ℚ) (initialAf maxAf : ℚ)
    (condition : String) : Except PyError Bool := do
  let series ← calculateParabolicSar highs lows closes initialAf maxAf
  match series.reverse with
  | curr :: prev :: _ => pure (trendHit condition prev.2 curr.2)
  | _ => .error .indicatorError

/-! ### The stop and the bar -/

variable (highs lows closes : List ℚ) (initialAf maxAf : ℚ)

/-- A stop lies on the far side of bar `i`. -/
def FarSide (i : ℕ) (sar : ℚ) : Trend → Prop
  | .up => sar ≤ lows.getD i 0
  | .down => highs.getD i 0 ≤ sar

/-- From the third bar on the stop lies on the far side of the bar. -/
def StopHolds (series : List (ℚ × Trend)) : Prop :=
  ∀ i sar trend, 2 ≤ i → series[i]? = some (sar, trend) → FarSide highs lows i sar trend

/-- Bar `i` turns the trend `s` and goes beyond the extreme point the trend had. -/
def Overshoots (i : ℕ) (s : SarState) : Prop :=
  match s.trend with
  | .up => lows.getD i 0 < newSar highs lows i s ∧ s.ep < highs.getD i 0
  | .down => newSar highs lows i s < highs.getD i 0 ∧ lows.getD i 0 < s.ep

/-- The acceleration factor of a state. -/
def AfBounded (s : SarState) : Prop := initialAf ≤ s.af ∧ s.af ≤ maxAf

theorem sarStart_af (h : initialAf ≤ maxAf) :
    AfBounded initialAf maxAf (sarStart highs lows closes initialAf) := by
  unfold sarStart
  split
  · exact ⟨le_rfl, h⟩
  · exact ⟨le_rfl, h⟩

theorem sarRound_af (i : ℕ) (s : SarState) (hpos : 0 < initialAf) (hmax : initialAf ≤ maxAf)
    (h : AfBounded initialAf maxAf s) :
    AfBounded initialAf maxAf (sarRound highs lows initialAf maxAf i s) := by
  have hfaster : AfBounded initialAf maxAf
      ⟨s.trend, s.ep, s.sar, min (s.af + initialAf) maxAf⟩ :=
    ⟨le_min (by linarith [h.1]) hmax, min_le_right _ _⟩
  unfold sarRound
  cases s.trend with
  | up =>
    dsimp only
    split
    · exact ⟨le_rfl, hmax⟩
    split
    · exact hfaster
    · exact h
  | down =>
    dsimp only
    split
    · exact ⟨le_rfl, hmax⟩
    split
    · exact hfaster
    · exact h

theorem sarAt_af (i : ℕ) (hpos : 0 < initialAf) (hmax : initialAf ≤ maxAf) :
    AfBounded initialAf maxAf (sarAt highs lows closes initialAf maxAf i) :=
  IndexScan.scan_invariant (AfBounded initialAf maxAf) _ _ _
    (sarStart_af highs lows closes initialAf maxAf hmax)
    fun k _ s hs => sarRound_af highs lows initialAf maxAf (k + 2) s hpos hmax hs

/-- A round leaves the stop on the far side of its bar unless the bar overshoots. -/
theorem sarRound_farSide (i : ℕ) (s : SarState) :
    FarSide highs lows i (sarRound highs lows initialAf maxAf i s).sar
        (sarRound highs lows initialAf maxAf i s).trend ↔ ¬ Overshoots highs lows i s := by
  unfold sarRound Overshoots
  cases s.trend with
  | up =>
    dsimp only
    split
    · next hturns => simp only [FarSide, hturns, true_and, not_lt]
    · next hholds =>
      have hnever : ¬ (lows.getD i 0 < newSar highs lows i s ∧ s.ep < highs.getD i 0) :=
        fun h => hholds h.1
      simp only [hnever, not_false_eq_true, iff_true]
      split
      · exact not_lt.mp hholds
      · exact not_lt.mp hholds
  | down =>
    dsimp only
    split
    · next hturns => simp only [FarSide, hturns, true_and, not_lt]
    · next hholds =>
      have hnever : ¬ (newSar highs lows i s < highs.getD i 0 ∧ lows.getD i 0 < s.ep) :=
        fun h => hholds h.1
      simp only [hnever, not_false_eq_true, iff_true]
      split
      · exact not_lt.mp hholds
      · exact not_lt.mp hholds

theorem sarAt_succ (i : ℕ) (h : 1 ≤ i) :
    sarAt highs lows closes initialAf maxAf (i + 1) =
      sarRound highs lows initialAf maxAf (i + 1) (sarAt highs lows closes initialAf maxAf i) := by
  obtain ⟨k, rfl⟩ := Nat.exists_eq_add_of_le' h
  rw [sarAt, sarAt, Nat.add_sub_cancel, Nat.add_sub_cancel, IndexScan.scan_succ]

theorem calculateParabolicSar_ok (hn : 10 ≤ closes.length) (hhighs : highs.length = closes.length)
    (hlows : lows.length = closes.length) :
    ∃ series, calculateParabolicSar highs lows closes initialAf maxAf = .ok series ∧
      series.length = closes.length ∧
      ∀ i < closes.length, series[i]? = some ((sarAt highs lows closes initialAf maxAf i).sar,
        (sarAt highs lows closes initialAf maxAf i).trend) := by
  have hlengths : ¬ (highs.length ≠ closes.length ∨ lows.length ≠ closes.length) := by omega
  refine ⟨(List.range closes.length).map fun i =>
    ((sarAt highs lows closes initialAf maxAf i).sar,
      (sarAt highs lows closes initialAf maxAf i).trend), ?_, ?_, ?_⟩
  · rw [calculateParabolicSar, if_neg (not_lt.mpr hn), if_neg hlengths]
  · rw [List.length_map, List.length_range]
  · intro i hi
    exact SeriesLoop.getElem?_map_range _ _ i hi

/-- The stop stays on the far side of every bar exactly when no bar that turns the
trend goes beyond the extreme point of the trend it ends. -/
theorem stopHolds_iff (hn : 10 ≤ closes.length) (hhighs : highs.length = closes.length)
    (hlows : lows.length = closes.length) (hpos : 0 < initialAf) (hmax : initialAf ≤ maxAf) :
    ∃ series, calculateParabolicSar highs lows closes initialAf maxAf = .ok series ∧
      series.length = closes.length ∧
      ((StopHolds highs lows series ∧
          ∀ i, AfBounded initialAf maxAf (sarAt highs lows closes initialAf maxAf i)) ↔
        ∀ i, 2 ≤ i → i < closes.length →
          ¬ Overshoots highs lows i (sarAt highs lows closes initialAf maxAf (i - 1))) := by
  obtain ⟨series, hok, hlen, hseries⟩ :=
    calculateParabolicSar_ok highs lows closes initialAf maxAf hn hhighs hlows
  refine ⟨series, hok, hlen, ?_⟩
  have haf := fun i => sarAt_af highs lows closes initialAf maxAf i hpos hmax
  -- bar by bar
  have hbar : ∀ i, 2 ≤ i → (FarSide highs lows i (sarAt highs lows closes initialAf maxAf i).sar
      (sarAt highs lows closes initialAf maxAf i).trend ↔
        ¬ Overshoots highs lows i (sarAt highs lows closes initialAf maxAf (i - 1))) := by
    intro i hi
    obtain ⟨k, rfl⟩ := Nat.exists_eq_add_of_le' hi
    rw [sarAt_succ highs lows closes initialAf maxAf (k + 1) (by omega)]
    exact sarRound_farSide highs lows initialAf maxAf (k + 2) _
  constructor
  · rintro ⟨hholds, -⟩ i hi hlt
    exact (hbar i hi).mp (hholds i _ _ hi (hseries i hlt))
  · intro h
    refine ⟨fun i sar trend hi hget => ?_, haf⟩
    have hlt : i < closes.length := hlen ▸ (List.getElem?_eq_some_iff.mp hget).1
    rw [hseries i hlt] at hget
    cases hget
    exact (hbar i hi).mpr (h i hi hlt)

/-- The theorem on ten flat bars. -/
theorem stopHolds_iff_flat :
    ∃ series, calculateParabolicSar (List.replicate 10 2) (List.replicate 10 1)
        (List.replicate 10 1) (2 / 100) (20 / 100) = .ok series ∧
      series.length = (List.replicate 10 (1 : ℚ)).length ∧
      ((StopHolds (List.replicate 10 2) (List.replicate 10 1) series ∧
          ∀ i, AfBounded (2 / 100) (20 / 100) (sarAt (List.replicate 10 2) (List.replicate 10 1)
            (List.replicate 10 1) (2 / 100) (20 / 100) i)) ↔
        ∀ i, 2 ≤ i → i < (List.replicate 10 (1 : ℚ)).length →
          ¬ Overshoots (List.replicate 10 2) (List.replicate 10 1) i (sarAt (List.replicate 10 2)
            (List.replicate 10 1) (List.replicate 10 1) (2 / 100) (20 / 100) (i - 1))) :=
  stopHolds_iff (List.replicate 10 2) (List.replicate 10 1) (List.replicate 10 1) (2 / 100)
    (20 / 100) (by decide) rfl rfl (by norm_num) (by norm_num)

/-- Ten bars of which the third reaches over and under the ones before it. -/
def outsideBar : List ℚ × List ℚ × List ℚ :=
  ([10, 11, 13] ++ List.replicate 7 8, [9, 10, 5] ++ List.replicate 7 7,
    [19 / 2, 21 / 2, 6] ++ List.replicate 7 (15 / 2))

/-- The stop of the falling trend lies below the bar that began it. -/
theorem not_stopHolds_outsideBar :
    ¬ ∀ (highs lows closes : List ℚ) (initialAf maxAf : ℚ) (series : List (ℚ × Trend)),
      (∀ i < closes.length, lows.getD i 0 ≤ highs.getD i 0) → 0 < initialAf → initialAf ≤ maxAf →
        calculateParabolicSar highs lows closes initialAf maxAf = .ok series →
          StopHolds highs lows series := by
  intro h
  have hholds := h outsideBar.1 outsideBar.2.1 outsideBar.2.2 (2 / 100) (20 / 100) _
    (by decide +kernel) (by norm_num) (by norm_num) rfl
  have hthird : (13 : ℚ) ≤ 11 := hholds 2 11 .down le_rfl (by decide +kernel)
  norm_num at hthird

/-! ### Only an outside bar overshoots -/

/-- The extreme point covers bar `i`. -/
def Covers (i : ℕ) (s : SarState) : Prop :=
  match s.trend with
  | .up => highs.getD i 0 ≤ s.ep
  | .down => s.ep ≤ lows.getD i 0

theorem sarStart_covers : Covers highs lows 1 (sarStart highs lows closes initialAf) := by
  unfold sarStart
  split
  · exact le_refl (highs.getD 1 0)
  · exact le_refl (lows.getD 1 0)

theorem sarRound_covers (i : ℕ) (s : SarState) :
    Covers highs lows i (sarRound highs lows initialAf maxAf i s) := by
  unfold sarRound
  cases s.trend with
  | up =>
    dsimp only
    split
    · exact le_refl (lows.getD i 0)
    split
    · exact le_refl (highs.getD i 0)
    · next hhigh => exact not_lt.mp hhigh
  | down =>
    dsimp only
    split
    · exact le_refl (highs.getD i 0)
    split
    · exact le_refl (lows.getD i 0)
    · next hlow => exact not_lt.mp hlow

theorem sarAt_covers (i : ℕ) (h : 1 ≤ i) :
    Covers highs lows i (sarAt highs lows closes initialAf maxAf i) := by
  induction i, h using Nat.le_induction with
  | base => exact sarStart_covers highs lows closes initialAf
  | succ i hi _ =>
    rw [sarAt_succ highs lows closes initialAf maxAf i hi]
    exact sarRound_covers highs lows initialAf maxAf (i + 1) _

theorem newSar_up (i : ℕ) (s : SarState) (h : s.trend = .up) :
    newSar highs lows i s ≤ lows.getD (i - 1) 0 := by
  rw [newSar, h]
  exact (min_le_left _ _).trans (min_le_right _ _)

theorem newSar_down (i : ℕ) (s : SarState) (h : s.trend = .down) :
    highs.getD (i - 1) 0 ≤ newSar highs lows i s := by
  rw [newSar, h]
  exact (le_max_right _ _).trans (le_max_left _ _)

/-- A bar that overshoots reaches over and under the bar before it. -/
theorem outside_of_overshoots (i : ℕ) (hi : 2 ≤ i)
    (h : Overshoots highs lows i (sarAt highs lows closes initialAf maxAf (i - 1))) :
    highs.getD (i - 1) 0 < highs.getD i 0 ∧ lows.getD i 0 < lows.getD (i - 1) 0 := by
  have hcovers := sarAt_covers highs lows closes initialAf maxAf (i - 1) (by omega)
  unfold Overshoots at h
  unfold Covers at hcovers
  cases ht : (sarAt highs lows closes initialAf maxAf (i - 1)).trend with
  | up =>
    rw [ht] at h hcovers
    exact ⟨hcovers.trans_lt h.2, h.1.trans_le (newSar_up highs lows i _ ht)⟩
  | down =>
    rw [ht] at h hcovers
    exact ⟨(newSar_down highs lows i _ ht).trans_lt h.1, h.2.trans_le hcovers⟩

end ParabolicSar

end Reverto
