import Mathlib.Tactic
import Reverto.Strategies.ParabolicSar

/-!
# Supertrend (strategies/indicators/supertrend.py)

Two bands around the middle of a bar, as far apart as the average true range
says, that follow the price; the trend turns when the close crosses the band on
its other side.
-/

namespace Reverto

namespace Supertrend

/-- `_true_range` -/
def trueRange (high low prevClose : ℚ) : ℚ :=
  max (max (high - low) |high - prevClose|) |low - prevClose|

/-- `prev_final_upper`, `prev_final_lower` and `prev_trend`. -/
structure BandState where
  finalUpper : ℚ
  finalLower : ℚ
  trend : Trend
  deriving DecidableEq, Repr

/-- `supertrend_val` -/
def BandState.line (s : BandState) : ℚ :=
  match s.trend with
  | .up => s.finalLower
  | .down => s.finalUpper

variable (highs lows closes : List ℚ) (atrPeriod : ℕ) (multiplier : ℚ)

/-- `tr[i]` -/
def trAt (i : ℕ) : ℚ :=
  if i = 0 then 0 else trueRange (highs.getD i 0) (lows.getD i 0) (closes.getD (i - 1) 0)

/-- `atr[atr_period + k]` -/
def atrAt (k : ℕ) : ℚ :=
  IndexScan.scan
    (fun k atr => (atr * (atrPeriod - 1) + trAt highs lows closes (atrPeriod + k + 1)) / atrPeriod)
    (((List.range' 1 atrPeriod).map (trAt highs lows closes)).sum / atrPeriod) k

/-- `mid` of bar `i`. -/
def midAt (i : ℕ) : ℚ := (highs.getD i 0 + lows.getD i 0) / 2

/-- `basic_upper` of bar `atr_period + k`. -/
def basicUpper (k : ℕ) : ℚ :=
  midAt highs lows (atrPeriod + k) + multiplier * atrAt highs lows closes atrPeriod k

/-- `basic_lower` of bar `atr_period + k`. -/
def basicLower (k : ℕ) : ℚ :=
  midAt highs lows (atrPeriod + k) - multiplier * atrAt highs lows closes atrPeriod k

/-- `final_upper` of bar `atr_period + k`, not the first one. -/
def finalUpper (k : ℕ) (s : BandState) : ℚ :=
  if basicUpper highs lows closes atrPeriod multiplier k < s.finalUpper ∨
      s.finalUpper < closes.getD (atrPeriod + k - 1) 0 then
    basicUpper highs lows closes atrPeriod multiplier k
  else s.finalUpper

/-- `final_lower` of bar `atr_period + k`, not the first one. -/
def finalLower (k : ℕ) (s : BandState) : ℚ :=
  if s.finalLower < basicLower highs lows closes atrPeriod multiplier k ∨
      closes.getD (atrPeriod + k - 1) 0 < s.finalLower then
    basicLower highs lows closes atrPeriod multiplier k
  else s.finalLower

/-- The first bar behind the warm-up. -/
def firstBands : BandState where
  finalUpper := basicUpper highs lows closes atrPeriod multiplier 0
  finalLower := basicLower highs lows closes atrPeriod multiplier 0
  trend :=
    if basicUpper highs lows closes atrPeriod multiplier 0 < closes.getD atrPeriod 0 then .up
    else .down

/-- The round of the loop at bar `atr_period + k`, not the first one. -/
def bandRound (k : ℕ) (s : BandState) : BandState where
  finalUpper := finalUpper highs lows closes atrPeriod multiplier k s
  finalLower := finalLower highs lows closes atrPeriod multiplier k s
  trend :=
    match s.trend with
    | .up =>
      if closes.getD (atrPeriod + k) 0 < finalLower highs lows closes atrPeriod multiplier k s then
        .down
      else .up
    | .down =>
      if finalUpper highs lows closes atrPeriod multiplier k s < closes.getD (atrPeriod + k) 0 then
        .up
      else .down

/-- The bands and the trend at bar `atr_period + k`. -/
def bandAt (k : ℕ) : BandState :=
  IndexScan.scan (fun k => bandRound highs lows closes atrPeriod multiplier (k + 1))
    (firstBands highs lows closes atrPeriod multiplier) k

/-- `calculate_supertrend`: `(supertrend, trend)` per bar. -/
def calculateSupertrend : Except PyError (List (ℚ × Trend)) :=
  let n := closes.length
  if n ≠ highs.length ∨ n ≠ lows.length then .error .indicatorError
  else if n < atrPeriod + 1 then .error .indicatorError
  else if atrPeriod = 0 then .error .zeroDivisionError
  else .ok ((List.range n).map fun i =>
    if i < atrPeriod then (0, .up)
    else
      let s := bandAt highs lows closes atrPeriod multiplier (i - atrPeriod)
      (s.line, s.trend))

/-- What a condition says about the trend and the one before it; `none` where it raises. -/
def trendHit? (condition : String) (prev curr : Trend) : Option Bool :=
  match condition with
  | "bullish" => some (decide (curr = .up))
  | "bearish" => some (decide (curr = .down))
  | "bullish_flip" | "from_down_to_up" => some (decide (prev = .down) && decide (curr = .up))
  | "bearish_flip" | "from_up_to_down" => some (decide (prev = .up) && decide (curr = .down))
  | _ => none

/-- `check_supertrend_signal` -/
def checkSupertrendSignal (condition : String) : Except PyError Bool := do
  let series ← calculateSupertrend highs lows closes atrPeriod multiplier
  match series.reverse with
  | curr :: prev :: _ =>
    match trendHit? condition prev.2 curr.2 with
    | some hit => pure hit
    | none => .error .indicatorError
  | _ => .error .indicatorError

/-! ### The line and the close -/

/-- A line is on the far side of a close. -/
def FarSide (close line : ℚ) : Trend → Prop
  | .up => line ≤ close
  | .down => close ≤ line

/-- A line does not move against its trend. -/
def Favourable (before after : ℚ) : Trend → Prop
  | .up => before ≤ after
  | .down => after ≤ before

/-- Past the warm-up the line is on the far side of the close and moves with the
trend as long as it persists. -/
structure LineHolds (series : List (ℚ × Trend)) : Prop where
  side : ∀ i line trend, atrPeriod ≤ i → series[i]? = some (line, trend) →
    FarSide (closes.getD i 0) line trend
  ratchet : ∀ i line next trend, atrPeriod ≤ i → series[i]? = some (line, trend) →
    series[i + 1]? = some (next, trend) → Favourable line next trend

/-- At bar `atr_period + k` the bands have crossed and the close lies between them. -/
def BetweenCrossed (k : ℕ) (s : BandState) : Prop :=
  finalUpper highs lows closes atrPeriod multiplier k s < closes.getD (atrPeriod + k) 0 ∧
    closes.getD (atrPeriod + k) 0 < finalLower highs lows closes atrPeriod multiplier k s

theorem trAt_nonneg (i : ℕ) : 0 ≤ trAt highs lows closes i := by
  unfold trAt
  split
  · exact le_rfl
  · exact (abs_nonneg _).trans (le_max_right _ _)

theorem atrAt_nonneg (k : ℕ) (hperiod : 1 ≤ atrPeriod) :
    0 ≤ atrAt highs lows closes atrPeriod k := by
  have hone : (1 : ℚ) ≤ atrPeriod := by exact_mod_cast hperiod
  refine IndexScan.scan_invariant (0 ≤ ·) _ _ _ ?_ fun k _ atr hatr => ?_
  · refine div_nonneg (List.sum_nonneg fun x hx => ?_) (by linarith)
    obtain ⟨i, -, rfl⟩ := List.mem_map.mp hx
    exact trAt_nonneg highs lows closes i
  · have htr := trAt_nonneg highs lows closes (atrPeriod + k + 1)
    exact div_nonneg (add_nonneg (mul_nonneg hatr (by linarith)) htr) (by linarith)

theorem firstBands_side (hperiod : 1 ≤ atrPeriod) (hmultiplier : 0 ≤ multiplier) :
    FarSide (closes.getD atrPeriod 0) (firstBands highs lows closes atrPeriod multiplier).line
      (firstBands highs lows closes atrPeriod multiplier).trend := by
  have hwidth := mul_nonneg hmultiplier (atrAt_nonneg highs lows closes atrPeriod 0 hperiod)
  have hbands : basicLower highs lows closes atrPeriod multiplier 0 ≤
      basicUpper highs lows closes atrPeriod multiplier 0 := by
    unfold basicLower basicUpper
    linarith
  by_cases habove : basicUpper highs lows closes atrPeriod multiplier 0 < closes.getD atrPeriod 0
  · simp only [firstBands, BandState.line, if_pos habove, FarSide]
    exact hbands.trans habove.le
  · simp only [firstBands, BandState.line, if_neg habove, FarSide]
    exact not_lt.mp habove

theorem bandRound_line_up (k : ℕ) (s : BandState)
    (h : (bandRound highs lows closes atrPeriod multiplier k s).trend = .up) :
    (bandRound highs lows closes atrPeriod multiplier k s).line =
      finalLower highs lows closes atrPeriod multiplier k s := by
  rw [BandState.line, h]
  rfl

theorem bandRound_line_down (k : ℕ) (s : BandState)
    (h : (bandRound highs lows closes atrPeriod multiplier k s).trend = .down) :
    (bandRound highs lows closes atrPeriod multiplier k s).line =
      finalUpper highs lows closes atrPeriod multiplier k s := by
  rw [BandState.line, h]
  rfl

/-- The trend after a round. -/
theorem bandRound_trend (k : ℕ) (s : BandState) :
    (bandRound highs lows closes atrPeriod multiplier k s).trend =
      match s.trend with
      | .up =>
        if closes.getD (atrPeriod + k) 0 < finalLower highs lows closes atrPeriod multiplier k s then
          .down
        else .up
      | .down =>
        if finalUpper highs lows closes atrPeriod multiplier k s < closes.getD (atrPeriod + k) 0 then
          .up
        else .down := rfl

/-- A round leaves the line on the far side unless the close is between crossed bands. -/
theorem bandRound_side (k : ℕ) (s : BandState) :
    FarSide (closes.getD (atrPeriod + k) 0)
        (bandRound highs lows closes atrPeriod multiplier k s).line
        (bandRound highs lows closes atrPeriod multiplier k s).trend ↔
      ¬ BetweenCrossed highs lows closes atrPeriod multiplier k s := by
  have htrend := bandRound_trend highs lows closes atrPeriod multiplier k s
  unfold BetweenCrossed
  cases ht : s.trend with
  | up =>
    rw [ht] at htrend
    by_cases hturns : closes.getD (atrPeriod + k) 0 <
        finalLower highs lows closes atrPeriod multiplier k s
    · replace htrend := htrend.trans (if_pos hturns)
      rw [bandRound_line_down _ _ _ _ _ k s htrend, htrend]
      simp only [FarSide, hturns, and_true, not_lt]
    · replace htrend := htrend.trans (if_neg hturns)
      rw [bandRound_line_up _ _ _ _ _ k s htrend, htrend]
      simp only [FarSide, hturns, and_false, not_false_eq_true, iff_true]
      exact not_lt.mp hturns
  | down =>
    rw [ht] at htrend
    by_cases hturns : finalUpper highs lows closes atrPeriod multiplier k s <
        closes.getD (atrPeriod + k) 0
    · replace htrend := htrend.trans (if_pos hturns)
      rw [bandRound_line_up _ _ _ _ _ k s htrend, htrend]
      simp only [FarSide, hturns, true_and, not_lt]
    · replace htrend := htrend.trans (if_neg hturns)
      rw [bandRound_line_down _ _ _ _ _ k s htrend, htrend]
      simp only [FarSide, hturns, false_and, not_false_eq_true, iff_true]
      exact not_lt.mp hturns

/-- Behind a line on the far side a band only moves with the trend. -/
theorem bandRound_ratchet (k : ℕ) (s : BandState)
    (hside : FarSide (closes.getD (atrPeriod + k - 1) 0) s.line s.trend)
    (hpersists : (bandRound highs lows closes atrPeriod multiplier k s).trend = s.trend) :
    Favourable s.line (bandRound highs lows closes atrPeriod multiplier k s).line s.trend := by
  cases ht : s.trend with
  | up =>
    rw [ht] at hpersists hside
    rw [bandRound_line_up _ _ _ _ _ k s hpersists]
    simp only [FarSide, BandState.line, ht] at hside
    simp only [Favourable, BandState.line, ht, finalLower]
    split
    · next hmoves => exact (hmoves.resolve_right (not_lt.mpr hside)).le
    · exact le_rfl
  | down =>
    rw [ht] at hpersists hside
    rw [bandRound_line_down _ _ _ _ _ k s hpersists]
    simp only [FarSide, BandState.line, ht] at hside
    simp only [Favourable, BandState.line, ht, finalUpper]
    split
    · next hmoves => exact (hmoves.resolve_right (not_lt.mpr hside)).le
    · exact le_rfl

theorem bandAt_succ (k : ℕ) :
    bandAt highs lows closes atrPeriod multiplier (k + 1) =
      bandRound highs lows closes atrPeriod multiplier (k + 1)
        (bandAt highs lows closes atrPeriod multiplier k) := rfl

theorem calculateSupertrend_ok (hhighs : closes.length = highs.length)
    (hlows : closes.length = lows.length) (hperiod : 1 ≤ atrPeriod)
    (hn : atrPeriod + 1 ≤ closes.length) :
    ∃ series, calculateSupertrend highs lows closes atrPeriod multiplier = .ok series ∧
      series.length = closes.length ∧
      ∀ k, atrPeriod + k < closes.length → series[atrPeriod + k]? =
        some ((bandAt highs lows closes atrPeriod multiplier k).line,
          (bandAt highs lows closes atrPeriod multiplier k).trend) := by
  have hlengths : ¬ (closes.length ≠ highs.length ∨ closes.length ≠ lows.length) := by omega
  refine ⟨(List.range closes.length).map fun i =>
    if i < atrPeriod then (0, .up)
    else ((bandAt highs lows closes atrPeriod multiplier (i - atrPeriod)).line,
      (bandAt highs lows closes atrPeriod multiplier (i - atrPeriod)).trend), ?_, ?_, ?_⟩
  · rw [calculateSupertrend, if_neg hlengths, if_neg (not_lt.mpr hn), if_neg (by omega)]
  · rw [List.length_map, List.length_range]
  · intro k hk
    rw [SeriesLoop.getElem?_map_range _ _ _ hk, if_neg (by omega), Nat.add_sub_cancel_left]

/-- The line holds exactly when at no bar the close lies between crossed bands. -/
theorem lineHolds_iff (hhighs : closes.length = highs.length)
    (hlows : closes.length = lows.length) (hperiod : 1 ≤ atrPeriod) (hmultiplier : 0 ≤ multiplier)
    (hn : atrPeriod + 1 ≤ closes.length) :
    ∃ series, calculateSupertrend highs lows closes atrPeriod multiplier = .ok series ∧
      series.length = closes.length ∧
      (LineHolds closes atrPeriod series ↔
        ∀ k, atrPeriod + (k + 1) < closes.length →
          ¬ BetweenCrossed highs lows closes atrPeriod multiplier (k + 1)
            (bandAt highs lows closes atrPeriod multiplier k)) := by
  obtain ⟨series, hok, hlen, hseries⟩ :=
    calculateSupertrend_ok highs lows closes atrPeriod multiplier hhighs hlows hperiod hn
  refine ⟨series, hok, hlen, ?_⟩
  have hlt : ∀ i entry, series[i]? = some entry → i < closes.length := fun i entry hget =>
    hlen ▸ (List.getElem?_eq_some_iff.mp hget).1
  constructor
  · intro h k hk
    have hside := h.side (atrPeriod + (k + 1)) _ _ (Nat.le_add_right _ _) (hseries (k + 1) hk)
    rw [bandAt_succ] at hside
    exact (bandRound_side highs lows closes atrPeriod multiplier (k + 1) _).mp hside
  · intro h
    have hside : ∀ k, atrPeriod + k < closes.length → FarSide (closes.getD (atrPeriod + k) 0)
        (bandAt highs lows closes atrPeriod multiplier k).line
        (bandAt highs lows closes atrPeriod multiplier k).trend := by
      intro k hk
      cases k with
      | zero => exact firstBands_side highs lows closes atrPeriod multiplier hperiod hmultiplier
      | succ k =>
        rw [bandAt_succ]
        exact (bandRound_side highs lows closes atrPeriod multiplier (k + 1) _).mpr (h k hk)
    refine ⟨fun i line trend hi hget => ?_, fun i line next trend hi hget hnext => ?_⟩
    · obtain ⟨k, rfl⟩ := Nat.exists_eq_add_of_le hi
      have hk := hlt _ _ hget
      rw [hseries k hk] at hget
      cases hget
      exact hside k hk
    · obtain ⟨k, rfl⟩ := Nat.exists_eq_add_of_le hi
      have hk := hlt _ _ hget
      have hk' := hlt _ _ hnext
      rw [hseries k hk] at hget
      rw [add_assoc, hseries (k + 1) hk'] at hnext
      cases hget
      obtain ⟨rfl, hpersists⟩ := Prod.mk.inj (Option.some.inj hnext)
      rw [bandAt_succ] at hpersists ⊢
      exact bandRound_ratchet highs lows closes atrPeriod multiplier (k + 1) _ (hside k hk) hpersists

/-- The theorem on three flat bars. -/
theorem lineHolds_iff_flat :
    ∃ series, calculateSupertrend [2, 2, 2] [1, 1, 1] [1, 1, 1] 1 3 = .ok series ∧
      series.length = [(1 : ℚ), 1, 1].length ∧
      (LineHolds [1, 1, 1] 1 series ↔
        ∀ k, 1 + (k + 1) < [(1 : ℚ), 1, 1].length →
          ¬ BetweenCrossed [2, 2, 2] [1, 1, 1] [1, 1, 1] 1 3 (k + 1)
            (bandAt [2, 2, 2] [1, 1, 1] [1, 1, 1] 1 3 k)) :=
  lineHolds_iff [2, 2, 2] [1, 1, 1] [1, 1, 1] 1 3 rfl rfl le_rfl (by norm_num) (by decide)

/-- Eleven bars at 100, a wide bar above them and a narrow one. -/
def wideGap : List ℚ × List ℚ × List ℚ :=
  (List.replicate 11 100 ++ [111, 103], List.replicate 11 100 ++ [101, 101],
    List.replicate 11 100 ++ [102, 205 / 2])

/-- Behind the wide bar the line of the rising trend is above the close, and at the
narrow one it falls. -/
theorem not_lineHolds_wideGap :
    ¬ ∀ (highs lows closes : List ℚ) (atrPeriod : ℕ) (multiplier : ℚ) (series : List (ℚ × Trend)),
      (∀ i < closes.length, lows.getD i 0 ≤ closes.getD i 0 ∧ closes.getD i 0 ≤ highs.getD i 0) →
        1 ≤ atrPeriod → 0 ≤ multiplier →
          calculateSupertrend highs lows closes atrPeriod multiplier = .ok series →
            LineHolds closes atrPeriod series := by
  intro h
  have hholds := h wideGap.1 wideGap.2.1 wideGap.2.2 10 3 _ (by decide +kernel) (by norm_num)
    (by norm_num) rfl
  have hside : (1027 / 10 : ℚ) ≤ 102 :=
    hholds.side 11 (1027 / 10) .up (by norm_num) (by decide +kernel)
  norm_num at hside

end Supertrend

end Reverto
