import Mathlib.Tactic
import Reverto.Core.InversePerpMath
import Reverto.Lib.SeriesLoop

/-!
# Support and resistance (strategies/indicators/support_resistance.py)

Two scans for pivots: `calculate_sr_series` follows the level in force candle by
candle, a pivot counting from the candle that confirms it, and
`find_support_resistance_detailed` lists the pivots of the whole series.
-/

namespace Reverto

namespace SupportResistance

open SeriesLoop

/-- The values of an average behind `prev`. -/
def emaFrom (k prev : ℚ) : List ℚ → List ℚ
  | [] => []
  | value :: values =>
    (k * value + (1 - k) * prev) :: emaFrom k (k * value + (1 - k) * prev) values

/-- `_ema` -/
def ema (values : List ℚ) (period : ℕ) : List ℚ :=
  match values with
  | [] => []
  | value :: values => value :: emaFrom (2 / (period + 1)) value values

/-- `_volume_osc` -/
def volumeOsc (volumes : List ℚ) : List ℚ :=
  List.zipWith (fun short long => if long = 0 then 0 else 100 * (short - long) / long)
    (ema volumes 5) (ema volumes 10)

/-- `vol_osc` of `calculate_sr_series`. -/
def volOscOf (volumes : Option (List ℚ)) (volumeThreshold : ℚ) (n : ℕ) : Option (List ℚ) :=
  match volumes with
  | none => none
  | some volumes =>
    if volumes ≠ [] ∧ 0 < volumeThreshold ∧ volumes.length = n then some (volumeOsc volumes)
    else none

/-- What makes a pivot: `max` with `>` for highs, `min` with `<` for lows. -/
structure PivotKind where
  extreme : List ℚ → Option ℚ
  beats : ℚ → ℚ → Bool
  extreme_eq_none : ∀ xs, extreme xs = none ↔ xs = []

/-- Resistance: `h > max(...)`. -/
def highs : PivotKind := ⟨List.max?, fun h m => decide (m < h), fun _ => List.max?_eq_none_iff⟩

/-- Support: `lo < min(...)`. -/
def lows : PivotKind := ⟨List.min?, fun lo m => decide (lo < m), fun _ => List.min?_eq_none_iff⟩

namespace PivotKind

variable (kind : PivotKind)

/-- The comparison with the extreme of a window; `max` and `min` of an empty window raise. -/
def beyond (value : ℚ) (window : List ℚ) : Except PyError Bool :=
  match kind.extreme window with
  | none => .error .indicatorError
  | some extreme => .ok (kind.beats value extreme)

/-- The pivot test at bar `p`: beyond the bars on its left and those on its right. -/
def isPivot (series : List ℚ) (leftBars rightBars p : ℕ) : Except PyError Bool := do
  if ← kind.beyond (series.getD p 0) (slice series (p - leftBars) p) then
    kind.beyond (series.getD p 0) (slice series (p + 1) (p + rightBars + 1))
  else pure false

end PivotKind

/-- `cur_res`, `res_touches` and `resistance_series`, or those of the support. -/
structure SrTrack where
  level : Option ℚ := none
  touches : ℕ := 0
  series : List (Option ℚ) := []
  deriving DecidableEq, Repr

namespace SrTrack

/-- A new pivot, confirmed by candle `i`. -/
def confirm (kind : PivotKind) (series : List ℚ) (leftBars rightBars : ℕ) (volOk : ℕ → Bool)
    (i : ℕ) (t : SrTrack) : Except PyError SrTrack := do
  if leftBars + rightBars ≤ i then
    let p := i - rightBars
    if (← kind.isPivot series leftBars rightBars p) && volOk p then
      pure { t with level := some (series.getD p 0), touches := 1 }
    else pure t
  else pure t

/-- The count of touches, which a single one needs no count for. -/
def touch (minTouches : ℕ) (value : ℚ) (t : SrTrack) : Except PyError SrTrack :=
  match t.level with
  | none => .ok t
  | some level =>
    if 1 < minTouches then do
      let distance ← pyDiv |value - level| level
      pure (if distance < 5 / 1000 then { t with touches := t.touches + 1 } else t)
    else .ok t

/-- The entry of the series for the candle. -/
def record (minTouches : ℕ) (t : SrTrack) : SrTrack :=
  { t with series := t.series ++ [if minTouches ≤ t.touches then t.level else none] }

end SrTrack

/-- A round of `calculate_sr_series`. -/
def srRound (hs ls : List ℚ) (leftBars rightBars minTouches : ℕ) (volOk : ℕ → Bool) (i : ℕ)
    (tracks : SrTrack × SrTrack) : Except PyError (SrTrack × SrTrack) := do
  let res ← tracks.1.confirm highs hs leftBars rightBars volOk i
  let sup ← tracks.2.confirm lows ls leftBars rightBars volOk i
  let res ← res.touch minTouches (hs.getD i 0)
  let sup ← sup.touch minTouches (ls.getD i 0)
  pure (res.record minTouches, sup.record minTouches)

/-- `calculate_sr_series`: `(resistance_series, support_series)`. -/
def calculateSrSeries (hs ls closes : List ℚ) (leftBars rightBars : ℕ)
    (volumes : Option (List ℚ)) (volumeThreshold : ℚ) (minTouches : ℕ) :
    Except PyError (List (Option ℚ) × List (Option ℚ)) :=
  let n := closes.length
  if hs.length ≠ n ∨ ls.length ≠ n then .error .indicatorError
  else do
    let volOk : ℕ → Bool := fun p =>
      match volOscOf volumes volumeThreshold n with
      | none => true
      | some volOsc => decide (volumeThreshold < volOsc.getD p 0)
    let tracks ← forRange 0 n (srRound hs ls leftBars rightBars minTouches volOk) ({}, {})
    pure (tracks.1.series, tracks.2.series)

/-- A level of `find_support_resistance_detailed`. -/
structure SrLevel where
  price : ℚ
  pivotIndex : ℕ
  breakIndex : Option ℕ
  deriving DecidableEq, Repr

/-- The pivot test of the batch scan at bar `i`. -/
def addPivot (kind : PivotKind) (series : List ℚ) (leftBars rightBars i : ℕ)
    (pivots : List (ℕ × ℚ)) : Except PyError (List (ℕ × ℚ)) := do
  if ← kind.isPivot series leftBars rightBars i then pure (pivots ++ [(i, series.getD i 0)])
  else pure pivots

/-- A round of `find_support_resistance_detailed`. -/
def pivotRound (hs ls : List ℚ) (leftBars rightBars i : ℕ)
    (pivots : List (ℕ × ℚ) × List (ℕ × ℚ)) :
    Except PyError (List (ℕ × ℚ) × List (ℕ × ℚ)) := do
  let res ← addPivot highs hs leftBars rightBars i pivots.1
  let sup ← addPivot lows ls leftBars rightBars i pivots.2
  pure (res, sup)

/-- `_break_idx` -/
def breakIdx (closes : List ℚ) (idx : ℕ) (price : ℚ) (above : Bool) : Option ℕ :=
  (List.range' (idx + 1) (closes.length - (idx + 1))).find? fun j =>
    if above then decide (price < closes.getD j 0) else decide (closes.getD j 0 < price)

/-- The levels of the pivots. -/
def levelsOf (closes : List ℚ) (above : Bool) (pivots : List (ℕ × ℚ)) : List SrLevel :=
  pivots.map fun pivot => ⟨pivot.2, pivot.1, breakIdx closes pivot.1 pivot.2 above⟩

/-- `find_support_resistance_detailed`: `(sup_out, res_out)`. -/
def findSupportResistanceDetailed (hs ls closes : List ℚ) (leftBars rightBars : ℕ) :
    Except PyError (List SrLevel × List SrLevel) :=
  let n := closes.length
  if hs.length ≠ n ∨ ls.length ≠ n then .error .indicatorError
  else if n < leftBars + rightBars + 1 then .ok ([], [])
  else do
    let pivots ← forRange leftBars (n - rightBars - leftBars) (pivotRound hs ls leftBars rightBars)
      ([], [])
    pure (levelsOf closes false pivots.2, levelsOf closes true pivots.1)

/-- What a condition says about the price, the one before it and the levels in force. -/
def levelSignal (condition value : String) (proximityPct price prev : ℚ)
    (resistance support : Option ℚ) : Except PyError Bool :=
  let level := if value = "support" then support else resistance
  let near (level : ℚ) : Except PyError Bool := do
    let distance ← pyDiv |price - level| level
    pure (decide (distance * 100 ≤ proximityPct))
  match condition with
  | "price_crossing_up" => .ok (level.any fun l => decide (prev < l) && decide (l ≤ price))
  | "price_crossing_down" => .ok (level.any fun l => decide (l < prev) && decide (price ≤ l))
  | "price_greater_than" => .ok (level.any fun l => decide (l < price))
  | "price_lower_than" => .ok (level.any fun l => decide (price < l))
  | "near_support" => (support.map near).getD (.ok false)
  | "near_resistance" => (resistance.map near).getD (.ok false)
  | "below_support" => .ok (support.any fun l => decide (price < l))
  | "above_resistance" => .ok (resistance.any fun l => decide (l < price))
  | _ => .ok false

/-- The parameters of `check_support_resistance_signal`. -/
structure SrParams where
  leftBars : ℕ := 15
  rightBars : ℕ := 15
  proximityPct : ℚ := 1
  condition : String := "price_crossing_down"
  value : String := "resistance"
  volumes : Option (List ℚ) := none
  volumeThreshold : ℚ := 0
  minTouches : ℕ := 1

/-- `check_support_resistance_signal` -/
def checkSupportResistanceSignal (hs ls closes : List ℚ) (q : SrParams) : Except PyError Bool :=
  if closes.length < q.leftBars + q.rightBars + 1 then .error .indicatorError
  else do
    let series ← calculateSrSeries hs ls closes q.leftBars q.rightBars q.volumes q.volumeThreshold
      q.minTouches
    let price := closes.getLastD 0
    levelSignal q.condition q.value q.proximityPct price (closes.dropLast.getLastD price)
      series.1.getLast?.join series.2.getLast?.join

/-! ### The pivots of a series -/

/-- The bar is a pivot. -/
def pivotAt (kind : PivotKind) (series : List ℚ) (leftBars rightBars p : ℕ) : Bool :=
  decide (leftBars ≤ p) &&
    match kind.isPivot series leftBars rightBars p with
    | .ok isPivot => isPivot
    | .error _ => false

section Pivots

variable (kind : PivotKind) (series : List ℚ) (leftBars rightBars : ℕ)

theorem beyond_ok (value : ℚ) (window : List ℚ) (h : window ≠ []) :
    ∃ b, kind.beyond value window = .ok b := by
  cases he : kind.extreme window with
  | none => exact absurd ((kind.extreme_eq_none window).mp he) h
  | some extreme => exact ⟨kind.beats value extreme, by rw [PivotKind.beyond, he]⟩

/-- With a full window on either side the test does not raise. -/
theorem isPivot_ok (p : ℕ) (hleft : 1 ≤ leftBars) (hright : 1 ≤ rightBars) (hp : leftBars ≤ p)
    (hn : p + rightBars < series.length) :
    kind.isPivot series leftBars rightBars p = .ok (pivotAt kind series leftBars rightBars p) := by
  have hbefore : slice series (p - leftBars) p ≠ [] := slice_ne_nil series _ _ (by omega) (by omega)
  have hafter : slice series (p + 1) (p + rightBars + 1) ≠ [] :=
    slice_ne_nil series _ _ (by omega) (by omega)
  obtain ⟨b, hb⟩ := beyond_ok kind (series.getD p 0) _ hbefore
  obtain ⟨c, hc⟩ := beyond_ok kind (series.getD p 0) _ hafter
  have hpivot : ∃ isPivot, kind.isPivot series leftBars rightBars p = .ok isPivot := by
    simp only [PivotKind.isPivot, hb, hc, bind, Except.bind]
    cases b with
    | true => exact ⟨c, rfl⟩
    | false => exact ⟨false, rfl⟩
  obtain ⟨isPivot, hpivot⟩ := hpivot
  rw [pivotAt, hpivot, decide_eq_true hp, Bool.true_and]

/-- What is appended behind the window on the right of a bar does not make it a pivot. -/
theorem pivotAt_append (later : List ℚ) (p : ℕ) (hn : p + rightBars < series.length) :
    pivotAt kind (series ++ later) leftBars rightBars p =
      pivotAt kind series leftBars rightBars p := by
  simp only [pivotAt, PivotKind.isPivot]
  rw [slice_append series later _ _ (by omega), slice_append series later _ _ (by omega),
    getD_append_left series later p 0 (by omega)]

/-- The level in force after `k` candles: that of the latest pivot they confirm. -/
def levelAt (k : ℕ) : Option ℚ :=
  (latest (pivotAt kind series leftBars rightBars) (k - rightBars)).map fun p => series.getD p 0

/-- A track after `k` candles, with one touch and no volume asked for. -/
structure TrackAt (k : ℕ) (t : SrTrack) : Prop where
  level : t.level = levelAt kind series leftBars rightBars k
  touched : 1 ≤ t.touches ↔ t.level.isSome = true
  series : t.series = (List.range k).map fun i => levelAt kind series leftBars rightBars (i + 1)

theorem trackAt_new : TrackAt kind series leftBars rightBars 0 {} := by
  refine ⟨?_, by simp, rfl⟩
  rw [levelAt, Nat.zero_sub]
  rfl

/-- The level once candle `i` has confirmed its pivot. -/
theorem levelAt_succ (i : ℕ) :
    levelAt kind series leftBars rightBars (i + 1) =
      if leftBars + rightBars ≤ i ∧ pivotAt kind series leftBars rightBars (i - rightBars) = true then
        some (series.getD (i - rightBars) 0)
      else levelAt kind series leftBars rightBars i := by
  rcases lt_or_ge i rightBars with hlt | hge
  · have hearly : ¬ leftBars + rightBars ≤ i := by omega
    rw [if_neg fun h => hearly h.1, levelAt, levelAt, Nat.sub_eq_zero_of_le hlt,
      Nat.sub_eq_zero_of_le hlt.le]
  · rw [levelAt, levelAt, Nat.succ_sub hge, latest]
    cases hp : pivotAt kind series leftBars rightBars (i - rightBars) with
    | false => simp
    | true =>
      have hleft : leftBars ≤ i - rightBars := by
        rw [pivotAt, Bool.and_eq_true, decide_eq_true_eq] at hp
        exact hp.1
      have hconfirmed : leftBars + rightBars ≤ i := by omega
      simp [hconfirmed]

theorem trackAt_round (i : ℕ) (t : SrTrack) (value : ℚ) (hleft : 1 ≤ leftBars)
    (hright : 1 ≤ rightBars) (hn : i < series.length)
    (h : TrackAt kind series leftBars rightBars i t) :
    ∃ u, t.confirm kind series leftBars rightBars (fun _ => true) i = .ok u ∧
      u.touch 1 value = .ok u ∧ TrackAt kind series leftBars rightBars (i + 1) (u.record 1) := by
  have hconfirm : ∃ u, t.confirm kind series leftBars rightBars (fun _ => true) i = .ok u ∧
      u.level = levelAt kind series leftBars rightBars (i + 1) ∧
      (1 ≤ u.touches ↔ u.level.isSome = true) ∧ u.series = t.series := by
    rw [levelAt_succ]
    by_cases hi : leftBars + rightBars ≤ i
    · have hpivot := isPivot_ok kind series leftBars rightBars (i - rightBars) hleft hright
        (by omega) (by omega)
      simp only [SrTrack.confirm, if_pos hi, hpivot, bind, Except.bind, Bool.and_true]
      cases hp : pivotAt kind series leftBars rightBars (i - rightBars) with
      | true => exact ⟨_, rfl, by simp [hi], by simp, rfl⟩
      | false => exact ⟨t, rfl, by simpa using h.level, h.touched, rfl⟩
    · rw [if_neg fun hc => hi hc.1]
      refine ⟨t, ?_, h.level, h.touched, rfl⟩
      rw [SrTrack.confirm, if_neg hi]
      rfl
  obtain ⟨u, hu, hlevel, htouched, hseries⟩ := hconfirm
  refine ⟨u, hu, ?_, hlevel, htouched, ?_⟩
  · rw [SrTrack.touch]
    cases u.level with
    | none => rfl
    | some level => exact if_neg (lt_irrefl 1)
  · have hentry : (if 1 ≤ u.touches then u.level else none) = u.level := by
      split
      · rfl
      · next hnone =>
        rw [htouched, Bool.not_eq_true, Option.isSome_eq_false_iff, Option.isNone_iff_eq_none]
          at hnone
        exact hnone.symm
    rw [SrTrack.record, hentry, List.range_succ, List.map_append, hseries, h.series, hlevel]
    rfl

/-- The pivots the batch scan has found before bar `k`. -/
def pivotsBelow (k : ℕ) : List (ℕ × ℚ) :=
  ((List.range' leftBars (k - leftBars)).filter (pivotAt kind series leftBars rightBars)).map
    fun p => (p, series.getD p 0)

theorem addPivot_ok (i : ℕ) (hleft : 1 ≤ leftBars) (hright : 1 ≤ rightBars) (hi : leftBars ≤ i)
    (hn : i + rightBars < series.length) :
    addPivot kind series leftBars rightBars i (pivotsBelow kind series leftBars rightBars i) =
      .ok (pivotsBelow kind series leftBars rightBars (i + 1)) := by
  have hpivot := isPivot_ok kind series leftBars rightBars i hleft hright hi hn
  simp only [addPivot, hpivot, bind, Except.bind]
  rw [pivotsBelow, pivotsBelow, Nat.succ_sub hi, List.range'_concat, one_mul, Nat.add_sub_cancel' hi,
    List.filter_append, List.map_append]
  cases hp : pivotAt kind series leftBars rightBars i with
  | true => simp [hp, pure, Except.pure]
  | false => simp [hp, pure, Except.pure]

theorem mem_pivotsBelow (k p : ℕ) (price : ℚ) :
    (p, price) ∈ pivotsBelow kind series leftBars rightBars k ↔
      p < k ∧ pivotAt kind series leftBars rightBars p = true ∧ price = series.getD p 0 := by
  simp only [pivotsBelow, List.mem_map, List.mem_filter, List.mem_range', Prod.mk.injEq]
  constructor
  · rintro ⟨q, ⟨⟨j, hj, rfl⟩, hp⟩, rfl, rfl⟩
    exact ⟨by omega, hp, rfl⟩
  · rintro ⟨hlt, hp, rfl⟩
    have hle : leftBars ≤ p := by
      rw [pivotAt, Bool.and_eq_true, decide_eq_true_eq] at hp
      exact hp.1
    exact ⟨p, ⟨⟨p - leftBars, by omega, by omega⟩, hp⟩, rfl, rfl⟩

end Pivots

/-! ### The two scans -/

/-- The value is the price of the latest of the levels confirmed by candle `i`. -/
def Reports (levels : List SrLevel) (rightBars i : ℕ) : Option ℚ → Prop
  | none => ∀ level ∈ levels, i < level.pivotIndex + rightBars
  | some price => ∃ level ∈ levels, level.price = price ∧ level.pivotIndex + rightBars ≤ i ∧
      ∀ other ∈ levels, other.pivotIndex + rightBars ≤ i → other.pivotIndex ≤ level.pivotIndex

/-- The arguments do not ask for a volume filter. -/
def NoVolumeFilter (volumes : Option (List ℚ)) (volumeThreshold : ℚ) : Prop :=
  volumes = none ∨ volumes = some [] ∨ volumeThreshold ≤ 0

theorem volOscOf_none (volumes : Option (List ℚ)) (volumeThreshold : ℚ) (n : ℕ)
    (h : NoVolumeFilter volumes volumeThreshold) : volOscOf volumes volumeThreshold n = none := by
  rcases h with rfl | rfl | hle
  · rfl
  · rfl
  · cases volumes with
    | none => rfl
    | some volumes => exact if_neg fun hc => absurd hc.2.1 (not_lt.mpr hle)

theorem mem_levelsOf (closes : List ℚ) (above : Bool) (pivots : List (ℕ × ℚ)) (level : SrLevel) :
    level ∈ levelsOf closes above pivots ↔
      (level.pivotIndex, level.price) ∈ pivots ∧
        level.breakIndex = breakIdx closes level.pivotIndex level.price above := by
  rw [levelsOf, List.mem_map]
  constructor
  · rintro ⟨pivot, hmem, rfl⟩
    exact ⟨hmem, rfl⟩
  · rintro ⟨hmem, hbreak⟩
    refine ⟨(level.pivotIndex, level.price), hmem, ?_⟩
    rw [← hbreak]

/-- The level in force at a candle is the latest one of the batch scan. -/
theorem reports_levelAt (kind : PivotKind) (series closes : List ℚ) (leftBars rightBars n i : ℕ)
    (above : Bool) (hi : i < n) :
    Reports (levelsOf closes above (pivotsBelow kind series leftBars rightBars (n - rightBars)))
      rightBars i (levelAt kind series leftBars rightBars (i + 1)) := by
  rw [levelAt]
  cases hl : latest (pivotAt kind series leftBars rightBars) (i + 1 - rightBars) with
  | none =>
    rw [latest_eq_none] at hl
    intro level hlevel
    obtain ⟨hmem, -⟩ := (mem_levelsOf closes above _ level).mp hlevel
    obtain ⟨-, hp, -⟩ := (mem_pivotsBelow kind series leftBars rightBars _ _ _).mp hmem
    by_contra hle
    rw [hl level.pivotIndex (by omega)] at hp
    cases hp
  | some p =>
    rw [latest_eq_some] at hl
    obtain ⟨hlt, hp, hlater⟩ := hl
    have hmem : (p, series.getD p 0) ∈ pivotsBelow kind series leftBars rightBars (n - rightBars) :=
      (mem_pivotsBelow kind series leftBars rightBars _ _ _).mpr ⟨by omega, hp, rfl⟩
    refine ⟨⟨series.getD p 0, p, breakIdx closes p (series.getD p 0) above⟩,
      (mem_levelsOf closes above _ _).mpr ⟨hmem, rfl⟩, rfl, by dsimp only; omega, ?_⟩
    intro other hother hconfirmed
    obtain ⟨hpivot, -⟩ := (mem_levelsOf closes above _ other).mp hother
    obtain ⟨-, hq, -⟩ := (mem_pivotsBelow kind series leftBars rightBars _ _ _).mp hpivot
    by_contra hgt
    rw [hlater other.pivotIndex (by omega) (not_le.mp hgt)] at hq
    cases hq

/-- The series with one touch and no volume filter. -/
theorem calculateSrSeries_eq (hs ls closes : List ℚ) (leftBars rightBars : ℕ)
    (volumes : Option (List ℚ)) (volumeThreshold : ℚ) (hhs : hs.length = closes.length)
    (hls : ls.length = closes.length) (hleft : 1 ≤ leftBars) (hright : 1 ≤ rightBars)
    (hfilter : NoVolumeFilter volumes volumeThreshold) :
    calculateSrSeries hs ls closes leftBars rightBars volumes volumeThreshold 1 =
      .ok ((List.range closes.length).map fun i => levelAt highs hs leftBars rightBars (i + 1),
        (List.range closes.length).map fun i => levelAt lows ls leftBars rightBars (i + 1)) := by
  have hlengths : ¬ (hs.length ≠ closes.length ∨ ls.length ≠ closes.length) := by omega
  obtain ⟨tracks, hloop, hres, hsup⟩ := forRange_spec
    (fun i tracks => TrackAt highs hs leftBars rightBars i tracks.1 ∧
      TrackAt lows ls leftBars rightBars i tracks.2)
    0 closes.length (srRound hs ls leftBars rightBars 1 fun _ => true) ({}, {})
    ⟨trackAt_new highs hs leftBars rightBars, trackAt_new lows ls leftBars rightBars⟩
    fun i hi _ tracks htracks => by
      obtain ⟨res, hc, ht, hnext⟩ := trackAt_round highs hs leftBars rightBars i tracks.1
        (hs.getD i 0) hleft hright (by omega) htracks.1
      obtain ⟨sup, hc', ht', hnext'⟩ := trackAt_round lows ls leftBars rightBars i tracks.2
        (ls.getD i 0) hleft hright (by omega) htracks.2
      refine ⟨(res.record 1, sup.record 1), ?_, hnext, hnext'⟩
      simp only [srRound, hc, hc', ht, ht', bind, Except.bind]
      rfl
  rw [zero_add] at hres hsup
  simp only [calculateSrSeries, if_neg hlengths, volOscOf_none volumes volumeThreshold _ hfilter,
    hloop, bind, Except.bind]
  rw [hres.series, hsup.series]
  rfl

theorem findDetailed_eq (hs ls closes : List ℚ) (leftBars rightBars : ℕ)
    (hhs : hs.length = closes.length) (hls : ls.length = closes.length) (hleft : 1 ≤ leftBars)
    (hright : 1 ≤ rightBars) :
    findSupportResistanceDetailed hs ls closes leftBars rightBars =
      .ok (levelsOf closes false (pivotsBelow lows ls leftBars rightBars (closes.length - rightBars)),
        levelsOf closes true (pivotsBelow highs hs leftBars rightBars (closes.length - rightBars))) := by
  have hlengths : ¬ (hs.length ≠ closes.length ∨ ls.length ≠ closes.length) := by omega
  have hnew : ∀ kind series, pivotsBelow kind series leftBars rightBars leftBars = [] := by
    intro kind series
    rw [pivotsBelow, Nat.sub_self]
    rfl
  rw [findSupportResistanceDetailed, if_neg hlengths]
  split
  · next hshort =>
    have hnone : ∀ kind series,
        pivotsBelow kind series leftBars rightBars (closes.length - rightBars) = [] := by
      intro kind series
      rw [pivotsBelow, Nat.sub_eq_zero_of_le (by omega)]
      rfl
    rw [hnone, hnone]
    rfl
  · obtain ⟨pivots, hloop, hpivots⟩ := forRange_spec
      (fun i pivots => pivots = (pivotsBelow highs hs leftBars rightBars i,
        pivotsBelow lows ls leftBars rightBars i))
      leftBars (closes.length - rightBars - leftBars) (pivotRound hs ls leftBars rightBars) ([], [])
      (by rw [hnew, hnew])
      fun i hi hle pivots hpivots => by
        refine ⟨_, ?_, rfl⟩
        rw [hpivots]
        simp only [pivotRound, bind, Except.bind,
          addPivot_ok highs hs leftBars rightBars i hleft hright hle (by omega),
          addPivot_ok lows ls leftBars rightBars i hleft hright hle (by omega)]
        rfl
    have hend : leftBars + (closes.length - rightBars - leftBars) = closes.length - rightBars := by
      omega
    rw [hend] at hpivots
    rw [hloop, hpivots]
    rfl

/-- What the streaming scan of a series reports against the batch scan of it, and
against the streaming scan of a longer one. -/
structure ScansAgree (hs ls closes : List ℚ) (leftBars rightBars : ℕ)
    (res sup : List (Option ℚ)) : Prop where
  resLength : res.length = closes.length
  supLength : sup.length = closes.length
  detailed : ∃ supOut resOut,
    findSupportResistanceDetailed hs ls closes leftBars rightBars = .ok (supOut, resOut) ∧
      ∀ i < closes.length, Reports resOut rightBars i (res.getD i none) ∧
        Reports supOut rightBars i (sup.getD i none)
  noRepaint : ∀ (laterHs laterLs laterCloses : List ℚ) (volumes : Option (List ℚ))
    (volumeThreshold : ℚ), laterHs.length = laterCloses.length →
      laterLs.length = laterCloses.length → NoVolumeFilter volumes volumeThreshold →
        ∃ laterRes laterSup,
          calculateSrSeries (hs ++ laterHs) (ls ++ laterLs) (closes ++ laterCloses) leftBars
            rightBars volumes volumeThreshold 1 = .ok (res ++ laterRes, sup ++ laterSup)

/-- The entries for the candles so far do not change when candles follow. -/
theorem levels_append (kind : PivotKind) (series later : List ℚ) (leftBars rightBars : ℕ)
    (hright : 1 ≤ rightBars) :
    ∃ more, ((List.range (series ++ later).length).map fun i =>
        levelAt kind (series ++ later) leftBars rightBars (i + 1)) =
      ((List.range series.length).map fun i => levelAt kind series leftBars rightBars (i + 1)) ++
        more := by
  rw [List.length_append, List.range_add, List.map_append]
  refine ⟨_, congrArg (· ++ _) (List.map_congr_left fun i hi => ?_)⟩
  rw [List.mem_range] at hi
  have hlatest : latest (pivotAt kind (series ++ later) leftBars rightBars) (i + 1 - rightBars) =
      latest (pivotAt kind series leftBars rightBars) (i + 1 - rightBars) :=
    latest_congr _ _ _ fun p hp => pivotAt_append kind series leftBars rightBars later p (by omega)
  rw [levelAt, levelAt, hlatest]
  cases hl : latest (pivotAt kind series leftBars rightBars) (i + 1 - rightBars) with
  | none => rfl
  | some p =>
    have hlt := ((latest_eq_some _ _ _).mp hl).1
    exact congrArg some (getD_append_left series later p 0 (by omega))

/-- With one touch and no volume filter the streaming scan reports the latest
confirmed pivot of the batch scan at every candle, and never repaints. -/
theorem sr_scans_agree (hs ls closes : List ℚ) (leftBars rightBars : ℕ)
    (volumes : Option (List ℚ)) (volumeThreshold : ℚ) (hhs : hs.length = closes.length)
    (hls : ls.length = closes.length) (hleft : 1 ≤ leftBars) (hright : 1 ≤ rightBars)
    (hfilter : NoVolumeFilter volumes volumeThreshold) :
    ∃ res sup, calculateSrSeries hs ls closes leftBars rightBars volumes volumeThreshold 1 =
        .ok (res, sup) ∧
      ScansAgree hs ls closes leftBars rightBars res sup := by
  refine ⟨_, _, calculateSrSeries_eq hs ls closes leftBars rightBars volumes volumeThreshold hhs hls
    hleft hright hfilter, by simp, by simp, ?_, ?_⟩
  · refine ⟨_, _, findDetailed_eq hs ls closes leftBars rightBars hhs hls hleft hright,
      fun i hi => ?_⟩
    rw [List.getD_eq_getElem?_getD, List.getD_eq_getElem?_getD, getElem?_map_range _ _ i hi,
      getElem?_map_range _ _ i hi]
    exact ⟨reports_levelAt highs hs closes leftBars rightBars closes.length i true hi,
      reports_levelAt lows ls closes leftBars rightBars closes.length i false hi⟩
  · intro laterHs laterLs laterCloses volumes' volumeThreshold' hlhs hlls hfilter'
    have hwhole := calculateSrSeries_eq (hs ++ laterHs) (ls ++ laterLs) (closes ++ laterCloses)
      leftBars rightBars volumes' volumeThreshold' (by simp [hhs, hlhs]) (by simp [hls, hlls]) hleft
      hright hfilter'
    obtain ⟨moreRes, hres⟩ := levels_append highs hs laterHs leftBars rightBars hright
    obtain ⟨moreSup, hsup⟩ := levels_append lows ls laterLs leftBars rightBars hright
    have hlenHs : (hs ++ laterHs).length = (closes ++ laterCloses).length := by simp [hhs, hlhs]
    have hlenLs : (ls ++ laterLs).length = (closes ++ laterCloses).length := by simp [hls, hlls]
    rw [hlenHs, hhs] at hres
    rw [hlenLs, hls] at hsup
    rw [hres, hsup] at hwhole
    exact ⟨moreRes, moreSup, hwhole⟩

/-- A high of 3 between highs of 2, a low of 1 throughout. -/
theorem sr_scans_agree_one :
    ∃ res sup, calculateSrSeries [2, 3, 2] [1, 1, 1] [1, 1, 1] 1 1 none 0 1 = .ok (res, sup) ∧
      ScansAgree [2, 3, 2] [1, 1, 1] [1, 1, 1] 1 1 res sup :=
  sr_scans_agree [2, 3, 2] [1, 1, 1] [1, 1, 1] 1 1 none 0 rfl rfl le_rfl le_rfl (.inl rfl)

example : calculateSrSeries [2, 3, 2] [1, 1, 1] [1, 1, 1] 1 1 none 0 1 =
    .ok ([none, none, some 3], [none, none, none]) := by decide +kernel

end SupportResistance

end Reverto
