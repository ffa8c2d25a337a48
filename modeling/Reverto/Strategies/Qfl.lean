import Mathlib.Tactic
import Reverto.Core.InversePerpMath
import Reverto.Lib.SeriesLoop

/-!
# QFL bases (strategies/indicators/qfl.py)

`calculate_qfl_series` goes over the candles once and finds a base some bars
after it happened; a running maximum starts again at every base.
-/

namespace Reverto

namespace Qfl

open SeriesLoop

/-- `min(window)` of a list that may be empty, where it raises. -/
def pyMin (window : List ℚ) : Except PyError ℚ :=
  match window.min? with
  | none => .error .indicatorError
  | some m => .ok m

/-- `max(window)` -/
def pyMax (window : List ℚ) : Except PyError ℚ :=
  match window.max? with
  | none => .error .indicatorError
  | some m => .ok m

/-- `min(window)` of an index range, `inf` where the range is empty. -/
def minOrInf (lows : List ℚ) (i j : ℕ) : WithTop ℚ :=
  match (slice lows i j).min? with
  | none => ⊤
  | some m => m

/-- The parameters of `calculate_qfl_series`. -/
structure QflParams where
  basePeriods : ℕ := 36
  pumpPeriods : ℕ := 8
  pumpPct : ℚ := 3
  baseCrackPct : ℚ := 3
  deriving DecidableEq, Repr

/-- `pp` -/
def QflParams.pp (q : QflParams) : ℕ := min q.pumpPeriods (q.basePeriods - 1)

/-- The dict of `calculate_qfl_series`. -/
structure QflSeries where
  base : List (Option ℚ) := []
  buyLimit : List (Option ℚ) := []
  newBase : List Bool := []
  highestHigh : List (Option ℚ) := []
  deriving DecidableEq, Repr

/-- The loop's variables and the series so far. -/
structure QflState where
  curBase : Option ℚ := none
  curHh : Option ℚ := none
  out : QflSeries := {}
  deriving DecidableEq, Repr

/-- `new_base` of candle `i`, whose lowest low is `lowestLow`. -/
def newBase (q : QflParams) (lows : List ℚ) (lowestLow : ℚ) (i : ℕ) : Bool :=
  if q.pp + 1 ≤ i then
    let endPp1 := max 1 (i - q.pp)
    let endPp := i - q.pp + 1
    let llPp1 := minOrInf lows (endPp1 - q.basePeriods) endPp1
    let llPp := minOrInf lows (endPp - q.basePeriods) endPp
    decide (llPp < llPp1) && decide (llPp = lowestLow)
  else false

/-- `buy_limit` of candle `i`. -/
def buyLimit (q : QflParams) (lows : List ℚ) (i : ℕ) (curBase curHh : Option ℚ) : Option ℚ :=
  match curBase, curHh with
  | some base, some hh =>
    if 0 < base ∧ q.pumpPct / 100 < (hh - base) / base ∧
        q.baseCrackPct / 100 < (base - lows.getD i 0) / base then
      some (base * (1 - q.baseCrackPct / 100))
    else none
  | _, _ => none

/-- A round of `calculate_qfl_series`. -/
def qflRound (q : QflParams) (highs lows : List ℚ) (i : ℕ) (s : QflState) :
    Except PyError QflState := do
  let lowestLow ← pyMin (slice lows (i + 1 - q.basePeriods) (i + 1))
  let isNew := newBase q lows lowestLow i
  let offsetHigh ← pyMax (slice highs (i + 1 - q.pp) (i + 1))
  let curHh :=
    match s.curHh with
    | none => offsetHigh
    | some hh => if isNew || decide (hh < highs.getD i 0) then offsetHigh else hh
  let curBase := if isNew then some lowestLow else s.curBase
  pure
    { curBase := curBase
      curHh := some curHh
      out :=
        { base := s.out.base ++ [curBase]
          buyLimit := s.out.buyLimit ++ [buyLimit q lows i curBase (some curHh)]
          newBase := s.out.newBase ++ [isNew]
          highestHigh := s.out.highestHigh ++ [some curHh] } }

/-- `calculate_qfl_series` -/
def calculateQflSeries (q : QflParams) (highs lows closes : List ℚ) : Except PyError QflSeries :=
  let n := lows.length
  if highs.length ≠ n ∨ closes.length ≠ n then .error .indicatorError
  else do
    let s ← forRange 0 n (qflRound q highs lows) {}
    pure s.out

/-- `highs if highs and len(highs) == n else closes` -/
def seriesOr (series : Option (List ℚ)) (closes : List ℚ) : List ℚ :=
  match series with
  | none => closes
  | some xs => if xs ≠ [] ∧ xs.length = closes.length then xs else closes

/-- What a condition says about the price, the base and the buy limit. -/
def baseSignal (condition : String) (price : ℚ) (base buyLimit : Option ℚ) : Except PyError Bool :=
  match condition, base with
  | "below_base", _ => .ok buyLimit.isSome
  | _, none => .ok false
  | "near_base", some base => do
    let distance ← pyDiv |price - base| base
    pure (decide (distance < 5 / 1000))
  | _, some base =>
    .ok (decide (base * (998 / 1000) ≤ price) && decide (price ≤ base * (1002 / 1000)))

/-- `check_qfl_signal` -/
def checkQflSignal (closes : List ℚ) (condition : String) (q : QflParams)
    (highs lows : Option (List ℚ)) : Except PyError Bool :=
  if condition ≠ "below_base" ∧ condition ≠ "near_base" ∧ condition ≠ "base_retest" then
    .error .indicatorError
  else if closes.length < q.basePeriods then .error .indicatorError
  else do
    let series ← calculateQflSeries q (seriesOr highs closes) (seriesOr lows closes) closes
    match closes.getLast? with
    | none => .error .indexError
    | some price => baseSignal condition price series.base.getLast?.join series.buyLimit.getLast?.join

/-! ### Bases by their windows -/

variable (q : QflParams) (highs lows : List ℚ)

/-- A base is found at candle `i`: the low of bar `i - pp` is below every one of the
base periods before it and not above one of the bars up to `i`. -/
def NewBaseAt (i : ℕ) : Prop :=
  q.pp + 1 ≤ i ∧
    (∀ k < i - q.pp, i - q.pp - q.basePeriods ≤ k →
      lows.getD (i - q.pp) 0 < lows.getD k 0) ∧
    ∀ k ≤ i, i - q.pp < k → lows.getD (i - q.pp) 0 ≤ lows.getD k 0

instance (i : ℕ) : Decidable (NewBaseAt q lows i) := by
  unfold NewBaseAt
  infer_instance

/-- The series says what the windows say. -/
structure QflSpec (out : QflSeries) : Prop where
  newBase : ∀ i < lows.length, out.newBase[i]? = some (decide (NewBaseAt q lows i))
  /-- Before the first base. -/
  noBase : ∀ i < lows.length, (∀ j ≤ i, ¬ NewBaseAt q lows j) →
    out.base[i]? = some none ∧ ∃ m, out.highestHigh[i]? = some (some m) ∧
      IsGreatest {h | ∃ k ≤ i, highs.getD k 0 = h} m
  /-- From the latest base on. -/
  latestBase : ∀ i < lows.length, ∀ j ≤ i, NewBaseAt q lows j →
    (∀ k ≤ i, j < k → ¬ NewBaseAt q lows k) →
      out.base[i]? = some (some (lows.getD (j - q.pp) 0)) ∧
        ∃ m, out.highestHigh[i]? = some (some m) ∧
          IsGreatest {h | ∃ k ≤ i, j - q.pp < k ∧ highs.getD k 0 = h} m

/-- The latest candle below `k` at which a base was found. -/
def latestBase (k : ℕ) : Option ℕ := latest (fun i => decide (NewBaseAt q lows i)) k

/-- The base after `k` candles. -/
def baseAfter (k : ℕ) : Option ℚ := (latestBase q lows k).map fun j => lows.getD (j - q.pp) 0

/-- The first bar of the running maximum after `k` candles. -/
def highsFrom (k : ℕ) : ℕ :=
  match latestBase q lows k with
  | none => 0
  | some j => j - q.pp + 1

/-- The highest high after `k` candles. -/
def highAfter (k : ℕ) : Option ℚ := (slice highs (highsFrom q lows k) k).max?

theorem pyMin_slice (i j : ℕ) (hij : i < j) (hj : j ≤ lows.length) :
    ∃ m, (slice lows i j).min? = some m ∧ pyMin (slice lows i j) = .ok m := by
  obtain ⟨m, hm⟩ := exists_min_slice lows i j hij hj
  exact ⟨m, hm, by rw [pyMin, hm]⟩

theorem pyMax_slice (i j : ℕ) (hij : i < j) (hj : j ≤ highs.length) :
    ∃ m, (slice highs i j).max? = some m ∧ pyMax (slice highs i j) = .ok m := by
  obtain ⟨m, hm⟩ := exists_max_slice highs i j hij hj
  exact ⟨m, hm, by rw [pyMax, hm]⟩

theorem minOrInf_slice (i j : ℕ) (hij : i < j) (hj : j ≤ lows.length) :
    ∃ m : ℚ, (slice lows i j).min? = some m ∧ minOrInf lows i j = m := by
  obtain ⟨m, hm⟩ := exists_min_slice lows i j hij hj
  exact ⟨m, hm, by rw [minOrInf, hm]⟩

/-- The test on the minima of three windows is the one on single bars. -/
theorem newBase_iff (i : ℕ) (lowestLow : ℚ) (hbase : 2 ≤ q.basePeriods) (hn : i < lows.length)
    (hlowest : (slice lows (i + 1 - q.basePeriods) (i + 1)).min? = some lowestLow) :
    newBase q lows lowestLow i = decide (NewBaseAt q lows i) ∧
      (NewBaseAt q lows i → lowestLow = lows.getD (i - q.pp) 0) := by
  have hpp : q.pp ≤ q.basePeriods - 1 := min_le_right _ _
  rw [min_slice lows 0 _ _ (by omega)] at hlowest
  obtain ⟨⟨k₃, hk₃, hlt₃, hmin₃⟩, hall₃⟩ := hlowest
  by_cases hi : q.pp + 1 ≤ i
  · have hend : max 1 (i - q.pp) = i - q.pp := max_eq_right (by omega)
    obtain ⟨m₁, hm₁, hinf₁⟩ := minOrInf_slice lows (i - q.pp - q.basePeriods) (i - q.pp) (by omega)
      (by omega)
    obtain ⟨m₂, hm₂, hinf₂⟩ := minOrInf_slice lows (i - q.pp + 1 - q.basePeriods) (i - q.pp + 1)
      (by omega) (by omega)
    rw [min_slice lows 0 _ _ (by omega)] at hm₁ hm₂
    obtain ⟨⟨k₁, hk₁, hlt₁, hmin₁⟩, hall₁⟩ := hm₁
    obtain ⟨⟨k₂, hk₂, hlt₂, hmin₂⟩, hall₂⟩ := hm₂
    have hcode : newBase q lows lowestLow i = decide (m₂ < m₁ ∧ m₂ = lowestLow) := by
      simp only [newBase, if_pos hi, hend, hinf₁, hinf₂, WithTop.coe_lt_coe, WithTop.coe_inj,
        Bool.decide_and]
    rw [hcode, decide_eq_decide]
    have hforward : m₂ < m₁ → m₂ = lows.getD (i - q.pp) 0 := by
      intro hlt
      rcases Nat.lt_succ_iff_lt_or_eq.mp hlt₂ with hbefore | hat
      · have hle := hall₁ k₂ (by omega) hbefore
        rw [hmin₂] at hle
        exact absurd hlt (not_lt.mpr hle)
      · rw [← hmin₂, hat]
    have hlowest : NewBaseAt q lows i → lowestLow = lows.getD (i - q.pp) 0 := by
      rintro ⟨-, hbefore, hafter⟩
      refine le_antisymm (hall₃ (i - q.pp) (by omega) (by omega)) ?_
      rw [← hmin₃]
      rcases lt_trichotomy k₃ (i - q.pp) with hlt | heq | hgt
      · exact (hbefore k₃ hlt (by omega)).le
      · rw [heq]
      · exact hafter k₃ (by omega) hgt
    refine ⟨⟨?_, ?_⟩, hlowest⟩
    · rintro ⟨hlt, heq⟩
      have hm₂ := hforward hlt
      refine ⟨hi, fun k hk hbase => ?_, fun k hk hgt => ?_⟩
      · rw [← hm₂]
        exact hlt.trans_le (hall₁ k hbase hk)
      · rw [← hm₂, heq]
        exact hall₃ k (by omega) (by omega)
    · intro h
      have hm₁ : lows.getD (i - q.pp) 0 < m₁ := by
        rw [← hmin₁]
        exact h.2.1 k₁ hlt₁ hk₁
      have hm₂ : m₂ = lows.getD (i - q.pp) 0 := by
        refine le_antisymm (hall₂ (i - q.pp) (by omega) (by omega)) ?_
        rw [← hmin₂]
        rcases Nat.lt_succ_iff_lt_or_eq.mp hlt₂ with hbefore | hat
        · exact (h.2.1 k₂ hbefore (by omega)).le
        · rw [hat]
      exact ⟨hm₂ ▸ hm₁, hm₂.trans (hlowest h).symm⟩
  · have hnot : ¬ NewBaseAt q lows i := fun h => hi h.1
    refine ⟨?_, fun h => absurd h hnot⟩
    rw [newBase, if_neg hi, decide_eq_false hnot]

/-- The candle after the latest base keeps it. -/
theorem latestBase_succ (i : ℕ) :
    latestBase q lows (i + 1) = if NewBaseAt q lows i then some i else latestBase q lows i := by
  simp only [latestBase, latest, decide_eq_true_eq]

theorem latestBase_lt (k j : ℕ) (h : latestBase q lows k = some j) :
    j < k ∧ NewBaseAt q lows j := by
  obtain ⟨hlt, hP, -⟩ := (latest_eq_some _ _ _).mp h
  exact ⟨hlt, of_decide_eq_true hP⟩

/-- The running maximum never begins behind the window of the last pump periods. -/
theorem highsFrom_le (i : ℕ) (hpp : 1 ≤ q.pp) : highsFrom q lows i ≤ i + 1 - q.pp ∧
    (0 < i → highsFrom q lows i < i) := by
  rw [highsFrom]
  cases hl : latestBase q lows i with
  | none => exact ⟨Nat.zero_le _, id⟩
  | some j =>
    obtain ⟨hlt, hbase⟩ := latestBase_lt q lows i j hl
    have hj := hbase.1
    dsimp only
    omega

/-- The highest high after one more candle, as the loop computes it. -/
theorem highAfter_succ (i : ℕ) (offsetHigh : ℚ) (hpp : 1 ≤ q.pp) (hn : i < highs.length)
    (hoffset : (slice highs (i + 1 - q.pp) (i + 1)).max? = some offsetHigh) :
    highAfter q highs lows (i + 1) =
      some (match highAfter q highs lows i with
        | none => offsetHigh
        | some hh =>
          if decide (NewBaseAt q lows i) || decide (hh < highs.getD i 0) then offsetHigh else hh) := by
  obtain ⟨hle, hlt⟩ := highsFrom_le q lows i hpp
  have hnew : NewBaseAt q lows i → highAfter q highs lows (i + 1) = some offsetHigh := by
    intro hbase
    have hi := hbase.1
    have hfrom : highsFrom q lows (i + 1) = i + 1 - q.pp := by
      rw [highsFrom, latestBase_succ, if_pos hbase]
      dsimp only
      omega
    rw [highAfter, hfrom, hoffset]
  by_cases hbase : NewBaseAt q lows i
  · rw [hnew hbase]
    cases highAfter q highs lows i with
    | none => rfl
    | some hh => simp [hbase]
  · have hfrom : highsFrom q lows (i + 1) = highsFrom q lows i := by
      rw [highsFrom, latestBase_succ, if_neg hbase, highsFrom]
    rw [highAfter, hfrom, highAfter]
    rw [max_slice highs 0 _ _ (by omega)] at hoffset
    obtain ⟨⟨k, hk, hki, hmax⟩, hall⟩ := hoffset
    cases hhigh : (slice highs (highsFrom q lows i) i).max? with
    | none =>
      -- the first candle
      have hzero : i = 0 := by
        by_contra hpos
        obtain ⟨m, hm⟩ := exists_max_slice highs (highsFrom q lows i) i (hlt (by omega)) (by omega)
        rw [hm] at hhigh
        cases hhigh
      subst hzero
      rw [max_slice highs 0 _ _ (by omega)]
      exact ⟨⟨k, by omega, hki, hmax⟩, fun k' _ hk' => hall k' (by omega) hk'⟩
    | some hh =>
      rw [max_slice highs 0 _ _ (by omega)] at hhigh
      obtain ⟨⟨p, hp, hpi, hhp⟩, holder⟩ := hhigh
      simp only [decide_eq_false hbase, Bool.false_or, decide_eq_true_eq]
      rw [max_slice highs 0 _ _ (by omega)]
      split
      · next hhigher =>
        -- the new bar is the maximum of both windows
        have hoffset : offsetHigh = highs.getD i 0 := by
          refine le_antisymm ?_ (hall i (by omega) (Nat.lt_succ_self i))
          rw [← hmax]
          rcases Nat.lt_succ_iff_lt_or_eq.mp hki with hlt' | rfl
          · exact (holder k (hle.trans hk) hlt').trans hhigher.le
          · exact le_rfl
        refine ⟨⟨i, by omega, Nat.lt_succ_self i, hoffset.symm⟩, fun k' hk' hki' => ?_⟩
        rw [hoffset]
        rcases Nat.lt_succ_iff_lt_or_eq.mp hki' with hlt' | rfl
        · exact (holder k' hk' hlt').trans hhigher.le
        · exact le_rfl
      · next hlower =>
        refine ⟨⟨p, hp, by omega, hhp⟩, fun k' hk' hki' => ?_⟩
        rcases Nat.lt_succ_iff_lt_or_eq.mp hki' with hlt' | rfl
        · exact holder k' hk' hlt'
        · exact not_lt.mp hlower

/-- The loop before candle `i`. -/
structure QflAt (i : ℕ) (s : QflState) : Prop where
  curBase : s.curBase = baseAfter q lows i
  curHh : s.curHh = highAfter q highs lows i
  base : s.out.base = (List.range i).map fun k => baseAfter q lows (k + 1)
  newBase : s.out.newBase = (List.range i).map fun k => decide (NewBaseAt q lows k)
  highestHigh : s.out.highestHigh = (List.range i).map fun k => highAfter q highs lows (k + 1)

theorem qflRound_at (i : ℕ) (s : QflState) (hbase : 2 ≤ q.basePeriods) (hpp : 1 ≤ q.pp)
    (hlows : i < lows.length) (hhighs : i < highs.length) (h : QflAt q highs lows i s) :
    ∃ t, qflRound q highs lows i s = .ok t ∧ QflAt q highs lows (i + 1) t := by
  obtain ⟨lowestLow, hlowest, hmin⟩ := pyMin_slice lows (i + 1 - q.basePeriods) (i + 1) (by omega)
    (by omega)
  obtain ⟨offsetHigh, hoffset, hmax⟩ := pyMax_slice highs (i + 1 - q.pp) (i + 1) (by omega) (by omega)
  obtain ⟨hnew, hlow⟩ := newBase_iff q lows i lowestLow hbase hlows hlowest
  have hhigh := highAfter_succ q highs lows i offsetHigh hpp hhighs hoffset
  have hcur : (if decide (NewBaseAt q lows i) = true then some lowestLow else s.curBase) =
      baseAfter q lows (i + 1) := by
    rw [baseAfter, latestBase_succ, h.curBase, baseAfter]
    by_cases hb : NewBaseAt q lows i
    · rw [if_pos (decide_eq_true hb), if_pos hb, hlow hb]
      rfl
    · rw [if_neg (by simpa using hb), if_neg hb]
  simp only [qflRound, hmin, hmax, hnew, h.curHh, bind, Except.bind, ← hhigh, hcur]
  refine ⟨_, rfl, rfl, rfl, ?_, ?_, ?_⟩
  · rw [h.base, List.range_succ, List.map_append]
    rfl
  · rw [h.newBase, List.range_succ, List.map_append]
    rfl
  · rw [h.highestHigh, List.range_succ, List.map_append]
    rfl

theorem latestBase_none (i : ℕ) (h : ∀ j ≤ i, ¬ NewBaseAt q lows j) :
    latestBase q lows (i + 1) = none :=
  (latest_eq_none _ _).mpr fun k hk => decide_eq_false (h k (Nat.lt_succ_iff.mp hk))

theorem latestBase_some (i j : ℕ) (hj : j ≤ i) (hbase : NewBaseAt q lows j)
    (hlater : ∀ k ≤ i, j < k → ¬ NewBaseAt q lows k) : latestBase q lows (i + 1) = some j :=
  (latest_eq_some _ _ _).mpr ⟨Nat.lt_succ_of_le hj, decide_eq_true hbase, fun k hk hjk =>
    decide_eq_false (hlater k (Nat.lt_succ_iff.mp hk) hjk)⟩

/-- The highest high after candle `i` is the maximum from the bar where it began. -/
theorem highAfter_isGreatest (i : ℕ) (hpp : 1 ≤ q.pp) (hn : i < highs.length) :
    ∃ m, highAfter q highs lows (i + 1) = some m ∧
      IsGreatest {h | ∃ k ≤ i, highsFrom q lows (i + 1) ≤ k ∧ highs.getD k 0 = h} m := by
  have hfrom := (highsFrom_le q lows (i + 1) hpp).2 (Nat.succ_pos i)
  obtain ⟨m, hm⟩ := exists_max_slice highs (highsFrom q lows (i + 1)) (i + 1) hfrom hn
  refine ⟨m, hm, ?_⟩
  rw [max_slice highs 0 _ _ hn] at hm
  obtain ⟨⟨k, hk, hki, hmax⟩, hall⟩ := hm
  refine ⟨⟨k, Nat.lt_succ_iff.mp hki, hk, hmax⟩, ?_⟩
  rintro h ⟨k', hk', hfrom', rfl⟩
  exact hall k' hfrom' (Nat.lt_succ_of_le hk')

/-- The single pass computes the bases and the maxima of the nested windows. -/
theorem qfl_spec (closes : List ℚ) (hhighs : highs.length = lows.length)
    (hcloses : closes.length = lows.length) (hbase : 2 ≤ q.basePeriods)
    (hpump : 1 ≤ q.pumpPeriods) :
    ∃ out, calculateQflSeries q highs lows closes = .ok out ∧ QflSpec q highs lows out := by
  have hpp : 1 ≤ q.pp := le_min hpump (by omega)
  have hlengths : ¬ (highs.length ≠ lows.length ∨ closes.length ≠ lows.length) := by omega
  obtain ⟨s, hloop, hat⟩ := forRange_spec (QflAt q highs lows) 0 lows.length
    (qflRound q highs lows) {} ⟨rfl, rfl, rfl, rfl, rfl⟩
    fun i hi _ s hs => qflRound_at q highs lows i s hbase hpp (by omega) (by omega) hs
  rw [zero_add] at hat
  refine ⟨s.out, ?_, ?_, ?_, ?_⟩
  · simp only [calculateQflSeries, if_neg hlengths, hloop, bind, Except.bind]
    rfl
  · intro i hi
    rw [hat.newBase, getElem?_map_range _ _ _ hi]
  · intro i hi hnone
    obtain ⟨m, hm, hgreatest⟩ := highAfter_isGreatest q highs lows i hpp (hhighs ▸ hi)
    have hlatest := latestBase_none q lows i hnone
    rw [hat.base, hat.highestHigh, getElem?_map_range _ _ _ hi, getElem?_map_range _ _ _ hi,
      baseAfter, hlatest, hm]
    refine ⟨rfl, m, rfl, ?_⟩
    simpa [highsFrom, hlatest] using hgreatest
  · intro i hi j hj hnew hlater
    obtain ⟨m, hm, hgreatest⟩ := highAfter_isGreatest q highs lows i hpp (hhighs ▸ hi)
    have hlatest := latestBase_some q lows i j hj hnew hlater
    rw [hat.base, hat.highestHigh, getElem?_map_range _ _ _ hi, getElem?_map_range _ _ _ hi,
      baseAfter, hlatest, hm]
    refine ⟨rfl, m, rfl, ?_⟩
    simpa [highsFrom, hlatest, Nat.succ_le_iff] using hgreatest

/-- The third candle finds the low of the second as a base. -/
theorem qfl_spec_three :
    ∃ out, calculateQflSeries { basePeriods := 2, pumpPeriods := 1 } [6, 5, 7] [5, 4, 6] [5, 4, 6] =
        .ok out ∧
      QflSpec { basePeriods := 2, pumpPeriods := 1 } [6, 5, 7] [5, 4, 6] out :=
  qfl_spec { basePeriods := 2, pumpPeriods := 1 } [6, 5, 7] [5, 4, 6] [5, 4, 6] rfl rfl le_rfl le_rfl

example : (calculateQflSeries { basePeriods := 2, pumpPeriods := 1 } [6, 5, 7] [5, 4, 6]
    [5, 4, 6]).map QflSeries.base = .ok [none, none, some 4] := by decide +kernel

end Qfl

end Reverto
