import Mathlib.Tactic
import Reverto.Lib.Timeline
import Reverto.Web.SignalArrays

/-!
# What a signal array reads (web/static/app.js, web/static/chart_module.js)

The arrays of `_precomputeSignalArrays` for two candle lists with the same first candles.
The value of an array at an index is computed from the candles up to the index, except
where a swing, a pivot window or a low is looked up behind it.
-/

namespace Reverto

open Script ChartModule

namespace SignalPrefix

/-- A candle list as `/api/candles` gives it, long enough for the same warm-up. -/
structure ChartBars (ν : Type) where
  bars : List (JsCandle ν)
  increasing : Timeline.Increasing JsCandle.time bars
  enough : 312 ≤ bars.length

/-! ### Lines by the times of the candles -/

section Lines

variable {ν : Type} (b : ChartBars ν)

theorem index_of_time (i j : ℕ) (c d : JsCandle ν) (hc : b.bars[i]? = some c)
    (hd : b.bars[j]? = some d) (h : c.time = d.time) : i = j := by
  obtain ⟨hi, rfl⟩ := List.getElem?_eq_some_iff.mp hc
  obtain ⟨hj, rfl⟩ := List.getElem?_eq_some_iff.mp hd
  have hincreasing := List.pairwise_iff_getElem.mp b.increasing
  rcases lt_trichotomy i j with hlt | heq | hgt
  · exact absurd h (hincreasing i j hi hj hlt).ne
  · exact heq
  · exact absurd h (hincreasing j i hj hi hgt).ne'

theorem mem_points (value : ℕ → ν) (a m : ℕ) (e : Point ν) :
    e ∈ points b.bars value a m ↔
      ∃ i c, a ≤ i ∧ i < a + m ∧ b.bars[i]? = some c ∧ e = (c.time, value i) := by
  simp only [points, List.mem_filterMap, List.mem_range'_1, Option.map_eq_some_iff]
  constructor
  · rintro ⟨i, ⟨ha, hm⟩, c, hc, rfl⟩
    exact ⟨i, c, ha, hm, hc, rfl⟩
  · rintro ⟨i, c, ha, hm, hc, rfl⟩
    exact ⟨i, ⟨ha, hm⟩, c, hc, rfl⟩

/-- A line that begins at an index, by the time of a candle. -/
theorem lineAt_points (value : ℕ → ν) (a i : ℕ) :
    RevertoBacktest.lineAt b.bars (points b.bars value a (b.bars.length - a)) i =
      if a ≤ i ∧ i < b.bars.length then some (value i) else none := by
  cases hc : b.bars[i]? with
  | none =>
    have hi := List.getElem?_eq_none_iff.mp hc
    rw [RevertoBacktest.lineAt, hc, if_neg (by omega)]
    rfl
  | some c =>
    have hi := (List.getElem?_eq_some_iff.mp hc).1
    rw [RevertoBacktest.lineAt, hc, Option.bind_some]
    by_cases ha : a ≤ i
    · rw [if_pos ⟨ha, hi⟩]
      refine mapGet_some _ _ _ ((mem_points b value a _ _).mpr ⟨i, c, ha, by omega, hc, rfl⟩) ?_
      intro e he htime
      obtain ⟨j, d, -, -, hd, rfl⟩ := (mem_points b value a _ e).mp he
      obtain rfl := index_of_time b j i d c hd hc htime
      exact congrArg (·, value j) htime
    · rw [if_neg fun h => ha h.1]
      refine mapGet_none _ _ fun e he htime => ?_
      obtain ⟨j, d, hj, -, hd, rfl⟩ := (mem_points b value a _ e).mp he
      obtain rfl := index_of_time b j i d c hd hc htime
      exact ha hj

theorem timeToI_get (i : ℕ) (c : JsCandle ν) (hc : b.bars[i]? = some c) :
    mapGet (RevertoBacktest.timeToI b.bars) c.time = some i := by
  refine mapGet_some _ _ _ ?_ ?_
  · exact List.mem_map.mpr ⟨(c, i), List.mem_zipIdx_iff_getElem?.mpr hc, rfl⟩
  · intro e he htime
    obtain ⟨⟨d, j⟩, hd, rfl⟩ := List.mem_map.mp he
    have hd := List.mem_zipIdx_iff_getElem?.mp hd
    obtain rfl := index_of_time b j i d c hd hc htime
    rw [← htime]

theorem rsiByIdx_points (value : ℕ → ν) (a i : ℕ) :
    RevertoBacktest.rsiByIdx b.bars (points b.bars value a (b.bars.length - a)) i =
      if a ≤ i ∧ i < b.bars.length then some (value i) else none := by
  by_cases h : a ≤ i ∧ i < b.bars.length
  · obtain ⟨c, hc⟩ : ∃ c, b.bars[i]? = some c := ⟨_, List.getElem?_eq_getElem h.2⟩
    have hfind := find?_unique (points b.bars value a (b.bars.length - a)).reverse
      (fun p => decide (mapGet (RevertoBacktest.timeToI b.bars) p.1 = some i)) (c.time, value i)
      (List.mem_reverse.mpr ((mem_points b value a _ _).mpr ⟨i, c, h.1, by omega, hc, rfl⟩))
      (decide_eq_true (timeToI_get b i c hc)) fun e he hp => by
        obtain ⟨j, d, -, -, hd, rfl⟩ := (mem_points b value a _ e).mp (List.mem_reverse.mp he)
        have hj := of_decide_eq_true hp
        rw [timeToI_get b j d hd] at hj
        obtain rfl := Option.some.inj hj
        rw [hc] at hd
        rw [Option.some.inj hd]
    rw [RevertoBacktest.rsiByIdx, hfind, if_pos h]
    rfl
  · have hfind : (points b.bars value a (b.bars.length - a)).reverse.find?
        (fun p => decide (mapGet (RevertoBacktest.timeToI b.bars) p.1 = some i)) = none := by
      rw [List.find?_eq_none]
      intro e he hp
      obtain ⟨j, d, hj, -, hd, rfl⟩ := (mem_points b value a _ e).mp (List.mem_reverse.mp he)
      have hi := of_decide_eq_true hp
      rw [timeToI_get b j d hd] at hi
      obtain rfl := Option.some.inj hi
      exact h ⟨hj, (List.getElem?_eq_some_iff.mp hd).1⟩
    rw [RevertoBacktest.rsiByIdx, hfind, if_neg h]
    rfl

/-- A line of two lists with the same first candles. -/
theorem lineAt_congr (d : ChartBars ν) (i : ℕ) (h : AgreeBelow (i + 1) b.bars d.bars) (v w : ℕ → ν)
    (a j : ℕ) (hj : j ≤ i) (hv : a ≤ j → v j = w j) :
    RevertoBacktest.lineAt b.bars (points b.bars v a (b.bars.length - a)) j =
      RevertoBacktest.lineAt d.bars (points d.bars w a (d.bars.length - a)) j := by
  have hlength := h.lt_length j (by omega)
  rw [lineAt_points, lineAt_points]
  by_cases ha : a ≤ j
  · simp only [ha, true_and, hlength, hv ha]
  · simp only [ha, false_and, if_false]

/-- Two lists with the same first candles are one, or both go on. -/
theorem same_or_longer (d : ChartBars ν) (i : ℕ) (h : AgreeBelow (i + 1) b.bars d.bars) :
    b.bars = d.bars ∨ (i < b.bars.length ∧ i < d.bars.length) := by
  have hlength := h.lt_length i (Nat.lt_succ_self i)
  by_cases hi : i < b.bars.length
  · exact Or.inr ⟨hi, hlength.mp hi⟩
  · left
    have hd : ¬ i < d.bars.length := fun hd => hi (hlength.mpr hd)
    rw [AgreeBelow, List.take_of_length_le (by omega), List.take_of_length_le (by omega)] at h
    exact h

end Lines

/-! ### Lists with the same first candles -/

/-- Two arrays have the same values below an index. -/
def AgreeTo (i : ℕ) (f g : ℕ → Bool) : Prop := ∀ j < i, f j = g j

section Values

set_option linter.unusedSectionVars false

variable {ν : Type} [Add ν] [Sub ν] [Mul ν] [Div ν] [Neg ν] [Min ν] [Max ν] [LT ν] [LE ν]
  [DecidableLT ν] [DecidableLE ν] [DecidableEq ν] [ScriptNumber ν]

theorem emaArray_congr (values values' : ℕ → ν) (period : ℤ) (i : ℕ)
    (h : ∀ j ≤ i, values j = values' j) : emaArray values period i = emaArray values' period i := by
  induction i with
  | zero => exact h 0 le_rfl
  | succ i ih => rw [emaArray, emaArray, h (i + 1) le_rfl, ih fun j hj => h j (by omega)]

theorem rsiAverages_congr (closes closes' : List ν) (period k m : ℕ)
    (h : AgreeBelow m closes closes') (hk : period + k < m) :
    rsiAverages closes period k = rsiAverages closes' period k := by
  have hsums : rsiSums closes period = rsiSums closes' period := by
    refine IndexScan.scan_congr _ _ _ _ fun j hj s => ?_
    rw [h.read (j + 1) (by omega), h.read j (by omega)]
  rw [rsiAverages, rsiAverages, hsums]
  refine IndexScan.scan_congr _ _ _ _ fun j hj s => ?_
  simp only [h.read (period + j + 1) (by omega), h.read (period + j + 1 - 1) (by omega)]

variable (cs ds : List (JsCandle ν)) (m : ℕ) (h : AgreeBelow m cs ds)
include h

/-- A field of a candle below the index. -/
theorem field_congr (f : JsCandle ν → ν) (i : ℤ) (hi : i < m) :
    read (cs.map f) i = read (ds.map f) i := (h.map f).read i hi

theorem macdAt_congr (fast slow : ℤ) (i : ℕ) (hi : i < m) :
    macdAt cs fast slow i = macdAt ds fast slow i := by
  have hcloses : ∀ j ≤ i, read (cs.map JsCandle.close) (j : ℕ) =
      read (ds.map JsCandle.close) (j : ℕ) := fun j hj => field_congr cs ds m h _ j (by omega)
  rw [macdAt, macdAt, emaArray_congr _ _ fast i hcloses, emaArray_congr _ _ slow i hcloses]

theorem macdSignalAt_congr (fast slow signal : ℤ) (i : ℕ) (hi : i < m) :
    macdSignalAt cs fast slow signal i = macdSignalAt ds fast slow signal i :=
  emaArray_congr _ _ signal i fun j hj => macdAt_congr cs ds m h fast slow j (by omega)

theorem bollingerWindow_congr (period i : ℕ) (hp : period ≤ i + 1) (hi : i < m) :
    bollingerWindow cs period i = bollingerWindow ds period i := by
  rw [bollingerWindow, bollingerWindow, slice_eq_between _ _ _ (by omega) (by omega),
    slice_eq_between _ _ _ (by omega) (by omega), h.between _ _ (by omega)]

theorem sarAt_congr (iaf maf : ν) (k : ℕ) (hk : k + 1 < m) :
    RevertoBacktest.sarAt cs iaf maf k = RevertoBacktest.sarAt ds iaf maf k := by
  have hstart : RevertoBacktest.sarStart cs iaf = RevertoBacktest.sarStart ds iaf := by
    simp only [RevertoBacktest.sarStart, field_congr cs ds m h _ 0 (by omega),
      field_congr cs ds m h _ 1 (by omega)]
  rw [RevertoBacktest.sarAt, RevertoBacktest.sarAt, hstart]
  refine IndexScan.scan_congr _ _ _ _ fun j hj s => ?_
  simp only [RevertoBacktest.sarStep, field_congr cs ds m h _ ((j + 2 : ℕ) : ℤ) (by omega),
    field_congr cs ds m h _ (((j + 2 : ℕ) : ℤ) - 1) (by omega),
    field_congr cs ds m h _ (((j + 2 : ℕ) : ℤ) - 2) (by omega)]

theorem trueRangeAt_congr (i : ℤ) (hi : i < m) :
    RevertoBacktest.trueRangeAt cs i = RevertoBacktest.trueRangeAt ds i := by
  simp only [RevertoBacktest.trueRangeAt, field_congr cs ds m h _ i hi,
    field_congr cs ds m h _ (i - 1) (by omega)]

theorem atrAt_congr (atrP : ℤ) (k : ℕ) (hk : atrP + k < m) :
    RevertoBacktest.atrAt cs atrP k = RevertoBacktest.atrAt ds atrP k := by
  have hsum : IndexScan.scan (fun k s => s + RevertoBacktest.trueRangeAt cs (k + 1)) (ofRat 0)
      atrP.toNat = IndexScan.scan (fun k s => s + RevertoBacktest.trueRangeAt ds (k + 1)) (ofRat 0)
      atrP.toNat := by
    refine IndexScan.scan_congr _ _ _ _ fun j hj s => ?_
    rw [trueRangeAt_congr cs ds m h (j + 1) (by omega)]
  rw [RevertoBacktest.atrAt, RevertoBacktest.atrAt, hsum]
  refine IndexScan.scan_congr _ _ _ _ fun j hj s => ?_
  rw [trueRangeAt_congr cs ds m h (atrP + j + 1) (by omega)]

theorem bandAt_congr (atrP : ℤ) (mult : ν) (k : ℕ) (hk : atrP + k ≤ m) :
    RevertoBacktest.bandAt cs atrP mult k = RevertoBacktest.bandAt ds atrP mult k := by
  refine IndexScan.scan_congr _ _ _ _ fun j hj s => ?_
  simp only [RevertoBacktest.bandStep, atrAt_congr cs ds m h atrP j (by omega),
    field_congr cs ds m h _ (atrP + j) (by omega),
    field_congr cs ds m h _ (atrP + j - 1) (by omega)]

theorem volumeOk_congr (vt : ℚ) (p : ℕ) (hp : p < m) : volumeOk cs vt p = volumeOk ds vt p := by
  have hosc : volOscAt cs p = volOscAt ds p := by
    have hvols : ∀ j ≤ p, read (cs.map JsCandle.volume) (j : ℕ) =
        read (ds.map JsCandle.volume) (j : ℕ) := fun j hj => field_congr cs ds m h _ j (by omega)
    simp only [volOscAt, emaArray_congr _ _ 5 p hvols, emaArray_congr _ _ 10 p hvols]
  rw [volumeOk, volumeOk, hosc]

/-- The window of a pivot ends at the candle that confirms it. -/
theorem pivots_congr (leftBars rightBars p : ℤ) (hright : 0 ≤ rightBars) (hp : p + rightBars < m) :
    pivotHigh cs leftBars rightBars p = pivotHigh ds leftBars rightBars p ∧
      pivotLow cs leftBars rightBars p = pivotLow ds leftBars rightBars p := by
  simp only [pivotHigh, pivotLow, field_congr cs ds m h _ p (by omega),
    (h.map JsCandle.high).between _ p (by omega), (h.map JsCandle.low).between _ p (by omega),
    (h.map JsCandle.high).between _ (p + rightBars + 1) (by omega),
    (h.map JsCandle.low).between _ (p + rightBars + 1) (by omega), and_self]

theorem srStateAt_congr (leftBars rightBars : ℤ) (vt : ℚ) (mt : ℤ) (i : ℕ) (hi : i < m)
    (hbars : ∀ j ≤ i, leftBars ≤ (j : ℤ) - rightBars → 0 ≤ (j : ℤ) - rightBars ∧ 0 ≤ rightBars) :
    srStateAt cs leftBars rightBars vt mt i = srStateAt ds leftBars rightBars vt mt i := by
  refine IndexScan.scan_congr _ _ _ _ fun j hj s => ?_
  have hpivots : srPivots cs leftBars rightBars vt j s = srPivots ds leftBars rightBars vt j s := by
    unfold srPivots
    dsimp only
    split
    · next hleft =>
      obtain ⟨hpos, hright⟩ := hbars j (by omega) hleft
      obtain ⟨hhigh, hlow⟩ := pivots_congr cs ds m h leftBars rightBars (j - rightBars) hright
        (by omega)
      rw [hhigh, hlow, volumeOk_congr cs ds m h vt _ (by omega),
        field_congr cs ds m h _ ((j : ℤ) - rightBars) (by omega),
        field_congr cs ds m h _ ((j : ℤ) - rightBars) (by omega)]
    · rfl
  rw [srStep, srStep, hpivots, field_congr cs ds m h JsCandle.high j (by omega),
    field_congr cs ds m h JsCandle.low j (by omega)]

theorem newBaseAt_congr (bp pp : ℤ) (i : ℕ) (hi : i < m) (hbars : 0 ≤ pp ∨ bp ≤ 0) :
    newBaseAt (cs.map JsCandle.low) bp pp i = newBaseAt (ds.map JsCandle.low) bp pp i := by
  have hwindow : ∀ e : ℤ, (0 ≤ pp → e ≤ m) →
      between (cs.map JsCandle.low) (max 0 (e - bp)) e =
        between (ds.map JsCandle.low) (max 0 (e - bp)) e := by
    intro e he
    rcases hbars with hpump | hbase
    · exact (h.map JsCandle.low).between _ e (he hpump)
    · have hempty : ∀ xs : List ν, between xs (max 0 (e - bp)) e = [] := by
        intro xs
        rw [between, List.drop_eq_nil_iff, List.length_take]
        omega
      rw [hempty, hempty]
  simp only [newBaseAt, (h.map JsCandle.low).between _ (i + 1) (by omega),
    hwindow (max 1 (i - pp)) (fun _ => by omega), hwindow (i - pp + 1) (fun _ => by omega)]

theorem qflStateAt_congr (bp pp : ℤ) (i : ℕ) (hi : i < m) (hbars : 0 ≤ pp ∨ bp ≤ 0) :
    qflStateAt cs bp pp i = qflStateAt ds bp pp i := by
  refine IndexScan.scan_congr _ _ _ _ fun j hj s => ?_
  simp only [qflStep, newBaseAt_congr cs ds m h bp pp j (by omega) hbars,
    (h.map JsCandle.high).between _ (j + 1) (by omega),
    (h.map JsCandle.low).between _ (j + 1) (by omega), field_congr cs ds m h JsCandle.high j (by omega)]

end Values

/-- Where the scan does not throw, a pivot is a candle of the list and counts from a later one. -/
theorem pivot_of_not_throws (n : ℕ) (leftBars rightBars : ℤ)
    (hthrows : srThrows n leftBars rightBars = false) (j : ℕ) (hj : j < n)
    (hleft : leftBars ≤ (j : ℤ) - rightBars) : 0 ≤ (j : ℤ) - rightBars ∧ 0 ≤ rightBars := by
  have hat : ∀ k < n, leftBars ≤ (k : ℤ) - rightBars →
      0 ≤ (k : ℤ) - rightBars ∧ (k : ℤ) - rightBars < n := by
    intro k hk hkleft
    have hall := List.any_eq_false.mp hthrows k (List.mem_range.mpr hk)
    simp only [Bool.and_eq_true, Bool.or_eq_true, decide_eq_true_eq] at hall
    omega
  have hlast := hat (n - 1) (by omega) (by omega)
  exact ⟨(hat j hj hleft).1, by omega⟩

theorem rel_map {α β γ δ : Type} {R : α → β → Prop} {S : γ → δ → Prop} (x : Option α) (y : Option β)
    (f : α → γ) (g : β → δ) (h : Option.Rel R x y) (hfg : ∀ a b, R a b → S (f a) (g b)) :
    Option.Rel S (x.map f) (y.map g) := by
  cases h with
  | none => exact .none
  | some hab => exact .some (hfg _ _ hab)

theorem rel_mapM {α β γ : Type} {R : β → γ → Prop} (f : α → Option β) (g : α → Option γ)
    (l : List α) (h : ∀ a ∈ l, Option.Rel R (f a) (g a)) :
    Option.Rel (List.Forall₂ R) (l.mapM f) (l.mapM g) := by
  induction l with
  | nil => exact .some .nil
  | cons a l ih =>
    have hhead := h a List.mem_cons_self
    have htail := ih fun c hc => h c (List.mem_cons_of_mem a hc)
    rw [List.mapM_cons, List.mapM_cons]
    generalize f a = x at hhead ⊢
    generalize g a = y at hhead ⊢
    cases hhead with
    | none => exact .none
    | some hbc =>
      generalize l.mapM f = xs at htail ⊢
      generalize l.mapM g = ys at htail ⊢
      cases htail with
      | none => exact .none
      | some hrest => exact .some (.cons hbc hrest)

/-- Lists of arrays that agree below an index say the same there. -/
theorem all_agree (i : ℕ) (fs gs : List (ℕ → Bool)) (h : List.Forall₂ (AgreeTo i) fs gs) (j : ℕ)
    (hj : j < i) : (fs.all fun f => f j) = gs.all fun g => g j := by
  induction h with
  | nil => rfl
  | cons hfg _ ih => rw [List.all_cons, List.all_cons, hfg j hj, ih]

theorem any_agree (i : ℕ) (fs gs : List (ℕ → Bool)) (h : List.Forall₂ (AgreeTo i) fs gs) (j : ℕ)
    (hj : j < i) : (fs.any fun f => f j) = gs.any fun g => g j := by
  induction h with
  | nil => rfl
  | cons hfg _ ih => rw [List.any_cons, List.any_cons, hfg j hj, ih]

section Arrays

variable {ν : Type} [Add ν] [Sub ν] [Mul ν] [Div ν] [Neg ν] [Min ν] [Max ν] [LT ν] [LE ν]
  [DecidableLT ν] [DecidableLE ν] [DecidableEq ν] [ScriptNumber ν]

open RevertoBacktest

/-- The swings two lists show before an index are the same at every earlier index. -/
structure SwingsAgree (b d : ChartBars ν) (i : ℕ) (lb : ℤ) : Prop where
  highs : ∀ j < i, swingsBefore (isSwingHigh (b.bars.map JsCandle.close) lb) b.bars.length lb j =
    swingsBefore (isSwingHigh (d.bars.map JsCandle.close) lb) d.bars.length lb j
  lows : ∀ j < i, swingsBefore (isSwingLow (b.bars.map JsCandle.close) lb) b.bars.length lb j =
    swingsBefore (isSwingLow (d.bars.map JsCandle.close) lb) d.bars.length lb j

/-- An indicator whose array reads nothing behind an index of two lists. -/
structure SeesNoLater (b d : ChartBars ν) (i : ℕ) (ind : IndicatorConfig) : Prop where
  swings : ind.type = "MARKET_STRUCTURE" → SwingsAgree b d i (ind.lookback.getD 3)
  pivots : ind.type = "SUPPORT_RESISTANCE" →
    srThrows b.bars.length (truthyOr ind.leftBars 15) (truthyOr ind.rightBars 15) =
      srThrows d.bars.length (truthyOr ind.leftBars 15) (truthyOr ind.rightBars 15)
  lows : ind.type = "QFL" → 0 < truthyOr ind.pumpPeriods 8 ∨ truthyOr ind.basePeriods 36 < 0

variable (b d : ChartBars ν) (i : ℕ) (h : AgreeBelow (i + 1) b.bars d.bars)
include h

theorem rsi_congr (period : ℤ) :
    Option.Rel (fun line line' => ∀ j ≤ i, rsiByIdx b.bars line j = rsiByIdx d.bars line' j ∧
      lineAt b.bars line j = lineAt d.bars line' j)
      (calcRSILine b.bars period) (calcRSILine d.bars period) := by
  have hline : ∀ cs : List (JsCandle ν), calcRSILine cs period =
      if period < 0 then none
      else some (points cs (fun i => rsiAt (rsiAverages (cs.map JsCandle.close) period.toNat
        (i - period.toNat))) period.toNat (cs.length - period.toNat)) := by
    intro cs
    rw [calcRSILine]
    split
    · next hshort =>
      have hzero : cs.length - period.toNat = 0 := by omega
      rw [if_neg (by omega), hzero]
      rfl
    · rfl
  rw [hline, hline]
  split
  · exact .none
  · refine .some fun j hj => ?_
    have hvalue : period.toNat ≤ j →
        rsiAt (rsiAverages (b.bars.map JsCandle.close) period.toNat (j - period.toNat)) =
          rsiAt (rsiAverages (d.bars.map JsCandle.close) period.toNat (j - period.toNat)) := by
      intro hp
      rw [rsiAverages_congr _ _ _ _ (i + 1) (h.map JsCandle.close) (by omega)]
    refine ⟨?_, lineAt_congr b d i h _ _ _ j hj hvalue⟩
    have hlength := h.lt_length j (by omega)
    rw [rsiByIdx_points, rsiByIdx_points]
    by_cases hp : period.toNat ≤ j
    · simp only [hp, true_and, hlength, hvalue hp]
    · simp only [hp, false_and, if_false]

theorem rsiSignals_agree (ind : IndicatorConfig) :
    Option.Rel (AgreeTo i) (rsiSignals b.bars ind) (rsiSignals d.bars ind) := by
  refine rel_map _ _ _ _ (rsi_congr b d i h (truthyOr ind.period 14)) fun line line' hline j hj => ?_
  rw [rsiArray, rsiArray, (hline j hj.le).1, (hline (j - 1) (by omega)).1]

theorem macdSignals_agree (ind : IndicatorConfig) :
    AgreeTo i (macdSignals b.bars ind) (macdSignals d.bars ind) := by
  intro j hj
  have hmacd := macdAt_congr b.bars d.bars (i + 1) h (truthyOr ind.macdFast 12)
    (truthyOr ind.macdSlow 26) j (by omega)
  have hsignal := macdSignalAt_congr b.bars d.bars (i + 1) h (truthyOr ind.macdFast 12)
    (truthyOr ind.macdSlow 26) (truthyOr ind.macdSignal 9) j (by omega)
  simp only [macdSignals, calcMACDLines]
  rw [lineAt_congr b d i h _ _ _ j hj.le fun _ => hmacd,
    lineAt_congr b d i h _ _ _ j hj.le fun _ => hsignal,
    lineAt_congr b d i h _ (fun i => macdAt d.bars (truthyOr ind.macdFast 12)
      (truthyOr ind.macdSlow 26) i - macdSignalAt d.bars (truthyOr ind.macdFast 12)
      (truthyOr ind.macdSlow 26) (truthyOr ind.macdSignal 9) i) _ j hj.le fun _ => by
        rw [hmacd, hsignal]]

theorem bollingerSignals_agree (sqrt : ν → ν) (ind : IndicatorConfig) :
    Option.Rel (AgreeTo i) (bollingerSignals sqrt b.bars ind) (bollingerSignals sqrt d.bars ind) := by
  unfold bollingerSignals calcBollingerLines
  dsimp only
  split
  · exact .none
  · refine .some fun j hj => ?_
    have hwindow : (truthyOr ind.period 20).toNat - 1 ≤ j →
        bollingerWindow b.bars (truthyOr ind.period 20).toNat j =
          bollingerWindow d.bars (truthyOr ind.period 20).toNat j := fun hp =>
      bollingerWindow_congr b.bars d.bars (i + 1) h _ j (by omega) (by omega)
    dsimp only
    rw [field_congr b.bars d.bars (i + 1) h _ j (by omega)]
    congr 1
    · exact lineAt_congr b d i h _ _ _ j hj.le fun hp => by rw [hwindow hp]
    · exact lineAt_congr b d i h _ _ _ j hj.le fun hp => by rw [hwindow hp]
    · exact lineAt_congr b d i h _ _ _ j hj.le fun hp => by rw [hwindow hp]

theorem parabolicSarSignals_agree (ind : IndicatorConfig) :
    AgreeTo i (parabolicSarSignals b.bars ind) (parabolicSarSignals d.bars ind) := by
  intro j hj
  have hb : 10 ≤ b.bars.length := le_trans (by norm_num) b.enough
  have hd : 10 ≤ d.bars.length := le_trans (by norm_num) d.enough
  simp only [parabolicSarSignals, hb, hd, sarAt_congr b.bars d.bars (i + 1) h _ _ (j - 2) (by omega)]
  by_cases hlate : 2 ≤ j
  · rw [sarAt_congr b.bars d.bars (i + 1) h _ _ (j - 1) (by omega)]
  · simp only [hlate, decide_false, Bool.and_false, Bool.false_and]

theorem supertrendSignals_agree (ind : IndicatorConfig) :
    AgreeTo i (supertrendSignals b.bars ind) (supertrendSignals d.bars ind) := by
  rcases same_or_longer b d i h with hsame | ⟨hb, hd⟩
  · rw [hsame]
    exact fun j _ => rfl
  · intro j hj
    simp only [supertrendSignals]
    by_cases hlate : ind.atrPeriod.getD 10 ≤ j
    · have hbl : ind.atrPeriod.getD 10 + 1 < b.bars.length := by omega
      have hdl : ind.atrPeriod.getD 10 + 1 < d.bars.length := by omega
      rw [bandAt_congr b.bars d.bars (i + 1) h _ _ _ (by omega),
        bandAt_congr b.bars d.bars (i + 1) h _ _ _ (by omega), decide_eq_true hbl,
        decide_eq_true hdl]
    · simp only [hlate, decide_false, Bool.and_false, Bool.false_and]

theorem marketStructureSignals_agree (ind : IndicatorConfig)
    (hswings : SwingsAgree b d i (ind.lookback.getD 3)) :
    AgreeTo i (marketStructureSignals b.bars ind) (marketStructureSignals d.bars ind) := by
  intro j hj
  have hvalues : ∀ swing n lb, (swingsBefore swing n lb j).map (read (b.bars.map JsCandle.close)) =
      (swingsBefore swing n lb j).map (read (d.bars.map JsCandle.close)) := by
    intro swing n lb
    refine List.map_congr_left fun s hs => ?_
    rw [swingsBefore, List.mem_reverse, List.mem_filter, decide_eq_true_eq] at hs
    exact field_congr b.bars d.bars (i + 1) h _ s (by omega)
  simp only [marketStructureSignals]
  rw [hswings.highs j hj, hswings.lows j hj, hvalues, hvalues, field_congr b.bars d.bars (i + 1) h _ j (by omega)]

theorem supportResistanceSignals_agree (ind : IndicatorConfig)
    (hpivots : srThrows b.bars.length (truthyOr ind.leftBars 15) (truthyOr ind.rightBars 15) =
      srThrows d.bars.length (truthyOr ind.leftBars 15) (truthyOr ind.rightBars 15)) :
    Option.Rel (AgreeTo i) (supportResistanceSignals b.bars ind)
      (supportResistanceSignals d.bars ind) := by
  rcases same_or_longer b d i h with hsame | ⟨hb, hd⟩
  · rw [hsame]
    cases supportResistanceSignals d.bars ind with
    | none => exact .none
    | some f => exact .some fun j _ => rfl
  · simp only [supportResistanceSignals, calcSR, hpivots]
    cases hthrows : srThrows d.bars.length (truthyOr ind.leftBars 15)
        (truthyOr ind.rightBars 15) with
    | true => exact .none
    | false =>
      refine .some fun j hj => ?_
      have hstate := srStateAt_congr b.bars d.bars (i + 1) h (truthyOr ind.leftBars 15)
        (truthyOr ind.rightBars 15) (truthyOr ind.volumeThreshold 0)
        (truthyOr (some (truthyOr ind.minTouches 1)) 1) j (by omega) fun k hk =>
          pivot_of_not_throws d.bars.length _ _ hthrows k (by omega)
      dsimp only
      rw [hstate, field_congr b.bars d.bars (i + 1) h _ j (by omega),
        field_congr b.bars d.bars (i + 1) h _ ((j : ℤ) - 1) (by omega)]

theorem qflSignals_agree (ind : IndicatorConfig)
    (hlows : 0 < truthyOr ind.pumpPeriods 8 ∨ truthyOr ind.basePeriods 36 < 0) :
    AgreeTo i (qflSignals b.bars ind) (qflSignals d.bars ind) := by
  intro j hj
  have hstate := qflStateAt_congr b.bars d.bars (i + 1) h (truthyOr ind.basePeriods 36)
    (min (truthyOr ind.pumpPeriods 8) (truthyOr ind.basePeriods 36 - 1)) j (by omega) (by omega)
  simp only [qflSignals, calcQFL, truthyOr_twice _ _ (by norm_num : (36 : ℤ) ≠ 0),
    truthyOr_twice _ _ (by norm_num : (8 : ℤ) ≠ 0)]
  rw [hstate, field_congr b.bars d.bars (i + 1) h JsCandle.close j (by omega),
    field_congr b.bars d.bars (i + 1) h JsCandle.low j (by omega)]

theorem indicatorSignals_agree (sqrt : ν → ν) (ind : IndicatorConfig)
    (hind : SeesNoLater b d i ind) :
    Option.Rel (AgreeTo i) (indicatorSignals sqrt b.bars ind) (indicatorSignals sqrt d.bars ind) := by
  unfold indicatorSignals
  split
  · exact rsiSignals_agree b d i h ind
  · exact .some (macdSignals_agree b d i h ind)
  · exact bollingerSignals_agree b d i h sqrt ind
  · exact .some (parabolicSarSignals_agree b d i h ind)
  · exact .some (supertrendSignals_agree b d i h ind)
  · next htype => exact .some (marketStructureSignals_agree b d i h ind (hind.swings htype))
  · next htype => exact supportResistanceSignals_agree b d i h ind (hind.pivots htype)
  · next htype => exact .some (qflSignals_agree b d i h ind (hind.lows htype))
  · exact .some fun _ _ => rfl

/-- Signals that say the same below an index, under the same names. -/
structure SignalsAgree (i : ℕ) (s t : EntrySignals) : Prop where
  combined : AgreeTo i s.combined t.combined
  groups : List.Forall₂ (fun p q => AgreeTo i p.1 q.1 ∧ p.2 = q.2) s.groups t.groups

theorem precompute_agree (sqrt : ν → ν) (entry : EntryConfig)
    (hinds : ∀ g ∈ allGroups entry, ∀ ind ∈ g.indicators, SeesNoLater b d i ind) :
    Option.Rel (SignalsAgree i) (precomputeSignalArrays sqrt b.bars entry)
      (precomputeSignalArrays sqrt d.bars entry) := by
  have hgroup : ∀ g ∈ allGroups entry, Option.Rel (AgreeTo i) (groupSignals sqrt b.bars g)
      (groupSignals sqrt d.bars g) := by
    intro g hg
    refine rel_map _ _ _ _ (rel_mapM _ _ _ fun ind hind =>
      indicatorSignals_agree b d i h sqrt ind (hinds g hg ind hind)) fun fs gs hfgs j hj => ?_
    exact all_agree i fs gs hfgs j hj
  unfold precomputeSignalArrays
  split
  · exact .some ⟨fun _ _ => rfl, .nil⟩
  · refine rel_map _ _ _ _ (rel_mapM _ _ _ hgroup) fun fs gs hfgs => ⟨?_, ?_⟩
    · exact fun j hj => any_agree i fs gs hfgs j hj
    · dsimp only
      generalize (allGroups entry).zipIdx.map (fun g => groupTrigger g.2 g.1) = names
      induction hfgs generalizing names with
      | nil => exact .nil
      | cons hfg _ ih =>
        cases names with
        | nil => exact .nil
        | cons name names => exact .cons ⟨hfg, rfl⟩ (ih names)

/-- A take-profit indicator at a candle reads the candles up to it. -/
theorem evalTpIndicator_congr (ind : IndicatorConfig) (j : ℕ) (hj : j ≤ i) :
    evalTpIndicator b.bars ind j = evalTpIndicator d.bars ind j := by
  have hrsi : ((calcRSILine b.bars (truthyOr ind.period 14)).bind fun line =>
      lineAt b.bars line j) = (calcRSILine d.bars (truthyOr ind.period 14)).bind fun line =>
        lineAt d.bars line j := by
    have hrel := rsi_congr b d i h (truthyOr ind.period 14)
    generalize calcRSILine b.bars (truthyOr ind.period 14) = x at hrel ⊢
    generalize calcRSILine d.bars (truthyOr ind.period 14) = y at hrel ⊢
    cases hrel with
    | none => rfl
    | some hline => exact (hline j hj).2
  have hmacd := macdAt_congr b.bars d.bars (i + 1) h (truthyOr ind.macdFast 12)
    (truthyOr ind.macdSlow 26) j (by omega)
  have hsignal := macdSignalAt_congr b.bars d.bars (i + 1) h (truthyOr ind.macdFast 12)
    (truthyOr ind.macdSlow 26) (truthyOr ind.macdSignal 9) j (by omega)
  have hhist := lineAt_congr b d i h
    (fun i => macdAt b.bars (truthyOr ind.macdFast 12) (truthyOr ind.macdSlow 26) i -
      macdSignalAt b.bars (truthyOr ind.macdFast 12) (truthyOr ind.macdSlow 26)
        (truthyOr ind.macdSignal 9) i)
    (fun i => macdAt d.bars (truthyOr ind.macdFast 12) (truthyOr ind.macdSlow 26) i -
      macdSignalAt d.bars (truthyOr ind.macdFast 12) (truthyOr ind.macdSlow 26)
        (truthyOr ind.macdSignal 9) i) (truthyOr ind.macdSlow 26).toNat j hj fun _ => by
      rw [hmacd, hsignal]
  simp only [evalTpIndicator, hrsi, calcMACDLines, hhist]

end Arrays

end SignalPrefix

end Reverto
