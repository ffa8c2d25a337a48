import Mathlib.Tactic
import Reverto.Web.SignalAgreement

/-!
# Entry verdicts of the browser and of the engine (web/static/app.js,
strategies/indicator_engine.py)

The combined array of `_precomputeSignalArrays` against `check_entry_signal` on the
candles up to an index, for groups of support and resistance, QFL, parabolic SAR and
Supertrend indicators.
-/

namespace Reverto

open Script RevertoBacktest

namespace EntryAgreement

open SignalAgreement

/-- The caches of the engine with the candles `0 .. i` on the driving timeframe. -/
def cachesUpTo (tf : Timeframe) (candles : List (JsCandle ℚ)) (i : ℕ) : Candles :=
  { closesPerTf := fun t => if t = tf then upTo candles i JsCandle.close else []
    highsPerTf := fun t => if t = tf then some (upTo candles i JsCandle.high) else none
    lowsPerTf := fun t => if t = tf then some (upTo candles i JsCandle.low) else none }

/-- A number of an indicator is given and positive. -/
def Given {α : Type} [Zero α] [LT α] (x : Option α) : Prop := ∃ a, x = some a ∧ 0 < a

/-- The numbers of an indicator are given and positive; support and resistance has no volume
filter. -/
def NumbersGiven (ind : IndicatorConfig) : Prop :=
  match ind.type with
  | "SUPPORT_RESISTANCE" =>
    Given ind.leftBars ∧ Given ind.rightBars ∧ Given ind.proximityPct ∧ Given ind.minTouches ∧
      truthyOr ind.volumeThreshold 0 = 0
  | "QFL" =>
    Given ind.basePeriods ∧ Given ind.pumpPeriods ∧ Given ind.pumpFromBasePct ∧
      Given ind.baseCrackPct
  | "PARABOLIC_SAR" => Given ind.initialAf ∧ Given ind.maxAf
  | "SUPERTREND" => Given ind.atrPeriod ∧ Given ind.multiplier
  | _ => False

/-- The indicators of the groups are of the four types, on the driving timeframe, and the
index has enough positive candles. -/
structure Covered (cfg : BotConfig) (candles : List (JsCandle ℚ)) (i : ℕ) : Prop where
  index : i < candles.length
  positive : ∀ c ∈ candles, 0 < c.open ∧ 0 < c.high ∧ 0 < c.low ∧ 0 < c.close
  numbers : ∀ g ∈ allGroups cfg.entry, ∀ ind ∈ g.indicators, NumbersGiven ind
  timeframe : ∀ g ∈ allGroups cfg.entry, ∀ ind ∈ g.indicators, ∀ tf ∈ ind.timeframe,
    tf = cfg.timeframe
  enough : ∀ g ∈ allGroups cfg.entry, ∀ ind ∈ g.indicators, CandleSupply.minimum ind ≤ i + 1

/-- No indicator meets one of the differences: a level of the other side that is not there, a
base of a single bar, a Supertrend on the shortest chart. -/
def SameRules (candles : List (JsCandle ℚ)) (i : ℕ) (ind : IndicatorConfig) : Prop :=
  match ind.type with
  | "SUPPORT_RESISTANCE" => ∀ res sup,
    SupportResistance.calculateSrSeries (upTo candles i JsCandle.high) (upTo candles i JsCandle.low)
        (upTo candles i JsCandle.close) (ind.leftBars.getD 15).toNat (ind.rightBars.getD 15).toNat
        none 0 (ind.minTouches.getD 1).toNat = .ok (res, sup) →
      ¬ Skipped (textOr ind.condition "price_crossing_down") (textOr ind.value "resistance")
        (ind.proximityPct.getD 1) (read (candles.map JsCandle.close) i) res.getLast?.join
        sup.getLast?.join
  | "QFL" => 2 ≤ ind.basePeriods.getD 36
  | "SUPERTREND" => ind.atrPeriod.getD 10 + 1 < candles.length
  | _ => True

/-- The groups are the same and hold nothing that is read differently. -/
structure SameVerdict (cfg : BotConfig) (candles : List (JsCandle ℚ)) (i : ℕ) : Prop where
  groups : cfg.entry.indicatorGroups = [] ∨ ∃ g ∈ cfg.entry.indicatorGroups, g.indicators ≠ []
  asap : ∀ ind ∈ cfg.entry.indicators, ind.type.toUpper ≠ "ASAP"
  rules : ∀ g ∈ allGroups cfg.entry, ∀ ind ∈ g.indicators, SameRules candles i ind

section Indicators

variable (other : Signals) (sqrt : ℚ → ℚ) (candles : List (JsCandle ℚ)) (i : ℕ)
  (ind : IndicatorConfig)

/-- What the engine says of an indicator on the candles up to the index. -/
def verdict : Bool :=
  IndicatorEngine.evaluateIndicator other ind (upTo candles i JsCandle.close)
    (some (upTo candles i JsCandle.high)) (some (upTo candles i JsCandle.low)) none

theorem verdict_of_dispatch (r : Except PyError Bool) :
    IndicatorEngine.dispatchIndicator other ind (upTo candles i JsCandle.close)
        (some (upTo candles i JsCandle.high)) (some (upTo candles i JsCandle.low)) none = r →
      verdict other candles i ind =
        match r with
        | .ok signal => signal
        | .error _ => false := by
  rintro rfl
  rfl

theorem upTo_not_missing (hi : i < candles.length) (f : JsCandle ℚ → ℚ) :
    IndicatorEngine.isMissing (some (upTo candles i f)) = false := by
  have hne : upTo candles i f ≠ [] :=
    List.ne_nil_of_length_pos (by rw [upTo_length candles i hi]; exact Nat.succ_pos i)
  cases hx : upTo candles i f with
  | nil => exact absurd hx hne
  | cons x xs => rfl

theorem parabolicSar_same (htype : ind.type = "PARABOLIC_SAR") (hnumbers : NumbersGiven ind)
    (hi : i < candles.length) (hn : CandleSupply.minimum ind ≤ i + 1) :
    parabolicSarSignals candles ind i = verdict other candles i ind := by
  have hupper : ind.type.toUpper = "PARABOLIC_SAR" := by
    rw [htype]
    decide +kernel
  have hlong : 9 ≤ i := by
    simp [CandleSupply.minimum, hupper] at hn
    omega
  rw [NumbersGiven, htype] at hnumbers
  obtain ⟨⟨iaf, hiaf, hiaf0⟩, maf, hmaf, hmaf0⟩ := hnumbers
  have hcheck := checkParabolicSar_run candles i iaf maf (textOr ind.condition "bullish") hi hlong
  have hdispatch : IndicatorEngine.dispatchIndicator other ind (upTo candles i JsCandle.close)
      (some (upTo candles i JsCandle.high)) (some (upTo candles i JsCandle.low)) none =
        .ok (sarHit (textOr ind.condition "bullish") (sarAt candles iaf maf (i - 2)).trend
          (sarAt candles iaf maf (i - 1)).trend) := by
    simp only [IndicatorEngine.dispatchIndicator, hupper, IndicatorEngine.dispatchParabolicSar,
      upTo_not_missing candles i hi, hiaf, hmaf, truthyOr_some iaf _ hiaf0.ne',
      truthyOr_some maf _ hmaf0.ne', Bool.or_self, Bool.false_eq_true, if_false, Option.getD_some]
    exact hcheck
  rw [verdict, IndicatorEngine.evaluateIndicator, hdispatch, parabolicSarSignals, hiaf, hmaf,
    decide_eq_true (show 10 ≤ candles.length by omega), decide_eq_true (show 2 ≤ i by omega)]
  rfl

theorem supertrend_same (htype : ind.type = "SUPERTREND") (hnumbers : NumbersGiven ind)
    (hi : i < candles.length) (hn : CandleSupply.minimum ind ≤ i + 1)
    (hrules : SameRules candles i ind) :
    supertrendSignals candles ind i = verdict other candles i ind := by
  have hupper : ind.type.toUpper = "SUPERTREND" := by
    rw [htype]
    decide +kernel
  rw [NumbersGiven, htype] at hnumbers
  obtain ⟨⟨atr, hatr, hatr0⟩, mult, hmult, hmult0⟩ := hnumbers
  obtain ⟨a, rfl⟩ := Int.eq_ofNat_of_zero_le hatr0.le
  rw [SameRules, htype, hatr] at hrules
  have hlater : (a : ℤ) + 1 < candles.length := hrules
  have hlong : a ≤ i := by
    simp [CandleSupply.minimum, hupper, CandleSupply.orDefault, hatr] at hn
    omega
  have hcheck := checkSupertrend_run candles i a mult (textOr ind.condition "bullish") hi (by omega)
    hlong
  have hdispatch : IndicatorEngine.dispatchIndicator other ind (upTo candles i JsCandle.close)
      (some (upTo candles i JsCandle.high)) (some (upTo candles i JsCandle.low)) none =
        Supertrend.checkSupertrendSignal (upTo candles i JsCandle.high) (upTo candles i JsCandle.low)
          (upTo candles i JsCandle.close) a mult (textOr ind.condition "bullish") := by
    simp only [IndicatorEngine.dispatchIndicator, hupper, IndicatorEngine.dispatchSupertrend,
      hatr, hmult, truthyOr_some _ _ hatr0.ne', truthyOr_some mult _ hmult0.ne']
  have hindex : ((i : ℤ) - a).toNat = i - a := by omega
  rw [verdict, IndicatorEngine.evaluateIndicator, hdispatch, hcheck, supertrendSignals, hatr, hmult]
  simp only [Option.getD_some, ofRat_rat, hindex, decide_eq_true hlater,
    decide_eq_true (show (a : ℤ) ≤ i by omega), Bool.true_and, supertrendHit_eq]
  cases Supertrend.trendHit? (textOr ind.condition "bullish") (bandAt candles a mult (i - a)).trend
      (bandAt candles a mult (i - a + 1)).trend with
  | none => rfl
  | some hit => rfl

/-- No round of the scan leaves the list. -/
theorem srThrows_false (n lb rb : ℕ) : ChartModule.srThrows n lb rb = false := by
  rw [ChartModule.srThrows, List.any_eq_false]
  intro k hk
  have hlt := List.mem_range.mp hk
  simp only [Bool.and_eq_true, Bool.or_eq_true, decide_eq_true_eq]
  omega

theorem minimum_levels (h : ind.type.toUpper = "SUPPORT_RESISTANCE") :
    CandleSupply.minimum ind =
      CandleSupply.orDefault ind.leftBars 15 + CandleSupply.orDefault ind.rightBars 15 + 1 := by
  simp [CandleSupply.minimum, h]

theorem supportResistance_same (htype : ind.type = "SUPPORT_RESISTANCE")
    (hnumbers : NumbersGiven ind) (hi : i < candles.length)
    (hpos : ∀ c ∈ candles, 0 < c.open ∧ 0 < c.high ∧ 0 < c.low ∧ 0 < c.close)
    (hn : CandleSupply.minimum ind ≤ i + 1) (hrules : SameRules candles i ind) :
    (supportResistanceSignals candles ind).map (fun a => a i) = some (verdict other candles i ind) := by
  have hupper : ind.type.toUpper = "SUPPORT_RESISTANCE" := by
    rw [htype]
    decide +kernel
  rw [NumbersGiven, htype] at hnumbers
  rw [SameRules, htype] at hrules
  obtain ⟨⟨left, hleft, hleft0⟩, ⟨right, hright, hright0⟩, ⟨prox, hprox, hprox0⟩,
    ⟨touches, htouches, htouches0⟩, hvolume⟩ := hnumbers
  obtain ⟨lb, rfl⟩ := Int.eq_ofNat_of_zero_le hleft0.le
  obtain ⟨rb, rfl⟩ := Int.eq_ofNat_of_zero_le hright0.le
  obtain ⟨mt, rfl⟩ := Int.eq_ofNat_of_zero_le htouches0.le
  have hleftBars : CandleSupply.orDefault (some (lb : ℤ)) 15 = lb := if_neg hleft0.ne'
  have hrightBars : CandleSupply.orDefault (some (rb : ℤ)) 15 = rb := if_neg hright0.ne'
  have hlong : lb + rb ≤ i := by
    rw [minimum_levels ind hupper, hleft, hright, hleftBars, hrightBars] at hn
    omega
  obtain ⟨res, sup, hseries, hres, hsup, hresPos, hsupPos⟩ := calculateSrSeries_run candles i lb rb mt
    hi (by omega) (by omega) (fun c hc => (hpos c hc).2.1) (fun c hc => (hpos c hc).2.2.1) 0
  have hskip := hrules res sup (by rw [hleft, hright, htouches]; exact hseries)
  rw [hres, hsup, hprox] at hskip
  have hlevel := (levelSignal_eq_iff (textOr ind.condition "price_crossing_down")
    (textOr ind.value "resistance") prox (read (candles.map JsCandle.close) i)
    (read (candles.map JsCandle.close) (i - 1)) _ _ hresPos hsupPos).mpr hskip
  have hcheck := checkSupportResistance_run candles i
    { leftBars := lb
      rightBars := rb
      proximityPct := prox
      condition := textOr ind.condition "price_crossing_down"
      value := textOr ind.value "resistance"
      volumeThreshold := 0
      minTouches := mt } hi (by dsimp only; omega) (by dsimp only; omega)
    (fun c hc => (hpos c hc).2.1) (fun c hc => (hpos c hc).2.2.1) hlong rfl
  have hdispatch : IndicatorEngine.dispatchIndicator other ind (upTo candles i JsCandle.close)
      (some (upTo candles i JsCandle.high)) (some (upTo candles i JsCandle.low)) none =
        .ok (levelHit (textOr ind.condition "price_crossing_down") (textOr ind.value "resistance") prox
          (read (candles.map JsCandle.close) i) (read (candles.map JsCandle.close) (i - 1))
          (resAt candles lb rb mt i) (supAt candles lb rb mt i)) := by
    simp only [IndicatorEngine.dispatchIndicator, hupper, hleft, hright, truthyOr_some _ _ hleft0.ne',
      truthyOr_some _ _ hright0.ne', IndicatorEngine.dispatchSupportResistance,
      upTo_not_missing candles i hi, hprox, htouches, hvolume, truthyOr_some _ _ hprox0.ne',
      truthyOr_some _ _ htouches0.ne', Bool.or_self, Bool.false_eq_true, if_false, Option.getD_some,
      Int.toNat_natCast]
    rw [← hlevel]
    exact hcheck
  have hlines : ChartModule.calcSR candles lb rb 0 mt =
      some ⟨resAt candles lb rb mt, supAt candles lb rb mt⟩ := by
    rw [ChartModule.calcSR, srThrows_false, truthyOr_some _ _ htouches0.ne']
    rfl
  rw [supportResistanceSignals, hleft, hright, htouches, hvolume, truthyOr_some _ _ hleft0.ne',
    truthyOr_some _ _ hright0.ne', truthyOr_some _ _ htouches0.ne', hlines, verdict,
    IndicatorEngine.evaluateIndicator, hdispatch, hprox, Option.map_some, Option.map_some]
  simp only [decide_eq_true (show 1 ≤ i by omega), Bool.true_and]
  rfl

theorem qfl_same (htype : ind.type = "QFL") (hnumbers : NumbersGiven ind) (hi : i < candles.length)
    (hpos : ∀ c ∈ candles, 0 < c.open ∧ 0 < c.high ∧ 0 < c.low ∧ 0 < c.close)
    (hn : CandleSupply.minimum ind ≤ i + 1) (hrules : SameRules candles i ind) :
    qflSignals candles ind i = verdict other candles i ind := by
  have hupper : ind.type.toUpper = "QFL" := by
    rw [htype]
    decide +kernel
  rw [NumbersGiven, htype] at hnumbers
  obtain ⟨⟨base, hbase, hbase0⟩, ⟨pump, hpump, hpump0⟩, ⟨pumpPct, hpct, hpct0⟩, crack, hcrack, hcrack0⟩ :=
    hnumbers
  obtain ⟨bp, rfl⟩ := Int.eq_ofNat_of_zero_le hbase0.le
  obtain ⟨pp, rfl⟩ := Int.eq_ofNat_of_zero_le hpump0.le
  rw [SameRules, htype, hbase] at hrules
  have htwo : (2 : ℤ) ≤ bp := hrules
  have hbars : CandleSupply.orDefault (some (bp : ℤ)) 36 = bp := if_neg hbase0.ne'
  have hlong : bp ≤ i + 1 := by
    simp [CandleSupply.minimum, hupper, hbase, hbars] at hn
    omega
  have hcheck := checkQfl_run candles i
    { basePeriods := bp, pumpPeriods := pp, pumpPct := pumpPct, baseCrackPct := crack } hi
    (by dsimp only; omega) (by dsimp only; omega) (fun c hc => (hpos c hc).2.2.1)
    (textOr ind.condition "below_base") hlong
  have hdispatch : IndicatorEngine.dispatchIndicator other ind (upTo candles i JsCandle.close)
      (some (upTo candles i JsCandle.high)) (some (upTo candles i JsCandle.low)) none =
        Qfl.checkQflSignal (upTo candles i JsCandle.close) (textOr ind.condition "below_base")
          { basePeriods := bp, pumpPeriods := pp, pumpPct := pumpPct, baseCrackPct := crack }
          (some (upTo candles i JsCandle.high)) (some (upTo candles i JsCandle.low)) := by
    simp only [IndicatorEngine.dispatchIndicator, hupper, hbase, hpump, truthyOr_some _ _ hbase0.ne',
      truthyOr_some _ _ hpump0.ne', IndicatorEngine.dispatchQfl, hpct, hcrack,
      truthyOr_some _ _ hpct0.ne', truthyOr_some _ _ hcrack0.ne']
  have hpp : min (pp : ℤ) (bp - 1) = (min pp (bp - 1) : ℕ) := by omega
  refine Eq.trans ?_ (hcheck.symm.trans ?_)
  · rw [qflSignals, ChartModule.calcQFL]
    simp only [hbase, hpump, hpct, hcrack, truthyOr_some _ _ hbase0.ne',
      truthyOr_some _ _ hpump0.ne', truthyOr_some _ _ hpct0.ne', truthyOr_some _ _ hcrack0.ne',
      ofRat_rat, hpp]
    rfl
  · exact (verdict_of_dispatch other candles i ind _ hdispatch).symm

/-- Every indicator a group may hold. -/
theorem indicatorSignals_same (hnumbers : NumbersGiven ind) (hi : i < candles.length)
    (hpos : ∀ c ∈ candles, 0 < c.open ∧ 0 < c.high ∧ 0 < c.low ∧ 0 < c.close)
    (hn : CandleSupply.minimum ind ≤ i + 1) (hrules : SameRules candles i ind) :
    (indicatorSignals sqrt candles ind).map (fun a => a i) = some (verdict other candles i ind) := by
  have htype := hnumbers
  unfold NumbersGiven at htype
  split at htype
  · next h =>
    rw [← supportResistance_same other candles i ind h hnumbers hi hpos hn hrules, indicatorSignals, h]
    rfl
  · next h =>
    rw [← qfl_same other candles i ind h hnumbers hi hpos hn hrules, indicatorSignals, h]
    rfl
  · next h =>
    rw [← parabolicSar_same other candles i ind h hnumbers hi hn, indicatorSignals, h]
    rfl
  · next h =>
    rw [← supertrend_same other candles i ind h hnumbers hi hn hrules, indicatorSignals, h]
    rfl
  · exact htype.elim

end Indicators

/-- What the arrays of a list hold at an index. -/
theorem mapM_at {α : Type} (l : List α) (f : α → Option (ℕ → Bool)) (v : α → Bool) (i : ℕ)
    (h : ∀ x ∈ l, (f x).map (fun a => a i) = some (v x)) :
    ∃ arrays, l.mapM f = some arrays ∧ arrays.map (fun a => a i) = l.map v := by
  induction l with
  | nil => exact ⟨[], rfl, rfl⟩
  | cons x l ih =>
    obtain ⟨arrays, harrays, hat⟩ := ih fun y hy => h y (List.mem_cons_of_mem x hy)
    obtain ⟨a, ha, hax⟩ := Option.map_eq_some_iff.mp (h x List.mem_cons_self)
    refine ⟨a :: arrays, ?_, ?_⟩
    · rw [List.mapM_cons, ha, harrays]
      rfl
    · rw [List.map_cons, List.map_cons, hax, hat]

section Entry

variable (other : Signals) (sqrt : ℚ → ℚ) (cfg : BotConfig) (candles : List (JsCandle ℚ)) (i : ℕ)
  (hcovered : Covered cfg candles i) (hsame : SameVerdict cfg candles i)

include hcovered hsame in
theorem groupSignals_same (g : IndicatorGroup) (hg : g ∈ allGroups cfg.entry) :
    (groupSignals sqrt candles g).map (fun a => a i) =
      some (g.indicators.all (verdict other candles i)) := by
  obtain ⟨arrays, harrays, hat⟩ := mapM_at g.indicators (indicatorSignals sqrt candles)
    (verdict other candles i) i fun ind hind => indicatorSignals_same other sqrt candles i ind
      (hcovered.numbers g hg ind hind) hcovered.index hcovered.positive
      (hcovered.enough g hg ind hind) (hsame.rules g hg ind hind)
  have hall : ∀ l : List (ℕ → Bool), l.all (fun a => a i) = (l.map fun a => a i).all id := by
    intro l
    rw [List.all_map]
    rfl
  rw [groupSignals, harrays, Option.map_some, Option.map_some]
  dsimp only
  rw [hall, hat, List.all_map]
  rfl

include hcovered hsame in
/-- The combined array at the index. -/
theorem combined_same (hne : allGroups cfg.entry ≠ []) :
    (precomputeSignalArrays sqrt candles cfg.entry).map (fun s => s.combined i) =
      some ((allGroups cfg.entry).any fun g => g.indicators.all (verdict other candles i)) := by
  obtain ⟨arrays, harrays, hat⟩ := mapM_at (allGroups cfg.entry) (groupSignals sqrt candles)
    (fun g => g.indicators.all (verdict other candles i)) i fun g hg =>
      groupSignals_same other sqrt cfg candles i hcovered hsame g hg
  have hany : ∀ l : List (ℕ → Bool), l.any (fun a => a i) = (l.map fun a => a i).any id := by
    intro l
    rw [List.any_map]
    rfl
  rw [precomputeSignalArrays, if_neg hne, harrays, Option.map_some, Option.map_some]
  dsimp only
  rw [hany, hat, List.any_map]
  rfl

include hcovered in
/-- The engine finds the candles of every indicator. -/
theorem indicatorOk_same (g : IndicatorGroup) (hg : g ∈ allGroups cfg.entry) (ind : IndicatorConfig)
    (hind : ind ∈ g.indicators) :
    IndicatorEngine.indicatorOk (IndicatorEngine.engineSignals other)
        (cachesUpTo cfg.timeframe candles i) cfg.timeframe ind = verdict other candles i ind := by
  have htf : ind.timeframe.getD cfg.timeframe = cfg.timeframe := by
    cases htf : ind.timeframe with
    | none => rfl
    | some tf => exact hcovered.timeframe g hg ind hind tf htf
  have hlength := upTo_length candles i hcovered.index JsCandle.close
  rw [IndicatorEngine.indicatorOk, htf]
  simp only [cachesUpTo, if_true]
  cases hcloses : upTo candles i JsCandle.close with
  | nil =>
    rw [hcloses] at hlength
    cases hlength
  | cons x xs =>
    rw [verdict, hcloses]
    rfl

/-- The first group that agrees, if there is one. -/
theorem evalGroups_isSome (sig : Signals) (groups : List IndicatorGroup) (c : Candles)
    (tf : Timeframe) (hne : ∀ g ∈ groups, g.indicators ≠ []) :
    (IndicatorEngine.evalGroups sig groups c tf).isSome =
      groups.any fun g => g.indicators.all (IndicatorEngine.indicatorOk sig c tf) := by
  rw [IndicatorEngine.evalGroups, List.isSome_findSome?, Bool.eq_iff_iff, List.any_eq_true,
    List.any_eq_true]
  refine exists_congr fun g => and_congr_right fun hg => ?_
  by_cases hall : g.indicators.all (IndicatorEngine.indicatorOk sig c tf) = true
  · rw [if_pos ⟨hne g hg, hall⟩]
    exact iff_of_true rfl hall
  · rw [if_neg fun h => hall h.2]
    exact iff_of_false Bool.false_ne_true hall

theorem triggered_isSome (trigger : Option GroupTrigger) :
    (match trigger with
      | some trigger => (true, some trigger)
      | none => (false, none)).1 = trigger.isSome := by
  cases trigger <;> rfl

/-- No indicator of a group is named ASAP. -/
theorem type_ne_asap (ind : IndicatorConfig) (h : NumbersGiven ind) : ind.type.toUpper ≠ "ASAP" := by
  unfold NumbersGiven at h
  split at h
  · next htype => rw [htype]; decide +kernel
  · next htype => rw [htype]; decide +kernel
  · next htype => rw [htype]; decide +kernel
  · next htype => rw [htype]; decide +kernel
  · exact h.elim

include hsame in
/-- Where the groups of the browser come from. -/
theorem allGroups_cases :
    (cfg.entry.indicatorGroups = [] ∧ cfg.entry.indicators = [] ∧ allGroups cfg.entry = []) ∨
    (cfg.entry.indicatorGroups = [] ∧ cfg.entry.indicators ≠ [] ∧ allGroups cfg.entry =
      [{ id := 1, name := "Group 1", indicators := cfg.entry.indicators }]) ∨
    (cfg.entry.indicatorGroups ≠ [] ∧ allGroups cfg.entry ≠ [] ∧ allGroups cfg.entry =
      cfg.entry.indicatorGroups.filter fun g => g.indicators ≠ []) := by
  unfold allGroups
  rcases hsame.groups with hnone | ⟨g, hg, hne⟩
  · rw [hnone]
    by_cases hflat : cfg.entry.indicators = []
    · exact .inl ⟨rfl, hflat, by simp [hflat]⟩
    · exact .inr (.inl ⟨rfl, hflat, by simp [hflat]⟩)
  · have hfilter : (cfg.entry.indicatorGroups.filter fun g => g.indicators ≠ []) ≠ [] :=
      List.ne_nil_of_mem (List.mem_filter.mpr ⟨hg, decide_eq_true hne⟩)
    rw [if_pos hfilter]
    exact .inr (.inr ⟨List.ne_nil_of_mem hg, hfilter, rfl⟩)

include hcovered hsame in
theorem no_asap (ind : IndicatorConfig) (hind : ind ∈ IndicatorEngine.allIndicators cfg.entry) :
    ind.type.toUpper ≠ "ASAP" := by
  rcases List.mem_append.mp hind with hflat | hgroups
  · exact hsame.asap ind hflat
  · obtain ⟨g, hg, hindg⟩ := List.mem_flatMap.mp hgroups
    rcases allGroups_cases cfg candles i hsame with ⟨hnone, -⟩ | ⟨hnone, -⟩ | ⟨-, -, hall⟩
    · rw [hnone] at hg
      cases hg
    · rw [hnone] at hg
      cases hg
    · refine type_ne_asap ind (hcovered.numbers g ?_ ind hindg)
      rw [hall]
      exact List.mem_filter.mpr ⟨hg, decide_eq_true (List.ne_nil_of_mem hindg)⟩

include hcovered hsame in
/-- The groups the engine evaluates hold the indicators of the browser's. -/
theorem checkEntrySignal_same (hne : allGroups cfg.entry ≠ []) :
    (IndicatorEngine.checkEntrySignal cfg (IndicatorEngine.engineSignals other)
        (cachesUpTo cfg.timeframe candles i)).1 =
      (allGroups cfg.entry).any fun g => g.indicators.all (verdict other candles i) := by
  have hasap : ¬ ((IndicatorEngine.allIndicators cfg.entry).any fun i => i.type.toUpper = "ASAP") =
      true := by
    rw [List.any_eq_true]
    rintro ⟨ind, hind, heq⟩
    exact no_asap cfg candles i hcovered hsame ind hind (of_decide_eq_true heq)
  have hok : ∀ (g : IndicatorGroup) (l : List IndicatorConfig), g ∈ allGroups cfg.entry →
      g.indicators = l → l.all (IndicatorEngine.indicatorOk (IndicatorEngine.engineSignals other)
        (cachesUpTo cfg.timeframe candles i) cfg.timeframe) = l.all (verdict other candles i) := by
    rintro g l hg rfl
    rw [Bool.eq_iff_iff, List.all_eq_true, List.all_eq_true]
    exact forall₂_congr fun ind hind => by
      rw [indicatorOk_same other cfg candles i hcovered g hg ind hind]
  rcases allGroups_cases cfg candles i hsame with ⟨-, -, hall⟩ | ⟨hnone, hflat, hall⟩ | ⟨hsome, -, hall⟩
  · exact absurd hall hne
  · have hinds : ¬ (IndicatorEngine.allIndicators cfg.entry = [] ∧ cfg.entry.indicatorGroups = []) :=
      fun h => hflat (List.append_eq_nil_iff.mp h.1).1
    rw [IndicatorEngine.checkEntrySignal, if_neg hinds, if_neg hasap,
      if_neg (not_not_intro hnone), if_pos hflat]
    refine (triggered_isSome _).trans ?_
    rw [evalGroups_isSome _ _ _ _ (by simpa using hflat), hall]
    simp only [List.any_cons, List.any_nil, Bool.or_false]
    exact hok _ _ (by rw [hall]; exact List.mem_singleton_self _) rfl
  · have hinds : ¬ (IndicatorEngine.allIndicators cfg.entry = [] ∧ cfg.entry.indicatorGroups = []) :=
      fun h => hsome h.2
    rw [IndicatorEngine.checkEntrySignal, if_neg hinds, if_neg hasap, if_pos hsome]
    refine (triggered_isSome _).trans ?_
    rw [evalGroups_isSome _ _ _ _ (fun g hg => of_decide_eq_true (List.mem_filter.mp hg).2),
      ← hall, Bool.eq_iff_iff, List.any_eq_true, List.any_eq_true]
    exact exists_congr fun g => and_congr_right fun hg => by rw [hok g g.indicators hg rfl]

/-- The combined array is the verdict of the engine where nothing is read differently. -/
theorem entry_signals_agree (hcovered : Covered cfg candles i) (hsame : SameVerdict cfg candles i) :
    (precomputeSignalArrays sqrt candles cfg.entry).map (fun s => s.combined i) =
      some (IndicatorEngine.checkEntrySignal cfg (IndicatorEngine.engineSignals other)
        (cachesUpTo cfg.timeframe candles i)).1 := by
  rcases allGroups_cases cfg candles i hsame with ⟨hnone, hflat, hall⟩ | hrest
  · have hinds : IndicatorEngine.allIndicators cfg.entry = [] := by
      rw [IndicatorEngine.allIndicators, hnone, hflat]
      rfl
    rw [precomputeSignalArrays, if_pos hall, IndicatorEngine.checkEntrySignal,
      if_pos ⟨hinds, hnone⟩, Option.map_some]
  · have hne : allGroups cfg.entry ≠ [] := by
      rcases hrest with ⟨-, -, hall⟩ | ⟨-, hne, -⟩
      · rw [hall]
        exact List.cons_ne_nil _ _
      · exact hne
    rw [combined_same other sqrt cfg candles i hcovered hsame hne,
      checkEntrySignal_same other cfg candles i hcovered hsame hne]

end Entry

/-! ### A level of one side only -/

theorem one_touch : ∀ t ∈ (some 1 : Option ℤ), 1 ≤ t := by
  rintro t ⟨⟩
  exact le_rfl

/-- Support and resistance from the bar on either side. -/
def besideBar (condition : String) : IndicatorConfig :=
  { IndicatorConfig.ofType "SUPPORT_RESISTANCE" none with
    condition := some condition
    leftBars := some 1
    rightBars := some 1
    proximityPct := some 1
    minTouches := some 1
    minTouches_ge := one_touch }

/-- A bot with one indicator in one group. -/
def holding (ind : IndicatorConfig) : BotConfig :=
  { BotConfig.small "small" with
    entry := { indicatorGroups := [{ id := 1, name := "Levels", indicators := [ind] }] } }

/-- The second low is a pivot, no high is. -/
def risingHighs : List (JsCandle ℚ) :=
  [⟨0, 550, 600, 500, 550, 1⟩, ⟨60, 550, 700, 400, 600, 1⟩, ⟨120, 600, 800, 401, 402, 1⟩]

theorem mem_holding (ind other : IndicatorConfig) (g : IndicatorGroup)
    (hg : g ∈ allGroups (holding ind).entry) (hother : other ∈ g.indicators) : other = ind := by
  have hone : allGroups (holding ind).entry = [{ id := 1, name := "Levels", indicators := [ind] }] :=
    rfl
  rw [hone, List.mem_singleton] at hg
  rw [hg, List.mem_singleton] at hother
  exact hother

theorem besideBar_covered (condition : String) :
    Covered (holding (besideBar condition)) risingHighs 2 where
  index := by decide
  positive := by decide +kernel
  numbers := by
    intro g hg ind hind
    rw [mem_holding _ ind g hg hind]
    exact ⟨⟨1, rfl, by decide⟩, ⟨1, rfl, by decide⟩, ⟨1, rfl, by decide +kernel⟩, ⟨1, rfl, by decide⟩, rfl⟩
  timeframe := by
    intro g hg ind hind tf htf
    rw [mem_holding _ ind g hg hind] at htf
    cases htf
  enough := by
    intro g hg ind hind
    have hupper : (besideBar condition).type.toUpper = "SUPPORT_RESISTANCE" := by
      have htype : (besideBar condition).type = "SUPPORT_RESISTANCE" := rfl
      rw [htype]
      decide +kernel
    rw [mem_holding _ ind g hg hind, minimum_levels _ hupper]
    exact le_rfl

/-- The close is near the support, and the browser asks for a resistance. -/
theorem near_support_skipped :
    ¬ ∀ (other : Signals) (sqrt : ℚ → ℚ) (cfg : BotConfig) (candles : List (JsCandle ℚ)) (i : ℕ),
      Covered cfg candles i →
        (precomputeSignalArrays sqrt candles cfg.entry).map (fun s => s.combined i) =
          some (IndicatorEngine.checkEntrySignal cfg (IndicatorEngine.engineSignals other)
            (cachesUpTo cfg.timeframe candles i)).1 := by
  intro h
  have hsame := h Signals.silent id (holding (besideBar "near_support")) risingHighs 2
    (besideBar_covered "near_support")
  revert hsame
  decide +kernel

/-- The close is above the support alone. -/
theorem entry_signals_agree_beside :
    (precomputeSignalArrays id risingHighs (holding (besideBar "price_greater_than")).entry).map
        (fun s => s.combined 2) =
      some (IndicatorEngine.checkEntrySignal (holding (besideBar "price_greater_than"))
        (IndicatorEngine.engineSignals Signals.silent)
        (cachesUpTo (holding (besideBar "price_greater_than")).timeframe risingHighs 2)).1 := by
  refine entry_signals_agree Signals.silent id (holding (besideBar "price_greater_than")) risingHighs 2
    (besideBar_covered "price_greater_than") ⟨.inr ⟨_, List.mem_singleton_self _, List.cons_ne_nil _ _⟩,
      fun ind hind => absurd hind (List.not_mem_nil), fun g hg ind hind => ?_⟩
  rw [mem_holding _ ind g hg hind]
  rintro res sup - (⟨-, -, level, -, ⟨hcond, -⟩ | ⟨hcond, -⟩⟩ | ⟨hvalue, -⟩)
  · exact absurd hcond (by decide)
  · exact absurd hcond (by decide)
  · exact absurd hvalue (by decide)

end EntryAgreement

end Reverto
