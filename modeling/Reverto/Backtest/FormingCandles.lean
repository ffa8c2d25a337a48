import Mathlib.Tactic
import Reverto.Backtest.LookAhead

/-!
# A candle that is still forming (backtest/backtest_engine.py)

Where a candle of a longer timeframe can still be forming, a bot exists whose
backtest opens a deal for one final close of it and none for another. So the
backtest looks ahead at every such driving candle past the warm-up, and at no
other.
-/

namespace Reverto

namespace BacktestEngine

variable (cfg : BotConfig) (sig : Signals) (env : BacktestEnv)

/-! ### A backtest without an open deal -/

/-- What `_check_entry` asks of the windows. -/
def Enters (w : OhlcWindow) : Prop :=
  w.candles.closesPerTf cfg.timeframe ≠ [] ∧
    (IndicatorEngine.checkEntrySignal cfg (sig.withOpens w.opensPerTf cfg.timeframe)
      w.candles).1 = true

theorem processCandle_flat (i : ℕ) (w : OhlcWindow) (candle : BacktestCandle) (s : BacktestState)
    (hflat : s.state.openDeals.items = []) :
    processCandle cfg sig env i w candle s = checkEntry cfg sig (env.newDealId i) w candle s := by
  rw [processCandle, Program.get_bind_run, hflat, List.map_nil, Program.forEach, Program.pure_bind]

theorem checkEntry_quiet (dealId : String) (w : OhlcWindow) (candle : BacktestCandle)
    (s : BacktestState) (h : ¬ Enters cfg sig w) :
    checkEntry cfg sig dealId w candle s = ⟨.ok (), [], s⟩ := by
  rw [checkEntry, Program.get_bind_run]
  by_cases hc : s.state.openDeals.items = [] ∧ w.candles.closesPerTf cfg.timeframe ≠ []
  · rw [if_pos hc]
    cases hs : IndicatorEngine.checkEntrySignal cfg (sig.withOpens w.opensPerTf cfg.timeframe)
        w.candles with
    | mk fired trigger =>
      cases fired with
      | false => rfl
      | true => exact absurd ⟨hc.2, by rw [hs]⟩ h
  · rw [if_neg hc]
    rfl

theorem checkEntry_opens (dealId : String) (w : OhlcWindow) (candle : BacktestCandle)
    (s : BacktestState) (hflat : s.state.openDeals.items = []) (h : Enters cfg sig w) :
    (checkEntry cfg sig dealId w candle s).log ≠ [] := by
  rw [checkEntry, Program.get_bind_run, if_pos ⟨hflat, h.1⟩]
  have hfired := h.2
  cases hs : IndicatorEngine.checkEntrySignal cfg (sig.withOpens w.opensPerTf cfg.timeframe)
      w.candles with
  | mk fired trigger =>
    rw [hs] at hfired
    obtain rfl : fired = true := hfired
    simp [openDeal, chargeFee, Program.bind_run]

theorem candleStep_skipped (data : CandlesPerTf) (p : BacktestCandle × ℕ) (s : BacktestState)
    (hp : p.2 < warmup) : candleStep cfg sig env data p s = ⟨.ok (), [], s⟩ := by
  rw [candleStep, if_pos hp]
  rfl

/-- A candle that enters nothing: the pointers move and the candle is counted. -/
theorem candleStep_quiet (data : CandlesPerTf) (p : BacktestCandle × ℕ) (s : BacktestState)
    (hp : warmup ≤ p.2) (hflat : s.state.openDeals.items = [])
    (h : ¬ Enters cfg sig (windowsAt data (advanceAll data p.1.timestamp s.tfPointers))) :
    (candleStep cfg sig env data p s).log = [] ∧
      (candleStep cfg sig env data p s).result = .ok () ∧
      (candleStep cfg sig env data p s).state.state = s.state := by
  rw [candleStep_run cfg sig env data p s hp]
  have hprocess := processCandle_flat cfg sig env p.2
    (windowsAt data (advanceAll data p.1.timestamp s.tfPointers)) p.1
    { s with tfPointers := advanceAll data p.1.timestamp s.tfPointers } hflat
  rw [checkEntry_quiet cfg sig _ _ _ _ h] at hprocess
  rw [Program.bind_ok _ _ _ () (by rw [hprocess]), hprocess]
  exact ⟨rfl, rfl, rfl⟩

theorem candleStep_opens (data : CandlesPerTf) (p : BacktestCandle × ℕ) (s : BacktestState)
    (hp : warmup ≤ p.2) (hflat : s.state.openDeals.items = [])
    (h : Enters cfg sig (windowsAt data (advanceAll data p.1.timestamp s.tfPointers))) :
    (candleStep cfg sig env data p s).log ≠ [] := by
  have hprocess := processCandle_flat cfg sig env p.2
    (windowsAt data (advanceAll data p.1.timestamp s.tfPointers)) p.1
    { s with tfPointers := advanceAll data p.1.timestamp s.tfPointers } hflat
  have hlog := checkEntry_opens cfg sig (env.newDealId p.2)
    (windowsAt data (advanceAll data p.1.timestamp s.tfPointers)) p.1
    { s with tfPointers := advanceAll data p.1.timestamp s.tfPointers } hflat h
  rw [← hprocess] at hlog
  rw [candleStep_run cfg sig env data p s hp]
  intro hnil
  refine hlog ?_
  cases hresult : (processCandle cfg sig env p.2
      (windowsAt data (advanceAll data p.1.timestamp s.tfPointers)) p.1
      { s with tfPointers := advanceAll data p.1.timestamp s.tfPointers }).result with
  | error e =>
    rw [Program.bind_error _ _ _ e hresult] at hnil
    exact hnil
  | ok a =>
    rw [Program.bind_ok _ _ _ a hresult] at hnil
    exact (List.append_eq_nil_iff.mp hnil).1

/-- A step of a flat backtest that has no event leaves it flat. -/
theorem candleStep_flat (data : CandlesPerTf) (p : BacktestCandle × ℕ) (s : BacktestState)
    (hflat : s.state.openDeals.items = []) (hlog : (candleStep cfg sig env data p s).log = []) :
    (candleStep cfg sig env data p s).result = .ok () ∧
      (candleStep cfg sig env data p s).state.state = s.state := by
  by_cases hp : warmup ≤ p.2
  · have hquiet : ¬ Enters cfg sig
        (windowsAt data (advanceAll data p.1.timestamp s.tfPointers)) := by
      intro h
      exact candleStep_opens cfg sig env data p s hp hflat h hlog
    exact (candleStep_quiet cfg sig env data p s hp hflat hquiet).2
  · rw [candleStep_skipped cfg sig env data p s (not_le.mp hp)]
    exact ⟨rfl, rfl⟩

/-! ### Two data sets that a bot tells apart -/

/-- A backtest whose windows never enter has no event. -/
theorem forEach_quiet (data : CandlesPerTf)
    (h : ∀ tfPointers, ¬ Enters cfg sig (windowsAt data tfPointers))
    (l : List (BacktestCandle × ℕ)) (s : BacktestState) (hflat : s.state.openDeals.items = []) :
    (Program.forEach (candleStep cfg sig env data) l s).log = [] := by
  induction l generalizing s with
  | nil => rfl
  | cons p l ih =>
    have hstep : (candleStep cfg sig env data p s).log = [] := by
      by_cases hp : warmup ≤ p.2
      · exact (candleStep_quiet cfg sig env data p s hp hflat (h _)).1
      · rw [candleStep_skipped cfg sig env data p s (not_le.mp hp)]
    obtain ⟨hresult, hstate⟩ := candleStep_flat cfg sig env data p s hflat hstep
    have hrest := ih (candleStep cfg sig env data p s).state (by rw [hstate]; exact hflat)
    rw [Program.forEach, Program.bind_ok _ _ _ () hresult, hstep, hrest]
    rfl

/-- A backtest has an event once a candle's windows enter. -/
theorem forEach_enters (data : CandlesPerTf) (hdata : Ordered data)
    (l : List (BacktestCandle × ℕ)) (p : BacktestCandle × ℕ) (s : BacktestState)
    (hl : Timeline.Increasing (fun p : BacktestCandle × ℕ => p.1.timestamp) (l ++ [p]))
    (hpassed : ∀ q ∈ l ++ [p], Passed data q.1.timestamp s.tfPointers)
    (hflat : s.state.openDeals.items = []) (hp : warmup ≤ p.2)
    (h : Enters cfg sig (fullWindow (before p.1.timestamp data))) :
    (Program.forEach (candleStep cfg sig env data) (l ++ [p]) s).log ≠ [] := by
  induction l generalizing s with
  | nil =>
    have hwindow := windowsAt_advanceAll data (chronological_of_ordered data hdata)
      p.1.timestamp s.tfPointers (hpassed p (by simp))
    rw [← hwindow] at h
    have hlog := candleStep_opens cfg sig env data p s hp hflat h
    rw [List.nil_append, Program.forEach]
    intro hnil
    cases hresult : (candleStep cfg sig env data p s).result with
    | error e => exact hlog (by rwa [Program.bind_error _ _ _ e hresult] at hnil)
    | ok a =>
      rw [Program.bind_ok _ _ _ a hresult] at hnil
      exact hlog (List.append_eq_nil_iff.mp hnil).1
  | cons q l ih =>
    rw [List.cons_append] at hl hpassed
    obtain ⟨hhead, htail⟩ := List.pairwise_cons.mp hl
    rw [List.cons_append, Program.forEach]
    intro hnil
    cases hlog : (candleStep cfg sig env data q s).log with
    | cons e es =>
      cases hresult : (candleStep cfg sig env data q s).result with
      | error e' => simp [Program.bind_error _ _ _ e' hresult, hlog] at hnil
      | ok a => simp [Program.bind_ok _ _ _ a hresult, hlog] at hnil
    | nil =>
      obtain ⟨hresult, hstate⟩ := candleStep_flat cfg sig env data q s hflat hlog
      rw [Program.bind_ok _ _ _ () hresult, hlog, List.nil_append] at hnil
      refine ih (candleStep cfg sig env data q s).state htail (fun r hr => ?_)
        (by rw [hstate]; exact hflat) hnil
      have hq := hpassed q List.mem_cons_self
      exact passed_candleStep cfg sig env data (chronological_of_ordered data hdata) q s
        r.1.timestamp hq (hhead r hr).le

/-- The backtest through the candle at index `i` has an event once that candle's
windows enter. -/
theorem eventsThrough_enters (data : CandlesPerTf) (hdata : Ordered data) (b : ℚ) (i : ℕ)
    (c : BacktestCandle) (haccepts : accepts cfg data = true)
    (hc : (drivingCandles cfg data)[i]? = some c) (hi : warmup ≤ i)
    (h : Enters cfg sig (fullWindow (before c.timestamp data))) :
    eventsThrough cfg sig env data b i ≠ [] := by
  have htake : (drivingCandles cfg data).zipIdx.take (i + 1) =
      (drivingCandles cfg data).zipIdx.take i ++ [(c, i)] := by
    rw [List.take_add_one, List.getElem?_zipIdx, hc]
    simp
  have hl : Timeline.Increasing (fun p : BacktestCandle × ℕ => p.1.timestamp)
      ((drivingCandles cfg data).zipIdx.take (i + 1)) :=
    (pairwise_zipIdx _ _ (drivingCandles_increasing cfg data hdata)).sublist (List.take_sublist _ _)
  rw [htake] at hl
  rw [eventsThrough, if_pos haccepts, htake]
  exact forEach_enters cfg sig env data hdata _ (c, i) (init b) hl
    (fun q _ => passed_init data b _) rfl hi h

/-! ### A bot that waits for a close -/

/-- A bot that enters on one indicator of the given timeframe. -/
def oneIndicator (driving tf : Timeframe)
    (h : driving = .m15 ∨ driving = .h1 ∨ driving = .h4 ∨ driving = .d1) : BotConfig :=
  { BotConfig.small "one indicator" with
    timeframe := driving
    timeframe_engine := h
    entry := ⟨[], [⟨1, "entry", [IndicatorConfig.ofType "EMA" (some tf)]⟩]⟩ }

/-- An indicator that fires on one series of closes. -/
def firesOn (target : List ℚ) : Signals :=
  ⟨fun _ _ => .ok false, fun _ closes _ _ _ => decide (closes = target)⟩

theorem enters_oneIndicator (driving tf : Timeframe)
    (h : driving = .m15 ∨ driving = .h1 ∨ driving = .h4 ∨ driving = .d1) (target : List ℚ)
    (htarget : target ≠ []) (w : OhlcWindow) :
    Enters (oneIndicator driving tf h) (firesOn target) w ↔
      w.candles.closesPerTf driving ≠ [] ∧ w.candles.closesPerTf tf = target := by
  have hasap : ¬ "EMA".toUpper = "ASAP" := by decide +kernel
  have hok : IndicatorEngine.indicatorOk
      ((firesOn target).withOpens w.opensPerTf driving) w.candles driving
      (IndicatorConfig.ofType "EMA" (some tf)) = decide (w.candles.closesPerTf tf = target) := by
    simp only [IndicatorEngine.indicatorOk, IndicatorConfig.ofType, Option.getD_some]
    cases w.candles.closesPerTf tf with
    | nil => simp [htarget.symm]
    | cons x xs => rfl
  have htype : (IndicatorConfig.ofType "EMA" (some tf)).type = "EMA" := rfl
  have hentry : (IndicatorEngine.checkEntrySignal (oneIndicator driving tf h)
      ((firesOn target).withOpens w.opensPerTf driving) w.candles).1 =
        decide (w.candles.closesPerTf tf = target) := by
    by_cases hc : w.candles.closesPerTf tf = target
    · simp [IndicatorEngine.checkEntrySignal, IndicatorEngine.allIndicators, oneIndicator,
        IndicatorEngine.evalGroups, hok, hc, htype, hasap]
    · simp [IndicatorEngine.checkEntrySignal, IndicatorEngine.allIndicators, oneIndicator,
        IndicatorEngine.evalGroups, hok, hc, htype, hasap]
  have hdriving : (oneIndicator driving tf h).timeframe = driving := rfl
  simp only [Enters, hdriving, hentry, decide_eq_true_eq]

/-! ### The other data set -/

variable {opensAt : Timeframe → ℤ → Prop} (driving : Timeframe)

/-- The candles that have closed, and one that forms at the given price. -/
def formingAt (T t : ℤ) (tf : Timeframe) (price : ℚ) (cs : List BacktestCandle) :
    List BacktestCandle :=
  closedBy T tf cs ++ [⟨t, price, price, price, price⟩]

theorem increasing_formingAt (T t : ℤ) (tf : Timeframe) (price : ℚ) (cs : List BacktestCandle)
    (hcs : Timeline.Increasing BacktestCandle.timestamp cs) (ht : T < t + tf.intervalMs) :
    Timeline.Increasing BacktestCandle.timestamp (formingAt T t tf price cs) := by
  refine List.pairwise_append.mpr ⟨hcs.sublist List.filter_sublist, List.pairwise_singleton _ _, ?_⟩
  intro a ha b hb
  obtain rfl : b = ⟨t, price, price, price, price⟩ := by simpa using hb
  have hclosed : a.timestamp + tf.intervalMs ≤ T := by simpa using (List.mem_filter.mp ha).2
  show a.timestamp < t
  omega

theorem closedBy_formingAt (T t : ℤ) (tf : Timeframe) (price : ℚ) (cs : List BacktestCandle)
    (ht : T < t + tf.intervalMs) : closedBy T tf (formingAt T t tf price cs) = closedBy T tf cs := by
  have hopen : ¬ t + tf.intervalMs ≤ T := not_le.mpr ht
  simp [formingAt, closedBy, List.filter_append, List.filter_filter, hopen]

/-- The data set with a candle that forms in one timeframe. -/
def withForming (data : CandleSets opensAt) (tf : Timeframe) (T t : ℤ) (price : ℚ)
    (ht : T < t + tf.intervalMs) (hopens : opensAt tf t) : CandleSets opensAt where
  candlesPerTf := fun tf' =>
    if tf' = tf then (data.candlesPerTf tf).map (formingAt T t tf price) else data.candlesPerTf tf'
  increasing := by
    intro tf' cs hcs
    by_cases htf : tf' = tf
    · subst htf
      rw [if_pos rfl] at hcs
      obtain ⟨ds, hds, rfl⟩ := Option.map_eq_some_iff.mp hcs
      exact increasing_formingAt T t tf' price ds (data.increasing tf' ds hds) ht
    · rw [if_neg htf] at hcs
      exact data.increasing tf' cs hcs
  onGrid := by
    intro tf' cs hcs c hc
    by_cases htf : tf' = tf
    · subst htf
      rw [if_pos rfl] at hcs
      obtain ⟨ds, hds, rfl⟩ := Option.map_eq_some_iff.mp hcs
      rcases List.mem_append.mp hc with hc | hc
      · exact data.onGrid tf' ds hds c (List.mem_filter.mp hc).1
      · obtain rfl : c = ⟨t, price, price, price, price⟩ := by simpa using hc
        exact hopens
    · rw [if_neg htf] at hcs
      exact data.onGrid tf' cs hcs c hc

theorem agreeUpTo_withForming (data : CandleSets opensAt) (tf : Timeframe) (T t : ℤ) (price : ℚ)
    (ht : T < t + tf.intervalMs) (hopens : opensAt tf t) :
    AgreeUpTo T data.candlesPerTf (withForming data tf T t price ht hopens).candlesPerTf := by
  intro tf'
  by_cases htf : tf' = tf
  · subst htf
    simp only [withForming, if_true, Option.map_map]
    cases data.candlesPerTf tf' with
    | none => rfl
    | some cs => simp [closedBy_formingAt T t tf' price cs ht]
  · simp only [withForming, if_neg htf]

/-- A price above every close of a list. -/
theorem exists_above (cs : List BacktestCandle) : ∃ v : ℚ, ∀ c ∈ cs, c.close < v := by
  induction cs with
  | nil => exact ⟨0, by simp⟩
  | cons c cs ih =>
    obtain ⟨v, hv⟩ := ih
    refine ⟨max v (c.close + 1), fun d hd => ?_⟩
    rcases List.mem_cons.mp hd with rfl | hd
    · exact (lt_add_one d.close).trans_le (le_max_right _ _)
    · exact (hv d hd).trans_le (le_max_left _ _)

theorem fullWindow_closes (data : CandlesPerTf) (tf : Timeframe) :
    (fullWindow data).candles.closesPerTf tf = ((data tf).getD []).map BacktestCandle.close := by
  simp only [fullWindow, windowsAt, List.take_length]

/-- No window holds a close above all of its timeframe. -/
theorem not_enters_above (data : CandlesPerTf) (tf : Timeframe) (cs : List BacktestCandle)
    (hcs : data tf = some cs) (v : ℚ) (hv : ∀ c ∈ cs, c.close < v) (closes : List ℚ)
    (hdriving : driving = .m15 ∨ driving = .h1 ∨ driving = .h4 ∨ driving = .d1)
    (tfPointers : Timeframe → ℕ) :
    ¬ Enters (oneIndicator driving tf hdriving) (firesOn (closes ++ [v]))
      (windowsAt data tfPointers) := by
  intro h
  have hcloses := ((enters_oneIndicator driving tf hdriving (closes ++ [v]) (by simp) _).mp h).2
  have hwindow : (windowsAt data tfPointers).candles.closesPerTf tf =
      (cs.take (tfPointers tf)).map BacktestCandle.close := by
    simp only [windowsAt, hcs, Option.getD_some]
  have hmem : v ∈ (cs.take (tfPointers tf)).map BacktestCandle.close := by
    rw [← hwindow, hcloses]
    simp
  obtain ⟨d, hd, hdv⟩ := List.mem_map.mp hmem
  exact absurd hdv (hv d (List.mem_of_mem_take hd)).ne

/-- The forming candle is in the windows of a later driving candle. -/
theorem before_formingAt (T t u : ℤ) (tf : Timeframe) (price : ℚ) (cs : List BacktestCandle)
    (ht : T < t + tf.intervalMs) (htu : t < u) :
    Timeline.before BacktestCandle.timestamp u (formingAt T t tf price cs) =
      formingAt T t tf price cs := by
  refine List.filter_eq_self.mpr fun a ha => ?_
  rw [decide_eq_true_eq]
  rcases List.mem_append.mp ha with ha | ha
  · have hclosed : a.timestamp + tf.intervalMs ≤ T := by simpa using (List.mem_filter.mp ha).2
    omega
  · obtain rfl : a = ⟨t, price, price, price, price⟩ := by simpa using ha
    exact htu

/-- The bot that waits for the closes with the forming one enters on them. -/
theorem enters_forming (data : CandlesPerTf) (hdata : Ordered data) (i : ℕ) (c : BacktestCandle)
    (hdriving : driving = .m15 ∨ driving = .h1 ∨ driving = .h4 ∨ driving = .d1)
    (hc : ((data driving).getD [])[i]? = some c) (hi : 0 < i) (tf : Timeframe) (T t : ℤ) (v : ℚ)
    (cs : List BacktestCandle) (hforming : data tf = some (formingAt T t tf v cs))
    (ht : T < t + tf.intervalMs) (htc : t < c.timestamp) :
    Enters (oneIndicator driving tf hdriving)
      (firesOn ((closedBy T tf cs).map BacktestCandle.close ++ [v]))
      (fullWindow (before c.timestamp data)) := by
  refine (enters_oneIndicator driving tf hdriving _ (by simp) _).mpr ⟨?_, ?_⟩
  · rw [fullWindow_closes]
    cases hds : data driving with
    | none => simp [hds] at hc
    | some ds =>
      rw [hds] at hc
      have hne := Timeline.before_ne_nil BacktestCandle.timestamp ds i c (hdata driving ds hds) hc hi
      simpa [before, hds] using hne
  · rw [fullWindow_closes]
    simp only [before, hforming, Option.map_some, Option.getD_some,
      before_formingAt T t c.timestamp tf v cs ht htc]
    simp [formingAt]

/-- A candle that can still be forming at a driving candle past the warm-up is one
the backtest can see. -/
theorem lookAhead_of_forming (data : CandleSets opensAt) (i : ℕ) (c : BacktestCandle)
    (hdriving : driving = .m15 ∨ driving = .h1 ∨ driving = .h4 ∨ driving = .d1)
    (hc : ((data.candlesPerTf driving).getD [])[i]? = some c) (hi : warmup ≤ i) (tf : Timeframe)
    (hsome : (data.candlesPerTf tf).isSome = true) (t : ℤ) (hopens : opensAt tf t)
    (htc : t < c.timestamp) (ht : c.timestamp + driving.intervalMs < t + tf.intervalMs) :
    ¬ NoLookAhead driving data i c := by
  intro hno
  obtain ⟨cs, hcs⟩ := Option.isSome_iff_exists.mp hsome
  obtain ⟨v, hv⟩ := exists_above cs
  have htf : driving ≠ tf := by
    rintro rfl
    omega
  let T := c.timestamp + driving.intervalMs
  let other := withForming data tf T t v ht hopens
  let cfg := oneIndicator driving tf hdriving
  let sig := firesOn ((closedBy T tf cs).map BacktestCandle.close ++ [v])
  let env : BacktestEnv := ⟨fun _ => "", fun _ => 0⟩
  have hsame := hno cfg sig env 1 other rfl (agreeUpTo_withForming data tf T t v ht hopens)
  have hnone : eventsThrough cfg sig env data.candlesPerTf 1 i = [] := by
    unfold eventsThrough
    split
    · exact forEach_quiet cfg sig env _ (not_enters_above driving _ tf cs hcs v hv _ hdriving)
        _ (init 1) rfl
    · rfl
  have hother : other.candlesPerTf driving = data.candlesPerTf driving := by
    simp only [other, withForming, if_neg htf]
  have hforming : other.candlesPerTf tf = some (formingAt T t tf v cs) := by
    simp only [other, withForming, if_true, hcs, Option.map_some]
  have hc' : (drivingCandles cfg other.candlesPerTf)[i]? = some c := by
    show ((other.candlesPerTf driving).getD [])[i]? = some c
    rw [hother, hc]
  have haccepts : accepts cfg other.candlesPerTf = true := by
    have hrequired : requiredTimeframes cfg = [driving, tf] := rfl
    cases hds : data.candlesPerTf driving with
    | none => simp [hds] at hc
    | some ds => simp [accepts, hrequired, hother, hds, hforming]
  have hi' : 0 < i := lt_of_lt_of_le (by decide) hi
  have henters := enters_forming driving other.candlesPerTf other.increasing i c hdriving hc' hi' tf
    T t v cs hforming ht htc
  exact eventsThrough_enters cfg sig env _ other.increasing 1 i c haccepts hc' hi henters
    (hsame.symm.trans hnone)

/-- During the warm-up nothing is opened. -/
theorem eventsThrough_warmup (data : CandlesPerTf) (b : ℚ) (i : ℕ) (hi : i < warmup) :
    eventsThrough cfg sig env data b i = [] := by
  have hskip : ∀ (l : List (BacktestCandle × ℕ)) (s : BacktestState), (∀ p ∈ l, p.2 < warmup) →
      (Program.forEach (candleStep cfg sig env data) l s).log = [] := by
    intro l
    induction l with
    | nil => exact fun _ _ => rfl
    | cons p l ih =>
      intro s hl
      have hp := candleStep_skipped cfg sig env data p s (hl p List.mem_cons_self)
      have hrest := ih s fun q hq => hl q (List.mem_cons_of_mem p hq)
      rw [Program.forEach, Program.bind_ok _ _ _ () (by rw [hp]), hp, hrest]
      rfl
  unfold eventsThrough
  split
  · refine hskip _ _ fun p hp => ?_
    obtain ⟨j, hj, hpj⟩ := List.getElem_of_mem hp
    have hlt : j < i + 1 := by
      rw [List.length_take] at hj
      omega
    have hp2 : p.2 = j := by
      rw [← hpj, List.getElem_take, List.getElem_zipIdx]
      exact Nat.zero_add j
    omega
  · rfl

/-- A backtest does not look ahead at a driving candle exactly when it is in the
warm-up or no candle can be forming at it. -/
theorem noLookAhead_iff (data : CandleSets opensAt) (i : ℕ) (c : BacktestCandle)
    (hdriving : driving = .m15 ∨ driving = .h1 ∨ driving = .h4 ∨ driving = .d1)
    (hc : ((data.candlesPerTf driving).getD [])[i]? = some c) :
    NoLookAhead driving data i c ↔ i < warmup ∨ NoneForming driving data c := by
  constructor
  · intro h
    by_cases hi : i < warmup
    · exact Or.inl hi
    · right
      intro tf hsome t hopens htc
      by_contra ht
      exact lookAhead_of_forming driving data i c hdriving hc (not_lt.mp hi) tf hsome t hopens htc
        (not_le.mp ht) h
  · rintro (hi | h)
    · intro cfg sig env b data' _ _
      rw [eventsThrough_warmup cfg sig env _ b i hi, eventsThrough_warmup cfg sig env _ b i hi]
    · exact noLookAhead_of_noneForming driving data i c hc h

/-! ### Candles on the clock -/

/-- Candles open at the multiples of their interval. -/
def onTheClock (tf : Timeframe) (t : ℤ) : Prop := tf.intervalMs ∣ t

/-- Candles with the given closes, one after another. -/
def clockCandles (tf : Timeframe) (start : ℤ) (closes : List ℚ) : List BacktestCandle :=
  closes.zipIdx.map fun p => ⟨(start + p.2) * tf.intervalMs, p.1, p.1, p.1, p.1⟩

theorem increasing_clockCandles (tf : Timeframe) (start : ℤ) (closes : List ℚ) :
    Timeline.Increasing BacktestCandle.timestamp (clockCandles tf start closes) := by
  have hpos : 0 < tf.intervalMs := by cases tf <;> decide
  refine List.pairwise_iff_getElem.mpr fun i j hi hj hij => ?_
  simp only [clockCandles, List.getElem_map, List.getElem_zipIdx]
  have hlt : start + ((0 + i : ℕ) : ℤ) < start + ((0 + j : ℕ) : ℤ) := by omega
  exact mul_lt_mul_of_pos_right hlt hpos

/-- Data sets given by the index of the first candle and the closes. -/
def clockData (closesPerTf : Timeframe → Option (ℤ × List ℚ)) : CandleSets onTheClock where
  candlesPerTf := fun tf => (closesPerTf tf).map fun p => clockCandles tf p.1 p.2
  increasing := by
    intro tf cs hcs
    obtain ⟨p, _, rfl⟩ := Option.map_eq_some_iff.mp hcs
    exact increasing_clockCandles tf p.1 p.2
  onGrid := by
    intro tf cs hcs c hc
    obtain ⟨p, _, rfl⟩ := Option.map_eq_some_iff.mp hcs
    obtain ⟨q, _, rfl⟩ := List.mem_map.mp hc
    exact dvd_mul_left _ _

/-- Eighty hourly candles and no other timeframe. -/
def hourlyData : CandleSets onTheClock := clockData fun tf =>
  match tf with
  | .h1 => some (0, List.replicate 80 100)
  | _ => none

theorem noLookAhead_hourly :
    NoLookAhead .h1 hourlyData 79 ⟨79 * 3600000, 100, 100, 100, 100⟩ := by
  refine (noLookAhead_iff .h1 hourlyData 79 _ (Or.inr (Or.inl rfl)) (by decide +kernel)).mpr
    (Or.inr ?_)
  intro tf hsome t _ htc
  cases tf with
  | h1 =>
    simp only [Timeframe.intervalMs] at htc ⊢
    omega
  | m15 => cases hsome
  | m30 => cases hsome
  | h2 => cases hsome
  | h4 => cases hsome
  | h12 => cases hsome
  | d1 => cases hsome

/-- Hourly candles, and four-hourly ones with a swing high at 110 of which the last
opens an hour before the last hourly one. -/
def swingData (last : ℚ) : CandleSets onTheClock := clockData fun tf =>
  match tf with
  | .h1 => some (39, List.replicate 79 100)
  | .h4 => some (0, List.replicate 5 100 ++ [110] ++ List.replicate 23 100 ++ [last])
  | _ => none

/-- A bot that enters when the four-hourly closes break the last swing high. -/
def swingBot : BotConfig :=
  { BotConfig.small "swing" with
    entry := ⟨[], [⟨1, "entry", [IndicatorConfig.ofType "MARKET_STRUCTURE" (some .h4)]⟩]⟩ }

/-- The close at which the four-hourly candle ends hours later opens a deal. -/
theorem lookAhead_swing : ¬ NoLookAhead .h1 (swingData 100) 78 ⟨117 * 3600000, 100, 100, 100, 100⟩ := by
  intro h
  have hagree : AgreeUpTo (117 * 3600000 + Timeframe.h1.intervalMs) (swingData 100).candlesPerTf
      (swingData 120).candlesPerTf := by
    intro tf
    cases tf with
    | h4 => decide +kernel
    | _ => rfl
  have hsame := h swingBot (Signals.withMarketStructure .silent) ⟨fun _ => "deal", fun _ => 0⟩ 1
    (swingData 120) rfl hagree
  have hquiet : eventsThrough swingBot (Signals.withMarketStructure .silent)
      ⟨fun _ => "deal", fun _ => 0⟩ (swingData 100).candlesPerTf 1 78 = [] := by decide +kernel
  have hopens : eventsThrough swingBot (Signals.withMarketStructure .silent)
      ⟨fun _ => "deal", fun _ => 0⟩ (swingData 120).candlesPerTf 1 78 ≠ [] := by decide +kernel
  exact hopens (hsame.symm.trans hquiet)

end BacktestEngine

end Reverto
