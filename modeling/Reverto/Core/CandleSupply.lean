import Mathlib.Tactic
import Reverto.Backtest.BacktestEngine
import Reverto.Core.CandleCache

/-!
# Candles for the configured indicators (`required_timeframes` and `_dispatch_indicator`
of strategies/indicator_engine.py, `_fetch_closes_if_needed` of core/trading_engine.py)

The timeframes and the number of candles the engine fetches, against those the
groups it evaluates ask for.
-/

namespace Reverto

namespace CandleSupply

open CandleCache

/-! ### What an indicator asks for -/

/-- `value or fallback` -/
def orDefault (value : Option ℤ) (fallback : ℤ) : ℤ :=
  match value with
  | none => fallback
  | some n => if n = 0 then fallback else n

/-- The length guards of `check_rsi_signal` and `calculate_rsi`. -/
def rsiMinimum (period : ℤ) (threshold : String) : ℤ :=
  if threshold = "rsi_bullish_divergence" ∨ threshold = "rsi_bearish_divergence" then period + 5 + 1
  else if threshold = "rsi_cross_above_50" ∨ threshold = "rsi_cross_below_50" ∨
      threshold.startsWith "cross_" = true then period + 2
  else period + 1

/-- The length guard of the check `_dispatch_indicator` sends an indicator to; a type it does
not know has none. -/
def minimum (ind : IndicatorConfig) : ℤ :=
  let itype := ind.type.toUpper
  if itype = "RSI" then rsiMinimum (orDefault ind.period 14) (ind.threshold.getD "below_35")
  else if itype = "MACD" then 26 * 3
  else if itype = "BOLLINGER" then orDefault ind.period 20
  else if itype = "PARABOLIC_SAR" then 10
  else if itype = "SUPERTREND" then max (orDefault ind.atrPeriod 10 + 1) 2
  else if itype = "MARKET_STRUCTURE" then orDefault ind.lookback 3 * 10
  else if itype = "SUPPORT_RESISTANCE" then
    orDefault ind.leftBars 15 + orDefault ind.rightBars 15 + 1
  else if itype = "QFL" then orDefault ind.basePeriods 36
  else 0

/-- `indicator.timeframe or bot_timeframe` -/
def timeframeOf (cfg : BotConfig) (ind : IndicatorConfig) : Timeframe :=
  ind.timeframe.getD cfg.timeframe

/-- `groups_to_eval` of `check_entry_signal`; an ASAP indicator bypasses them. -/
def entryGroups (cfg : BotConfig) : List IndicatorGroup :=
  if (IndicatorEngine.allIndicators cfg.entry).any fun i => i.type.toUpper = "ASAP" then []
  else if cfg.entry.indicatorGroups ≠ [] then
    cfg.entry.indicatorGroups.filter fun g => g.indicators ≠ []
  else if cfg.entry.indicators ≠ [] then
    [{ id := 1, name := "Default", indicators := cfg.entry.indicators }]
  else []

/-- The indicators of the groups `_eval_groups` is given for an entry or a take profit. -/
def evaluated (cfg : BotConfig) : List IndicatorConfig :=
  (entryGroups cfg ++ cfg.takeProfit.indicatorGroups).flatMap IndicatorGroup.indicators

/-! ### What the engine fetches -/

/-- The opening time of the candle `100 - i` before the forming one. -/
def openingOf (tf : Timeframe) (now : ℚ) (i : ℕ) : ℚ :=
  ((⌊now / candleSeconds tf⌋ - 100 + i : ℤ) : ℚ) * candleSeconds tf * 1000

/-- An exchange with unlimited history: every call is answered with the last 101 candles,
the forming one included. -/
def Unlimited (source : OhlcvSource) : Prop :=
  ∀ now tf, ∃ candles, source now tf = .ok candles ∧
    candles.map OhlcvCandle.timestamp = (List.range 101).map (openingOf tf now)

/-- The completed candles of such an answer: on a boundary the last one does not count. -/
def window (tf : Timeframe) (now : ℚ) : ℕ :=
  if Int.fract (now / candleSeconds tf) = 0 then 99 else 100

/-- The ticks at which a timeframe is fetched, each an interval after the one before. -/
def dueTimes (tf : Timeframe) (ticks : List ℚ) : List ℚ :=
  match tfSeconds tf with
  | none => []
  | some interval => RenewalTimes.timesFrom interval id 0 ticks

/-- Every timeframe a group is evaluated on is fetched, every fetched timeframe has a known
duration, and after every tick each indicator has a series as long as its own minimum. -/
structure Supplied (cfg : BotConfig) (source : OhlcvSource) (ticks : List ℚ) : Prop where
  covers : ∀ ind ∈ evaluated cfg, timeframeOf cfg ind ∈ BacktestEngine.requiredTimeframes cfg
  known : ∀ tf ∈ BacktestEngine.requiredTimeframes cfg, (tfSeconds tf).isSome
  served : ∀ earlier now, earlier ++ [now] <+: ticks → ∀ ind ∈ evaluated cfg, ∃ series,
    (fetches source (BacktestEngine.requiredTimeframes cfg) (earlier ++ [now])
        (timeframeOf cfg ind)).series = some series ∧ minimum ind ≤ series.length

/-- Take-profit groups name no timeframe of their own, entry indicators none of those without
a duration, and no minimum exceeds the window of the last fetch. -/
structure Enough (cfg : BotConfig) (ticks : List ℚ) : Prop where
  takeProfit : ∀ group ∈ cfg.takeProfit.indicatorGroups, ∀ ind ∈ group.indicators,
    ∀ tf ∈ ind.timeframe, tf = cfg.timeframe ∨
      ∃ other ∈ IndicatorEngine.allIndicators cfg.entry, other.timeframe = some tf
  entry : ∀ ind ∈ IndicatorEngine.allIndicators cfg.entry, ∀ tf ∈ ind.timeframe,
    tf ≠ .m30 ∧ tf ≠ .h2 ∧ tf ≠ .h12
  lengths : ∀ earlier now, earlier ++ [now] <+: ticks → ∀ ind ∈ evaluated cfg, ∃ fetch,
    (dueTimes (timeframeOf cfg ind) (earlier ++ [now])).getLast? = some fetch ∧
      minimum ind ≤ window (timeframeOf cfg ind) fetch

/-! ### The window of an answer -/

theorem candleSeconds_pos (tf : Timeframe) : 0 < candleSeconds tf := by
  cases tf <;> norm_num [candleSeconds]

theorem completed_iff (tf : Timeframe) (now : ℚ) (i : ℕ) :
    openingOf tf now i + candleSeconds tf * 1000 < now * 1000 ↔ i < window tf now := by
  have hpos := candleSeconds_pos tf
  have hnow : now = (⌊now / candleSeconds tf⌋ + Int.fract (now / candleSeconds tf)) *
      candleSeconds tf := by
    rw [Int.floor_add_fract, div_mul_cancel₀ now hpos.ne']
  have hiff : openingOf tf now i + candleSeconds tf * 1000 < now * 1000 ↔
      (i : ℚ) - 99 < Int.fract (now / candleSeconds tf) := by
    have hdiff : now * 1000 - (openingOf tf now i + candleSeconds tf * 1000) =
        (Int.fract (now / candleSeconds tf) - ((i : ℚ) - 99)) * (candleSeconds tf * 1000) := by
      rw [openingOf]
      push_cast
      linear_combination 1000 * hnow
    rw [← sub_pos, hdiff, mul_pos_iff_of_pos_right (by linarith), sub_pos]
  have hnonneg := Int.fract_nonneg (now / candleSeconds tf)
  have hlt := Int.fract_lt_one (now / candleSeconds tf)
  rw [hiff, window]
  by_cases hboundary : Int.fract (now / candleSeconds tf) = 0
  · rw [if_pos hboundary, hboundary, sub_neg]
    exact_mod_cast Iff.rfl
  · rw [if_neg hboundary]
    have hfract : 0 < Int.fract (now / candleSeconds tf) := lt_of_le_of_ne hnonneg (Ne.symm hboundary)
    constructor
    · intro h
      have hi : (i : ℚ) < 100 := by linarith
      exact_mod_cast hi
    · intro h
      have hi : (i : ℚ) ≤ 99 := by exact_mod_cast Nat.le_of_lt_succ h
      linarith

theorem range_below (w : ℕ) (h : w = 99 ∨ w = 100) :
    ((List.range 101).filter fun i => decide (i < w)).length = w := by
  rcases h with rfl | rfl
  · decide
  · decide

theorem window_cases (tf : Timeframe) (now : ℚ) : window tf now = 99 ∨ window tf now = 100 := by
  rw [window]
  split
  · exact Or.inl rfl
  · exact Or.inr rfl

theorem window_length (tf : Timeframe) (interval now : ℚ) (hinterval : tfSeconds tf = some interval)
    (candles : List OhlcvCandle)
    (hopenings : candles.map OhlcvCandle.timestamp = (List.range 101).map (openingOf tf now)) :
    (completedOf interval now candles).length = window tf now := by
  have hfilter : (completedOf interval now candles).length =
      (((List.range 101).map (openingOf tf now)).filter fun t =>
        decide (t + candleSeconds tf * 1000 < now * 1000)).length := by
    rw [← hopenings, List.filter_map, List.length_map, completedOf,
      tfSeconds_eq tf interval hinterval]
    rfl
  have hcongr : ((List.range 101).filter
      ((fun t => decide (t + candleSeconds tf * 1000 < now * 1000)) ∘ openingOf tf now)) =
        (List.range 101).filter fun i => decide (i < window tf now) :=
    List.filter_congr fun i _ => by
      simp only [Function.comp_apply, completed_iff]
  rw [hfilter, List.filter_map, List.length_map, hcongr]
  exact range_below _ (window_cases tf now)

/-! ### The series after a run -/

theorem fetch_unlimited (source : OhlcvSource) (hsource : Unlimited source) (tf : Timeframe)
    (interval now : ℚ) (hinterval : tfSeconds tf = some interval) (cache : TfCache)
    (hdue : ¬ now - cache.fetchedAt < interval) :
    (fetchTimeframe (source now tf) now tf cache).fetchedAt = now ∧
      (fetchTimeframe (source now tf) now tf cache).series.map List.length =
        some (window tf now) := by
  obtain ⟨candles, hok, hopenings⟩ := hsource now tf
  have hlength := window_length tf interval now hinterval candles hopenings
  have hne : completedOf interval now candles ≠ [] := by
    intro hnil
    rw [hnil, List.length_nil] at hlength
    have hcases := window_cases tf now
    omega
  rw [fetchTimeframe, hinterval, hok]
  simp only [if_neg hdue, if_neg hne, Option.map_some, hlength, and_self]

theorem fetched_length (source : OhlcvSource) (hsource : Unlimited source) (tf : Timeframe)
    (ticks : List ℚ) :
    (fetched source tf ticks).series.map List.length =
      (dueTimes tf ticks).getLast?.map (window tf) := by
  cases hinterval : tfSeconds tf with
  | none =>
    rw [fetched_unknown hinterval, dueTimes, hinterval]
    rfl
  | some interval =>
    have hrun := RenewalTimes.run_invariant interval id
      (fun cache now => fetchTimeframe (source now tf) now tf cache) TfCache.fetchedAt
      (fun _ _ => True)
      (fun last cache => cache.series.map List.length = last.map (window tf))
      (fun cache now hcached =>
        fetchTimeframe_cached (source now tf) now tf interval cache hinterval hcached)
      (fun cache now hdue => (fetch_unlimited source hsource tf interval now hinterval cache hdue).1)
      (fun cache _ now _ hdue _ =>
        (fetch_unlimited source hsource tf interval now hinterval cache hdue).2)
      {} rfl ticks (List.pairwise_of_forall fun _ _ => trivial)
    rw [dueTimes, hinterval]
    exact hrun.2

/-! ### The configuration's timeframes -/

section Config

variable (cfg : BotConfig)

theorem mem_requiredTimeframes (tf : Timeframe) :
    tf ∈ BacktestEngine.requiredTimeframes cfg ↔ tf = cfg.timeframe ∨
      ∃ ind ∈ IndicatorEngine.allIndicators cfg.entry, ind.timeframe = some tf := by
  rw [BacktestEngine.requiredTimeframes, List.mem_cons, List.mem_map]
  constructor
  · intro h
    rcases h with h | ⟨ind, hind, htf⟩
    · exact Or.inl h
    · cases hown : ind.timeframe with
      | none =>
        rw [hown] at htf
        exact Or.inl htf.symm
      | some own =>
        rw [hown] at htf
        obtain rfl : own = tf := htf
        exact Or.inr ⟨ind, hind, hown⟩
  · intro h
    rcases h with h | ⟨ind, hind, htf⟩
    · exact Or.inl h
    · refine Or.inr ⟨ind, hind, ?_⟩
      rw [htf]
      rfl

theorem allIndicators_of_entryGroups (ind : IndicatorConfig)
    (h : ind ∈ (entryGroups cfg).flatMap IndicatorGroup.indicators) :
    ind ∈ IndicatorEngine.allIndicators cfg.entry := by
  obtain ⟨group, hgroup, hind⟩ := List.mem_flatMap.mp h
  rw [IndicatorEngine.allIndicators, List.mem_append]
  rw [entryGroups] at hgroup
  split at hgroup
  · cases hgroup
  · split at hgroup
    · exact Or.inr (List.mem_flatMap.mpr ⟨group, (List.mem_filter.mp hgroup).1, hind⟩)
    · split at hgroup
      · rw [List.mem_singleton.mp hgroup] at hind
        exact Or.inl hind
      · cases hgroup

theorem covers_iff :
    (∀ ind ∈ evaluated cfg, timeframeOf cfg ind ∈ BacktestEngine.requiredTimeframes cfg) ↔
      ∀ group ∈ cfg.takeProfit.indicatorGroups, ∀ ind ∈ group.indicators,
        ∀ tf ∈ ind.timeframe, tf = cfg.timeframe ∨
          ∃ other ∈ IndicatorEngine.allIndicators cfg.entry, other.timeframe = some tf := by
  constructor
  · intro h group hgroup ind hind tf htf
    have hevaluated : ind ∈ evaluated cfg :=
      List.mem_flatMap.mpr ⟨group, List.mem_append_right _ hgroup, hind⟩
    have hrequired := h ind hevaluated
    rw [timeframeOf, htf, Option.getD_some, mem_requiredTimeframes] at hrequired
    exact hrequired
  · intro h ind hind
    rw [timeframeOf, mem_requiredTimeframes]
    rw [evaluated, List.flatMap_append, List.mem_append] at hind
    cases hown : ind.timeframe with
    | none => exact Or.inl rfl
    | some tf =>
      rw [Option.getD_some]
      rcases hind with hentry | htp
      · exact Or.inr ⟨ind, allIndicators_of_entryGroups cfg ind hentry, hown⟩
      · obtain ⟨group, hgroup, hin⟩ := List.mem_flatMap.mp htp
        exact h group hgroup ind hin tf hown

theorem tfSeconds_isSome (tf : Timeframe) :
    (tfSeconds tf).isSome ↔ tf ≠ .m30 ∧ tf ≠ .h2 ∧ tf ≠ .h12 := by
  cases tf <;> decide

theorem known_iff :
    (∀ tf ∈ BacktestEngine.requiredTimeframes cfg, (tfSeconds tf).isSome) ↔
      ∀ ind ∈ IndicatorEngine.allIndicators cfg.entry, ∀ tf ∈ ind.timeframe,
        tf ≠ .m30 ∧ tf ≠ .h2 ∧ tf ≠ .h12 := by
  constructor
  · intro h ind hind tf htf
    rw [← tfSeconds_isSome]
    exact h tf ((mem_requiredTimeframes cfg tf).mpr (Or.inr ⟨ind, hind, htf⟩))
  · intro h tf htf
    rw [tfSeconds_isSome]
    rcases (mem_requiredTimeframes cfg tf).mp htf with rfl | ⟨ind, hind, hown⟩
    · rcases cfg.timeframe_engine with hbot | hbot | hbot | hbot
      all_goals
        rw [hbot]
        decide
    · exact h ind hind tf hown

theorem served_iff (source : OhlcvSource) (hsource : Unlimited source) (ticks : List ℚ)
    (hcovers : ∀ ind ∈ evaluated cfg,
      timeframeOf cfg ind ∈ BacktestEngine.requiredTimeframes cfg) (ind : IndicatorConfig)
    (hind : ind ∈ evaluated cfg) :
    (∃ series, (fetches source (BacktestEngine.requiredTimeframes cfg) ticks
        (timeframeOf cfg ind)).series = some series ∧ minimum ind ≤ series.length) ↔
      ∃ fetch, (dueTimes (timeframeOf cfg ind) ticks).getLast? = some fetch ∧
        minimum ind ≤ window (timeframeOf cfg ind) fetch := by
  have hlength := fetched_length source hsource (timeframeOf cfg ind) ticks
  rw [fetches_required source _ _ (hcovers ind hind)]
  constructor
  · intro ⟨series, hseries, hmin⟩
    rw [hseries, Option.map_some] at hlength
    obtain ⟨fetch, hfetch, hwindow⟩ := Option.map_eq_some_iff.mp hlength.symm
    refine ⟨fetch, hfetch, ?_⟩
    rw [hwindow]
    exact hmin
  · intro ⟨fetch, hfetch, hmin⟩
    rw [hfetch, Option.map_some] at hlength
    obtain ⟨series, hseries, hwindow⟩ := Option.map_eq_some_iff.mp hlength
    refine ⟨series, hseries, ?_⟩
    rw [hwindow]
    exact hmin

end Config

/-- The engine's candles suffice for a configuration exactly when its take-profit groups name no
timeframe of their own, its entry indicators none without a duration, and no minimum exceeds
the window of the last fetch. -/
theorem supplied_iff (cfg : BotConfig) (source : OhlcvSource) (hsource : Unlimited source)
    (ticks : List ℚ) : Supplied cfg source ticks ↔ Enough cfg ticks := by
  constructor
  · intro h
    refine ⟨(covers_iff cfg).mp h.covers, (known_iff cfg).mp h.known,
      fun earlier now hpre ind hind => ?_⟩
    exact (served_iff cfg source hsource _ h.covers ind hind).mp (h.served earlier now hpre ind hind)
  · intro h
    have hcovers := (covers_iff cfg).mpr h.takeProfit
    refine ⟨hcovers, (known_iff cfg).mpr h.entry, fun earlier now hpre ind hind => ?_⟩
    exact (served_iff cfg source hsource _ hcovers ind hind).mpr (h.lengths earlier now hpre ind hind)

/-- An exchange with unlimited history on which every price is 100. -/
def flatExchange : OhlcvSource := fun now tf =>
  .ok ((List.range 101).map fun i => ⟨openingOf tf now i, 100, 100, 100⟩)

theorem unlimited_flatExchange : Unlimited flatExchange := by
  intro now tf
  refine ⟨_, rfl, ?_⟩
  rw [List.map_map]
  rfl

/-- An hourly bot with a take-profit group on four-hourly candles. -/
def fourHourlyTakeProfit : BotConfig :=
  { BotConfig.small "tp" with
    takeProfit := .floored 1 (by norm_num) [{ indicators := [.ofType "RSI" (some .h4)] }] }

theorem supplied_iff_fourHourly :
    Supplied fourHourlyTakeProfit flatExchange [1700000000] ↔
      Enough fourHourlyTakeProfit [1700000000] :=
  supplied_iff fourHourlyTakeProfit flatExchange unlimited_flatExchange [1700000000]

/-- The four-hourly candles are never fetched. -/
theorem not_supplied_fourHourly :
    ¬ ∀ (cfg : BotConfig) (source : OhlcvSource) (ticks : List ℚ), Unlimited source →
      Supplied cfg source ticks := by
  intro h
  have hsupplied := h fourHourlyTakeProfit flatExchange [1700000000] unlimited_flatExchange
  have hcovers := hsupplied.covers (.ofType "RSI" (some .h4)) (by decide +kernel)
  revert hcovers
  decide +kernel

end CandleSupply

end Reverto
