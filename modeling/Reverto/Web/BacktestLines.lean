import Mathlib.Tactic
import Reverto.Backtest.BacktestEngine
import Reverto.Lib.WeightedMean
import Reverto.Web.RevertoBacktest

/-!
# The lines of the two backtests (web/static/app.js, backtest/backtest_engine.py)

The ladder of fills both engines build for a deal, and the prices at which each of them
takes profit, stops and fills the next order. The browser measures take profit and stop
loss from the entry as a share of it, the server as the inverse contract has it, so the
lines of the two never meet.
-/

namespace Reverto

open Script

/-- The Python model reads the same bot block; a key that is left out has its default. -/
structure BrowserConfig.Loads (config : BrowserConfig) (cfg : BotConfig) : Prop where
  tpEnabled : cfg.takeProfit.enabled = config.tpEnabled.getD true
  tpTargetPct : cfg.takeProfit.targetPct = config.tpTargetPct.getD 3
  tpPriceEnabled : cfg.takeProfit.priceEnabled = config.tpPriceEnabled.getD true
  tpIndicatorGroups : cfg.takeProfit.indicatorGroups = config.tpIndicatorGroups
  slType : cfg.stopLoss.type = config.slType.getD .fixed
  slPct : cfg.stopLoss.pct = config.slPct.getD 5
  dcaEnabled : cfg.dca.enabled = config.dcaEnabled.getD true
  baseOrderSize : config.baseOrderSize = some cfg.dca.baseOrderSize
  maxOrders : cfg.dca.maxOrders = config.maxOrders.getD 5
  orderSpacingPct : cfg.dca.orderSpacingPct = config.orderSpacingPct.getD (5 / 2)
  stepScale : cfg.dca.stepScale = config.stepScale.getD 1
  multiplier : cfg.dca.multiplier = config.multiplier.getD 1
  takerFee : cfg.dca.takerFee = config.takerFee.getD (6 / 10000)
  leverageEnabled : cfg.leverage.enabled = config.leverageEnabled.getD false
  leverageSize : cfg.leverage.size = config.leverageSize.getD 1
  entry : cfg.entry = config.entry
  noFilter : config.entryFilter = none

/-- No indicator stands in the entry block or under the take profit. -/
structure BotConfig.NoIndicators (cfg : BotConfig) : Prop where
  entry : IndicatorEngine.allIndicators cfg.entry = []
  takeProfit : ∀ g ∈ cfg.takeProfit.indicatorGroups, g.indicators = []

/-- The candle as the browser gets it; the volume is read by indicators only. -/
def BacktestCandle.toJs (c : BacktestCandle) : JsCandle ℚ :=
  ⟨c.timestamp / 1000, c.open, c.high, c.low, c.close, 0⟩

/-- What a deal did, without the triggers. -/
def BacktestEvent.toBrowser : BacktestEvent → BrowserEvent ℚ
  | .opened price size _ => .opened price size
  | .dcaFilled price size => .dcaFilled price size
  | .closed price reason _ => .closed price reason

namespace BacktestAgreement

variable (config : BrowserConfig) (cfg : BotConfig)

/-! ### The ladder of the deal both open -/

/-- The fills of a deal, price and size, and the peak its stop trails. -/
structure Ladder where
  orders : List (ℚ × ℚ)
  peak : ℚ

namespace Ladder

/-- The average entry. -/
def average (l : Ladder) : ℚ := WeightedMean.mean Prod.fst Prod.snd l.orders

/-- The peak after a candle. -/
def peakAfter (l : Ladder) (c : BacktestCandle) : ℚ :=
  max (if l.peak = 0 then c.open else l.peak) c.high

/-- The price the stop is measured from, `none` without a stop. -/
def reference (l : Ladder) (c : BacktestCandle) : Option ℚ :=
  match cfg.stopLoss.type with
  | .none => none
  | .trailing => some (l.peakAfter c)
  | .fixed => some l.average

/-- The candle reaches neither the take-profit line of the browser nor the stop line of
the server, which are the nearer ones. -/
def Inside (l : Ladder) (c : BacktestCandle) : Prop :=
  (cfg.takeProfit.enabled = true → cfg.takeProfit.priceEnabled = true →
      c.high < l.average * (1 + cfg.takeProfit.targetPct / 100)) ∧
    ∀ ref ∈ l.reference cfg c, ref / (1 + cfg.stopLoss.pct / 100) < c.low

/-- The close is at the line of the next order or below. -/
def due (l : Ladder) (c : BacktestCandle) : Bool :=
  match l.orders.getLast? with
  | none => false
  | some last => decide (c.close ≤ last.1 *
      (1 - cfg.dca.orderSpacingPct * cfg.dca.stepScale ^ (l.orders.length - 1) / 100))

/-- The ladder has room for the next order, and it is due. -/
def fires (l : Ladder) (c : BacktestCandle) : Bool :=
  cfg.dca.enabled && decide (l.orders.length < cfg.dca.maxOrders) && l.due cfg c

/-- The size of the next order. -/
def nextSize (l : Ladder) : ℚ :=
  cfg.dca.baseOrderSize * cfg.dca.multiplier ^ (l.orders.length - 1)

/-- The ladder after a candle that closes nothing and fills an order of the given size. -/
def step (l : Ladder) (c : BacktestCandle) (fill : Option ℚ) : Ladder where
  orders := l.orders ++ fill.toList.map fun size => (c.close, size)
  peak := if cfg.stopLoss.type = .trailing then l.peakAfter c else l.peak

/-- The ladder after a candle that closes nothing. -/
def next (l : Ladder) (c : BacktestCandle) : Ladder :=
  l.step cfg c (if l.fires cfg c then some (l.nextSize cfg) else none)

/-- The ladder of a deal opened on a candle. -/
def opened (c : BacktestCandle) : Ladder := ⟨[(c.close, cfg.dca.baseOrderSize)], 0⟩

end Ladder

/-- The candles stay inside the lines of the ladder, and each order they fill has a size of
at most eight decimals and a `max_orders` the bot block gives. -/
def Rests : List BacktestCandle → Ladder → Prop
  | [], _ => True
  | c :: cs, l =>
    l.Inside cfg c ∧
      (l.fires cfg c = true → config.maxOrders.isSome = true ∧ Decimal.HasDecimals 8 (l.nextSize cfg)) ∧
      Rests cs (l.next cfg c)

/-! ### Lines and fills -/

/-- What an engine does first at a candle that meets an open deal: take profit at its line,
stop at its line, or fill an order. -/
def verdict (tpOn : Bool) (tpLine : ℚ) (slLine fill : Option ℚ) (c : BacktestCandle) :
    Option (BrowserEvent ℚ) :=
  if tpOn = true ∧ tpLine ≤ c.high then some (.closed tpLine .tp)
  else
    match slLine.filter fun line => decide (c.low ≤ line) with
    | some line => some (.closed line .sl)
    | none => fill.map (.dcaFilled c.close)

/-- The price take-profit is on. -/
def tpOn : Bool := cfg.takeProfit.enabled && cfg.takeProfit.priceEnabled

/-- The take-profit line of the browser. -/
def browserTp (l : Ladder) : ℚ := l.average * (1 + cfg.takeProfit.targetPct / 100)

/-- The take-profit line of the server. -/
def serverTp (l : Ladder) : ℚ := l.average / (1 - cfg.takeProfit.targetPct / 100)

/-- The stop line of the browser. -/
def browserSl (l : Ladder) (c : BacktestCandle) : Option ℚ :=
  (l.reference cfg c).map fun ref => ref * (1 - truthyOr config.slPct 5 / 100)

/-- The stop line of the server. -/
def serverSl (l : Ladder) (c : BacktestCandle) : Option ℚ :=
  (l.reference cfg c).map fun ref => ref / (1 + cfg.stopLoss.pct / 100)

/-- The fill of the browser. -/
def browserFill (l : Ladder) (c : BacktestCandle) : Option ℚ :=
  if l.fires cfg c && config.maxOrders.isSome then some (l.nextSize cfg) else none

/-- The fill of the server. -/
def serverFill (l : Ladder) (c : BacktestCandle) : Option ℚ :=
  if l.fires cfg c then some (Decimal.roundTo 8 (l.nextSize cfg)) else none

/-- Neither line is reached. -/
def Passes (tpOn : Bool) (tpLine : ℚ) (slLine : Option ℚ) (c : BacktestCandle) : Prop :=
  ¬ (tpOn = true ∧ tpLine ≤ c.high) ∧ ∀ line ∈ slLine, line < c.low

theorem verdict_tp (tpOn : Bool) (tpLine : ℚ) (slLine fill : Option ℚ) (c : BacktestCandle)
    (h : tpOn = true ∧ tpLine ≤ c.high) :
    verdict tpOn tpLine slLine fill c = some (.closed tpLine .tp) := if_pos h

theorem verdict_sl (tpOn : Bool) (tpLine line : ℚ) (fill : Option ℚ) (c : BacktestCandle)
    (h : ¬ (tpOn = true ∧ tpLine ≤ c.high)) (hline : c.low ≤ line) :
    verdict tpOn tpLine (some line) fill c = some (.closed line .sl) := by
  rw [verdict, if_neg h]
  simp [Option.filter, hline]

theorem verdict_passes (tpOn : Bool) (tpLine : ℚ) (slLine fill : Option ℚ) (c : BacktestCandle)
    (h : Passes tpOn tpLine slLine c) :
    verdict tpOn tpLine slLine fill c = fill.map (.dcaFilled c.close) := by
  rw [verdict, if_neg h.1]
  cases slLine with
  | none => rfl
  | some line =>
    have hline := not_le.mpr (h.2 line rfl)
    simp [Option.filter, hline]

theorem verdict_closes (tpOn : Bool) (tpLine : ℚ) (slLine fill : Option ℚ) (c : BacktestCandle)
    (h : ¬ Passes tpOn tpLine slLine c) : (verdict tpOn tpLine slLine fill c).isSome = true := by
  by_cases htp : tpOn = true ∧ tpLine ≤ c.high
  · rw [verdict_tp _ _ _ _ _ htp]
    rfl
  · cases slLine with
    | none => exact absurd ⟨htp, by simp⟩ h
    | some line =>
      by_cases hline : c.low ≤ line
      · rw [verdict_sl _ _ _ _ _ htp hline]
        rfl
      · refine absurd ⟨htp, ?_⟩ h
        rintro _ ⟨rfl⟩
        exact not_le.mp hline

/-- A ladder of positive prices and sizes. -/
structure Ladder.Sound (l : Ladder) : Prop where
  orders_ne : l.orders ≠ []
  orders_pos : ∀ o ∈ l.orders, 0 < o.1 ∧ 0 < o.2
  peak_nonneg : 0 ≤ l.peak

theorem Ladder.Sound.length_pos {l : Ladder} (h : l.Sound) : 0 < l.orders.length :=
  List.length_pos_of_ne_nil h.orders_ne

/-- How the engines ask for room on the ladder. -/
theorem room_eq (l : Ladder) (h : l.Sound) (m : ℕ) :
    decide (l.orders.length < m) =
      (!decide (m ≤ 1) && !decide (m - 1 ≤ l.orders.length - 1)) := by
  have hlength := h.length_pos
  rw [Bool.eq_iff_iff]
  simp only [decide_eq_true_eq, Bool.and_eq_true, Bool.not_eq_true', decide_eq_false_iff_not]
  omega

theorem Ladder.Sound.average_pos {l : Ladder} (h : l.Sound) : 0 < l.average := by
  have hsize : 0 < WeightedMean.total Prod.snd l.orders := by
    refine List.sum_pos _ (fun x hx => ?_) (by simpa using h.orders_ne)
    obtain ⟨o, ho, rfl⟩ := List.mem_map.mp hx
    exact (h.orders_pos o ho).2
  have hvalue : 0 < (l.orders.map fun o => o.1 * o.2).sum := by
    refine List.sum_pos _ (fun x hx => ?_) (by simpa using h.orders_ne)
    obtain ⟨o, ho, rfl⟩ := List.mem_map.mp hx
    exact mul_pos (h.orders_pos o ho).1 (h.orders_pos o ho).2
  exact div_pos hvalue hsize

/-- The browser takes profit earlier. -/
theorem browserTp_lt (l : Ladder) (h : l.Sound) (ht : cfg.takeProfit.targetPct < 100) :
    browserTp cfg l < serverTp cfg l := by
  have havg := h.average_pos
  have hpos : 0 < cfg.takeProfit.targetPct / 100 := div_pos cfg.takeProfit.targetPct_pos (by norm_num)
  have hlt : cfg.takeProfit.targetPct / 100 < 1 := (div_lt_one (by norm_num)).mpr ht
  rw [browserTp, serverTp, lt_div_iff₀ (by linarith), mul_assoc]
  refine mul_lt_of_lt_one_right havg ?_
  nlinarith

/-- The server stops earlier. -/
theorem browserSl_lt (hconfig : config.Loads cfg) (ref : ℚ) (href : 0 < ref) :
    ref * (1 - truthyOr config.slPct 5 / 100) < ref / (1 + cfg.stopLoss.pct / 100) := by
  have hnonneg : 0 ≤ cfg.stopLoss.pct / 100 := div_nonneg cfg.stopLoss.pct_nonneg (by norm_num)
  rw [lt_div_iff₀ (by linarith), mul_assoc]
  refine mul_lt_of_lt_one_right href ?_
  have hpct := hconfig.slPct
  cases hsl : config.slPct with
  | none =>
    rw [hsl] at hpct
    simp only [truthyOr, hpct, Option.getD_none]
    norm_num
  | some q =>
    rw [hsl, Option.getD_some] at hpct
    by_cases hzero : q = 0
    · simp only [truthyOr, hzero, if_true, hpct]
      norm_num
    · have hpos : 0 < q / 100 := by
        rw [hpct] at hnonneg
        exact lt_of_le_of_ne hnonneg (div_ne_zero hzero (by norm_num)).symm
      rw [truthyOr_some q 5 hzero, hpct]
      nlinarith

theorem reference_pos (l : Ladder) (c : BacktestCandle) (h : l.Sound) (hlow : 0 < c.low)
    (hhigh : c.low ≤ c.high) (ref : ℚ) (href : ref ∈ l.reference cfg c) : 0 < ref := by
  unfold Ladder.reference at href
  cases hsl : cfg.stopLoss.type with
  | none => simp [hsl] at href
  | fixed =>
    obtain rfl : l.average = ref := by simpa [hsl] using href
    exact h.average_pos
  | trailing =>
    obtain rfl : l.peakAfter c = ref := by simpa [hsl] using href
    exact lt_of_lt_of_le (hlow.trans_le hhigh) (le_max_right _ _)

/-- A candle inside the lines passes both engines by. -/
theorem passes_of_inside (hconfig : config.Loads cfg) (l : Ladder) (c : BacktestCandle) (h : l.Sound)
    (hlow : 0 < c.low) (hhigh : c.low ≤ c.high) (ht : cfg.takeProfit.targetPct < 100)
    (hinside : l.Inside cfg c) :
    Passes (tpOn cfg) (browserTp cfg l) (browserSl config cfg l c) c ∧
      Passes (tpOn cfg) (serverTp cfg l) (serverSl cfg l c) c := by
  have htp := browserTp_lt cfg l h ht
  have hbelow : tpOn cfg = true → c.high < browserTp cfg l := by
    intro hon
    obtain ⟨henabled, hprice⟩ := Bool.and_eq_true_iff.mp hon
    exact hinside.1 henabled hprice
  refine ⟨⟨fun hit => ?_, fun line hline => ?_⟩, ⟨fun hit => ?_, fun line hline => ?_⟩⟩
  · exact absurd hit.2 (not_le.mpr (hbelow hit.1))
  · obtain ⟨ref, href, rfl⟩ := Option.map_eq_some_iff.mp hline
    have hlt := browserSl_lt config cfg hconfig ref (reference_pos cfg l c h hlow hhigh ref href)
    exact hlt.trans (hinside.2 ref href)
  · exact absurd hit.2 (not_le.mpr ((hbelow hit.1).trans htp))
  · obtain ⟨ref, href, rfl⟩ := Option.map_eq_some_iff.mp hline
    exact hinside.2 ref href

/-- Engines that do the same first at a candle passed it by and filled the same. -/
theorem inside_of_verdict (hconfig : config.Loads cfg) (l : Ladder) (c : BacktestCandle)
    (h : l.Sound) (hlow : 0 < c.low) (hhigh : c.low ≤ c.high) (ht : cfg.takeProfit.targetPct < 100)
    (fill fill' : Option ℚ)
    (hsame : verdict (tpOn cfg) (browserTp cfg l) (browserSl config cfg l c) fill c =
      verdict (tpOn cfg) (serverTp cfg l) (serverSl cfg l c) fill' c) :
    l.Inside cfg c ∧ fill = fill' := by
  have htp := browserTp_lt cfg l h ht
  have hmiss : ¬ (tpOn cfg = true ∧ browserTp cfg l ≤ c.high) := by
    intro hit
    rw [verdict_tp _ _ _ _ _ hit] at hsame
    by_cases hserver : tpOn cfg = true ∧ serverTp cfg l ≤ c.high
    · rw [verdict_tp _ _ _ _ _ hserver] at hsame
      injection hsame with hsame
      injection hsame with hline
      exact absurd hline htp.ne
    · rw [verdict, if_neg hserver] at hsame
      split at hsame
      · cases hsame
      · cases fill' <;> cases hsame
  have hmiss' : ¬ (tpOn cfg = true ∧ serverTp cfg l ≤ c.high) :=
    fun hit => hmiss ⟨hit.1, htp.le.trans hit.2⟩
  have hstop : ∀ ref ∈ l.reference cfg c, ref / (1 + cfg.stopLoss.pct / 100) < c.low := by
    intro ref href
    by_contra hreached
    have hlt := browserSl_lt config cfg hconfig ref (reference_pos cfg l c h hlow hhigh ref href)
    have hserver : serverSl cfg l c = some (ref / (1 + cfg.stopLoss.pct / 100)) := by
      rw [serverSl, href]
      rfl
    have hbrowser : browserSl config cfg l c =
        some (ref * (1 - truthyOr config.slPct 5 / 100)) := by
      rw [browserSl, href]
      rfl
    rw [hserver, hbrowser, verdict_sl _ _ _ _ _ hmiss' (not_lt.mp hreached), verdict,
      if_neg hmiss] at hsame
    split at hsame
    · rename_i line hline
      have hsome := Option.filter_eq_some_iff.mp hline
      injection hsame with hsame
      injection hsame with hsame
      injection hsome.1 with hsome
      rw [← hsome] at hsame
      exact absurd hsame hlt.ne
    · cases fill <;> cases hsame
  have hinside : l.Inside cfg c := by
    refine ⟨fun henabled hprice => ?_, hstop⟩
    by_contra hreached
    exact hmiss ⟨by rw [tpOn, henabled, hprice]; rfl, not_lt.mp hreached⟩
  obtain ⟨hpass, hpass'⟩ := passes_of_inside config cfg hconfig l c h hlow hhigh ht hinside
  rw [verdict_passes _ _ _ _ _ hpass, verdict_passes _ _ _ _ _ hpass'] at hsame
  refine ⟨hinside, Option.map_injective (fun x y hxy => ?_) hsame⟩
  injection hxy

/-- The fills are the same exactly when the order has eight decimals and both know how many
orders there may be. -/
theorem browserFill_eq_iff (l : Ladder) (c : BacktestCandle) :
    browserFill config cfg l c = serverFill cfg l c ↔
      (l.fires cfg c = true →
        config.maxOrders.isSome = true ∧ Decimal.HasDecimals 8 (l.nextSize cfg)) := by
  rw [browserFill, serverFill]
  cases hfires : l.fires cfg c with
  | false => simp
  | true =>
    cases hmax : config.maxOrders with
    | none => simp
    | some m =>
      simp only [Option.isSome_some, Bool.and_self, if_true, Option.some.injEq, true_and,
        forall_const]
      rw [eq_comm]
      exact Decimal.roundTo_eq_self_iff 8 (l.nextSize cfg)

/-! ### The step of the ladder -/

/-- The candles of a list are positive, with the close and the low inside the bar. -/
def SoundBars (cs : List BacktestCandle) : Prop :=
  ∀ c ∈ cs, 0 < c.low ∧ c.low ≤ c.close ∧ c.close ≤ c.high

theorem Ladder.Sound.step {l : Ladder} (h : l.Sound) (c : BacktestCandle) (hlow : 0 < c.low)
    (hclose : c.low ≤ c.close) (hhigh : c.close ≤ c.high) (fill : Option ℚ)
    (hfill : ∀ size ∈ fill, 0 < size) : (l.step cfg c fill).Sound where
  orders_ne := by
    intro hnil
    exact h.orders_ne (List.append_eq_nil_iff.mp hnil).1
  orders_pos := by
    intro o ho
    rcases List.mem_append.mp ho with ho | ho
    · exact h.orders_pos o ho
    · obtain ⟨size, hsize, rfl⟩ := List.mem_map.mp ho
      exact ⟨hlow.trans_le hclose, hfill size (Option.mem_toList.mp hsize)⟩
  peak_nonneg := by
    show 0 ≤ (if cfg.stopLoss.type = .trailing then l.peakAfter c else l.peak)
    split
    · exact le_max_of_le_right ((hlow.le.trans hclose).trans hhigh)
    · exact h.peak_nonneg

theorem Ladder.nextSize_pos (l : Ladder) : 0 < l.nextSize cfg :=
  mul_pos cfg.dca.baseOrderSize_pos (pow_pos cfg.dca.multiplier_pos _)

theorem Ladder.Sound.next {l : Ladder} (h : l.Sound) (c : BacktestCandle) (hlow : 0 < c.low)
    (hclose : c.low ≤ c.close) (hhigh : c.close ≤ c.high) : (l.next cfg c).Sound := by
  refine h.step cfg c hlow hclose hhigh _ fun size hsize => ?_
  split at hsize
  · rw [← Option.some.inj hsize]
    exact l.nextSize_pos cfg
  · cases hsize

/-- Where the fills agree both ladders take the step of the rules. -/
theorem next_of_fills (l : Ladder) (c : BacktestCandle)
    (hfill : l.fires cfg c = true →
      config.maxOrders.isSome = true ∧ Decimal.HasDecimals 8 (l.nextSize cfg)) :
    l.step cfg c (browserFill config cfg l c) = l.next cfg c ∧
      l.step cfg c (serverFill cfg l c) = l.next cfg c := by
  have hserver : serverFill cfg l c = if l.fires cfg c then some (l.nextSize cfg) else none := by
    unfold serverFill
    split
    · rename_i hfires
      rw [(Decimal.roundTo_eq_self_iff 8 (l.nextSize cfg)).mpr (hfill hfires).2]
    · rfl
  have hsame := (browserFill_eq_iff config cfg l c).mpr hfill
  rw [hsame, hserver]
  exact ⟨rfl, rfl⟩

end BacktestAgreement

end Reverto
