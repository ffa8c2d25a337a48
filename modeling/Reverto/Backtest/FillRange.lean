import Mathlib.Tactic
import Reverto.Backtest.Accounts

/-!
# Fill prices and the candle they fill on (backtest/backtest_engine.py)

A deal closes at its take-profit target or at its stop line, whatever prices the
candle has. The fills of a backtest against the range of their candles.
-/

namespace Program

variable {ε ω σ α : Type}

/-- Every round of a loop meets `P` in the state it starts in. -/
def Along (f : α → Program ε ω σ Unit) (P : α → σ → Prop) : List α → σ → Prop
  | [], _ => True
  | a :: l, s => P a s ∧ ((f a s).result = .ok () → Along f P l (f a s).state)

/-- The events of a loop, each beside the round it belongs to. -/
def roundLog (f : α → Program ε ω σ Unit) (l : List α) (s : σ) : List (α × ω) :=
  (forEach (fun a => relabel (fun w => (a, w)) (f a)) l s).log

/-- A property of the events of a loop is one of the events of its rounds. -/
theorem roundLog_forall (f : α → Program ε ω σ Unit) (Q : α → ω → Prop) (l : List α) (s : σ) :
    (∀ e ∈ roundLog f l s, Q e.1 e.2) ↔ Along f (fun a s => ∀ w ∈ (f a s).log, Q a w) l s := by
  induction l generalizing s with
  | nil => exact ⟨fun _ => trivial, fun _ e he => absurd he List.not_mem_nil⟩
  | cons a l ih =>
    have hround : (∀ e ∈ (relabel (fun w => (a, w)) (f a) s).log, Q e.1 e.2) ↔
        ∀ w ∈ (f a s).log, Q a w := by
      simp only [relabel, List.forall_mem_map]
    have hsame : (relabel (fun w => (a, w)) (f a) s).result = (f a s).result := rfl
    rw [roundLog, forEach, Along, ← hround]
    cases hresult : (f a s).result with
    | error e =>
      rw [bind_error _ _ _ e (hsame.trans hresult)]
      simp
    | ok u =>
      rw [bind_ok _ _ _ u (hsame.trans hresult)]
      simp only [List.forall_mem_append, true_imp_iff]
      exact and_congr_right fun _ => ih (f a s).state

/-- Two properties that agree where an invariant of the rounds holds. -/
theorem along_congr (f : α → Program ε ω σ Unit) (P Q : α → σ → Prop) (I : σ → Prop) (l : List α)
    (s : σ) (h : I s) (hstep : ∀ a ∈ l, ∀ s, I s → I (f a s).state)
    (hsame : ∀ a ∈ l, ∀ s, I s → (P a s ↔ Q a s)) : Along f P l s ↔ Along f Q l s := by
  induction l generalizing s with
  | nil => exact Iff.rfl
  | cons a l ih =>
    have hrest := ih (f a s).state (hstep a List.mem_cons_self s h)
      (fun b hb => hstep b (List.mem_cons_of_mem a hb))
      fun b hb => hsame b (List.mem_cons_of_mem a hb)
    exact and_congr (hsame a List.mem_cons_self s h) (imp_congr_right fun _ => hrest)

/-- What follows a program adds no event that a property speaks of. -/
theorem bind_log_forall {β : Type} (Q : ω → Prop) (m : Program ε ω σ α) (f : α → Program ε ω σ β)
    (s : σ) (hf : ∀ a t, ∀ e ∈ (f a t).log, Q e) :
    (∀ e ∈ ((m >>= f) s).log, Q e) ↔ ∀ e ∈ (m s).log, Q e := by
  cases hresult : (m s).result with
  | error e => rw [bind_error m f s e hresult]
  | ok a =>
    rw [bind_ok m f s a hresult]
    simp only [List.forall_mem_append]
    exact and_iff_left (hf a (m s).state)

end Program

namespace Reverto

namespace BacktestEngine

variable (cfg : BotConfig) (sig : Signals) (env : BacktestEnv)

/-- The prices of a candle are in its range. -/
def PricesInOrder (c : BacktestCandle) : Prop :=
  c.low ≤ c.open ∧ c.open ≤ c.high ∧ c.low ≤ c.close ∧ c.close ≤ c.high

instance (c : BacktestCandle) : Decidable (PricesInOrder c) := by
  unfold PricesInOrder
  infer_instance

/-- A close at a price of the candle; other events are free. -/
def FillsIn (c : BacktestCandle) : BacktestEvent → Prop
  | .closed price _ _ => c.low ≤ price ∧ price ≤ c.high
  | _ => True

/-- Every take profit and stop loss of a backtest fills at a price of its candle. What
is left at the end of the data is neither. -/
def FillsInRange (data : CandlesPerTf) (initialBalanceBtc : ℚ) : Prop :=
  ∀ e ∈ Program.roundLog (candleStep cfg sig env data) (drivingCandles cfg data).zipIdx
    (init initialBalanceBtc), FillsIn e.1.1 e.2

/-- The price the stop of a deal refers to, if it has one. -/
def stopReference (d : PaperDeal) (candle : BacktestCandle) : Option ℚ :=
  match cfg.stopLoss.type with
  | .none => none
  | .trailing => some (newPeak d candle)
  | .fixed => some d.avgEntryPrice

/-- The candle lies beyond the line of the deal that it triggers: above the target of
a price take profit, or below the line of a stop. -/
def GapsPast (w : OhlcWindow) (candle : BacktestCandle) (d : PaperDeal) : Prop :=
  match computeTpTargetPrice d.avgEntryPrice cfg.takeProfit.targetPct d.side with
  | .error _ => False
  | .ok target =>
    if (cfg.takeProfit.enabled && cfg.takeProfit.priceEnabled && decide (target ≤ candle.high))
        = true then
      target < candle.low
    else if cfg.takeProfit.enabled = true ∧
        IndicatorEngine.checkTpIndicatorGroups cfg sig w.candles ≠ none then False
    else ∃ reference line, stopReference cfg d candle = some reference ∧
      computeSlTargetPrice reference cfg.stopLoss.pct d.side = .ok line ∧
      candle.low ≤ line ∧ candle.high < line

/-- No candle gaps past the line of a deal that is open when it is processed. -/
def NoGap (data : CandlesPerTf) (p : BacktestCandle × ℕ) (s : BacktestState) : Prop :=
  warmup ≤ p.2 → ∀ d ∈ s.state.openDeals.items,
    ¬ GapsPast cfg sig (windowsAt data (advanceAll data p.1.timestamp s.tfPointers)) p.1 d

theorem closeDeal_log (now : Instant) (dealId : String) (d : PaperDeal) (price : ℚ)
    (reason : CloseReason) (trigger : ExitTrigger) (s : BacktestState)
    (h : s.state.openDeals.get? dealId = some d) :
    (closeDeal cfg now dealId price reason trigger s).log = [.closed price reason trigger] := by
  simp only [closeDeal, Program.get_bind_run, h]
  rfl

/-- A close of an open deal fills in range exactly when its price does. -/
theorem closes_fillsIn {α : Type} (c : BacktestCandle) (now : Instant) (dealId : String)
    (d : PaperDeal) (price : ℚ) (reason : CloseReason) (trigger : ExitTrigger) (s : BacktestState)
    (a : α) (h : s.state.openDeals.get? dealId = some d) :
    (∀ e ∈ ((closeDeal cfg now dealId price reason trigger >>= fun _ => pure a) s).log,
        FillsIn c e) ↔ c.low ≤ price ∧ price ≤ c.high := by
  rw [Program.bind_log_forall _ _ _ _ fun _ _ e he => absurd he List.not_mem_nil,
    closeDeal_log cfg now dealId d price reason trigger s h]
  simp only [List.forall_mem_singleton, FillsIn]

theorem stopAt_fillsIn (now : Instant) (candle : BacktestCandle) (d e : PaperDeal) (reference : ℚ)
    (trigger : ExitTrigger) (s : BacktestState) (h : s.state.openDeals.get? d.id = some e) :
    (∀ ev ∈ (stopAt cfg now candle d reference trigger s).log, FillsIn candle ev) ↔
      ¬ ∃ line, computeSlTargetPrice reference cfg.stopLoss.pct d.side = .ok line ∧
        candle.low ≤ line ∧ candle.high < line := by
  unfold stopAt
  cases hline : computeSlTargetPrice reference cfg.stopLoss.pct d.side with
  | error err => simp [Program.bind_run]
  | ok line =>
    rw [Program.lift_ok, Program.pure_bind]
    simp only [Except.ok.injEq, exists_eq_left']
    by_cases hstops : candle.low ≤ line
    · rw [if_pos hstops, closes_fillsIn cfg candle now d.id e line _ trigger s true h]
      simp only [hstops, true_and, not_lt]
    · rw [if_neg hstops]
      simp [hstops]

theorem checkTpSl_fillsIn (now : Instant) (w : OhlcWindow) (candle : BacktestCandle) (d : PaperDeal)
    (s : BacktestState) (h : s.state.openDeals.get? d.id = some d) (hcandle : PricesInOrder candle) :
    (∀ e ∈ (checkTpSlIntracandle cfg sig now w candle d s).log, FillsIn candle e) ↔
      ¬ GapsPast cfg sig w candle d := by
  unfold checkTpSlIntracandle GapsPast
  cases htarget : computeTpTargetPrice d.avgEntryPrice cfg.takeProfit.targetPct d.side with
  | error err => simp [Program.bind_run]
  | ok target =>
    rw [Program.lift_ok, Program.pure_bind]
    dsimp only
    by_cases hprice : (cfg.takeProfit.enabled && cfg.takeProfit.priceEnabled &&
        decide (target ≤ candle.high)) = true
    · have hle : target ≤ candle.high := by
        rw [Bool.and_eq_true, decide_eq_true_eq] at hprice
        exact hprice.2
      rw [if_pos hprice, if_pos hprice, closes_fillsIn cfg candle now d.id d target _ _ s true h]
      simp only [hle, and_true, not_lt]
    · rw [if_neg hprice, if_neg hprice]
      cases hgroups : (if cfg.takeProfit.enabled = true then
          IndicatorEngine.checkTpIndicatorGroups cfg sig w.candles else none) with
      | some info =>
        have hfires : cfg.takeProfit.enabled = true ∧
            IndicatorEngine.checkTpIndicatorGroups cfg sig w.candles ≠ none := by
          split at hgroups
          · next hon => exact ⟨hon, by rw [hgroups]; exact Option.some_ne_none info⟩
          · cases hgroups
        rw [if_pos hfires]
        dsimp only
        rw [closes_fillsIn cfg candle now d.id d candle.close _ _ s true h]
        simp only [hcandle.2.2.1, hcandle.2.2.2, and_self, not_false_eq_true]
      | none =>
        have hquiet : ¬ (cfg.takeProfit.enabled = true ∧
            IndicatorEngine.checkTpIndicatorGroups cfg sig w.candles ≠ none) := by
          rintro ⟨hon, hfires⟩
          rw [if_pos hon] at hgroups
          exact hfires hgroups
        rw [if_neg hquiet, stopReference]
        dsimp only
        cases cfg.stopLoss.type with
        | none => simp
        | trailing =>
          have hopen := KeyedDict.get?_modify_self s.state.openDeals d.id
            (fun e => { e with peakPrice := newPeak d candle }) fun _ => rfl
          rw [h] at hopen
          simp only [Option.some.injEq, exists_and_left, exists_eq_left']
          exact stopAt_fillsIn cfg now candle d _ (newPeak d candle) .trailingSl
            (onState (fun s => s.updateDeal d.id
              (fun e => { e with peakPrice := newPeak d candle }) fun _ => rfl) s) hopen
        | fixed =>
          simp only [Option.some.injEq, exists_and_left, exists_eq_left']
          exact stopAt_fillsIn cfg now candle d d d.avgEntryPrice .priceSl s h

/-- A ladder order is no close. -/
theorem checkDca_fillsIn (now : Instant) (d : PaperDeal) (price : ℚ) (c : BacktestCandle) :
    Program.Respects (fun _ l _ => ∀ e ∈ l, FillsIn c e) (checkDca cfg now d price) := by
  have hR := Program.traceRel_forall (σ := BacktestState) (FillsIn c)
  unfold checkDca
  refine Program.respects_ite _ _ _ (Program.respects_pure hR ()) ?_
  refine Program.respects_ite _ _ _ (Program.respects_pure hR ()) ?_
  refine Program.respects_ite _ _ _ (Program.respects_pure hR ()) ?_
  cases d.orders.getLast? with
  | none => exact Program.respects_raise hR _
  | some last =>
    refine Program.respects_ite _ _ _ (fun s e he => ?_) (Program.respects_pure hR ())
    obtain rfl : e = .dcaFilled price _ := List.mem_singleton.mp he
    trivial

theorem checkEntry_fillsIn (dealId : String) (w : OhlcWindow) (candle c : BacktestCandle) :
    Program.Respects (fun _ l _ => ∀ e ∈ l, FillsIn c e) (checkEntry cfg sig dealId w candle) := by
  intro s
  rw [checkEntry, Program.get_bind_run]
  split
  · cases IndicatorEngine.checkEntrySignal cfg (sig.withOpens w.opensPerTf cfg.timeframe)
      w.candles with
    | mk fired trigger =>
      cases fired with
      | false => exact fun e he => absurd he List.not_mem_nil
      | true =>
        intro e he
        obtain rfl : e = .opened candle.close cfg.dca.baseOrderSize trigger :=
          List.mem_singleton.mp he
        trivial
  · exact fun e he => absurd he List.not_mem_nil

theorem monitorDeal_fillsIn (now : Instant) (w : OhlcWindow) (candle : BacktestCandle)
    (d : PaperDeal) (s : BacktestState) (h : s.state.openDeals.get? d.id = some d)
    (hcandle : PricesInOrder candle) :
    (∀ e ∈ (monitorDeal cfg sig now w candle d.id s).log, FillsIn candle e) ↔
      ¬ GapsPast cfg sig w candle d := by
  rw [monitorDeal, Program.get_bind_run, h]
  dsimp only
  rw [Program.bind_log_forall, checkTpSl_fillsIn cfg sig now w candle d s h hcandle]
  intro closed t
  split
  · exact fun e he => absurd he List.not_mem_nil
  · rw [Program.get_bind_run]
    cases KeyedDict.get? t.state.openDeals d.id with
    | none => exact fun e he => absurd he List.not_mem_nil
    | some again => exact checkDca_fillsIn cfg now again candle.close candle t

/-- A backtest has one open deal at most. -/
def OneDeal (s : BacktestState) : Prop := s.state.openDeals.items.length ≤ 1

theorem processCandle_fillsIn (i : ℕ) (w : OhlcWindow) (candle : BacktestCandle) (s : BacktestState)
    (h : OneDeal s) (hcandle : PricesInOrder candle) :
    (∀ e ∈ (processCandle cfg sig env i w candle s).log, FillsIn candle e) ↔
      ∀ d ∈ s.state.openDeals.items, ¬ GapsPast cfg sig w candle d := by
  rw [processCandle, Program.get_bind_run, Program.bind_log_forall _ _ _ _ fun _ t =>
    checkEntry_fillsIn cfg sig (env.newDealId i) w candle candle t]
  cases hitems : s.state.openDeals.items with
  | nil => simp [Program.forEach]
  | cons d rest =>
    rw [OneDeal, hitems, List.length_cons] at h
    obtain rfl : rest = [] := List.eq_nil_of_length_eq_zero (by omega)
    have hopen : s.state.openDeals.get? d.id = some d :=
      KeyedDict.get?_of_mem _ d (by rw [hitems]; exact List.mem_singleton_self d)
    simp only [List.map_cons, List.map_nil, Program.forEach, List.forall_mem_singleton]
    rw [Program.bind_log_forall _ _ _ _ fun _ _ e he => absurd he List.not_mem_nil,
      monitorDeal_fillsIn cfg sig (env.clock i) w candle d s hopen hcandle]

/-- The fills of one candle are in its range exactly when it gaps past no line. -/
theorem candleStep_fillsIn (data : CandlesPerTf) (p : BacktestCandle × ℕ) (s : BacktestState)
    (h : OneDeal s) (hcandle : PricesInOrder p.1) :
    (∀ e ∈ (candleStep cfg sig env data p s).log, FillsIn p.1 e) ↔ NoGap cfg sig data p s := by
  rw [NoGap]
  by_cases hp : warmup ≤ p.2
  · rw [candleStep_run cfg sig env data p s hp,
      Program.bind_log_forall _ _ _ _ fun _ _ e he => absurd he List.not_mem_nil]
    rw [processCandle_fillsIn cfg sig env p.2 _ p.1
      { s with tfPointers := advanceAll data p.1.timestamp s.tfPointers } h hcandle]
    exact ⟨fun hgap _ => hgap, fun hgap => hgap hp⟩
  · rw [candleStep_skipped cfg sig env data p s (not_le.mp hp)]
    simp [hp]

/-! ### One deal at a time -/

/-- Monitoring opens no deal. -/
def Shrinks (s : BacktestState) (_ : List BacktestEvent) (s' : BacktestState) : Prop :=
  s'.state.openDeals.items.length ≤ s.state.openDeals.items.length

theorem shrinks_traceRel : Program.TraceRel Shrinks where
  nil _ := le_rfl
  append _ _ _ _ _ h h' := le_trans h' h

theorem shrinks_closeDeal (now : Instant) (dealId : String) (price : ℚ) (reason : CloseReason)
    (trigger : ExitTrigger) :
    Program.Respects Shrinks (closeDeal cfg now dealId price reason trigger) := by
  intro s
  rw [Shrinks, (closeDeal_run cfg now dealId price reason trigger s).2]
  exact List.length_filter_le _ _

theorem shrinks_rules : MonitorRules cfg Shrinks where
  rel := shrinks_traceRel
  close := shrinks_closeDeal cfg
  peak _ _ _ := (List.length_map _).le
  fill _ _ _ _ _ := (List.length_map _).le

theorem oneDeal_rules :
    RunRules cfg (fun s (_ : List BacktestEvent) s' => OneDeal s → OneDeal s') where
  rel := Program.traceRel_invariant OneDeal
  close now dealId price reason trigger s h :=
    ((shrinks_rules cfg).close now dealId price reason trigger s).trans h
  peak s dealId peak h := ((shrinks_rules cfg).peak s dealId peak).trans h
  fill s d order hget hsize h := ((shrinks_rules cfg).fill s d order hget hsize).trans h
  opened s dealId price dt trigger hflat _ := by
    rw [OneDeal, (keeps_openDeal cfg dealId price dt trigger s hflat).2]
    exact le_rfl
  pointers _ _ h := h
  counted _ h := h

/-- The fills of a backtest are in the range of their candles exactly when no candle
gaps past the line of an open deal. -/
theorem fillsInRange_iff (data : CandlesPerTf) (initialBalanceBtc : ℚ)
    (hcandles : ∀ c ∈ drivingCandles cfg data, PricesInOrder c) :
    FillsInRange cfg sig env data initialBalanceBtc ↔
      Program.Along (candleStep cfg sig env data) (NoGap cfg sig data)
        (drivingCandles cfg data).zipIdx (init initialBalanceBtc) := by
  refine (Program.roundLog_forall _ (fun (p : BacktestCandle × ℕ) e => FillsIn p.1 e) _ _).trans ?_
  refine Program.along_congr _ _ _ OneDeal _ _ (Nat.zero_le 1) (fun p _ s h => ?_)
    fun p hp s h => ?_
  · exact (oneDeal_rules cfg).candleStep sig env data p s h
  · refine candleStep_fillsIn cfg sig env data p s h (hcandles p.1 ?_)
    exact List.mem_of_getElem? (List.mk_mem_zipIdx_iff_getElem?.mp hp)

/-- The theorem on flat candles, which gap past nothing. -/
theorem fillsInRange_iff_hourly :
    FillsInRange (.small "flat") .silent ⟨fun _ => "deal", fun _ => 0⟩ hourlyData.candlesPerTf 1 ↔
      Program.Along (candleStep (.small "flat") .silent ⟨fun _ => "deal", fun _ => 0⟩
          hourlyData.candlesPerTf) (NoGap (.small "flat") .silent hourlyData.candlesPerTf)
        (drivingCandles (.small "flat") hourlyData.candlesPerTf).zipIdx (init 1) :=
  fillsInRange_iff (.small "flat") .silent ⟨fun _ => "deal", fun _ => 0⟩ hourlyData.candlesPerTf 1
    (by decide +kernel)

/-- Seventy-nine hours at 100 and a candle from 110 to 112. -/
def gappedData : CandlesPerTf := fun tf =>
  if tf = .h1 then
    some (((List.range 79).map fun i => ⟨i * 3600000, 100, 100, 100, 100⟩) ++
      [⟨79 * 3600000, 111, 112, 110, 111⟩])
  else none

/-- The deal opened at 100 takes profit at 10000/97, far below the candle. -/
theorem not_fillsInRange_gapped :
    ¬ ∀ (cfg : BotConfig) (sig : Signals) (env : BacktestEnv) (data : CandlesPerTf)
      (initialBalanceBtc : ℚ), (∀ c ∈ drivingCandles cfg data, PricesInOrder c) →
        FillsInRange cfg sig env data initialBalanceBtc := by
  intro h
  have hfills := h (.small "gap") .silent ⟨fun _ => "deal", fun _ => 0⟩ gappedData 1
    (by decide +kernel)
  have hfill : (110 : ℚ) ≤ 10000 / 97 ∧ (10000 / 97 : ℚ) ≤ 112 :=
    hfills ((⟨79 * 3600000, 111, 112, 110, 111⟩, 79), .closed (10000 / 97) .tp .priceTp)
      (by decide +kernel)
  norm_num at hfill

end BacktestEngine

end Reverto
