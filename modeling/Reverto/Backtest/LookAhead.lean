import Mathlib.Tactic
import Reverto.Backtest.MethodRules
import Reverto.Lib.Timeline
import Reverto.Strategies.MarketStructure

/-!
# What a backtest knows at a candle (backtest/backtest_engine.py)

`_ohlc_up_to` promises the candles that closed before the current one and takes
those that opened before it. A candle of a longer timeframe that is still forming
is then known with its final close.
-/

namespace Reverto

/-- The interval of a timeframe in milliseconds. -/
def Timeframe.intervalMs : Timeframe → ℤ
  | .m15 => 900000
  | .m30 => 1800000
  | .h1 => 3600000
  | .h2 => 7200000
  | .h4 => 14400000
  | .h12 => 43200000
  | .d1 => 86400000

/-- Candles in the order of their times, which are times at which a candle of the
timeframe can open. -/
structure CandleSets (opensAt : Timeframe → ℤ → Prop) where
  candlesPerTf : CandlesPerTf
  increasing : ∀ tf cs, candlesPerTf tf = some cs → Timeline.Increasing BacktestCandle.timestamp cs
  onGrid : ∀ tf cs, candlesPerTf tf = some cs → ∀ c ∈ cs, opensAt tf c.timestamp

/-- The candles of a timeframe that have closed by a time. -/
def closedBy (t : ℤ) (tf : Timeframe) (cs : List BacktestCandle) : List BacktestCandle :=
  cs.filter fun c => decide (c.timestamp + tf.intervalMs ≤ t)

/-- Two data sets with the same closed candles. -/
def AgreeUpTo (t : ℤ) (data data' : CandlesPerTf) : Prop :=
  ∀ tf, (data tf).map (closedBy t tf) = (data' tf).map (closedBy t tf)

namespace BacktestEngine

variable (cfg : BotConfig) (sig : Signals) (env : BacktestEnv)

/-! ### The windows -/

/-- The candles that opened before a time. -/
def before (t : ℤ) (data : CandlesPerTf) : CandlesPerTf := fun tf =>
  (data tf).map (Timeline.before BacktestCandle.timestamp t)

/-- Every candle, as the indicator engine takes them. -/
def fullWindow (data : CandlesPerTf) : OhlcWindow := windowsAt data fun tf =>
  ((data tf).getD []).length

/-- The candles of every timeframe are in the order of their times. -/
def Ordered (data : CandlesPerTf) : Prop :=
  ∀ tf cs, data tf = some cs → Timeline.Increasing BacktestCandle.timestamp cs

/-- The candles of every timeframe never go back in time. -/
def Chronological (data : CandlesPerTf) : Prop :=
  ∀ tf cs, data tf = some cs → Timeline.Sorted BacktestCandle.timestamp cs

theorem chronological_of_ordered (data : CandlesPerTf) (h : Ordered data) : Chronological data :=
  fun tf cs hcs => Timeline.sorted_of_increasing _ cs (h tf cs hcs)

/-- The pointers have passed only candles that opened before a time. -/
def Passed (data : CandlesPerTf) (t : ℤ) (tfPointers : Timeframe → ℕ) : Prop :=
  ∀ tf cs, data tf = some cs →
    tfPointers tf ≤ cs.length ∧ ∀ c ∈ cs.take (tfPointers tf), c.timestamp < t

theorem advanceAll_some (data : CandlesPerTf) (hdata : Chronological data) (t : ℤ)
    (tfPointers : Timeframe → ℕ) (h : Passed data t tfPointers) (tf : Timeframe)
    (cs : List BacktestCandle) (hcs : data tf = some cs) :
    advanceAll data t tfPointers tf = (Timeline.before BacktestCandle.timestamp t cs).length := by
  obtain ⟨hle, hpassed⟩ := h tf cs hcs
  simp only [advanceAll, hcs, advance]
  exact Timeline.walk BacktestCandle.timestamp t cs (tfPointers tf) (hdata tf cs hcs) hle hpassed

/-- The windows are the candles that opened before the current candle. -/
theorem windowsAt_advanceAll (data : CandlesPerTf) (hdata : Chronological data) (t : ℤ)
    (tfPointers : Timeframe → ℕ) (h : Passed data t tfPointers) :
    windowsAt data (advanceAll data t tfPointers) = fullWindow (before t data) := by
  have htake : ∀ tf cs, data tf = some cs → cs.take (advanceAll data t tfPointers tf) =
      Timeline.before BacktestCandle.timestamp t cs := by
    intro tf cs hcs
    rw [advanceAll_some data hdata t tfPointers h tf cs hcs]
    exact Timeline.take_before BacktestCandle.timestamp t cs (hdata tf cs hcs)
  have hcloses : ∀ tf, ((data tf).getD []).take (advanceAll data t tfPointers tf) =
      ((before t data tf).getD []).take ((before t data tf).getD []).length := by
    intro tf
    rw [List.take_length]
    cases hcs : data tf with
    | none => simp [before, hcs]
    | some cs => simpa [before, hcs] using htake tf cs hcs
  have hother : ∀ (f : BacktestCandle → ℚ) tf,
      (data tf).map (fun cs => (cs.take (advanceAll data t tfPointers tf)).map f) =
        (before t data tf).map fun cs =>
          (cs.take ((before t data tf).getD []).length).map f := by
    intro f tf
    cases hcs : data tf with
    | none => simp [before, hcs]
    | some cs =>
      simp only [before, hcs, Option.map_some, Option.getD_some, List.take_length, htake tf cs hcs]
  simp only [fullWindow, windowsAt, hcloses, hother]

/-- Where a candle leaves the pointers. -/
theorem passed_advanceAll (data : CandlesPerTf) (hdata : Chronological data) (t t' : ℤ)
    (tfPointers : Timeframe → ℕ) (h : Passed data t tfPointers) (ht : t ≤ t') :
    Passed data t' (advanceAll data t tfPointers) := by
  intro tf cs hcs
  rw [advanceAll_some data hdata t tfPointers h tf cs hcs]
  refine ⟨List.length_filter_le _ _, fun c hc => ?_⟩
  rw [Timeline.take_before BacktestCandle.timestamp t cs (hdata tf cs hcs)] at hc
  exact ((Timeline.mem_before BacktestCandle.timestamp t cs c).mp hc).2.trans_le ht

/-! ### The pointers are moved by `_ohlc_up_to` only -/

/-- Programs that leave the pointers alone. -/
abbrev KeepsPointers {α : Type} (m : BacktestM α) : Prop :=
  Program.Respects (fun s _ s' => s'.tfPointers = s.tfPointers) m

theorem keepsPointers_closeDeal (now : Instant) (dealId : String) (price : ℚ)
    (reason : CloseReason) (trigger : ExitTrigger) :
    KeepsPointers (closeDeal cfg now dealId price reason trigger) := by
  intro s
  simp only [closeDeal, Program.get_bind_run]
  cases s.state.openDeals.get? dealId with
  | none => rfl
  | some d => rfl

theorem keepsPointers_rules :
    CandleRules cfg (fun s (_ : List BacktestEvent) s' => s'.tfPointers = s.tfPointers) where
  rel := Program.traceRel_frame BacktestState.tfPointers
  close := keepsPointers_closeDeal cfg
  peak _ _ _ := rfl
  fill _ _ _ _ _ := rfl
  opened _ _ _ _ _ _ := rfl

/-! ### Runs on data sets with the same windows -/

/-- Two data sets show a backtest the same at a time. -/
theorem advanceAll_congr (data data' : CandlesPerTf) (hdata : Ordered data) (hdata' : Ordered data')
    (t : ℤ) (tfPointers : Timeframe → ℕ) (h : Passed data t tfPointers)
    (h' : Passed data' t tfPointers) (hsame : before t data = before t data') :
    advanceAll data t tfPointers = advanceAll data' t tfPointers := by
  funext tf
  have htf := congrFun hsame tf
  cases hcs : data tf with
  | none =>
    cases hcs' : data' tf with
    | none => simp only [advanceAll, hcs, hcs']
    | some cs' => simp [before, hcs, hcs'] at htf
  | some cs =>
    cases hcs' : data' tf with
    | none => simp [before, hcs, hcs'] at htf
    | some cs' =>
      have hwindow : Timeline.before BacktestCandle.timestamp t cs =
          Timeline.before BacktestCandle.timestamp t cs' := by
        simpa [before, hcs, hcs'] using htf
      rw [advanceAll_some data (chronological_of_ordered data hdata) t tfPointers h tf cs hcs,
        advanceAll_some data' (chronological_of_ordered data' hdata') t tfPointers h' tf cs' hcs',
        hwindow]

/-- A processed candle: the pointers move, then the windows before them count. -/
theorem candleStep_run (data : CandlesPerTf) (p : BacktestCandle × ℕ) (s : BacktestState)
    (hp : warmup ≤ p.2) :
    candleStep cfg sig env data p s =
      (processCandle cfg sig env p.2
          (windowsAt data (advanceAll data p.1.timestamp s.tfPointers)) p.1 >>= fun _ =>
        Program.modify fun s => { s with candlesProcessed := s.candlesProcessed + 1 })
        { s with tfPointers := advanceAll data p.1.timestamp s.tfPointers } := by
  rw [candleStep, if_neg (not_lt.mpr hp)]
  simp only [ohlcUpTo, Program.bind_assoc, Program.modify_bind_run, Program.get_bind_run,
    Program.pure_bind]

theorem candleStep_congr (data data' : CandlesPerTf) (hdata : Ordered data)
    (hdata' : Ordered data') (p : BacktestCandle × ℕ) (s : BacktestState)
    (h : Passed data p.1.timestamp s.tfPointers) (h' : Passed data' p.1.timestamp s.tfPointers)
    (hsame : before p.1.timestamp data = before p.1.timestamp data') :
    candleStep cfg sig env data p s = candleStep cfg sig env data' p s := by
  by_cases hp : warmup ≤ p.2
  · rw [candleStep_run cfg sig env data p s hp, candleStep_run cfg sig env data' p s hp,
      windowsAt_advanceAll data (chronological_of_ordered data hdata) _ _ h,
      windowsAt_advanceAll data' (chronological_of_ordered data' hdata') _ _ h', hsame,
      advanceAll_congr data data' hdata hdata' _ _ h h' hsame]
  · rw [candleStep, candleStep, if_pos (not_le.mp hp), if_pos (not_le.mp hp)]

theorem candleStep_pointers (data : CandlesPerTf) (p : BacktestCandle × ℕ) (s : BacktestState)
    (hp : warmup ≤ p.2) :
    (candleStep cfg sig env data p s).state.tfPointers =
      advanceAll data p.1.timestamp s.tfPointers := by
  have hR := Program.traceRel_frame (ω := BacktestEvent) BacktestState.tfPointers
  have hcount : KeepsPointers (Program.modify fun s : BacktestState =>
      { s with candlesProcessed := s.candlesProcessed + 1 }) := fun _ => rfl
  have hkeep := Program.respects_bind hR _ _ ((keepsPointers_rules cfg).processCandle sig env p.2
    (windowsAt data (advanceAll data p.1.timestamp s.tfPointers)) p.1) fun _ => hcount
  rw [candleStep_run cfg sig env data p s hp]
  exact hkeep { s with tfPointers := advanceAll data p.1.timestamp s.tfPointers }

/-- A step leaves the pointers where they were or at the candle. -/
theorem passed_candleStep (data : CandlesPerTf) (hdata : Chronological data) (p : BacktestCandle × ℕ)
    (s : BacktestState) (t : ℤ) (h : Passed data p.1.timestamp s.tfPointers)
    (ht : p.1.timestamp ≤ t) :
    Passed data t (candleStep cfg sig env data p s).state.tfPointers := by
  by_cases hp : warmup ≤ p.2
  · rw [candleStep_pointers cfg sig env data p s hp]
    exact passed_advanceAll data hdata _ t _ h ht
  · rw [candleStep, if_pos (not_le.mp hp)]
    intro tf cs hcs
    obtain ⟨hle, hpassed⟩ := h tf cs hcs
    exact ⟨hle, fun c hc => (hpassed c hc).trans_le ht⟩

/-- The candles that are left come in order, and the data sets look the same at
each of them. -/
def SameAhead (data data' : CandlesPerTf) (l : List (BacktestCandle × ℕ)) (s : BacktestState) :
    Prop :=
  Timeline.Increasing (fun p : BacktestCandle × ℕ => p.1.timestamp) l ∧
    (∀ p ∈ l, Passed data p.1.timestamp s.tfPointers ∧ Passed data' p.1.timestamp s.tfPointers) ∧
    ∀ p ∈ l, before p.1.timestamp data = before p.1.timestamp data'

theorem SameAhead.step_eq {data data' : CandlesPerTf} (hdata : Ordered data)
    (hdata' : Ordered data') (p : BacktestCandle × ℕ) (l : List (BacktestCandle × ℕ))
    (s : BacktestState) (h : SameAhead data data' (p :: l) s) :
    candleStep cfg sig env data p s = candleStep cfg sig env data' p s := by
  obtain ⟨hp, hp'⟩ := h.2.1 p List.mem_cons_self
  exact candleStep_congr cfg sig env data data' hdata hdata' p s hp hp'
    (h.2.2 p List.mem_cons_self)

theorem SameAhead.next {data data' : CandlesPerTf} (hdata : Ordered data)
    (hdata' : Ordered data') (p : BacktestCandle × ℕ) (l : List (BacktestCandle × ℕ))
    (s : BacktestState) (h : SameAhead data data' (p :: l) s) :
    SameAhead data data' l (candleStep cfg sig env data p s).state := by
  have hstep := SameAhead.step_eq cfg sig env hdata hdata' p l s h
  obtain ⟨hl, hpassed, hsame⟩ := h
  obtain ⟨hhead, htail⟩ := List.pairwise_cons.mp hl
  obtain ⟨hp, hp'⟩ := hpassed p List.mem_cons_self
  refine ⟨htail, fun q hq => ?_, fun q hq => hsame q (List.mem_cons_of_mem p hq)⟩
  have hle : p.1.timestamp ≤ q.1.timestamp := (hhead q hq).le
  have hnext := passed_candleStep cfg sig env data (chronological_of_ordered data hdata) p s
    q.1.timestamp hp hle
  have hnext' := passed_candleStep cfg sig env data' (chronological_of_ordered data' hdata') p s
    q.1.timestamp hp' hle
  rw [← hstep] at hnext'
  exact ⟨hnext, hnext'⟩

/-- Two backtests that see the same do the same. -/
theorem forEach_congr (data data' : CandlesPerTf) (hdata : Ordered data) (hdata' : Ordered data')
    (l : List (BacktestCandle × ℕ)) (s : BacktestState) (h : SameAhead data data' l s) :
    Program.forEach (candleStep cfg sig env data) l s =
      Program.forEach (candleStep cfg sig env data') l s :=
  Program.forEach_congr _ _ (SameAhead data data') (SameAhead.step_eq cfg sig env hdata hdata')
    (SameAhead.next cfg sig env hdata hdata') l s h

theorem take_zipIdx (l : List BacktestCandle) (n : ℕ) :
    l.zipIdx.take n = (l.take n).zipIdx := by
  have hsplit : l.zipIdx = (l.take n).zipIdx ++ (l.drop n).zipIdx (l.take n).length := by
    conv_lhs => rw [← List.take_append_drop n l]
    rw [List.zipIdx_append, Nat.zero_add]
  rcases Nat.le_total n l.length with hn | hn
  · rw [hsplit]
    refine List.take_left' ?_
    rw [List.length_zipIdx, List.length_take_of_le hn]
  · rw [List.take_of_length_le hn, List.take_of_length_le (by rw [List.length_zipIdx]; exact hn)]

/-- What holds pairwise of candles holds of them with their indices. -/
theorem pairwise_zipIdx (R : BacktestCandle → BacktestCandle → Prop) (l : List BacktestCandle)
    (h : l.Pairwise R) : l.zipIdx.Pairwise fun p q => R p.1 q.1 := by
  have hmap : l.zipIdx.map Prod.fst = l := List.zipIdx_map_fst 0 l
  have hpair : (l.zipIdx.map Prod.fst).Pairwise R := by
    rw [hmap]
    exact h
  rw [List.pairwise_map] at hpair
  exact hpair

theorem passed_init (data : CandlesPerTf) (initialBalanceBtc : ℚ) (t : ℤ) :
    Passed data t (init initialBalanceBtc).tfPointers := by
  intro tf cs _
  refine ⟨Nat.zero_le _, fun c hc => ?_⟩
  have hnil : c ∈ cs.take 0 := hc
  rw [List.take_zero] at hnil
  cases hnil

theorem drivingCandles_increasing (data : CandlesPerTf) (hdata : Ordered data) :
    Timeline.Increasing BacktestCandle.timestamp (drivingCandles cfg data) := by
  unfold drivingCandles
  cases hcs : data cfg.timeframe with
  | none => exact List.Pairwise.nil
  | some cs => exact hdata cfg.timeframe cs hcs

/-- The events through a candle when the windows up to it are the same. -/
theorem eventsThrough_congr (data data' : CandlesPerTf) (hdata : Ordered data)
    (hdata' : Ordered data') (b : ℚ) (i : ℕ) (haccepts : accepts cfg data = accepts cfg data')
    (hdriving : (drivingCandles cfg data).take (i + 1) = (drivingCandles cfg data').take (i + 1))
    (hsame : ∀ c ∈ (drivingCandles cfg data).take (i + 1),
      before c.timestamp data = before c.timestamp data') :
    eventsThrough cfg sig env data b i = eventsThrough cfg sig env data' b i := by
  have hl : Timeline.Increasing (fun p : BacktestCandle × ℕ => p.1.timestamp)
      ((drivingCandles cfg data).take (i + 1)).zipIdx :=
    pairwise_zipIdx _ _ ((drivingCandles_increasing cfg data hdata).sublist (List.take_sublist _ _))
  have hrun := forEach_congr cfg sig env data data' hdata hdata' _ (init b)
    ⟨hl, fun p _ => ⟨passed_init data b _, passed_init data' b _⟩,
      fun p hp => hsame p.1 (List.fst_mem_of_mem_zipIdx hp)⟩
  simp only [eventsThrough, take_zipIdx, ← haccepts, ← hdriving, hrun]

/-! ### What is still forming at a candle -/

section Forming

variable {opensAt : Timeframe → ℤ → Prop} (driving : Timeframe)

/-- The events through a driving candle are the same for every data set that has
the same closed candles. -/
def NoLookAhead (data : CandleSets opensAt) (i : ℕ) (c : BacktestCandle) : Prop :=
  ∀ (cfg : BotConfig) (sig : Signals) (env : BacktestEnv) (initialBalanceBtc : ℚ)
    (data' : CandleSets opensAt), cfg.timeframe = driving →
    AgreeUpTo (c.timestamp + driving.intervalMs) data.candlesPerTf data'.candlesPerTf →
    eventsThrough cfg sig env data.candlesPerTf initialBalanceBtc i =
      eventsThrough cfg sig env data'.candlesPerTf initialBalanceBtc i

/-- A candle that can open before the given one has closed when that one closes. -/
def NoneForming (data : CandleSets opensAt) (c : BacktestCandle) : Prop :=
  ∀ tf, (data.candlesPerTf tf).isSome = true → ∀ t, opensAt tf t → t < c.timestamp →
    t + tf.intervalMs ≤ c.timestamp + driving.intervalMs

/-- Then the windows hold closed candles only. -/
theorem before_eq_of_noneForming (data data' : CandleSets opensAt) (c : BacktestCandle) (t : ℤ)
    (h : NoneForming driving data c) (ht : t ≤ c.timestamp)
    (hagree : AgreeUpTo (c.timestamp + driving.intervalMs) data.candlesPerTf data'.candlesPerTf) :
    before t data.candlesPerTf = before t data'.candlesPerTf := by
  have hclosed : ∀ (d : CandleSets opensAt) tf cs, (data.candlesPerTf tf).isSome = true →
      d.candlesPerTf tf = some cs → Timeline.before BacktestCandle.timestamp t cs =
        Timeline.before BacktestCandle.timestamp t
          (closedBy (c.timestamp + driving.intervalMs) tf cs) := by
    intro d tf cs hsome hcs
    rw [Timeline.before, Timeline.before, closedBy, List.filter_filter]
    refine List.filter_congr fun x hx => ?_
    by_cases hxt : x.timestamp < t
    · have hx' := h tf hsome x.timestamp (d.onGrid tf cs hcs x hx) (hxt.trans_le ht)
      simp [hxt, hx']
    · simp [hxt]
  funext tf
  have htf := hagree tf
  cases hcs : data.candlesPerTf tf with
  | none =>
    cases hcs' : data'.candlesPerTf tf with
    | none => simp only [before, hcs, hcs']
    | some cs' => simp [hcs, hcs'] at htf
  | some cs =>
    cases hcs' : data'.candlesPerTf tf with
    | none => simp [hcs, hcs'] at htf
    | some cs' =>
      have hsome : (data.candlesPerTf tf).isSome = true := by rw [hcs]; rfl
      have hsame : closedBy (c.timestamp + driving.intervalMs) tf cs =
          closedBy (c.timestamp + driving.intervalMs) tf cs' := by
        simpa [hcs, hcs'] using htf
      simp only [before, hcs, hcs', Option.map_some]
      rw [hclosed data tf cs hsome hcs, hclosed data' tf cs' hsome hcs', hsame]

theorem accepts_of_agree (t : ℤ) (data data' : CandlesPerTf) (h : AgreeUpTo t data data') :
    accepts cfg data = accepts cfg data' := by
  have hsome : ∀ tf, (data tf).isSome = (data' tf).isSome := by
    intro tf
    have htf := congrArg Option.isSome (h tf)
    simpa using htf
  simp only [accepts, hsome]

/-- The driving candles up to the given one have closed with it. -/
theorem take_driving_of_agree (data data' : CandleSets opensAt) (i : ℕ) (c : BacktestCandle)
    (hc : (drivingCandles cfg data.candlesPerTf)[i]? = some c)
    (h : AgreeUpTo (c.timestamp + cfg.timeframe.intervalMs) data.candlesPerTf data'.candlesPerTf) :
    (drivingCandles cfg data.candlesPerTf).take (i + 1) =
      (drivingCandles cfg data'.candlesPerTf).take (i + 1) := by
  have hfilter : ((drivingCandles cfg data.candlesPerTf).filter fun x =>
        decide (x.timestamp ≤ c.timestamp)) =
      (drivingCandles cfg data'.candlesPerTf).filter fun x =>
        decide (x.timestamp ≤ c.timestamp) := by
    have hle : ∀ x : BacktestCandle, (x.timestamp + cfg.timeframe.intervalMs ≤
        c.timestamp + cfg.timeframe.intervalMs) = (x.timestamp ≤ c.timestamp) := by
      intro x
      rw [add_le_add_iff_right]
    have htf := h cfg.timeframe
    unfold drivingCandles
    cases hcs : data.candlesPerTf cfg.timeframe with
    | none =>
      cases hcs' : data'.candlesPerTf cfg.timeframe with
      | none => rfl
      | some cs' => simp [hcs, hcs'] at htf
    | some cs =>
      cases hcs' : data'.candlesPerTf cfg.timeframe with
      | none => simp [hcs, hcs'] at htf
      | some cs' => simpa [hcs, hcs', closedBy, hle] using htf
  exact (Timeline.take_eq_of_filter_eq BacktestCandle.timestamp _ _ i c
    (drivingCandles_increasing cfg _ data.increasing)
    (drivingCandles_increasing cfg _ data'.increasing) hc hfilter).symm

theorem noLookAhead_of_noneForming (data : CandleSets opensAt) (i : ℕ) (c : BacktestCandle)
    (hc : ((data.candlesPerTf driving).getD [])[i]? = some c) (h : NoneForming driving data c) :
    NoLookAhead driving data i c := by
  intro cfg sig env b data' htf hagree
  subst htf
  refine eventsThrough_congr cfg sig env _ _ data.increasing data'.increasing b i
    (accepts_of_agree cfg _ _ _ hagree) (take_driving_of_agree cfg data data' i c hc hagree) ?_
  intro x hx
  have hmem : x ∈ (drivingCandles cfg data.candlesPerTf).filter fun y =>
      decide (y.timestamp ≤ c.timestamp) := by
    rw [Timeline.filter_le_getElem BacktestCandle.timestamp _ i c
      (drivingCandles_increasing cfg _ data.increasing) hc]
    exact hx
  have hle : x.timestamp ≤ c.timestamp := by simpa using (List.mem_filter.mp hmem).2
  exact before_eq_of_noneForming cfg.timeframe data data' c x.timestamp h hle hagree

end Forming

end BacktestEngine

end Reverto
