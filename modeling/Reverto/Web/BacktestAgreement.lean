import Mathlib.Tactic
import Reverto.Backtest.Accounts
import Reverto.Web.BacktestCandles

/-!
# The two backtests side by side (web/static/app.js, backtest/backtest_engine.py)

A bot without indicators opens on the first candle after the warm-up in both. They agree
as long as no candle reaches the nearer of their lines and every fill has at most eight
decimals; the first line that is reached sets them apart.
-/

namespace Reverto

open Script

/-- A candle list as the loaders give it, long enough for the same warm-up. -/
structure DrivingBars where
  bars : List BacktestCandle
  increasing : Timeline.Increasing BacktestCandle.timestamp bars
  low_pos : ∀ c ∈ bars, 0 < c.low
  low_le : ∀ c ∈ bars, c.low ≤ c.open ∧ c.low ≤ c.close
  le_high : ∀ c ∈ bars, c.open ≤ c.high ∧ c.close ≤ c.high
  enough : 312 ≤ bars.length

/-- `candles_per_tf` of a bot that needs its own timeframe only. -/
def DrivingBars.perTf (b : DrivingBars) (driving : Timeframe) : CandlesPerTf := fun tf =>
  if tf = driving then some b.bars else none

namespace BacktestAgreement

variable (config : BrowserConfig) (cfg : BotConfig) (sig : Signals) (env : BacktestEnv)
  (sqrt : ℚ → ℚ) (localParts : ℤ → ℕ × ℕ) (b : DrivingBars) (initialBalance : ℚ)

/-- The loop of the server's `run`, each event under the index of its candle. -/
def serverLoop : Program.Outcome PyError (ℕ × BrowserEvent ℚ) BacktestState Unit :=
  Program.forEach (fun p => Program.relabel (fun e => (p.2, e.toBrowser))
    (BacktestEngine.candleStep cfg sig env (b.perTf cfg.timeframe) p)) b.bars.zipIdx
    (BacktestEngine.init initialBalance)

/-- What the server charged for a closed deal. -/
def serverFees (d : PaperDeal) : ℚ :=
  (d.orders.map fun o => BacktestEngine.calcFee cfg o.size).sum +
    BacktestEngine.calcFee cfg d.totalSize

/-- Both backtests return, with the same fills and closes at the same candles, and with
the same gross PnL and fees of each deal that was closed before the end of the data. -/
structure Agree : Prop where
  returns : (BacktestEngine.run cfg sig env (b.perTf cfg.timeframe)
    (BacktestEngine.init initialBalance)).result = .ok ()
  same : ∃ o, RevertoBacktest.run sqrt localParts config (b.bars.map BacktestCandle.toJs)
      initialBalance = some o ∧
    o.log = (serverLoop cfg sig env b initialBalance).log ∧
    o.state.closedDeals.map (fun d => (d.grossPnlBtc, d.totalFeesBtc)) =
      (serverLoop cfg sig env b initialBalance).state.state.closedDeals.map fun d =>
        (d.pnlBtc, serverFees cfg d)

/-- When the two backtests agree. -/
structure AtRest : Prop where
  noGroups : cfg.entry.indicatorGroups = []
  target : cfg.takeProfit.targetPct < 100
  rests : ∀ c cs, b.bars.drop BacktestEngine.warmup = c :: cs →
    Rests config cfg cs (Ladder.opened cfg c)

/-! ### Candle by candle -/

section Loops

variable (st : RevertoBacktest.Settings ℚ) (warmup : ℕ) (signals : RevertoBacktest.EntrySignals)
  (candles : List (JsCandle ℚ)) (data : CandlesPerTf)

/-- The browser from the candle with index `k` on. -/
def browserFrom (cs : List BacktestCandle) (k : ℕ) (s : RevertoBacktest.BrowserState ℚ) :
    Program.Outcome Empty (ℕ × BrowserEvent ℚ) (RevertoBacktest.BrowserState ℚ) Unit :=
  Program.forEach (fun p => Program.relabel (fun e => (p.2, e))
    (RevertoBacktest.candleStep st localParts config warmup signals candles p))
    ((cs.map BacktestCandle.toJs).zipIdx k) s

/-- The server from the candle with index `k` on. -/
def serverFrom (cs : List BacktestCandle) (k : ℕ) (s : BacktestState) :
    Program.Outcome PyError (ℕ × BrowserEvent ℚ) BacktestState Unit :=
  Program.forEach (fun p => Program.relabel (fun e => (p.2, e.toBrowser))
    (BacktestEngine.candleStep cfg sig env data p)) (cs.zipIdx k) s

theorem browserFrom_cons (c : BacktestCandle) (cs : List BacktestCandle) (k : ℕ)
    (s : RevertoBacktest.BrowserState ℚ) :
    (browserFrom config localParts st warmup signals candles (c :: cs) k s).log =
        (RevertoBacktest.candleStep st localParts config warmup signals candles (c.toJs, k) s).log.map
            (fun e => (k, e)) ++
          (browserFrom config localParts st warmup signals candles cs (k + 1)
            (RevertoBacktest.candleStep st localParts config warmup signals candles (c.toJs, k)
              s).state).log ∧
      (browserFrom config localParts st warmup signals candles (c :: cs) k s).state =
        (browserFrom config localParts st warmup signals candles cs (k + 1)
          (RevertoBacktest.candleStep st localParts config warmup signals candles (c.toJs, k)
            s).state).state := by
  obtain ⟨a, ha⟩ := Program.returns_empty (Program.relabel (fun e => (k, e))
    (RevertoBacktest.candleStep st localParts config warmup signals candles (c.toJs, k))) s
  rw [browserFrom, List.map_cons, List.zipIdx_cons, Program.forEach, Program.bind_ok _ _ _ a ha]
  exact ⟨rfl, rfl⟩

theorem serverFrom_cons (c : BacktestCandle) (cs : List BacktestCandle) (k : ℕ) (s : BacktestState)
    (h : (BacktestEngine.candleStep cfg sig env data (c, k) s).result = .ok ()) :
    (serverFrom cfg sig env data (c :: cs) k s).log =
        ((BacktestEngine.candleStep cfg sig env data (c, k) s).log.map
            BacktestEvent.toBrowser).map (fun e => (k, e)) ++
          (serverFrom cfg sig env data cs (k + 1)
            (BacktestEngine.candleStep cfg sig env data (c, k) s).state).log ∧
      (serverFrom cfg sig env data (c :: cs) k s).state =
        (serverFrom cfg sig env data cs (k + 1)
          (BacktestEngine.candleStep cfg sig env data (c, k) s).state).state := by
  have hlabel : (Program.relabel (fun e => (k, e.toBrowser))
      (BacktestEngine.candleStep cfg sig env data (c, k)) s).result = .ok () := h
  rw [serverFrom, List.zipIdx_cons, Program.forEach, Program.bind_ok _ _ _ () hlabel, List.map_map]
  exact ⟨rfl, rfl⟩

/-- The later candles have later labels. -/
theorem browserFrom_labels (cs : List BacktestCandle) (k : ℕ)
    (s : RevertoBacktest.BrowserState ℚ) :
    ∀ e ∈ (browserFrom config localParts st warmup signals candles cs k s).log, k ≤ e.1 := by
  intro e he
  obtain ⟨p, hp, hlabel⟩ := Program.forEach_labels _ Prod.snd _ s e he
  rw [hlabel]
  exact List.le_snd_of_mem_zipIdx hp

theorem serverFrom_labels (cs : List BacktestCandle) (k : ℕ) (s : BacktestState) :
    ∀ e ∈ (serverFrom cfg sig env data cs k s).log, k ≤ e.1 := by
  intro e he
  have hshape : serverFrom cfg sig env data cs k s =
      Program.forEach (fun p => Program.relabel (fun e => (p.2, e)) (Program.relabel
        BacktestEvent.toBrowser (BacktestEngine.candleStep cfg sig env data p))) (cs.zipIdx k) s := by
    rw [serverFrom]
    simp only [Program.relabel_relabel]
    rfl
  rw [hshape] at he
  obtain ⟨p, hp, hlabel⟩ := Program.forEach_labels _ Prod.snd _ s e he
  rw [hlabel]
  exact List.le_snd_of_mem_zipIdx hp

end Loops
/-! ### Whole runs -/

section Runs

theorem longDeals_of_only (l : Ladder) (hsound : l.Sound) (d : PaperDeal) (hm : PyMatches l d)
    (s : BacktestState) (hs : OnlyDeal d s) : BacktestEngine.LongDeals s := by
  intro e he
  rw [hs, List.mem_singleton] at he
  subst he
  refine ⟨hm.side, fun hnil => hsound.orders_ne ?_⟩
  rw [← hm.orders, hnil]
  rfl

variable (st : RevertoBacktest.Settings ℚ) (hst : BrowserReads config cfg st) (warmup : ℕ)
  (signals : RevertoBacktest.EntrySignals) (candles : List (JsCandle ℚ)) (data : CandlesPerTf)
include hst

/-- From a candle where both hold the ladder, the logs are the same exactly when the rest of
the candles lets it rest; nothing is closed then. -/
theorem same_iff_rests (hconfig : config.Loads cfg) (hno : cfg.NoIndicators)
    (ht : cfg.takeProfit.targetPct < 100) (cs : List BacktestCandle) (hbars : SoundBars cs) (k : ℕ)
    (hk : BacktestEngine.warmup ≤ k) (l : Ladder) (hsound : l.Sound)
    (s : RevertoBacktest.BrowserState ℚ) (deal : RevertoBacktest.JsDeal ℚ)
    (hs : s.openDeal = some deal) (hm : JsMatches l deal) (t : BacktestState) (d : PaperDeal)
    (htd : OnlyDeal d t) (hmd : PyMatches l d) :
    ((browserFrom config localParts st warmup signals candles cs k s).log =
        (serverFrom cfg sig env data cs k t).log ↔ Rests config cfg cs l) ∧
      (Rests config cfg cs l →
        (browserFrom config localParts st warmup signals candles cs k s).state.closedDeals =
            s.closedDeals ∧
          (serverFrom cfg sig env data cs k t).state.state.closedDeals = t.state.closedDeals) := by
  induction cs generalizing k l s deal t d with
  | nil => exact ⟨⟨fun _ => trivial, fun _ => rfl⟩, fun _ => ⟨rfl, rfl⟩⟩
  | cons c cs ih =>
    obtain ⟨hlow, hclose, hhigh⟩ := hbars c List.mem_cons_self
    have hrange := hclose.trans hhigh
    obtain ⟨⟨_, hresult⟩, _⟩ := BacktestEngine.keeps_candleStep cfg sig env data (c, k) ht t
      (longDeals_of_only l hsound d hmd t htd)
    obtain ⟨hblog, hbstate⟩ := browserFrom_cons config localParts st warmup signals candles c cs k s
    obtain ⟨hslog, hsstate⟩ := serverFrom_cons cfg sig env data c cs k t hresult
    obtain ⟨hbhead, hbnext⟩ := browser_candle config cfg localParts st hst hconfig warmup signals
      candles l hsound deal hm c k s hs
    obtain ⟨hshead, hsnext⟩ := server_candle cfg sig env hno ht data l hsound d hmd c k hk t htd
    have hgoing : l.Inside cfg c →
        (l.fires cfg c = true →
          config.maxOrders.isSome = true ∧ Decimal.HasDecimals 8 (l.nextSize cfg)) →
        ((browserFrom config localParts st warmup signals candles (c :: cs) k s).log =
            (serverFrom cfg sig env data (c :: cs) k t).log ↔ Rests config cfg cs (l.next cfg c)) ∧
          (Rests config cfg cs (l.next cfg c) →
            (browserFrom config localParts st warmup signals candles (c :: cs) k
                s).state.closedDeals = s.closedDeals ∧
              (serverFrom cfg sig env data (c :: cs) k t).state.state.closedDeals =
                t.state.closedDeals) := by
      intro hinside hfill
      obtain ⟨hbpass, hspass⟩ := passes_of_inside config cfg hconfig l c hsound hlow hrange ht hinside
      obtain ⟨hbfilled, ⟨deal', hdeal', hmatch'⟩, hbclosed⟩ := hbnext hbpass
      obtain ⟨hsfilled, ⟨d', hd', hmatchd'⟩, hsclosed⟩ := hsnext hspass
      obtain ⟨hbstep, hsstep⟩ := next_of_fills config cfg l c hfill
      rw [hbstep] at hmatch'
      rw [hsstep] at hmatchd'
      obtain ⟨hiff, hkept⟩ := ih (fun c hc => hbars c (List.mem_cons_of_mem _ hc)) (k + 1) (by omega)
        (l.next cfg c) (hsound.next cfg c hlow hclose hhigh) _ deal' hdeal' hmatch' _ d' hd' hmatchd'
      have hhead : (RevertoBacktest.candleStep st localParts config warmup signals candles
          (c.toJs, k) s).log = (BacktestEngine.candleStep cfg sig env data (c, k) t).log.map
            BacktestEvent.toBrowser := by
        rw [hbfilled, hsfilled, (browserFill_eq_iff config cfg l c).mpr hfill]
      refine ⟨?_, fun hrests => ?_⟩
      · rw [hblog, hslog, hhead, List.append_cancel_left_eq]
        exact hiff
      · obtain ⟨hb, hs⟩ := hkept hrests
        rw [hbstate, hsstate, hb, hs]
        exact ⟨hbclosed, hsclosed⟩
    constructor
    · constructor
      · intro hsame
        rw [hblog, hslog] at hsame
        obtain ⟨hfirst, _⟩ := Program.labelled_append_inj k _ _ _ _
          (browserFrom_labels config localParts st warmup signals candles cs (k + 1) _)
          (serverFrom_labels cfg sig env data cs (k + 1) _) hsame
        have hverdict := congrArg List.head? hfirst
        rw [hbhead, hshead] at hverdict
        obtain ⟨hinside, hfills⟩ := inside_of_verdict config cfg hconfig l c hsound hlow hrange ht _ _
          hverdict
        have hfill := (browserFill_eq_iff config cfg l c).mp hfills
        have hrest := (hgoing hinside hfill).1
        rw [hblog, hslog] at hrest
        exact ⟨hinside, hfill, hrest.mp hsame⟩
      · rintro ⟨hinside, hfill, hrests⟩
        exact (hgoing hinside hfill).1.mpr hrests
    · rintro ⟨hinside, hfill, hrests⟩
      exact (hgoing hinside hfill).2 hrests

end Runs
/-! ### The first deal -/

section Start

variable (st : RevertoBacktest.Settings ℚ) (signals : RevertoBacktest.EntrySignals)
  (candles : List (JsCandle ℚ)) (data : CandlesPerTf)

/-- Both loops pass over the warm-up. -/
theorem browserFrom_skips (cs : List BacktestCandle) (k : ℕ) (s : RevertoBacktest.BrowserState ℚ)
    (hs : s.openDeal = none) :
    browserFrom config localParts st 78 signals candles cs k s =
      browserFrom config localParts st 78 signals candles (cs.drop (78 - k)) (max k 78) s := by
  rw [browserFrom, browserFrom, List.map_drop]
  apply Program.forEach_zipIdx_skips
  intro c k hk
  have hmonitor : RevertoBacktest.monitorDeal st candles c k s = ⟨.ok (), [], s⟩ := by
    rw [RevertoBacktest.monitorDeal, Program.get_bind_run, hs]
    rfl
  have hstep : RevertoBacktest.candleStep st localParts config 78 signals candles (c, k) s =
      ⟨.ok (), [], s⟩ := by
    rw [RevertoBacktest.candleStep, Program.bind_ok _ _ _ () (by rw [hmonitor]), hmonitor,
      RevertoBacktest.checkEntry, Program.get_bind_run, hs]
    dsimp only
    rw [if_neg (by omega)]
    rfl
  rw [Program.relabel, hstep]
  rfl

theorem serverFrom_skips (cs : List BacktestCandle) (k : ℕ) (s : BacktestState) :
    serverFrom cfg sig env data cs k s =
      serverFrom cfg sig env data (cs.drop (78 - k)) (max k 78) s := by
  apply Program.forEach_zipIdx_skips
  intro c k hk
  rw [Program.relabel, BacktestEngine.candleStep_skipped cfg sig env data (c, k) s hk]
  rfl

/-- The browser opens on a candle after the warm-up. -/
theorem browser_opens (hst : BrowserReads config cfg st) (hfilter : config.entryFilter = none)
    (hsignals : ∀ i, signals.combined i = true) (c : BacktestCandle) (k : ℕ) (hk : 78 ≤ k)
    (s : RevertoBacktest.BrowserState ℚ) (hs : s.openDeal = none) :
    (RevertoBacktest.candleStep st localParts config 78 signals candles (c.toJs, k) s).log =
        [.opened c.close cfg.dca.baseOrderSize] ∧
      (∃ deal, (RevertoBacktest.candleStep st localParts config 78 signals candles (c.toJs, k)
          s).state.openDeal = some deal ∧ JsMatches (Ladder.opened cfg c) deal) ∧
      (RevertoBacktest.candleStep st localParts config 78 signals candles (c.toJs, k)
        s).state.closedDeals = s.closedDeals := by
  have hmonitor : RevertoBacktest.monitorDeal st candles c.toJs k s = ⟨.ok (), [], s⟩ := by
    rw [RevertoBacktest.monitorDeal, Program.get_bind_run, hs]
    rfl
  have hallowed : RevertoBacktest.filterAllows localParts config c.toJs.time = true := by
    rw [RevertoBacktest.filterAllows, hfilter]
  have hentry : RevertoBacktest.checkEntry st localParts config 78 signals c.toJs k s =
      RevertoBacktest.openDeal st c.close c.toJs.time k
        (RevertoBacktest.entryTrigger signals (k - 1)) s := by
    rw [RevertoBacktest.checkEntry, Program.get_bind_run, hs]
    dsimp only
    rw [if_pos ⟨hk, by omega, hsignals (k - 1), hallowed⟩]
    rfl
  rw [RevertoBacktest.candleStep, Program.bind_ok _ _ _ () (by rw [hmonitor]), hmonitor, hentry]
  refine ⟨?_, ⟨_, rfl, ?_, rfl, rfl⟩, rfl⟩
  · show [BrowserEvent.opened c.close st.baseSize] = _
    rw [hst.baseSize]
  · show [(c.close, st.baseSize)] = _
    rw [hst.baseSize]
    rfl

/-- The server opens on a candle whose windows enter. -/
theorem server_opens (c : BacktestCandle) (k : ℕ) (hk : BacktestEngine.warmup ≤ k)
    (s : BacktestState) (hs : s.state.openDeals.items = [])
    (henters : BacktestEngine.Enters cfg sig (BacktestEngine.windowsAt data
      (BacktestEngine.advanceAll data c.timestamp s.tfPointers))) :
    (BacktestEngine.candleStep cfg sig env data (c, k) s).result = .ok () ∧
      (BacktestEngine.candleStep cfg sig env data (c, k) s).log.map BacktestEvent.toBrowser =
        [.opened c.close cfg.dca.baseOrderSize] ∧
      (∃ d, OnlyDeal d (BacktestEngine.candleStep cfg sig env data (c, k) s).state ∧
        PyMatches (Ladder.opened cfg c) d) ∧
      (BacktestEngine.candleStep cfg sig env data (c, k) s).state.state.closedDeals =
        s.state.closedDeals := by
  obtain ⟨hcloses, hfired⟩ := henters
  rw [BacktestEngine.candleStep_run cfg sig env data (c, k) s hk]
  dsimp only
  generalize BacktestEngine.windowsAt data
    (BacktestEngine.advanceAll data c.timestamp s.tfPointers) = w at hcloses hfired ⊢
  generalize hs' : ({ s with tfPointers := BacktestEngine.advanceAll data c.timestamp s.tfPointers } :
    BacktestState) = s'
  have hflat : s'.state.openDeals.items = [] := by rw [← hs']; exact hs
  have hclosed : s'.state.closedDeals = s.state.closedDeals := by rw [← hs']
  rw [← hclosed]
  cases hsignal : IndicatorEngine.checkEntrySignal cfg (sig.withOpens w.opensPerTf cfg.timeframe)
      w.candles with
  | mk fired trigger =>
    rw [hsignal] at hfired
    obtain rfl : fired = true := hfired
    have hprocess : BacktestEngine.processCandle cfg sig env k w c s' =
        BacktestEngine.openDeal cfg (env.newDealId k) c.close c.dt trigger s' := by
      rw [BacktestEngine.processCandle_flat cfg sig env k w c s' hflat, BacktestEngine.checkEntry,
        Program.get_bind_run, if_pos ⟨hflat, hcloses⟩, hsignal]
    obtain ⟨hresult, hitems⟩ := BacktestEngine.keeps_openDeal cfg (env.newDealId k) c.close c.dt
      trigger s' hflat
    rw [Program.bind_ok _ _ _ () (by rw [hprocess, hresult]), hprocess]
    exact ⟨rfl, rfl, ⟨BacktestEngine.newDeal cfg (env.newDealId k) c.close c.dt trigger, hitems,
      rfl, rfl, rfl, rfl⟩, rfl⟩

end Start

/-! ### The bot without indicators -/

theorem allGroups_nil (hconfig : config.Loads cfg) (hno : cfg.NoIndicators) :
    RevertoBacktest.allGroups config.entry = [] := by
  have hentry := hno.entry
  rw [hconfig.entry, IndicatorEngine.allIndicators, List.append_eq_nil_iff] at hentry
  have hgroups : config.entry.indicatorGroups.filter (fun g => g.indicators ≠ []) = [] := by
    refine List.filter_eq_nil_iff.mpr fun g hg => ?_
    have hempty := List.flatMap_eq_nil_iff.mp hentry.2 g hg
    simp [hempty]
  simp only [RevertoBacktest.allGroups, hgroups, hentry.1, ne_eq, not_true, if_false]

theorem run_eq (hconfig : config.Loads cfg) (hno : cfg.NoIndicators) :
    RevertoBacktest.run sqrt localParts config (b.bars.map BacktestCandle.toJs) initialBalance =
      some (browserFrom config localParts (RevertoBacktest.settings config) 78 ⟨fun _ => true, []⟩
        (b.bars.map BacktestCandle.toJs) b.bars 0 (RevertoBacktest.init initialBalance)) := by
  have hwarmup : RevertoBacktest.warmupOf (b.bars.map BacktestCandle.toJs).length = 78 := by
    have henough := b.enough
    rw [RevertoBacktest.warmupOf, List.length_map]
    omega
  have htake : (b.bars.map BacktestCandle.toJs).zipIdx.take (b.bars.map BacktestCandle.toJs).length =
      (b.bars.map BacktestCandle.toJs).zipIdx :=
    List.take_of_length_le (by rw [List.length_zipIdx])
  rw [RevertoBacktest.run, RevertoBacktest.runThrough, RevertoBacktest.precomputeSignalArrays,
    if_pos (allGroups_nil config cfg hconfig hno), hwarmup, htake]
  rfl

/-- Every candle after the first one has windows that enter, unless there are empty groups. -/
theorem enters_iff (hno : cfg.NoIndicators) (w : OhlcWindow)
    (hcloses : w.candles.closesPerTf cfg.timeframe ≠ []) :
    BacktestEngine.Enters cfg sig w ↔ cfg.entry.indicatorGroups = [] := by
  have hentry := hno.entry
  rw [IndicatorEngine.allIndicators, List.append_eq_nil_iff] at hentry
  constructor
  · intro henters
    by_contra hgroups
    have hfilter : cfg.entry.indicatorGroups.filter (fun g => g.indicators ≠ []) = [] := by
      refine List.filter_eq_nil_iff.mpr fun g hg => ?_
      have hempty := List.flatMap_eq_nil_iff.mp hentry.2 g hg
      simp [hempty]
    have hfired := henters.2
    rw [IndicatorEngine.checkEntrySignal, if_neg (by simp [hgroups]), hno.entry,
      if_neg (by simp)] at hfired
    dsimp only at hfired
    rw [if_pos hgroups, hfilter] at hfired
    cases hfired
  · intro hgroups
    refine ⟨hcloses, ?_⟩
    rw [IndicatorEngine.checkEntrySignal, if_pos ⟨hno.entry, hgroups⟩]

/-- The candles before one after the first are there. -/
theorem closes_ne_nil (c : BacktestCandle) (k : ℕ) (hk : 0 < k) (hc : b.bars[k]? = some c) :
    (BacktestEngine.windowsAt (b.perTf cfg.timeframe) (BacktestEngine.advanceAll (b.perTf cfg.timeframe)
      c.timestamp fun _ => 0)).candles.closesPerTf cfg.timeframe ≠ [] := by
  have hordered : BacktestEngine.Ordered (b.perTf cfg.timeframe) := by
    intro tf cs hcs
    unfold DrivingBars.perTf at hcs
    split at hcs
    · cases hcs
      exact b.increasing
    · cases hcs
  have hpassed : BacktestEngine.Passed (b.perTf cfg.timeframe) c.timestamp fun _ => 0 :=
    fun tf cs hcs => ⟨Nat.zero_le _, fun e he => by simp at he⟩
  rw [BacktestEngine.windowsAt_advanceAll _ (BacktestEngine.chronological_of_ordered _ hordered) _ _
    hpassed, BacktestEngine.fullWindow_closes]
  have hbefore := Timeline.before_ne_nil BacktestCandle.timestamp b.bars k c b.increasing hc hk
  simpa [BacktestEngine.before, DrivingBars.perTf] using hbefore

theorem perTf_driving :
    BacktestEngine.drivingCandles cfg (b.perTf cfg.timeframe) = b.bars := by
  simp [BacktestEngine.drivingCandles, DrivingBars.perTf]

/-- The server's run returns exactly when its loop does. -/
theorem returns_iff :
    (BacktestEngine.run cfg sig env (b.perTf cfg.timeframe)
        (BacktestEngine.init initialBalance)).result = .ok () ↔
      cfg.takeProfit.targetPct < 100 ∨ ¬ BacktestEngine.EntersEarly cfg sig (b.perTf cfg.timeframe)
        (b.bars.drop BacktestEngine.warmup) (fun _ => 0) := by
  have hloop := BacktestEngine.run_ends_iff cfg sig env (b.perTf cfg.timeframe) initialBalance
  have hsettled := BacktestEngine.settled_iff cfg sig env (b.perTf cfg.timeframe) initialBalance
  rw [perTf_driving] at hloop hsettled
  constructor
  · intro hreturns
    refine hloop.mp ?_
    cases hresult : (Program.forEach (BacktestEngine.candleStep cfg sig env (b.perTf cfg.timeframe))
        b.bars.zipIdx (BacktestEngine.init initialBalance)).result with
    | ok a => rfl
    | error e =>
      rw [BacktestEngine.run, perTf_driving, Program.bind_error _ _ _ e hresult] at hreturns
      cases hreturns
  · intro h
    exact (hsettled.mpr h).ended

theorem soundBars : SoundBars b.bars := fun c hc =>
  ⟨b.low_pos c hc, (b.low_le c hc).2, (b.le_high c hc).2⟩

theorem sound_opened (c : BacktestCandle) (hclose : 0 < c.close) : (Ladder.opened cfg c).Sound where
  orders_ne := List.cons_ne_nil _ _
  orders_pos := by
    intro o ho
    rw [Ladder.opened, List.mem_singleton] at ho
    subst ho
    exact ⟨hclose, cfg.dca.baseOrderSize_pos⟩
  peak_nonneg := le_rfl

/-- The candle after the warm-up and those behind it. -/
theorem drop_warmup : ∃ c next cs, b.bars.drop BacktestEngine.warmup = c :: next :: cs ∧
    b.bars[78]? = some c := by
  have henough := b.enough
  have hlength : (b.bars.drop BacktestEngine.warmup).length = b.bars.length - 78 := List.length_drop
  cases hdrop : b.bars.drop BacktestEngine.warmup with
  | nil =>
    rw [hdrop, List.length_nil] at hlength
    omega
  | cons c cs =>
    cases cs with
    | nil =>
      rw [hdrop, List.length_cons, List.length_nil] at hlength
      omega
    | cons next cs =>
      refine ⟨c, next, cs, rfl, ?_⟩
      have hget : (b.bars.drop BacktestEngine.warmup)[0]? = some c := by rw [hdrop]; rfl
      rwa [List.getElem?_drop] at hget

/-- A server with empty groups never opens. -/
theorem serverLoop_quiet (hno : cfg.NoIndicators) (hgroups : cfg.entry.indicatorGroups ≠ []) :
    (serverLoop cfg sig env b initialBalance).log = [] := by
  have hquiet := BacktestEngine.forEach_quiet cfg sig env (b.perTf cfg.timeframe)
    (fun tfPointers henters => hgroups ((enters_iff cfg sig hno _ henters.1).mp henters))
    b.bars.zipIdx (BacktestEngine.init initialBalance) rfl
  have hlength := (Program.forEach_relabel (fun p : BacktestCandle × ℕ => fun e : BacktestEvent =>
    (p.2, e.toBrowser)) (BacktestEngine.candleStep cfg sig env (b.perTf cfg.timeframe))
    b.bars.zipIdx (BacktestEngine.init initialBalance)).1
  rw [hquiet, List.length_nil] at hlength
  exact List.length_eq_zero_iff.mp hlength

/-- The browser's loop from the start: it opens on the candle after the warm-up. -/
theorem browserLoop_opens (hconfig : config.Loads cfg) (hno : cfg.NoIndicators)
    (c : BacktestCandle) (cs : List BacktestCandle) (hdrop : b.bars.drop 78 = c :: cs) :
    ∃ s deal, s.openDeal = some deal ∧ JsMatches (Ladder.opened cfg c) deal ∧ s.closedDeals = [] ∧
      (browserFrom config localParts (RevertoBacktest.settings config) 78 ⟨fun _ => true, []⟩
        (b.bars.map BacktestCandle.toJs) b.bars 0 (RevertoBacktest.init initialBalance)).log =
        (78, .opened c.close cfg.dca.baseOrderSize) ::
          (browserFrom config localParts (RevertoBacktest.settings config) 78 ⟨fun _ => true, []⟩
            (b.bars.map BacktestCandle.toJs) cs 79 s).log ∧
      (browserFrom config localParts (RevertoBacktest.settings config) 78 ⟨fun _ => true, []⟩
        (b.bars.map BacktestCandle.toJs) b.bars 0 (RevertoBacktest.init initialBalance)).state =
        (browserFrom config localParts (RevertoBacktest.settings config) 78 ⟨fun _ => true, []⟩
          (b.bars.map BacktestCandle.toJs) cs 79 s).state := by
  have hst := settings_reads config cfg hconfig hno
  have hskip := browserFrom_skips config localParts (RevertoBacktest.settings config)
    ⟨fun _ => true, []⟩ (b.bars.map BacktestCandle.toJs) b.bars 0 (RevertoBacktest.init initialBalance)
    rfl
  obtain ⟨hopen, ⟨deal, hdeal, hmatch⟩, hclosed⟩ := browser_opens config cfg localParts
    (RevertoBacktest.settings config) ⟨fun _ => true, []⟩ (b.bars.map BacktestCandle.toJs) hst
    hconfig.noFilter (fun _ => rfl) c 78 le_rfl (RevertoBacktest.init initialBalance) rfl
  obtain ⟨hlog, hstate⟩ := browserFrom_cons config localParts (RevertoBacktest.settings config) 78
    ⟨fun _ => true, []⟩ (b.bars.map BacktestCandle.toJs) c cs 78 (RevertoBacktest.init initialBalance)
  rw [Nat.sub_zero, Nat.zero_max, hdrop] at hskip
  rw [hskip, hlog, hstate, hopen]
  exact ⟨_, deal, hdeal, hmatch, hclosed, rfl, rfl⟩

/-- The server's loop from the start, without empty groups. -/
theorem serverLoop_opens (hno : cfg.NoIndicators) (hgroups : cfg.entry.indicatorGroups = [])
    (c : BacktestCandle) (cs : List BacktestCandle) (hdrop : b.bars.drop 78 = c :: cs)
    (hget : b.bars[78]? = some c) :
    ∃ t d, OnlyDeal d t ∧ PyMatches (Ladder.opened cfg c) d ∧ t.state.closedDeals = [] ∧
      (serverLoop cfg sig env b initialBalance).log =
        (78, .opened c.close cfg.dca.baseOrderSize) ::
          (serverFrom cfg sig env (b.perTf cfg.timeframe) cs 79 t).log ∧
      (serverLoop cfg sig env b initialBalance).state =
        (serverFrom cfg sig env (b.perTf cfg.timeframe) cs 79 t).state := by
  have hskip := serverFrom_skips cfg sig env (b.perTf cfg.timeframe) b.bars 0
    (BacktestEngine.init initialBalance)
  have henters := (enters_iff cfg sig hno _ (closes_ne_nil cfg b c 78 (by norm_num) hget)).mpr hgroups
  obtain ⟨hresult, hopen, ⟨d, hd, hmatch⟩, hclosed⟩ := server_opens cfg sig env (b.perTf cfg.timeframe)
    c 78 le_rfl (BacktestEngine.init initialBalance) rfl henters
  obtain ⟨hlog, hstate⟩ := serverFrom_cons cfg sig env (b.perTf cfg.timeframe) c cs 78
    (BacktestEngine.init initialBalance) hresult
  have hloop : serverLoop cfg sig env b initialBalance = serverFrom cfg sig env (b.perTf cfg.timeframe)
      b.bars 0 (BacktestEngine.init initialBalance) := rfl
  rw [Nat.sub_zero, Nat.zero_max, hdrop] at hskip
  rw [hloop, hskip, hlog, hstate, hopen]
  exact ⟨_, d, hd, hmatch, hclosed, rfl, rfl⟩

/-- The two backtests agree exactly when the first deal rests to the end of the data: then
neither closes anything, and otherwise they part at the first line that is reached. -/
theorem agree_iff (hconfig : config.Loads cfg) (hno : cfg.NoIndicators) :
    Agree config cfg sig env sqrt localParts b initialBalance ↔ AtRest config cfg b := by
  have hst := settings_reads config cfg hconfig hno
  obtain ⟨c, next, cs, hdrop, hget⟩ := drop_warmup b
  have hbars : ∀ e ∈ c :: next :: cs, e ∈ b.bars := by
    rw [← hdrop]
    exact fun e he => List.mem_of_mem_drop he
  have hsound : SoundBars (next :: cs) := fun e he =>
    soundBars b e (hbars e (List.mem_cons_of_mem c he))
  have hclose : 0 < c.close := by
    obtain ⟨hlow, hle, _⟩ := soundBars b c (hbars c List.mem_cons_self)
    exact hlow.trans_le hle
  have hrun := run_eq config cfg sqrt localParts b initialBalance hconfig hno
  obtain ⟨s, deal, hdeal, hmatch, hbclosed, hblog, hbstate⟩ := browserLoop_opens config cfg localParts b
    initialBalance hconfig hno c (next :: cs) hdrop
  -- where the server opens too, the first deal decides
  have hdeals : cfg.entry.indicatorGroups = [] → cfg.takeProfit.targetPct < 100 →
      ((browserFrom config localParts (RevertoBacktest.settings config) 78 ⟨fun _ => true, []⟩
          (b.bars.map BacktestCandle.toJs) b.bars 0 (RevertoBacktest.init initialBalance)).log =
        (serverLoop cfg sig env b initialBalance).log ↔
          Rests config cfg (next :: cs) (Ladder.opened cfg c)) ∧
        (Rests config cfg (next :: cs) (Ladder.opened cfg c) →
          (browserFrom config localParts (RevertoBacktest.settings config) 78 ⟨fun _ => true, []⟩
            (b.bars.map BacktestCandle.toJs) b.bars 0
            (RevertoBacktest.init initialBalance)).state.closedDeals = [] ∧
          (serverLoop cfg sig env b initialBalance).state.state.closedDeals = []) := by
    intro hgroups htarget
    obtain ⟨t, d, hd, hmatchd, hsclosed, hslog, hsstate⟩ := serverLoop_opens cfg sig env b
      initialBalance hno hgroups c (next :: cs) hdrop hget
    obtain ⟨hiff, hkept⟩ := same_iff_rests config cfg sig env localParts
      (RevertoBacktest.settings config) hst 78 ⟨fun _ => true, []⟩ (b.bars.map BacktestCandle.toJs)
      (b.perTf cfg.timeframe) hconfig hno htarget (next :: cs) hsound 79 (by decide)
      (Ladder.opened cfg c) (sound_opened cfg c hclose) s deal hdeal hmatch t d hd hmatchd
    rw [hblog, hslog, hbstate, hsstate, List.cons.injEq, hiff]
    refine ⟨⟨fun h => h.2, fun h => ⟨rfl, h⟩⟩, fun hrests => ?_⟩
    obtain ⟨hb, hs⟩ := hkept hrests
    rw [hb, hs]
    exact ⟨hbclosed, hsclosed⟩
  constructor
  · rintro ⟨hreturns, o, ho, hlog, _⟩
    rw [hrun] at ho
    obtain rfl := Option.some.inj ho
    have hgroups : cfg.entry.indicatorGroups = [] := by
      by_contra hgroups
      rw [serverLoop_quiet cfg sig env b initialBalance hno hgroups, hblog] at hlog
      cases hlog
    have hearly : BacktestEngine.EntersEarly cfg sig (b.perTf cfg.timeframe)
        (b.bars.drop BacktestEngine.warmup) fun _ => 0 := by
      rw [hdrop]
      exact .inl ((enters_iff cfg sig hno _ (closes_ne_nil cfg b c 78 (by norm_num) hget)).mpr hgroups)
    have htarget := ((returns_iff cfg sig env b initialBalance).mp hreturns).resolve_right
      (not_not.mpr hearly)
    refine ⟨hgroups, htarget, fun c' cs' hcs => ?_⟩
    rw [hdrop] at hcs
    injection hcs with hc hcs
    rw [← hc, ← hcs]
    exact (hdeals hgroups htarget).1.mp hlog
  · intro hrest
    have hrests := hrest.rests c (next :: cs) hdrop
    obtain ⟨hiff, hclosed⟩ := hdeals hrest.noGroups hrest.target
    obtain ⟨hb, hs⟩ := hclosed hrests
    refine ⟨(returns_iff cfg sig env b initialBalance).mpr (.inl hrest.target), _, hrun,
      hiff.mpr hrests, ?_⟩
    rw [hb, hs]
    rfl

/-! ### A bot that agrees and a bot that does not -/

/-- Hourly candles without a range. -/
def flatBars (closes : List ℚ) (hpos : ∀ p ∈ closes, 0 < p) (henough : 312 ≤ closes.length) :
    DrivingBars :=
  have hmem : ∀ c ∈ BacktestEngine.clockCandles .h1 0 closes,
      ∃ p ∈ closes, c.open = p ∧ c.high = p ∧ c.low = p ∧ c.close = p := by
    intro c hc
    obtain ⟨q, hq, rfl⟩ := List.mem_map.mp hc
    exact ⟨q.1, (List.mem_zipIdx hq).2.2 ▸ List.getElem_mem _, rfl, rfl, rfl, rfl⟩
  { bars := BacktestEngine.clockCandles .h1 0 closes
    increasing := BacktestEngine.increasing_clockCandles .h1 0 closes
    low_pos := by
      intro c hc
      obtain ⟨p, hp, _, _, hlow, _⟩ := hmem c hc
      exact hlow ▸ hpos p hp
    low_le := by
      intro c hc
      obtain ⟨p, _, hopen, _, hlow, hclose⟩ := hmem c hc
      rw [hlow, hopen, hclose]
      exact ⟨le_rfl, le_rfl⟩
    le_high := by
      intro c hc
      obtain ⟨p, _, hopen, hhigh, _, hclose⟩ := hmem c hc
      rw [hhigh, hopen, hclose]
      exact ⟨le_rfl, le_rfl⟩
    enough := by
      rw [BacktestEngine.clockCandles, List.length_map, List.length_zipIdx]
      exact henough }

/-- A bot block with a base order and a number of orders. -/
def smallBlock : BrowserConfig := { baseOrderSize := some (1 / 100), maxOrders := some 5 }

theorem smallBlock_loads : smallBlock.Loads (.small "agreement") := by
  constructor <;> rfl

theorem smallBlock_noIndicators : (BotConfig.small "agreement").NoIndicators :=
  ⟨rfl, fun _ hg => absurd hg List.not_mem_nil⟩

/-- Candles that reach no line and fill nothing let the ladder rest. -/
theorem rests_still (cs : List BacktestCandle) (l : Ladder) (htype : cfg.stopLoss.type ≠ .trailing)
    (h : ∀ c ∈ cs, l.Inside cfg c ∧ l.fires cfg c = false) : Rests config cfg cs l := by
  induction cs with
  | nil => trivial
  | cons c cs ih =>
    obtain ⟨hinside, hfires⟩ := h c List.mem_cons_self
    have hnext : l.next cfg c = l := by
      rw [Ladder.next, hfires, Ladder.step, if_neg htype]
      simp
    refine ⟨hinside, fun hf => absurd (hfires.symm.trans hf) (by simp), ?_⟩
    rw [hnext]
    exact ih fun c hc => h c (List.mem_cons_of_mem _ hc)

/-- A price that stays where it is. -/
def stillBars : DrivingBars :=
  flatBars (List.replicate 312 100) (fun p hp => by rw [List.eq_of_mem_replicate hp]; norm_num)
    (by rw [List.length_replicate])

/-- A price that rises by a tenth after the first deal is opened. -/
def risingBars : DrivingBars :=
  flatBars (List.replicate 79 100 ++ List.replicate 233 110)
    (fun p hp => by
      rcases List.mem_append.mp hp with hp | hp <;> rw [List.eq_of_mem_replicate hp] <;> norm_num)
    (by rw [List.length_append, List.length_replicate, List.length_replicate])

theorem atRest_still : AtRest smallBlock (.small "agreement") stillBars := by
  refine ⟨rfl, by decide +kernel, fun c cs hdrop => ?_⟩
  have hprice : ∀ e ∈ c :: cs, e.high = 100 ∧ e.low = 100 ∧ e.close = 100 := by
    intro e he
    rw [← hdrop] at he
    obtain ⟨q, hq, rfl⟩ := List.mem_map.mp (List.mem_of_mem_drop he)
    have hmem : q.1 ∈ List.replicate 312 (100 : ℚ) := (List.mem_zipIdx hq).2.2 ▸ List.getElem_mem _
    exact ⟨List.eq_of_mem_replicate hmem, List.eq_of_mem_replicate hmem, List.eq_of_mem_replicate hmem⟩
  refine rests_still _ _ cs _ (by decide) fun e he => ?_
  obtain ⟨hhigh, hlow, hclose⟩ := hprice e (List.mem_cons_of_mem c he)
  have hopened : Ladder.opened (.small "agreement") c = ⟨[(100, 1 / 100)], 0⟩ := by
    rw [Ladder.opened, (hprice c List.mem_cons_self).2.2]
    rfl
  have haverage : (⟨[(100, 1 / 100)], 0⟩ : Ladder).average = 100 := by decide +kernel
  rw [hopened]
  refine ⟨⟨fun _ _ => ?_, fun ref href => ?_⟩, ?_⟩
  · rw [hhigh, haverage]
    decide +kernel
  · have hfixed : (BotConfig.small "agreement").stopLoss.type = .fixed := rfl
    rw [Ladder.reference, hfixed] at href
    rw [← Option.some.inj href, hlow, haverage]
    decide +kernel
  · rw [Ladder.fires, Ladder.due]
    dsimp only [List.getLast?_singleton]
    rw [hclose]
    decide +kernel

theorem agree_still :
    Agree smallBlock (.small "agreement") .silent ⟨fun _ => "deal", fun _ => 0⟩ id (fun _ => (0, 0))
      stillBars 1 :=
  (agree_iff _ _ _ _ _ _ _ _ smallBlock_loads smallBlock_noIndicators).mpr atRest_still

/-- The browser takes profit at 103, the server at 103.09. -/
theorem not_agree_rising :
    ¬ Agree smallBlock (.small "agreement") .silent ⟨fun _ => "deal", fun _ => 0⟩ id
      (fun _ => (0, 0)) risingBars 1 := by
  rintro ⟨_, o, ho, hlog, _⟩
  have hbrowser : ((RevertoBacktest.run id (fun _ => (0, 0)) smallBlock
      (risingBars.bars.map BacktestCandle.toJs) 1).map fun o => o.log[1]?) =
        some (some (79, .closed 103 .tp)) := by decide +kernel
  have hserver : (serverLoop (.small "agreement") .silent ⟨fun _ => "deal", fun _ => 0⟩ risingBars
      1).log[1]? = some (79, .closed (10000 / 97) .tp) := by decide +kernel
  rw [ho, Option.map_some, hlog, hserver] at hbrowser
  revert hbrowser
  decide +kernel

end BacktestAgreement

end Reverto
