import Mathlib.Tactic
import Reverto.Backtest.Accounts
import Reverto.Web.BacktestLines

/-!
# The two backtests at a candle (web/static/app.js, backtest/backtest_engine.py)

What each engine does at a candle that meets an open deal with the fills of a ladder:
its verdict on the lines first, and where no line is reached the next step of the ladder.
-/

namespace Reverto

open Script

namespace BacktestAgreement

variable (config : BrowserConfig) (cfg : BotConfig) (sig : Signals) (env : BacktestEnv)
  (localParts : ℤ → ℕ × ℕ)

/-! ### The browser at a candle -/

section Browser

open RevertoBacktest

theorem truthyOr_getD {α : Type} [Zero α] [DecidableEq α] (x : Option α) (d : α)
    (h : x.getD d ≠ 0) : truthyOr x d = x.getD d := by
  cases x with
  | none => rfl
  | some a => exact truthyOr_some a d h

/-- What the constructor takes from a bot block that the Python model reads too. -/
structure BrowserReads (st : Settings ℚ) : Prop where
  tpEnabled : st.tpEnabled = cfg.takeProfit.enabled
  tpPct : st.tpPct = cfg.takeProfit.targetPct
  tpPriceEnabled : st.tpPriceEnabled = cfg.takeProfit.priceEnabled
  tpIndGroups : st.tpIndGroups = []
  slPct : st.slPct = truthyOr config.slPct 5
  slType : st.slType = cfg.stopLoss.type
  dcaEnabled : st.dcaEnabled = cfg.dca.enabled
  baseSize : st.baseSize = cfg.dca.baseOrderSize
  maxOrders : st.maxOrders = truthyOr config.maxOrders 1
  spacing : st.spacing = cfg.dca.orderSpacingPct
  stepScale : st.stepScale = cfg.dca.stepScale
  mult : st.mult = cfg.dca.multiplier

theorem settings_reads (hconfig : config.Loads cfg) (hno : cfg.NoIndicators) :
    BrowserReads config cfg (settings config) where
  tpEnabled := hconfig.tpEnabled.symm
  tpPct := by
    have hpos := cfg.takeProfit.targetPct_pos.ne'
    rw [hconfig.tpTargetPct] at hpos ⊢
    exact truthyOr_getD config.tpTargetPct 3 hpos
  tpPriceEnabled := hconfig.tpPriceEnabled.symm
  tpIndGroups := by
    have hempty := hno.takeProfit
    rw [hconfig.tpIndicatorGroups] at hempty
    exact List.filter_eq_nil_iff.mpr fun g hg => by simp [hempty g hg]
  slPct := rfl
  slType := hconfig.slType.symm
  dcaEnabled := hconfig.dcaEnabled.symm
  baseSize := by
    show truthyOr config.baseOrderSize (1 / 1000) = _
    rw [hconfig.baseOrderSize]
    exact truthyOr_some _ _ cfg.dca.baseOrderSize_pos.ne'
  maxOrders := rfl
  spacing := by
    have hpos := cfg.dca.orderSpacingPct_pos.ne'
    rw [hconfig.orderSpacingPct] at hpos ⊢
    exact truthyOr_getD config.orderSpacingPct (5 / 2) hpos
  stepScale := hconfig.stepScale.symm
  mult := by
    have hpos := cfg.dca.multiplier_pos.ne'
    rw [hconfig.multiplier] at hpos ⊢
    exact truthyOr_getD config.multiplier 1 hpos

/-- The open deal of the browser has the fills and the peak of the ladder. -/
structure JsMatches (l : Ladder) (deal : JsDeal ℚ) : Prop where
  orders : deal.orders.map (fun o => (o.price, o.size)) = l.orders
  count : deal.dcaCount = l.orders.length - 1
  peak : deal.peakPrice = l.peak

theorem totalSize_eq (orders : List (JsOrder ℚ)) : totalSize orders = (orders.map JsOrder.size).sum := by
  rw [totalSize, List.sum_eq_foldl, List.foldl_map]
  rfl

theorem avgEntry_eq (orders : List (JsOrder ℚ)) :
    avgEntry orders =
      WeightedMean.mean Prod.fst Prod.snd (orders.map fun o => (o.price, o.size)) := by
  have hvalue : orders.foldl (fun totVal o => totVal + o.size * o.price) (ofRat 0) =
      (orders.map fun o => o.price * o.size).sum := by
    rw [List.sum_eq_foldl, List.foldl_map]
    simp only [mul_comm, ofRat_rat]
  rw [avgEntry, hvalue, totalSize_eq, WeightedMean.mean, WeightedMean.total, List.map_map,
    List.map_map]
  rfl

theorem JsMatches.avgEntry_eq {l : Ladder} {deal : JsDeal ℚ} (h : JsMatches l deal) :
    avgEntry deal.orders = l.average := by
  rw [BacktestAgreement.avgEntry_eq, h.orders]
  rfl

theorem newPeak_eq (l : Ladder) (deal : JsDeal ℚ) (hm : JsMatches l deal) (c : BacktestCandle) :
    newPeak deal c.toJs = l.peakAfter c := by
  have hpeak : newPeak deal c.toJs =
      if (if l.peak = 0 then c.open else l.peak) < c.high then c.high
      else if l.peak = 0 then c.open else l.peak := by
    rw [newPeak, hm.peak]
    rfl
  rw [hpeak, Ladder.peakAfter]
  generalize (if l.peak = 0 then c.open else l.peak) = peak
  split
  · rename_i hlt
    exact (max_eq_right hlt.le).symm
  · rename_i hle
    exact (max_eq_left (not_lt.mp hle)).symm

variable (st : Settings ℚ) (hst : BrowserReads config cfg st)
include hst

/-- The browser takes profit at its line. -/
theorem checkTp_hit (candles : List (JsCandle ℚ)) (l : Ladder) (deal : JsDeal ℚ)
    (hm : JsMatches l deal) (c : BacktestCandle) (i : ℕ) (s : BrowserState ℚ)
    (h : tpOn cfg = true ∧ browserTp cfg l ≤ c.high) :
    (checkTp st candles deal c.toJs i s).result = .ok true ∧
      (checkTp st candles deal c.toJs i s).log = [.closed (browserTp cfg l) .tp] := by
  obtain ⟨hon, hreached⟩ := h
  obtain ⟨henabled, hprice⟩ := Bool.and_eq_true_iff.mp hon
  have hline : avgEntry deal.orders * (ofRat 1 + st.tpPct / ofRat 100) = browserTp cfg l := by
    rw [hm.avgEntry_eq, hst.tpPct]
    rfl
  have hhit : st.tpPriceEnabled = true ∧
      avgEntry deal.orders * (ofRat 1 + st.tpPct / ofRat 100) ≤ c.toJs.high := by
    rw [hline, hst.tpPriceEnabled]
    exact ⟨hprice, hreached⟩
  have hrun : checkTp st candles deal c.toJs i =
      (closeDeal st deal (avgEntry deal.orders * (ofRat 1 + st.tpPct / ofRat 100)) .tp c.toJs.time
        "price_tp" >>= fun _ => pure true) := by
    rw [checkTp, if_neg (by rw [hst.tpEnabled, henabled]; simp)]
    exact if_pos hhit
  rw [hrun, hline]
  exact ⟨rfl, rfl⟩

theorem checkTp_miss (candles : List (JsCandle ℚ)) (l : Ladder) (deal : JsDeal ℚ)
    (hm : JsMatches l deal) (c : BacktestCandle) (i : ℕ) (s : BrowserState ℚ)
    (h : ¬ (tpOn cfg = true ∧ browserTp cfg l ≤ c.high)) :
    checkTp st candles deal c.toJs i s = ⟨.ok false, [], s⟩ := by
  have hline : avgEntry deal.orders * (ofRat 1 + st.tpPct / ofRat 100) = browserTp cfg l := by
    rw [hm.avgEntry_eq, hst.tpPct]
    rfl
  have hgroups : tpGroupHit st candles i = false := by
    rw [tpGroupHit, hst.tpIndGroups]
    rfl
  unfold checkTp
  split
  · rfl
  · rename_i henabled
    have hmiss : ¬ (st.tpPriceEnabled = true ∧
        avgEntry deal.orders * (ofRat 1 + st.tpPct / ofRat 100) ≤ c.toJs.high) := by
      rw [hline, hst.tpPriceEnabled]
      rintro ⟨hprice, hreached⟩
      rw [hst.tpEnabled, Bool.not_eq_false] at henabled
      exact h ⟨by rw [tpOn, henabled, hprice]; rfl, hreached⟩
    simp only [if_neg hmiss, hgroups, Bool.false_eq_true, if_false]
    rfl

/-- A stop measured from the reference of the ladder. -/
theorem stopAt_run (l : Ladder) (deal : JsDeal ℚ) (c : BacktestCandle) (ref : ℚ)
    (s : BrowserState ℚ) (href : l.reference cfg c = some ref) :
    (∃ line ∈ browserSl config cfg l c, c.low ≤ line ∧
        (stopAt st deal c.toJs ref s).result = .ok true ∧
        (stopAt st deal c.toJs ref s).log = [.closed line .sl]) ∨
      (∀ line ∈ browserSl config cfg l c, line < c.low) ∧
        stopAt st deal c.toJs ref s = ⟨.ok false, [], s⟩ := by
  have hline : browserSl config cfg l c = some (ref * (1 - st.slPct / 100)) := by
    rw [browserSl, href, hst.slPct]
    rfl
  rw [hline]
  by_cases hreached : c.low ≤ ref * (1 - st.slPct / 100)
  · refine .inl ⟨_, rfl, hreached, ?_⟩
    have hrun : stopAt st deal c.toJs ref =
        (closeDeal st deal (ref * (1 - st.slPct / 100)) .sl c.toJs.time "price_sl" >>= fun _ =>
          pure true) := if_pos hreached
    rw [hrun]
    exact ⟨rfl, rfl⟩
  · have hrun : stopAt st deal c.toJs ref = pure false := if_neg hreached
    refine .inr ⟨?_, by rw [hrun]; rfl⟩
    rintro line ⟨rfl⟩
    exact not_le.mp hreached

/-- The browser's stop: it closes at its line, or the candle only moves the peak. -/
theorem checkSl_run (l : Ladder) (deal : JsDeal ℚ) (hm : JsMatches l deal) (c : BacktestCandle)
    (s : BrowserState ℚ) (hs : s.openDeal = some deal) :
    (∃ line ∈ browserSl config cfg l c, c.low ≤ line ∧
        (checkSl st deal c.toJs s).result = .ok true ∧
        (checkSl st deal c.toJs s).log = [.closed line .sl]) ∨
      (∀ line ∈ browserSl config cfg l c, line < c.low) ∧
        (checkSl st deal c.toJs s).result = .ok false ∧ (checkSl st deal c.toJs s).log = [] ∧
        (checkSl st deal c.toJs s).state.openDeal =
          some { deal with peakPrice := (l.step cfg c none).peak } ∧
        (checkSl st deal c.toJs s).state.closedDeals = s.closedDeals := by
  have hsame : ∀ p, p = l.peak → some { deal with peakPrice := p } = s.openDeal := by
    rintro p rfl
    rw [hs, ← hm.peak]
  cases hsl : cfg.stopLoss.type with
  | none =>
    have hrun : checkSl st deal c.toJs s = ⟨.ok false, [], s⟩ := by
      rw [checkSl, hst.slType, hsl]
      rfl
    have hline : browserSl config cfg l c = none := by
      rw [browserSl, Ladder.reference, hsl]
      rfl
    have hpeak : (l.step cfg c none).peak = l.peak := if_neg (by rw [hsl]; simp)
    rw [hrun, hline]
    exact .inr ⟨fun line h => absurd h (by simp), rfl, rfl, (hsame _ hpeak).symm, rfl⟩
  | fixed =>
    have href : l.reference cfg c = some l.average := by rw [Ladder.reference, hsl]
    have hrun : checkSl st deal c.toJs s = stopAt st deal c.toJs l.average s := by
      rw [checkSl, hst.slType, hsl, ← hm.avgEntry_eq]
    have hpeak : (l.step cfg c none).peak = l.peak := if_neg (by rw [hsl]; simp)
    rw [hrun]
    rcases stopAt_run config cfg st hst l deal c l.average s href with hstop | ⟨hpass, hstop⟩
    · exact .inl hstop
    · rw [hstop]
      exact .inr ⟨hpass, rfl, rfl, (hsame _ hpeak).symm, rfl⟩
  | trailing =>
    have href : l.reference cfg c = some (l.peakAfter c) := by rw [Ladder.reference, hsl]
    have hrun : checkSl st deal c.toJs s =
        stopAt st { deal with peakPrice := l.peakAfter c } c.toJs (l.peakAfter c)
          { s with openDeal := some { deal with peakPrice := l.peakAfter c } } := by
      rw [checkSl, hst.slType, hsl, ← newPeak_eq l deal hm c]
      rfl
    have hpeak : (l.step cfg c none).peak = l.peakAfter c := if_pos hsl
    rw [hrun]
    rcases stopAt_run config cfg st hst l { deal with peakPrice := l.peakAfter c } c (l.peakAfter c)
      { s with openDeal := some { deal with peakPrice := l.peakAfter c } } href with hstop | ⟨hpass, hstop⟩
    · exact .inl hstop
    · rw [hstop, hpeak]
      exact .inr ⟨hpass, rfl, rfl, rfl, rfl⟩

/-- The browser's order is due. -/
theorem browserFires_eq (hconfig : config.Loads cfg) (l : Ladder) (hsound : l.Sound)
    (deal : JsDeal ℚ) (horders : deal.orders.map (fun o => (o.price, o.size)) = l.orders)
    (hcount : deal.dcaCount = l.orders.length - 1) (c : BacktestCandle) :
    (l.fires cfg c && config.maxOrders.isSome) =
      (st.dcaEnabled && (!decide (st.maxOrders ≤ 1) && !decide (st.maxOrders - 1 ≤ deal.dcaCount)) &&
        dcaDue st deal c.toJs) := by
  have hdue : dcaDue st deal c.toJs = l.due cfg c := by
    rw [dcaDue, Ladder.due, ← horders, List.getLast?_map, hst.spacing, hst.stepScale, hcount,
      ← horders]
    cases deal.orders.getLast? with
    | none => rfl
    | some last => rfl
  rw [hdue, Ladder.fires, hst.dcaEnabled, hst.maxOrders, hcount]
  have hmax := hconfig.maxOrders
  cases hm : config.maxOrders with
  | none => simp [truthyOr]
  | some m =>
    rw [hm, Option.getD_some] at hmax
    rw [hmax, room_eq l hsound]
    by_cases hzero : m = 0
    · simp [truthyOr, hzero]
    · rw [truthyOr_some m 1 hzero, Option.isSome_some, Bool.and_true]

/-- The browser's order, where its deal has the fills of the ladder. -/
theorem checkDca_run (hconfig : config.Loads cfg) (l : Ladder) (hsound : l.Sound) (deal : JsDeal ℚ)
    (horders : deal.orders.map (fun o => (o.price, o.size)) = l.orders)
    (hcount : deal.dcaCount = l.orders.length - 1) (c : BacktestCandle) (s : BrowserState ℚ)
    (hs : s.openDeal = some deal) (hpeak : deal.peakPrice = (l.step cfg c none).peak) :
    (checkDca st deal c.toJs s).log =
        ((browserFill config cfg l c).map (.dcaFilled c.close)).toList ∧
      (∃ deal', (checkDca st deal c.toJs s).state.openDeal = some deal' ∧
        JsMatches (l.step cfg c (browserFill config cfg l c)) deal') ∧
      (checkDca st deal c.toJs s).state.closedDeals = s.closedDeals := by
  have hlength := hsound.length_pos
  have hfires := browserFires_eq config cfg st hst hconfig l hsound deal horders hcount c
  cases hfill : (l.fires cfg c && config.maxOrders.isSome) with
  | false =>
    have hnone : browserFill config cfg l c = none := by rw [browserFill, hfill]; rfl
    have hnext : (l.step cfg c none).orders = l.orders := List.append_nil _
    have hrun : checkDca st deal c.toJs s = ⟨.ok (), [], s⟩ := by
      rw [hfill] at hfires
      unfold checkDca
      split
      · rfl
      split
      · rfl
      split
      · rfl
      rename_i henabled hone hroom
      rw [Bool.not_eq_false] at henabled
      have hdue : dcaDue st deal c.toJs = false := by simpa [henabled, hone, hroom] using hfires.symm
      rw [hdue]
      rfl
    rw [hrun, hnone]
    exact ⟨rfl, ⟨deal, hs, by rw [hnext, horders], by rw [hnext, hcount], hpeak⟩, rfl⟩
  | true =>
    have hsome : browserFill config cfg l c = some (l.nextSize cfg) := by rw [browserFill, hfill]; rfl
    have hsize : st.baseSize * ScriptNumber.pow st.mult deal.dcaCount = l.nextSize cfg := by
      rw [hst.baseSize, hst.mult, hcount]
      rfl
    rw [hfill] at hfires
    simp only [Bool.true_eq, Bool.and_eq_true, Bool.not_eq_true', decide_eq_false_iff_not] at hfires
    obtain ⟨⟨henabled, hone, hroom⟩, hdue⟩ := hfires
    have hrun : checkDca st deal c.toJs s =
        ⟨.ok (), [.dcaFilled c.close (l.nextSize cfg)],
          { s with
            balanceBtc := s.balanceBtc - calcFee st (l.nextSize cfg)
            feesPaidBtc := s.feesPaidBtc + calcFee st (l.nextSize cfg)
            openDeal := some
              { deal with
                dcaFeesBtc := deal.dcaFeesBtc + calcFee st (l.nextSize cfg)
                orders := deal.orders ++ [⟨c.close, l.nextSize cfg, .dca⟩]
                dcaCount := deal.dcaCount + 1 } }⟩ := by
      rw [checkDca, if_neg (by rw [henabled]; simp), if_neg hone, if_neg hroom, if_pos hdue, hsize]
      rfl
    rw [hrun, hsome]
    refine ⟨rfl, ⟨_, rfl, ?_, ?_, hpeak⟩, rfl⟩
    · simp [Ladder.step, horders]
    · simp only [Ladder.step, Option.toList_some, List.map_cons, List.map_nil, List.length_append,
        List.length_cons, List.length_nil, hcount]
      omega

/-- The browser monitors its deal: it does what the verdict says, and where no line is
reached the deal follows the ladder. -/
theorem monitorDeal_run (hconfig : config.Loads cfg) (candles : List (JsCandle ℚ)) (l : Ladder)
    (hsound : l.Sound) (deal : JsDeal ℚ) (hm : JsMatches l deal) (c : BacktestCandle) (i : ℕ)
    (s : BrowserState ℚ) (hs : s.openDeal = some deal) :
    (monitorDeal st candles c.toJs i s).log =
        (verdict (tpOn cfg) (browserTp cfg l) (browserSl config cfg l c)
          (browserFill config cfg l c) c).toList ∧
      (Passes (tpOn cfg) (browserTp cfg l) (browserSl config cfg l c) c →
        (∃ deal', (monitorDeal st candles c.toJs i s).state.openDeal = some deal' ∧
          JsMatches (l.step cfg c (browserFill config cfg l c)) deal') ∧
        (monitorDeal st candles c.toJs i s).state.closedDeals = s.closedDeals) := by
  rw [monitorDeal, Program.get_bind_run, hs]
  dsimp only
  by_cases htp : tpOn cfg = true ∧ browserTp cfg l ≤ c.high
  · obtain ⟨hresult, hlog⟩ := checkTp_hit config cfg st hst candles l deal hm c i s htp
    rw [Program.bind_ok _ _ _ true hresult, hlog, verdict_tp _ _ _ _ _ htp]
    exact ⟨rfl, fun hpass => absurd htp hpass.1⟩
  · have hmiss := checkTp_miss config cfg st hst candles l deal hm c i s htp
    rw [Program.bind_ok _ _ _ false (by rw [hmiss]), hmiss]
    simp only [Bool.false_eq_true, if_false, List.nil_append]
    rcases checkSl_run config cfg st hst l deal hm c s hs with
      ⟨line, hline, hreached, hresult, hlog⟩ | ⟨hpass, hresult, hlog, hopen, hclosed⟩
    · rw [Program.bind_ok _ _ _ true hresult, hlog]
      rw [Option.mem_def] at hline
      rw [hline, verdict_sl _ _ _ _ _ htp hreached]
      exact ⟨rfl, fun hpass => absurd (hpass.2 line rfl) (not_lt.mpr hreached)⟩
    · rw [Program.bind_ok _ _ _ false hresult, hlog]
      simp only [Bool.false_eq_true, if_false, List.nil_append, Program.get_bind_run, hopen]
      obtain ⟨hfilled, hnext, hsame⟩ := checkDca_run config cfg st hst hconfig l hsound
        { deal with peakPrice := (l.step cfg c none).peak } hm.orders hm.count c
        (checkSl st deal c.toJs s).state hopen rfl
      rw [verdict_passes _ _ _ _ _ ⟨htp, hpass⟩]
      exact ⟨hfilled, fun _ => ⟨hnext, hsame.trans hclosed⟩⟩

/-- The browser at a candle with an open deal. -/
theorem browser_candle (hconfig : config.Loads cfg) (warmup : ℕ) (signals : EntrySignals)
    (candles : List (JsCandle ℚ)) (l : Ladder) (hsound : l.Sound) (deal : JsDeal ℚ)
    (hm : JsMatches l deal) (c : BacktestCandle) (i : ℕ) (s : BrowserState ℚ)
    (hs : s.openDeal = some deal) :
    (candleStep st localParts config warmup signals candles (c.toJs, i) s).log.head? =
        verdict (tpOn cfg) (browserTp cfg l) (browserSl config cfg l c)
          (browserFill config cfg l c) c ∧
      (Passes (tpOn cfg) (browserTp cfg l) (browserSl config cfg l c) c →
        (candleStep st localParts config warmup signals candles (c.toJs, i) s).log =
            ((browserFill config cfg l c).map (.dcaFilled c.close)).toList ∧
          (∃ deal', (candleStep st localParts config warmup signals candles (c.toJs, i)
              s).state.openDeal = some deal' ∧
            JsMatches (l.step cfg c (browserFill config cfg l c)) deal') ∧
          (candleStep st localParts config warmup signals candles (c.toJs, i) s).state.closedDeals =
            s.closedDeals) := by
  obtain ⟨hlog, hrest⟩ := monitorDeal_run config cfg st hst hconfig candles l hsound deal hm c i s hs
  have hresult : (monitorDeal st candles c.toJs i s).result = .ok () := by
    cases (monitorDeal st candles c.toJs i s).result with
    | error e => exact e.elim
    | ok a => rfl
  have hidle : ∀ t : BrowserState ℚ, t.openDeal.isSome = true →
      checkEntry st localParts config warmup signals c.toJs i t = ⟨.ok (), [], t⟩ := by
    intro t ht
    obtain ⟨deal', hdeal'⟩ := Option.isSome_iff_exists.mp ht
    rw [checkEntry, Program.get_bind_run, hdeal']
    rfl
  rw [candleStep, Program.bind_ok _ _ _ () hresult]
  by_cases hpass : Passes (tpOn cfg) (browserTp cfg l) (browserSl config cfg l c) c
  · obtain ⟨⟨deal', hopen, hmatch⟩, hclosed⟩ := hrest hpass
    rw [verdict_passes _ _ _ _ _ hpass] at hlog ⊢
    rw [hidle _ (by rw [hopen]; rfl)]
    dsimp only
    rw [hlog, List.append_nil]
    refine ⟨?_, fun _ => ⟨rfl, ⟨deal', hopen, hmatch⟩, hclosed⟩⟩
    cases browserFill config cfg l c <;> rfl
  · have hsome := verdict_closes _ _ _ (browserFill config cfg l c) c hpass
    obtain ⟨e, he⟩ := Option.isSome_iff_exists.mp hsome
    rw [he] at hlog ⊢
    rw [hlog]
    exact ⟨rfl, fun h => absurd h hpass⟩

end Browser

/-! ### The server at a candle -/

section Server

open BacktestEngine

/-- The open deal of the server has the fills and the peak of the ladder. -/
structure PyMatches (l : Ladder) (d : PaperDeal) : Prop where
  orders : d.orders.map (fun o => (o.price, o.size)) = l.orders
  count : d.dcaCount = l.orders.length - 1
  peak : d.peakPrice = l.peak
  side : d.side = .long

theorem PyMatches.avgEntryPrice_eq {l : Ladder} {d : PaperDeal} (h : PyMatches l d)
    (hsound : l.Sound) : d.avgEntryPrice = l.average := by
  have hne : d.orders ≠ [] := by
    intro hnil
    refine hsound.orders_ne ?_
    rw [← h.orders, hnil]
    rfl
  rw [PaperDeal.avgEntryPrice, if_neg hne, PaperDeal.totalSize, Ladder.average, WeightedMean.mean,
    WeightedMean.total, ← h.orders, List.map_map, List.map_map]
  rfl

/-- The deal is the only open one. -/
def OnlyDeal (d : PaperDeal) (s : BacktestState) : Prop := s.state.openDeals.items = [d]

theorem OnlyDeal.get {d : PaperDeal} {s : BacktestState} (h : OnlyDeal d s) :
    s.state.openDeals.get? d.id = some d := by
  rw [KeyedDict.get?, h]
  simp

theorem OnlyDeal.update {d : PaperDeal} {s : BacktestState} (h : OnlyDeal d s)
    (f : PaperDeal → PaperDeal) (hf : ∀ e, (f e).id = e.id) :
    OnlyDeal (f d) (onState (fun s => s.updateDeal d.id f hf) s) := by
  show (s.state.openDeals.modify d.id f hf).items = [f d]
  rw [KeyedDict.modify, KeyedDict.mapValues_items, h]
  simp

theorem closeDeal_log (now : Instant) (d : PaperDeal) (price : ℚ) (reason : CloseReason)
    (trigger : ExitTrigger) (s : BacktestState) (h : OnlyDeal d s) :
    (closeDeal cfg now d.id price reason trigger s).log = [.closed price reason trigger] := by
  simp only [closeDeal, Program.get_bind_run, h.get]
  rfl

theorem checkTpIndicatorGroups_none (hno : cfg.NoIndicators) (c : Candles) :
    IndicatorEngine.checkTpIndicatorGroups cfg sig c = none := by
  refine List.findSome?_eq_none_iff.mpr fun g hg => ?_
  simp [hno.takeProfit g hg]

theorem serverTp_line (ht : cfg.takeProfit.targetPct < 100) (l : Ladder) (hsound : l.Sound)
    (d : PaperDeal) (hm : PyMatches l d) :
    computeTpTargetPrice d.avgEntryPrice cfg.takeProfit.targetPct d.side =
      .ok (serverTp cfg l) := by
  have hlt : cfg.takeProfit.targetPct / 100 < 1 := (div_lt_one (by norm_num)).mpr ht
  rw [hm.avgEntryPrice_eq hsound, hm.side]
  exact pyDiv_ok _ _ (by linarith)

/-- A stop measured from the reference of the ladder. -/
theorem serverStop_run (now : Instant) (l : Ladder) (d : PaperDeal) (c : BacktestCandle)
    (ref : ℚ) (trigger : ExitTrigger) (s : BacktestState) (hs : OnlyDeal d s) (e : PaperDeal) (he : e.id = d.id) (hes : e.side = .long)
    (href : l.reference cfg c = some ref) :
    (∃ line ∈ serverSl cfg l c, c.low ≤ line ∧
        (stopAt cfg now c e ref trigger s).result = .ok true ∧
        (stopAt cfg now c e ref trigger s).log = [.closed line .sl trigger]) ∨
      (∀ line ∈ serverSl cfg l c, line < c.low) ∧
        stopAt cfg now c e ref trigger s = ⟨.ok false, [], s⟩ := by
  have hnonneg : 0 ≤ cfg.stopLoss.pct / 100 := div_nonneg cfg.stopLoss.pct_nonneg (by norm_num)
  have hprice : computeSlTargetPrice ref cfg.stopLoss.pct e.side =
      .ok (ref / (1 + cfg.stopLoss.pct / 100)) := by
    rw [hes]
    exact pyDiv_ok _ _ (by linarith)
  have hline : serverSl cfg l c = some (ref / (1 + cfg.stopLoss.pct / 100)) := by
    rw [serverSl, href]
    rfl
  rw [hline]
  by_cases hreached : c.low ≤ ref / (1 + cfg.stopLoss.pct / 100)
  · refine .inl ⟨_, rfl, hreached, ?_⟩
    have hrun : stopAt cfg now c e ref trigger =
        (closeDeal cfg now d.id (ref / (1 + cfg.stopLoss.pct / 100)) .sl trigger >>= fun _ =>
          pure true) := by
      rw [stopAt, hprice, Program.lift_ok, Program.pure_bind, if_pos hreached, he]
    have hclose := (closeDeal_run cfg now d.id (ref / (1 + cfg.stopLoss.pct / 100)) .sl trigger s).1
    rw [hrun, Program.bind_ok _ _ _ () hclose, closeDeal_log cfg now d _ .sl trigger s hs]
    exact ⟨rfl, rfl⟩
  · have hrun : stopAt cfg now c e ref trigger = pure false := by
      rw [stopAt, hprice, Program.lift_ok, Program.pure_bind, if_neg hreached]
    refine .inr ⟨?_, by rw [hrun]; rfl⟩
    rintro line ⟨rfl⟩
    exact not_le.mp hreached

/-- The server's lines at a candle: it closes at one of them, or the candle only moves the
peak. -/
theorem checkTpSl_run (hno : cfg.NoIndicators) (ht : cfg.takeProfit.targetPct < 100) (now : Instant)
    (w : OhlcWindow) (l : Ladder) (hsound : l.Sound) (d : PaperDeal) (hm : PyMatches l d)
    (c : BacktestCandle) (s : BacktestState) (hs : OnlyDeal d s) (fill : Option ℚ) :
    ((checkTpSlIntracandle cfg sig now w c d s).result = .ok true ∧
        (checkTpSlIntracandle cfg sig now w c d s).log.map BacktestEvent.toBrowser =
          (verdict (tpOn cfg) (serverTp cfg l) (serverSl cfg l c) fill c).toList ∧
        ¬ Passes (tpOn cfg) (serverTp cfg l) (serverSl cfg l c) c) ∨
      Passes (tpOn cfg) (serverTp cfg l) (serverSl cfg l c) c ∧
        (checkTpSlIntracandle cfg sig now w c d s).result = .ok false ∧
        (checkTpSlIntracandle cfg sig now w c d s).log = [] ∧
        OnlyDeal { d with peakPrice := (l.step cfg c none).peak }
          (checkTpSlIntracandle cfg sig now w c d s).state ∧
        (checkTpSlIntracandle cfg sig now w c d s).state.state.closedDeals = s.state.closedDeals := by
  have hgroups : (if cfg.takeProfit.enabled then
      IndicatorEngine.checkTpIndicatorGroups cfg sig w.candles else none) = none := by
    rw [checkTpIndicatorGroups_none cfg sig hno]
    exact ite_self _
  rw [checkTpSlIntracandle, serverTp_line cfg ht l hsound d hm, Program.lift_ok, Program.pure_bind]
  by_cases htp : tpOn cfg = true ∧ serverTp cfg l ≤ c.high
  · have hhit : (cfg.takeProfit.enabled && cfg.takeProfit.priceEnabled &&
        decide (serverTp cfg l ≤ c.high)) = true := by
      rw [Bool.and_eq_true, decide_eq_true_eq]
      exact htp
    have hclose := (closeDeal_run cfg now d.id (serverTp cfg l) .tp .priceTp s).1
    rw [if_pos hhit, Program.bind_ok _ _ _ () hclose, closeDeal_log cfg now d _ .tp _ s hs,
      verdict_tp _ _ _ _ _ htp]
    exact .inl ⟨rfl, rfl, fun hpass => hpass.1 htp⟩
  · have hmiss : ¬ (cfg.takeProfit.enabled && cfg.takeProfit.priceEnabled &&
        decide (serverTp cfg l ≤ c.high)) = true := by
      rw [Bool.and_eq_true, decide_eq_true_eq]
      exact htp
    rw [if_neg hmiss, hgroups]
    dsimp only
    have hkept : ∀ p, p = l.peak → OnlyDeal { d with peakPrice := p } s := by
      rintro p rfl
      rw [← hm.peak]
      exact hs
    cases hsl : cfg.stopLoss.type with
    | none =>
      have hline : serverSl cfg l c = none := by
        rw [serverSl, Ladder.reference, hsl]
        rfl
      have hpeak : (l.step cfg c none).peak = l.peak := if_neg (by rw [hsl]; simp)
      rw [hline]
      exact .inr ⟨⟨htp, fun line h => absurd h (by simp)⟩, rfl, rfl, hkept _ hpeak, rfl⟩
    | fixed =>
      have href : l.reference cfg c = some l.average := by rw [Ladder.reference, hsl]
      have hpeak : (l.step cfg c none).peak = l.peak := if_neg (by rw [hsl]; simp)
      dsimp only
      rw [hm.avgEntryPrice_eq hsound]
      rcases serverStop_run cfg now l d c l.average .priceSl s hs d rfl hm.side href with
        ⟨line, hline, hreached, hresult, hlog⟩ | ⟨hpass, hrun⟩
      · rw [Option.mem_def] at hline
        rw [hresult, hlog, hline, verdict_sl _ _ _ _ _ htp hreached]
        exact .inl ⟨rfl, rfl, fun hpass => absurd (hpass.2 line rfl) (not_lt.mpr hreached)⟩
      · rw [hrun]
        exact .inr ⟨⟨htp, hpass⟩, rfl, rfl, hkept _ hpeak, rfl⟩
    | trailing =>
      have href : l.reference cfg c = some (l.peakAfter c) := by rw [Ladder.reference, hsl]
      have hpeak : (l.step cfg c none).peak = l.peakAfter c := if_pos hsl
      have hnew : newPeak d c = l.peakAfter c := by rw [newPeak, hm.peak, Ladder.peakAfter]
      have hmoved := hs.update (fun e => { e with peakPrice := l.peakAfter c }) fun _ => rfl
      dsimp only
      rw [hnew, hpeak, Program.modify_bind_run]
      rcases serverStop_run cfg now l { d with peakPrice := l.peakAfter c } c (l.peakAfter c)
          .trailingSl _ hmoved d rfl hm.side href with
        ⟨line, hline, hreached, hresult, hlog⟩ | ⟨hpass, hrun⟩
      · rw [Option.mem_def] at hline
        rw [hresult, hlog, hline, verdict_sl _ _ _ _ _ htp hreached]
        exact .inl ⟨rfl, rfl, fun hpass => absurd (hpass.2 line rfl) (not_lt.mpr hreached)⟩
      · rw [hrun]
        exact .inr ⟨⟨htp, hpass⟩, rfl, rfl, hmoved, rfl⟩

/-- The server's order, where its deal has the fills of the ladder. -/
theorem serverDca_run (now : Instant) (l : Ladder) (hsound : l.Sound) (d : PaperDeal)
    (c : BacktestCandle) (horders : d.orders.map (fun o => (o.price, o.size)) = l.orders)
    (hcount : d.dcaCount = l.orders.length - 1) (hpeak : d.peakPrice = (l.step cfg c none).peak)
    (hside : d.side = .long) (s : BacktestState) (hs : OnlyDeal d s) :
    (checkDca cfg now d c.close s).result = .ok () ∧
      (checkDca cfg now d c.close s).log.map BacktestEvent.toBrowser =
        ((serverFill cfg l c).map (.dcaFilled c.close)).toList ∧
      (∃ d', OnlyDeal d' (checkDca cfg now d c.close s).state ∧
        PyMatches (l.step cfg c (serverFill cfg l c)) d') ∧
      (checkDca cfg now d c.close s).state.state.closedDeals = s.state.closedDeals := by
  have hlength := hsound.length_pos
  have hlast : ∃ last, d.orders.getLast? = some last ∧ l.orders.getLast? = some (last.price, last.size) := by
    cases hlast : d.orders.getLast? with
    | none =>
      rw [List.getLast?_eq_none_iff] at hlast
      rw [hlast] at horders
      exact absurd horders.symm hsound.orders_ne
    | some last =>
      refine ⟨last, rfl, ?_⟩
      rw [← horders, List.getLast?_map, hlast]
      rfl
  obtain ⟨last, hlast, hladder⟩ := hlast
  have hroom := room_eq l hsound cfg.dca.maxOrders
  have hdue : l.due cfg c = decide (c.close ≤ last.price *
      (1 - cfg.dca.orderSpacingPct * cfg.dca.stepScale ^ (l.orders.length - 1) / 100)) := by
    rw [Ladder.due, hladder]
  cases hfires : l.fires cfg c with
  | false =>
    have hnone : serverFill cfg l c = none := by rw [serverFill, hfires]; rfl
    have hnext : (l.step cfg c none).orders = l.orders := List.append_nil _
    have hrun : checkDca cfg now d c.close s = ⟨.ok (), [], s⟩ := by
      rw [Ladder.fires, hroom, hdue] at hfires
      unfold checkDca
      split
      · rfl
      split
      · rfl
      split
      · rfl
      rename_i henabled hone hfull
      rw [Bool.not_eq_false] at henabled
      rw [hcount] at hfull
      have hmiss : ¬ c.close ≤ last.price *
          (1 - cfg.dca.orderSpacingPct * cfg.dca.stepScale ^ (l.orders.length - 1) / 100) := by
        simpa [henabled, hone, hfull] using hfires
      rw [hlast]
      dsimp only
      rw [hcount, if_neg hmiss]
      rfl
    rw [hrun, hnone]
    exact ⟨rfl, rfl, ⟨d, hs, by rw [hnext, horders], by rw [hnext, hcount], hpeak, hside⟩, rfl⟩
  | true =>
    have hsome : serverFill cfg l c = some (Decimal.roundTo 8 (l.nextSize cfg)) := by
      rw [serverFill, hfires]
      rfl
    rw [Ladder.fires, hroom, hdue] at hfires
    simp only [Bool.and_eq_true, Bool.not_eq_true', decide_eq_false_iff_not,
      decide_eq_true_eq] at hfires
    obtain ⟨⟨henabled, hone, hfull⟩, hreached⟩ := hfires
    have hfilled := hs.update (fun e => { e with orders := e.orders ++
      [⟨d.dcaCount + 2, c.close, Decimal.roundTo 8 (l.nextSize cfg), now, .dca⟩] }) fun _ => rfl
    have hrun : checkDca cfg now d c.close =
        (Program.modify (onState fun s => s.updateDeal d.id (fun e => { e with orders := e.orders ++
          [⟨d.dcaCount + 2, c.close, Decimal.roundTo 8 (l.nextSize cfg), now, .dca⟩] }) fun _ => rfl)
          >>= fun _ => chargeFee (calcFee cfg (Decimal.roundTo 8 (l.nextSize cfg))) >>= fun _ =>
            Program.emit (.dcaFilled c.close (Decimal.roundTo 8 (l.nextSize cfg)))) := by
      rw [checkDca, if_neg (by rw [henabled]; simp), if_neg hone, if_neg (by rw [hcount]; exact hfull),
        hlast]
      dsimp only
      rw [if_pos (by rw [hcount]; exact hreached), hcount]
      rfl
    rw [hrun, hsome]
    refine ⟨rfl, rfl, ⟨_, hfilled, ?_, ?_, hpeak, hside⟩, rfl⟩
    · simp [Ladder.step, horders]
    · have hdca : ∀ o : PaperOrder, o.orderType = .dca →
          ((d.orders ++ [o]).filter fun o => o.orderType = .dca).length = d.dcaCount + 1 := by
        intro o ho
        simp [PaperDeal.dcaCount, List.filter_append, ho]
      have hcount' := hdca ⟨d.dcaCount + 2, c.close, Decimal.roundTo 8 (l.nextSize cfg), now, .dca⟩ rfl
      rw [PaperDeal.dcaCount, hcount', hcount]
      simp only [Ladder.step, Option.toList_some, List.map_cons, List.map_nil, List.length_append,
        List.length_cons, List.length_nil]
      omega

/-- The server monitors its deal: it does what the verdict says, and where no line is
reached the deal follows the ladder. -/
theorem serverMonitor_run (hno : cfg.NoIndicators) (ht : cfg.takeProfit.targetPct < 100)
    (now : Instant) (w : OhlcWindow) (l : Ladder) (hsound : l.Sound) (d : PaperDeal)
    (hm : PyMatches l d) (c : BacktestCandle) (s : BacktestState) (hs : OnlyDeal d s) :
    (monitorDeal cfg sig now w c d.id s).result = .ok () ∧
      (monitorDeal cfg sig now w c d.id s).log.map BacktestEvent.toBrowser =
        (verdict (tpOn cfg) (serverTp cfg l) (serverSl cfg l c) (serverFill cfg l c) c).toList ∧
      (Passes (tpOn cfg) (serverTp cfg l) (serverSl cfg l c) c →
        (∃ d', OnlyDeal d' (monitorDeal cfg sig now w c d.id s).state ∧
          PyMatches (l.step cfg c (serverFill cfg l c)) d') ∧
        (monitorDeal cfg sig now w c d.id s).state.state.closedDeals = s.state.closedDeals) := by
  rw [monitorDeal, Program.get_bind_run, hs.get]
  dsimp only
  rcases checkTpSl_run cfg sig hno ht now w l hsound d hm c s hs (serverFill cfg l c) with
    ⟨hresult, hlog, hclosed⟩ | ⟨hpass, hresult, hlog, honly, hsame⟩
  · rw [Program.bind_ok _ _ _ true hresult]
    refine ⟨rfl, ?_, fun hpass => absurd hpass hclosed⟩
    simp only [if_true, Program.pure_run, List.append_nil, hlog]
  · rw [Program.bind_ok _ _ _ false hresult, hlog]
    have hget := honly.get
    simp only [Bool.false_eq_true, if_false, List.nil_append, Program.get_bind_run]
    rw [hget]
    obtain ⟨hend, hfilled, hnext, hkept⟩ := serverDca_run cfg now l hsound
      { d with peakPrice := (l.step cfg c none).peak } c hm.orders hm.count rfl hm.side
      (checkTpSlIntracandle cfg sig now w c d s).state honly
    rw [verdict_passes _ _ _ _ _ hpass]
    exact ⟨hend, hfilled, fun _ => ⟨hnext, hkept.trans hsame⟩⟩

/-- The server at a candle with an open deal. -/
theorem server_candle (hno : cfg.NoIndicators) (ht : cfg.takeProfit.targetPct < 100)
    (data : CandlesPerTf) (l : Ladder) (hsound : l.Sound) (d : PaperDeal) (hm : PyMatches l d)
    (c : BacktestCandle) (i : ℕ) (hi : warmup ≤ i) (s : BacktestState) (hs : OnlyDeal d s) :
    ((candleStep cfg sig env data (c, i) s).log.map BacktestEvent.toBrowser).head? =
        verdict (tpOn cfg) (serverTp cfg l) (serverSl cfg l c) (serverFill cfg l c) c ∧
      (Passes (tpOn cfg) (serverTp cfg l) (serverSl cfg l c) c →
        (candleStep cfg sig env data (c, i) s).log.map BacktestEvent.toBrowser =
            ((serverFill cfg l c).map (.dcaFilled c.close)).toList ∧
          (∃ d', OnlyDeal d' (candleStep cfg sig env data (c, i) s).state ∧
            PyMatches (l.step cfg c (serverFill cfg l c)) d') ∧
          (candleStep cfg sig env data (c, i) s).state.state.closedDeals = s.state.closedDeals) := by
  rw [candleStep_run cfg sig env data (c, i) s hi]
  dsimp only
  generalize hw : windowsAt data (advanceAll data c.timestamp s.tfPointers) = w
  generalize hs' : ({ s with tfPointers := advanceAll data c.timestamp s.tfPointers } :
    BacktestState) = s'
  have honly : OnlyDeal d s' := by rw [← hs']; exact hs
  have hclosed : s'.state.closedDeals = s.state.closedDeals := by rw [← hs']
  rw [← hclosed]
  obtain ⟨hresult, hlog, hrest⟩ := serverMonitor_run cfg sig hno ht (env.clock i) w l hsound d hm c
    s' honly
  have hloop : processCandle cfg sig env i w c s' =
      (monitorDeal cfg sig (env.clock i) w c d.id >>= fun _ =>
        checkEntry cfg sig (env.newDealId i) w c) s' := by
    rw [processCandle, Program.get_bind_run, honly, List.map_cons, List.map_nil, Program.forEach,
      Program.bind_assoc]
    rfl
  rw [Program.bind_run, hloop, Program.bind_ok _ _ _ () hresult]
  by_cases hpass : Passes (tpOn cfg) (serverTp cfg l) (serverSl cfg l c) c
  · obtain ⟨⟨d', honly', hmatch⟩, hkept⟩ := hrest hpass
    have hidle : checkEntry cfg sig (env.newDealId i) w c
        (monitorDeal cfg sig (env.clock i) w c d.id s').state =
          ⟨.ok (), [], (monitorDeal cfg sig (env.clock i) w c d.id s').state⟩ := by
      rw [checkEntry, Program.get_bind_run, if_neg]
      · rfl
      · rintro ⟨hempty, _⟩
        rw [honly'] at hempty
        cases hempty
    rw [hidle]
    simp only [Program.modify_run, List.append_nil]
    rw [hlog, verdict_passes _ _ _ _ _ hpass]
    refine ⟨?_, fun _ => ⟨rfl, ⟨d', honly', hmatch⟩, hkept⟩⟩
    cases serverFill cfg l c <;> rfl
  · obtain ⟨e, he⟩ := Option.isSome_iff_exists.mp
      (verdict_closes _ _ _ (serverFill cfg l c) c hpass)
    rw [he] at hlog ⊢
    refine ⟨?_, fun h => absurd h hpass⟩
    cases hentry : (checkEntry cfg sig (env.newDealId i) w c
        (monitorDeal cfg sig (env.clock i) w c d.id s').state).result with
    | error e => simp only [List.map_append, hlog, Option.toList_some, List.cons_append, List.head?_cons]
    | ok a => simp only [List.map_append, hlog, Option.toList_some, List.cons_append, List.head?_cons]

end Server

end BacktestAgreement

end Reverto
