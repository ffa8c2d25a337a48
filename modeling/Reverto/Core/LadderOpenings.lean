import Mathlib.Tactic
import Reverto.Core.LadderReach

/-!
# Deals that come to their ladder (core/trading_engine.py)

A deal opened by the manual trigger can be edited in the tick that opens it. A deal opened by
the entry is monitored once, under the settings of its bot, before an edit can reach it.
-/

namespace Reverto

open TradingEngine PriceGuard

namespace LadderReach

open LadderSize MonitorRounds

variable (cfg : BotConfig) (sig : Signals)

/-- The manual trigger is safe at some price. -/
def CanTrigger : Prop := ∃ price, manualTriggerLiqSafe cfg price = true

/-- The entry signal fires on some candles. -/
def CanEnter : Prop :=
  ∃ c : Candles, c.closesPerTf cfg.timeframe ≠ [] ∧
    (IndicatorEngine.checkEntrySignal cfg sig c).1 = true

/-- The take profit and the stop loss of the bot return at some price and leave a new deal open. -/
structure Survives : Prop where
  takeProfit : ¬ (cfg.takeProfit.enabled = true ∧ cfg.direction = .long ∧ cfg.takeProfit.targetPct = 100)
  stopLoss : ¬ (cfg.stopLoss.type ≠ .none ∧ cfg.direction = .short ∧ cfg.stopLoss.pct = 100)
  trailing : ¬ (cfg.stopLoss.type = .trailing ∧ cfg.stopLoss.pct = 0)

/-- The bot can open a deal. -/
def CanOpen : Prop := CanTrigger cfg ∨ CanEnter cfg sig

/-- A deal of the bot can come to its ladder. -/
def CanLadder : Prop := CanTrigger cfg ∨ (CanEnter cfg sig ∧ Survives cfg)

theorem canTrigger_pos (h : CanTrigger cfg) :
    ∃ price, 0 < price ∧ manualTriggerLiqSafe cfg price = true := by
  obtain ⟨price, hsafe⟩ := h
  by_cases hplain : cfg.leverage.size ≤ 1 ∨ cfg.leverage.enabled = false
  · exact ⟨1, by norm_num, by rw [manualTriggerLiqSafe, if_pos hplain]⟩
  · refine ⟨price, ?_, hsafe⟩
    rw [manualTriggerLiqSafe, if_neg hplain] at hsafe
    by_contra hle
    dsimp only at hsafe
    rw [if_pos (.inr (not_lt.mp hle))] at hsafe
    cases hsafe

/-- No candles have arrived. -/
def noCandles : Candles := ⟨fun _ => [], fun _ => none, fun _ => none⟩

/-- A tick at a price, without triggers. -/
def plainTick (price : ℚ) (c : Candles) : TickInput where
  ticker := .ok ⟨price, price, price, none⟩
  isOpen := true
  candles := c
  manualTrigger := false
  manualOpen := .accepted "202501010000-0001"
  sentinels := []
  entryOpen := .accepted "202501010000-0001"
  clockOk := true
  now := 0

/-- The id that every opening of these ticks draws. -/
def firstId : String := "202501010000-0001"

theorem onRung_opened (now : Instant) (price : ℚ) (t : Option GroupTrigger) (d : PaperDeal)
    (hp : 0 < price) (horders : d.orders = (newDeal cfg now firstId price t).orders)
    (hside : d.side = cfg.direction) : OnRung cfg 0 (applySettings openEnded d) := by
  have hbase : (applySettings openEnded d).orders =
      [⟨1, price, cfg.dca.baseOrderSize, now, .base⟩] := horders
  refine ⟨⟨?_, ?_, Nat.zero_le _⟩, rfl, rfl, rfl, hside, ?_⟩
  · rw [hbase]
    rfl
  · rw [hbase]
    rfl
  · rw [hbase]
    exact ⟨_, rfl, fun _ => ⟨hp.le, .inl rfl⟩⟩

/-- A tick of a flat account is what comes behind its monitoring. -/
theorem tick_flat (inp : TickInput) (price : ℚ) (w : World)
    (ht : inp.ticker = .ok ⟨price, price, price, none⟩)
    (hflat : w.engine.state.openDeals.items = []) (s : PaperState)
    (h : Written s (afterMonitoring cfg sig inp price (tracked price (hooked inp w))).state) :
    Written s (tick cfg sig inp w).state := by
  have hitems : (tracked price (hooked inp w)).engine.state.openDeals.items = [] := by
    show (hooked inp w).engine.state.openDeals.items.map (trackWick price) = []
    rw [hooked, (preTickHook_account inp w).1, hflat]
    rfl
  refine tick_written cfg sig inp w _ [] ⟨price, price, price, none⟩ ht ?_ s h
  show monitorDeals cfg sig inp.candles inp.now price 0
    ((tracked price (hooked inp w)).engine.state.openDeals.items.map PaperDeal.id)
    (tracked price (hooked inp w)) = _
  rw [hitems]
  rfl

/-- The manual trigger, and the edit in the same tick. -/
theorem standsOn_trigger (h : CanTrigger cfg) :
    ∃ ls, StandsOn cfg 0 (afterLife cfg sig 1 ls) := by
  obtain ⟨price, hp, hsafe⟩ := canTrigger_pos cfg h
  obtain ⟨inp, hinp⟩ : ∃ inp : TickInput, inp =
      { plainTick price noCandles with
        manualTrigger := true, sentinels := [.edit firstId openEnded] } := ⟨_, rfl⟩
  have hflat : (tracked price (hooked inp (freshWorld 1))).engine.state.openDeals.items = [] := by
    rw [hinp]
    rfl
  obtain ⟨s, hitems, hwritten⟩ := late_manual cfg sig inp price _ firstId openEnded hflat
    (by rw [hinp]) hsafe (by rw [hinp]; rfl) (by rw [hinp])
  have htick := tick_flat cfg sig inp price (freshWorld 1) (by rw [hinp]; rfl) rfl s hwritten
  exact ⟨[.tick inp], s, _, hitems, onRung_opened cfg inp.now price none _ hp rfl rfl, htick⟩

/-! ### A deal that the entry opened -/

/-- Without candles no group fires. -/
theorem evalGroups_none (groups : List IndicatorGroup) :
    IndicatorEngine.evalGroups sig groups noCandles cfg.timeframe = none := by
  refine List.findSome?_eq_none_iff.mpr fun g _ => if_neg ?_
  rintro ⟨hne, hall⟩
  obtain ⟨ind, hind⟩ := List.exists_mem_of_ne_nil _ hne
  have hok := List.all_eq_true.mp hall ind hind
  cases hok

/-- A round that decides nothing leaves the deal, up to its peak. -/
theorem monitor_rests (inp : TickInput) (price : ℚ) (d : PaperDeal) (v : World)
    (hitems : v.engine.state.openDeals.items = [d])
    (htp : tpVerdict cfg sig inp.candles d price = .ok .idle)
    (hsl : ∀ s, slSettings cfg d = some s → slVerdict cfg d price s = .ok false)
    (hdca : dcaVerdict cfg d price = .ok false) :
    ∃ u e, monitorDeals cfg sig inp.candles inp.now price 0
        (v.engine.state.openDeals.items.map PaperDeal.id) v = ⟨.ok (), [], u⟩ ∧
      u.engine.state.openDeals.items = [e] ∧ e.orders = d.orders ∧ e.side = d.side ∧ e.id = d.id := by
  have hmem : d ∈ v.engine.state.openDeals.items := by
    rw [hitems]
    exact List.mem_singleton_self d
  have hget : v.deal? d.id = some d := KeyedDict.get?_of_mem _ d hmem
  have hrun : EngineOp.program cfg sig (.takeProfit inp.candles inp.now price d.id) v =
      ⟨.ok (), [], v⟩ := by
    simp only [EngineOp.program, whileOpen_run, hget, checkTp_run, htp]
  obtain ⟨u, e, hslRun, hu, he⟩ : ∃ u e, slRound cfg price inp.now d.id v = ⟨.ok (), [], u⟩ ∧
      u.engine.state.openDeals.items = [e] ∧
      (e = d ∨ e = { d with peakPrice := newPeak cfg d price }) := by
    cases hs : slSettings cfg d with
    | none =>
      refine ⟨v, d, ?_, hitems, .inl rfl⟩
      simp only [slRound, whileOpen_run, hget, checkSl_run, hs]
    | some s =>
      have hslRun : slRound cfg price inp.now d.id v = ⟨.ok (), [], peaked cfg d price s.1 v⟩ := by
        simp only [slRound, whileOpen_run, hget, checkSl_run, hs, hsl s hs]
      by_cases ht : s.1 = .trailing
      · refine ⟨_, _, hslRun, ?_, .inr rfl⟩
        rw [peaked, if_pos ht]
        show (v.engine.state.openDeals.modify d.id
          (fun e => { e with peakPrice := newPeak cfg d price }) fun _ => rfl).items = _
        rw [KeyedDict.modify, KeyedDict.mapValues_items, hitems]
        simp
      · refine ⟨_, d, hslRun, ?_, .inl rfl⟩
        rw [peaked, if_neg ht]
        exact hitems
  have hkeep : e.orders = d.orders ∧ e.side = d.side ∧ e.dcaEnabled = d.dcaEnabled ∧ e.id = d.id := by
    rcases he with rfl | rfl
    · exact ⟨rfl, rfl, rfl, rfl⟩
    · exact ⟨rfl, rfl, rfl, rfl⟩
  obtain ⟨horders, hside, henabled, hid⟩ := hkeep
  have hgetE : u.deal? d.id = some e := by
    have hmemE : e ∈ u.engine.state.openDeals.items := by
      rw [hu]
      exact List.mem_singleton_self e
    rw [← hid]
    exact KeyedDict.get?_of_mem _ e hmemE
  have hcheck : checkDca cfg inp.now e price u = ⟨.ok false, [], u⟩ := by
    rw [checkDca_run, dcaVerdict_congr cfg price d e horders hside henabled, hdca]
  have hdcaRun : dcaRound cfg price inp.now 0 d.id u = ⟨.ok 0, [], u⟩ := by
    have hfirst : ¬ maxDcaPerTick ≤ 0 := by decide
    simp only [dcaRound, whileOpen_run, hgetE, if_neg hfirst]
    rw [Program.bind_ok _ _ _ false (by rw [hcheck]), hcheck]
    simp
  have hround : monitorDeal cfg sig inp.candles inp.now price 0 d.id v = ⟨.ok 0, [], u⟩ := by
    rw [monitorDeal_eq, Program.bind_ok _ _ _ () (by rw [hrun]), hrun, monitorTail_eq,
      Program.bind_ok _ _ _ () (by rw [hslRun]), hslRun, hdcaRun]
    rfl
  refine ⟨u, e, ?_, hu, horders, hside, hid⟩
  rw [hitems, List.map_cons, List.map_nil, monitorDeals_cons, Program.bind_ok _ _ _ 0 (by rw [hround]),
    hround]
  simp [monitorDeals]

/-- A price between the opening price of 100 and the target of the bot. -/
def quietPrice : ℚ :=
  match cfg.direction with
  | .long => 100 + cfg.takeProfit.targetPct / 2
  | .short => 100 - cfg.takeProfit.targetPct / 4

/-- The deal that the entry opened, as the next tick tracks it. -/
def enteredDeal (t : Option GroupTrigger) : PaperDeal :=
  trackWick (quietPrice cfg) (newDeal cfg 0 firstId 100 t)

/-- What the checks read of that deal. -/
structure Entered (d : PaperDeal) : Prop where
  side : d.side = cfg.direction
  avg : d.avgEntryPrice = 100
  orders : d.orders = [⟨1, 100, cfg.dca.baseOrderSize, 0, .base⟩]
  tpOverride : d.tpOverride = none
  slOverride : d.slOverride = none
  peak : d.peakPrice = 0
  wickHigh : d.wickHighSinceOpen = max 100 (quietPrice cfg)
  wickLow : d.wickLowSinceOpen = min 100 (quietPrice cfg)

theorem entered_enteredDeal (t : Option GroupTrigger) : Entered cfg (enteredDeal cfg t) := by
  have hne : cfg.dca.baseOrderSize ≠ 0 := ne_of_gt cfg.dca.baseOrderSize_pos
  have havg : (newDeal cfg 0 firstId 100 t).avgEntryPrice = 100 := by
    simp [newDeal, PaperDeal.postInit, PaperDeal.avgEntryPrice, PaperDeal.totalSize, hne]
  have hhigh : (newDeal cfg 0 firstId 100 t).wickHighSinceOpen = 100 := by
    simp [newDeal, PaperDeal.postInit, PaperDeal.avgEntryPrice, PaperDeal.totalSize, hne]
  have hlow : (newDeal cfg 0 firstId 100 t).wickLowSinceOpen = 100 := by
    simp [newDeal, PaperDeal.postInit, PaperDeal.avgEntryPrice, PaperDeal.totalSize, hne]
  refine ⟨rfl, havg, rfl, rfl, rfl, rfl, ?_, ?_⟩
  · simp only [enteredDeal, trackWick, hhigh]
    split
    · rename_i hlt
      rw [max_eq_right hlt.le]
    · rename_i hle
      rw [max_eq_left (not_lt.mp hle)]
  · simp only [enteredDeal, trackWick, hlow]
    split
    · rename_i hlt
      rw [min_eq_right hlt.le]
    · rename_i hle
      rw [min_eq_left (not_lt.mp hle)]

section Checks

variable (d : PaperDeal) (h : Entered cfg d) (hs : Survives cfg)
include h hs

theorem entered_tpVerdict : tpVerdict cfg sig noCandles d (quietPrice cfg) = .ok .idle := by
  have hgroups : IndicatorEngine.checkTpIndicatorGroups cfg sig noCandles = none :=
    evalGroups_none cfg sig _
  unfold tpVerdict
  cases hpct : tpTargetPct cfg d with
  | none => rfl
  | some pct =>
    rw [tpTargetPct, h.tpOverride] at hpct
    split_ifs at hpct with henabled
    obtain rfl := Option.some.inj hpct
    have hpos := cfg.takeProfit.targetPct_pos
    have hle := cfg.takeProfit.targetPct_le
    have htp := hs.takeProfit
    -- the quiet price stays short of the target
    have hmiss : ∃ target, computeTpTargetPrice d.avgEntryPrice cfg.takeProfit.targetPct d.side =
        .ok target ∧ (wickHit cfg d (quietPrice cfg) target ||
          reaches d.side (quietPrice cfg) target) = false := by
      rw [h.avg, h.side]
      unfold wickHit wickExtreme
      rw [h.wickHigh, h.wickLow, h.side]
      cases hside : cfg.direction with
      | long =>
        have hlt : cfg.takeProfit.targetPct < 100 :=
          lt_of_le_of_ne hle fun he => htp ⟨henabled, hside, he⟩
        have hden : (0 : ℚ) < 1 - cfg.takeProfit.targetPct / 100 := by linarith
        have hquiet : quietPrice cfg = 100 + cfg.takeProfit.targetPct / 2 := by
          rw [quietPrice, hside]
        have hgap : quietPrice cfg < 100 / (1 - cfg.takeProfit.targetPct / 100) := by
          rw [hquiet, lt_div_iff₀ hden]
          nlinarith
        have hbehind : 100 ≤ quietPrice cfg := by linarith
        have hmax : max (max 100 (quietPrice cfg)) (quietPrice cfg) = quietPrice cfg :=
          max_eq_right (max_le hbehind le_rfl)
        refine ⟨_, pyDiv_ok _ _ (ne_of_gt hden), ?_⟩
        simp only [hmax, reaches, Bool.or_eq_false_iff, Bool.and_eq_false_iff, decide_eq_false_iff_not,
          not_le]
        exact ⟨.inr hgap, hgap⟩
      | short =>
        have hden : (0 : ℚ) < 1 + cfg.takeProfit.targetPct / 100 := by linarith
        have hquiet : quietPrice cfg = 100 - cfg.takeProfit.targetPct / 4 := by
          rw [quietPrice, hside]
        have hgap : 100 / (1 + cfg.takeProfit.targetPct / 100) < quietPrice cfg := by
          rw [hquiet, div_lt_iff₀ hden]
          nlinarith
        have hbehind : quietPrice cfg ≤ 100 := by linarith
        have hmin : min (min 100 (quietPrice cfg)) (quietPrice cfg) = quietPrice cfg :=
          min_eq_right (le_min hbehind le_rfl)
        refine ⟨_, pyDiv_ok _ _ (ne_of_gt hden), ?_⟩
        simp only [hmin, reaches, Bool.or_eq_false_iff, Bool.and_eq_false_iff, decide_eq_false_iff_not,
          not_le]
        exact ⟨.inr hgap, hgap⟩
    obtain ⟨target, htarget, hno⟩ := hmiss
    simp only [htarget, hno, hgroups, bind, Except.bind, pure, Except.pure, Bool.false_eq_true,
      if_false]

theorem entered_slVerdict (s : SlType × ℚ) (hset : slSettings cfg d = some s) :
    slVerdict cfg d (quietPrice cfg) s = .ok false := by
  rw [slSettings, h.slOverride] at hset
  split_ifs at hset with hoff
  obtain rfl := Option.some.inj hset
  have hpos := cfg.takeProfit.targetPct_pos
  have hpct := cfg.stopLoss.pct_nonneg
  have hle := cfg.stopLoss.pct_le
  have hshort := hs.stopLoss
  have htrailing := hs.trailing
  -- the stop line lies beyond the quiet price, from 100 or from the price itself
  have hreference : slReference cfg d (quietPrice cfg) (slTypeOf cfg.stopLoss.type) =
      if cfg.stopLoss.type = .trailing then quietPrice cfg else 100 := by
    cases htype : cfg.stopLoss.type with
    | none => exact absurd htype hoff
    | fixed => exact h.avg
    | trailing =>
      show newPeak cfg d (quietPrice cfg) = quietPrice cfg
      unfold newPeak
      rw [h.peak, h.side, h.wickHigh, h.wickLow, if_pos rfl]
      cases hside : cfg.direction with
      | long =>
        have hquiet : 100 ≤ quietPrice cfg := by
          rw [quietPrice, hside]
          linarith
        simp [max_eq_right hquiet]
      | short =>
        have hquiet : quietPrice cfg ≤ 100 := by
          rw [quietPrice, hside]
          linarith
        simp [min_eq_right hquiet]
  rw [slVerdict, hreference, h.side]
  cases hside : cfg.direction with
  | long =>
    have hquiet : 100 < quietPrice cfg := by
      rw [quietPrice, hside]
      linarith
    have hden : (0 : ℚ) < 1 + cfg.stopLoss.pct / 100 := by linarith
    rw [computeSlTargetPrice, pyDiv_ok _ _ (ne_of_gt hden)]
    refine congrArg Except.ok ?_
    rw [slHit, decide_eq_false_iff_not, not_le, div_lt_iff₀ hden]
    split
    · rename_i htype
      have hpctPos : 0 < cfg.stopLoss.pct :=
        lt_of_le_of_ne hpct fun he => htrailing ⟨htype, he.symm⟩
      nlinarith
    · nlinarith
  | short =>
    have hlt : cfg.stopLoss.pct < 100 := lt_of_le_of_ne hle fun he => hshort ⟨hoff, hside, he⟩
    have hquiet : quietPrice cfg < 100 := by
      rw [quietPrice, hside]
      linarith
    have hquietPos : 0 < quietPrice cfg := by
      have htp := cfg.takeProfit.targetPct_le
      rw [quietPrice, hside]
      linarith
    have hden : (0 : ℚ) < 1 - cfg.stopLoss.pct / 100 := by linarith
    rw [computeSlTargetPrice, pyDiv_ok _ _ (ne_of_gt hden)]
    refine congrArg Except.ok ?_
    rw [slHit, decide_eq_false_iff_not, not_le, lt_div_iff₀ hden]
    split
    · rename_i htype
      have hpctPos : 0 < cfg.stopLoss.pct :=
        lt_of_le_of_ne hpct fun he => htrailing ⟨htype, he.symm⟩
      nlinarith
    · nlinarith

omit hs in
theorem entered_dcaVerdict : dcaVerdict cfg d (quietPrice cfg) = .ok false := by
  have hstep : 0 < dcaStep cfg d :=
    mul_pos cfg.dca.orderSpacingPct_pos (pow_pos cfg.dca.stepScale_pos _)
  have hpos := cfg.takeProfit.targetPct_pos
  unfold dcaVerdict
  split
  · rw [h.orders]
    refine congrArg Except.ok ?_
    unfold dcaTriggered
    rw [h.side]
    cases hside : cfg.direction with
    | long =>
      have hquiet : quietPrice cfg = 100 + cfg.takeProfit.targetPct / 2 := by rw [quietPrice, hside]
      simp only [decide_eq_false_iff_not, not_le, hquiet, List.getLast_singleton]
      linarith
    | short =>
      have hquiet : quietPrice cfg = 100 - cfg.takeProfit.targetPct / 4 := by rw [quietPrice, hside]
      simp only [decide_eq_false_iff_not, not_le, hquiet, List.getLast_singleton]
      linarith
  · rfl

end Checks

theorem drawdownStep_fresh (price : ℚ) (e : EngineState) (hguard : e.drawdownGuard = {})
    (hpaused : e.pausedByDrawdown = false) : (drawdownStep cfg price e).pausedByDrawdown = false := by
  unfold drawdownStep
  split
  · exact hpaused
  · rename_i henabled
    have hcalm : (e.drawdownGuard.update cfg.drawdownGuard
        (drawdownReading cfg e.state price)).triggered = false := by
      rw [hguard, DrawdownGuard.update, if_neg henabled]
      rfl
    simp only [hcalm, Bool.not_false, Bool.true_or, if_true]
    exact hpaused

/-- The entry, and the edit in the tick behind it. -/
theorem standsOn_entry (h : CanEnter cfg sig) (hs : Survives cfg) :
    ∃ ls, StandsOn cfg 0 (afterLife cfg sig 1 ls) := by
  obtain ⟨c, hcloses, hsignal⟩ := h
  obtain ⟨t, ht⟩ : ∃ t, IndicatorEngine.checkEntrySignal cfg sig c = (true, t) :=
    ⟨_, Prod.ext hsignal rfl⟩
  obtain ⟨q, hq⟩ : ∃ q, q = quietPrice cfg := ⟨_, rfl⟩
  obtain ⟨edit, hedit⟩ : ∃ inp : TickInput, inp =
      { plainTick q noCandles with sentinels := [.edit firstId openEnded] } := ⟨_, rfl⟩
  -- the opening tick
  obtain ⟨s, hitems, hwritten⟩ := late_entry cfg sig (plainTick 100 c) 100
    (tracked 100 (hooked (plainTick 100 c) (freshWorld 1))) firstId t rfl rfl rfl rfl hcloses ht
    (drawdownStep_fresh cfg 100 _ rfl rfl) rfl
  have hopened := tick_flat cfg sig (plainTick 100 c) 100 (freshWorld 1) rfl rfl s hwritten
  obtain ⟨w, hw⟩ : ∃ w, w = (tick cfg sig (plainTick 100 c) (freshWorld 1)).state := ⟨_, rfl⟩
  rw [← hw] at hopened
  -- the tick that edits
  obtain ⟨v, hv⟩ : ∃ v, v = tracked q (hooked edit w) := ⟨_, rfl⟩
  have hvitems : v.engine.state.openDeals.items = [enteredDeal cfg t] := by
    rw [hv]
    show (hooked edit w).engine.state.openDeals.items.map (trackWick q) = _
    rw [hooked, (preTickHook_account edit w).1, hopened.state, hitems, hq]
    rfl
  have hentered := entered_enteredDeal cfg t
  have hcandles : edit.candles = noCandles := by rw [hedit]; rfl
  obtain ⟨u, e, hmonitor, hu, horders, hside, hid⟩ := monitor_rests cfg sig edit q _ v hvitems
    (by rw [hcandles, hq]; exact entered_tpVerdict cfg sig _ hentered hs)
    (by rw [hq]; exact entered_slVerdict cfg _ hentered hs)
    (by rw [hq]; exact entered_dcaVerdict cfg _ hentered)
  have hsentinels : edit.sentinels = [.edit e.id openEnded] := by
    rw [hedit, hid]
    rfl
  obtain ⟨s', hitems', hwritten'⟩ := late_edit cfg sig edit q u e openEnded hu hsentinels
  rw [hv] at hmonitor
  have htick := tick_written cfg sig edit w u [] ⟨q, q, q, none⟩ (by rw [hedit]; rfl) hmonitor s'
    hwritten'
  refine ⟨[.tick (plainTick 100 c), .tick edit], s', _, hitems', ?_, ?_⟩
  · exact onRung_opened cfg 0 100 t e (by norm_num) horders (hside.trans hentered.side)
  · rw [hw] at htick
    exact htick

/-- A deal of a bot that can come to its ladder fills any number of rungs. -/
theorem standsOn_any (h : CanLadder cfg sig) (n : ℕ) (hn : n ≤ maxRungs cfg) :
    ∃ ls, StandsOn cfg n (afterLife cfg sig 1 ls) := by
  obtain ⟨ls, hls⟩ : ∃ ls, StandsOn cfg 0 (afterLife cfg sig 1 ls) := by
    rcases h with h | ⟨h, hs⟩
    · exact standsOn_trigger cfg sig h
    · exact standsOn_entry cfg sig h hs
  exact standsOn_ladder cfg sig ls n hn hls

/-- A deal of a bot that can open one. -/
theorem lives_opened (h : CanOpen cfg sig) : ∃ d, Lives cfg sig d := by
  have hlives : ∀ (s : PaperState) (d : PaperDeal) (w : World) (ls : List LifeStep),
      s.openDeals.items = [d] → Written s w → w = afterLife cfg sig 1 ls → Lives cfg sig d := by
    rintro s d w ls hitems hw rfl
    refine ⟨1, ls, List.mem_append_left _ ?_⟩
    rw [hw.state, hitems]
    exact List.mem_singleton_self d
  rcases h with h | ⟨c, hcloses, hsignal⟩
  · obtain ⟨ls, s, d, hitems, _, hw⟩ := standsOn_trigger cfg sig h
    exact ⟨d, hlives s d _ ls hitems hw rfl⟩
  · obtain ⟨t, ht⟩ : ∃ t, IndicatorEngine.checkEntrySignal cfg sig c = (true, t) :=
      ⟨_, Prod.ext hsignal rfl⟩
    obtain ⟨s, hitems, hwritten⟩ := late_entry cfg sig (plainTick 100 c) 100
      (tracked 100 (hooked (plainTick 100 c) (freshWorld 1))) firstId t rfl rfl rfl rfl hcloses ht
      (drawdownStep_fresh cfg 100 _ rfl rfl) rfl
    have hopened := tick_flat cfg sig (plainTick 100 c) 100 (freshWorld 1) rfl rfl s hwritten
    exact ⟨_, hlives s _ _ [.tick (plainTick 100 c)] hitems hopened rfl⟩

end LadderReach

end Reverto
