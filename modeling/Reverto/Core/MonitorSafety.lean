import Mathlib.Tactic
import Reverto.Core.PriceGuard
import Reverto.Core.WickTakeProfit

/-!
# Monitoring that cannot raise (core/inverse_perp_math.py, core/trading_engine.py)

The target formulas divide by `1 ± pct / 100`. The percentages come from the
configuration, which bounds them by 100, or from an override, which the edit
endpoint does not bound at all.
-/

namespace Reverto

/-- The price an operation works at. -/
def EngineOp.price? : EngineOp → Option ℚ
  | .setPrice price => some price
  | .trackWicks price => some price
  | .takeProfit _ _ price _ => some price
  | .stopLoss _ price _ => some price
  | .dca _ price _ => some price
  | .drawdown price => some price
  | .open _ _ price _ => some price
  | .sentinel _ price _ => some price
  | .write _ price _ => some price
  | .logError _ => none
  | .preTick _ => none
  | .postTick => none

namespace MonitorSafety

open TradingEngine PriceGuard

/-! ### Deals the engine can hold -/

/-- The value of the orders at their prices. -/
def notional (d : PaperDeal) : ℚ := (d.orders.map fun o => o.price * o.size).sum

/-- A deal opened and filled at positive prices. -/
structure Held (d : PaperDeal) : Prop where
  orders : d.orders ≠ []
  notional : 0 < notional d
  totalSize : 0 < d.totalSize
  wickHigh : 0 < d.wickHighSinceOpen
  wickLow : 0 < d.wickLowSinceOpen
  peak : 0 ≤ d.peakPrice

theorem Held.avg (d : PaperDeal) (h : Held d) : 0 < d.avgEntryPrice := by
  have havg : d.avgEntryPrice = MonitorSafety.notional d / d.totalSize := if_neg h.orders
  rw [havg]
  exact div_pos h.notional h.totalSize

theorem held_newDeal (cfg : BotConfig) (now : Instant) (i : String) (price : ℚ)
    (t : Option GroupTrigger) (hp : 0 < price) : Held (newDeal cfg now i price t) := by
  have hsize := cfg.dca.baseOrderSize_pos
  have hne : cfg.dca.baseOrderSize ≠ 0 := ne_of_gt hsize
  have hnotional : 0 < price * cfg.dca.baseOrderSize := mul_pos hp hsize
  refine ⟨by simp [newDeal, PaperDeal.postInit], ?_, ?_, ?_, ?_, le_refl 0⟩
  · simpa [MonitorSafety.notional, newDeal, PaperDeal.postInit] using hnotional
  · simpa [PaperDeal.totalSize, newDeal, PaperDeal.postInit] using hsize
  · simpa [newDeal, PaperDeal.postInit, PaperDeal.avgEntryPrice, PaperDeal.totalSize, hne] using hp
  · simpa [newDeal, PaperDeal.postInit, PaperDeal.avgEntryPrice, PaperDeal.totalSize, hne] using hp

theorem held_trackWick (price : ℚ) (d : PaperDeal) (hp : 0 < price) (h : Held d) :
    Held (trackWick price d) := by
  refine ⟨h.orders, h.notional, h.totalSize, ?_, ?_, h.peak⟩
  · simp only [trackWick]
    split
    · exact hp
    · exact h.wickHigh
  · simp only [trackWick]
    split
    · exact hp
    · exact h.wickLow

theorem newPeak_pos (cfg : BotConfig) (d : PaperDeal) (price : ℚ) (hp : 0 < price) (h : Held d) :
    0 < newPeak cfg d price := by
  have hpeak : 0 < (if d.peakPrice = 0 then price else d.peakPrice) := by
    split
    · exact hp
    · rename_i hne
      exact lt_of_le_of_ne h.peak (Ne.symm hne)
  unfold newPeak
  cases d.side with
  | long => exact lt_max_of_lt_left hpeak
  | short =>
    refine lt_min hpeak ?_
    split
    · exact lt_min h.wickLow hp
    · exact hp

theorem held_order (d : PaperDeal) (o : PaperOrder) (hp : 0 < o.price) (hs : 0 ≤ o.size)
    (h : Held d) : Held { d with orders := d.orders ++ [o] } := by
  have hadd : 0 ≤ o.price * o.size := mul_nonneg hp.le hs
  refine ⟨by simp, ?_, ?_, h.wickHigh, h.wickLow, h.peak⟩
  · have hn := h.notional
    simp only [MonitorSafety.notional, List.map_append, List.map_cons, List.map_nil,
      List.sum_append, List.sum_cons, List.sum_nil] at hn ⊢
    linarith
  · have ht := h.totalSize
    simp only [PaperDeal.totalSize, List.map_append, List.map_cons, List.map_nil,
      List.sum_append, List.sum_cons, List.sum_nil] at ht ⊢
    linarith

theorem dcaSize_nonneg (cfg : BotConfig) (d : PaperDeal) : 0 ≤ dcaSize cfg d := by
  have hbase := cfg.dca.baseOrderSize_pos
  have hmult := cfg.dca.multiplier_pos
  exact Decimal.roundTo_nonneg 8 _ (mul_nonneg hbase.le (pow_nonneg hmult.le _))

/-! ### Every deal of a run is held -/

/-- The price of an opening or of a filled rung. -/
def orderPrice : EngineEvent → Option ℚ
  | .opened _ p => some p
  | .dcaFilled _ p => some p
  | _ => none

variable (cfg : BotConfig) (sig : Signals)

/-- An operation orders at its own price. -/
theorem orderPrice_op (op : EngineOp) (w : World) :
    ∀ e ∈ (op.program cfg sig w).log, ∀ p, orderPrice e = some p → op.price? = some p := by
  intro e he p hp
  have hby := loggedBy_op cfg sig op w e he
  cases e with
  | opened i price =>
    cases hp
    obtain ⟨now, inp, t, hop⟩ := hby
    rw [hop]
    rfl
  | dcaFilled i price =>
    cases hp
    obtain ⟨now, hop⟩ := hby
    rw [hop]
    rfl
  | _ => cases hp

/-- An operation of an engine under some configuration, or a restart. -/
inductive HoldStep where
  | run (cfg : BotConfig) (sig : Signals) (op : EngineOp)
  | restart (initialBalanceBtc : ℚ)

/-- The world after a step. -/
def HoldStep.apply : HoldStep → World → World
  | .run cfg sig op, w => (op.program cfg sig w).state
  | .restart initialBalanceBtc, w => ⟨bootEngine initialBalanceBtc w.file, w.file⟩

/-- The step works at a positive price, if at any. -/
def HoldStep.AtPositive : HoldStep → Prop
  | .run _ _ op => ∀ p, op.price? = some p → 0 < p
  | .restart _ => True

/-- The deal is open after some run at positive prices. The configuration may be
another one after a restart. -/
def CanHold (d : PaperDeal) : Prop :=
  ∃ (initialBalanceBtc : ℚ) (steps : List HoldStep), (∀ s ∈ steps, s.AtPositive) ∧
    d ∈ (steps.foldl (fun w s => s.apply w) (freshWorld initialBalanceBtc)).engine.state.openDeals.items

/-- Every deal in memory and every open deal of the file is held. -/
structure AllHeld (w : World) : Prop where
  memory : ∀ d ∈ w.engine.state.openDeals.items, Held d
  file : ∀ doc, w.file = some doc → ∀ x ∈ doc.openDeals, Held (dictToDeal x)

theorem held_dealStep (op : EngineOp) (w : World) (hop : ∀ p, op.price? = some p → 0 < p)
    (d d' : PaperDeal) (h : Held d) (hstep : DealStep cfg op (op.program cfg sig w).log d d') :
    Held d' := by
  cases hstep with
  | same => exact h
  | peak now price hpeak =>
    have hp : 0 < price := hop price (by rw [hpeak]; rfl)
    exact ⟨h.orders, h.notional, h.totalSize, h.wickHigh, h.wickLow, (newPeak_pos cfg d price hp h).le⟩
  | order now price hfill =>
    have hp : 0 < price := hop price (orderPrice_op cfg sig op w _ hfill price rfl)
    exact held_order d (dcaOrder cfg now d price) hp (dcaSize_nonneg cfg d) h
  | settings s hedit => exact ⟨h.orders, h.notional, h.totalSize, h.wickHigh, h.wickLow, h.peak⟩

theorem held_reload (d : PaperDeal) (p : ℚ) (h : Held d) : Held (dictToDeal (dealToDict d p)) := by
  rw [dictToDeal_dealToDict]
  exact ⟨h.orders, h.notional, h.totalSize, h.wickHigh, h.wickLow, h.peak⟩

theorem held_memory_op (op : EngineOp) (w : World) (hop : ∀ p, op.price? = some p → 0 < p)
    (h : AllHeld w) : ∀ d ∈ (op.program cfg sig w).state.engine.state.openDeals.items, Held d := by
  by_cases htrack : ∃ price, op = .trackWicks price
  · obtain ⟨price, rfl⟩ := htrack
    intro d hd
    simp only [EngineOp.program, updateDealWickTrackers, Program.modify_run, World.onState_state,
      KeyedDict.mapValues_items, List.mem_map] at hd
    obtain ⟨e, he, rfl⟩ := hd
    exact held_trackWick price e (hop price rfl) (h.memory e he)
  · intro d' hd'
    rcases continues_op cfg sig op (fun price hp => htrack ⟨price, hp⟩) w d' hd' with
      ⟨d, hd, hstep⟩ | ⟨now, price, t, hnew, hopened⟩
    · exact held_dealStep cfg sig op w hop d d' (h.memory d hd) hstep
    · rw [hnew]
      exact held_newDeal cfg now d'.id price t
        (hop price (orderPrice_op cfg sig op w _ hopened price rfl))

theorem mem_set (d : OpenDeals) (a b : PaperDeal) (h : b ∈ (d.set a).items) :
    b = a ∨ b ∈ d.items := by
  have hget := KeyedDict.get?_of_mem _ b h
  by_cases hid : b.id = a.id
  · have hself := KeyedDict.get?_set_self d a
    rw [← hid, hget] at hself
    exact Or.inl (Option.some.inj hself)
  · rw [KeyedDict.get?_set_of_ne d a b.id hid] at hget
    exact Or.inr (KeyedDict.get?_mem _ _ _ hget).1

theorem mem_ofList (l : List PaperDeal) (b : PaperDeal)
    (h : b ∈ (KeyedDict.ofList l : OpenDeals).items) : b ∈ l := by
  have hfold : ∀ (l : List PaperDeal) (d : OpenDeals), b ∈ (l.foldl KeyedDict.set d).items →
      b ∈ l ∨ b ∈ d.items := by
    intro l
    induction l with
    | nil => exact fun d hd => Or.inr hd
    | cons a l ih =>
      intro d hd
      rcases ih (d.set a) hd with hl | hset
      · exact Or.inl (List.mem_cons_of_mem a hl)
      · rcases mem_set d a b hset with rfl | hd
        · exact Or.inl List.mem_cons_self
        · exact Or.inr hd
  rcases hfold l KeyedDict.empty h with hl | hempty
  · exact hl
  · cases hempty

theorem allHeld_op (op : EngineOp) (w : World) (hop : ∀ p, op.price? = some p → 0 < p)
    (h : AllHeld w) : AllHeld (op.program cfg sig w).state := by
  have hmem := held_memory_op cfg sig op w hop h
  have hdocs : ∀ (ds : List PaperDeal) (q : ℚ), (∀ d ∈ ds, Held d) →
      ∀ x ∈ ds.map (fun d => dealToDict d q), Held (dictToDeal x) := by
    intro ds q hds x hx
    obtain ⟨d, hd, rfl⟩ := List.mem_map.mp hx
    exact held_reload d q (hds d hd)
  refine ⟨hmem, ?_⟩
  intro doc hdoc x hx
  by_cases hw : ∃ now price isOpen, op = .write now price isOpen
  · obtain ⟨now, price, isOpen, rfl⟩ := hw
    cases hdoc
    exact hdocs w.engine.state.openDeals.items price h.memory x hx
  · rcases file_op cfg sig op (fun now price isOpen hp => hw ⟨now, price, isOpen, hp⟩) w with hf | hf
    · rw [hf] at hdoc
      exact h.file doc hdoc x hx
    · rw [hf] at hdoc
      cases hdoc
      exact hdocs _ 0 hmem x hx

theorem allHeld_step (s : HoldStep) (w : World) (hs : s.AtPositive) (h : AllHeld w) :
    AllHeld (s.apply w) := by
  cases s with
  | run cfg sig op => exact allHeld_op cfg sig op w hs h
  | restart initialBalanceBtc =>
    refine ⟨?_, h.file⟩
    intro d hd
    cases hfile : w.file with
    | none =>
      simp only [HoldStep.apply, hfile, bootEngine, PaperState.init] at hd
      cases hd
    | some doc =>
      simp only [HoldStep.apply, hfile, bootEngine, StateDoc.loadOpenDeals] at hd
      obtain ⟨x, hx, rfl⟩ := List.mem_map.mp (mem_ofList _ d hd)
      exact h.file doc hfile x hx

theorem allHeld_run (steps : List HoldStep) (w : World) (hs : ∀ s ∈ steps, s.AtPositive)
    (h : AllHeld w) : AllHeld (steps.foldl (fun w s => s.apply w) w) := by
  induction steps generalizing w with
  | nil => exact h
  | cons s steps ih =>
    exact ih (s.apply w) (fun t ht => hs t (List.mem_cons_of_mem s ht))
      (allHeld_step s w (hs s List.mem_cons_self) h)

/-- Every deal the engine can hold was opened and filled at positive prices. -/
theorem held_of_canHold (d : PaperDeal) (h : CanHold d) : Held d := by
  obtain ⟨b, steps, hs, hd⟩ := h
  have hfresh : AllHeld (freshWorld b) := by
    refine ⟨?_, ?_⟩
    · intro e he
      cases he
    · intro doc hdoc
      cases hdoc
  exact (allHeld_run steps (freshWorld b) hs hfresh).memory d hd

/-! ### Percentages with positive targets -/

theorem pyDiv_pos_iff (a b : ℚ) (ha : 0 < a) : (∃ t, pyDiv a b = .ok t ∧ 0 < t) ↔ 0 < b := by
  constructor
  · intro h
    obtain ⟨t, ht, hpos⟩ := h
    obtain ⟨_, heq⟩ := pyDiv_eq_ok a b t ht
    rw [heq] at hpos
    exact (div_pos_iff_of_pos_left ha).mp hpos
  · intro hb
    exact ⟨a / b, pyDiv_ok a b (ne_of_gt hb), div_pos ha hb⟩

/-- The take-profit percentages with a positive target. -/
def TpInRange (side : Side) (pct : ℚ) : Prop :=
  match side with
  | .long => pct < 100
  | .short => -100 < pct

/-- The stop-loss percentages with a positive target. -/
def SlInRange (side : Side) (pct : ℚ) : Prop :=
  match side with
  | .long => -100 < pct
  | .short => pct < 100

theorem tpTarget_pos_iff (avg pct : ℚ) (side : Side) (h : 0 < avg) :
    (∃ t, computeTpTargetPrice avg pct side = .ok t ∧ 0 < t) ↔ TpInRange side pct := by
  cases side with
  | long =>
    simp only [computeTpTargetPrice, pyDiv_pos_iff avg _ h, TpInRange]
    constructor
    · intro hp
      linarith
    · intro hp
      linarith
  | short =>
    simp only [computeTpTargetPrice, pyDiv_pos_iff avg _ h, TpInRange]
    constructor
    · intro hp
      linarith
    · intro hp
      linarith

theorem slTarget_pos_iff (ref pct : ℚ) (side : Side) (h : 0 < ref) :
    (∃ t, computeSlTargetPrice ref pct side = .ok t ∧ 0 < t) ↔ SlInRange side pct := by
  cases side with
  | long =>
    simp only [computeSlTargetPrice, pyDiv_pos_iff ref _ h, SlInRange]
    constructor
    · intro hp
      linarith
    · intro hp
      linarith
  | short =>
    simp only [computeSlTargetPrice, pyDiv_pos_iff ref _ h, SlInRange]
    constructor
    · intro hp
      linarith
    · intro hp
      linarith

/-! ### Settings that cannot stop a tick -/

/-- The side and the overrides of a deal. -/
structure DealSettings where
  side : Side
  tpOverride : Option TpOverride
  slOverride : Option SlOverride

/-- The settings of a deal. -/
def settingsOf (d : PaperDeal) : DealSettings := ⟨d.side, d.tpOverride, d.slOverride⟩

/-- The take-profit percentage under the settings, `none` where it is off. -/
def DealSettings.tpPct (cfg : BotConfig) (s : DealSettings) : Option ℚ :=
  match s.tpOverride with
  | some ov =>
    if ov.enabled.getD true then some (ov.targetPct.getD cfg.takeProfit.targetPct) else none
  | none => if cfg.takeProfit.enabled then some cfg.takeProfit.targetPct else none

/-- The stop-loss percentage under the settings, `none` where it is off. -/
def DealSettings.slPct (cfg : BotConfig) (s : DealSettings) : Option ℚ :=
  match s.slOverride with
  | some ov => if ov.enabled.getD true then some (ov.pct.getD cfg.stopLoss.pct) else none
  | none => if cfg.stopLoss.type = .none then none else some cfg.stopLoss.pct

theorem slSettings_pct (d : PaperDeal) :
    (slSettings cfg d).map Prod.snd = (settingsOf d).slPct cfg := by
  simp only [slSettings, DealSettings.slPct, settingsOf]
  cases d.slOverride with
  | none =>
    simp only
    split <;> rfl
  | some ov =>
    simp only
    split <;> rfl

/-- The three checks on a deal return, and the targets they compute are positive. -/
structure ChecksSafe (c : Candles) (d : PaperDeal) (price : ℚ) : Prop where
  tpTarget : ∀ pct, tpTargetPct cfg d = some pct →
    ∃ t, computeTpTargetPrice d.avgEntryPrice pct d.side = .ok t ∧ 0 < t
  slTarget : ∀ s, slSettings cfg d = some s →
    ∃ t, computeSlTargetPrice (slReference cfg d price s.1) s.2 d.side = .ok t ∧ 0 < t
  tpReturns : ∃ v, tpVerdict cfg sig c d price = .ok v
  dcaReturns : ∃ b, dcaVerdict cfg d price = .ok b

/-- At every positive price the checks on a deal with these settings are safe, and
monitoring deals with these settings returns. -/
structure MonitorsSafely (s : DealSettings) : Prop where
  checks : ∀ (d : PaperDeal) (c : Candles) (price : ℚ), CanHold d → settingsOf d = s → 0 < price →
    ChecksSafe cfg sig c d price
  returns : ∀ (w : World) (inp : TickInput) (price : ℚ),
    (∀ d ∈ w.engine.state.openDeals.items, CanHold d ∧ settingsOf d = s) → 0 < price →
    (monitorOpenDeals cfg sig inp.candles inp.now price w).result = .ok ()

/-- The percentages have positive targets, and the confirmation of a take profit
that is on raises on no closes. -/
structure InRange (s : DealSettings) : Prop where
  tp : ∀ pct, s.tpPct cfg = some pct → TpInRange s.side pct
  sl : ∀ pct, s.slPct cfg = some pct → SlInRange s.side pct
  confirm : ∀ pct condition, s.tpPct cfg = some pct →
    cfg.takeProfit.indicatorConfirm = some condition → condition ≠ "" →
    ∀ closes, closes ≠ [] → ∃ b, sig.checkMacdSignal closes condition = .ok b

theorem slReference_pos (d : PaperDeal) (price : ℚ) (t : SlType) (hp : 0 < price) (h : Held d) :
    0 < slReference cfg d price t := by
  have hpeak := newPeak_pos cfg d price hp h
  have havg := Held.avg d h
  cases t with
  | trailing => exact hpeak
  | none => exact havg
  | fixed => exact havg
  | other s => exact havg

theorem tpGates_ok (c : Candles) (d : PaperDeal) (price : ℚ)
    (h : ∀ condition, cfg.takeProfit.indicatorConfirm = some condition → condition ≠ "" →
      ∀ closes, closes ≠ [] → ∃ b, sig.checkMacdSignal closes condition = .ok b) :
    ∃ b, tpGates cfg sig c d price = .ok b := by
  have hconfirm : ∃ b, IndicatorEngine.checkTpConfirmation cfg sig c = .ok b := by
    unfold IndicatorEngine.checkTpConfirmation
    split
    · exact ⟨true, rfl⟩
    · exact ⟨true, rfl⟩
    · rename_i condition hne hcond
      split
      · exact ⟨false, rfl⟩
      · rename_i hcloses
        exact h condition hcond (fun he => hne he) _ (fun he => hcloses he)
  unfold tpGates
  cases cfg.takeProfit.minimumTpPct with
  | none =>
    simp only [Bool.false_eq_true, if_false]
    split
    · exact ⟨true, rfl⟩
    · exact hconfirm
  | some minTp =>
    dsimp only
    split
    · exact ⟨false, rfl⟩
    · split
      · exact ⟨true, rfl⟩
      · exact hconfirm

theorem tpVerdict_ok (c : Candles) (d : PaperDeal) (price : ℚ)
    (htarget : ∀ pct, tpTargetPct cfg d = some pct →
      ∃ t, computeTpTargetPrice d.avgEntryPrice pct d.side = .ok t ∧ 0 < t)
    (hgates : ∀ pct, tpTargetPct cfg d = some pct → ∃ b, tpGates cfg sig c d price = .ok b) :
    ∃ v, tpVerdict cfg sig c d price = .ok v := by
  unfold tpVerdict
  cases hp : tpTargetPct cfg d with
  | none => exact ⟨.idle, rfl⟩
  | some pct =>
    obtain ⟨t, ht, _⟩ := htarget pct hp
    obtain ⟨b, hb⟩ := hgates pct hp
    simp only [ht, hb, bind, Except.bind]
    split
    · cases b with
      | true => exact ⟨_, rfl⟩
      | false => exact ⟨.held, rfl⟩
    · cases IndicatorEngine.checkTpIndicatorGroups cfg sig c with
      | none => exact ⟨.idle, rfl⟩
      | some info => exact ⟨.indicatorFill info, rfl⟩

theorem dcaVerdict_ok (d : PaperDeal) (price : ℚ) (h : d.orders ≠ []) :
    ∃ b, dcaVerdict cfg d price = .ok b := by
  unfold dcaVerdict
  split
  · cases hlast : d.orders.getLast? with
    | none => exact absurd (List.getLast?_eq_none_iff.mp hlast) h
    | some last => exact ⟨_, rfl⟩
  · exact ⟨false, rfl⟩

theorem checksSafe_of_inRange (c : Candles) (d : PaperDeal) (price : ℚ) (hd : Held d)
    (hp : 0 < price) (h : InRange cfg sig (settingsOf d)) : ChecksSafe cfg sig c d price := by
  have htarget : ∀ pct, tpTargetPct cfg d = some pct →
      ∃ t, computeTpTargetPrice d.avgEntryPrice pct d.side = .ok t ∧ 0 < t := by
    intro pct hpct
    exact (tpTarget_pos_iff d.avgEntryPrice pct d.side (Held.avg d hd)).mpr (h.tp pct hpct)
  refine ⟨htarget, ?_, ?_, ?_⟩
  · intro s hs
    have hpct : (settingsOf d).slPct cfg = some s.2 := by
      rw [← slSettings_pct, hs]
      rfl
    exact (slTarget_pos_iff _ s.2 d.side (slReference_pos cfg d price s.1 hp hd)).mpr
      (h.sl s.2 hpct)
  · refine tpVerdict_ok cfg sig c d price htarget fun pct hpct => tpGates_ok cfg sig c d price ?_
    intro condition hcond hne closes hcloses
    exact h.confirm pct condition hpct hcond hne closes hcloses
  · exact dcaVerdict_ok cfg d price hd.orders

/-- A round whose three checks return is not cut short. -/
theorem roundEnd_ne_aborts (c : Candles) (price : ℚ) (n : ℕ) (d : PaperDeal)
    (htp : ∃ v, tpVerdict cfg sig c d price = .ok v)
    (hsl : ∀ s, slSettings cfg d = some s → ∃ b, slVerdict cfg d price s = .ok b)
    (hdca : ∃ b, dcaVerdict cfg d price = .ok b) : roundEnd cfg sig c price n d ≠ .aborts := by
  obtain ⟨v, hv⟩ := htp
  obtain ⟨b, hb⟩ := hdca
  have hend : dcaEnd cfg price n d ≠ .aborts := by
    unfold dcaEnd
    split
    · simp
    · rw [hb]
      cases b <;> simp
  have htail : tailEnd cfg price n d ≠ .aborts := by
    unfold tailEnd
    cases hs : slSettings cfg d with
    | none => exact hend
    | some s =>
      obtain ⟨hit, hhit⟩ := hsl s hs
      simp only [Option.map_some, hhit]
      cases hit with
      | true => simp
      | false => exact hend
  unfold roundEnd
  rw [hv]
  cases v with
  | idle => exact htail
  | held => exact htail
  | priceFill f => simp
  | indicatorFill info => simp

theorem roundEnd_returns (c : Candles) (price : ℚ) (n : ℕ) (d : PaperDeal)
    (h : ChecksSafe cfg sig c d price) : roundEnd cfg sig c price n d ≠ .aborts := by
  refine roundEnd_ne_aborts cfg sig c price n d h.tpReturns ?_ h.dcaReturns
  intro s hs
  obtain ⟨t, ht, _⟩ := h.slTarget s hs
  exact ⟨slHit d.side price t, by rw [slVerdict, ht, Except.map]⟩

theorem monitorDeals_returns (inp : TickInput) (price : ℚ) (ds : List PaperDeal) (n : ℕ) (w : World)
    (hmeets : Meets w ds) (h : ∀ d ∈ ds, ∀ m, roundEnd cfg sig inp.candles price m d ≠ .aborts) :
    (monitorDeals cfg sig inp.candles inp.now price n (ds.map PaperDeal.id) w).result = .ok () := by
  induction ds generalizing n w with
  | nil => rfl
  | cons d ds ih =>
    have hspec := monitorDeal_spec cfg sig price inp n d w (hmeets.2 d List.mem_cons_self)
    have hrest := fun m => ih m _ (meets_tail cfg sig price inp n d ds w hmeets)
      fun e he => h e (List.mem_cons_of_mem d he)
    rw [List.map_cons, monitorDeals_cons]
    cases hend : roundEnd cfg sig inp.candles price n d with
    | aborts => exact absurd hend (h d List.mem_cons_self n)
    | closes f =>
      rw [hend] at hspec
      rw [Program.bind_ok _ _ _ n hspec.1]
      exact hrest n
    | fills =>
      rw [hend] at hspec
      rw [Program.bind_ok _ _ _ (n + 1) hspec.1]
      exact hrest (n + 1)
    | rests =>
      rw [hend] at hspec
      rw [Program.bind_ok _ _ _ n hspec.1]
      exact hrest n

/-- Monitoring held deals whose settings are in range returns, whatever other
settings the deals beside them have. -/
theorem monitorOpenDeals_returns (inp : TickInput) (price : ℚ) (w : World) (hp : 0 < price)
    (h : ∀ d ∈ w.engine.state.openDeals.items, Held d ∧ InRange cfg sig (settingsOf d)) :
    (monitorOpenDeals cfg sig inp.candles inp.now price w).result = .ok () := by
  obtain ⟨v, hv⟩ : ∃ v, v = (updateDealWickTrackers price w).state := ⟨_, rfl⟩
  have hrun : monitorOpenDeals cfg sig inp.candles inp.now price w =
      monitorDeals cfg sig inp.candles inp.now price 0
        (v.engine.state.openDeals.items.map PaperDeal.id) v := by
    rw [hv]
    rfl
  rw [hrun]
  refine monitorDeals_returns cfg sig inp price _ 0 v (meets_items v) fun d hd n => ?_
  rw [hv] at hd
  simp only [updateDealWickTrackers, Program.modify_run, World.onState_state,
    KeyedDict.mapValues_items, List.mem_map] at hd
  obtain ⟨e, he, rfl⟩ := hd
  obtain ⟨hheld, hrange⟩ := h e he
  exact roundEnd_returns cfg sig inp.candles price n _
    (checksSafe_of_inRange cfg sig inp.candles _ price (held_trackWick price e hp hheld) hp hrange)

/-! ### The settings of a deal that cannot be monitored -/

/-- A bot of a side with twofold leverage. -/
def sideBot (side : Side) : BotConfig :=
  { BotConfig.small "side" with direction := side, leverage := .twofold }

/-- Open a deal at 100, then give it the overrides. -/
def holdSteps (s : DealSettings) : List HoldStep :=
  [.run (sideBot s.side) .silent (.open 0 (.accepted "202501010000-0001") 100 none),
    .run (sideBot s.side) .silent
      (.sentinel 0 100 (.edit "202501010000-0001" ⟨s.tpOverride, s.slOverride, none⟩))]

/-- The deal that is then open. -/
def heldDeal (s : DealSettings) : PaperDeal :=
  { newDeal (sideBot s.side) 0 "202501010000-0001" 100 none with
    tpOverride := s.tpOverride, slOverride := s.slOverride }

theorem heldDeal_applySettings (s : DealSettings) :
    applySettings ⟨s.tpOverride, s.slOverride, none⟩
      (newDeal (sideBot s.side) 0 "202501010000-0001" 100 none) = heldDeal s := by
  have hnone : ∀ {α : Type} (o : Option α), (if o.isSome then o else none) = o := by
    intro α o
    cases o <;> rfl
  simp only [applySettings, heldDeal, newDeal, PaperDeal.postInit, hnone, Option.getD_none]

theorem canHold_heldDeal (s : DealSettings) : CanHold (heldDeal s) := by
  refine ⟨1, holdSteps s, ?_, ?_⟩
  · intro t ht
    simp only [holdSteps, List.mem_cons, List.not_mem_nil, or_false] at ht
    rcases ht with rfl | rfl
    · intro p hp
      cases hp
      norm_num
    · intro p hp
      cases hp
      norm_num
  · obtain ⟨deal, hdeal⟩ : ∃ deal, deal = newDeal (sideBot s.side) 0 "202501010000-0001" 100 none :=
      ⟨_, rfl⟩
    obtain ⟨w, hw⟩ : ∃ w, w = (HoldStep.run (sideBot s.side) .silent
        (.open 0 (.accepted "202501010000-0001") 100 none)).apply (freshWorld 1) := ⟨_, rfl⟩
    have hopen : w.engine.state.openDeals = KeyedDict.empty.set deal := by
      have hcreate : createWithRetry (.accepted "202501010000-0001") =
          some "202501010000-0001" := rfl
      rw [hw, hdeal]
      simp only [HoldStep.apply, EngineOp.program, openDeal_run, hcreate]
      rfl
    have hget : w.deal? "202501010000-0001" = some deal := by
      have hself := KeyedDict.get?_set_self (KeyedDict.empty : OpenDeals) deal
      rw [World.deal?, hopen]
      rw [hdeal] at hself ⊢
      exact hself
    have hedit : ((HoldStep.run (sideBot s.side) .silent
        (.sentinel 0 100 (.edit "202501010000-0001" ⟨s.tpOverride, s.slOverride, none⟩))).apply
        w).deal? "202501010000-0001" = some (heldDeal s) := by
      have hfound : w.engine.state.openDeals.get? "202501010000-0001" = some deal := hget
      simp only [HoldStep.apply, EngineOp.program, consumeSentinel_run, World.onDeal,
        World.deal?, World.onState_state, PaperState.updateDeal, KeyedDict.get?_modify_self, hfound,
        Option.map_some]
      rw [hdeal, heldDeal_applySettings]
    have hmem := (KeyedDict.get?_mem _ _ _ hedit).1
    rw [hw] at hmem
    exact hmem

theorem heldDeal_avg (s : DealSettings) : (heldDeal s).avgEntryPrice = 100 := by
  simp [heldDeal, newDeal, PaperDeal.postInit, PaperDeal.avgEntryPrice, PaperDeal.totalSize,
    sideBot, BotConfig.small, BotConfig.ofBaseOrder]

/-- The PnL of that deal in percent of its margin. -/
theorem heldDeal_pnlPct (s : DealSettings) (price : ℚ) (hp : 0 < price) :
    ((heldDeal s).calculatePnl price).2 =
      match s.side with
      | .long => 400 * (price - 100) / price
      | .short => 400 * (100 - price) / price := by
  have horders : (heldDeal s).orders ≠ [] := by simp [heldDeal, newDeal, PaperDeal.postInit]
  have hsize : (heldDeal s).totalSize = 1 / 100 := by
    simp [heldDeal, newDeal, PaperDeal.postInit, PaperDeal.totalSize, sideBot, BotConfig.small,
      BotConfig.ofBaseOrder]
  have hlev : (heldDeal s).leverage = 2 := rfl
  have hside : (heldDeal s).side = s.side := rfl
  have hnot : ¬ ((heldDeal s).orders = [] ∨ price ≤ 0) := by
    intro h
    rcases h with h | h
    · exact horders h
    · exact absurd hp (not_lt.mpr h)
  have havg : ¬ (100 : ℚ) ≤ 0 := by norm_num
  have hne : price ≠ 0 := ne_of_gt hp
  simp only [PaperDeal.calculatePnl, if_neg hnot, heldDeal_avg, if_neg havg, hsize, hlev, hside]
  cases s.side with
  | long =>
    push_cast
    field_simp
    ring
  | short =>
    push_cast
    field_simp
    ring

/-- A price beyond the target at which the deal has gained more than its margin. -/
def reachingPrice (side : Side) (target : ℚ) : ℚ :=
  match side with
  | .long => max target 200
  | .short => min target 50

theorem reachingPrice_spec (s : DealSettings) (target : ℚ) (h : 0 < target) :
    0 < reachingPrice s.side target ∧
      reaches s.side (reachingPrice s.side target) target = true ∧
      100 ≤ ((heldDeal s).calculatePnl (reachingPrice s.side target)).2 := by
  have hpos : 0 < reachingPrice s.side target := by
    unfold reachingPrice
    cases s.side with
    | long => exact lt_max_of_lt_left h
    | short => exact lt_min h (by norm_num)
  refine ⟨hpos, ?_, ?_⟩
  · unfold reachingPrice reaches
    cases s.side with
    | long => simp
    | short => simp
  · rw [heldDeal_pnlPct s _ hpos]
    revert hpos
    unfold reachingPrice
    cases s.side with
    | long =>
      intro hpos
      have hlow : (200 : ℚ) ≤ max target 200 := le_max_right _ _
      dsimp only at hpos ⊢
      rw [le_div_iff₀ hpos]
      linarith
    | short =>
      intro hpos
      have hhigh : min target 50 ≤ (50 : ℚ) := min_le_right _ _
      dsimp only at hpos ⊢
      rw [le_div_iff₀ hpos]
      linarith

/-- Candles with the same closes on every timeframe. -/
def flatCandles (closes : List ℚ) : Candles := ⟨fun _ => closes, fun _ => none, fun _ => none⟩

/-- At that price the take profit asks for the confirmation. -/
theorem tpVerdict_confirm (s : DealSettings) (pct target : ℚ) (condition : String) (closes : List ℚ)
    (hpct : s.tpPct cfg = some pct)
    (htarget : computeTpTargetPrice (heldDeal s).avgEntryPrice pct s.side = .ok target)
    (hpos : 0 < target) (hcond : cfg.takeProfit.indicatorConfirm = some condition)
    (hne : condition ≠ "") (hcloses : closes ≠ []) (e : PyError)
    (he : sig.checkMacdSignal closes condition = .error e) :
    tpVerdict cfg sig (flatCandles closes) (heldDeal s) (reachingPrice s.side target) = .error e := by
  obtain ⟨_, hreach, hpnl⟩ := reachingPrice_spec s target hpos
  have hside : (heldDeal s).side = s.side := rfl
  have htp : tpTargetPct cfg (heldDeal s) = some pct := hpct
  have hconfirm : IndicatorEngine.checkTpConfirmation cfg sig (flatCandles closes) = .error e := by
    unfold IndicatorEngine.checkTpConfirmation
    rw [hcond]
    split
    · rename_i hnone
      cases hnone
    · rename_i hempty
      exact absurd (Option.some.inj hempty) hne
    · rename_i c _ hc
      have hcc := Option.some.inj hc
      subst hcc
      split
      · rename_i hnil
        exact absurd hnil hcloses
      · exact he
  have hgates : tpGates cfg sig (flatCandles closes) (heldDeal s) (reachingPrice s.side target) =
      .error e := by
    unfold tpGates
    cases hmin : cfg.takeProfit.minimumTpPct with
    | none =>
      simp only [Bool.false_eq_true, if_false]
      split
      · rename_i hnil
        exact absurd hnil hcloses
      · exact hconfirm
    | some minTp =>
      have hle : minTp ≤ 100 := (cfg.takeProfit.minimumTpPct_range minTp hmin).2
      have hnot : ¬ ((heldDeal s).calculatePnl (reachingPrice s.side target)).2 < minTp :=
        not_lt.mpr (hle.trans hpnl)
      simp only [hnot, decide_false, Bool.false_eq_true, if_false]
      split
      · rename_i hnil
        exact absurd hnil hcloses
      · exact hconfirm
  unfold tpVerdict
  rw [htp]
  simp only [hside, htarget, hreach, hgates, bind, Except.bind, Bool.or_true, if_true]

/-- A long bot whose take profit is at the bound of its field. -/
def fullTargetBot : BotConfig :=
  { BotConfig.small "full" with takeProfit := .full }

end MonitorSafety

end Reverto
