import Mathlib.Tactic
import Reverto.Core.MonitorSafety
import Reverto.Strategies.Macd

/-!
# Stop losses behind a take profit that raises (core/trading_engine.py)

`_check_tp` runs before `_check_sl` in the loop of `_monitor_open_deals`. The indicator
groups are evaluated under a `try`, the target and the confirmation are not.
-/

namespace Reverto

namespace StopEvaluation

open TradingEngine PriceGuard

variable (cfg : BotConfig) (sig : Signals) (c : Candles) (price : ℚ)

/-- The effective stop loss of the deal is hit. -/
def StopHit (d : PaperDeal) : Prop :=
  ∃ s, slSettings cfg d = some s ∧ slVerdict cfg d price s = .ok true

/-- Monitoring at the price closes every open deal whose stop loss is hit there. -/
def StopsClose (inp : TickInput) (w : World) : Prop :=
  ∀ d ∈ w.engine.state.openDeals.items, StopHit cfg price (trackWick price d) →
    (monitorOpenDeals cfg (Macd.signals sig) inp.candles inp.now price w).state.deal? d.id = none

/-! ### The inputs that make a round raise -/

/-- The take-profit target divides by zero. -/
def TpUndefined (d : PaperDeal) (pct : ℚ) : Prop :=
  match d.side with
  | .long => pct = 100
  | .short => pct = -100

/-- The stop-loss line divides by zero. -/
def SlUndefined (d : PaperDeal) (pct : ℚ) : Prop :=
  match d.side with
  | .long => pct = -100
  | .short => pct = 100

/-- The take-profit target is reached, by the wick or by the tick. -/
def Reached (d : PaperDeal) (pct : ℚ) : Prop :=
  ∃ target, computeTpTargetPrice d.avgEntryPrice pct d.side = .ok target ∧
    (wickHit cfg d price target || reaches d.side price target) = true

/-- The minimum profit holds the deal. -/
def BelowMinimum (d : PaperDeal) : Prop :=
  ∃ minTp, cfg.takeProfit.minimumTpPct = some minTp ∧ (d.calculatePnl price).2 < minTp

/-- The confirmation is asked on candles that have arrived. -/
def Asked (condition : String) : Prop :=
  cfg.takeProfit.indicatorConfirm = some condition ∧ condition ≠ "" ∧
    c.closesPerTf cfg.timeframe ≠ []

/-- The confirmation has too few candles or a condition that MACD does not know. -/
def ConfirmRaises : Prop :=
  ∃ condition, Asked cfg c condition ∧
    ((c.closesPerTf cfg.timeframe).length < 78 ∨ condition ∉ Macd.knownConditions)

/-- The confirmation is asked and denied. -/
def ConfirmDenies : Prop :=
  ∃ condition, Asked cfg c condition ∧
    Macd.checkMacdSignal (c.closesPerTf cfg.timeframe) condition false = .ok false

/-- The take profit of the round raises. -/
def TpRaises (d : PaperDeal) : Prop :=
  ∃ pct, tpTargetPct cfg d = some pct ∧
    (TpUndefined d pct ∨ (Reached cfg price d pct ∧ ¬ BelowMinimum cfg price d ∧ ConfirmRaises cfg c))

/-- The take profit of the round leaves the deal to its stop loss. -/
def TpLeaves (d : PaperDeal) : Prop :=
  ∀ pct, tpTargetPct cfg d = some pct → ¬ TpUndefined d pct ∧
    (Reached cfg price d pct → BelowMinimum cfg price d ∨ ConfirmDenies cfg c) ∧
    (¬ Reached cfg price d pct → IndicatorEngine.checkTpIndicatorGroups cfg sig c = none)

/-- The round of the deal raises, at the take profit or at the stop loss behind it. -/
def RoundRaises (d : PaperDeal) : Prop :=
  TpRaises cfg c price d ∨
    (TpLeaves cfg sig c price d ∧ ∃ s, slSettings cfg d = some s ∧ SlUndefined d s.2)

/-- No deal whose stop loss is hit stands at or behind a deal whose round raises. -/
def RoundsReturn (ds : List PaperDeal) : Prop :=
  ∀ before d behind, ds = before ++ d :: behind → StopHit cfg price d →
    ∀ e ∈ before ++ [d], ¬ RoundRaises cfg sig c price e

/-! ### The verdicts by their inputs -/

theorem pyDiv_error_iff (a b : ℚ) : (∃ x, pyDiv a b = .error x) ↔ b = 0 := by
  unfold pyDiv
  split
  · rename_i hb
    simp [hb]
  · rename_i hb
    simp [hb]

theorem tpTarget_error_iff (d : PaperDeal) (pct : ℚ) :
    (∃ x, computeTpTargetPrice d.avgEntryPrice pct d.side = .error x) ↔ TpUndefined d pct := by
  unfold TpUndefined computeTpTargetPrice
  cases d.side with
  | long =>
    simp only [pyDiv_error_iff]
    constructor
    · intro h
      linarith
    · intro h
      rw [h]
      norm_num
  | short =>
    simp only [pyDiv_error_iff]
    constructor
    · intro h
      linarith
    · intro h
      rw [h]
      norm_num

theorem slVerdict_error_iff (d : PaperDeal) (s : SlType × ℚ) :
    (∃ x, slVerdict cfg d price s = .error x) ↔ SlUndefined d s.2 := by
  have hmap : (∃ x, slVerdict cfg d price s = .error x) ↔
      ∃ x, computeSlTargetPrice (slReference cfg d price s.1) s.2 d.side = .error x := by
    unfold slVerdict
    cases computeSlTargetPrice (slReference cfg d price s.1) s.2 d.side with
    | error x => simp [Except.map]
    | ok t => simp [Except.map]
  rw [hmap]
  unfold SlUndefined computeSlTargetPrice
  cases d.side with
  | long =>
    simp only [pyDiv_error_iff]
    constructor
    · intro h
      linarith
    · intro h
      rw [h]
      norm_num
  | short =>
    simp only [pyDiv_error_iff]
    constructor
    · intro h
      linarith
    · intro h
      rw [h]
      norm_num

/-- The confirmation of the round, on candles that have arrived. -/
theorem confirmation_eq (hcloses : c.closesPerTf cfg.timeframe ≠ []) :
    (∃ condition, Asked cfg c condition ∧
      IndicatorEngine.checkTpConfirmation cfg (Macd.signals sig) c =
        Macd.checkMacdSignal (c.closesPerTf cfg.timeframe) condition false) ∨
    ((∀ condition, ¬ Asked cfg c condition) ∧
      IndicatorEngine.checkTpConfirmation cfg (Macd.signals sig) c = .ok true) := by
  unfold IndicatorEngine.checkTpConfirmation
  split
  · rename_i hnone
    refine .inr ⟨fun condition h => ?_, rfl⟩
    have hsome := h.1
    rw [hnone] at hsome
    cases hsome
  · rename_i hempty
    refine .inr ⟨fun condition h => ?_, rfl⟩
    have hsome := h.1
    rw [hempty] at hsome
    exact h.2.1 (Option.some.inj hsome).symm
  · rename_i condition hne hcond
    refine .inl ⟨condition, ⟨hcond, fun he => hne he, hcloses⟩, ?_⟩
    split
    · rename_i hnil
      exact absurd hnil hcloses
    · rfl

theorem asked_unique (condition condition' : String) (h : Asked cfg c condition)
    (h' : Asked cfg c condition') : condition = condition' :=
  Option.some.inj (h.1.symm.trans h'.1)

/-- The gates of a reached target. -/
theorem tpGates_eq (d : PaperDeal) :
    (BelowMinimum cfg price d ∧ tpGates cfg (Macd.signals sig) c d price = .ok false) ∨
    (¬ BelowMinimum cfg price d ∧ c.closesPerTf cfg.timeframe = [] ∧
      tpGates cfg (Macd.signals sig) c d price = .ok true) ∨
    (¬ BelowMinimum cfg price d ∧ c.closesPerTf cfg.timeframe ≠ [] ∧
      tpGates cfg (Macd.signals sig) c d price =
        IndicatorEngine.checkTpConfirmation cfg (Macd.signals sig) c) := by
  unfold tpGates BelowMinimum
  cases hmin : cfg.takeProfit.minimumTpPct with
  | none =>
    right
    simp only [Bool.false_eq_true, if_false]
    split
    · rename_i hnil
      exact .inl ⟨by simp, hnil, rfl⟩
    · rename_i hcons
      exact .inr ⟨by simp, fun h => hcons h, rfl⟩
  | some minTp =>
    by_cases hbelow : (d.calculatePnl price).2 < minTp
    · exact .inl ⟨⟨minTp, rfl, hbelow⟩, by simp [hbelow]⟩
    · right
      have hnot : ¬ ∃ m, some minTp = some m ∧ (d.calculatePnl price).2 < m := by simpa using hbelow
      simp only [hbelow, decide_false, Bool.false_eq_true, if_false]
      split
      · rename_i hnil
        exact .inl ⟨hnot, hnil, rfl⟩
      · rename_i hcons
        exact .inr ⟨hnot, fun h => hcons h, rfl⟩

theorem tpGates_error_iff (d : PaperDeal) :
    (∃ x, tpGates cfg (Macd.signals sig) c d price = .error x) ↔
      ¬ BelowMinimum cfg price d ∧ ConfirmRaises cfg c := by
  rcases tpGates_eq cfg sig c price d with ⟨hbelow, hrun⟩ | ⟨hbelow, hnil, hrun⟩ |
    ⟨hbelow, hcloses, hrun⟩
  · simp [hrun, hbelow]
  · have hno : ¬ ConfirmRaises cfg c := fun ⟨_, h, _⟩ => h.2.2 hnil
    simp [hrun, hno]
  · rw [hrun]
    rcases confirmation_eq cfg sig c hcloses with ⟨condition, hasked, heq⟩ | ⟨hnone, heq⟩
    · rw [heq, Macd.checkMacdSignal_error_iff]
      constructor
      · exact fun h => ⟨hbelow, condition, hasked, h⟩
      · rintro ⟨_, condition', hasked', h⟩
        rw [asked_unique cfg c condition condition' hasked hasked']
        exact h
    · rw [heq]
      have hno : ¬ ConfirmRaises cfg c := fun ⟨condition, h, _⟩ => hnone condition h
      simp [hno]

theorem tpGates_false_iff (d : PaperDeal) :
    tpGates cfg (Macd.signals sig) c d price = .ok false ↔
      BelowMinimum cfg price d ∨ ConfirmDenies cfg c := by
  rcases tpGates_eq cfg sig c price d with ⟨hbelow, hrun⟩ | ⟨hbelow, hnil, hrun⟩ |
    ⟨hbelow, hcloses, hrun⟩
  · simp [hrun, hbelow]
  · have hno : ¬ ConfirmDenies cfg c := fun ⟨_, h, _⟩ => h.2.2 hnil
    simp [hrun, hno, hbelow]
  · rw [hrun]
    rcases confirmation_eq cfg sig c hcloses with ⟨condition, hasked, heq⟩ | ⟨hnone, heq⟩
    · rw [heq]
      constructor
      · exact fun h => .inr ⟨condition, hasked, h⟩
      · rintro (h | ⟨condition', hasked', h⟩)
        · exact absurd h hbelow
        · rw [asked_unique cfg c condition condition' hasked hasked']
          exact h
    · have hno : ¬ ConfirmDenies cfg c := fun ⟨condition, h, _⟩ => hnone condition h
      simp [heq, hno, hbelow]

section Target

variable (d : PaperDeal) (pct target : ℚ) (hpct : tpTargetPct cfg d = some pct)
  (htarget : computeTpTargetPrice d.avgEntryPrice pct d.side = .ok target)
include hpct htarget

/-- A reached target goes through the gates. -/
theorem tpVerdict_hit
    (hhit : (wickHit cfg d price target || reaches d.side price target) = true) :
    tpVerdict cfg (Macd.signals sig) c d price =
      (tpGates cfg (Macd.signals sig) c d price).map fun passed =>
        if passed then .priceFill (if reaches d.side price target then price else target)
        else .held := by
  simp only [tpVerdict, hpct, htarget, hhit, bind, Except.bind, if_true]
  cases tpGates cfg (Macd.signals sig) c d price with
  | error x => rfl
  | ok passed => cases passed <;> rfl

/-- Away from the target the groups decide. -/
theorem tpVerdict_miss
    (hmiss : ¬ (wickHit cfg d price target || reaches d.side price target) = true) :
    tpVerdict cfg (Macd.signals sig) c d price =
      match IndicatorEngine.checkTpIndicatorGroups cfg sig c with
      | some info => .ok (.indicatorFill info)
      | none => .ok .idle := by
  have hgroups : IndicatorEngine.checkTpIndicatorGroups cfg (Macd.signals sig) c =
      IndicatorEngine.checkTpIndicatorGroups cfg sig c := rfl
  cases hinfo : IndicatorEngine.checkTpIndicatorGroups cfg sig c with
  | none =>
    simp only [tpVerdict, hpct, htarget, hmiss, bind, Except.bind, hgroups, hinfo, pure, Except.pure,
      if_false, Bool.false_eq_true]
  | some info =>
    simp only [tpVerdict, hpct, htarget, hmiss, bind, Except.bind, hgroups, hinfo, pure, Except.pure,
      if_false, Bool.false_eq_true]

omit hpct in
theorem defined_of_target : ¬ TpUndefined d pct := by
  intro h
  obtain ⟨x, hx⟩ := (tpTarget_error_iff d pct).mpr h
  rw [htarget] at hx
  cases hx

omit hpct in
theorem reached_iff : Reached cfg price d pct ↔
    (wickHit cfg d price target || reaches d.side price target) = true := by
  constructor
  · rintro ⟨target', htarget', h⟩
    rw [htarget] at htarget'
    cases htarget'
    exact h
  · exact fun h => ⟨target, htarget, h⟩

end Target

theorem tpVerdict_error_iff (d : PaperDeal) :
    (∃ x, tpVerdict cfg (Macd.signals sig) c d price = .error x) ↔ TpRaises cfg c price d := by
  unfold TpRaises
  cases hpct : tpTargetPct cfg d with
  | none =>
    have hrun : tpVerdict cfg (Macd.signals sig) c d price = .ok .idle := by
      unfold tpVerdict
      rw [hpct]
    simp [hrun]
  | some pct =>
    simp only [Option.some.injEq, exists_eq_left']
    cases htarget : computeTpTargetPrice d.avgEntryPrice pct d.side with
    | error x =>
      have hrun : tpVerdict cfg (Macd.signals sig) c d price = .error x := by
        simp only [tpVerdict, hpct, htarget, bind, Except.bind]
      exact iff_of_true ⟨x, hrun⟩ (.inl ((tpTarget_error_iff d pct).mp ⟨x, htarget⟩))
    | ok target =>
      have hdef := defined_of_target d pct target htarget
      rw [reached_iff cfg price d pct target htarget, or_iff_right hdef,
        ← tpGates_error_iff cfg sig c price d]
      by_cases hhit : (wickHit cfg d price target || reaches d.side price target) = true
      · rw [tpVerdict_hit cfg sig c price d pct target hpct htarget hhit, and_iff_right hhit]
        cases tpGates cfg (Macd.signals sig) c d price with
        | error x => simp [Except.map]
        | ok passed => simp [Except.map]
      · rw [tpVerdict_miss cfg sig c price d pct target hpct htarget hhit]
        refine iff_of_false ?_ fun h => hhit h.1
        cases IndicatorEngine.checkTpIndicatorGroups cfg sig c with
        | none => simp
        | some info => simp

theorem tpPasses_iff (d : PaperDeal) :
    tpPasses cfg (Macd.signals sig) c price d = true ↔ TpLeaves cfg sig c price d := by
  unfold TpLeaves
  cases hpct : tpTargetPct cfg d with
  | none =>
    have hrun : tpVerdict cfg (Macd.signals sig) c d price = .ok .idle := by
      unfold tpVerdict
      rw [hpct]
    simp [tpPasses, hrun]
  | some pct =>
    simp only [Option.some.injEq, forall_eq']
    cases htarget : computeTpTargetPrice d.avgEntryPrice pct d.side with
    | error x =>
      have hrun : tpVerdict cfg (Macd.signals sig) c d price = .error x := by
        simp only [tpVerdict, hpct, htarget, bind, Except.bind]
      refine iff_of_false ?_ fun h => h.1 ((tpTarget_error_iff d pct).mp ⟨x, htarget⟩)
      simp [tpPasses, hrun]
    | ok target =>
      have hdef := defined_of_target d pct target htarget
      rw [reached_iff cfg price d pct target htarget, and_iff_right hdef,
        ← tpGates_false_iff cfg sig c price d, tpPasses]
      by_cases hhit : (wickHit cfg d price target || reaches d.side price target) = true
      · rw [tpVerdict_hit cfg sig c price d pct target hpct htarget hhit]
        simp only [hhit, forall_const, not_true_eq_false, false_imp_iff, and_true]
        cases tpGates cfg (Macd.signals sig) c d price with
        | error x => simp [Except.map]
        | ok passed => cases passed <;> simp [Except.map]
      · rw [tpVerdict_miss cfg sig c price d pct target hpct htarget hhit]
        simp only [hhit]
        cases IndicatorEngine.checkTpIndicatorGroups cfg sig c with
        | none => simp
        | some info => simp

/-! ### The round of a deal -/

theorem dcaEnd_ne_aborts (n : ℕ) (d : PaperDeal) (h : d.orders ≠ []) :
    dcaEnd cfg price n d ≠ .aborts := by
  obtain ⟨b, hb⟩ := MonitorSafety.dcaVerdict_ok cfg d price h
  unfold dcaEnd
  split
  · simp
  · rw [hb]
    cases b <;> simp

theorem tailEnd_aborts_iff (n : ℕ) (d : PaperDeal) (h : d.orders ≠ []) :
    tailEnd cfg price n d = .aborts ↔ ∃ s, slSettings cfg d = some s ∧ SlUndefined d s.2 := by
  have hdca := dcaEnd_ne_aborts cfg price n d h
  unfold tailEnd
  cases hs : slSettings cfg d with
  | none => simpa using hdca
  | some s =>
    simp only [Option.map_some, Option.some.injEq, exists_eq_left']
    rw [← slVerdict_error_iff cfg price d s]
    cases slVerdict cfg d price s with
    | error x => simp
    | ok hit =>
      cases hit with
      | true => simp
      | false => simpa using hdca

theorem roundEnd_aborts_iff (n : ℕ) (d : PaperDeal) (h : d.orders ≠ []) :
    roundEnd cfg (Macd.signals sig) c price n d = .aborts ↔ RoundRaises cfg sig c price d := by
  rw [RoundRaises, ← tpVerdict_error_iff cfg sig c price d, ← tpPasses_iff cfg sig c price d,
    ← tailEnd_aborts_iff cfg price n d h]
  unfold roundEnd tpPasses
  cases tpVerdict cfg (Macd.signals sig) c d price with
  | error x => simp
  | ok v => cases v <;> simp

/-- A deal whose stop loss is hit leaves its round by an exception or closed. -/
theorem roundEnd_of_stopHit (n : ℕ) (d : PaperDeal) (h : StopHit cfg price d) :
    roundEnd cfg (Macd.signals sig) c price n d = .aborts ∨
      ∃ f, roundEnd cfg (Macd.signals sig) c price n d = .closes f := by
  obtain ⟨s, hs, hhit⟩ := h
  have htail : tailEnd cfg price n d = .closes price := by
    simp only [tailEnd, hs, Option.map_some, hhit]
  unfold roundEnd
  rw [htail]
  cases tpVerdict cfg (Macd.signals sig) c d price with
  | error x => exact .inl rfl
  | ok v => cases v <;> exact .inr ⟨_, rfl⟩

theorem monitorTail_gone (inp : TickInput) (n : ℕ) (i : String) (w : World)
    (h : w.deal? i = none) : monitorTail cfg inp price n i w = ⟨.ok n, [], w⟩ := by
  have hsl : slRound cfg price inp.now i w = ⟨.ok (), [], w⟩ := by
    simp only [slRound, whileOpen_run, h]
  rw [monitorTail_eq, Program.bind_ok _ _ _ () (by rw [hsl]), hsl,
    dcaRound_closed cfg price inp.now n i _ h]
  rfl

/-- A round that closes its deal leaves it closed. -/
theorem round_gone (sig : Signals) (inp : TickInput) (n : ℕ) (d : PaperDeal) (w : World)
    (h : w.deal? d.id = some d) (f : ℚ)
    (hend : roundEnd cfg sig inp.candles price n d = .closes f) :
    (monitorDeal cfg sig inp.candles inp.now price n d.id w).state.deal? d.id = none := by
  have hprog : EngineOp.program cfg sig (.takeProfit inp.candles inp.now price d.id) w =
      checkTp cfg sig inp.candles inp.now d price w := by
    simp only [EngineOp.program, whileOpen_run, h]
  rw [checkTp_run] at hprog
  -- a take profit that closed the deal leaves nothing to the rest of the round
  have hclosed : ∀ g t l,
      EngineOp.program cfg sig (.takeProfit inp.candles inp.now price d.id) w =
        ⟨.ok (), l, afterClose cfg inp.now d g .tp t w⟩ →
      (monitorDeal cfg sig inp.candles inp.now price n d.id w).state.deal? d.id = none := by
    intro g t l hrun
    have hgone := afterClose_deal? cfg inp.now d g .tp t w
    rw [monitorDeal_eq, Program.bind_ok _ _ _ () (by rw [hrun]), hrun]
    simp only [monitorTail_gone cfg price inp n d.id _ hgone]
    exact hgone
  -- a take profit that left the deal left the world alone
  have hstopped : ∀ l,
      EngineOp.program cfg sig (.takeProfit inp.candles inp.now price d.id) w = ⟨.ok (), l, w⟩ →
      tailEnd cfg price n d = .closes f →
      (monitorDeal cfg sig inp.candles inp.now price n d.id w).state.deal? d.id = none := by
    intro l hrun htail
    rw [monitorDeal_eq, Program.bind_ok _ _ _ () (by rw [hrun]), hrun, monitorTail_eq]
    have hdca : ∀ g, dcaEnd cfg price n d ≠ .closes g :=
      (dcaRound_spec cfg price inp.now n d d w h rfl rfl rfl).2
    unfold tailEnd at htail
    cases hs : slSettings cfg d with
    | none =>
      rw [hs] at htail
      exact absurd htail (hdca f)
    | some s =>
      simp only [hs, Option.map_some] at htail
      cases hv : slVerdict cfg d price s with
      | error x =>
        rw [hv] at htail
        cases htail
      | ok hit =>
        rw [hv] at htail
        cases hit with
        | false => exact absurd htail (hdca f)
        | true =>
          have hgone := afterClose_deal? cfg inp.now d price .sl (slTrigger s.1)
            (peaked cfg d price s.1 w)
          have hsl : slRound cfg price inp.now d.id w =
              ⟨.ok (), closeLog cfg inp.now d price .sl (slTrigger s.1) (peaked cfg d price s.1 w) ++
                [.slClosed d.id price],
                afterClose cfg inp.now d price .sl (slTrigger s.1) (peaked cfg d price s.1 w)⟩ := by
            simp only [slRound, whileOpen_run, h, checkSl_run, hs, hv]
          rw [Program.bind_ok _ _ _ () (by rw [hsl]), hsl]
          simp only [dcaRound_closed cfg price inp.now n d.id _ hgone]
          exact hgone
  unfold roundEnd at hend
  cases hv : tpVerdict cfg sig inp.candles d price with
  | error x =>
    rw [hv] at hend
    cases hend
  | ok v =>
    rw [hv] at hend hprog
    cases v with
    | priceFill g => exact hclosed _ _ _ hprog
    | indicatorFill info => exact hclosed _ _ _ hprog
    | idle => exact hstopped _ hprog hend
    | held => exact hstopped _ hprog hend

/-- A round that raises leaves its deal open. -/
theorem round_open (sig : Signals) (inp : TickInput) (n : ℕ) (d : PaperDeal) (w : World)
    (h : w.deal? d.id = some d) (hend : roundEnd cfg sig inp.candles price n d = .aborts) :
    (monitorDeal cfg sig inp.candles inp.now price n d.id w).state.deal? d.id ≠ none := by
  have hspec := monitorDeal_spec cfg sig price inp n d w h
  rw [hend] at hspec
  obtain ⟨_, _, hstill, hmoved⟩ := hspec
  cases hpeak : !(tpPasses cfg sig inp.candles price d && peakMoves cfg price d) with
  | true =>
    rw [hstill hpeak, h]
    simp
  | false =>
    obtain ⟨e, he, _⟩ := hmoved hpeak
    rw [he]
    simp

/-! ### The loop -/

/-- The loop closes the deals whose stop loss is hit exactly when no round at or before one
of them raises. -/
theorem monitorDeals_stops_iff (inp : TickInput) (ds : List PaperDeal) (n : ℕ) (w : World)
    (hmeets : Meets w ds) (horders : ∀ d ∈ ds, d.orders ≠ []) :
    (∀ d ∈ ds, StopHit cfg price d →
      (monitorDeals cfg (Macd.signals sig) inp.candles inp.now price n
        (ds.map PaperDeal.id) w).state.deal? d.id = none) ↔
      RoundsReturn cfg sig inp.candles price ds := by
  induction ds generalizing n w with
  | nil =>
    refine iff_of_true (fun d hd => by cases hd) ?_
    intro before d behind h
    cases before <;> cases h
  | cons e ds ih =>
    have he := hmeets.2 e List.mem_cons_self
    have hnot : e.id ∉ ds.map PaperDeal.id := (List.nodup_cons.mp hmeets.1).1
    have htail := meets_tail cfg (Macd.signals sig) price inp n e ds w hmeets
    have haborts := roundEnd_aborts_iff cfg sig inp.candles price n e (horders e List.mem_cons_self)
    have hspec := monitorDeal_spec cfg (Macd.signals sig) price inp n e w he
    rw [List.map_cons, monitorDeals_cons]
    by_cases hraises : RoundRaises cfg sig inp.candles price e
    · have hend := haborts.mpr hraises
      have hopen := round_open cfg price (Macd.signals sig) inp n e w he hend
      rw [hend] at hspec
      obtain ⟨⟨x, hx⟩, _, _⟩ := hspec
      rw [Program.bind_error _ _ _ x hx]
      constructor
      · intro h before d behind hsplit hhit
        have hmem : d ∈ e :: ds := by
          rw [hsplit]
          exact List.mem_append_right _ List.mem_cons_self
        have hgone := h d hmem hhit
        rcases List.mem_cons.mp hmem with rfl | hd
        · exact absurd hgone hopen
        · rw [htail.2 d hd] at hgone
          cases hgone
      · intro h d hd hhit
        obtain ⟨before, behind, hsplit⟩ := List.append_of_mem hd
        have hfirst : e ∈ before ++ [d] := by
          cases before with
          | nil =>
            rw [List.nil_append, List.cons.injEq] at hsplit
            rw [hsplit.1]
            exact List.mem_append_right _ (List.mem_singleton_self d)
          | cons b before =>
            rw [List.cons_append, List.cons.injEq] at hsplit
            rw [hsplit.1]
            exact List.mem_append_left _ List.mem_cons_self
        exact absurd hraises (h before d behind hsplit hhit e hfirst)
    · have hend : roundEnd cfg (Macd.signals sig) inp.candles price n e ≠ .aborts :=
        fun h => hraises (haborts.mp h)
      obtain ⟨m, hm⟩ : ∃ m, (monitorDeal cfg (Macd.signals sig) inp.candles inp.now price n e.id
          w).result = .ok m := by
        cases hround : roundEnd cfg (Macd.signals sig) inp.candles price n e with
        | aborts => exact absurd hround hend
        | closes f =>
          rw [hround] at hspec
          exact ⟨n, hspec.1⟩
        | fills =>
          rw [hround] at hspec
          exact ⟨n + 1, hspec.1⟩
        | rests =>
          rw [hround] at hspec
          exact ⟨n, hspec.1⟩
      rw [Program.bind_ok _ _ _ m hm]
      have hrest := ih m _ htail fun d hd => horders d (List.mem_cons_of_mem e hd)
      have hfirst : StopHit cfg price e →
          (monitorDeals cfg (Macd.signals sig) inp.candles inp.now price m (ds.map PaperDeal.id)
            (monitorDeal cfg (Macd.signals sig) inp.candles inp.now price n e.id w).state).state.deal?
              e.id = none := by
        intro hhit
        rw [monitorDeals_other cfg (Macd.signals sig) price inp _ m e.id hnot]
        rcases roundEnd_of_stopHit cfg sig inp.candles price n e hhit with h | ⟨f, h⟩
        · exact absurd h hend
        · exact round_gone cfg price (Macd.signals sig) inp n e w he f h
      simp only [List.forall_mem_cons]
      rw [and_iff_right hfirst, hrest]
      constructor
      · intro h before d behind hsplit hhit
        cases before with
        | nil =>
          rw [List.nil_append, List.cons.injEq] at hsplit
          intro x hx
          rw [List.nil_append, List.mem_singleton] at hx
          rw [hx, ← hsplit.1]
          exact hraises
        | cons b before =>
          rw [List.cons_append, List.cons.injEq] at hsplit
          intro x hx
          rcases List.mem_cons.mp hx with rfl | hx
          · rw [← hsplit.1]
            exact hraises
          · exact h before d behind hsplit.2 hhit x hx
      · intro h before d behind hsplit hhit x hx
        refine h (e :: before) d behind ?_ hhit x (List.mem_cons_of_mem e hx)
        rw [hsplit, List.cons_append]

theorem roundsReturn_of_all (ds : List PaperDeal)
    (h : ∀ d ∈ ds, ¬ RoundRaises cfg sig c price d) : RoundsReturn cfg sig c price ds := by
  intro before d behind hsplit _ e he
  refine h e ?_
  rw [hsplit]
  rcases List.mem_append.mp he with he | he
  · exact List.mem_append_left _ he
  · rw [List.mem_singleton.mp he]
    exact List.mem_append_right _ List.mem_cons_self

/-- A bot with the default settings, and the world behind its first tick. -/
def plainBot : BotConfig := BotConfig.small "plain"

def plainWorld : World :=
  (tick plainBot .silent (WickTakeProfit.tickAtPrice 100) (freshWorld 1)).state

/-- A bot whose take profit waits for MACD, and the world behind its ticks at 100 and 106, when
one candle has arrived. -/
def confirmBot : BotConfig :=
  { BotConfig.small "confirm" with takeProfit := .confirmed "histogram_positive" }

def confirmWorld : World :=
  (tick confirmBot (Macd.signals .silent) (WickTakeProfit.tickAtPrice 106)
    (tick confirmBot (Macd.signals .silent) (WickTakeProfit.tickAtPrice 100)
      (freshWorld 1)).state).state

end StopEvaluation

end Reverto
