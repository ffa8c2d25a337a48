import Mathlib.Tactic
import Reverto.Core.DealLadder

/-!
# The size a ladder can reach (core/trading_engine.py, config/models.py)

No path of the engine reads `max_cumulative_size`: the size of a deal is limited by
the rungs of its ladder. What opening and filling keep of the orders of a deal holds
in every life.
-/

namespace Reverto

open TradingEngine

namespace LadderSize

variable (cfg : BotConfig) (sig : Signals)

/-! ### What opening and filling keep of the orders -/

/-- A property of the orders of a deal that every opening has and every rung keeps. -/
structure OrderRule (Q : List PaperOrder → Prop) : Prop where
  base : ∀ now price, Q [⟨1, price, cfg.dca.baseOrderSize, now, .base⟩]
  rung : ∀ now (d : PaperDeal) price, Q d.orders → dcaVerdict cfg d price = .ok true →
    Q (d.orders ++ [dcaOrder cfg now d price])

/-- The orders of every deal open in the account. -/
def OrdersHold (Q : List PaperOrder → Prop) (s : PaperState) : Prop :=
  ∀ d ∈ s.openDeals.items, Q d.orders

/-- The orders of every deal open in memory or in the file. -/
structure WorldHolds (Q : List PaperOrder → Prop) (w : World) : Prop where
  memory : OrdersHold Q w.engine.state
  file : OrdersHold Q (fileState w.file)

section Rule

variable (Q : List PaperOrder → Prop)

theorem ordersHold_congr (s s' : PaperState) (hopen : s'.openDeals = s.openDeals)
    (h : OrdersHold Q s) : OrdersHold Q s' := by
  unfold OrdersHold
  rw [hopen]
  exact h

theorem ordersHold_fileState (s : PaperState) (doc : StateDoc) (hlists : Lists s doc)
    (h : OrdersHold Q s) : OrdersHold Q (fileState (some doc)) := by
  obtain ⟨price, hitems⟩ := fileState_openItems s doc hlists
  intro x hx
  rw [hitems] at hx
  obtain ⟨d, hd, rfl⟩ := List.mem_map.mp hx
  exact h d hd

theorem ordersHold_op (hQ : OrderRule cfg Q) (op : EngineOp) (w : World)
    (h : OrdersHold Q w.engine.state) :
    OrdersHold Q (op.program cfg sig w).state.engine.state := by
  by_cases htrack : ∃ price, op = .trackWicks price
  · obtain ⟨price, rfl⟩ := htrack
    intro d' hd'
    obtain ⟨d, hd, rfl⟩ := List.mem_map.mp hd'
    exact h d hd
  intro d' hd'
  rcases continues_op cfg sig op (fun price hp => htrack ⟨price, hp⟩) w d' hd' with
    ⟨d, hd, hstep⟩ | ⟨now, price, t, hnew, _⟩
  · cases hstep with
    | same => exact h d' hd
    | peak now price hop => exact h d hd
    | settings s hs => exact h d hd
    | order now price hl =>
      obtain ⟨now', e, _, he, hv⟩ := Ladder.dcaFilled_op cfg sig op w d.id price hl
      have hde : e = d := Option.some.inj (he.symm.trans (KeyedDict.get?_of_mem _ d hd))
      subst hde
      exact hQ.rung now e price (h e hd) hv
  · rw [hnew]
    exact hQ.base now price

theorem worldHolds_op (hQ : OrderRule cfg Q) (op : EngineOp) (w : World) (h : WorldHolds Q w) :
    WorldHolds Q (op.program cfg sig w).state := by
  have hmemory := ordersHold_op cfg sig Q hQ op w h.memory
  exact ⟨hmemory, fileState_op cfg sig (OrdersHold Q) (ordersHold_fileState Q) op w hmemory h.file⟩

/-- A close by the portal leaves deals out of the file only. -/
theorem ordersHold_offline (file : Option StateDoc) (i : String) (price : ℚ) (now : Instant)
    (action : CloseAction) (h : OrdersHold Q (fileState file)) :
    OrdersHold Q (fileState (LifeStep.offlineFile cfg file i price now action)) := by
  rcases LifeStep.offlineFile_cases cfg file i price now action with
    hfile | ⟨s, d, doc, hfile, hlists, _, hopen, _⟩
  · rw [hfile]
    exact h
  · rw [hfile]
    refine ordersHold_fileState Q s doc hlists fun e he => ?_
    rw [hopen] at he
    exact h e (List.mem_of_mem_filter he)

/-- One step of a life. -/
theorem worldHolds_step (hQ : OrderRule cfg Q) (l : LifeStep) :
    Program.Respects (fun w _ w' => WorldHolds Q w → WorldHolds Q w') (l.program cfg sig) := by
  intro w h
  cases l with
  | tick inp =>
    exact Program.runsAs_rel _ _ _ (Program.traceRel_invariant (WorldHolds Q))
      (fun op _ v hv => worldHolds_op cfg sig Q hQ op v hv) _ _ _ (tick_runs cfg sig inp w) h
  | stop =>
    exact ⟨h.memory, ordersHold_congr Q _ _ (markStopped_deals w.file).1 h.file⟩
  | restart b =>
    exact ⟨ordersHold_congr Q _ _ (bootEngine_deals b w.file).1 h.file, h.file⟩
  | closeOffline i price now action =>
    exact ⟨h.memory, ordersHold_offline cfg Q w.file i price now action h.file⟩

/-- The orders of the open deals after any life. -/
theorem ordersHold_life (hQ : OrderRule cfg Q) (initialBalanceBtc : ℚ) (ls : List LifeStep) :
    OrdersHold Q
      (Program.runAll (LifeStep.program cfg sig) ls
        (freshWorld initialBalanceBtc)).2.engine.state := by
  have hrun := Program.runsAs_rel (LifeStep.program cfg sig) (fun _ => True) _
    (Program.traceRel_invariant (WorldHolds Q)) (fun l _ => worldHolds_step cfg sig Q hQ l)
    (freshWorld initialBalanceBtc) _ _ ⟨ls, fun _ _ => trivial, rfl⟩
  have hempty : ∀ b, OrdersHold Q (PaperState.init b) := by
    intro b d hd
    cases hd
  exact (hrun ⟨hempty initialBalanceBtc, hempty 0⟩).memory

end Rule

/-! ### The rungs of a configuration -/

/-- The size of a rung, by the number of rungs before it. -/
def rungSize (k : ℕ) : ℚ := Decimal.roundTo 8 (cfg.dca.baseOrderSize * cfg.dca.multiplier ^ k)

/-- The size of a base order and its first `n` rungs. -/
def ladderSize (n : ℕ) : ℚ := cfg.dca.baseOrderSize + ((List.range n).map (rungSize cfg)).sum

/-- The rungs a deal may fill. -/
def maxRungs : ℕ := if cfg.dca.enabled then cfg.dca.maxOrders - 1 else 0

theorem rungSize_nonneg (k : ℕ) : 0 ≤ rungSize cfg k :=
  Decimal.roundTo_nonneg 8 _
    (mul_nonneg cfg.dca.baseOrderSize_pos.le (pow_nonneg cfg.dca.multiplier_pos.le k))

theorem ladderSize_succ (n : ℕ) : ladderSize cfg (n + 1) = ladderSize cfg n + rungSize cfg n := by
  simp only [ladderSize, List.range_succ, List.map_append, List.map_cons, List.map_nil,
    List.sum_append, List.sum_cons, List.sum_nil, add_zero, add_assoc]

theorem ladderSize_mono : Monotone (ladderSize cfg) := by
  refine monotone_nat_of_le_succ fun n => ?_
  rw [ladderSize_succ]
  exact le_add_of_nonneg_right (rungSize_nonneg cfg n)

/-! ### The size of a deal -/

/-- The orders fill the first rungs of the configuration. -/
structure Fills (orders : List PaperOrder) (n : ℕ) : Prop where
  count : (orders.filter fun o => o.orderType = .dca).length = n
  size : (orders.map PaperOrder.size).sum = ladderSize cfg n
  bounded : n ≤ maxRungs cfg

/-- The rung of the configuration is filled only where the deal may fill one more. -/
theorem dcaVerdict_maxRungs (d : PaperDeal) (price : ℚ) (h : dcaVerdict cfg d price = .ok true) :
    d.dcaCount + 1 ≤ maxRungs cfg := by
  unfold dcaVerdict at h
  split at h
  · rename_i hallowed
    simp only [dcaAllowed, Bool.and_eq_true, decide_eq_true_eq] at hallowed
    obtain ⟨⟨⟨henabled, _⟩, _⟩, hcount⟩ := hallowed
    rw [maxRungs, if_pos henabled]
    omega
  · cases h

theorem orderRule_fills : OrderRule cfg fun orders => ∃ n, Fills cfg orders n where
  base now price := ⟨0, rfl, by simp [ladderSize], Nat.zero_le _⟩
  rung := by
    rintro now d price ⟨n, hcount, hsize, _⟩ hv
    have hdca : d.dcaCount = n := hcount
    have hmax := dcaVerdict_maxRungs cfg d price hv
    rw [hdca] at hmax
    refine ⟨n + 1, ?_, ?_, hmax⟩
    · rw [List.filter_append, List.length_append, hcount]
      rfl
    · have horder : (dcaOrder cfg now d price).size = rungSize cfg n := by
        rw [← hdca]
        rfl
      rw [List.map_append, List.sum_append, hsize, ladderSize_succ, ← horder]
      simp

/-- Every open deal is as large as the rungs it has filled, at most those of the ladder. -/
def OnLadder (s : PaperState) : Prop :=
  ∀ d ∈ s.openDeals.items, d.totalSize = ladderSize cfg d.dcaCount ∧ d.dcaCount ≤ maxRungs cfg

/-- No open deal is larger than the cap of the configuration. -/
def WithinCap (s : PaperState) : Prop :=
  ∀ cap ∈ cfg.dca.maxCumulativeSize, ∀ d ∈ s.openDeals.items, d.totalSize ≤ cap

/-- After any life the open deals stand on the ladder, so within a cap that its full
size respects. -/
theorem withinCap_life (initialBalanceBtc : ℚ) (ls : List LifeStep) :
    OnLadder cfg (Program.runAll (LifeStep.program cfg sig) ls
        (freshWorld initialBalanceBtc)).2.engine.state ∧
      ((∀ cap ∈ cfg.dca.maxCumulativeSize, ladderSize cfg (maxRungs cfg) ≤ cap) →
        WithinCap cfg (Program.runAll (LifeStep.program cfg sig) ls
          (freshWorld initialBalanceBtc)).2.engine.state) := by
  have hladder : OnLadder cfg (Program.runAll (LifeStep.program cfg sig) ls
      (freshWorld initialBalanceBtc)).2.engine.state := by
    intro d hd
    obtain ⟨n, hcount, hsize, hbounded⟩ :=
      ordersHold_life cfg sig _ (orderRule_fills cfg) initialBalanceBtc ls d hd
    have hn : d.dcaCount = n := hcount
    have htotal : d.totalSize = ladderSize cfg n := hsize
    rw [hn, htotal]
    exact ⟨rfl, hbounded⟩
  refine ⟨hladder, fun hfits cap hcap d hd => ?_⟩
  obtain ⟨htotal, hbounded⟩ := hladder d hd
  rw [htotal]
  exact (ladderSize_mono cfg hbounded).trans (hfits cap hcap)

/-! ### Two caps -/

/-- A ladder of five orders of 0.01 BTC with a cap. -/
def cappedBot (cap : ℚ) (h : 0 < cap) : BotConfig :=
  { BotConfig.small "capped" with
    stopLoss := .off
    useWickSimulation := false
    dca := .smallCapped cap h }

/-- A cap of the whole ladder. -/
theorem withinCap_fallingLife :
    WithinCap (cappedBot (1 / 20) (by norm_num))
      (Program.runAll (LifeStep.program (cappedBot (1 / 20) (by norm_num)) .silent)
        Ladder.fallingLife (freshWorld 1)).2.engine.state := by
  refine (withinCap_life (cappedBot (1 / 20) (by norm_num)) .silent 1 Ladder.fallingLife).2 ?_
  intro cap hcap
  cases hcap
  decide +kernel

/-- The first rung takes the deal past a cap of 0.015 BTC. -/
theorem not_withinCap_ticks :
    ¬ ∀ (cfg : BotConfig) (sig : Signals) (initialBalanceBtc : ℚ) (ls : List LifeStep),
      (∀ l ∈ ls, l.PricePos ∧ ∃ inp, l = .tick inp) →
        WithinCap cfg (Program.runAll (LifeStep.program cfg sig) ls
          (freshWorld initialBalanceBtc)).2.engine.state := by
  intro h
  have hticks : ∀ l ∈ [LifeStep.tickAt 0 100, .tickAt 1 90],
      l.PricePos ∧ ∃ inp, l = .tick inp := by
    intro l hl
    simp only [List.mem_cons, List.not_mem_nil, or_false] at hl
    rcases hl with rfl | rfl
    · exact ⟨LifeStep.pricePos_tickAt 0 100 (by norm_num), _, rfl⟩
    · exact ⟨LifeStep.pricePos_tickAt 1 90 (by norm_num), _, rfl⟩
  have hlarge : ∃ d ∈ (Program.runAll (LifeStep.program (cappedBot (3 / 200) (by norm_num))
      .silent) [.tickAt 0 100, .tickAt 1 90] (freshWorld 1)).2.engine.state.openDeals.items,
      ¬ d.totalSize ≤ 3 / 200 := by decide +kernel
  obtain ⟨d, hd, hlarge⟩ := hlarge
  exact hlarge (h (cappedBot (3 / 200) (by norm_num)) .silent 1 _ hticks (3 / 200) rfl d hd)

end LadderSize

end Reverto
