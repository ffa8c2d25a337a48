import Mathlib.Tactic
import Reverto.Backtest.BacktestReport

/-!
# The reported drawdown and the balance (backtest/backtest_report.py)

The engine charges the fees of every deal to the balance that it reports at the end.
The report takes its drawdown from another curve, which leaves them out.
-/

namespace Reverto

namespace BacktestEngine

variable (cfg : BotConfig) (sig : Signals) (env : BacktestEnv) (data : CandlesPerTf)

/-! ### What the engine has charged -/

/-- The fees charged are those of the closed deals and of the orders of the open ones,
and no order has a negative size. -/
structure Charged (s : BacktestState) : Prop where
  fees : s.feesPaidBtc = (s.state.closedDeals.map (dealFees cfg)).sum +
    (s.state.openDeals.items.map (orderFees cfg)).sum
  openSizes : ∀ d ∈ s.state.openDeals.items, ∀ o ∈ d.orders, 0 ≤ o.size
  closedSizes : ∀ d ∈ s.state.closedDeals, ∀ o ∈ d.orders, 0 ≤ o.size

theorem charged_init (initialBalanceBtc : ℚ) : Charged cfg (init initialBalanceBtc) :=
  ⟨(add_zero 0).symm, fun _ hd => absurd hd List.not_mem_nil, fun _ hd => absurd hd List.not_mem_nil⟩

theorem charged_closeDeal (now : Instant) (dealId : String) (price : ℚ) (reason : CloseReason)
    (trigger : ExitTrigger) :
    Program.Respects (fun s _ s' => Charged cfg s → Charged cfg s')
      (closeDeal cfg now dealId price reason trigger) := by
  intro s hs
  cases hget : s.state.openDeals.get? dealId with
  | none =>
    simp only [closeDeal, Program.get_bind_run, hget]
    exact hs
  | some d =>
    have hpop := KeyedDict.sum_pop (orderFees cfg) s.state.openDeals dealId d hget
    have hcost : dealFees cfg ({ d with exitTrigger := some trigger }.closed price reason now) =
        orderFees cfg d + calcFee cfg d.totalSize := rfl
    rw [closeDeal_open cfg now dealId price reason trigger s d hget]
    refine ⟨?_, fun e he => ?_, fun e he => ?_⟩
    · simp only [List.map_append, List.sum_append, List.map_singleton, List.sum_singleton, hcost]
      rw [hs.fees, ← hpop]
      ring
    · exact hs.openSizes e (List.mem_filter.mp he).1
    · rcases List.mem_append.mp he with he | he
      · exact hs.closedSizes e he
      · rw [List.mem_singleton.mp he]
        exact hs.openSizes d (KeyedDict.get?_mem _ _ _ hget).1

theorem charged_openDeal (dealId : String) (price : ℚ) (dt : Instant)
    (trigger : Option GroupTrigger) (s : BacktestState) (hflat : s.state.openDeals.items = [])
    (hs : Charged cfg s) : Charged cfg (openDeal cfg dealId price dt trigger s).state := by
  obtain ⟨_, hitems⟩ := keeps_openDeal cfg dealId price dt trigger s hflat
  have hcost : orderFees cfg (newDeal cfg dealId price dt trigger) =
      calcFee cfg cfg.dca.baseOrderSize := List.sum_singleton
  refine ⟨?_, fun d hd => ?_, hs.closedSizes⟩
  · rw [hitems, List.map_singleton, List.sum_singleton, hcost]
    have hfees := hs.fees
    rw [hflat, List.map_nil, List.sum_nil, add_zero] at hfees
    show s.feesPaidBtc + calcFee cfg cfg.dca.baseOrderSize = _
    rw [hfees]
    rfl
  · rw [hitems] at hd
    rw [List.mem_singleton.mp hd]
    intro o ho
    rw [List.mem_singleton.mp ho]
    exact cfg.dca.baseOrderSize_pos.le

/-- An update that leaves the orders of a deal alone. -/
theorem charged_updateDeal (s : BacktestState) (dealId : String) (f : PaperDeal → PaperDeal)
    (hf : ∀ d, (f d).id = d.id) (horders : ∀ d, (f d).orders = d.orders) (hs : Charged cfg s) :
    Charged cfg (onState (fun s => s.updateDeal dealId f hf) s) := by
  have hsame : ∀ d : PaperDeal, (if d.id = dealId then f d else d).orders = d.orders := by
    intro d
    split
    · exact horders d
    · rfl
  refine ⟨?_, fun d hd => ?_, hs.closedSizes⟩
  · have hmap : (s.state.openDeals.modify dealId f hf).items.map (orderFees cfg) =
        s.state.openDeals.items.map (orderFees cfg) := by
      rw [KeyedDict.modify, KeyedDict.mapValues_items, List.map_map]
      refine List.map_congr_left fun d _ => ?_
      simp only [Function.comp, orderFees, hsame]
    simp only [onState, PaperState.updateDeal, hmap]
    exact hs.fees
  · obtain ⟨e, he, rfl⟩ := List.mem_map.mp hd
    rw [hsame]
    exact hs.openSizes e he

/-- An order added to an open deal and its fee. -/
theorem charged_filledOrder (s : BacktestState) (d : PaperDeal) (order : PaperOrder)
    (hget : s.state.openDeals.get? d.id = some d) (hsize : 0 ≤ order.size) (hs : Charged cfg s) :
    Charged cfg (filledOrder cfg s d.id order) := by
  have hmodify := KeyedDict.sum_modify (orderFees cfg) s.state.openDeals d.id
    (fun e => { e with orders := e.orders ++ [order] }) (fun _ => rfl) d hget
  have hcost : orderFees cfg { d with orders := d.orders ++ [order] } =
      orderFees cfg d + calcFee cfg order.size := by
    simp only [orderFees, List.map_append, List.sum_append, List.map_singleton, List.sum_singleton]
  refine ⟨?_, fun e he => ?_, hs.closedSizes⟩
  · have hfees := hs.fees
    rw [hcost] at hmodify
    dsimp only [filledOrder]
    linarith
  · obtain ⟨b, hb, rfl⟩ := List.mem_map.mp he
    intro o ho
    split at ho
    · rcases List.mem_append.mp ho with ho | ho
      · exact hs.openSizes b hb o ho
      · rw [List.mem_singleton.mp ho]
        exact hsize
    · exact hs.openSizes b hb o ho

theorem charged_rules :
    RunRules cfg (fun s (_ : List BacktestEvent) s' => Charged cfg s → Charged cfg s') where
  rel := Program.traceRel_invariant (Charged cfg)
  close := charged_closeDeal cfg
  peak s dealId _ hs := charged_updateDeal cfg s dealId _ _ (fun _ => rfl) hs
  fill := charged_filledOrder cfg
  opened s dealId price dt trigger hflat hs := charged_openDeal cfg dealId price dt trigger s hflat hs
  pointers _ _ hs := ⟨hs.fees, hs.openSizes, hs.closedSizes⟩
  counted _ hs := ⟨hs.fees, hs.openSizes, hs.closedSizes⟩

/-! ### The balance and the curve of the closed deals -/

/-- After any number of candles the balance is where the curve of the closed deals ends,
less the orders of a deal that is still open. -/
theorem balance_follows (initialBalanceBtc : ℚ) (l : List (BacktestCandle × ℕ)) (s : BacktestState)
    (hs : (Program.forEach (candleStep cfg sig env data) l (init initialBalanceBtc)).state = s) :
    (Drawdown.net PaperDeal.pnlBtc (dealFees cfg) initialBalanceBtc s.state.closedDeals).getLast? =
      some (s.state.balanceBtc + (s.state.openDeals.items.map (orderFees cfg)).sum) := by
  have hbooks := (Program.respects_forEach (books_rules cfg).rel _ l fun p _ =>
    (books_rules cfg).candleStep sig env data p) (init initialBalanceBtc)
  have hcharged := (Program.respects_forEach (charged_rules cfg).rel _ l fun p _ =>
    (charged_rules cfg).candleStep sig env data p) (init initialBalanceBtc)
    (charged_init cfg initialBalanceBtc)
  rw [hs] at hbooks hcharged
  have hstart : (init initialBalanceBtc).state.balanceBtc + (init initialBalanceBtc).feesPaidBtc -
      (init initialBalanceBtc).state.totalPnlBtc = initialBalanceBtc := by
    show initialBalanceBtc + 0 - 0 = initialBalanceBtc
    ring
  have hbalance := hbooks.1
  have hfees := hcharged.fees
  rw [hstart, PaperState.totalPnlBtc] at hbalance
  rw [Drawdown.net, Drawdown.balances_last, Drawdown.sum_net]
  congr 1
  linarith

/-- The engine has booked what it reports. -/
theorem booked_buildResult (initialBalanceBtc : ℚ)
    (h : (run cfg sig env data (init initialBalanceBtc)).result = .ok ()) :
    (buildResult cfg data initialBalanceBtc
      (run cfg sig env data (init initialBalanceBtc)).state).Booked := by
  have hsettled := settled_of_loop cfg sig env data initialBalanceBtc
    (loop_of_ended cfg sig env data initialBalanceBtc h)
  have hcharged := (charged_rules cfg).run sig env data (init initialBalanceBtc)
    (charged_init cfg initialBalanceBtc)
  refine ⟨?_, hsettled.balance, hcharged.closedSizes⟩
  have hfees := hcharged.fees
  rw [hsettled.closed, List.map_nil, List.sum_nil, add_zero] at hfees
  exact hfees

theorem dealFees_nonneg (d : PaperDeal) (h : ∀ o ∈ d.orders, 0 ≤ o.size) : 0 ≤ dealFees cfg d := by
  have hfee : ∀ size, 0 ≤ size → 0 ≤ calcFee cfg size := fun size hsize =>
    Decimal.roundTo_nonneg 10 _ (mul_nonneg hsize cfg.dca.takerFee_nonneg)
  have horders : 0 ≤ orderFees cfg d :=
    List.sum_nonneg (List.forall_mem_map.mpr fun o ho => hfee o.size (h o ho))
  exact add_nonneg horders (hfee _ (d.totalSize_nonneg h))

end BacktestEngine

namespace BacktestResult

variable (r : BacktestResult)

theorem Booked.dealFees_nonneg (h : r.Booked) :
    ∀ d ∈ r.closedDeals, 0 ≤ BacktestEngine.dealFees r.config d := fun d hd =>
  BacktestEngine.dealFees_nonneg r.config d (h.sizes d hd)

/-- Without fees the two curves are one. -/
theorem Booked.curves_eq (h : r.Booked) (hfree : r.feesPaidBtc = 0) :
    r.balanceCurve = r.pnlCurve := by
  have hzero : ∀ d ∈ r.closedDeals, BacktestEngine.dealFees r.config d = 0 := by
    have hnonneg : ∀ x ∈ r.closedDeals.map (BacktestEngine.dealFees r.config), 0 ≤ x :=
      List.forall_mem_map.mpr (h.dealFees_nonneg r)
    have hsum := h.fees.symm.trans hfree
    exact fun d hd => List.all_zero_of_le_zero_le_of_sum_eq_zero hnonneg hsum (List.mem_map_of_mem hd)
  exact Drawdown.net_eq_gross _ _ _ _ hzero

/-- The curve the report uses ends at the reported balance exactly when no fee was paid. -/
theorem Booked.pnlCurve_ends_iff (h : r.Booked) :
    r.pnlCurve.getLast? = some r.finalBalanceBtc ↔ r.feesPaidBtc = 0 := by
  have hlast : r.pnlCurve.getLast? = some (r.initialBalanceBtc + r.totalPnlBtc) :=
    Drawdown.balances_last _ _
  have hbalance := h.balance
  rw [hlast, Option.some.injEq]
  constructor
  · intro hends
    linarith
  · intro hfree
    linarith

/-- A report is right about the balance exactly when no fee was paid. The drawdown alone,
from a positive balance, is right exactly when it was reached before the first fee. -/
theorem reportsBalance_iff (h : r.Booked) :
    (r.ReportsBalance ↔ r.feesPaidBtc = 0) ∧
      (0 < r.initialBalanceBtc →
        (Drawdown.IsMaxDrawdown r.balanceCurve r.maxDrawdownPct ↔ r.FallsBeforeFees)) := by
  refine ⟨?_, fun hstart => ?_⟩
  · constructor
    · intro hreports
      exact (h.pnlCurve_ends_iff r).mp hreports.ends
    · intro hfree
      have hcurves := h.curves_eq r hfree
      refine ⟨?_, List.head?_scanl, (h.pnlCurve_ends_iff r).mpr hfree, r.partitionsDeals⟩
      rw [hcurves]
      exact r.maxDrawdownPct_spec
  · exact Drawdown.isMaxDrawdown_net_iff _ _ _ _ _ hstart (h.dealFees_nonneg r) r.maxDrawdownPct_spec

/-- Hourly candles at the given prices. -/
def hourlyAt (prices : List ℚ) : CandlesPerTf :=
  (BacktestEngine.clockData fun tf => if tf = .h1 then some (0, prices) else none).candlesPerTf

/-- A backtest with 1 BTC on hourly candles. -/
def hourlyRun (cfg : BotConfig) (prices : List ℚ) :
    Program.Outcome PyError BacktestEvent BacktestState Unit :=
  BacktestEngine.run cfg .silent ⟨fun _ => "deal", fun _ => 0⟩ (hourlyAt prices)
    (BacktestEngine.init 1)

/-- Its report. -/
def hourlyReport (cfg : BotConfig) (prices : List ℚ) : BacktestResult :=
  BacktestEngine.buildResult cfg (hourlyAt prices) 1 (hourlyRun cfg prices).state

theorem no_fee_le : (0 : ℚ) ≤ 1 / 100 := by norm_num

/-- A bot that pays no fees. -/
def freeBot : BotConfig :=
  { BotConfig.small "no fees" with
    dca :=
      { (BotConfig.small "no fees").dca with
        takerFee := 0
        takerFee_nonneg := le_rfl
        takerFee_le := no_fee_le } }

/-- A loss of 0.0005 BTC at a stop, without fees. -/
theorem reportsBalance_free :
    (hourlyReport freeBot (List.replicate 79 100 ++ [80])).ReportsBalance ∧
      (hourlyReport freeBot (List.replicate 79 100 ++ [80])).maxDrawdownPct = 1 / 20 := by
  have hended : (hourlyRun freeBot (List.replicate 79 100 ++ [80])).result = .ok () := by
    decide +kernel
  have hbooked : (hourlyReport freeBot (List.replicate 79 100 ++ [80])).Booked :=
    BacktestEngine.booked_buildResult freeBot _ _ _ 1 hended
  exact ⟨(reportsBalance_iff _ hbooked).1.mpr (by decide +kernel), by decide +kernel⟩

/-- A deal opened and closed at one price: the balance falls by its fees, and the report
shows no drawdown. -/
theorem not_reportsBalance_flat :
    (hourlyRun (.small "flat") (List.replicate 80 100)).result = .ok () ∧
      ¬ Drawdown.IsMaxDrawdown (hourlyReport (.small "flat") (List.replicate 80 100)).balanceCurve
        (hourlyReport (.small "flat") (List.replicate 80 100)).maxDrawdownPct ∧
      ¬ (hourlyReport (.small "flat") (List.replicate 80 100)).ReportsBalance := by
  have hcurve : (hourlyReport (.small "flat") (List.replicate 80 100)).balanceCurve =
      [1, 249997 / 250000] := by decide +kernel
  have hreported : (hourlyReport (.small "flat") (List.replicate 80 100)).maxDrawdownPct = 0 := by
    decide +kernel
  have hfalls : Drawdown.FallsBy ([1, 249997 / 250000] : List ℚ) (3 / 2500) := by
    refine ⟨_, 249997 / 250000, 1, List.prefix_rfl, rfl, ⟨List.mem_cons_self, ?_⟩, one_pos, ?_⟩
    · intro v hv
      rcases List.mem_cons.mp hv with rfl | hv
      · exact le_rfl
      · rw [List.mem_singleton.mp hv]
        norm_num
    · norm_num [Drawdown.fall]
  have hwrong : ¬ Drawdown.IsMaxDrawdown
      (hourlyReport (.small "flat") (List.replicate 80 100)).balanceCurve
      (hourlyReport (.small "flat") (List.replicate 80 100)).maxDrawdownPct := by
    rw [hcurve, hreported]
    intro hmax
    have hle : (3 / 2500 : ℚ) ≤ 0 := hmax.2 (.inr hfalls)
    norm_num at hle
  exact ⟨by decide +kernel, hwrong, fun hreports => hwrong hreports.drawdown⟩

end BacktestResult

end Reverto
