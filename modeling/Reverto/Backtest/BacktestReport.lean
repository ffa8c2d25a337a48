import Mathlib.Tactic
import Reverto.Backtest.Accounts
import Reverto.Lib.Drawdown

/-!
# The report of a backtest (backtest/backtest_report.py)

The statistics are taken from the closed deals. The maximum drawdown follows the
balance that the PnL of the deals alone would leave; the balance of the engine pays
their fees as well.
-/

namespace Reverto

/-- `BacktestResult`, the fields it is given. -/
structure BacktestResult where
  config : BotConfig
  candlesTotal : ℕ
  candlesProcessed : ℕ
  initialBalanceBtc : ℚ
  finalBalanceBtc : ℚ
  closedDeals : List PaperDeal
  feesPaidBtc : ℚ

/-- The locals of `_calc_max_drawdown`. -/
structure DrawdownWalk where
  peak : ℚ
  balance : ℚ
  maxDd : ℚ

/-- One round of the loop of `_calc_max_drawdown`. -/
def DrawdownWalk.next (w : DrawdownWalk) (deal : PaperDeal) : DrawdownWalk :=
  let balance := w.balance + deal.pnlBtc
  let peak := if w.peak < balance then balance else w.peak
  let maxDd :=
    if 0 < peak then
      let drawdown := (peak - balance) / peak * 100
      if w.maxDd < drawdown then drawdown else w.maxDd
    else w.maxDd
  ⟨peak, balance, maxDd⟩

namespace BacktestResult

variable (r : BacktestResult)

/-! ### The computed fields (`__post_init__`) -/

/-- `total_deals` -/
def totalDeals : ℕ := r.closedDeals.length

/-- `winning_deals` -/
def winningDeals : ℕ := (r.closedDeals.filter fun d => decide (0 < d.pnlBtc)).length

/-- `losing_deals` -/
def losingDeals : ℕ := (r.closedDeals.filter fun d => decide (d.pnlBtc ≤ 0)).length

/-- `total_pnl_btc` -/
def totalPnlBtc : ℚ := (r.closedDeals.map PaperDeal.pnlBtc).sum

/-- `total_pnl_pct` -/
def totalPnlPct : ℚ :=
  if 0 < r.initialBalanceBtc then r.totalPnlBtc / r.initialBalanceBtc * 100 else 0

/-- `win_rate` -/
def winRate : ℚ :=
  if r.totalDeals = 0 then 0 else (r.winningDeals : ℚ) / r.totalDeals * 100

/-- `avg_pnl_per_deal` -/
def avgPnlPerDeal : ℚ := if r.totalDeals = 0 then 0 else r.totalPnlBtc / r.totalDeals

/-- `best_deal_btc` -/
def bestDealBtc : ℚ := (r.closedDeals.map PaperDeal.pnlBtc).max?.getD 0

/-- `worst_deal_btc` -/
def worstDealBtc : ℚ := (r.closedDeals.map PaperDeal.pnlBtc).min?.getD 0

/-- `_calc_max_drawdown` -/
def calcMaxDrawdown : ℚ :=
  if r.closedDeals = [] then 0
  else (r.closedDeals.foldl DrawdownWalk.next ⟨r.initialBalanceBtc, r.initialBalanceBtc, 0⟩).maxDd

/-- `max_drawdown_pct` -/
def maxDrawdownPct : ℚ := r.calcMaxDrawdown

/-- `avg_dca_orders` -/
def avgDcaOrders : ℚ :=
  if r.closedDeals = [] then 0
  else ((r.closedDeals.map PaperDeal.dcaCount).sum : ℚ) / r.closedDeals.length

/-- `tp_count` -/
def tpCount : ℕ := (r.closedDeals.filter fun d => decide (d.closeReason = some .tp)).length

/-- `sl_count` -/
def slCount : ℕ := (r.closedDeals.filter fun d => decide (d.closeReason = some .sl)).length

end BacktestResult

namespace BacktestEngine

variable (cfg : BotConfig) (sig : Signals) (env : BacktestEnv) (data : CandlesPerTf)

/-- `_build_result` -/
def buildResult (initialBalanceBtc : ℚ) (s : BacktestState) : BacktestResult :=
  ⟨cfg, (drivingCandles cfg data).length, s.candlesProcessed, initialBalanceBtc,
    s.state.balanceBtc, s.state.closedDeals, s.feesPaidBtc⟩

/-- The fees of the orders of a deal. -/
def orderFees (d : PaperDeal) : ℚ := (d.orders.map fun o => calcFee cfg o.size).sum

/-- What a deal costs from its first order to its close. -/
def dealFees (d : PaperDeal) : ℚ := orderFees cfg d + calcFee cfg d.totalSize

end BacktestEngine

namespace BacktestResult

variable (r : BacktestResult)

/-- The balances that `_calc_max_drawdown` goes through. -/
def pnlCurve : List ℚ := Drawdown.gross PaperDeal.pnlBtc r.initialBalanceBtc r.closedDeals

/-- The balances after the closed deals, with the fees of each of them. -/
def balanceCurve : List ℚ :=
  Drawdown.net PaperDeal.pnlBtc (BacktestEngine.dealFees r.config) r.initialBalanceBtc r.closedDeals

/-- The totals count every deal once, as a win or as a loss. -/
def PartitionsDeals : Prop :=
  r.winningDeals + r.losingDeals = r.totalDeals ∧
    ∃ wins losses : List PaperDeal, (wins ++ losses).Perm r.closedDeals ∧
      (∀ d ∈ wins, 0 < d.pnlBtc) ∧ (∀ d ∈ losses, d.pnlBtc ≤ 0) ∧
      r.winningDeals = wins.length ∧ r.losingDeals = losses.length

/-- The reported drawdown is that of the balance with its fees, the curve it was taken
from leads from the initial to the final balance, and the totals are right. -/
structure ReportsBalance : Prop where
  drawdown : Drawdown.IsMaxDrawdown r.balanceCurve r.maxDrawdownPct
  starts : r.pnlCurve.head? = some r.initialBalanceBtc
  ends : r.pnlCurve.getLast? = some r.finalBalanceBtc
  partition : r.PartitionsDeals

/-- What the engine has booked when it builds a report. -/
structure Booked : Prop where
  fees : r.feesPaidBtc = (r.closedDeals.map (BacktestEngine.dealFees r.config)).sum
  balance : r.finalBalanceBtc = r.initialBalanceBtc + r.totalPnlBtc - r.feesPaidBtc
  sizes : ∀ d ∈ r.closedDeals, ∀ o ∈ d.orders, 0 ≤ o.size

/-- The balance has its maximum drawdown before the first deal that pays a fee. -/
def FallsBeforeFees : Prop :=
  ∃ n x, (∀ d ∈ r.closedDeals.take n, BacktestEngine.dealFees r.config d = 0) ∧
    Drawdown.IsMaxDrawdown (Drawdown.net PaperDeal.pnlBtc (BacktestEngine.dealFees r.config)
      r.initialBalanceBtc (r.closedDeals.take n)) x ∧
    Drawdown.IsMaxDrawdown r.balanceCurve x

/-! ### The figures of a report -/

theorem partitionsDeals : r.PartitionsDeals := by
  have hlosses : (r.closedDeals.filter fun d => decide (d.pnlBtc ≤ 0)) =
      r.closedDeals.filter fun d => !decide (0 < d.pnlBtc) := by
    refine List.filter_congr fun d _ => ?_
    simp only [← not_lt, decide_not]
  have hperm : ((r.closedDeals.filter fun d => decide (0 < d.pnlBtc)) ++
      r.closedDeals.filter fun d => decide (d.pnlBtc ≤ 0)).Perm r.closedDeals := by
    rw [hlosses]
    exact List.filter_append_perm _ _
  refine ⟨?_, _, _, hperm, fun d hd => ?_, fun d hd => ?_, rfl, rfl⟩
  · have hlength := hperm.length_eq
    rw [List.length_append] at hlength
    exact hlength
  · simpa using (List.mem_filter.mp hd).2
  · simpa using (List.mem_filter.mp hd).2

/-- The walk is at the end of the curve, with its peak and its greatest fall. -/
theorem walk_tracks (initial : ℚ) (deals : List PaperDeal) :
    (deals.foldl DrawdownWalk.next ⟨initial, initial, 0⟩).balance =
        initial + (deals.map PaperDeal.pnlBtc).sum ∧
      Drawdown.Tracks (Drawdown.gross PaperDeal.pnlBtc initial deals)
        (deals.foldl DrawdownWalk.next ⟨initial, initial, 0⟩).peak
        (deals.foldl DrawdownWalk.next ⟨initial, initial, 0⟩).maxDd := by
  induction deals using List.reverseRecOn with
  | nil => exact ⟨(add_zero initial).symm, Drawdown.tracks_singleton initial⟩
  | append_singleton deals deal ih =>
    obtain ⟨hbalance, htracks⟩ := ih
    rw [List.foldl_concat, List.map_append, List.sum_append, List.map_singleton, List.sum_singleton,
      Drawdown.gross, List.map_append, List.map_singleton, Drawdown.balances_concat, ← hbalance]
    generalize deals.foldl DrawdownWalk.next ⟨initial, initial, 0⟩ = w at hbalance htracks ⊢
    refine ⟨by rw [← add_assoc, ← hbalance, DrawdownWalk.next], ?_⟩
    have hnext := Drawdown.tracks_concat _ _ _ (w.balance + deal.pnlBtc) htracks
    have hpeak : max w.peak (w.balance + deal.pnlBtc) =
        if w.peak < w.balance + deal.pnlBtc then w.balance + deal.pnlBtc else w.peak := max_def_lt _ _
    rw [hpeak, max_def_lt] at hnext
    exact hnext

/-- The reported drawdown is the greatest fall of the balance without the fees. -/
theorem maxDrawdownPct_spec : Drawdown.IsMaxDrawdown r.pnlCurve r.maxDrawdownPct := by
  unfold maxDrawdownPct calcMaxDrawdown pnlCurve
  split
  · next hnil =>
    rw [hnil]
    exact (Drawdown.tracks_singleton r.initialBalanceBtc).worst
  · exact (walk_tracks r.initialBalanceBtc r.closedDeals).2.worst

end BacktestResult

end Reverto
