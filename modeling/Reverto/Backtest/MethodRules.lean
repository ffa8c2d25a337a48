import Mathlib.Tactic
import Reverto.Backtest.BacktestEngine

/-!
# Rules for the methods of a backtest (backtest/backtest_engine.py)

The methods change an engine in a few places: they close a deal, follow its peak, add
an order to it or open one. A relation that holds of these steps and composes holds of
a candle and of a run.
-/

namespace Reverto

namespace BacktestEngine

variable (cfg : BotConfig) (sig : Signals) (env : BacktestEnv) (data : CandlesPerTf)

theorem addOrder_id (order : PaperOrder) (d : PaperDeal) :
    ({ d with orders := d.orders ++ [order] } : PaperDeal).id = d.id := rfl

/-- The state after an order of the ladder is filled and its fee charged. -/
def filledOrder (s : BacktestState) (dealId : String) (order : PaperOrder) : BacktestState :=
  { s with
    state :=
      { s.state with
        balanceBtc := s.state.balanceBtc - calcFee cfg order.size
        openDeals := s.state.openDeals.modify dealId
          (fun e => { e with orders := e.orders ++ [order] }) (addOrder_id order) }
    feesPaidBtc := s.feesPaidBtc + calcFee cfg order.size }

/-- A relation that holds of every step of monitoring a deal. -/
structure MonitorRules (R : BacktestState → List BacktestEvent → BacktestState → Prop) : Prop where
  rel : Program.TraceRel R
  close : ∀ now dealId price reason trigger,
    Program.Respects R (closeDeal cfg now dealId price reason trigger)
  peak : ∀ (s : BacktestState) dealId peak,
    R s [] (onState (fun s => s.updateDeal dealId (fun e => { e with peakPrice := peak })
      fun _ => rfl) s)
  fill : ∀ (s : BacktestState) (d : PaperDeal) (order : PaperOrder),
    s.state.openDeals.get? d.id = some d → 0 ≤ order.size →
      R s [.dcaFilled order.price order.size] (filledOrder cfg s d.id order)

/-- A relation that holds of every step of processing a candle. -/
structure CandleRules (R : BacktestState → List BacktestEvent → BacktestState → Prop) : Prop
    extends MonitorRules cfg R where
  opened : ∀ (s : BacktestState) dealId price dt trigger, s.state.openDeals.items = [] →
    R s (openDeal cfg dealId price dt trigger s).log (openDeal cfg dealId price dt trigger s).state

/-- A relation that holds of every step of a run. -/
structure RunRules (R : BacktestState → List BacktestEvent → BacktestState → Prop) : Prop
    extends CandleRules cfg R where
  pointers : ∀ (s : BacktestState) tfPointers, R s [] { s with tfPointers := tfPointers }
  counted : ∀ s : BacktestState, R s [] { s with candlesProcessed := s.candlesProcessed + 1 }

section Rules

variable {cfg} {R : BacktestState → List BacktestEvent → BacktestState → Prop}

/-! ### Monitoring -/

theorem MonitorRules.stopAt (h : MonitorRules cfg R) (now : Instant) (candle : BacktestCandle)
    (d : PaperDeal) (reference : ℚ) (trigger : ExitTrigger) :
    Program.Respects R (stopAt cfg now candle d reference trigger) := by
  refine Program.respects_bind h.rel _ _ (Program.respects_lift h.rel _) fun slPrice => ?_
  refine Program.respects_ite _ _ _ ?_ (Program.respects_pure h.rel false)
  exact Program.respects_bind h.rel _ _ (h.close now d.id slPrice .sl trigger)
    fun _ => Program.respects_pure h.rel true

theorem MonitorRules.checkTpSl (h : MonitorRules cfg R) (now : Instant) (w : OhlcWindow)
    (candle : BacktestCandle) (d : PaperDeal) :
    Program.Respects R (checkTpSlIntracandle cfg sig now w candle d) := by
  refine Program.respects_bind h.rel _ _ (Program.respects_lift h.rel _) fun tpPrice => ?_
  refine Program.respects_ite _ _ _ ?_ ?_
  · exact Program.respects_bind h.rel _ _ (h.close now d.id tpPrice .tp .priceTp)
      fun _ => Program.respects_pure h.rel true
  split
  · exact Program.respects_bind h.rel _ _ (h.close now d.id candle.close .tp _)
      fun _ => Program.respects_pure h.rel true
  split
  · exact Program.respects_pure h.rel false
  · exact Program.respects_bind h.rel _ _ (fun s => h.peak s d.id _) fun _ =>
      h.stopAt now candle d _ .trailingSl
  · exact h.stopAt now candle d _ .priceSl

/-- The ladder is checked on a deal as it is in the dict. -/
theorem MonitorRules.checkDca (h : MonitorRules cfg R) (now : Instant) (d : PaperDeal) (price : ℚ)
    (s : BacktestState) (hget : s.state.openDeals.get? d.id = some d) :
    R s (checkDca cfg now d price s).log (checkDca cfg now d price s).state := by
  unfold BacktestEngine.checkDca
  split
  · exact h.rel.nil s
  split
  · exact h.rel.nil s
  split
  · exact h.rel.nil s
  cases d.orders.getLast? with
  | none => exact h.rel.nil s
  | some last =>
    dsimp only
    split
    · have hsize : 0 ≤ Decimal.roundTo 8 (cfg.dca.baseOrderSize * cfg.dca.multiplier ^ d.dcaCount) :=
        Decimal.roundTo_nonneg 8 _
          (mul_nonneg cfg.dca.baseOrderSize_pos.le (pow_nonneg cfg.dca.multiplier_pos.le _))
      exact h.fill s d ⟨d.dcaCount + 2, price, _, now, .dca⟩ hget hsize
    · exact h.rel.nil s

theorem MonitorRules.monitorDeal (h : MonitorRules cfg R) (now : Instant) (w : OhlcWindow)
    (candle : BacktestCandle) (dealId : String) :
    Program.Respects R (monitorDeal cfg sig now w candle dealId) := by
  refine Program.respects_bind h.rel _ _ (Program.respects_get h.rel) fun v => ?_
  split
  · exact Program.respects_pure h.rel ()
  refine Program.respects_bind h.rel _ _ (h.checkTpSl sig now w candle _) fun closed => ?_
  refine Program.respects_ite _ _ _ (Program.respects_pure h.rel ()) ?_
  refine Program.respects_get_bind _ fun s => ?_
  cases hget : s.state.openDeals.get? dealId with
  | none => exact h.rel.nil s
  | some d =>
    have hid := (KeyedDict.get?_mem _ _ _ hget).2
    exact h.checkDca now d candle.close s (by rw [hid, hget])

/-! ### A candle and a run -/

theorem CandleRules.checkEntry (h : CandleRules cfg R) (dealId : String) (w : OhlcWindow)
    (candle : BacktestCandle) : Program.Respects R (checkEntry cfg sig dealId w candle) := by
  refine Program.respects_get_bind _ fun s => ?_
  split
  · next hflat =>
    cases IndicatorEngine.checkEntrySignal cfg (sig.withOpens w.opensPerTf cfg.timeframe)
      w.candles with
    | mk fired trigger =>
      cases fired with
      | false => exact h.rel.nil s
      | true => exact h.opened s dealId candle.close candle.dt trigger hflat.1
  · exact h.rel.nil s

theorem CandleRules.processCandle (h : CandleRules cfg R) (i : ℕ) (w : OhlcWindow)
    (candle : BacktestCandle) : Program.Respects R (processCandle cfg sig env i w candle) := by
  refine Program.respects_bind h.rel _ _ (Program.respects_get h.rel) fun s => ?_
  refine Program.respects_bind h.rel _ _ ?_ fun _ => h.checkEntry sig _ w candle
  exact Program.respects_forEach h.rel _ _ fun dealId _ => h.monitorDeal sig _ w candle dealId

theorem RunRules.candleStep (h : RunRules cfg R) (p : BacktestCandle × ℕ) :
    Program.Respects R (candleStep cfg sig env data p) := by
  refine Program.respects_ite _ _ _ (Program.respects_pure h.rel ()) ?_
  refine Program.respects_bind h.rel _ _ (fun s => h.pointers s _) fun w => ?_
  exact Program.respects_bind h.rel _ _ (h.processCandle sig env _ w _) fun _ s => h.counted s

theorem RunRules.run (h : RunRules cfg R) : Program.Respects R (run cfg sig env data) := by
  refine Program.respects_bind h.rel _ _ ?_ fun _ => ?_
  · exact Program.respects_forEach h.rel _ _ fun p _ => h.candleStep sig env data p
  split
  · exact Program.respects_pure h.rel ()
  · refine Program.respects_bind h.rel _ _ (Program.respects_get h.rel) fun s => ?_
    exact Program.respects_forEach h.rel _ _ fun dealId _ => h.close _ dealId _ _ _

end Rules

end BacktestEngine

end Reverto
