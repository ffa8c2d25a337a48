import Mathlib.Tactic
import Reverto.Core.EngineSteps

/-!
# The account of the paper engine (paper/paper_engine.py, core/trading_engine.py)

Balance, fee counter and history move together in every operation except one:
`_deduct_balance` refuses a fee the balance does not cover, and the caller
counts it as paid all the same.
-/

namespace Reverto

namespace Accounting

open TradingEngine

variable (cfg : BotConfig) (sig : Signals)

/-- The account and the counters of an engine agree. -/
def Balanced (e : EngineState) : Prop :=
  e.state.balanceBtc = e.state.initialBalanceBtc + e.state.totalPnlBtc - e.feesPaidBtc

/-- What the balance has in excess of the counters. -/
def surplus (e : EngineState) : ℚ :=
  e.state.balanceBtc + e.feesPaidBtc - e.state.totalPnlBtc - e.state.initialBalanceBtc

theorem balanced_iff (e : EngineState) : Balanced e ↔ surplus e = 0 := by
  unfold Balanced surplus
  constructor
  · intro h
    rw [h]
    ring
  · intro h
    linarith

/-! ### Charges -/

/-- A fee that goes through `_deduct_balance`, and the balance it meets. -/
structure Charge where
  balance : ℚ
  fee : ℚ
  deriving DecidableEq, Repr

/-- The fee the deduction refuses. -/
def Charge.refused (ch : Charge) : ℚ := if ch.fee ≤ ch.balance then 0 else ch.fee

/-- The balance covers the fee, or there is no fee. -/
def Charge.covered (ch : Charge) : Prop := ch.fee ≤ ch.balance ∨ ch.fee = 0

instance (ch : Charge) : Decidable ch.covered := inferInstanceAs (Decidable (_ ∨ _))

theorem Charge.refused_eq_zero_iff (ch : Charge) : ch.refused = 0 ↔ ch.covered := by
  unfold Charge.refused Charge.covered
  split
  · rename_i h
    simp [h]
  · rename_i h
    simp [h]

/-- The charge of a close by the take profit or the stop loss: the balance has
the PnL by then. -/
def closeCharge (w : World) (d : PaperDeal) (fillPrice : ℚ) : Charge :=
  ⟨w.engine.state.balanceBtc + (d.calculatePnl fillPrice).1, calcFee cfg d.totalSize⟩

/-- The charge an operation makes. -/
def charge? (w : World) : EngineOp → Option Charge
  | .open _ inp _ _ =>
    (createWithRetry inp).map fun _ =>
      ⟨w.engine.state.balanceBtc, calcFee cfg cfg.dca.baseOrderSize⟩
  | .takeProfit c _ price dealId =>
    (w.deal? dealId).bind fun d =>
      match tpVerdict cfg sig c d price with
      | .ok (.priceFill f) => some (closeCharge cfg w d f)
      | .ok (.indicatorFill _) => some (closeCharge cfg w d price)
      | _ => none
  | .stopLoss _ price dealId =>
    (w.deal? dealId).bind fun d =>
      match (slSettings cfg d).map (slVerdict cfg d price) with
      | some (.ok true) => some (closeCharge cfg w d price)
      | _ => none
  | .dca _ price dealId =>
    (w.deal? dealId).bind fun d =>
      match dcaVerdict cfg d price with
      | .ok true => some ⟨w.engine.state.balanceBtc, calcFee cfg (dcaSize cfg d)⟩
      | _ => none
  | _ => none

/-- The fee an operation has refused. -/
def refused (w : World) (op : EngineOp) : ℚ := ((charge? cfg sig w op).map Charge.refused).getD 0

/-- The balance covers the fee of the operation, if it charges one. -/
def Covered (w : World) (op : EngineOp) : Prop := ∀ ch ∈ charge? cfg sig w op, ch.covered

instance (w : World) (op : EngineOp) : Decidable (Covered cfg sig w op) :=
  inferInstanceAs (Decidable (∀ ch ∈ charge? cfg sig w op, ch.covered))

theorem refused_eq_zero_iff (w : World) (op : EngineOp) :
    refused cfg sig w op = 0 ↔ Covered cfg sig w op := by
  unfold refused Covered
  cases charge? cfg sig w op with
  | none => simp
  | some ch => simpa using ch.refused_eq_zero_iff

/-! ### What the steps do to the surplus -/

theorem surplus_congr (e e' : EngineState) (hs : e'.state = e.state)
    (hf : e'.feesPaidBtc = e.feesPaidBtc) : surplus e' = surplus e := by
  unfold surplus
  rw [hs, hf]

theorem surplus_onDeal (dealId : String) (f : PaperDeal → PaperDeal) (hf : ∀ d, (f d).id = d.id)
    (w : World) : surplus (World.onDeal dealId f hf w).engine = surplus w.engine := rfl

theorem surplus_charged (fee : ℚ) (w : World) :
    surplus (charged fee w).engine =
      surplus w.engine + Charge.refused ⟨w.engine.state.balanceBtc, fee⟩ := by
  simp only [surplus, charged, feeCovered, Charge.refused, decide_eq_true_eq,
    PaperState.totalPnlBtc]
  split
  · ring
  · ring

theorem closeDeal_initial (s : PaperState) (i : String) (p : ℚ) (r : CloseReason) (t : Instant) :
    (s.closeDeal i p r t).initialBalanceBtc = s.initialBalanceBtc := by
  unfold PaperState.closeDeal
  split <;> rfl

theorem surplus_booked (now : Instant) (d : PaperDeal) (f : ℚ) (r : CloseReason) (t : ExitTrigger)
    (w : World) : surplus (booked now d f r t w).engine = surplus w.engine := by
  have key : ∀ s : PaperState, s.balanceBtc = w.engine.state.balanceBtc →
      s.initialBalanceBtc = w.engine.state.initialBalanceBtc →
      s.closedDeals = w.engine.state.closedDeals →
      surplus { w.engine with state := s.closeDeal d.id f r now } = surplus w.engine := by
    intro s hb hi hc
    have h := PaperState.closeDeal_booked s d.id f r now
    have hp : s.totalPnlBtc = w.engine.state.totalPnlBtc := by
      unfold PaperState.totalPnlBtc
      rw [hc]
    simp only [surplus, closeDeal_initial, hi]
    linarith
  exact key (w.engine.state.updateDeal d.id (fun e => { e with exitTrigger := some t })
    fun _ => rfl) rfl rfl rfl

/-- The balance a close meets once the PnL of the deal is booked. -/
theorem booked_balance (now : Instant) (d e : PaperDeal) (f : ℚ) (r : CloseReason)
    (t : ExitTrigger) (w : World) (h : w.deal? d.id = some e) (ho : e.orders = d.orders)
    (hs : e.side = d.side) (hl : e.leverage = d.leverage) :
    (booked now d f r t w).engine.state.balanceBtc =
      w.engine.state.balanceBtc + (d.calculatePnl f).1 := by
  have hpnl := PaperDeal.calculatePnl_congr e d f ho hs hl
  rw [TradingEngine.booked_eq now d e f r t w h, ← hpnl]
  rfl

theorem surplus_afterClose (now : Instant) (d e : PaperDeal) (f : ℚ) (r : CloseReason)
    (t : ExitTrigger) (w : World) (h : w.deal? d.id = some e) (ho : e.orders = d.orders)
    (hs : e.side = d.side) (hl : e.leverage = d.leverage) :
    surplus (afterClose cfg now d f r t w).engine =
      surplus w.engine + (closeCharge cfg w d f).refused := by
  rw [afterClose, surplus_charged, surplus_booked, booked_balance now d e f r t w h ho hs hl]
  rfl

theorem deal?_id (w : World) (i : String) (d : PaperDeal) (h : w.deal? i = some d) : d.id = i :=
  (KeyedDict.get?_mem _ _ _ h).2

theorem surplus_takeProfit (c : Candles) (now : Instant) (price : ℚ) (i : String) (w : World) :
    surplus (EngineOp.program cfg sig (.takeProfit c now price i) w).state.engine =
      surplus w.engine + refused cfg sig w (.takeProfit c now price i) := by
  simp only [EngineOp.program, whileOpen_run, refused, charge?]
  cases h : w.deal? i with
  | none => simp
  | some d =>
    have hself : w.deal? d.id = some d := by rw [deal?_id w i d h, h]
    simp only [checkTp_run, Option.bind_some]
    cases tpVerdict cfg sig c d price with
    | error e => simp
    | ok v =>
      cases v with
      | idle => simp
      | held => simp
      | priceFill f =>
        simpa using surplus_afterClose cfg now d d f .tp .priceTp w hself rfl rfl rfl
      | indicatorFill info =>
        simpa using surplus_afterClose cfg now d d price .tp
          (.indicatorTp info.groupName info.indicators) w hself rfl rfl rfl

theorem peaked_deal? (d : PaperDeal) (price : ℚ) (t : SlType) (w : World)
    (h : w.deal? d.id = some d) :
    ∃ e, (peaked cfg d price t w).deal? d.id = some e ∧ e.orders = d.orders ∧ e.side = d.side ∧
      e.leverage = d.leverage := by
  obtain ⟨p, hp⟩ := peaked_self cfg d price t w h
  exact ⟨{ d with peakPrice := p }, hp, rfl, rfl, rfl⟩

theorem peaked_account (d : PaperDeal) (price : ℚ) (t : SlType) (w : World) :
    surplus (peaked cfg d price t w).engine = surplus w.engine ∧
      (peaked cfg d price t w).engine.state.balanceBtc = w.engine.state.balanceBtc := by
  unfold peaked
  split
  · exact ⟨rfl, rfl⟩
  · exact ⟨rfl, rfl⟩

theorem surplus_stopLoss (now : Instant) (price : ℚ) (i : String) (w : World) :
    surplus (EngineOp.program cfg sig (.stopLoss now price i) w).state.engine =
      surplus w.engine + refused cfg sig w (.stopLoss now price i) := by
  simp only [EngineOp.program, whileOpen_run, refused, charge?]
  cases h : w.deal? i with
  | none => simp
  | some d =>
    have hself : w.deal? d.id = some d := by rw [deal?_id w i d h, h]
    simp only [checkSl_run, Option.bind_some]
    cases slSettings cfg d with
    | none => simp
    | some s =>
      have hacc := peaked_account cfg d price s.1 w
      simp only [Option.map_some]
      cases slVerdict cfg d price s with
      | error e => simpa using hacc.1
      | ok hit =>
        cases hit with
        | false => simpa using hacc.1
        | true =>
          obtain ⟨e, he, ho, hs, hl⟩ := peaked_deal? cfg d price s.1 w hself
          have hclose := surplus_afterClose cfg now d e price .sl (slTrigger s.1)
            (peaked cfg d price s.1 w) he ho hs hl
          simp only [Option.map_some, Option.getD_some]
          rw [hclose, hacc.1]
          simp only [closeCharge, hacc.2]

theorem surplus_dca (now : Instant) (price : ℚ) (i : String) (w : World) :
    surplus (EngineOp.program cfg sig (.dca now price i) w).state.engine =
      surplus w.engine + refused cfg sig w (.dca now price i) := by
  simp only [EngineOp.program, whileOpen_run, refused, charge?]
  cases h : w.deal? i with
  | none => simp
  | some d =>
    simp only [Option.bind_some]
    rw [(Program.map_run (checkDca cfg now d price) (fun _ => ()) w).2, checkDca_run]
    cases dcaVerdict cfg d price with
    | error e => simp
    | ok b =>
      cases b with
      | false => simp
      | true =>
        simp only [Option.map_some, Option.getD_some]
        rw [afterDca, surplus_charged, surplus_onDeal]
        rfl

theorem surplus_open (now : Instant) (inp : OpenInput) (price : ℚ) (t : Option GroupTrigger)
    (w : World) :
    surplus (EngineOp.program cfg sig (.open now inp price t) w).state.engine =
      surplus w.engine + refused cfg sig w (.open now inp price t) := by
  simp only [EngineOp.program, openDeal_run, refused, charge?]
  cases createWithRetry inp with
  | none => simp
  | some dealId =>
    simp only [Option.map_some, Option.getD_some]
    rw [afterOpen, surplus_charged]
    rfl

theorem surplus_sentinel (now : Instant) (price : ℚ) (s : Sentinel) (w : World) :
    surplus (EngineOp.program cfg sig (.sentinel now price s) w).state.engine =
      surplus w.engine := by
  simp only [EngineOp.program, consumeSentinel_run]
  cases s with
  | unknown i => rfl
  | edit i settings =>
    simp only
    split <;> rfl
  | act i action =>
    simp only
    cases h : w.deal? i with
    | none => rfl
    | some d =>
      simp only
      split
      · rfl
      · have hself : w.engine.state.openDeals.get? d.id = some d := by
          have hi := deal?_id w i d h
          rw [hi]
          exact h
        simp only [surplus, afterHandler]
        rw [DealCloseHandler.actState_eq _ _ d price now action hself]
        cases action with
        | close =>
          simp [PaperState.totalPnlBtc, DealCloseHandler.closedDeal, DealCloseHandler.result,
            PaperDeal.closed, PaperDeal.calculatePnl_congr { d with exitTrigger := some .manual } d
              price rfl rfl rfl]
          ring
        | cancel =>
          simp [PaperState.totalPnlBtc, DealCloseHandler.closedDeal, DealCloseHandler.result,
            PaperDeal.closed, PaperDeal.calculatePnl_congr
              { d with exitTrigger := some .cancelled } d price rfl rfl rfl]
          ring

/-- One operation raises the surplus by the fee it has refused. -/
theorem surplus_op (op : EngineOp) (w : World) :
    surplus (op.program cfg sig w).state.engine = surplus w.engine + refused cfg sig w op := by
  cases op with
  | takeProfit c now price i => exact surplus_takeProfit cfg sig c now price i w
  | stopLoss now price i => exact surplus_stopLoss cfg sig now price i w
  | dca now price i => exact surplus_dca cfg sig now price i w
  | «open» now inp price t => exact surplus_open cfg sig now inp price t w
  | sentinel now price s =>
    rw [surplus_sentinel]
    exact (add_zero _).symm
  | drawdown price =>
    have h := drawdownStep_account cfg price w.engine
    exact (surplus_congr _ _ h.1 h.2).trans (add_zero _).symm
  | preTick inp =>
    have h := preTickHook_account inp w
    exact (surplus_congr _ _ h.1 h.2).trans (add_zero _).symm
  | postTick =>
    have h := postTickHook_account w
    exact (surplus_congr _ _ h.1 h.2).trans (add_zero _).symm
  | setPrice price => exact (add_zero _).symm
  | trackWicks price => exact (add_zero _).symm
  | write now price isOpen => exact (add_zero _).symm
  | logError e => exact (add_zero _).symm

/-! ### Runs -/

/-- The fees a run of operations has refused. -/
def refusedInRun : List EngineOp → World → ℚ
  | [], _ => 0
  | op :: ops, w => refused cfg sig w op + refusedInRun ops (op.program cfg sig w).state

/-- Every operation of a run is covered in the state it meets. -/
def RunCovered : List EngineOp → World → Prop
  | [], _ => True
  | op :: ops, w => Covered cfg sig w op ∧ RunCovered ops (op.program cfg sig w).state

instance decidableRunCovered : ∀ (ops : List EngineOp) (w : World),
    Decidable (RunCovered cfg sig ops w)
  | [], _ => inferInstanceAs (Decidable True)
  | op :: ops, w =>
    have := decidableRunCovered ops (op.program cfg sig w).state
    inferInstanceAs (Decidable (Covered cfg sig w op ∧ _))

/-- The state a run ends in. -/
def endState (ops : List EngineOp) (w : World) : World :=
  (Program.runAll (EngineOp.program cfg sig) ops w).2

theorem surplus_run (ops : List EngineOp) (w : World) :
    surplus (endState cfg sig ops w).engine = surplus w.engine + refusedInRun cfg sig ops w := by
  induction ops generalizing w with
  | nil => exact (add_zero _).symm
  | cons op ops ih =>
    have h := ih (op.program cfg sig w).state
    rw [surplus_op] at h
    simp only [refusedInRun, ← add_assoc, ← h]
    rfl

/-! ### Fees are not negative -/

/-- No open order has a negative size. -/
def SizesNonneg (w : World) : Prop :=
  ∀ d ∈ w.engine.state.openDeals.items, ∀ o ∈ d.orders, 0 ≤ o.size

theorem calcFee_nonneg (size : ℚ) (h : 0 ≤ size) : 0 ≤ calcFee cfg size :=
  mul_nonneg h cfg.dca.takerFee_nonneg

theorem dcaSize_nonneg (d : PaperDeal) : 0 ≤ dcaSize cfg d := by
  refine Decimal.roundTo_nonneg 8 _ ?_
  exact mul_nonneg cfg.dca.baseOrderSize_pos.le (pow_nonneg cfg.dca.multiplier_pos.le _)

theorem charge_fee_nonneg (w : World) (hw : SizesNonneg w) (op : EngineOp) (ch : Charge)
    (h : charge? cfg sig w op = some ch) : 0 ≤ ch.fee := by
  have hclose : ∀ i d f, w.deal? i = some d → 0 ≤ (closeCharge cfg w d f).fee := by
    intro i d f hd
    exact calcFee_nonneg cfg _ (d.totalSize_nonneg (hw d (KeyedDict.get?_mem _ _ _ hd).1))
  cases op with
  | takeProfit c now price i =>
    simp only [charge?, Option.bind_eq_some_iff] at h
    obtain ⟨d, hd, h⟩ := h
    split at h
    · cases h
      exact hclose i d _ hd
    · cases h
      exact hclose i d _ hd
    · cases h
  | stopLoss now price i =>
    simp only [charge?, Option.bind_eq_some_iff] at h
    obtain ⟨d, hd, h⟩ := h
    split at h
    · cases h
      exact hclose i d _ hd
    · cases h
  | dca now price i =>
    simp only [charge?, Option.bind_eq_some_iff] at h
    obtain ⟨d, hd, h⟩ := h
    split at h
    · cases h
      exact calcFee_nonneg cfg _ (dcaSize_nonneg cfg d)
    · cases h
  | «open» now inp price t =>
    simp only [charge?, Option.map_eq_some_iff] at h
    obtain ⟨_, _, rfl⟩ := h
    exact calcFee_nonneg cfg _ cfg.dca.baseOrderSize_pos.le
  | setPrice price => cases h
  | trackWicks price => cases h
  | drawdown price => cases h
  | sentinel now price s => cases h
  | write now price isOpen => cases h
  | logError e => cases h
  | preTick inp => cases h
  | postTick => cases h

theorem refused_nonneg (w : World) (hw : SizesNonneg w) (op : EngineOp) :
    0 ≤ refused cfg sig w op := by
  unfold refused
  cases h : charge? cfg sig w op with
  | none => simp
  | some ch =>
    have hfee := charge_fee_nonneg cfg sig w hw op ch h
    simp only [Option.map_some, Option.getD_some, Charge.refused]
    split
    · exact le_rfl
    · exact hfee

theorem sizesNonneg_op (op : EngineOp) (w : World) (hw : SizesNonneg w) :
    SizesNonneg (op.program cfg sig w).state := by
  by_cases hop : ∃ price, op = .trackWicks price
  · obtain ⟨price, rfl⟩ := hop
    intro d hd
    obtain ⟨e, he, rfl⟩ := List.mem_map.mp hd
    exact hw e he
  · have hcont := continues_op cfg sig op (fun price h => hop ⟨price, h⟩) w
    intro d' hd' o ho
    rcases hcont d' hd' with ⟨d, hd, hstep⟩ | ⟨now, price, t, hnew, _⟩
    · cases hstep with
      | same => exact hw d' hd o ho
      | peak now price h => exact hw d hd o ho
      | settings s hs => exact hw d hd o ho
      | order now price hl =>
        rcases List.mem_append.mp ho with ho | ho
        · exact hw d hd o ho
        · rw [List.mem_singleton] at ho
          rw [ho]
          exact dcaSize_nonneg cfg d
    · rw [hnew] at ho
      have hbase : o = ⟨1, price, cfg.dca.baseOrderSize, now, .base⟩ := List.mem_singleton.mp ho
      rw [hbase]
      exact cfg.dca.baseOrderSize_pos.le

theorem refusedInRun_nonneg (ops : List EngineOp) (w : World) (hw : SizesNonneg w) :
    0 ≤ refusedInRun cfg sig ops w := by
  induction ops generalizing w with
  | nil => exact le_rfl
  | cons op ops ih =>
    exact add_nonneg (refused_nonneg cfg sig w hw op) (ih _ (sizesNonneg_op cfg sig op w hw))

theorem refusedInRun_eq_zero_iff (ops : List EngineOp) (w : World) (hw : SizesNonneg w) :
    refusedInRun cfg sig ops w = 0 ↔ RunCovered cfg sig ops w := by
  induction ops generalizing w with
  | nil => exact ⟨fun _ => trivial, fun _ => rfl⟩
  | cons op ops ih =>
    have hw' := sizesNonneg_op cfg sig op w hw
    have hhead := refused_nonneg cfg sig w hw op
    have htail := refusedInRun_nonneg cfg sig ops _ hw'
    rw [refusedInRun, add_eq_zero_iff_of_nonneg hhead htail, refused_eq_zero_iff, ih _ hw']
    rfl

/-! ### The account of every reachable state -/

/-- After any operations the account agrees with the counters exactly when the
balance covered every fee that was deducted on the way. -/
theorem balanced_iff_runCovered (initialBalanceBtc : ℚ) (ops : List EngineOp) :
    Balanced (endState cfg sig ops (freshWorld initialBalanceBtc)).engine ↔
      RunCovered cfg sig ops (freshWorld initialBalanceBtc) := by
  have hfresh : surplus (freshWorld initialBalanceBtc).engine = 0 := by
    simp [surplus, freshWorld, bootEngine, PaperState.init, PaperState.totalPnlBtc]
  have hsizes : SizesNonneg (freshWorld initialBalanceBtc) := by
    intro d hd
    cases hd
  rw [balanced_iff, surplus_run, hfresh, zero_add, refusedInRun_eq_zero_iff cfg sig ops _ hsizes]

/-- A bot whose base order is larger than its account can pay the fee of. -/
def oversizedBot : BotConfig := .ofBaseOrder "oversized" 200 (by norm_num)

instance (e : EngineState) : Decidable (Balanced e) := inferInstanceAs (Decidable (_ = _))

/-- Opening one deal on the default account of 0.1 BTC breaks the law: the
entry fee of 0.12 BTC is refused and counted. -/
theorem not_balanced_refused_fee :
    ¬ ∀ (cfg : BotConfig) (sig : Signals) (initialBalanceBtc : ℚ) (ops : List EngineOp),
      Balanced (endState cfg sig ops (freshWorld initialBalanceBtc)).engine := by
  intro h
  have hlaw := h oversizedBot .silent (1 / 10)
    [.open 0 (.accepted "202501010000-0001") 50000 none]
  revert hlaw
  decide +kernel

end Accounting

end Reverto
