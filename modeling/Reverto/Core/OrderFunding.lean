import Mathlib.Tactic
import Reverto.Core.DealLadder

/-!
# Orders and the balance that pays for them (core/trading_engine.py, paper/paper_engine.py)

`_open_deal` and `_check_dca` place the order first and ignore the answer of
`_deduct_balance`. An order is funded when the balance before it covers its fee.
-/

namespace Reverto

open TradingEngine

namespace OrderFunding

variable (cfg : BotConfig) (sig : Signals) (w : World)

/-! ### The order an operation is about to place -/

/-- The size of the order the operation places: a base order, or a rung of a ladder. -/
def orderDue : EngineOp → Option ℚ
  | .open _ inp _ _ => (createWithRetry inp).map fun _ => cfg.dca.baseOrderSize
  | .dca _ price dealId =>
    (w.deal? dealId).bind fun d =>
      match dcaVerdict cfg d price with
      | .ok true => some (dcaSize cfg d)
      | _ => none
  | _ => none

/-- The balance covers the fee of the order that is due. -/
def FeeAvailable (op : EngineOp) : Prop :=
  ∀ size ∈ orderDue cfg w op, calcFee cfg size ≤ w.engine.state.balanceBtc

/-- What the operation makes of the orders, the balance and the ledger. -/
structure OrderFunded (op : EngineOp) : Prop where
  recorded : ∀ d' ∈ (op.program cfg sig w).state.engine.state.openDeals.items, ∀ o ∈ d'.orders,
    (∃ d ∈ w.engine.state.openDeals.items, d.id = d'.id ∧ o ∈ d.orders) ∨
      .ledger (.saveOrder o d'.id (calcFee cfg o.size)) ∈ (op.program cfg sig w).log
  paid : ∀ o dealId fee, .ledger (.saveOrder o dealId fee) ∈ (op.program cfg sig w).log →
    fee ≤ w.engine.state.balanceBtc ∧
      (op.program cfg sig w).state.engine.state.balanceBtc = w.engine.state.balanceBtc - fee ∧
      (op.program cfg sig w).state.engine.feesPaidBtc = w.engine.feesPaidBtc + fee
  refused : ∀ size ∈ orderDue cfg w op, w.engine.state.balanceBtc < calcFee cfg size →
    (op.program cfg sig w).state = w ∧ ledgerCalls (op.program cfg sig w).log = []

/-! ### What the operation does -/

/-- The order of an operation as it places it. -/
inductive Places : EngineOp → PaperOrder → String → World → List EngineEvent → Prop
  | base (now : Instant) (inp : OpenInput) (price : ℚ) (t : Option GroupTrigger) (i : String)
    (h : createWithRetry inp = some i) :
    Places (.open now inp price t) ⟨1, price, cfg.dca.baseOrderSize, now, .base⟩ i
      (afterOpen cfg now i price t w) (openLog cfg now i price t w)
  | rung (now : Instant) (price : ℚ) (d : PaperDeal) (hd : w.deal? d.id = some d)
    (hv : dcaVerdict cfg d price = .ok true) :
    Places (.dca now price d.id) (dcaOrder cfg now d price) d.id
      (afterDca cfg now d price w) (dcaLog cfg now d price w)

/-- An operation for which an order is due places it. -/
theorem places_of_due (op : EngineOp) (size : ℚ) (h : size ∈ orderDue cfg w op) :
    ∃ o i, o.size = size ∧
      Places cfg w op o i (op.program cfg sig w).state (op.program cfg sig w).log := by
  cases op with
  | «open» now inp price t =>
    obtain ⟨i, hi, rfl⟩ := Option.map_eq_some_iff.mp h
    refine ⟨⟨1, price, cfg.dca.baseOrderSize, now, .base⟩, i, rfl, ?_⟩
    simp only [EngineOp.program, openDeal_run, hi]
    exact .base now inp price t i hi
  | dca now price i =>
    obtain ⟨d, hd, hsize⟩ := Option.bind_eq_some_iff.mp h
    obtain rfl : d.id = i := (KeyedDict.get?_mem _ _ _ hd).2
    cases hv : dcaVerdict cfg d price with
    | error x => simp [hv] at hsize
    | ok b =>
      cases b with
      | false => simp [hv] at hsize
      | true =>
        simp only [hv, Option.some.injEq] at hsize
        refine ⟨dcaOrder cfg now d price, d.id, hsize, ?_⟩
        have hrun := Program.map_run (checkDca cfg now d price) (fun _ => ()) w
        simp only [EngineOp.program, whileOpen_run, hd, hrun.1, hrun.2, checkDca_run, hv]
        exact .rung now price d hd hv
  | _ => cases h

/-- The operations that log no order. -/
theorem no_saveOrder_op (op : EngineOp) (h : orderDue cfg w op = none) (o : PaperOrder)
    (i : String) (fee : ℚ) : .ledger (.saveOrder o i fee) ∉ (op.program cfg sig w).log := by
  have hstep := opStep_program cfg sig op w
  generalize (op.program cfg sig w).log = l, (op.program cfg sig w).state = v at hstep ⊢
  cases hstep with
  | opened now inp price t j hj => simp [orderDue, hj] at h
  | filled now price d hd hv => simp [orderDue, hd, hv] at h
  | logError e => simp
  | held c now price d hd hv => simp
  | tookProfit c now price d v f t hd hv hf => simp [closeLog]
  | stopped now price d s hd hs hv => simp [closeLog]
  | edited now price d settings hd => simp
  | acted now price d action hd hp => cases action <;> simp [handlerLog, DealCloseHandler.ledgerCall]
  | _ => exact List.not_mem_nil

/-- An operation for which no order is due leaves the orders alone. -/
theorem orders_kept (op : EngineOp) (h : orderDue cfg w op = none) :
    ∀ d' ∈ (op.program cfg sig w).state.engine.state.openDeals.items,
      ∃ d ∈ w.engine.state.openDeals.items, d.id = d'.id ∧ d'.orders = d.orders := by
  intro d' hd'
  by_cases htrack : ∃ price, op = .trackWicks price
  · obtain ⟨price, rfl⟩ := htrack
    obtain ⟨d, hd, rfl⟩ := List.mem_map.mp hd'
    exact ⟨d, hd, rfl, rfl⟩
  rcases continues_op cfg sig op (fun price hp => htrack ⟨price, hp⟩) w d' hd' with
    ⟨d, hd, hstep⟩ | ⟨now, price, t, _, hopened⟩
  · refine ⟨d, hd, (hstep.id_eq).symm, ?_⟩
    cases hstep with
    | same => rfl
    | peak now price hop => rfl
    | settings s hs => rfl
    | order now price hl =>
      obtain ⟨now', e, rfl, he, hv⟩ := Ladder.dcaFilled_op cfg sig op w d.id price hl
      simp [orderDue, he, hv] at h
  · obtain ⟨now', inp, t', rfl⟩ := loggedBy_op cfg sig op w _ hopened
    have hnone : createWithRetry inp = none := Option.map_eq_none_iff.mp h
    simp [EngineOp.program, openDeal_run, hnone] at hopened

section Placed

variable (op : EngineOp) (o : PaperOrder) (i : String) (w' : World) (log : List EngineEvent)
  (h : Places cfg w op o i w' log)
include h

/-- A placed order is the only one that is saved, and its fee is charged. -/
theorem Places.charges (o' : PaperOrder) (j : String) (fee : ℚ)
    (hm : .ledger (.saveOrder o' j fee) ∈ log) :
    o' = o ∧ j = i ∧ fee = calcFee cfg o.size := by
  cases h with
  | base now inp price t i hi => simpa [openLog] using hm
  | rung now price d hd hv =>
    have hm' : o' = dcaOrder cfg now d price ∧ j = d.id ∧ fee = calcFee cfg (dcaSize cfg d) := by
      simpa [dcaLog] using hm
    exact hm'

theorem Places.saved : .ledger (.saveOrder o i (calcFee cfg o.size)) ∈ log := by
  cases h with
  | base now inp price t i hi => simp [openLog]
  | rung now price d hd hv => simp [dcaLog, dcaOrder]

/-- The account after the order, its fee deducted where the balance covers it. -/
theorem Places.account :
    w'.engine.state.balanceBtc =
        (if calcFee cfg o.size ≤ w.engine.state.balanceBtc
          then w.engine.state.balanceBtc - calcFee cfg o.size else w.engine.state.balanceBtc) ∧
      w'.engine.feesPaidBtc = w.engine.feesPaidBtc + calcFee cfg o.size := by
  cases h with
  | base now inp price t i hi =>
    refine ⟨?_, rfl⟩
    simp only [afterOpen, charged, feeCovered, decide_eq_true_eq]
    rfl
  | rung now price d hd hv =>
    refine ⟨?_, rfl⟩
    simp only [afterDca, charged, feeCovered, decide_eq_true_eq]
    rfl

/-- Every order open afterwards was open before, or is the placed one. -/
theorem Places.orders :
    ∀ d' ∈ w'.engine.state.openDeals.items, ∀ o' ∈ d'.orders,
      (∃ d ∈ w.engine.state.openDeals.items, d.id = d'.id ∧ o' ∈ d.orders) ∨
        (o' = o ∧ d'.id = i) := by
  intro d' hd' o' ho'
  cases h with
  | base now inp price t i hi =>
    have hget := KeyedDict.get?_of_mem _ d' hd'
    by_cases hid : d'.id = i
    · subst hid
      have hset : (w.engine.state.openDeals.set (newDeal cfg now d'.id price t)).get? d'.id =
          some d' := hget
      have hself := KeyedDict.get?_set_self w.engine.state.openDeals
        (newDeal cfg now d'.id price t)
      have hnew : newDeal cfg now d'.id price t = d' := Option.some.inj (hself.symm.trans hset)
      rw [← hnew] at ho'
      exact Or.inr ⟨List.mem_singleton.mp ho', rfl⟩
    · have hset : (w.engine.state.openDeals.set (newDeal cfg now i price t)).get? d'.id =
          some d' := hget
      rw [KeyedDict.get?_set_of_ne _ _ _ hid] at hset
      exact Or.inl ⟨d', (KeyedDict.get?_mem _ _ _ hset).1, rfl, ho'⟩
  | rung now price d hd hv =>
    obtain ⟨e, he, hed⟩ := List.mem_map.mp hd'
    split at hed
    · rename_i hid
      subst hed
      rcases List.mem_append.mp ho' with ho' | ho'
      · exact Or.inl ⟨e, he, rfl, ho'⟩
      · exact Or.inr ⟨List.mem_singleton.mp ho', hid⟩
    · subst hed
      exact Or.inl ⟨e, he, rfl, ho'⟩

end Placed

/-! ### Runs -/

/-- One operation. -/
theorem orderFunded_iff (op : EngineOp) : OrderFunded cfg sig w op ↔ FeeAvailable cfg w op := by
  constructor
  · intro h size hsize
    obtain ⟨o, i, rfl, hplaces⟩ := places_of_due cfg sig w op size hsize
    exact (h.paid o i _ (hplaces.saved cfg w op o i _ _)).1
  · intro h
    cases hdue : orderDue cfg w op with
    | none =>
      refine ⟨fun d' hd' o ho => ?_, fun o i fee hm => ?_, fun size hsize => ?_⟩
      · obtain ⟨d, hd, hid, horders⟩ := orders_kept cfg sig w op hdue d' hd'
        exact Or.inl ⟨d, hd, hid, horders ▸ ho⟩
      · exact absurd hm (no_saveOrder_op cfg sig w op hdue o i fee)
      · rw [hdue] at hsize
        cases hsize
    | some size =>
      obtain ⟨o, i, rfl, hplaces⟩ := places_of_due cfg sig w op size hdue
      have hcovers := h o.size hdue
      refine ⟨fun d' hd' o' ho' => ?_, fun o' j fee hm => ?_, fun size' hsize' hlow => ?_⟩
      · rcases hplaces.orders cfg w op o i _ _ d' hd' o' ho' with hold | ⟨rfl, rfl⟩
        · exact Or.inl hold
        · exact Or.inr (hplaces.saved cfg w op o' d'.id _ _)
      · obtain ⟨rfl, rfl, rfl⟩ := hplaces.charges cfg w op o i _ _ o' j fee hm
        obtain ⟨hbalance, hfees⟩ := hplaces.account cfg w op o' j _ _
        rw [if_pos hcovers] at hbalance
        exact ⟨hcovers, hbalance, hfees⟩
      · rw [hdue] at hsize'
        cases hsize'
        exact absurd hcovers (not_le.mpr hlow)

/-- In a run of the engine, from any state, every order is funded exactly when the
balance covers the fee of every order that comes due. -/
theorem ordersFunded_run_iff (ops : List EngineOp) :
    Program.EachStep (EngineOp.program cfg sig) (OrderFunded cfg sig) ops w ↔
      Program.EachStep (EngineOp.program cfg sig) (FeeAvailable cfg) ops w :=
  Program.eachStep_congr _ _ _ (fun v op => orderFunded_iff cfg sig v op) ops w

/-! ### An order that nothing pays for -/

/-- A base order whose fee is 0.12 BTC is placed on an account of 0.1 BTC. -/
theorem not_ordersFunded_base :
    ¬ ∀ (cfg : BotConfig) (sig : Signals) (initialBalanceBtc : ℚ) (ops : List EngineOp),
      Program.EachStep (EngineOp.program cfg sig) (OrderFunded cfg sig) ops
        (freshWorld initialBalanceBtc) := by
  intro h
  have hstep := (h (.ofBaseOrder "unfunded" 200 (by norm_num)) .silent (1 / 10)
    [.open 0 (.accepted "202501010000-0001") 50000 none]).1
  have hcovers := (orderFunded_iff _ .silent _ _).mp hstep 200 (by decide +kernel)
  revert hcovers
  decide +kernel

end OrderFunding

end Reverto
