import Mathlib.Tactic
import Reverto.Core.EngineOps

/-!
# What each operation of the engine does (core/trading_engine.py)

One lemma per method: its result, its events and the world after it, by the
decision it takes. Later proofs use these and unfold no method.
-/

namespace Reverto

namespace TradingEngine

variable (cfg : BotConfig) (sig : Signals) (c : Candles) (now : Instant)

/-! ### Fees and closing -/

/-- The balance covers the fee that is to be deducted. -/
def feeCovered (w : World) (fee : ℚ) : Bool := decide (fee ≤ w.engine.state.balanceBtc)

/-- The world after a fee is charged. -/
def charged (fee : ℚ) (w : World) : World :=
  { w with
    engine :=
      { w.engine with
        state :=
          { w.engine.state with
            balanceBtc :=
              if feeCovered w fee then w.engine.state.balanceBtc - fee
              else w.engine.state.balanceBtc }
        feesPaidBtc := w.engine.feesPaidBtc + fee } }

theorem chargeFee_run (fee : ℚ) (w : World) :
    chargeFee fee w = ⟨.ok (), [.fee fee (feeCovered w fee)], charged fee w⟩ := by
  simp only [chargeFee, deductBalance, Program.bind_run, Program.get_run, feeCovered, charged]
  by_cases h : w.engine.state.balanceBtc < fee
  · have hn : ¬ fee ≤ w.engine.state.balanceBtc := not_le.mpr h
    simp [h, hn]
  · have hn : fee ≤ w.engine.state.balanceBtc := not_lt.mp h
    simp [h, hn, Program.bind_run, World.onState]

/-- The world after the deal is booked as closed, before the exit fee. -/
def booked (d : PaperDeal) (fillPrice : ℚ) (reason : CloseReason) (trigger : ExitTrigger)
    (w : World) : World :=
  World.onState (fun s => s.closeDeal d.id fillPrice reason now)
    (World.setExitTrigger d.id trigger w)

/-- The world after a deal is closed by the take profit or the stop loss. -/
def afterClose (d : PaperDeal) (fillPrice : ℚ) (reason : CloseReason) (trigger : ExitTrigger)
    (w : World) : World :=
  charged (calcFee cfg d.totalSize) (booked now d fillPrice reason trigger w)

/-- The events of that close. -/
def closeLog (d : PaperDeal) (fillPrice : ℚ) (reason : CloseReason) (trigger : ExitTrigger)
    (w : World) : List EngineEvent :=
  [.fee (calcFee cfg d.totalSize)
      (feeCovered (booked now d fillPrice reason trigger w) (calcFee cfg d.totalSize)),
    .ledger (.closeDeal d.id fillPrice reason (d.calculatePnl fillPrice).1
      (d.calculatePnl fillPrice).2 now trigger)]

theorem closeOpenDeal_run (d : PaperDeal) (f : ℚ) (r : CloseReason) (t : ExitTrigger)
    (w : World) :
    closeOpenDeal cfg now d f r t w =
      ⟨.ok (), closeLog cfg now d f r t w, afterClose cfg now d f r t w⟩ := by
  simp only [closeOpenDeal, Program.bind_run, Program.modify_run, chargeFee_run, Program.emit_run]
  rfl

theorem checkTp_run (d : PaperDeal) (price : ℚ) (w : World) :
    checkTp cfg sig c now d price w =
      match tpVerdict cfg sig c d price with
      | .error e => ⟨.error e, [], w⟩
      | .ok .idle => ⟨.ok (), [], w⟩
      | .ok .held => ⟨.ok (), [.tpHeld d.id], w⟩
      | .ok (.priceFill f) =>
        ⟨.ok (), closeLog cfg now d f .tp .priceTp w ++ [.tpClosed d.id f .priceTp],
          afterClose cfg now d f .tp .priceTp w⟩
      | .ok (.indicatorFill info) =>
        ⟨.ok (), closeLog cfg now d price .tp (.indicatorTp info.groupName info.indicators) w ++
            [.tpClosed d.id price (.indicatorTp info.groupName info.indicators)],
          afterClose cfg now d price .tp (.indicatorTp info.groupName info.indicators) w⟩ := by
  simp only [checkTp, Program.bind_run]
  cases tpVerdict cfg sig c d price with
  | error e => rfl
  | ok v =>
    cases v with
    | idle => rfl
    | held => rfl
    | priceFill f => simp [Program.bind_run, closeOpenDeal_run]
    | indicatorFill info => simp [Program.bind_run, closeOpenDeal_run]

/-! ### Stop loss -/

/-- What `_check_sl` decides about a deal that has a stop loss. -/
def slVerdict (d : PaperDeal) (price : ℚ) (s : SlType × ℚ) : Except PyError Bool :=
  (computeSlTargetPrice (slReference cfg d price s.1) s.2 d.side).map (slHit d.side price)

/-- The exit trigger of the stop loss. -/
def slTrigger (slType : SlType) : ExitTrigger :=
  if slType = .trailing then .trailingSl else .priceSl

/-- The world after the trailing peak is updated. -/
def peaked (d : PaperDeal) (price : ℚ) (slType : SlType) (w : World) : World :=
  if slType = .trailing then
    World.setPeakPrice d.id (newPeak cfg d price) w
  else w

theorem checkSl_run (d : PaperDeal) (price : ℚ) (w : World) :
    checkSl cfg now d price w =
      match slSettings cfg d with
      | none => ⟨.ok (), [], w⟩
      | some s =>
        match slVerdict cfg d price s with
        | .error e => ⟨.error e, [], peaked cfg d price s.1 w⟩
        | .ok false => ⟨.ok (), [], peaked cfg d price s.1 w⟩
        | .ok true =>
          ⟨.ok (), closeLog cfg now d price .sl (slTrigger s.1) (peaked cfg d price s.1 w) ++
              [.slClosed d.id price],
            afterClose cfg now d price .sl (slTrigger s.1) (peaked cfg d price s.1 w)⟩ := by
  unfold checkSl
  cases slSettings cfg d with
  | none => rfl
  | some s =>
    obtain ⟨slType, slPct⟩ := s
    have htail : ∀ v : World,
        (Program.lift (computeSlTargetPrice (slReference cfg d price slType) slPct d.side) >>=
          fun slPrice =>
            if slHit d.side price slPrice = true then
              closeOpenDeal cfg now d price .sl (slTrigger slType) >>= fun _ =>
                Program.emit (.slClosed d.id price)
            else pure () : EngineM Unit) v =
          match slVerdict cfg d price (slType, slPct) with
          | .error e => ⟨.error e, [], v⟩
          | .ok false => ⟨.ok (), [], v⟩
          | .ok true =>
            ⟨.ok (), closeLog cfg now d price .sl (slTrigger slType) v ++ [.slClosed d.id price],
              afterClose cfg now d price .sl (slTrigger slType) v⟩ := by
      intro v
      simp only [Program.bind_run, slVerdict]
      cases computeSlTargetPrice (slReference cfg d price slType) slPct d.side with
      | error e => rfl
      | ok slPrice =>
        simp only [Program.lift_ok, Program.pure_run, Except.map]
        cases hh : slHit d.side price slPrice with
        | false => simp
        | true => simp [Program.bind_run, closeOpenDeal_run]
    by_cases ht : slType = .trailing
    · subst ht
      exact htail (peaked cfg d price .trailing w)
    · have hpeak : peaked cfg d price slType w = w := if_neg ht
      have htrig : slTrigger slType = .priceSl := if_neg ht
      simp only [hpeak, if_neg ht]
      rw [← htail w, htrig]

/-! ### DCA ladder -/

/-- The world after a rung of the ladder is filled. -/
def afterDca (d : PaperDeal) (price : ℚ) (w : World) : World :=
  charged (calcFee cfg (dcaSize cfg d))
    (World.addOrder d.id (dcaOrder cfg now d price) w)

/-- The events of that fill. -/
def dcaLog (d : PaperDeal) (price : ℚ) (w : World) : List EngineEvent :=
  [.fee (calcFee cfg (dcaSize cfg d))
      (feeCovered (World.addOrder d.id (dcaOrder cfg now d price) w) (calcFee cfg (dcaSize cfg d))),
    .ledger (.saveOrder (dcaOrder cfg now d price) d.id (calcFee cfg (dcaSize cfg d))),
    .ledger (.saveDeal { d with orders := d.orders ++ [dcaOrder cfg now d price] }),
    .dcaFilled d.id price]

theorem checkDca_run (d : PaperDeal) (price : ℚ) (w : World) :
    checkDca cfg now d price w =
      match dcaVerdict cfg d price with
      | .error e => ⟨.error e, [], w⟩
      | .ok false => ⟨.ok false, [], w⟩
      | .ok true => ⟨.ok true, dcaLog cfg now d price w, afterDca cfg now d price w⟩ := by
  simp only [checkDca, Program.bind_run]
  cases dcaVerdict cfg d price with
  | error e => rfl
  | ok b =>
    cases b with
    | false => rfl
    | true =>
      simp only [Program.lift_ok, Program.pure_run, if_true, Program.bind_run, Program.modify_run,
        chargeFee_run, Program.emit_run]
      rfl

/-! ### Opening -/

/-- The world after a deal is opened. -/
def afterOpen (dealId : String) (price : ℚ) (trigger : Option GroupTrigger) (w : World) : World :=
  charged (calcFee cfg cfg.dca.baseOrderSize)
    (World.onState (fun s => s.openDeal (newDeal cfg now dealId price trigger)) w)

/-- The events of that opening. -/
def openLog (dealId : String) (price : ℚ) (trigger : Option GroupTrigger) (w : World) :
    List EngineEvent :=
  [.ledger (.createDeal (newDeal cfg now dealId price trigger)),
    .fee (calcFee cfg cfg.dca.baseOrderSize) (feeCovered w (calcFee cfg cfg.dca.baseOrderSize)),
    .ledger (.saveOrder ⟨1, price, cfg.dca.baseOrderSize, now, .base⟩ dealId
      (calcFee cfg cfg.dca.baseOrderSize)),
    .opened dealId price]

theorem openDeal_run (inp : OpenInput) (price : ℚ) (trigger : Option GroupTrigger) (w : World) :
    openDeal cfg now inp price trigger w =
      match createWithRetry inp with
      | none => ⟨.ok (), [], w⟩
      | some dealId =>
        ⟨.ok (), openLog cfg now dealId price trigger w,
          afterOpen cfg now dealId price trigger w⟩ := by
  unfold openDeal
  cases createWithRetry inp with
  | none => rfl
  | some dealId =>
    simp only [Program.bind_run, Program.modify_run, chargeFee_run, Program.emit_run]
    rfl

/-! ### Sentinels -/

/-- The world after the handler closed or cancelled the deal. -/
def afterHandler (d : PaperDeal) (price : ℚ) (action : CloseAction) (w : World) : World :=
  { w with
    engine :=
      { w.engine with
        state := DealCloseHandler.actState cfg.dca.takerFee w.engine.state d price now action
        feesPaidBtc := w.engine.feesPaidBtc +
          (DealCloseHandler.result cfg.dca.takerFee d price now action).feeBtc }
    file := some (DealCloseHandler.persistState cfg.name
      (DealCloseHandler.actState cfg.dca.takerFee w.engine.state d price now action) w.file) }

/-- The events of that close or cancel. -/
def handlerLog (d : PaperDeal) (price : ℚ) (action : CloseAction) : List EngineEvent :=
  [.ledger (DealCloseHandler.ledgerCall d price now action), .handlerClosed d.id price action]

theorem consumeSentinel_run (price : ℚ) (s : Sentinel) (w : World) :
    consumeSentinel cfg now price s w =
      match s with
      | .unknown _ => ⟨.ok (), [], w⟩
      | .edit dealId settings =>
        match w.deal? dealId with
        | none => ⟨.ok (), [], w⟩
        | some d =>
          ⟨.ok (), [.edited dealId settings (tpChanged settings d)],
            World.onDeal dealId (applySettings settings) (applySettings_id settings) w⟩
      | .act dealId action =>
        match w.deal? dealId with
        | none => ⟨.ok (), [], w⟩
        | some d =>
          if price ≤ 0 then ⟨.ok (), [], w⟩
          else ⟨.ok (), handlerLog now d price action, afterHandler cfg now d price action w⟩ := by
  cases s with
  | unknown dealId => rfl
  | edit dealId settings =>
    simp only [consumeSentinel, whileOpen, Program.bind_run, Program.get_run]
    cases h : w.deal? dealId with
    | none => rfl
    | some d =>
      have hid : d.id = dealId := (KeyedDict.get?_mem _ _ _ h).2
      subst hid
      rfl
  | act dealId action =>
    simp only [consumeSentinel, whileOpen, Program.bind_run, Program.get_run]
    cases h : w.deal? dealId with
    | none => rfl
    | some d =>
      have hid : d.id = dealId := (KeyedDict.get?_mem _ _ _ h).2
      subst hid
      have hget : w.engine.state.openDeals.get? d.id = some d := h
      by_cases hp : price ≤ 0
      · simp [handleClose, Program.bind_run, DealCloseHandler.accept, hget, hp]
      · simp only [handleClose, Program.bind_run, Program.get_run, DealCloseHandler.accept, hget,
          if_neg hp, Program.emit_run, Program.modify_run]
        rfl

/-! ### Operations that leave the account alone -/

theorem drawdownStep_account (price : ℚ) (e : EngineState) :
    (drawdownStep cfg price e).state = e.state ∧
      (drawdownStep cfg price e).feesPaidBtc = e.feesPaidBtc := by
  unfold drawdownStep
  split
  · exact ⟨rfl, rfl⟩
  · dsimp only
    split <;> exact ⟨rfl, rfl⟩

theorem preTickHook_account (inp : TickInput) (w : World) :
    (preTickHook inp w).state.engine.state = w.engine.state ∧
      (preTickHook inp w).state.engine.feesPaidBtc = w.engine.feesPaidBtc := by
  simp only [preTickHook, Program.modify_run]
  split <;> exact ⟨rfl, rfl⟩

theorem postTickHook_account (w : World) :
    (postTickHook w).state.engine.state = w.engine.state ∧
      (postTickHook w).state.engine.feesPaidBtc = w.engine.feesPaidBtc := by
  simp only [postTickHook, Program.modify_run]
  split <;> exact ⟨rfl, rfl⟩

theorem postTick_running (w : World) :
    (postTickHook w).state.engine.running = w.engine.running ∧
      (postTickHook w).state.file = w.file := by
  simp only [postTickHook, Program.modify_run, and_true]
  split
  · rfl
  · rfl

theorem hooked_running (inp : TickInput) (w : World) :
    (hooked inp w).engine.running = w.engine.running := by
  simp only [hooked, preTickHook, Program.modify_run]
  split
  · rfl
  · rfl

/-! ### One operation -/

/-- What a verdict of the take profit closes the deal at, and as what. -/
def TpFill (price : ℚ) : TpVerdict → ℚ → ExitTrigger → Prop
  | .priceFill f, f', t => f' = f ∧ t = .priceTp
  | .indicatorFill info, f', t => f' = price ∧ t = .indicatorTp info.groupName info.indicators
  | _, _, _ => False

/-- What an operation logs and the world it leaves, with the decision it took. -/
inductive OpStep (w : World) : EngineOp → List EngineEvent → World → Prop
  -- the deal is not open, the decision is no, or it raises
  | idle (op : EngineOp) : OpStep w op [] w
  | setPrice (price : ℚ) :
    OpStep w (.setPrice price) [] { w with engine := { w.engine with currentPrice := price } }
  | trackWicks (price : ℚ) : OpStep w (.trackWicks price) [] (updateDealWickTrackers price w).state
  | drawdown (price : ℚ) :
    OpStep w (.drawdown price) [] { w with engine := drawdownStep cfg price w.engine }
  | write (now : Instant) (price : ℚ) (isOpen : Bool) :
    OpStep w (.write now price isOpen) []
      { w with file := some (writeStateDoc cfg w.engine price isOpen now) }
  | logError (e : PyError) : OpStep w (.logError e) [.tickError e] w
  | preTick (inp : TickInput) : OpStep w (.preTick inp) [] (preTickHook inp w).state
  | postTick : OpStep w .postTick [] (postTickHook w).state
  | opened (now : Instant) (inp : OpenInput) (price : ℚ) (t : Option GroupTrigger) (i : String)
    (hi : createWithRetry inp = some i) :
    OpStep w (.open now inp price t) (openLog cfg now i price t w) (afterOpen cfg now i price t w)
  | held (c : Candles) (now : Instant) (price : ℚ) (d : PaperDeal) (hd : w.deal? d.id = some d)
    (hv : tpVerdict cfg sig c d price = .ok .held) :
    OpStep w (.takeProfit c now price d.id) [.tpHeld d.id] w
  | tookProfit (c : Candles) (now : Instant) (price : ℚ) (d : PaperDeal) (v : TpVerdict) (f : ℚ)
    (t : ExitTrigger) (hd : w.deal? d.id = some d) (hv : tpVerdict cfg sig c d price = .ok v)
    (hf : TpFill price v f t) :
    OpStep w (.takeProfit c now price d.id) (closeLog cfg now d f .tp t w ++ [.tpClosed d.id f t])
      (afterClose cfg now d f .tp t w)
  -- without a hit the stop loss still moves the peak of a trailing stop
  | peaked (now : Instant) (price : ℚ) (d : PaperDeal) (s : SlType × ℚ)
    (hd : w.deal? d.id = some d) (hs : slSettings cfg d = some s) :
    OpStep w (.stopLoss now price d.id) [] (peaked cfg d price s.1 w)
  | stopped (now : Instant) (price : ℚ) (d : PaperDeal) (s : SlType × ℚ)
    (hd : w.deal? d.id = some d) (hs : slSettings cfg d = some s)
    (hv : slVerdict cfg d price s = .ok true) :
    OpStep w (.stopLoss now price d.id)
      (closeLog cfg now d price .sl (slTrigger s.1) (peaked cfg d price s.1 w) ++
        [.slClosed d.id price])
      (afterClose cfg now d price .sl (slTrigger s.1) (peaked cfg d price s.1 w))
  | filled (now : Instant) (price : ℚ) (d : PaperDeal) (hd : w.deal? d.id = some d)
    (hv : dcaVerdict cfg d price = .ok true) :
    OpStep w (.dca now price d.id) (dcaLog cfg now d price w) (afterDca cfg now d price w)
  | edited (now : Instant) (price : ℚ) (d : PaperDeal) (settings : EditSettings)
    (hd : w.deal? d.id = some d) :
    OpStep w (.sentinel now price (.edit d.id settings)) [.edited d.id settings (tpChanged settings d)]
      (World.onDeal d.id (applySettings settings) (applySettings_id settings) w)
  | acted (now : Instant) (price : ℚ) (d : PaperDeal) (action : CloseAction)
    (hd : w.deal? d.id = some d) (hp : 0 < price) :
    OpStep w (.sentinel now price (.act d.id action)) (handlerLog now d price action)
      (afterHandler cfg now d price action w)

theorem opStep_takeProfit (price : ℚ) (i : String) (w : World) :
    OpStep cfg sig w (.takeProfit c now price i)
      (EngineOp.program cfg sig (.takeProfit c now price i) w).log
      (EngineOp.program cfg sig (.takeProfit c now price i) w).state := by
  simp only [EngineOp.program, whileOpen_run]
  cases h : w.deal? i with
  | none => exact .idle _
  | some d =>
    obtain rfl : d.id = i := (KeyedDict.get?_mem _ _ _ h).2
    simp only [checkTp_run]
    cases hv : tpVerdict cfg sig c d price with
    | error e => exact .idle _
    | ok v =>
      cases v with
      | idle => exact .idle _
      | held => exact .held c now price d h hv
      | priceFill f => exact .tookProfit c now price d _ f .priceTp h hv ⟨rfl, rfl⟩
      | indicatorFill info => exact .tookProfit c now price d _ price _ h hv ⟨rfl, rfl⟩

theorem opStep_stopLoss (price : ℚ) (i : String) (w : World) :
    OpStep cfg sig w (.stopLoss now price i)
      (EngineOp.program cfg sig (.stopLoss now price i) w).log
      (EngineOp.program cfg sig (.stopLoss now price i) w).state := by
  simp only [EngineOp.program, whileOpen_run]
  cases h : w.deal? i with
  | none => exact .idle _
  | some d =>
    obtain rfl : d.id = i := (KeyedDict.get?_mem _ _ _ h).2
    simp only [checkSl_run]
    cases hs : slSettings cfg d with
    | none => exact .idle _
    | some s =>
      simp only
      cases hv : slVerdict cfg d price s with
      | error e => exact .peaked now price d s h hs
      | ok hit =>
        cases hit with
        | false => exact .peaked now price d s h hs
        | true => exact .stopped now price d s h hs hv

theorem opStep_dca (price : ℚ) (i : String) (w : World) :
    OpStep cfg sig w (.dca now price i)
      (EngineOp.program cfg sig (.dca now price i) w).log
      (EngineOp.program cfg sig (.dca now price i) w).state := by
  simp only [EngineOp.program, whileOpen_run]
  cases h : w.deal? i with
  | none => exact .idle _
  | some d =>
    obtain rfl : d.id = i := (KeyedDict.get?_mem _ _ _ h).2
    have hrun := Program.map_run (checkDca cfg now d price) (fun _ => ()) w
    simp only [hrun.1, hrun.2, checkDca_run]
    cases hv : dcaVerdict cfg d price with
    | error e => exact .idle _
    | ok b =>
      cases b with
      | false => exact .idle _
      | true => exact .filled now price d h hv

theorem opStep_sentinel (price : ℚ) (s : Sentinel) (w : World) :
    OpStep cfg sig w (.sentinel now price s)
      (EngineOp.program cfg sig (.sentinel now price s) w).log
      (EngineOp.program cfg sig (.sentinel now price s) w).state := by
  simp only [EngineOp.program, consumeSentinel_run]
  cases s with
  | unknown i => exact .idle _
  | edit i settings =>
    simp only
    cases h : w.deal? i with
    | none => exact .idle _
    | some d =>
      obtain rfl : d.id = i := (KeyedDict.get?_mem _ _ _ h).2
      exact .edited now price d settings h
  | act i action =>
    simp only
    cases h : w.deal? i with
    | none => exact .idle _
    | some d =>
      obtain rfl : d.id = i := (KeyedDict.get?_mem _ _ _ h).2
      simp only
      split
      · exact .idle _
      · rename_i hp
        exact .acted now price d action h (not_le.mp hp)

/-- Every operation makes one of the steps. -/
theorem opStep_program (op : EngineOp) (w : World) :
    OpStep cfg sig w op (op.program cfg sig w).log (op.program cfg sig w).state := by
  cases op with
  | setPrice price => exact .setPrice price
  | trackWicks price => exact .trackWicks price
  | drawdown price => exact .drawdown price
  | write now price isOpen => exact .write now price isOpen
  | logError e => exact .logError e
  | preTick inp => exact .preTick inp
  | postTick => exact .postTick
  | «open» now inp price t =>
    simp only [EngineOp.program, openDeal_run]
    cases hi : createWithRetry inp with
    | none => exact .idle _
    | some i => exact .opened now inp price t i hi
  | takeProfit c now price i => exact opStep_takeProfit cfg sig c now price i w
  | stopLoss now price i => exact opStep_stopLoss cfg sig now price i w
  | dca now price i => exact opStep_dca cfg sig now price i w
  | sentinel now price s => exact opStep_sentinel cfg sig now price s w

/-! ### The open deals after an operation -/

/-- What an operation that logs `l` may do to a deal that stays open. -/
inductive DealStep (op : EngineOp) (l : List EngineEvent) (d : PaperDeal) : PaperDeal → Prop
  | same : DealStep op l d d
  | peak (now : Instant) (price : ℚ) (h : op = .stopLoss now price d.id) :
    DealStep op l d { d with peakPrice := newPeak cfg d price }
  | order (now : Instant) (price : ℚ) (h : .dcaFilled d.id price ∈ l) :
    DealStep op l d { d with orders := d.orders ++ [dcaOrder cfg now d price] }
  | settings (s : EditSettings) (h : .edited d.id s (tpChanged s d) ∈ l) :
    DealStep op l d (applySettings s d)

theorem DealStep.id_eq (op : EngineOp) (l : List EngineEvent) (d d' : PaperDeal)
    (h : DealStep cfg op l d d') :
    d'.id = d.id := by
  cases h with
  | same => rfl
  | peak now price h => rfl
  | order now price h => rfl
  | settings s h => rfl

/-- A deal open afterwards was open before and made one step, or was opened. -/
def Continues (op : EngineOp) (l : List EngineEvent) (w : World) (d' : PaperDeal) : Prop :=
  (∃ d ∈ w.engine.state.openDeals.items, DealStep cfg op l d d') ∨
    ∃ now price trigger, d' = newDeal cfg now d'.id price trigger ∧ .opened d'.id price ∈ l

theorem continues_same (op : EngineOp) (l : List EngineEvent) (w v : World)
    (h : v.engine.state.openDeals.items ⊆ w.engine.state.openDeals.items) :
    ∀ d' ∈ v.engine.state.openDeals.items, Continues cfg op l w d' :=
  fun d' hd' => Or.inl ⟨d', h hd', .same⟩

theorem continues_onDeal (op : EngineOp) (l : List EngineEvent) (w : World) (d : PaperDeal)
    (f : PaperDeal → PaperDeal) (hf : ∀ d, (f d).id = d.id) (hd : w.deal? d.id = some d)
    (hstep : DealStep cfg op l d (f d)) :
    ∀ d' ∈ (World.onDeal d.id f hf w).engine.state.openDeals.items, Continues cfg op l w d' := by
  intro d' hd'
  simp only [World.onDeal, World.onState_state, PaperState.updateDeal, KeyedDict.modify,
    KeyedDict.mapValues_items, List.mem_map] at hd'
  obtain ⟨e, he, hed⟩ := hd'
  split at hed
  · rename_i hid
    have hget := KeyedDict.get?_of_mem w.engine.state.openDeals e he
    rw [hid] at hget
    have hde : d = e := Option.some.inj (hd.symm.trans hget)
    subst hde
    subst hed
    exact Or.inl ⟨d, he, hstep⟩
  · subst hed
    exact Or.inl ⟨e, he, .same⟩

/-- The deals still open once a deal is booked as closed. -/
theorem booked_openDeals (d : PaperDeal) (f : ℚ) (r : CloseReason) (t : ExitTrigger) (w : World) :
    (booked now d f r t w).engine.state.openDeals = w.engine.state.openDeals.pop d.id := by
  simp only [booked, World.onDeal, World.onState_state, PaperState.closeDeal_openDeals,
    PaperState.updateDeal, KeyedDict.pop_modify_self]

/-- A deal is booked as closed. -/
theorem booked_eq (d e : PaperDeal) (f : ℚ) (r : CloseReason) (t : ExitTrigger) (w : World)
    (h : w.deal? d.id = some e) :
    booked now d f r t w =
      World.onState (fun s =>
        ⟨s.balanceBtc + (e.calculatePnl f).1, s.initialBalanceBtc, s.openDeals.pop d.id,
          s.closedDeals ++ [{ e with exitTrigger := some t }.closed f r now]⟩) w := by
  have hget : (World.setExitTrigger d.id t w).engine.state.openDeals.get? d.id =
      some { e with exitTrigger := some t } := by
    have hopen : w.engine.state.openDeals.get? d.id = some e := h
    show (w.engine.state.openDeals.modify d.id (fun e => { e with exitTrigger := some t })
      (fun _ => rfl)).get? d.id = _
    rw [KeyedDict.get?_modify_self, hopen]
    rfl
  simp only [booked, World.onState]
  rw [PaperState.closeDeal_some _ _ _ _ _ _ hget]
  simp only [World.setExitTrigger, World.onDeal, World.onState, PaperState.updateDeal,
    KeyedDict.pop_modify_self]
  rfl

theorem booked_closedDeals (d e : PaperDeal) (f : ℚ) (r : CloseReason) (t : ExitTrigger) (w : World)
    (h : w.deal? d.id = some e) :
    (booked now d f r t w).engine.state.closedDeals =
      w.engine.state.closedDeals ++ [({ e with exitTrigger := some t } : PaperDeal).closed f r now] := by
  rw [booked_eq now d e f r t w h]
  rfl

theorem afterClose_subset (d : PaperDeal) (f : ℚ) (r : CloseReason) (t : ExitTrigger) (w : World) :
    (afterClose cfg now d f r t w).engine.state.openDeals.items
      ⊆ w.engine.state.openDeals.items := by
  have h : (afterClose cfg now d f r t w).engine.state.openDeals =
      (booked now d f r t w).engine.state.openDeals := rfl
  rw [h, booked_openDeals]
  exact List.filter_subset_self _

theorem afterHandler_openDeals (d : PaperDeal) (price : ℚ) (a : CloseAction) (w : World)
    (h : w.deal? d.id = some d) :
    (afterHandler cfg now d price a w).engine.state.openDeals
      = w.engine.state.openDeals.pop d.id := by
  simp only [afterHandler]
  rw [DealCloseHandler.actState_eq _ _ d price now a h]

theorem continues_open (op : EngineOp) (l : List EngineEvent) (w : World) (dealId : String) (price : ℚ)
    (t : Option GroupTrigger) (h : .opened dealId price ∈ l) :
    ∀ d' ∈ (afterOpen cfg now dealId price t w).engine.state.openDeals.items,
      Continues cfg op l w d' := by
  intro d' hd'
  have hself : d' ∈ (w.engine.state.openDeals.set (newDeal cfg now dealId price t)).items := hd'
  have hget := KeyedDict.get?_of_mem _ d' hself
  by_cases hid : d'.id = dealId
  · subst hid
    have hnew := KeyedDict.get?_set_self w.engine.state.openDeals
      (newDeal cfg now d'.id price t)
    exact Or.inr ⟨now, price, t, Option.some.inj (hget.symm.trans hnew), h⟩
  · rw [KeyedDict.get?_set_of_ne _ _ _ hid] at hget
    exact Or.inl ⟨d', (KeyedDict.get?_mem _ _ _ hget).1, .same⟩

theorem continues_peaked (price : ℚ) (d : PaperDeal) (t : SlType) (l : List EngineEvent) (w : World)
    (hd : w.deal? d.id = some d) :
    ∀ d' ∈ (peaked cfg d price t w).engine.state.openDeals.items,
      Continues cfg (.stopLoss now price d.id) l w d' := by
  unfold peaked
  split
  · exact continues_onDeal cfg _ l w d _ _ hd (.peak now price rfl)
  · exact continues_same cfg _ l w w (fun _ h => h)

/-- Every deal open after an operation other than tracking goes back to a deal
open before it, or was opened by it. -/
theorem continues_op (op : EngineOp) (hop : ∀ price, op ≠ .trackWicks price) (w : World) :
    ∀ d' ∈ (op.program cfg sig w).state.engine.state.openDeals.items,
      Continues cfg op (op.program cfg sig w).log w d' := by
  have hkeep : ∀ v : World, v.engine.state.openDeals = w.engine.state.openDeals →
      ∀ l, ∀ d' ∈ v.engine.state.openDeals.items, Continues cfg op l w d' := by
    intro v hv l
    refine continues_same cfg _ l w v ?_
    rw [hv]
    exact fun _ h => h
  have hstep := opStep_program cfg sig op w
  generalize (op.program cfg sig w).log = l, (op.program cfg sig w).state = v at hstep ⊢
  cases hstep with
  | idle => exact hkeep _ rfl _
  | trackWicks price => exact absurd rfl (hop price)
  | setPrice price => exact hkeep _ rfl _
  | write now price isOpen => exact hkeep _ rfl _
  | logError e => exact hkeep _ rfl _
  | drawdown price =>
    exact hkeep _ (congrArg PaperState.openDeals (drawdownStep_account cfg price w.engine).1) _
  | preTick inp =>
    exact hkeep _ (congrArg PaperState.openDeals (preTickHook_account inp w).1) _
  | postTick => exact hkeep _ (congrArg PaperState.openDeals (postTickHook_account w).1) _
  | opened now inp price t i hi =>
    exact continues_open cfg now _ _ w i price t (by simp [openLog])
  | held c now price d hd hv => exact hkeep _ rfl _
  | tookProfit c now price d v f t hd hv hf =>
    exact continues_same cfg _ _ w _ (afterClose_subset cfg now d f _ _ w)
  | peaked now price d s hd hs => exact continues_peaked cfg now price d s.1 _ w hd
  | stopped now price d s hd hs hv =>
    intro d' hd'
    exact continues_peaked cfg now price d s.1 _ w hd d' (afterClose_subset cfg now d price _ _ _ hd')
  | filled now price d hd hv =>
    have hstep : DealStep cfg (.dca now price d.id) (dcaLog cfg now d price w) d
        { d with orders := d.orders ++ [dcaOrder cfg now d price] } :=
      .order now price (by simp [dcaLog])
    exact continues_onDeal cfg _ _ w d
      (fun e => { e with orders := e.orders ++ [dcaOrder cfg now d price] }) (fun _ => rfl) hd hstep
  | edited now price d settings hd =>
    exact continues_onDeal cfg _ _ w d _ _ hd (.settings settings (by simp))
  | acted now price d action hd hp =>
    refine continues_same cfg _ _ w _ ?_
    simp only [afterHandler_openDeals cfg now d price action w hd]
    exact List.filter_subset_self _

/-! ### The log of an operation -/

/-- The operation that logs an event. -/
def LoggedBy (op : EngineOp) : EngineEvent → Prop
  | .ledger _ => True
  | .fee _ _ => True
  | .opened _ price => ∃ now inp t, op = .open now inp price t
  | .dcaFilled dealId price => ∃ now, op = .dca now price dealId
  | .tpHeld dealId => ∃ c now price, op = .takeProfit c now price dealId
  | .tpClosed dealId _ _ => ∃ c now price, op = .takeProfit c now price dealId
  | .slClosed dealId _ => ∃ now price, op = .stopLoss now price dealId
  | .handlerClosed dealId price a => ∃ now, op = .sentinel now price (.act dealId a)
  | .edited dealId s _ => ∃ now price, op = .sentinel now price (.edit dealId s)
  | .tickError e => op = .logError e

theorem loggedBy_op (op : EngineOp) (w : World) :
    ∀ e ∈ (op.program cfg sig w).log, LoggedBy op e := by
  have hnil : ∀ e ∈ ([] : List EngineEvent), LoggedBy op e := fun e he => absurd he List.not_mem_nil
  have hstep := opStep_program cfg sig op w
  generalize (op.program cfg sig w).log = l, (op.program cfg sig w).state = v at hstep ⊢
  cases hstep with
  | idle => exact hnil
  | setPrice price => exact hnil
  | trackWicks price => exact hnil
  | drawdown price => exact hnil
  | write now price isOpen => exact hnil
  | preTick inp => exact hnil
  | postTick => exact hnil
  | logError e => simp [LoggedBy]
  | opened now inp price t i hi => simp [openLog, LoggedBy]
  | held c now price d hd hv => simp [LoggedBy]
  | tookProfit c now price d v f t hd hv hf => simp [closeLog, LoggedBy]
  | peaked now price d s hd hs => exact hnil
  | stopped now price d s hd hs hv => simp [closeLog, LoggedBy]
  | filled now price d hd hv => simp [dcaLog, LoggedBy]
  | edited now price d settings hd => simp [LoggedBy]
  | acted now price d action hd hp => simp [handlerLog, LoggedBy]

/-! ### The history after an operation -/

/-- An open deal as it goes into the history. -/
def ClosedFrom (d e : PaperDeal) : Prop :=
  ∃ trigger peakPrice price reason now,
    e = ({ d with exitTrigger := some trigger, peakPrice := peakPrice } : PaperDeal).closed
      price reason now

/-- What an operation may do to the history: nothing, or one open deal goes into it. -/
inductive HistoryStep (w w' : World) : Prop
  | same (h : w'.engine.state.closedDeals = w.engine.state.closedDeals)
  | closed (d e : PaperDeal) (hd : w.deal? d.id = some d) (he : ClosedFrom d e)
    (hopen : w'.engine.state.openDeals = w.engine.state.openDeals.pop d.id)
    (hclosed : w'.engine.state.closedDeals = w.engine.state.closedDeals ++ [e])

theorem peaked_closedDeals (d : PaperDeal) (price : ℚ) (t : SlType) (w : World) :
    (peaked cfg d price t w).engine.state.closedDeals = w.engine.state.closedDeals := by
  unfold peaked
  split <;> rfl

theorem peaked_pop (d : PaperDeal) (price : ℚ) (t : SlType) (w : World) :
    (peaked cfg d price t w).engine.state.openDeals.pop d.id =
      w.engine.state.openDeals.pop d.id := by
  unfold peaked
  split
  · exact KeyedDict.pop_modify_self w.engine.state.openDeals d.id
      (fun e => { e with peakPrice := newPeak cfg d price }) fun _ => rfl
  · rfl

/-- The deal under its id once the trailing peak is updated. -/
theorem peaked_self (d : PaperDeal) (price : ℚ) (t : SlType) (w : World)
    (h : w.deal? d.id = some d) :
    ∃ p, (peaked cfg d price t w).deal? d.id = some { d with peakPrice := p } := by
  unfold peaked
  split
  · refine ⟨newPeak cfg d price, ?_⟩
    have hw : w.engine.state.openDeals.get? d.id = some d := h
    simp only [World.onDeal, World.deal?, World.onState_state, PaperState.updateDeal,
      KeyedDict.get?_modify_self, hw, Option.map_some]
  · exact ⟨d.peakPrice, h⟩

/-- A close by the take profit or the stop loss, whose checks may have moved the peak. -/
theorem historyStep_afterClose (d : PaperDeal) (peakPrice f : ℚ) (r : CloseReason)
    (t : ExitTrigger) (w v : World) (hd : w.deal? d.id = some d)
    (hv : v.deal? d.id = some { d with peakPrice := peakPrice })
    (hopen : v.engine.state.openDeals.pop d.id = w.engine.state.openDeals.pop d.id)
    (hclosed : v.engine.state.closedDeals = w.engine.state.closedDeals) :
    HistoryStep w (afterClose cfg now d f r t v) := by
  have hhistory := booked_closedDeals now d { d with peakPrice := peakPrice } f r t v hv
  rw [hclosed] at hhistory
  refine .closed d _ hd ⟨t, peakPrice, f, r, now, rfl⟩ ?_ hhistory
  rw [← hopen]
  exact booked_openDeals now d f r t v

/-- Every operation does one of the two. -/
theorem historyStep_op (op : EngineOp) (w : World) :
    HistoryStep w (op.program cfg sig w).state := by
  have hstep := opStep_program cfg sig op w
  generalize (op.program cfg sig w).log = l, (op.program cfg sig w).state = v at hstep ⊢
  cases hstep with
  | idle => exact .same rfl
  | trackWicks price => exact .same rfl
  | setPrice price => exact .same rfl
  | write now price isOpen => exact .same rfl
  | logError e => exact .same rfl
  | drawdown price =>
    exact .same (congrArg PaperState.closedDeals (drawdownStep_account cfg price w.engine).1)
  | preTick inp => exact .same (congrArg PaperState.closedDeals (preTickHook_account inp w).1)
  | postTick => exact .same (congrArg PaperState.closedDeals (postTickHook_account w).1)
  | opened now inp price t i hi => exact .same rfl
  | held c now price d hd hv => exact .same rfl
  | tookProfit c now price d v f t hd hv hf =>
    exact historyStep_afterClose cfg now d d.peakPrice f _ _ w w hd hd rfl rfl
  | peaked now price d s hd hs => exact .same (peaked_closedDeals cfg d price s.1 w)
  | stopped now price d s hd hs hv =>
    obtain ⟨p, hp⟩ := peaked_self cfg d price s.1 w hd
    exact historyStep_afterClose cfg now d p price _ _ w _ hd hp (peaked_pop cfg d price s.1 w)
      (peaked_closedDeals cfg d price s.1 w)
  | filled now price d hd hv => exact .same rfl
  | edited now price d settings hd => exact .same rfl
  | acted now price d action hd hp =>
    have hself : w.engine.state.openDeals.get? d.id = some d := hd
    have hstate := DealCloseHandler.actState_eq cfg.dca.takerFee w.engine.state d price now action hself
    have hfrom : ClosedFrom d (DealCloseHandler.closedDeal d price now action) := by
      cases action with
      | close => exact ⟨.manual, d.peakPrice, price, .manual, now, rfl⟩
      | cancel => exact ⟨.cancelled, d.peakPrice, price, .cancelled, now, rfl⟩
    refine .closed d _ hself hfrom ?_ ?_
    · simp only [afterHandler, hstate]
    · simp only [afterHandler, hstate]

/-- The history grows by closed deals. -/
def HistoryGrows (w w' : World) : Prop :=
  ∃ ds, w'.engine.state.closedDeals = w.engine.state.closedDeals ++ ds ∧ ∀ d ∈ ds, d.isOpen = false

theorem historyGrows_same (w w' : World)
    (h : w'.engine.state.closedDeals = w.engine.state.closedDeals) : HistoryGrows w w' :=
  ⟨[], by rw [h, List.append_nil], by simp⟩

theorem historyGrows_traceRel :
    Program.TraceRel (fun (w : World) (_ : List EngineEvent) w' => HistoryGrows w w') where
  nil w := historyGrows_same w w rfl
  append := by
    rintro w _ v _ u ⟨ds, hds, hclosed⟩ ⟨es, hes, hclosed'⟩
    refine ⟨ds ++ es, by rw [hes, hds, List.append_assoc], fun d hd => ?_⟩
    rcases List.mem_append.mp hd with hd | hd
    · exact hclosed d hd
    · exact hclosed' d hd

theorem historyGrows_op (op : EngineOp) :
    Program.Respects (fun (w : World) (_ : List EngineEvent) w' => HistoryGrows w w')
      (op.program cfg sig) := by
  intro w
  cases historyStep_op cfg sig op w with
  | same h => exact historyGrows_same _ _ h
  | closed d e hd he hopen hclosed =>
    obtain ⟨trigger, peak, price, reason, now, rfl⟩ := he
    exact ⟨_, hclosed, by simp [PaperDeal.closed]⟩

/-! ### The flags of the engine -/

/-- Only the account, the fee counter and the last price differ. -/
def AccountOnly (w w' : World) : Prop :=
  ∃ s fees price, w'.engine =
    { w.engine with state := s, feesPaidBtc := fees, currentPrice := price }

theorem accountOnly_same (w w' : World) (h : w'.engine = w.engine) : AccountOnly w w' :=
  ⟨w.engine.state, w.engine.feesPaidBtc, w.engine.currentPrice, h⟩

theorem accountOnly_trans (w v u : World) (h : AccountOnly w v) (h' : AccountOnly v u) :
    AccountOnly w u := by
  obtain ⟨s, f, p, hv⟩ := h
  obtain ⟨s', f', p', hu⟩ := h'
  exact ⟨s', f', p', by rw [hu, hv]⟩

theorem accountOnly_traceRel :
    Program.TraceRel (fun (w : World) (_ : List EngineEvent) w' => AccountOnly w w') where
  nil w := accountOnly_same w w rfl
  append w _ v _ u h h' := accountOnly_trans w v u h h'

theorem accountOnly_peaked (d : PaperDeal) (price : ℚ) (t : SlType) (w : World) :
    AccountOnly w (peaked cfg d price t w) := by
  unfold peaked
  split
  · exact ⟨_, _, _, rfl⟩
  · exact accountOnly_same w w rfl

/-- The operations between the hooks other than the drawdown guard leave the
flags of the engine alone. -/
theorem accountOnly_op (op : EngineOp) (hdrawdown : ∀ price, op ≠ .drawdown price)
    (hpre : ∀ inp, op ≠ .preTick inp) (hpost : op ≠ .postTick) (w : World) :
    AccountOnly w (op.program cfg sig w).state := by
  have hstep := opStep_program cfg sig op w
  generalize (op.program cfg sig w).log = l, (op.program cfg sig w).state = v at hstep ⊢
  cases hstep with
  | drawdown price => exact absurd rfl (hdrawdown price)
  | preTick inp => exact absurd rfl (hpre inp)
  | postTick => exact absurd rfl hpost
  | idle => exact accountOnly_same _ _ rfl
  | trackWicks price => exact ⟨_, _, _, rfl⟩
  | setPrice price => exact ⟨_, _, _, rfl⟩
  | logError e => exact accountOnly_same _ _ rfl
  | write now price isOpen => exact accountOnly_same _ _ rfl
  | opened now inp price t i hi => exact ⟨_, _, _, rfl⟩
  | held c now price d hd hv => exact accountOnly_same _ _ rfl
  | tookProfit c now price d v f t hd hv hf => exact ⟨_, _, _, rfl⟩
  | peaked now price d s hd hs => exact accountOnly_peaked cfg d price s.1 w
  | stopped now price d s hd hs hv =>
    exact accountOnly_trans _ _ _ (accountOnly_peaked cfg d price s.1 w) ⟨_, _, _, rfl⟩
  | filled now price d hd hv => exact ⟨_, _, _, rfl⟩
  | edited now price d settings hd => exact ⟨_, _, _, rfl⟩
  | acted now price d action hd hp => exact ⟨_, _, _, rfl⟩

/-! ### The state file -/

/-- Whether an operation writes the state file. -/
def savesFile (w : World) : EngineOp → Bool
  | .write .. => true
  | .sentinel _ price (.act dealId _) => (w.deal? dealId).isSome && decide (0 < price)
  | _ => false

/-- The other operations leave the file as it is. -/
theorem file_kept (op : EngineOp) (w : World) (h : savesFile w op = false) :
    (op.program cfg sig w).state.file = w.file := by
  have hpeak : ∀ d price t, (peaked cfg d price t w).file = w.file := by
    intro d price t
    unfold peaked
    split <;> rfl
  have hstep := opStep_program cfg sig op w
  generalize (op.program cfg sig w).log = l, (op.program cfg sig w).state = v at hstep ⊢
  cases hstep with
  | write now price isOpen => cases h
  | acted now price d action hd hp => simp [savesFile, hd, hp] at h
  | peaked now price d s hd hs => exact hpeak d price s.1
  | stopped now price d s hd hs hv => exact hpeak d price s.1
  | _ => rfl

/-- An accepted close merges the account as it then is into the file. -/
theorem file_act (now : Instant) (price : ℚ) (i : String) (action : CloseAction) (w : World)
    (h : savesFile w (.sentinel now price (.act i action)) = true) :
    (EngineOp.program cfg sig (.sentinel now price (.act i action)) w).state.file =
      some (DealCloseHandler.persistState cfg.name
        (EngineOp.program cfg sig (.sentinel now price (.act i action)) w).state.engine.state
        w.file) := by
  cases hd : w.deal? i with
  | none => simp [savesFile, hd] at h
  | some d =>
    have hp : ¬ price ≤ 0 := by simpa [savesFile, hd] using h
    simp only [EngineOp.program, consumeSentinel_run, hd, if_neg hp]
    rfl

/-- Only a state write and an accepted close write the file, the latter with the
account as it then is in memory. -/
theorem file_op (op : EngineOp) (hwrite : ∀ now price isOpen, op ≠ .write now price isOpen)
    (w : World) :
    (op.program cfg sig w).state.file = w.file ∨
      (op.program cfg sig w).state.file =
        some (DealCloseHandler.persistState cfg.name (op.program cfg sig w).state.engine.state
          w.file) := by
  cases hs : savesFile w op with
  | false => exact Or.inl (file_kept cfg sig op w hs)
  | true =>
    cases op with
    | write now price isOpen => exact absurd rfl (hwrite now price isOpen)
    | sentinel now price s =>
      cases s with
      | act i action => exact Or.inr (file_act cfg sig now price i action w hs)
      | unknown i => cases hs
      | edit i settings => cases hs
    | _ => cases hs

/-! ### Operations on one deal leave the others alone -/

theorem deal?_onDeal_of_ne (i j : String) (f : PaperDeal → PaperDeal) (hf : ∀ d, (f d).id = d.id)
    (w : World) (h : j ≠ i) : (World.onDeal i f hf w).deal? j = w.deal? j :=
  KeyedDict.get?_modify_of_ne _ i j f hf h

theorem deal?_afterClose_of_ne (d : PaperDeal) (f : ℚ) (r : CloseReason) (t : ExitTrigger)
    (w : World) (j : String) (h : j ≠ d.id) :
    (afterClose cfg now d f r t w).deal? j = w.deal? j := by
  have hopen : (afterClose cfg now d f r t w).engine.state.openDeals
      = w.engine.state.openDeals.pop d.id := booked_openDeals now d f r t w
  simp only [World.deal?, hopen]
  exact KeyedDict.get?_pop_of_ne _ _ _ h

theorem takeProfit_other (c : Candles) (price : ℚ) (i j : String) (h : j ≠ i) (w : World) :
    (EngineOp.program cfg sig (.takeProfit c now price i) w).state.deal? j = w.deal? j := by
  have hstep := opStep_takeProfit cfg sig c now price i w
  generalize (EngineOp.program cfg sig (.takeProfit c now price i) w).log = l,
    (EngineOp.program cfg sig (.takeProfit c now price i) w).state = v at hstep ⊢
  cases hstep with
  | idle => rfl
  | held c now price d hd hv => rfl
  | tookProfit c now price d v f t hd hv hf => exact deal?_afterClose_of_ne cfg now d f _ _ w j h

theorem tail_other (inp : TickInput) (price : ℚ) (i j : String) (h : j ≠ i) (op : EngineOp)
    (hop : EngineOp.TailOf inp price i op) (w : World) :
    (op.program cfg sig w).state.deal? j = w.deal? j := by
  have hpeak : ∀ d t, j ≠ d.id → (peaked cfg d price t w).deal? j = w.deal? j := by
    intro d t hid
    unfold peaked
    split
    · exact deal?_onDeal_of_ne _ _ _ _ w hid
    · rfl
  have hstep := opStep_program cfg sig op w
  generalize (op.program cfg sig w).log = l, (op.program cfg sig w).state = v at hstep ⊢
  cases hop with
  | stopLoss =>
    cases hstep with
    | idle => rfl
    | peaked now price d s hd hs => exact hpeak d s.1 h
    | stopped now price d s hd hs hv =>
      exact (deal?_afterClose_of_ne cfg inp.now d price _ _ _ j h).trans (hpeak d s.1 h)
  | dca =>
    cases hstep with
    | idle => rfl
    | filled now price d hd hv =>
      exact deal?_onDeal_of_ne d.id j
        (fun e => { e with orders := e.orders ++ [dcaOrder cfg inp.now d price] })
        (fun _ => rfl) w h

/-- One round of the monitoring loop is about its own deal. -/
theorem monitorDeal_other (inp : TickInput) (price : ℚ) (n : ℕ) (i j : String) (h : j ≠ i)
    (w : World) :
    (monitorDeal cfg sig inp.candles inp.now price n i w).state.deal? j = w.deal? j := by
  have hframe := Program.traceRel_frame (ω := EngineEvent) fun w : World => w.deal? j
  have hresp : Program.Respects (fun (w : World) (_ : List EngineEvent) w' =>
      w'.deal? j = w.deal? j) (monitorDeal cfg sig inp.candles inp.now price n i) := by
    rw [monitorDeal_eq]
    refine Program.respects_bind hframe _ _
      (takeProfit_other cfg sig inp.now inp.candles price i j h) fun _ v => ?_
    exact Program.runsAs_rel _ _ _ hframe (fun op hop v => tail_other cfg sig inp price i j h op hop v)
      _ _ _ (monitorTail_runs cfg sig inp price n i v)
  exact hresp w

/-! ### What each part of a tick logs -/

/-- A relation that composes holds of the monitoring loop when it holds of the
three checks. -/
theorem monitorDeals_respects (R : World → List EngineEvent → World → Prop)
    (hR : Program.TraceRel R) (inp : TickInput) (price : ℚ)
    (htp : ∀ i, Program.Respects R
      (EngineOp.program cfg sig (.takeProfit inp.candles inp.now price i)))
    (htail : ∀ i op, EngineOp.TailOf inp price i op → Program.Respects R (op.program cfg sig))
    (ids : List String) (n : ℕ) :
    Program.Respects R (monitorDeals cfg sig inp.candles inp.now price n ids) := by
  induction ids generalizing n with
  | nil => exact Program.respects_pure hR ()
  | cons i ids ih =>
    have hround : Program.Respects R (monitorDeal cfg sig inp.candles inp.now price n i) := by
      rw [monitorDeal_eq]
      refine Program.respects_bind hR _ _ (htp i) fun _ w => ?_
      exact Program.runsAs_rel _ _ R hR (htail i) _ _ _ (monitorTail_runs cfg sig inp price n i w)
    exact Program.respects_bind hR _ _ hround fun m => ih m

/-- The take profit, stop loss and DCA events. -/
def isManagement : EngineEvent → Bool
  | .tpHeld _ => true
  | .tpClosed _ _ _ => true
  | .slClosed _ _ => true
  | .dcaFilled _ _ => true
  | _ => false

/-- The opening of a deal. -/
def isEntry : EngineEvent → Bool
  | .opened _ _ => true
  | _ => false

/-- Only the opening of a deal logs an entry. -/
theorem noEntry_op (op : EngineOp) (hop : ∀ now inp price t, op ≠ .open now inp price t) (w : World) :
    ∀ e ∈ (op.program cfg sig w).log, isEntry e = false := by
  intro e he
  have hlogged := loggedBy_op cfg sig op w e he
  cases e with
  | opened i price =>
    obtain ⟨now, inp, t, h⟩ := hlogged
    exact absurd h (hop now inp price t)
  | _ => rfl

/-- After the monitoring loop nothing is done about the deals by price. -/
theorem afterMonitoring_noManagement (inp : TickInput) (price : ℚ) (w : World) :
    ∀ e ∈ (afterMonitoring cfg sig inp price w).log, isManagement e = false := by
  have hR := Program.traceRel_forall (σ := World) fun e => isManagement e = false
  refine Program.runsAs_rel _ _ _ hR ?_ _ _ _ (afterMonitoring_runs cfg sig inp price w)
  intro op hop v e he
  have hlogged := loggedBy_op cfg sig op v e he
  cases e with
  | tpHeld i =>
    obtain ⟨c, now, p, rfl⟩ := hlogged
    cases hop
  | tpClosed i f t =>
    obtain ⟨c, now, p, rfl⟩ := hlogged
    cases hop
  | slClosed i f =>
    obtain ⟨now, p, rfl⟩ := hlogged
    cases hop
  | dcaFilled i p =>
    obtain ⟨now, rfl⟩ := hlogged
    cases hop
  | _ => rfl

/-- The monitoring loop opens no deal. -/
theorem monitorDeals_noEntry (inp : TickInput) (price : ℚ) (ids : List String) (n : ℕ) (w : World) :
    ∀ e ∈ (monitorDeals cfg sig inp.candles inp.now price n ids w).log, isEntry e = false := by
  have hR := Program.traceRel_forall (σ := World) fun e => isEntry e = false
  refine monitorDeals_respects cfg sig _ hR inp price ?_ ?_ ids n w
  · intro i
    refine noEntry_op cfg sig _ fun now inp' p t h => ?_
    cases h
  · intro i op hop
    refine noEntry_op cfg sig op fun now inp' p t h => ?_
    subst h
    cases hop

/-! ### After the monitoring loop a tick cannot raise -/

theorem openDeal_returns (inp : OpenInput) (price : ℚ) (trigger : Option GroupTrigger) :
    Program.Returns (openDeal cfg now inp price trigger) := by
  intro w
  rw [openDeal_run]
  cases createWithRetry inp with
  | none => exact ⟨(), rfl⟩
  | some dealId => exact ⟨(), rfl⟩

theorem consumeSentinel_returns (price : ℚ) (s : Sentinel) :
    Program.Returns (consumeSentinel cfg now price s) := by
  intro w
  rw [consumeSentinel_run]
  cases s with
  | unknown i => exact ⟨(), rfl⟩
  | edit i settings =>
    dsimp only
    cases w.deal? i with
    | none => exact ⟨(), rfl⟩
    | some d => exact ⟨(), rfl⟩
  | act i action =>
    dsimp only
    cases w.deal? i with
    | none => exact ⟨(), rfl⟩
    | some d =>
      dsimp only
      split
      · exact ⟨(), rfl⟩
      · exact ⟨(), rfl⟩

theorem entryStep_returns (inp : TickInput) (price : ℚ) :
    Program.Returns (entryStep cfg sig inp price) := by
  refine Program.returns_get_bind _ fun w => Program.returns_ite _ _ _ ?_ (Program.returns_pure ())
  refine Program.returns_get_bind _ fun v => Program.returns_ite _ _ _ ?_ (Program.returns_pure ())
  cases IndicatorEngine.checkEntrySignal cfg sig inp.candles with
  | mk triggered trigger =>
    cases triggered with
    | true => exact openDeal_returns cfg inp.now inp.entryOpen price trigger
    | false => exact Program.returns_pure ()

theorem checkManualTrigger_returns (inp : TickInput) (price : ℚ) :
    Program.Returns (checkManualTrigger cfg inp.now inp price) := by
  refine Program.returns_get_bind _ fun w => Program.returns_ite _ _ _ ?_ (Program.returns_pure ())
  exact openDeal_returns cfg inp.now inp.manualOpen price none

theorem checkDealSentinels_returns (inp : TickInput) (price : ℚ) :
    Program.Returns (checkDealSentinels cfg inp.now inp price) :=
  Program.returns_forEach _ _ fun s => consumeSentinel_returns cfg inp.now price s

theorem afterMonitoring_returns (inp : TickInput) (price : ℚ) :
    Program.Returns (afterMonitoring cfg sig inp price) := by
  refine Program.returns_bind _ _ (Program.returns_modify _) fun _ => ?_
  refine Program.returns_bind _ _ (checkManualTrigger_returns cfg inp price) fun _ => ?_
  refine Program.returns_bind _ _ (checkDealSentinels_returns cfg inp price) fun _ => ?_
  refine Program.returns_bind _ _ (entryStep_returns cfg sig inp price) fun _ => ?_
  exact Program.returns_modify _

/-- The last thing a tick does after its monitoring loop is to write the file. -/
theorem afterMonitoring_ends (inp : TickInput) (price : ℚ) (w : World) :
    ∃ v, (afterMonitoring cfg sig inp price w).state =
      (writeState cfg inp.now price inp.isOpen v).state := by
  obtain ⟨_, w1, hguard⟩ := Program.bind_ends (updateDrawdownGuard cfg price) _
    (Program.returns_modify _) w
  obtain ⟨_, w2, hmanual⟩ := Program.bind_ends _ _ (checkManualTrigger_returns cfg inp price) w1
  obtain ⟨_, w3, hsentinels⟩ := Program.bind_ends _ _ (checkDealSentinels_returns cfg inp price) w2
  obtain ⟨_, w4, hentry⟩ := Program.bind_ends _ _ (entryStep_returns cfg sig inp price) w3
  exact ⟨w4, hguard.trans (hmanual.trans (hsentinels.trans hentry))⟩

end TradingEngine

end Reverto
