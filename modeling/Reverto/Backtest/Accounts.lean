import Mathlib.Tactic
import Reverto.Backtest.FormingCandles

/-!
# The account of a backtest (backtest/backtest_engine.py)

`_open_deal`, `_check_dca` and `_close_deal` book on the balance and in the fee
counter alike. A run reaches its end unless it monitors a deal whose take-profit
target is 100 %, where `compute_tp_target_price` divides by zero.
-/

namespace Reverto

namespace BacktestEngine

variable (cfg : BotConfig) (sig : Signals) (env : BacktestEnv) (data : CandlesPerTf)

/-- The fee of the order an event fills. -/
def entryFee : BacktestEvent → ℚ
  | .opened _ size _ => calcFee cfg size
  | .dcaFilled _ size => calcFee cfg size
  | .closed .. => 0

/-- The entry fees of the orders that were filled. -/
def entryFees (log : List BacktestEvent) : ℚ := (log.map (entryFee cfg)).sum

/-- The exit fees of deals on their total sizes. -/
def exitFees (closed : List PaperDeal) : ℚ := (closed.map fun d => calcFee cfg d.totalSize).sum

/-- A run that came to its end with every deal closed and every fee booked. -/
structure Settled (initialBalanceBtc : ℚ)
    (o : Program.Outcome PyError BacktestEvent BacktestState Unit) : Prop where
  ended : o.result = .ok ()
  closed : o.state.state.openDeals.items = []
  balance : o.state.state.balanceBtc =
    initialBalanceBtc + o.state.state.totalPnlBtc - o.state.feesPaidBtc
  fees : o.state.feesPaidBtc = entryFees cfg o.log + exitFees cfg o.state.state.closedDeals

/-- A candle before the last one has an entry signal; the candles come after the warm-up
and the pointers are those before them. -/
def EntersEarly : List BacktestCandle → (Timeframe → ℕ) → Prop
  | [], _ => False
  | [_], _ => False
  | c :: next :: cs, tfPointers =>
    Enters cfg sig (windowsAt data (advanceAll data c.timestamp tfPointers)) ∨
      EntersEarly (next :: cs) (advanceAll data c.timestamp tfPointers)

/-! ### What the methods book -/

/-- What the balance and the fee counter have beside the PnL and the exit fees. -/
def Books (s : BacktestState) (log : List BacktestEvent) (s' : BacktestState) : Prop :=
  s'.state.balanceBtc + s'.feesPaidBtc - s'.state.totalPnlBtc =
      s.state.balanceBtc + s.feesPaidBtc - s.state.totalPnlBtc ∧
    s'.feesPaidBtc - exitFees cfg s'.state.closedDeals =
      s.feesPaidBtc - exitFees cfg s.state.closedDeals + entryFees cfg log

theorem books_traceRel : Program.TraceRel (Books cfg) where
  nil s := ⟨rfl, (add_zero _).symm⟩
  append := by
    intro s l t l' u h h'
    refine ⟨h'.1.trans h.1, ?_⟩
    rw [h'.2, h.2, entryFees, entryFees, entryFees, List.map_append, List.sum_append, add_assoc]

/-- A step that moves neither the account nor the history. -/
theorem books_same (s s' : BacktestState) (hbalance : s'.state.balanceBtc = s.state.balanceBtc)
    (hclosed : s'.state.closedDeals = s.state.closedDeals) (hfees : s'.feesPaidBtc = s.feesPaidBtc) :
    Books cfg s [] s' := by
  unfold Books PaperState.totalPnlBtc
  rw [hbalance, hclosed, hfees]
  exact ⟨rfl, (add_zero _).symm⟩

theorem calculatePnl_triggered (d : PaperDeal) (trigger : ExitTrigger) (price : ℚ) :
    ({ d with exitTrigger := some trigger } : PaperDeal).calculatePnl price = d.calculatePnl price :=
  PaperDeal.calculatePnl_congr _ d price rfl rfl rfl

/-- Closing an open deal. -/
theorem closeDeal_open (now : Instant) (dealId : String) (price : ℚ) (reason : CloseReason)
    (trigger : ExitTrigger) (s : BacktestState) (d : PaperDeal)
    (h : s.state.openDeals.get? dealId = some d) :
    closeDeal cfg now dealId price reason trigger s =
      ⟨.ok (), [.closed price reason trigger],
        { s with
          state :=
            { s.state with
              balanceBtc := s.state.balanceBtc + (d.calculatePnl price).1 - calcFee cfg d.totalSize
              openDeals := s.state.openDeals.pop dealId
              closedDeals := s.state.closedDeals ++
                [{ d with exitTrigger := some trigger }.closed price reason now] }
          feesPaidBtc := s.feesPaidBtc + calcFee cfg d.totalSize }⟩ := by
  have htriggered : (s.state.updateDeal dealId (fun e => { e with exitTrigger := some trigger })
      (id_exitTrigger trigger)).openDeals.get? dealId = some { d with exitTrigger := some trigger } := by
    simp only [PaperState.updateDeal, KeyedDict.get?_modify_self, h, Option.map_some]
  have hclose := PaperState.closeDeal_some _ dealId price reason now _ htriggered
  simp only [closeDeal, Program.get_bind_run, h, Program.modify_bind_run, onState, chargeFee,
    Program.emit, hclose, calculatePnl_triggered]
  simp only [PaperState.updateDeal, KeyedDict.pop_modify_self]

theorem books_closeDeal (now : Instant) (dealId : String) (price : ℚ) (reason : CloseReason)
    (trigger : ExitTrigger) :
    Program.Respects (Books cfg) (closeDeal cfg now dealId price reason trigger) := by
  intro s
  cases hget : s.state.openDeals.get? dealId with
  | none =>
    simp only [closeDeal, Program.get_bind_run, hget]
    exact (books_traceRel cfg).nil s
  | some d =>
    rw [closeDeal_open cfg now dealId price reason trigger s d hget]
    refine ⟨?_, ?_⟩
    · simp only [PaperState.totalPnlBtc, List.map_append, List.sum_append, List.map_singleton,
        List.sum_singleton, PaperDeal.closed_pnlBtc, calculatePnl_triggered]
      ring
    · have hexit : exitFees cfg (s.state.closedDeals ++
          [{ d with exitTrigger := some trigger }.closed price reason now]) =
          exitFees cfg s.state.closedDeals + calcFee cfg d.totalSize := by
        rw [exitFees, List.map_append, List.sum_append]
        exact congrArg _ (add_zero _)
      simp only [hexit, entryFees, entryFee, List.map_singleton, List.sum_singleton]
      ring

theorem books_openDeal (dealId : String) (price : ℚ) (dt : Instant) (trigger : Option GroupTrigger) :
    Program.Respects (Books cfg) (openDeal cfg dealId price dt trigger) := by
  intro s
  simp only [openDeal, chargeFee, onState, Program.modify_bind_run, Program.emit]
  refine ⟨?_, ?_⟩
  · simp only [PaperState.openDeal, PaperState.totalPnlBtc]
    ring
  · simp only [PaperState.openDeal, entryFees, entryFee, List.map_cons, List.map_nil, List.sum_cons,
      List.sum_nil]
    ring

theorem books_filledOrder (s : BacktestState) (dealId : String) (order : PaperOrder) :
    Books cfg s [.dcaFilled order.price order.size] (filledOrder cfg s dealId order) := by
  refine ⟨?_, ?_⟩
  · simp only [filledOrder, PaperState.totalPnlBtc]
    ring
  · simp only [filledOrder, entryFees, entryFee, List.map_singleton, List.sum_singleton]
    ring

theorem books_rules : RunRules cfg (Books cfg) where
  rel := books_traceRel cfg
  close := books_closeDeal cfg
  peak s _ _ := books_same cfg s _ rfl rfl rfl
  fill s d order _ _ := books_filledOrder cfg s d.id order
  opened s dealId price dt trigger _ := books_openDeal cfg dealId price dt trigger s
  pointers s _ := books_same cfg s _ rfl rfl rfl
  counted s := books_same cfg s _ rfl rfl rfl

/-- A run that ends with every deal closed has booked everything. -/
theorem settled_of_ended (b : ℚ) (hresult : (run cfg sig env data (init b)).result = .ok ())
    (hclosed : (run cfg sig env data (init b)).state.state.openDeals.items = []) :
    Settled cfg b (run cfg sig env data (init b)) := by
  obtain ⟨hbalance, hfees⟩ := (books_rules cfg).run sig env data (init b)
  refine ⟨hresult, hclosed, ?_, ?_⟩
  · have hstart : (init b).state.balanceBtc + (init b).feesPaidBtc - (init b).state.totalPnlBtc = b := by
      show b + 0 - 0 = b
      ring
    rw [hstart] at hbalance
    linarith
  · have hstart : (init b).feesPaidBtc - exitFees cfg (init b).state.closedDeals = 0 := by
      show (0 : ℚ) - 0 = 0
      ring
    rw [hstart] at hfees
    linarith

/-! ### Methods that return -/

/-- The deals of a backtest: long, with an order each. -/
def LongDeals (s : BacktestState) : Prop :=
  ∀ d ∈ s.state.openDeals.items, d.side = .long ∧ d.orders ≠ []

theorem closeDeal_run (now : Instant) (dealId : String) (price : ℚ) (reason : CloseReason)
    (trigger : ExitTrigger) (s : BacktestState) :
    (closeDeal cfg now dealId price reason trigger s).result = .ok () ∧
      (closeDeal cfg now dealId price reason trigger s).state.state.openDeals =
        s.state.openDeals.pop dealId := by
  cases hget : s.state.openDeals.get? dealId with
  | none =>
    simp only [closeDeal, Program.get_bind_run, hget]
    exact ⟨rfl, (KeyedDict.pop_of_none _ _ hget).symm⟩
  | some d =>
    rw [closeDeal_open cfg now dealId price reason trigger s d hget]
    exact ⟨rfl, rfl⟩

theorem keeps_closeDeal (now : Instant) (dealId : String) (price : ℚ) (reason : CloseReason)
    (trigger : ExitTrigger) :
    Program.Keeps LongDeals (closeDeal cfg now dealId price reason trigger) := by
  intro s hs
  obtain ⟨hresult, hdeals⟩ := closeDeal_run cfg now dealId price reason trigger s
  refine ⟨⟨(), hresult⟩, fun d hd => ?_⟩
  rw [hdeals, KeyedDict.pop_items] at hd
  exact hs d (List.mem_filter.mp hd).1

theorem keeps_openDeal (dealId : String) (price : ℚ) (dt : Instant) (trigger : Option GroupTrigger)
    (s : BacktestState) (hflat : s.state.openDeals.items = []) :
    (openDeal cfg dealId price dt trigger s).result = .ok () ∧
      (openDeal cfg dealId price dt trigger s).state.state.openDeals.items =
        [newDeal cfg dealId price dt trigger] := by
  refine ⟨rfl, ?_⟩
  have hnone : s.state.openDeals.get? (newDeal cfg dealId price dt trigger).id = none := by
    rw [KeyedDict.get?, hflat]
    rfl
  show (s.state.openDeals.set (newDeal cfg dealId price dt trigger)).items = _
  rw [KeyedDict.set_items_new _ _ hnone, hflat]
  rfl

theorem longDeals_modify (s : BacktestState) (hs : LongDeals s) (dealId : String)
    (f : PaperDeal → PaperDeal) (hf : ∀ d, (f d).id = d.id) (hside : ∀ d, (f d).side = d.side)
    (horders : ∀ d, d.orders ≠ [] → (f d).orders ≠ []) :
    LongDeals (onState (fun s => s.updateDeal dealId f hf) s) := by
  intro d hd
  obtain ⟨e, he, rfl⟩ := List.mem_map.mp hd
  obtain ⟨hlong, hnonempty⟩ := hs e he
  split
  · exact ⟨(hside e).trans hlong, horders e hnonempty⟩
  · exact ⟨hlong, hnonempty⟩

theorem keeps_chargeFee (fee : ℚ) : Program.Keeps LongDeals (chargeFee fee) :=
  Program.keeps_modify _ fun _ hs => hs

theorem keeps_emit (e : BacktestEvent) : Program.Keeps LongDeals (Program.emit e : BacktestM Unit) :=
  fun _ hs => ⟨⟨(), rfl⟩, hs⟩

theorem keeps_checkDca (now : Instant) (d : PaperDeal) (price : ℚ) (h : d.orders ≠ []) :
    Program.Keeps LongDeals (checkDca cfg now d price) := by
  unfold checkDca
  refine Program.keeps_ite _ _ _ (Program.keeps_pure ()) ?_
  refine Program.keeps_ite _ _ _ (Program.keeps_pure ()) ?_
  refine Program.keeps_ite _ _ _ (Program.keeps_pure ()) ?_
  cases hlast : d.orders.getLast? with
  | none => exact absurd (List.getLast?_eq_none_iff.mp hlast) h
  | some last =>
    refine Program.keeps_ite _ _ _ ?_ (Program.keeps_pure ())
    refine Program.keeps_bind _ _ ?_ fun _ => ?_
    · exact Program.keeps_modify _ fun s hs => longDeals_modify s hs d.id _ _ (fun _ => rfl)
        fun e _ => by simp
    · exact Program.keeps_bind _ _ (keeps_chargeFee _) fun _ => keeps_emit _

theorem keeps_stopAt (now : Instant) (candle : BacktestCandle) (d : PaperDeal) (reference : ℚ)
    (trigger : ExitTrigger) (h : d.side = .long) :
    Program.Keeps LongDeals (stopAt cfg now candle d reference trigger) := by
  have hline : ∃ line, computeSlTargetPrice reference cfg.stopLoss.pct d.side = .ok line := by
    have hpos := cfg.stopLoss.pct_nonneg
    have hne : 1 + cfg.stopLoss.pct / 100 ≠ 0 := by
      have hle : 0 ≤ cfg.stopLoss.pct / 100 := div_nonneg hpos (by norm_num)
      linarith
    rw [h]
    exact ⟨_, pyDiv_ok _ _ hne⟩
  refine Program.keeps_bind _ _ (Program.keeps_lift _ hline) fun slPrice => ?_
  refine Program.keeps_ite _ _ _ ?_ (Program.keeps_pure false)
  exact Program.keeps_bind _ _ (keeps_closeDeal cfg now d.id slPrice .sl trigger)
    fun _ => Program.keeps_pure true

theorem keeps_checkTpSl (now : Instant) (w : OhlcWindow) (candle : BacktestCandle) (d : PaperDeal)
    (h : d.side = .long) (htarget : cfg.takeProfit.targetPct < 100) :
    Program.Keeps LongDeals (checkTpSlIntracandle cfg sig now w candle d) := by
  have hline : ∃ line,
      computeTpTargetPrice d.avgEntryPrice cfg.takeProfit.targetPct d.side = .ok line := by
    have hne : 1 - cfg.takeProfit.targetPct / 100 ≠ 0 := by
      have hlt : cfg.takeProfit.targetPct / 100 < 1 := (div_lt_one (by norm_num)).mpr htarget
      linarith
    rw [h]
    exact ⟨_, pyDiv_ok _ _ hne⟩
  refine Program.keeps_bind _ _ (Program.keeps_lift _ hline) fun tpPrice => ?_
  refine Program.keeps_ite _ _ _ ?_ ?_
  · exact Program.keeps_bind _ _ (keeps_closeDeal cfg now d.id tpPrice .tp .priceTp)
      fun _ => Program.keeps_pure true
  split
  · exact Program.keeps_bind _ _ (keeps_closeDeal cfg now d.id candle.close .tp _)
      fun _ => Program.keeps_pure true
  split
  · exact Program.keeps_pure false
  · refine Program.keeps_bind _ _ ?_ fun _ => keeps_stopAt cfg now candle d _ .trailingSl h
    exact Program.keeps_modify _ fun s hs => longDeals_modify s hs d.id _ _ (fun _ => rfl)
      fun _ hne => hne
  · exact keeps_stopAt cfg now candle d _ .priceSl h

theorem keeps_checkEntry (dealId : String) (w : OhlcWindow) (candle : BacktestCandle) :
    Program.Keeps LongDeals (checkEntry cfg sig dealId w candle) := by
  refine Program.keeps_get_bind _ fun s hs => ?_
  split
  · rename_i hc
    cases IndicatorEngine.checkEntrySignal cfg (sig.withOpens w.opensPerTf cfg.timeframe)
      w.candles with
    | mk fired trigger =>
      cases fired with
      | false => exact ⟨⟨(), rfl⟩, hs⟩
      | true =>
        obtain ⟨hresult, hitems⟩ := keeps_openDeal cfg dealId candle.close candle.dt trigger s hc.1
        refine ⟨⟨(), hresult⟩, fun d hd => ?_⟩
        rw [hitems] at hd
        rw [List.mem_singleton.mp hd]
        exact ⟨rfl, List.cons_ne_nil _ _⟩
  · exact ⟨⟨(), rfl⟩, hs⟩

theorem keeps_processCandle (i : ℕ) (w : OhlcWindow) (candle : BacktestCandle)
    (htarget : cfg.takeProfit.targetPct < 100) :
    Program.Keeps LongDeals (processCandle cfg sig env i w candle) := by
  have hmem : ∀ (s : BacktestState) (dealId : String) (d : PaperDeal), LongDeals s →
      s.state.openDeals.get? dealId = some d → d.side = .long ∧ d.orders ≠ [] :=
    fun s dealId d hs hget => hs d (KeyedDict.get?_mem _ _ _ hget).1
  refine Program.keeps_get_bind _ fun start hstart => ?_
  refine Program.keeps_bind _ _ ?_ (fun _ => keeps_checkEntry cfg sig _ w candle) start hstart
  refine Program.keeps_forEach _ _ fun dealId _ => ?_
  refine Program.keeps_get_bind _ fun s hs => ?_
  cases hget : s.state.openDeals.get? dealId with
  | none => exact ⟨⟨(), rfl⟩, hs⟩
  | some d =>
    refine Program.keeps_bind _ _ (keeps_checkTpSl cfg sig _ w candle d (hmem s dealId d hs hget).1 htarget)
      (fun closed => ?_) s hs
    refine Program.keeps_ite _ _ _ (Program.keeps_pure ()) ?_
    refine Program.keeps_get_bind _ fun u hu => ?_
    cases hagain : u.state.openDeals.get? dealId with
    | none => exact ⟨⟨(), rfl⟩, hu⟩
    | some e => exact keeps_checkDca cfg _ e _ (hmem u dealId e hu hagain).2 u hu

theorem keeps_candleStep (p : BacktestCandle × ℕ) (htarget : cfg.takeProfit.targetPct < 100) :
    Program.Keeps LongDeals (candleStep cfg sig env data p) := by
  refine Program.keeps_ite _ _ _ (Program.keeps_pure ()) ?_
  refine Program.keeps_bind _ _ ?_ fun w => ?_
  · refine Program.keeps_bind _ _ (Program.keeps_modify _ fun _ hs => hs) fun _ => ?_
    exact Program.keeps_get_bind _ fun s hs => ⟨⟨_, rfl⟩, hs⟩
  · exact Program.keeps_bind _ _ (keeps_processCandle cfg sig env _ w _ htarget)
      fun _ => Program.keeps_modify _ fun _ hs => hs

/-! ### The end of the data -/

/-- The deals still open are those that were not to be closed. -/
theorem forEach_closes (now : Instant) (price : ℚ) (ids : List String) (s : BacktestState) :
    (Program.forEach (fun dealId => closeDeal cfg now dealId price .endOfData .timeout) ids s).result =
        .ok () ∧
      ∀ d ∈ (Program.forEach (fun dealId => closeDeal cfg now dealId price .endOfData .timeout) ids
          s).state.state.openDeals.items, d ∈ s.state.openDeals.items ∧ d.id ∉ ids := by
  induction ids generalizing s with
  | nil => exact ⟨rfl, fun d hd => ⟨hd, List.not_mem_nil⟩⟩
  | cons dealId ids ih =>
    obtain ⟨hresult, hdeals⟩ := closeDeal_run cfg now dealId price .endOfData .timeout s
    obtain ⟨hrest, hleft⟩ := ih (closeDeal cfg now dealId price .endOfData .timeout s).state
    rw [Program.forEach, Program.bind_ok _ _ _ () hresult]
    refine ⟨hrest, fun d hd => ?_⟩
    obtain ⟨hmem, hnot⟩ := hleft d hd
    rw [hdeals, KeyedDict.pop_items, List.mem_filter] at hmem
    refine ⟨hmem.1, fun hin => ?_⟩
    rcases List.mem_cons.mp hin with heq | hin
    · simp [heq] at hmem
    · exact hnot hin

theorem closeOut_closes (now : Instant) (price : ℚ) (s : BacktestState) :
    (closeOut cfg now price s).result = .ok () ∧
      (closeOut cfg now price s).state.state.openDeals.items = [] := by
  obtain ⟨hresult, hleft⟩ := forEach_closes cfg now price (s.state.openDeals.items.map PaperDeal.id) s
  refine ⟨hresult, List.eq_nil_iff_forall_not_mem.mpr fun d hd => ?_⟩
  obtain ⟨hmem, hnot⟩ := hleft d hd
  exact hnot (List.mem_map_of_mem hmem)

/-! ### The candles after the warm-up -/

/-- The loop passes over the warm-up. -/
theorem forEach_skips (l : List BacktestCandle) (n : ℕ) (s : BacktestState) :
    Program.forEach (candleStep cfg sig env data) (l.zipIdx n) s =
      Program.forEach (candleStep cfg sig env data) ((l.drop (warmup - n)).zipIdx (max n warmup))
        s := by
  induction l generalizing n s with
  | nil => simp
  | cons c l ih =>
    by_cases hn : n < warmup
    · have hskip := candleStep_skipped cfg sig env data (c, n) s hn
      have hdrop : warmup - n = (warmup - (n + 1)) + 1 := by omega
      have hmax : max n warmup = max (n + 1) warmup := by omega
      rw [List.zipIdx_cons, Program.forEach, Program.bind_ok _ _ _ () (by rw [hskip]), hskip, hdrop,
        List.drop_succ_cons, hmax, ← ih (n + 1) s]
      rfl
    · have hdrop : warmup - n = 0 := by omega
      have hmax : max n warmup = n := by omega
      rw [hdrop, hmax, List.drop_zero]

/-- A candle met without an open deal. -/
theorem candleStep_fromFlat (p : BacktestCandle × ℕ) (s : BacktestState) (hp : warmup ≤ p.2)
    (hflat : s.state.openDeals.items = []) :
    (candleStep cfg sig env data p s).result = .ok () ∧
      LongDeals (candleStep cfg sig env data p s).state := by
  have hempty : LongDeals { s with tfPointers := advanceAll data p.1.timestamp s.tfPointers } := by
    intro d hd
    rw [hflat] at hd
    exact absurd hd List.not_mem_nil
  rw [candleStep_run cfg sig env data p s hp]
  have hprocess := processCandle_flat cfg sig env p.2
    (windowsAt data (advanceAll data p.1.timestamp s.tfPointers)) p.1
    { s with tfPointers := advanceAll data p.1.timestamp s.tfPointers } hflat
  obtain ⟨⟨_, hresult⟩, hkept⟩ := keeps_checkEntry cfg sig (env.newDealId p.2)
    (windowsAt data (advanceAll data p.1.timestamp s.tfPointers)) p.1 _ hempty
  rw [← hprocess] at hresult hkept
  rw [Program.bind_ok _ _ _ () hresult]
  exact ⟨rfl, hkept⟩

/-- Candles that enter nothing before the last of them are gone through. -/
theorem forEach_ends (l : List BacktestCandle) (n : ℕ) (s : BacktestState) (hn : warmup ≤ n)
    (hflat : s.state.openDeals.items = []) (h : ¬ EntersEarly cfg sig data l s.tfPointers) :
    (Program.forEach (candleStep cfg sig env data) (l.zipIdx n) s).result = .ok () := by
  induction l generalizing n s with
  | nil => rfl
  | cons c l ih =>
    rw [List.zipIdx_cons, Program.forEach]
    cases l with
    | nil =>
      rw [Program.bind_ok _ _ _ () (candleStep_fromFlat cfg sig env data (c, n) s hn hflat).1]
      rfl
    | cons next cs =>
      obtain ⟨hquiet, hlater⟩ := not_or.mp h
      obtain ⟨_, hresult, hstate⟩ := candleStep_quiet cfg sig env data (c, n) s hn hflat hquiet
      have hpointers := candleStep_pointers cfg sig env data (c, n) s hn
      rw [Program.bind_ok _ _ _ () hresult]
      refine ih (n + 1) _ (Nat.le_succ_of_le hn) (by rw [hstate]; exact hflat) ?_
      rw [hpointers]
      exact hlater

/-! ### A take-profit target of 100 % -/

theorem monitorDeal_divides (now : Instant) (w : OhlcWindow) (candle : BacktestCandle)
    (dealId : String) (s : BacktestState) (d : PaperDeal) (hs : LongDeals s)
    (hget : s.state.openDeals.get? dealId = some d) (htarget : cfg.takeProfit.targetPct = 100) :
    (monitorDeal cfg sig now w candle dealId s).result = .error .zeroDivisionError := by
  have hside := (hs d (KeyedDict.get?_mem _ _ _ hget).1).1
  have hline : computeTpTargetPrice d.avgEntryPrice cfg.takeProfit.targetPct d.side =
      .error .zeroDivisionError := by
    rw [htarget, hside]
    simp [computeTpTargetPrice, pyDiv]
  rw [monitorDeal, Program.get_bind_run, hget]
  have hcheck : (checkTpSlIntracandle cfg sig now w candle d s).result =
      .error .zeroDivisionError := by
    rw [checkTpSlIntracandle, hline]
    rfl
  show ((checkTpSlIntracandle cfg sig now w candle d >>= _) s).result = _
  rw [Program.bind_error _ _ _ _ hcheck]

/-- The next candle of an open deal. -/
theorem candleStep_divides (p : BacktestCandle × ℕ) (s : BacktestState) (hp : warmup ≤ p.2)
    (hs : LongDeals s) (hopen : s.state.openDeals.items ≠ [])
    (htarget : cfg.takeProfit.targetPct = 100) :
    (candleStep cfg sig env data p s).result = .error .zeroDivisionError := by
  cases hitems : s.state.openDeals.items with
  | nil => exact absurd hitems hopen
  | cons d ds =>
    have hget : s.state.openDeals.get? d.id = some d := by simp [KeyedDict.get?, hitems]
    have hmonitor := monitorDeal_divides cfg sig (env.clock p.2)
      (windowsAt data (advanceAll data p.1.timestamp s.tfPointers)) p.1 d.id
      { s with tfPointers := advanceAll data p.1.timestamp s.tfPointers } d hs hget htarget
    have hprocess : (processCandle cfg sig env p.2
        (windowsAt data (advanceAll data p.1.timestamp s.tfPointers)) p.1
        { s with tfPointers := advanceAll data p.1.timestamp s.tfPointers }).result =
          .error .zeroDivisionError := by
      rw [processCandle, Program.get_bind_run, hitems, List.map_cons, Program.forEach]
      rw [Program.bind_error _ _ _ _ (by rw [Program.bind_error _ _ _ _ hmonitor])]
    rw [candleStep_run cfg sig env data p s hp, Program.bind_error _ _ _ _ hprocess]

/-- A candle that enters leaves a deal open. -/
theorem candleStep_holds (p : BacktestCandle × ℕ) (s : BacktestState) (hp : warmup ≤ p.2)
    (hflat : s.state.openDeals.items = [])
    (h : Enters cfg sig (windowsAt data (advanceAll data p.1.timestamp s.tfPointers))) :
    (candleStep cfg sig env data p s).state.state.openDeals.items ≠ [] := by
  obtain ⟨hcloses, hfired⟩ := h
  have hprocess := processCandle_flat cfg sig env p.2
    (windowsAt data (advanceAll data p.1.timestamp s.tfPointers)) p.1
    { s with tfPointers := advanceAll data p.1.timestamp s.tfPointers } hflat
  rw [checkEntry, Program.get_bind_run, if_pos ⟨hflat, hcloses⟩] at hprocess
  cases hs : IndicatorEngine.checkEntrySignal cfg
      (sig.withOpens (windowsAt data (advanceAll data p.1.timestamp s.tfPointers)).opensPerTf
        cfg.timeframe)
      (windowsAt data (advanceAll data p.1.timestamp s.tfPointers)).candles with
  | mk fired trigger =>
    rw [hs] at hfired hprocess
    obtain rfl : fired = true := hfired
    obtain ⟨hresult, hitems⟩ := keeps_openDeal cfg (env.newDealId p.2) p.1.close p.1.dt trigger
      { s with tfPointers := advanceAll data p.1.timestamp s.tfPointers } hflat
    dsimp only at hprocess
    rw [← hprocess] at hresult hitems
    rw [candleStep_run cfg sig env data p s hp, Program.bind_ok _ _ _ () hresult]
    show (processCandle cfg sig env p.2 _ p.1 _).state.state.openDeals.items ≠ []
    rw [hitems]
    exact List.cons_ne_nil _ _

/-- An entry before the last candle: the run stops on the candle after it. -/
theorem forEach_divides (l : List BacktestCandle) (n : ℕ) (s : BacktestState) (hn : warmup ≤ n)
    (hflat : s.state.openDeals.items = []) (htarget : cfg.takeProfit.targetPct = 100)
    (h : EntersEarly cfg sig data l s.tfPointers) :
    (Program.forEach (candleStep cfg sig env data) (l.zipIdx n) s).result =
      .error .zeroDivisionError := by
  induction l generalizing n s with
  | nil => exact h.elim
  | cons c l ih =>
    cases l with
    | nil => exact h.elim
    | cons next cs =>
      by_cases henters : Enters cfg sig
          (windowsAt data (advanceAll data c.timestamp s.tfPointers))
      · obtain ⟨hresult, hlong⟩ := candleStep_fromFlat cfg sig env data (c, n) s hn hflat
        have hopen := candleStep_holds cfg sig env data (c, n) s hn hflat henters
        have hnext := candleStep_divides cfg sig env data (next, n + 1) _ (Nat.le_succ_of_le hn) hlong
          hopen htarget
        rw [List.zipIdx_cons, List.zipIdx_cons, Program.forEach, Program.bind_ok _ _ _ () hresult,
          Program.forEach, Program.bind_error _ _ _ _ hnext]
      · obtain ⟨_, hresult, hstate⟩ := candleStep_quiet cfg sig env data (c, n) s hn hflat henters
        have hpointers := candleStep_pointers cfg sig env data (c, n) s hn
        have hlater := h.resolve_left henters
        rw [← hpointers] at hlater
        rw [List.zipIdx_cons, Program.forEach, Program.bind_ok _ _ _ () hresult]
        exact ih (n + 1) _ (Nat.le_succ_of_le hn) (by rw [hstate]; exact hflat) hlater

/-! ### Whole runs -/

theorem run_ends_iff (b : ℚ) :
    (Program.forEach (candleStep cfg sig env data) (drivingCandles cfg data).zipIdx (init b)).result =
        .ok () ↔
      cfg.takeProfit.targetPct < 100 ∨
        ¬ EntersEarly cfg sig data ((drivingCandles cfg data).drop warmup) (fun _ => 0) := by
  have hskips := forEach_skips cfg sig env data (drivingCandles cfg data) 0 (init b)
  rw [Nat.sub_zero, Nat.zero_max] at hskips
  constructor
  · intro hends
    by_contra hnot
    obtain ⟨htarget, hearly⟩ := not_or.mp hnot
    have hfull : cfg.takeProfit.targetPct = 100 :=
      le_antisymm cfg.takeProfit.targetPct_le (not_lt.mp htarget)
    have herror := forEach_divides cfg sig env data _ warmup (init b) le_rfl rfl hfull
      (not_not.mp hearly)
    rw [← hskips, hends] at herror
    cases herror
  · rintro (htarget | hlate)
    · have hempty : LongDeals (init b) := fun d hd => absurd hd List.not_mem_nil
      obtain ⟨⟨_, hends⟩, _⟩ := Program.keeps_forEach _ (drivingCandles cfg data).zipIdx
        (fun p _ => keeps_candleStep cfg sig env data p htarget) (init b) hempty
      exact hends
    · rw [hskips]
      exact forEach_ends cfg sig env data _ warmup (init b) le_rfl rfl hlate

/-- A run that came to its end went through all candles. -/
theorem loop_of_ended (b : ℚ) (h : (run cfg sig env data (init b)).result = .ok ()) :
    (Program.forEach (candleStep cfg sig env data) (drivingCandles cfg data).zipIdx (init b)).result =
      .ok () := by
  cases hloop : (Program.forEach (candleStep cfg sig env data) (drivingCandles cfg data).zipIdx
      (init b)).result with
  | ok a => rfl
  | error e =>
    rw [run, Program.bind_error _ _ _ e hloop] at h
    cases h

/-- A run that went through all candles settles. -/
theorem settled_of_loop (b : ℚ)
    (hends : (Program.forEach (candleStep cfg sig env data) (drivingCandles cfg data).zipIdx
      (init b)).result = .ok ()) : Settled cfg b (run cfg sig env data (init b)) := by
  cases hlast : (drivingCandles cfg data).getLast? with
  | none =>
    have hrun : run cfg sig env data (init b) = ⟨.ok (), [], init b⟩ := by
      rw [run, hlast, List.getLast?_eq_none_iff.mp hlast]
      rfl
    exact settled_of_ended cfg sig env data b (by rw [hrun]) (by rw [hrun]; rfl)
  | some last =>
    obtain ⟨hresult, hclosed⟩ := closeOut_closes cfg (env.clock (drivingCandles cfg data).length)
      last.close (Program.forEach (candleStep cfg sig env data) (drivingCandles cfg data).zipIdx
        (init b)).state
    have hended : (run cfg sig env data (init b)).result = .ok () := by
      rw [run, hlast, Program.bind_ok _ _ _ () hends]
      exact hresult
    have hflat : (run cfg sig env data (init b)).state.state.openDeals.items = [] := by
      rw [run, hlast, Program.bind_ok _ _ _ () hends]
      exact hclosed
    exact settled_of_ended cfg sig env data b hended hflat

/-- A backtest ends flat with every fee booked exactly when no deal of a 100 % target
is monitored. -/
theorem settled_iff (b : ℚ) :
    Settled cfg b (run cfg sig env data (init b)) ↔
      cfg.takeProfit.targetPct < 100 ∨
        ¬ EntersEarly cfg sig data ((drivingCandles cfg data).drop warmup) (fun _ => 0) := by
  rw [← run_ends_iff cfg sig env data b]
  constructor
  · intro h
    exact loop_of_ended cfg sig env data b h.ended
  · exact settled_of_loop cfg sig env data b

/-- A bot without entry indicators that takes profit at 100 %. -/
def fullTargetBot : BotConfig := { BotConfig.small "full target" with takeProfit := .full }

/-- The deal opened on the first candle after the warm-up stops the run on the next one. -/
theorem not_settled_fullTarget :
    ¬ Settled fullTargetBot 1 (run fullTargetBot .silent ⟨fun _ => "deal", fun _ => 0⟩
      hourlyData.candlesPerTf (init 1)) := by
  intro h
  have hstops : (run fullTargetBot .silent ⟨fun _ => "deal", fun _ => 0⟩ hourlyData.candlesPerTf
      (init 1)).result = .error .zeroDivisionError := by decide +kernel
  rw [h.ended] at hstops
  cases hstops

end BacktestEngine

end Reverto
