import Mathlib.Tactic
import Reverto.Core.Accounting
import Reverto.Core.DealCodec
import Reverto.Core.EngineLife
import Reverto.Lib.Machine

/-!
# Lifetime results across restarts (core/trading_engine.py, paper/paper_state.py,
paper/close_handler.py)

The totals `_write_state` puts into `state.json` against the deals the bot has closed
since its first start. The balance and the fee counter are carried over a restart as
sums; the totals are computed from the closed deals the file lists.
-/

namespace Reverto

namespace LifetimeTotals

open DealCodec (reloaded)

/-! ### The life of a bot -/

/-- What happens to a bot: operations of its engine, the end of the engine with and
without `_clear_state`, a start, and a close by the portal while no engine runs. -/
inductive LifetimeStep where
  | op (op : EngineOp)
  | stop
  | crash
  | start (initialBalanceBtc : ℚ)
  | closeOffline (dealId : String) (price : ℚ) (now : Instant) (action : CloseAction)

/-- A bot with what it has done so far: every deal as it was closed, the number of starts,
and the fee counter the engine had when it last saved its balance. -/
structure Lifetime where
  file : Option StateDoc
  engine : Option EngineState
  closed : List PaperDeal
  starts : ℕ
  savedFees : ℚ

/-- A bot that was just created. -/
def Lifetime.new : Lifetime := ⟨none, none, [], 0, 0⟩

variable (cfg : BotConfig) (sig : Signals)

/-- One step. -/
def step (s : Lifetime) : LifetimeStep → Option Lifetime
  | .op op =>
    match s.engine with
    | none => none
    | some e =>
      let w := (op.program cfg sig ⟨e, s.file⟩).state
      some
        { s with
          file := w.file
          engine := some w.engine
          closed := s.closed ++ w.engine.state.closedDeals.drop e.state.closedDeals.length
          savedFees :=
            if TradingEngine.savesFile ⟨e, s.file⟩ op then w.engine.feesPaidBtc else s.savedFees }
  | .stop =>
    match s.engine with
    | none => none
    | some _ => some { s with file := some (StateDoc.markStopped s.file), engine := none }
  | .crash =>
    match s.engine with
    | none => none
    | some _ => some { s with engine := none }
  | .start initialBalanceBtc =>
    match s.engine with
    | none =>
      some { s with engine := some (bootEngine initialBalanceBtc s.file), starts := s.starts + 1 }
    | some _ => none
  | .closeOffline dealId price now action =>
    match s.engine with
    | none =>
      match DealCloseHandler.accept (loadPaperStateFromFile s.file) dealId price with
      | .error _ => some s
      | .ok deal =>
        some
          { s with
            file := LifeStep.offlineFile cfg s.file dealId price now action
            closed := s.closed ++ [DealCloseHandler.closedDeal deal price now action] }
    | some _ => none

/-! ### What the engine writes -/

/-- A deal as it was closed, or as the codec gives it back. -/
def ShownAs (d e : PaperDeal) : Prop := e = d ∨ e = reloaded d 0

/-- Half a unit of the last decimal of a PnL or a balance in the file. -/
def unitError : ℚ := 1 / 2 / 10 ^ 8

/-- What a save and a load may change the account by: the roundings of the balance and of
the fee counter. -/
def saveError : ℚ := unitError + 1 / 2 / 10 ^ 10

/-- The totals of a document are those of the closed deals, up to the codec's rounding of
their PnL, and agree with its account, up to the roundings of the saves. -/
structure TotalsHold (closed : List PaperDeal) (starts : ℕ) (doc : StateDoc) : Prop where
  totals : ∃ shown, List.Forall₂ ShownAs closed shown ∧
    doc.totalPnlBtc = some (shown.map PaperDeal.pnlBtc).sum ∧
    doc.winRate = some (PaperState.winRate shown) ∧ doc.closedDealsCount = shown.length
  account : ∃ balance initial total fees, doc.balanceBtc = some balance ∧
    doc.initialBalanceBtc = some initial ∧ doc.totalPnlBtc = some total ∧
    doc.feesPaidBtc = some fees ∧
    |balance - (initial + total - fees)| ≤ (starts + 1) * saveError + closed.length * unitError

/-- `closed_deals` of a state file. -/
def listed (file : Option StateDoc) : List DealDoc := (file.map StateDoc.closedDeals).getD []

/-- `fees_paid_btc` of a state file. -/
def fileFees (file : Option StateDoc) : ℚ := (file.bind StateDoc.feesPaidBtc).getD 0

/-- A start finds every deal closed so far in the file, and a fee counter as old as the
balance; the balance covers every fee; a close by the portal charges none. -/
def Lossless (s : Lifetime) : LifetimeStep → Prop
  | .op op => ∀ e ∈ s.engine, Accounting.Covered cfg sig ⟨e, s.file⟩ op
  | .start _ => (listed s.file).length = s.closed.length ∧
      |fileFees s.file - s.savedFees| ≤ 1 / 2 / 10 ^ 10
  | .closeOffline dealId price _ action =>
    ∀ deal, DealCloseHandler.accept (loadPaperStateFromFile s.file) dealId price = .ok deal →
      action = .close → deal.totalSize * cfg.dca.takerFee = 0
  | .stop | .crash => True

/-! ### Lists of closed deals -/

/-- A list that shows the closed deals, in whatever order. -/
def Shows (closed ds : List PaperDeal) : Prop :=
  ∃ shown, List.Forall₂ ShownAs closed shown ∧ shown.Perm ds

theorem shows_length (closed ds : List PaperDeal) (h : Shows closed ds) :
    ds.length = closed.length := by
  obtain ⟨shown, hshown, hperm⟩ := h
  rw [← hperm.length_eq, hshown.length_eq]

theorem shows_nil : Shows [] [] := ⟨[], .nil, .refl _⟩

theorem shows_append (closed ds new : List PaperDeal) (h : Shows closed ds) :
    Shows (closed ++ new) (ds ++ new) := by
  obtain ⟨shown, hshown, hperm⟩ := h
  refine ⟨shown ++ new, List.rel_append hshown ?_, hperm.append_right new⟩
  exact List.forall₂_same.mpr fun d _ => Or.inl rfl

theorem shows_perm (closed ds es : List PaperDeal) (h : Shows closed ds) (hperm : ds.Perm es) :
    Shows closed es := by
  obtain ⟨shown, hshown, hds⟩ := h
  exact ⟨shown, hshown, hds.trans hperm⟩

theorem shownAs_reloaded (d e : PaperDeal) (hclosed : d.isOpen = false) (h : ShownAs d e) :
    ShownAs d (reloaded e 0) := by
  rcases h with rfl | rfl
  · exact Or.inr rfl
  · right
    rw [reloaded, reloaded, dealToDict_reencode d 0 0 hclosed]

theorem shows_reloaded (closed ds : List PaperDeal) (hclosed : ∀ d ∈ closed, d.isOpen = false)
    (h : Shows closed ds) : Shows closed (ds.map fun d => reloaded d 0) := by
  obtain ⟨shown, hshown, hperm⟩ := h
  refine ⟨shown.map fun d => reloaded d 0, ?_, hperm.map _⟩
  clear hperm
  induction hshown with
  | nil => exact .nil
  | cons hde _ ih =>
    refine .cons (shownAs_reloaded _ _ (hclosed _ List.mem_cons_self) hde) (ih fun d hd => ?_)
    exact hclosed d (List.mem_cons_of_mem _ hd)

theorem pnl_near (d e : PaperDeal) (hclosed : d.isOpen = false) (h : ShownAs d e) :
    |e.pnlBtc - d.pnlBtc| ≤ unitError := by
  rcases h with rfl | rfl
  · rw [sub_self, abs_zero]
    norm_num [unitError]
  · rw [reloaded, dictToDeal_dealToDict, shownPnl_closed d 0 hclosed]
    exact Decimal.roundTo_near 8 d.pnlBtc

theorem total_near (closed shown : List PaperDeal) (hclosed : ∀ d ∈ closed, d.isOpen = false)
    (h : List.Forall₂ ShownAs closed shown) :
    |(shown.map PaperDeal.pnlBtc).sum - (closed.map PaperDeal.pnlBtc).sum| ≤
      closed.length * unitError := by
  induction h with
  | nil => simp
  | cons hde htail ih =>
    rename_i d e closed shown
    have hhead := pnl_near d e (hclosed d List.mem_cons_self) hde
    have hrest := ih fun c hc => hclosed c (List.mem_cons_of_mem d hc)
    simp only [List.map_cons, List.sum_cons, List.length_cons, Nat.cast_add, Nat.cast_one]
    calc |e.pnlBtc + (shown.map PaperDeal.pnlBtc).sum -
          (d.pnlBtc + (closed.map PaperDeal.pnlBtc).sum)|
        = |(e.pnlBtc - d.pnlBtc) + ((shown.map PaperDeal.pnlBtc).sum -
            (closed.map PaperDeal.pnlBtc).sum)| := by ring_nf
      _ ≤ |e.pnlBtc - d.pnlBtc| + |(shown.map PaperDeal.pnlBtc).sum -
            (closed.map PaperDeal.pnlBtc).sum| := abs_add_le _ _
      _ ≤ (closed.length + 1) * unitError := by linarith

/-- The win rate does not depend on the order of the deals. -/
theorem winRate_perm (ds es : List PaperDeal) (h : ds.Perm es) :
    PaperState.winRate ds = PaperState.winRate es := by
  have hnil : ds = [] ↔ es = [] := by
    constructor
    · rintro rfl
      exact h.nil_eq.symm
    · rintro rfl
      exact h.eq_nil
  rw [PaperState.winRate, PaperState.winRate, (h.filter _).length_eq, h.length_eq]
  simp only [hnil]

/-! ### The account -/

/-- The sum of the PnL of all closed deals. -/
def realized (closed : List PaperDeal) : ℚ := (closed.map PaperDeal.pnlBtc).sum

/-- What an account has in excess of the initial balance and the realized PnL, less the fees. -/
def excess (balance initial fees : ℚ) (closed : List PaperDeal) : ℚ :=
  balance + fees - realized closed - initial

/-- The account of an engine. -/
def engineExcess (e : EngineState) (closed : List PaperDeal) : ℚ :=
  excess e.state.balanceBtc e.state.initialBalanceBtc e.feesPaidBtc closed

/-- The account of a document, or a document that has none because no engine has saved one. -/
def FileAccount (s : Lifetime) (doc : StateDoc) : Prop :=
  (∃ balance initial, doc.balanceBtc = some balance ∧ doc.initialBalanceBtc = some initial ∧
    |excess balance initial s.savedFees s.closed| ≤ s.starts * saveError + unitError) ∨
  (doc.balanceBtc = none ∧ doc.initialBalanceBtc = none ∧ doc.feesPaidBtc = none ∧
    doc.openDeals = [] ∧ s.closed = [])

/-- The document lists fewer deals than have been closed, or shows them all and has
their account. -/
def FileKept (s : Lifetime) (doc : StateDoc) : Prop :=
  doc.closedDeals.length < s.closed.length ∨
    (Shows s.closed (doc.closedDeals.map dictToDeal) ∧ FileAccount s doc)

/-- A running engine shows all closed deals and has their account. -/
structure Kept (s : Lifetime) : Prop where
  closed : ∀ d ∈ s.closed, d.isOpen = false
  shows : ∀ e, s.engine = some e → Shows s.closed e.state.closedDeals
  account : ∀ e, s.engine = some e → |engineExcess e s.closed| ≤ s.starts * saveError
  file : ∀ doc, s.file = some doc → FileKept s doc

theorem kept_new : Kept .new where
  closed := fun d hd => by cases hd
  shows := fun e he => by cases he
  account := fun e he => by cases he
  file := fun doc hdoc => by cases hdoc

theorem unitError_pos : 0 < unitError := by norm_num [unitError]

theorem saveError_pos : 0 < saveError := by norm_num [saveError, unitError]

theorem realized_append (closed new : List PaperDeal) :
    realized (closed ++ new) = realized closed + realized new := by
  rw [realized, List.map_append, List.sum_append, realized, realized]

theorem realized_totalPnl (s : PaperState) : realized s.closedDeals = s.totalPnlBtc := rfl

/-- A covered operation closes deals at their PnL and otherwise keeps the account. -/
theorem engineExcess_op (op : EngineOp) (w : World) (closed new : List PaperDeal)
    (hcovered : Accounting.Covered cfg sig w op)
    (hnew : (op.program cfg sig w).state.engine.state.closedDeals =
      w.engine.state.closedDeals ++ new) :
    engineExcess (op.program cfg sig w).state.engine (closed ++ new) =
      engineExcess w.engine closed := by
  have hsurplus := Accounting.surplus_op cfg sig op w
  rw [(Accounting.refused_eq_zero_iff cfg sig w op).mpr hcovered, add_zero] at hsurplus
  have htotal : (op.program cfg sig w).state.engine.state.totalPnlBtc =
      w.engine.state.totalPnlBtc + realized new := by
    rw [← realized_totalPnl, hnew, realized_append, realized_totalPnl]
  simp only [Accounting.surplus] at hsurplus
  simp only [engineExcess, excess, realized_append]
  linarith

/-- A file that was not saved falls behind as soon as a deal is closed. -/
theorem fileKept_append (s : Lifetime) (doc : StateDoc) (new : List PaperDeal)
    (h : FileKept s doc) (t : Lifetime) (hclosed : t.closed = s.closed ++ new)
    (hstarts : t.starts = s.starts) (hfees : t.savedFees = s.savedFees) : FileKept t doc := by
  cases new with
  | nil =>
    rw [List.append_nil] at hclosed
    rw [FileKept, FileAccount, hclosed, hstarts, hfees]
    exact h
  | cons d new =>
    left
    have hle : doc.closedDeals.length ≤ s.closed.length := by
      rcases h with hless | ⟨hshows, -⟩
      · exact hless.le
      · have hlength := shows_length _ _ hshows
        rw [List.length_map] at hlength
        exact hlength.le
    rw [hclosed, List.length_append, List.length_cons]
    omega

/-- The deals as a document lists them, read back. -/
theorem map_reloaded (ds : List PaperDeal) :
    (ds.map fun d => dealToDict d 0).map dictToDeal = ds.map fun d => reloaded d 0 := by
  rw [List.map_map]
  rfl

/-! ### What is saved -/

theorem fileKept_persist (s : Lifetime) (hclosed : ∀ d ∈ s.closed, d.isOpen = false)
    (name : String) (state : PaperState) (file : Option StateDoc)
    (hshows : Shows s.closed state.closedDeals)
    (haccount : |excess state.balanceBtc state.initialBalanceBtc s.savedFees s.closed| ≤
      s.starts * saveError + unitError) :
    FileKept s (DealCloseHandler.persistState name state file) := by
  refine Or.inr ⟨?_, Or.inl ⟨state.balanceBtc, state.initialBalanceBtc, rfl, rfl, haccount⟩⟩
  show Shows s.closed ((state.closedDeals.map fun d => dealToDict d 0).map dictToDeal)
  rw [map_reloaded]
  exact shows_reloaded _ _ hclosed hshows

/-- A state write keeps the deals unless the history is longer than the file shows. -/
theorem fileKept_write (s : Lifetime) (hclosed : ∀ d ∈ s.closed, d.isOpen = false)
    (e : EngineState) (price : ℚ) (isOpen : Bool) (now : Instant)
    (hshows : Shows s.closed e.state.closedDeals)
    (haccount : |engineExcess e s.closed| ≤ s.starts * saveError)
    (hfees : s.savedFees = e.feesPaidBtc) : FileKept s (writeStateDoc cfg e price isOpen now) := by
  have hlength := shows_length _ _ hshows
  by_cases hcap : e.state.closedDeals.length ≤ closedDealsUiCap
  · refine Or.inr ⟨?_, Or.inl ⟨_, _, rfl, rfl, ?_⟩⟩
    · have hall : e.state.closedDeals.reverse.take closedDealsUiCap = e.state.closedDeals.reverse :=
        List.take_of_length_le (by rw [List.length_reverse]; exact hcap)
      show Shows s.closed (((e.state.closedDeals.reverse.take closedDealsUiCap).map
        fun d => dealToDict d 0).map dictToDeal)
      rw [map_reloaded, hall]
      exact shows_reloaded _ _ hclosed (shows_perm _ _ _ hshows (List.reverse_perm _).symm)
    · have hround := Decimal.roundTo_near 8 e.state.balanceBtc
      have hsplit : excess (Decimal.roundTo 8 e.state.balanceBtc) e.state.initialBalanceBtc
          s.savedFees s.closed =
            engineExcess e s.closed +
              (Decimal.roundTo 8 e.state.balanceBtc - e.state.balanceBtc) := by
        rw [engineExcess, excess, excess, hfees]
        ring
      rw [hsplit]
      exact (abs_add_le _ _).trans (add_le_add haccount hround)
  · left
    show ((e.state.closedDeals.reverse.take closedDealsUiCap).map fun d => dealToDict d 0).length <
      s.closed.length
    rw [List.length_map, List.length_take, List.length_reverse, ← hlength]
    omega

/-! ### Steps -/

theorem kept_op (s : Lifetime) (op : EngineOp) (e : EngineState) (h : Kept s)
    (he : s.engine = some e) (hcovered : Accounting.Covered cfg sig ⟨e, s.file⟩ op)
    (t : Lifetime) (hstep : step cfg sig s (.op op) = some t) : Kept t := by
  obtain ⟨new, hnew, hopen⟩ := TradingEngine.historyGrows_op cfg sig op ⟨e, s.file⟩
  have hdrop : (op.program cfg sig ⟨e, s.file⟩).state.engine.state.closedDeals.drop
      e.state.closedDeals.length = new := by
    rw [hnew]
    exact List.drop_left
  simp only [step, he, hdrop] at hstep
  obtain rfl := Option.some.inj hstep
  have hclosed : ∀ d ∈ s.closed ++ new, d.isOpen = false := by
    intro d hd
    rcases List.mem_append.mp hd with hd | hd
    · exact h.closed d hd
    · exact hopen d hd
  have hshows : Shows (s.closed ++ new)
      (op.program cfg sig ⟨e, s.file⟩).state.engine.state.closedDeals := by
    rw [hnew]
    exact shows_append _ _ new (h.shows e he)
  have haccount : |engineExcess (op.program cfg sig ⟨e, s.file⟩).state.engine (s.closed ++ new)| ≤
      s.starts * saveError := by
    rw [engineExcess_op cfg sig op ⟨e, s.file⟩ s.closed new hcovered hnew]
    exact h.account e he
  refine ⟨hclosed, fun e' he' => ?_, fun e' he' => ?_, fun doc hdoc => ?_⟩
  · rw [← Option.some.inj he']
    exact hshows
  · rw [← Option.some.inj he']
    exact haccount
  · have hdoc : (op.program cfg sig ⟨e, s.file⟩).state.file = some doc := hdoc
    cases hsaves : TradingEngine.savesFile ⟨e, s.file⟩ op with
    | false =>
      rw [TradingEngine.file_kept cfg sig op ⟨e, s.file⟩ hsaves] at hdoc
      exact fileKept_append s doc new (h.file doc hdoc) _ rfl rfl (by simp)
    | true =>
      cases op with
      | write now price isOpen =>
        obtain rfl : writeStateDoc cfg e price isOpen now = doc := Option.some.inj hdoc
        exact fileKept_write cfg _ hclosed e price isOpen now hshows haccount rfl
      | sentinel now price sentinel =>
        cases sentinel with
        | unknown i => cases hsaves
        | edit i changes => cases hsaves
        | act i action =>
          rw [TradingEngine.file_act cfg sig now price i action ⟨e, s.file⟩ hsaves] at hdoc
          rw [← Option.some.inj hdoc]
          refine fileKept_persist _ hclosed cfg.name _ s.file hshows ?_
          exact haccount.trans (le_add_of_nonneg_right unitError_pos.le)
      | _ => cases hsaves

theorem kept_stop (s : Lifetime) (h : Kept s) (t : Lifetime)
    (hstep : step cfg sig s .stop = some t) : Kept t := by
  cases he : s.engine with
  | none => simp [step, he] at hstep
  | some e =>
    simp only [step, he] at hstep
    obtain rfl := Option.some.inj hstep
    refine ⟨h.closed, fun _ hnone => (by cases hnone), fun _ hnone => (by cases hnone),
      fun doc hdoc => ?_⟩
    obtain rfl : StateDoc.markStopped s.file = doc := Option.some.inj hdoc
    cases hfile : s.file with
    | some doc => exact h.file doc hfile
    | none =>
      cases hc : s.closed with
      | nil => exact Or.inr ⟨shows_nil, Or.inr ⟨rfl, rfl, rfl, rfl, rfl⟩⟩
      | cons d ds =>
        exact Or.inl (Nat.succ_pos _)

theorem kept_crash (s : Lifetime) (h : Kept s) (t : Lifetime)
    (hstep : step cfg sig s .crash = some t) : Kept t := by
  cases he : s.engine with
  | none => simp [step, he] at hstep
  | some e =>
    simp only [step, he] at hstep
    obtain rfl := Option.some.inj hstep
    exact ⟨h.closed, fun _ hnone => (by cases hnone), fun _ hnone => (by cases hnone), h.file⟩

/-- An engine built from an account that is still empty. -/
theorem engineExcess_empty (e : EngineState) (hbalance : e.state.balanceBtc =
    e.state.initialBalanceBtc) (hfees : e.feesPaidBtc = 0) : engineExcess e [] = 0 := by
  rw [engineExcess, excess, hbalance, hfees, realized, List.map_nil, List.sum_nil]
  ring

/-- A start takes over the account of the file, up to the rounding of the fee counter. -/
theorem account_start (s : Lifetime) (initialBalanceBtc : ℚ) (doc : StateDoc)
    (haccount : FileAccount s doc)
    (hfees : |fileFees (some doc) - s.savedFees| ≤ 1 / 2 / 10 ^ 10) :
    |engineExcess (bootEngine initialBalanceBtc (some doc)) s.closed| ≤
      (s.starts + 1) * saveError := by
  rcases haccount with ⟨balance, initial, hbalance, hinitial, haccount⟩ |
    ⟨hbalance, hinitial, hfee, -, hclosed⟩
  · have hsplit : engineExcess (bootEngine initialBalanceBtc (some doc)) s.closed =
        excess balance initial s.savedFees s.closed + (fileFees (some doc) - s.savedFees) := by
      simp only [engineExcess, bootEngine, excess, fileFees, hbalance, hinitial, Option.getD_some,
        Option.bind_some]
      ring
    rw [hsplit]
    have hsum : (s.starts + 1 : ℚ) * saveError =
        (s.starts * saveError + unitError) + 1 / 2 / 10 ^ 10 := by
      rw [saveError]
      ring
    rw [hsum]
    exact (abs_add_le _ _).trans (add_le_add haccount hfees)
  · rw [hclosed, engineExcess_empty]
    · rw [abs_zero]
      exact mul_nonneg (by positivity) saveError_pos.le
    · simp only [bootEngine, hbalance, hinitial, Option.getD_none]
    · simp only [bootEngine, hfee, Option.getD_none]

theorem kept_start (s : Lifetime) (initialBalanceBtc : ℚ) (h : Kept s)
    (hlossless : Lossless cfg sig s (.start initialBalanceBtc)) (t : Lifetime)
    (hstep : step cfg sig s (.start initialBalanceBtc) = some t) : Kept t := by
  obtain ⟨hlisted, hfees⟩ := hlossless
  cases he : s.engine with
  | some e => simp [step, he] at hstep
  | none =>
    simp only [step, he] at hstep
    obtain rfl := Option.some.inj hstep
    have hsucc : ((s.starts + 1 : ℕ) : ℚ) = s.starts + 1 := by push_cast; ring
    cases hfile : s.file with
    | none =>
      have hclosed : s.closed = [] := by
        rw [hfile] at hlisted
        exact List.length_eq_zero_iff.mp hlisted.symm
      refine ⟨h.closed, fun e' he' => ?_, fun e' he' => ?_, fun doc hdoc => ?_⟩
      · rw [← Option.some.inj he', hclosed]
        exact shows_nil
      · rw [← Option.some.inj he', hclosed, engineExcess_empty _ rfl rfl, abs_zero]
        exact mul_nonneg (Nat.cast_nonneg _) saveError_pos.le
      · cases hdoc
    | some doc =>
      rw [hfile] at hlisted hfees
      obtain ⟨hshows, haccount⟩ : Shows s.closed (doc.closedDeals.map dictToDeal) ∧
          FileAccount s doc := by
        rcases h.file doc hfile with hless | hkept
        · exact absurd hlisted hless.ne
        · exact hkept
      refine ⟨h.closed, fun e' he' => ?_, fun e' he' => ?_, fun doc' hdoc => ?_⟩
      · rw [← Option.some.inj he']
        exact hshows
      · rw [← Option.some.inj he', hsucc]
        exact account_start s initialBalanceBtc doc haccount hfees
      · obtain rfl := Option.some.inj hdoc
        refine Or.inr ⟨hshows, haccount.imp ?_ id⟩
        rintro ⟨balance, initial, hbalance, hinitial, hnear⟩
        refine ⟨balance, initial, hbalance, hinitial, hnear.trans ?_⟩
        rw [hsucc]
        have hpos := saveError_pos
        linarith

theorem closedDeal_pnlBtc (d : PaperDeal) (price : ℚ) (now : Instant) (action : CloseAction) :
    (DealCloseHandler.closedDeal d price now action).pnlBtc = (d.calculatePnl price).1 := by
  cases action <;> rfl

theorem closed_append (closed : List PaperDeal) (deal : PaperDeal) (price : ℚ) (now : Instant)
    (action : CloseAction) (h : ∀ d ∈ closed, d.isOpen = false) :
    ∀ d ∈ closed ++ [DealCloseHandler.closedDeal deal price now action], d.isOpen = false := by
  intro d hd
  rcases List.mem_append.mp hd with hd | hd
  · exact h d hd
  · rw [List.mem_singleton.mp hd]
    cases action <;> rfl

/-- A close that charges no fee moves a deal and its PnL. -/
theorem actState_free (state : PaperState) (deal : PaperDeal) (price : ℚ) (now : Instant)
    (action : CloseAction) (hdeal : state.openDeals.get? deal.id = some deal)
    (hfree : action = .close → deal.totalSize * cfg.dca.takerFee = 0) :
    DealCloseHandler.actState cfg.dca.takerFee state deal price now action =
      { state with
        openDeals := state.openDeals.pop deal.id
        balanceBtc := state.balanceBtc + (deal.calculatePnl price).1
        closedDeals := state.closedDeals ++
          [DealCloseHandler.closedDeal deal price now action] } := by
  rw [DealCloseHandler.actState_eq cfg.dca.takerFee state deal price now action hdeal]
  cases action with
  | close => simp only [hfree rfl, sub_zero]
  | cancel => simp only [sub_zero]

/-- A close by the portal that charges no fee keeps the file as complete as it was. -/
theorem fileKept_offline (s : Lifetime) (i : String) (price : ℚ) (now : Instant)
    (action : CloseAction) (deal : PaperDeal) (hopen : ∀ d ∈ s.closed, d.isOpen = false)
    (hkept : ∀ doc, s.file = some doc → FileKept s doc)
    (hacc : DealCloseHandler.accept (loadPaperStateFromFile s.file) i price = .ok deal)
    (hfree : action = .close → deal.totalSize * cfg.dca.takerFee = 0) (doc : StateDoc)
    (hdoc : LifeStep.offlineFile cfg s.file i price now action = some doc) :
    FileKept
      { s with
        file := LifeStep.offlineFile cfg s.file i price now action
        closed := s.closed ++ [DealCloseHandler.closedDeal deal price now action] } doc := by
  obtain ⟨hdeal, rfl, -⟩ := DealCloseHandler.accept_ok _ _ _ _ hacc
  have hclosed := closed_append s.closed deal price now action hopen
  have hstate := actState_free cfg _ deal price now action hdeal hfree
  simp only [LifeStep.offlineFile, hacc, hstate, Option.some.injEq] at hdoc
  cases hfile : s.file with
  | none =>
    rw [hfile] at hdeal
    cases hdeal
  | some old =>
    rw [hfile] at hdeal hdoc
    subst hdoc
    rcases hkept old hfile with hless | ⟨hshows, haccount⟩
    · left
      show (((old.closedDeals.map dictToDeal ++ [_]).map fun d => dealToDict d 0)).length <
        (s.closed ++ [_]).length
      simp only [List.length_map, List.length_append, List.length_singleton]
      omega
    · refine fileKept_persist _ hclosed cfg.name _ (some old) (shows_append _ _ _ hshows) ?_
      rcases haccount with ⟨balance, initial, hbalance, hinitial, hnear⟩ | ⟨-, -, -, hnone, -⟩
      · have hsame : excess (balance + (deal.calculatePnl price).1) initial s.savedFees
            (s.closed ++ [DealCloseHandler.closedDeal deal price now action]) =
              excess balance initial s.savedFees s.closed := by
          have hone : realized [DealCloseHandler.closedDeal deal price now action] =
              (deal.calculatePnl price).1 := by
            rw [realized, List.map_singleton, List.sum_singleton, closedDeal_pnlBtc]
          rw [excess, realized_append, hone, excess]
          ring
        simp only [loadPaperStateFromFile, hbalance, hinitial, Option.getD_some]
        rw [hsame]
        exact hnear
      · exfalso
        simp only [loadPaperStateFromFile, StateDoc.loadOpenDeals, hnone] at hdeal
        cases hdeal

theorem kept_closeOffline (s : Lifetime) (i : String) (price : ℚ) (now : Instant)
    (action : CloseAction) (h : Kept s)
    (hlossless : Lossless cfg sig s (.closeOffline i price now action)) (t : Lifetime)
    (hstep : step cfg sig s (.closeOffline i price now action) = some t) : Kept t := by
  cases he : s.engine with
  | some e => simp [step, he] at hstep
  | none =>
    cases hacc : DealCloseHandler.accept (loadPaperStateFromFile s.file) i price with
    | error err =>
      simp only [step, he, hacc] at hstep
      rw [← Option.some.inj hstep]
      exact h
    | ok deal =>
      simp only [step, he, hacc] at hstep
      obtain rfl := Option.some.inj hstep
      have hclosed := closed_append s.closed deal price now action h.closed
      refine ⟨hclosed, fun e' he' => ?_, fun e' he' => ?_, fun doc hdoc => ?_⟩
      · cases he'
      · cases he'
      · exact fileKept_offline cfg s i price now action deal h.closed h.file hacc
          (hlossless deal hacc) doc hdoc

/-! ### Whole lives -/

theorem kept_step (s : Lifetime) (l : LifetimeStep) (t : Lifetime) (h : Kept s)
    (hlossless : Lossless cfg sig s l) (hstep : step cfg sig s l = some t) : Kept t := by
  cases l with
  | op op =>
    cases he : s.engine with
    | none => simp [step, he] at hstep
    | some e => exact kept_op cfg sig s op e h he (hlossless e he) t hstep
  | stop => exact kept_stop cfg sig s h t hstep
  | crash => exact kept_crash cfg sig s h t hstep
  | start initialBalanceBtc => exact kept_start cfg sig s initialBalanceBtc h hlossless t hstep
  | closeOffline i price now action =>
    exact kept_closeOffline cfg sig s i price now action h hlossless t hstep

/-- What the engine writes, given that it shows all closed deals and has their account. -/
theorem totalsHold_write (closed : List PaperDeal) (starts : ℕ) (e : EngineState)
    (hclosed : ∀ d ∈ closed, d.isOpen = false) (hshows : Shows closed e.state.closedDeals)
    (haccount : |engineExcess e closed| ≤ starts * saveError) (price : ℚ) (isOpen : Bool)
    (now : Instant) : TotalsHold closed starts (writeStateDoc cfg e price isOpen now) := by
  obtain ⟨shown, hshown, hperm⟩ := hshows
  have htotal : e.state.totalPnlBtc = (shown.map PaperDeal.pnlBtc).sum :=
    (hperm.map PaperDeal.pnlBtc).sum_eq.symm
  refine ⟨⟨shown, hshown, ?_, ?_, ?_⟩, ⟨_, _, _, _, rfl, rfl, rfl, rfl, ?_⟩⟩
  · exact congrArg some htotal
  · exact congrArg some (winRate_perm _ _ hperm.symm)
  · exact hperm.length_eq.symm
  · have hbalance := Decimal.roundTo_near 8 e.state.balanceBtc
    have hfees := Decimal.roundTo_near 10 e.feesPaidBtc
    have hnear := total_near closed shown hclosed hshown
    rw [← htotal] at hnear
    have hsplit : Decimal.roundTo 8 e.state.balanceBtc -
        (e.state.initialBalanceBtc + e.state.totalPnlBtc - Decimal.roundTo 10 e.feesPaidBtc) =
          engineExcess e closed - (e.state.totalPnlBtc - realized closed) +
            ((Decimal.roundTo 8 e.state.balanceBtc - e.state.balanceBtc) +
              (Decimal.roundTo 10 e.feesPaidBtc - e.feesPaidBtc)) := by
      rw [engineExcess, excess]
      ring
    rw [hsplit]
    have hsaved := (abs_add_le _ _).trans (add_le_add hbalance hfees)
    have hheld := (abs_sub _ _).trans (add_le_add haccount hnear)
    have hsum := (abs_add_le _ _).trans (add_le_add hheld hsaved)
    refine hsum.trans (le_of_eq ?_)
    rw [saveError, unitError]
    ring

/-- In a life without losses, what the engine writes are the totals of every deal closed
since the first start. -/
theorem totals_after_write (ls : List LifetimeStep) (now : Instant) (price : ℚ) (isOpen : Bool)
    (s : Lifetime) (hG : Machine.Guarded (step cfg sig) (Lossless cfg sig) .new ls)
    (hrun : Machine.run (step cfg sig) .new (ls ++ [.op (.write now price isOpen)]) = some s) :
    ∃ doc, s.file = some doc ∧ TotalsHold s.closed s.starts doc := by
  obtain ⟨t, ht, hlast⟩ := (Machine.run_append_eq_some _ _ _ _ _).mp hrun
  have hkept : Kept t := Machine.run_invariant _ (fun _ => True) (Lossless cfg sig) Kept
    (fun s l s' _ => kept_step cfg sig s l s') _ t ls kept_new (fun _ _ => trivial) hG ht
  obtain ⟨u, hu, hend⟩ := (Machine.run_cons_eq_some _ _ _ _ _).mp hlast
  cases hend
  cases he : t.engine with
  | none => simp [step, he] at hu
  | some e =>
    simp only [step, he] at hu
    obtain rfl := Option.some.inj hu
    refine ⟨_, rfl, ?_⟩
    have hsame : t.closed ++ List.drop e.state.closedDeals.length e.state.closedDeals =
        t.closed := by
      rw [List.drop_length, List.append_nil]
    show TotalsHold (t.closed ++ List.drop e.state.closedDeals.length e.state.closedDeals) t.starts
      (writeStateDoc cfg e price isOpen now)
    rw [hsame]
    exact totalsHold_write cfg t.closed t.starts e hkept.closed (hkept.shows e he)
      (hkept.account e he) price isOpen now

/-! ### More deals than the file keeps -/

instance (s : Lifetime) (l : LifetimeStep) : Decidable (Lossless cfg sig s l) :=
  match l with
  | .op op => inferInstanceAs (Decidable (∀ e ∈ s.engine, Accounting.Covered cfg sig ⟨e, s.file⟩ op))
  | .start _ => inferInstanceAs (Decidable ((listed s.file).length = s.closed.length ∧
      |fileFees s.file - s.savedFees| ≤ 1 / 2 / 10 ^ 10))
  | .stop | .crash => .isTrue trivial
  | .closeOffline dealId price _ action =>
    match hacc : DealCloseHandler.accept (loadPaperStateFromFile s.file) dealId price with
    | .error _ => .isTrue fun deal hdeal => by rw [hacc] at hdeal; cases hdeal
    | .ok deal =>
      decidable_of_iff (action = .close → deal.totalSize * cfg.dca.takerFee = 0)
        ⟨fun h d hd => by rw [hacc] at hd; cases hd; exact h, fun h => h deal hacc⟩

/-- A deal that is opened and cancelled. -/
def openAndCancel (i : ℕ) : List LifetimeStep :=
  [.op (.open 0 (.accepted (toString i)) 100 none),
    .op (.sentinel 1 100 (.act (toString i) .cancel))]

/-- Deals opened and cancelled, a write and a restart. -/
def restartAfter (n : ℕ) : List LifetimeStep :=
  .start 1 :: ((List.range n).flatMap openAndCancel ++
    [.op (.write 2 100 true), .crash, .start 1])

/-- The first deal of a bot that closed one more than the file keeps is not counted after
a restart. -/
theorem totals_after_cap :
    ¬ ∀ (cfg : BotConfig) (sig : Signals) (ls : List LifetimeStep) (now : Instant) (price : ℚ)
      (isOpen : Bool) (s : Lifetime),
      Machine.run (step cfg sig) .new (ls ++ [.op (.write now price isOpen)]) = some s →
      ∃ doc, s.file = some doc ∧ TotalsHold s.closed s.starts doc := by
  intro h
  have hend : ∃ s, Machine.run (step (.small "small") .silent) .new
      (restartAfter 51 ++ [.op (.write 3 100 true)]) = some s ∧
      s.file.map StateDoc.closedDealsCount ≠ some s.closed.length := by
    refine ⟨_, rfl, ?_⟩
    decide +kernel
  obtain ⟨s, hrun, hne⟩ := hend
  obtain ⟨doc, hdoc, htotals⟩ := h _ _ _ _ _ _ s hrun
  obtain ⟨shown, hshown, -, -, hcount⟩ := htotals.totals
  rw [hdoc, Option.map_some, hcount, ← hshown.length_eq] at hne
  exact hne rfl

/-- A restart after the first closed deal keeps the totals. -/
theorem totals_after_one_restart :
    ∃ s, Machine.run (step (.small "small") .silent) .new
        (restartAfter 1 ++ [.op (.write 3 100 true)]) = some s ∧
      ∃ doc, s.file = some doc ∧ TotalsHold s.closed s.starts doc := by
  refine ⟨_, rfl, totals_after_write (.small "small") .silent (restartAfter 1) 3 100 true _ ?_ rfl⟩
  decide +kernel

end LifetimeTotals

end Reverto
