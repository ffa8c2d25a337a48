import Mathlib.Tactic
import Reverto.Core.DealStore
import Reverto.Paper.StateIO

/-!
# Closing and cancelling a deal by hand (paper/close_handler.py)
-/

namespace Reverto

/-- `action` -/
inductive CloseAction where
  | close
  | cancel
  deriving DecidableEq, Repr

/-- The `error` of a refused close. -/
inductive CloseError where
  | dealNotFound (dealId : String)
  | priceNotPositive
  deriving DecidableEq, Repr

/-- The dict of a close that went through. -/
structure CloseResult where
  action : CloseAction
  dealId : String
  closePrice : ℚ
  pnlBtc : ℚ
  pnlPct : ℚ
  feeBtc : ℚ
  deal : DealDoc
  deriving DecidableEq, Repr

namespace DealCloseHandler

/-- `_close`: PnL and the exit fee, which is deducted whatever the balance. -/
def closeState (takerFee : ℚ) (s : PaperState) (d : PaperDeal) (price : ℚ) (now : Instant) :
    PaperState :=
  let s' := (s.updateDeal d.id (fun e => { e with exitTrigger := some .manual })
    fun _ => rfl).closeDeal d.id price .manual now
  { s' with balanceBtc := s'.balanceBtc - d.totalSize * takerFee }

/-- `_cancel`: no fee; `PaperState.close_deal` books its PnL all the same. -/
def cancelState (s : PaperState) (d : PaperDeal) (price : ℚ) (now : Instant) : PaperState :=
  (s.updateDeal d.id (fun e => { e with exitTrigger := some .cancelled })
    fun _ => rfl).closeDeal d.id price .cancelled now

/-- The state after an accepted close or cancel. -/
def actState (takerFee : ℚ) (s : PaperState) (d : PaperDeal) (price : ℚ) (now : Instant) :
    CloseAction → PaperState
  | .close => closeState takerFee s d price now
  | .cancel => cancelState s d price now

/-- The ledger call of an accepted close or cancel. -/
def ledgerCall (d : PaperDeal) (price : ℚ) (now : Instant) : CloseAction → LedgerCall
  | .close =>
    .closeDeal d.id price .manual (d.calculatePnl price).1 (d.calculatePnl price).2 now .manual
  | .cancel => .closeDeal d.id price .cancelled 0 0 now .cancelled

/-- `_persist_state`: merge into the document on disk. -/
def persistState (botName : String) (s : PaperState) (file : Option StateDoc) : StateDoc :=
  let openDeals := s.openDeals.items.map fun d => dealToDict d 0
  let closedDeals := s.closedDeals.map fun d => dealToDict d 0
  { file.getD {} with
    botName := botName
    balanceBtc := some s.balanceBtc
    initialBalanceBtc := some s.initialBalanceBtc
    openDeals := openDeals
    closedDeals := closedDeals
    openDealsCount := openDeals.length
    closedDealsCount := closedDeals.length }

/-- The deal as the result shows it. -/
def closedDeal (d : PaperDeal) (price : ℚ) (now : Instant) : CloseAction → PaperDeal
  | .close => { d with exitTrigger := some .manual }.closed price .manual now
  | .cancel => { d with exitTrigger := some .cancelled }.closed price .cancelled now

/-- The dict returned for an accepted close or cancel. -/
def result (takerFee : ℚ) (d : PaperDeal) (price : ℚ) (now : Instant) (action : CloseAction) :
    CloseResult :=
  let deal := dealToDict (closedDeal d price now action) price
  match action with
  | .close =>
    ⟨.close, d.id, price, (d.calculatePnl price).1, (d.calculatePnl price).2,
      d.totalSize * takerFee, deal⟩
  | .cancel => ⟨.cancel, d.id, price, 0, 0, 0, deal⟩

/-- The guards of `close_deal`. -/
def accept (s : PaperState) (dealId : String) (price : ℚ) : Except CloseError PaperDeal :=
  match s.openDeals.get? dealId with
  | none => .error (.dealNotFound dealId)
  | some d => if price ≤ 0 then .error .priceNotPositive else .ok d

theorem accept_ok (s : PaperState) (i : String) (p : ℚ) (d : PaperDeal) (h : accept s i p = .ok d) :
    s.openDeals.get? i = some d ∧ d.id = i ∧ 0 < p := by
  unfold accept at h
  cases hg : s.openDeals.get? i with
  | none => simp [hg] at h
  | some e =>
    simp only [hg] at h
    split at h
    · cases h
    · rename_i hp
      injection h with h
      subst h
      exact ⟨rfl, (KeyedDict.get?_mem _ _ _ hg).2, not_le.mp hp⟩

/-- An accepted close or cancel moves the deal to the history and leaves the
other open deals as they are. -/
theorem actState_eq (fee : ℚ) (s : PaperState) (d : PaperDeal) (p : ℚ) (now : Instant)
    (a : CloseAction) (h : s.openDeals.get? d.id = some d) :
    actState fee s d p now a =
      { s with
        openDeals := s.openDeals.pop d.id
        balanceBtc := s.balanceBtc + (d.calculatePnl p).1
          - (match a with | .close => d.totalSize * fee | .cancel => 0)
        closedDeals := s.closedDeals ++ [closedDeal d p now a] } := by
  have hget : ∀ (f : PaperDeal → PaperDeal) (hf : ∀ d, (f d).id = d.id),
      (s.updateDeal d.id f hf).openDeals.get? d.id = some (f d) := by
    intro f hf
    simp only [PaperState.updateDeal, KeyedDict.get?_modify_self, h, Option.map_some]
  cases a with
  | close =>
    simp only [actState, closeState]
    rw [PaperState.closeDeal_some _ _ _ _ _ _ (hget _ _)]
    simp only [PaperState.updateDeal, KeyedDict.pop_modify_self]
    rfl
  | cancel =>
    simp only [actState, cancelState]
    rw [PaperState.closeDeal_some _ _ _ _ _ _ (hget _ _)]
    simp only [PaperState.updateDeal, KeyedDict.pop_modify_self, sub_zero]
    rfl

end DealCloseHandler

end Reverto
