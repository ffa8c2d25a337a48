import Mathlib.Tactic
import Reverto.Paper.CloseHandler

/-!
# What a cancel books (paper/close_handler.py, paper/paper_state.py)

`_cancel` reports a PnL of zero to the ledger and to its caller, while
`PaperState.close_deal` books the PnL at the price it is given. The three records
agree where that PnL is zero.
-/

namespace Reverto

namespace DealCloseHandler

variable (takerFee : ℚ) (s : PaperState) (d : PaperDeal) (price : ℚ) (now : Instant)

/-- The balance stays, and the deal in the history, the ledger and the result of the
cancel show one PnL. -/
structure NothingRealised : Prop where
  balance : (actState takerFee s d price now .cancel).balanceBtc = s.balanceBtc
  stored : ∃ e, (actState takerFee s d price now .cancel).closedDeals = s.closedDeals ++ [e] ∧
    e.id = d.id ∧ e.pnlBtc = (result takerFee d price now .cancel).pnlBtc ∧
      e.pnlPct = (result takerFee d price now .cancel).pnlPct
  ledger : ledgerCall d price now .cancel =
    .closeDeal d.id price .cancelled (result takerFee d price now .cancel).pnlBtc
      (result takerFee d price now .cancel).pnlPct now .cancelled

/-- The deal cannot gain or lose at the price. -/
def BreaksEven : Prop :=
  d.orders = [] ∨ d.avgEntryPrice ≤ 0 ∨ price = d.avgEntryPrice ∨ d.leverage = 0

theorem totalSize_ne_zero (h : 0 < d.avgEntryPrice) : d.totalSize ≠ 0 := by
  intro hzero
  unfold PaperDeal.avgEntryPrice at h
  split at h
  · exact lt_irrefl 0 h
  · rw [hzero, div_zero] at h
    exact lt_irrefl 0 h

theorem calculatePnl_zero_iff (hp : 0 < price) :
    (d.calculatePnl price).1 = 0 ↔ BreaksEven d price := by
  unfold BreaksEven
  by_cases ho : d.orders = []
  · simp [PaperDeal.calculatePnl, ho]
  by_cases havg : d.avgEntryPrice ≤ 0
  · simp [PaperDeal.calculatePnl, havg]
  have hsize := totalSize_ne_zero d (not_le.mp havg)
  have hproduct : ∀ move : ℚ, d.totalSize * move / price * d.leverage = 0 ↔
      move = 0 ∨ d.leverage = 0 := by
    intro move
    simp [hsize, hp.ne']
  cases hside : d.side with
  | long =>
    simp only [PaperDeal.calculatePnl, ho, havg, not_le.mpr hp, hside, or_self, false_or,
      if_false, hproduct, sub_eq_zero]
  | short =>
    simp only [PaperDeal.calculatePnl, ho, havg, not_le.mpr hp, hside, or_self, false_or,
      if_false, hproduct, sub_eq_zero]
    rw [eq_comm]

theorem calculatePnl_pct_zero (h : (d.calculatePnl price).1 = 0) : (d.calculatePnl price).2 = 0 := by
  unfold PaperDeal.calculatePnl at h ⊢
  split
  · rfl
  · rename_i hguard
    rw [if_neg hguard] at h
    split
    · rfl
    · rename_i havg
      rw [if_neg havg] at h
      simp only at h ⊢
      rw [h]
      simp

/-- A cancel realises nothing exactly when the deal breaks even at the price. -/
theorem nothingRealised_iff (hd : s.openDeals.get? d.id = some d) (hp : 0 < price) :
    NothingRealised takerFee s d price now ↔ BreaksEven d price := by
  have hstate := actState_eq takerFee s d price now .cancel hd
  have hpnl := PaperDeal.calculatePnl_congr { d with exitTrigger := some .cancelled } d price
    rfl rfl rfl
  rw [← calculatePnl_zero_iff d price hp]
  constructor
  · intro h
    have hbalance := h.balance
    rw [hstate] at hbalance
    simp only at hbalance
    linarith
  · intro h
    have hpct := calculatePnl_pct_zero d price h
    refine ⟨?_, ⟨closedDeal d price now .cancel, ?_, rfl, ?_, ?_⟩, rfl⟩
    · rw [hstate]
      simp only [h]
      ring
    · rw [hstate]
    · show (PaperDeal.calculatePnl { d with exitTrigger := some .cancelled } price).1 = 0
      rw [hpnl]
      exact h
    · show (PaperDeal.calculatePnl { d with exitTrigger := some .cancelled } price).2 = 0
      rw [hpnl]
      exact hpct

/-- A long deal of one order at 100. -/
def dealAtHundred : PaperDeal :=
  PaperDeal.postInit
    { id := "202501010000-0001", botName := "cancel", symbol := "BTC/USD", side := .long
      leverage := 1, orders := [⟨1, 100, 1 / 100, 0, .base⟩], openedAt := 0 }

/-- An account with that deal open. -/
def openedAtHundred : PaperState := (PaperState.init 1).openDeal dealAtHundred

/-- Cancelled at its entry price. -/
theorem nothingRealised_at_entry :
    NothingRealised (6 / 10000) openedAtHundred dealAtHundred 100 1 ↔
      BreaksEven dealAtHundred 100 :=
  nothingRealised_iff (6 / 10000) openedAtHundred dealAtHundred 100 1 (by decide +kernel)
    (by norm_num)

/-- Cancelled at 110, the deal adds to the balance. -/
theorem not_nothingRealised :
    ¬ ∀ (takerFee : ℚ) (s : PaperState) (d : PaperDeal) (price : ℚ) (now : Instant),
      s.openDeals.get? d.id = some d → 0 < price → NothingRealised takerFee s d price now := by
  intro h
  have hbalance := (h (6 / 10000) openedAtHundred dealAtHundred 110 1 (by decide +kernel)
    (by norm_num)).balance
  revert hbalance
  decide +kernel

end DealCloseHandler

end Reverto
