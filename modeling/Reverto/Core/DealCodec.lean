import Mathlib.Tactic
import Reverto.Core.EngineTwins

/-!
# The codec of deals (paper/state_io.py)

`dict_to_deal` after `deal_to_dict`: the deal that comes back decides every later tick as
the one that was written, and is written as the same document.
-/

namespace Reverto

namespace DealCodec

open TradingEngine

/-- The deal that `dict_to_deal` makes of the document of a deal. -/
def reloaded (d : PaperDeal) (price : ℚ) : PaperDeal := dictToDeal (dealToDict d price)

/-- What entry, DCA, take profit, stop loss, trailing and close decide about two deals. -/
structure DecidesAlike (cfg : BotConfig) (sig : Signals) (d e : PaperDeal) : Prop where
  key : d.id = e.id
  tracked : ∀ price, (trackWick price d).unshown = (trackWick price e).unshown
  takeProfit : ∀ c price, tpVerdict cfg sig c d price = tpVerdict cfg sig c e price
  stopSettings : slSettings cfg d = slSettings cfg e
  peak : ∀ price, newPeak cfg d price = newPeak cfg e price
  stop : ∀ price s, slVerdict cfg d price s = slVerdict cfg e price s
  dca : ∀ price, dcaVerdict cfg d price = dcaVerdict cfg e price
  order : ∀ now price, dcaOrder cfg now d price = dcaOrder cfg now e price
  size : d.totalSize = e.totalSize
  pnl : ∀ price, d.calculatePnl price = e.calculatePnl price
  closed : ∀ price reason now, d.closed price reason now = e.closed price reason now

/-- Nothing is lost on the way to the state file and back. -/
structure RoundTrip (cfg : BotConfig) (sig : Signals) (d : PaperDeal) (price : ℚ) : Prop where
  fields : (reloaded d price).unshown = d.unshown
  decisions : DecidesAlike cfg sig (reloaded d price) d
  closedPnl : d.isOpen = false → (reloaded d price).pnlBtc = Decimal.roundTo 8 d.pnlBtc ∧
    (reloaded d price).pnlPct = Decimal.roundTo 4 d.pnlPct
  document : dealToDict (reloaded d price) price = dealToDict d price

/-- Every decision reads what `unshown` keeps. -/
theorem decidesAlike_of_unshown (cfg : BotConfig) (sig : Signals) (d e : PaperDeal)
    (h : d.unshown = e.unshown) : DecidesAlike cfg sig d e where
  key := unshown_id_eq d e h
  tracked price := by
    show trackWick price d.unshown = trackWick price e.unshown
    rw [h]
  takeProfit c price := unshown_tpVerdict cfg sig c d e h price
  stopSettings := unshown_slSettings cfg d e h
  peak price := unshown_newPeak cfg d e h price
  stop price s := unshown_slVerdict cfg d e h price s
  dca price := unshown_dcaVerdict cfg d e h price
  order now price := unshown_dcaOrder cfg now d e h price
  size := unshown_totalSize d e h
  pnl price := unshown_calculatePnl d e h price
  closed price reason now := by
    show d.unshown.closed price reason now = e.unshown.closed price reason now
    rw [h]

theorem shownPnl_reloaded (d : PaperDeal) (price : ℚ) :
    (Decimal.roundTo 8 ((reloaded d price).shownPnl price).1,
        Decimal.roundTo 4 ((reloaded d price).shownPnl price).2) =
      (Decimal.roundTo 8 (d.shownPnl price).1, Decimal.roundTo 4 (d.shownPnl price).2) := by
  by_cases hopen : d.isOpen = false
  · have hd := shownPnl_closed d price hopen
    have hr := shownPnl_closed (reloaded d price) price hopen
    rw [hr]
    simp only [reloaded, dictToDeal_dealToDict, Decimal.roundTo_roundTo]
  · have hpnl : (reloaded d price).calculatePnl price = d.calculatePnl price := rfl
    have hshown : (reloaded d price).shownPnl price = d.shownPnl price := by
      have hr : ¬ (reloaded d price).isOpen = false := hopen
      rw [PaperDeal.shownPnl, PaperDeal.shownPnl, if_neg hopen, if_neg hr, hpnl]
    rw [hshown]

/-- The codec keeps every deal, open or closed, whatever the price it is shown at. -/
theorem roundTrip (cfg : BotConfig) (sig : Signals) (d : PaperDeal) (price : ℚ) :
    RoundTrip cfg sig d price where
  fields := rfl
  decisions := decidesAlike_of_unshown cfg sig (reloaded d price) d rfl
  closedPnl hclosed := by
    rw [reloaded, dictToDeal_dealToDict, shownPnl_closed d price hclosed]
    exact ⟨rfl, rfl⟩
  document := by
    obtain ⟨hbtc, hpct⟩ := Prod.mk.inj (shownPnl_reloaded d price)
    have hrest : dealToDict (reloaded d price) price =
        { dealToDict d price with
          pnlBtc := Decimal.roundTo 8 ((reloaded d price).shownPnl price).1
          pnlPct := Decimal.roundTo 4 ((reloaded d price).shownPnl price).2 } := rfl
    rw [hrest, hbtc, hpct]
    rfl

end DealCodec

end Reverto
