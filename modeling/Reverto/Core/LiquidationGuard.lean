import Mathlib.Tactic
import Reverto.Config.Models
import Reverto.Lib.Decimal

/-!
# Liquidation price (core/liquidation_guard.py)
-/

namespace Reverto

/-- `MAINTENANCE_MARGIN_RATE` -/
def maintenanceMarginRate : ℚ := 5 / 1000

/-- `TAKER_FEE` -/
def liquidationTakerFee : ℚ := 6 / 10000

/-- `calculate_liquidation_price`; 0 means no liquidation risk. -/
def calculateLiquidationPrice (entryPrice : ℚ) (leverage : ℕ) (side : Side) : ℚ :=
  if leverage ≤ 1 then 0
  else match side with
    | .long =>
      let liq := entryPrice * (1 - (1 - maintenanceMarginRate) / leverage + liquidationTakerFee)
      if entryPrice ≤ liq then 0 else Decimal.roundTo 2 liq
    | .short =>
      let liq := entryPrice * (1 + (1 - maintenanceMarginRate) / leverage - liquidationTakerFee)
      if liq ≤ entryPrice then 0 else Decimal.roundTo 2 liq

end Reverto
