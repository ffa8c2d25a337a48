import Mathlib.Tactic
import Reverto.Config.Models

/-!
# Inverse-perpetual target prices (core/inverse_perp_math.py)
-/

namespace Reverto

/-- The exceptions a tick of the engine can meet. -/
inductive PyError where
  | zeroDivisionError
  | indexError
  | exchangeError
  | indicatorError
  | keyError
  deriving DecidableEq, Repr

/-- `a / b` on floats. -/
def pyDiv (a b : ℚ) : Except PyError ℚ :=
  if b = 0 then .error .zeroDivisionError else .ok (a / b)

/-- `compute_tp_target_price` -/
def computeTpTargetPrice (avgEntry tpPct : ℚ) : Side → Except PyError ℚ
  | .long => pyDiv avgEntry (1 - tpPct / 100)
  | .short => pyDiv avgEntry (1 + tpPct / 100)

/-- `compute_sl_target_price` -/
def computeSlTargetPrice (avgEntry slPct : ℚ) : Side → Except PyError ℚ
  | .long => pyDiv avgEntry (1 + slPct / 100)
  | .short => pyDiv avgEntry (1 - slPct / 100)

theorem pyDiv_ok (a b : ℚ) (h : b ≠ 0) : pyDiv a b = .ok (a / b) := by
  simp [pyDiv, h]

theorem pyDiv_eq_ok (a b t : ℚ) (h : pyDiv a b = .ok t) : b ≠ 0 ∧ t = a / b := by
  unfold pyDiv at h
  split at h
  · cases h
  · rename_i hb
    injection h with h
    exact ⟨hb, h.symm⟩

/-- `value` is at or beyond `target` in the direction a deal of this side gains. -/
def reaches (side : Side) (value target : ℚ) : Bool :=
  match side with
  | .long => decide (target ≤ value)
  | .short => decide (value ≤ target)

end Reverto
