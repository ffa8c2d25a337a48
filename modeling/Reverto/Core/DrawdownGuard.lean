import Mathlib.Tactic
import Reverto.Config.Models
import Reverto.Lib.Decimal

/-!
# Drawdown guard (core/drawdown_guard.py)
-/

namespace Reverto

/-- `trigger_reason`: the two numbers of its text. -/
structure DrawdownReason where
  drawdownPct : ℚ
  maxDrawdownPct : ℚ
  deriving DecidableEq, Repr

/-- `DrawdownGuard` without its config, and the dict of `to_dict`. -/
structure DrawdownGuard where
  peakValue : Option ℚ := none
  triggered : Bool := false
  triggerReason : Option DrawdownReason := none
  deriving DecidableEq, Repr

namespace DrawdownGuard

/-- `update`; the guard is (or has become) triggered when `triggered` holds after it. -/
def update (cfg : DrawdownGuardConfig) (g : DrawdownGuard) (currentValue : ℚ) : DrawdownGuard :=
  if !cfg.enabled then g
  else if g.triggered then g
  else match g.peakValue with
    | none => { g with peakValue := some currentValue }
    | some peak =>
      if peak < currentValue then { g with peakValue := some currentValue }
      else if peak ≤ 0 then g
      else
        let drawdownPct := (peak - currentValue) / peak * 100
        if cfg.maxDrawdownPct ≤ drawdownPct then
          { g with
            triggered := true
            triggerReason := some ⟨Decimal.roundTo 2 drawdownPct, cfg.maxDrawdownPct⟩ }
        else g

/-- `reset` -/
def reset : DrawdownGuard := {}

/-- A guard fed with a sequence of readings. -/
def updates (cfg : DrawdownGuardConfig) (g : DrawdownGuard) (values : List ℚ) : DrawdownGuard :=
  values.foldl (update cfg) g

@[simp] theorem updates_nil (cfg : DrawdownGuardConfig) (g : DrawdownGuard) :
    g.updates cfg [] = g := rfl

theorem updates_append_one (cfg : DrawdownGuardConfig) (g : DrawdownGuard) (vs : List ℚ) (v : ℚ) :
    g.updates cfg (vs ++ [v]) = (g.updates cfg vs).update cfg v := by
  simp [updates]

theorem update_disabled (cfg : DrawdownGuardConfig) (g : DrawdownGuard) (v : ℚ)
    (h : cfg.enabled = false) : g.update cfg v = g := by
  simp [update, h]

/-- Once triggered the guard ignores every further reading. -/
theorem update_triggered (cfg : DrawdownGuardConfig) (g : DrawdownGuard) (v : ℚ)
    (h : g.triggered = true) : g.update cfg v = g := by
  unfold update
  rw [h]
  split <;> rfl

theorem update_keeps_triggered (cfg : DrawdownGuardConfig) (g : DrawdownGuard) (v : ℚ)
    (h : g.triggered = true) : (g.update cfg v).triggered = true := by
  rw [update_triggered cfg g v h]
  exact h

/-- The reason aside, guards that agree read alike. -/
theorem update_agrees (cfg : DrawdownGuardConfig) (g g' : DrawdownGuard) (value : ℚ)
    (h : g.triggered = g'.triggered ∧ g.peakValue = g'.peakValue) :
    (g.update cfg value).triggered = (g'.update cfg value).triggered ∧
      (g.update cfg value).peakValue = (g'.update cfg value).peakValue := by
  obtain ⟨htriggered, hpeak⟩ := h
  unfold update
  rw [htriggered, hpeak]
  split
  · exact ⟨htriggered, hpeak⟩
  split
  · exact ⟨htriggered, hpeak⟩
  cases g'.peakValue with
  | none => exact ⟨rfl, rfl⟩
  | some peak =>
    dsimp only
    split
    · exact ⟨rfl, rfl⟩
    split
    · exact ⟨htriggered, hpeak⟩
    split
    · exact ⟨rfl, rfl⟩
    · exact ⟨htriggered, hpeak⟩

/-- A reading that no peak exceeds becomes the peak. -/
theorem update_peak (cfg : DrawdownGuardConfig) (g : DrawdownGuard) (value : ℚ)
    (henabled : cfg.enabled = true) (htriggered : g.triggered = false)
    (hpeak : ∀ peak, g.peakValue = some peak → peak ≤ value) :
    (g.update cfg value).triggered = false ∧ (g.update cfg value).peakValue = some value := by
  unfold update
  simp only [henabled, htriggered, Bool.not_true, Bool.false_eq_true, if_false]
  cases hp : g.peakValue with
  | none => exact ⟨rfl, rfl⟩
  | some peak =>
    rcases lt_or_eq_of_le (hpeak peak hp) with hlt | rfl
    · dsimp only
      rw [if_pos hlt]
      exact ⟨rfl, rfl⟩
    · have hdrawdown : ¬ cfg.maxDrawdownPct ≤ (peak - peak) / peak * 100 := by
        have hpos := cfg.maxDrawdownPct_pos
        simp [hpos]
      dsimp only
      rw [if_neg (lt_irrefl peak), if_neg hdrawdown, ite_self]
      exact ⟨htriggered, hp⟩

end DrawdownGuard

end Reverto
