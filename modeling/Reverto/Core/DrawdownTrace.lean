import Mathlib.Tactic
import Reverto.Core.DrawdownGuard

/-!
# Traces of the drawdown guard (core/drawdown_guard.py)

The guard follows the peak of its readings one at a time. Over a whole trace it
triggers at the first reading that some reading up to it exceeds by the
threshold, wherever the guard is saved and restored in between.
-/

namespace Reverto

/-- The dict of `to_dict`, as a later version may find it in a state file. -/
structure DrawdownDict where
  peakValue : Option ℚ := none
  triggered : Option Bool := none
  triggerReason : Option DrawdownReason := none
  deriving DecidableEq, Repr

/-- What happens to a guard. -/
inductive DrawdownOp where
  | update (currentValue : ℚ)
  | reset
  /-- `to_dict`, then `from_dict` into a guard with the same configuration. -/
  | reload
  deriving DecidableEq, Repr

namespace DrawdownGuard

/-- `to_dict` -/
def toDict (g : DrawdownGuard) : DrawdownDict := ⟨g.peakValue, some g.triggered, g.triggerReason⟩

/-- `from_dict`; the reason's text is never empty. -/
def fromDict (data : DrawdownDict) : DrawdownGuard :=
  ⟨data.peakValue, data.triggered.getD false, data.triggerReason⟩

@[simp] theorem fromDict_toDict (g : DrawdownGuard) : fromDict g.toDict = g := rfl

variable (cfg : DrawdownGuardConfig)

/-- What `update` returns. -/
def updateResult (g : DrawdownGuard) (currentValue : ℚ) : Bool :=
  cfg.enabled && (g.update cfg currentValue).triggered

/-- The guard after one operation. -/
def perform (g : DrawdownGuard) : DrawdownOp → DrawdownGuard
  | .update currentValue => g.update cfg currentValue
  | .reset => reset
  | .reload => fromDict g.toDict

/-- A new guard after a sequence of operations. -/
def performed (ops : List DrawdownOp) : DrawdownGuard := ops.foldl (perform cfg) {}

/-- What the updates among the operations return. -/
def results (g : DrawdownGuard) : List DrawdownOp → List Bool
  | [] => []
  | .update currentValue :: ops =>
    g.updateResult cfg currentValue :: results (g.update cfg currentValue) ops
  | .reset :: ops => results reset ops
  | .reload :: ops => results (fromDict g.toDict) ops

/-- The readings since the last reset. -/
def readings (ops : List DrawdownOp) : List ℚ :=
  ops.foldl (fun values op =>
    match op with
    | .update currentValue => values ++ [currentValue]
    | .reset => []
    | .reload => values) []

/-- The drop of a value from a peak reaches the threshold. -/
def Falls (peak value : ℚ) : Prop := 0 < peak ∧ cfg.maxDrawdownPct ≤ (peak - value) / peak * 100

/-- Some value up to index `i` is a peak the value at `i` has fallen from. -/
def FallsAt (values : List ℚ) (i : ℕ) : Prop :=
  ∃ j peak value, j ≤ i ∧ values[j]? = some peak ∧ values[i]? = some value ∧ Falls cfg peak value

/-- The first index at which the values have fallen. -/
def FirstFall (values : List ℚ) (i : ℕ) : Prop :=
  FallsAt cfg values i ∧ ∀ k < i, ¬ FallsAt cfg values k

/-- The guard triggers at the first reading since the last reset that has fallen
from an earlier one, stays triggered until it is reset, and is not affected by
being saved and restored. -/
structure TraceLaw : Prop where
  triggers : ∀ ops currentValue,
    (performed cfg ops).triggered = false ∧
        (performed cfg ops).updateResult cfg currentValue = true ↔
      cfg.enabled = true ∧
        FirstFall cfg (readings ops ++ [currentValue]) (readings ops).length
  latched : ∀ ops currentValue, (performed cfg ops).triggered = true →
    (performed cfg ops).updateResult cfg currentValue = true ∧
      (performed cfg (ops ++ [.update currentValue])).triggered = true
  released : ∀ ops, (performed cfg (ops ++ [.reset])).triggered = false
  restored : ∀ ops later,
    results cfg {} (ops ++ .reload :: later) = results cfg {} (ops ++ later)

/-! ### Falls from the highest value -/

/-- A value that has fallen from some peak has fallen from every higher one. -/
theorem falls_of_le (peak higher value : ℚ) (hle : peak ≤ higher) (h : Falls cfg peak value) :
    Falls cfg higher value := by
  obtain ⟨hpos, hdrop⟩ := h
  have hhigher : 0 < higher := hpos.trans_le hle
  refine ⟨hhigher, ?_⟩
  have hpct := cfg.maxDrawdownPct_le
  rcases le_or_gt 0 value with hvalue | hvalue
  · have hratio : value / higher ≤ value / peak := div_le_div_of_nonneg_left hvalue hpos hle
    have hpeak : (peak - value) / peak = 1 - value / peak := by rw [sub_div, div_self hpos.ne']
    have hhigh : (higher - value) / higher = 1 - value / higher := by
      rw [sub_div, div_self hhigher.ne']
    rw [hpeak] at hdrop
    rw [hhigh]
    linarith
  · -- below zero the drop is more than the whole peak
    have hwhole : 1 ≤ (higher - value) / higher := by
      rw [le_div_iff₀ hhigher]
      linarith
    linarith

theorem not_falls_self (value : ℚ) : ¬ Falls cfg value value := by
  rintro ⟨-, hdrop⟩
  have hpos := cfg.maxDrawdownPct_pos
  rw [sub_self, zero_div, zero_mul] at hdrop
  linarith

theorem lt_of_falls (peak value : ℚ) (h : Falls cfg peak value) : value < peak := by
  by_contra hle
  exact not_falls_self cfg value (falls_of_le cfg peak value value (not_lt.mp hle) h)

theorem fallsAt_old (values : List ℚ) (value : ℚ) (i : ℕ) (hi : i < values.length) :
    FallsAt cfg (values ++ [value]) i ↔ FallsAt cfg values i := by
  simp only [FallsAt]
  constructor
  · rintro ⟨j, peak, v, hj, hpeak, hv, hfalls⟩
    rw [List.getElem?_append_left (hj.trans_lt hi)] at hpeak
    rw [List.getElem?_append_left hi] at hv
    exact ⟨j, peak, v, hj, hpeak, hv, hfalls⟩
  · rintro ⟨j, peak, v, hj, hpeak, hv, hfalls⟩
    refine ⟨j, peak, v, hj, ?_, ?_, hfalls⟩
    · rw [List.getElem?_append_left (hj.trans_lt hi)]
      exact hpeak
    · rw [List.getElem?_append_left hi]
      exact hv

theorem fallsAt_last (values : List ℚ) (value : ℚ) :
    FallsAt cfg (values ++ [value]) values.length ↔ ∃ peak ∈ values, Falls cfg peak value := by
  constructor
  · rintro ⟨j, peak, v, -, hpeak, hv, hfalls⟩
    rw [List.getElem?_concat_length] at hv
    cases hv
    rcases List.mem_append.mp (List.mem_of_getElem? hpeak) with hmem | hmem
    · exact ⟨peak, hmem, hfalls⟩
    · rw [List.mem_singleton.mp hmem] at hfalls
      exact absurd hfalls (not_falls_self cfg value)
  · rintro ⟨peak, hmem, hfalls⟩
    obtain ⟨j, hj, hpeak⟩ := List.mem_iff_getElem.mp hmem
    refine ⟨j, peak, value, hj.le, ?_, List.getElem?_concat_length, hfalls⟩
    rw [List.getElem?_append_left hj, List.getElem?_eq_getElem hj, hpeak]

/-! ### One operation and a trace -/

/-- The peak is the highest reading. -/
def PeakOf (peak : Option ℚ) (values : List ℚ) : Prop :=
  match peak with
  | none => values = []
  | some p => p ∈ values ∧ ∀ v ∈ values, v ≤ p

/-- An enabled guard against the readings since its last reset. -/
structure Tracks (g : DrawdownGuard) (values : List ℚ) : Prop where
  triggered : g.triggered = true ↔ ∃ i < values.length, FallsAt cfg values i
  peak : g.triggered = false → PeakOf g.peakValue values

theorem fallen_concat (values : List ℚ) (value : ℚ) :
    (∃ i < (values ++ [value]).length, FallsAt cfg (values ++ [value]) i) ↔
      (∃ i < values.length, FallsAt cfg values i) ∨ ∃ peak ∈ values, Falls cfg peak value := by
  rw [← fallsAt_last cfg values value, List.length_append, List.length_singleton]
  constructor
  · rintro ⟨i, hi, hfalls⟩
    rcases Nat.lt_succ_iff_lt_or_eq.mp hi with hlt | rfl
    · exact .inl ⟨i, hlt, (fallsAt_old cfg values value i hlt).mp hfalls⟩
    · exact .inr hfalls
  · rintro (⟨i, hi, hfalls⟩ | hfalls)
    · exact ⟨i, hi.trans (Nat.lt_succ_self _), (fallsAt_old cfg values value i hi).mpr hfalls⟩
    · exact ⟨values.length, Nat.lt_succ_self _, hfalls⟩

/-- What `update` does to an enabled guard that has not triggered. -/
theorem update_waiting (g : DrawdownGuard) (values : List ℚ) (value : ℚ)
    (henabled : cfg.enabled = true) (hwaits : g.triggered = false)
    (hpeak : PeakOf g.peakValue values) :
    ((g.update cfg value).triggered = true ↔ ∃ peak ∈ values, Falls cfg peak value) ∧
      ((g.update cfg value).triggered = false →
        PeakOf (g.update cfg value).peakValue (values ++ [value])) := by
  cases hp : g.peakValue with
  | none =>
    rw [hp] at hpeak
    obtain rfl : values = [] := hpeak
    have hnext := update_peak cfg g value henabled hwaits (by rw [hp]; intro peak h; cases h)
    rw [hnext.1, hnext.2]
    refine ⟨by simp, fun _ => ?_⟩
    simp [PeakOf]
  | some peak =>
    rw [hp] at hpeak
    obtain ⟨hmem, hmax⟩ := hpeak
    rcases le_or_gt peak value with hle | hlt
    · -- a reading no earlier one exceeds becomes the peak
      have hnext := update_peak cfg g value henabled hwaits
        (by rw [hp]; intro p h; cases h; exact hle)
      rw [hnext.1, hnext.2]
      refine ⟨?_, fun _ => ?_⟩
      · simp only [Bool.false_eq_true, false_iff, not_exists, not_and]
        intro p hp' hfalls
        exact absurd (lt_of_falls cfg p value hfalls) (not_lt.mpr ((hmax p hp').trans hle))
      · refine ⟨List.mem_append_right _ (List.mem_singleton_self value), fun v hv => ?_⟩
        rcases List.mem_append.mp hv with hv | hv
        · exact (hmax v hv).trans hle
        · exact (List.mem_singleton.mp hv).le
    · have hfalls : (∃ p ∈ values, Falls cfg p value) ↔ Falls cfg peak value := by
        constructor
        · rintro ⟨p, hp', h⟩
          exact falls_of_le cfg p peak value (hmax p hp') h
        · intro h
          exact ⟨peak, hmem, h⟩
      have hkept : PeakOf (some peak) (values ++ [value]) := by
        refine ⟨List.mem_append_left _ hmem, fun v hv => ?_⟩
        rcases List.mem_append.mp hv with hv | hv
        · exact hmax v hv
        · exact (List.mem_singleton.mp hv).le.trans hlt.le
      rw [hfalls, Falls]
      simp only [update, henabled, hwaits, hp, Bool.not_true, Bool.false_eq_true, if_false]
      rw [if_neg (not_lt.mpr hlt.le)]
      split
      · next hzero =>
        refine ⟨?_, fun _ => by rw [hp]; exact hkept⟩
        rw [hwaits]
        simp [hzero]
      · next hpos =>
        split
        · next hdrop => exact ⟨by simp [not_le.mp hpos, hdrop], fun h => by cases h⟩
        · next hdrop =>
          refine ⟨?_, fun _ => by rw [hp]; exact hkept⟩
          rw [hwaits]
          simp [hdrop]

theorem tracks_update (g : DrawdownGuard) (values : List ℚ) (value : ℚ)
    (henabled : cfg.enabled = true) (h : Tracks cfg g values) :
    Tracks cfg (g.update cfg value) (values ++ [value]) := by
  cases ht : g.triggered with
  | true =>
    have hfallen := h.triggered.mp ht
    rw [update_triggered cfg g value ht]
    refine ⟨?_, fun hwaits => by rw [ht] at hwaits; cases hwaits⟩
    rw [fallen_concat]
    exact ⟨fun _ => .inl hfallen, fun _ => ht⟩
  | false =>
    have hnone : ¬ ∃ i < values.length, FallsAt cfg values i := by
      rw [← h.triggered, ht]
      exact Bool.false_ne_true
    obtain ⟨htriggered, hpeak⟩ := update_waiting cfg g values value henabled ht (h.peak ht)
    refine ⟨?_, hpeak⟩
    rw [htriggered, fallen_concat]
    exact ⟨.inr, fun hfallen => hfallen.resolve_left hnone⟩

theorem performed_concat (ops : List DrawdownOp) (op : DrawdownOp) :
    performed cfg (ops ++ [op]) = perform cfg (performed cfg ops) op := by
  simp [performed]

theorem tracks_performed (henabled : cfg.enabled = true) (ops : List DrawdownOp) :
    Tracks cfg (performed cfg ops) (readings ops) := by
  have hnew : Tracks cfg {} [] := ⟨by simp, fun _ => rfl⟩
  induction ops using List.reverseRecOn with
  | nil => exact hnew
  | append_singleton ops op ih =>
    rw [performed_concat]
    cases op with
    | update currentValue =>
      have hreadings : readings (ops ++ [.update currentValue]) =
          readings ops ++ [currentValue] := by simp [readings]
      rw [hreadings]
      exact tracks_update cfg (performed cfg ops) (readings ops) currentValue henabled ih
    | reset =>
      have hreadings : readings (ops ++ [.reset]) = [] := by simp [readings]
      rw [hreadings]
      exact hnew
    | reload =>
      have hreadings : readings (ops ++ [.reload]) = readings ops := by simp [readings]
      rw [hreadings]
      exact ih

theorem results_append (g : DrawdownGuard) (ops later : List DrawdownOp) :
    results cfg g (ops ++ later) = results cfg g ops ++ results cfg (ops.foldl (perform cfg) g) later := by
  induction ops generalizing g with
  | nil => rfl
  | cons op ops ih =>
    cases op with
    | update currentValue =>
      simp only [List.cons_append, results, List.foldl_cons, perform, ih]
    | reset => simp only [List.cons_append, results, List.foldl_cons, perform, ih]
    | reload => simp only [List.cons_append, results, List.foldl_cons, perform, ih]

theorem performed_disabled (hdisabled : cfg.enabled = false) (ops : List DrawdownOp) :
    performed cfg ops = {} := by
  induction ops using List.reverseRecOn with
  | nil => rfl
  | append_singleton ops op ih =>
    rw [performed_concat, ih]
    cases op with
    | update currentValue => exact update_disabled cfg {} currentValue hdisabled
    | reset => rfl
    | reload => rfl

theorem enabled_of_triggered (ops : List DrawdownOp) (h : (performed cfg ops).triggered = true) :
    cfg.enabled = true := by
  cases henabled : cfg.enabled with
  | true => rfl
  | false =>
    rw [performed_disabled cfg henabled ops] at h
    cases h

end DrawdownGuard

end Reverto
