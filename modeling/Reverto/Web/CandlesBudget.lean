import Mathlib.Tactic
import Reverto.Core.RateBudget

/-!
# The budget check of the candles endpoint (web/routes/chart.py, api_candles)

The clamp on `limit` and the budget it is charged to. The bucket holds 10000 points
at most, the clamp lets 300000 through.
-/

namespace Reverto

namespace CostBudget

open TokenBucket

variable (c : CostBudget)

/-- `_state` after a sequence of calls on a new budget. -/
def stateAfter (calls : List BudgetCall) : BudgetState :=
  (Program.runAll c.program calls fun _ => none).2

/-- From some time on, a call of this cost is granted. -/
def GrantedAfterIdle (key : String) (cost : ℚ) (state : BudgetState) : Prop :=
  ∃ wait, ∀ now, wait ≤ now → (c.consume key cost now state).1 = true

/-- The bucket a call meets. -/
def bucketAt (key : String) (now : ℚ) (state : BudgetState) : Bucket ℚ :=
  (state key).getD ⟨now, c.budget⟩

theorem consume_granted_iff (key : String) (cost now : ℚ) (state : BudgetState) (hcost : 0 < cost) :
    (c.consume key cost now state).1 = true ↔
      cost ≤ level c.budget c.refillRate (c.bucketAt key now state) now := by
  rw [consume_take c key cost now state (not_le.mpr hcost)]
  exact take_granted_iff c.budget c.refillRate (c.bucketAt key now state) now cost

/-- Waiting helps exactly the calls that a full bucket can pay for. -/
theorem grantedAfterIdle_iff (hrate : 0 < c.refillRate) (key : String) (cost : ℚ)
    (state : BudgetState) (hcost : 0 < cost) :
    c.GrantedAfterIdle key cost state ↔ cost ≤ c.budget := by
  constructor
  · intro h
    obtain ⟨wait, hgranted⟩ := h
    have hnow := (consume_granted_iff c key cost wait state hcost).mp (hgranted wait le_rfl)
    exact hnow.trans (level_le _ _ _ _)
  · intro hle
    cases hb : state key with
    | none =>
      refine ⟨0, fun now _ => (consume_granted_iff c key cost now state hcost).mpr ?_⟩
      have hnew : c.bucketAt key now state = ⟨now, c.budget⟩ := by rw [bucketAt, hb]; rfl
      rw [hnew, level_full c.budget c.refillRate hrate.le now now]
      exact hle
    | some b =>
      refine ⟨b.stamp + (cost - b.remaining) / c.refillRate, fun now hnow =>
        (consume_granted_iff c key cost now state hcost).mpr ?_⟩
      have hkept : c.bucketAt key now state = b := by rw [bucketAt, hb]; rfl
      rw [hkept]
      exact le_level c.budget c.refillRate hrate b cost now hle hnow

end CostBudget

namespace CandlesRoute

/-- `_CANDLES_MAX_BARS` -/
def candlesMaxBars : ℤ := 300000

/-- `limit` as `api_candles` clamps it. -/
def clampLimit (limit : ℤ) : ℤ :=
  let limit := if limit < 100 then 100 else limit
  if candlesMaxBars < limit then candlesMaxBars else limit

/-- `budget_key` -/
def budgetKey (userId : ℤ) : String := s!"user:{userId}"

/-- A request of the user with this limit is granted once the user has been idle long enough. -/
def NotStarved (userId limit : ℤ) (calls : List BudgetCall) : Prop :=
  CostBudget.candles.GrantedAfterIdle (budgetKey userId) (clampLimit limit)
    (CostBudget.candles.stateAfter calls)

theorem clampLimit_pos (limit : ℤ) : 0 < clampLimit limit := by
  unfold clampLimit candlesMaxBars
  dsimp only
  split
  · omega
  · split
    · omega
    · omega

theorem clampLimit_le_iff (limit : ℤ) : clampLimit limit ≤ 10000 ↔ limit ≤ 10000 := by
  unfold clampLimit candlesMaxBars
  dsimp only
  split
  · split
    · omega
    · omega
  · split
    · omega
    · omega

theorem grantedAfterIdle_candles (key : String) (limit : ℤ) (state : BudgetState) :
    CostBudget.candles.GrantedAfterIdle key (clampLimit limit) state ↔ limit ≤ 10000 := by
  have hrate : 0 < CostBudget.candles.refillRate := by norm_num [CostBudget.candles]
  have hcost : (0 : ℚ) < clampLimit limit := by exact_mod_cast clampLimit_pos limit
  have hbudget : ((clampLimit limit : ℤ) : ℚ) ≤ CostBudget.candles.budget ↔ clampLimit limit ≤ 10000 := by
    rw [show CostBudget.candles.budget = ((10000 : ℤ) : ℚ) by norm_num [CostBudget.candles]]
    exact Int.cast_le
  rw [CostBudget.grantedAfterIdle_iff CostBudget.candles hrate key _ state hcost, hbudget,
    clampLimit_le_iff]

/-- After any calls, the requests the shared budget grants at last are those for at most
10000 candles. -/
theorem notStarved_iff (userId limit : ℤ) (calls : List BudgetCall) :
    NotStarved userId limit calls ↔ limit ≤ 10000 :=
  grantedAfterIdle_candles (budgetKey userId) limit (CostBudget.candles.stateAfter calls)

/-- The largest request the clamp lets through waits for ever, on a budget nobody has used. -/
theorem starved_largest : ¬ NotStarved 1 300000 [] := by
  intro h
  have hle := (grantedAfterIdle_candles (budgetKey 1) 300000 (CostBudget.candles.stateAfter [])).mp h
  omega

end CandlesRoute

end Reverto
