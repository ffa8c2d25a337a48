import Mathlib.Tactic
import Reverto.Core.LiquidationGuard

/-!
# Liquidation warnings (core/liquidation_guard.py)

The level `_check_position` gives a position. The distance to the liquidation price
is an absolute value, so a position that has gone through its liquidation price
gets farther from it again.
-/

namespace Reverto

namespace LiquidationWarnings

/-- A position dict of `update_positions`. -/
structure Position where
  dealId : String
  symbol : String
  side : Side
  entryPrice : ℚ
  markPrice : ℚ
  leverage : ℕ
  deriving DecidableEq

/-- The levels in `_warned`. -/
inductive WarningLevel where
  | warn
  | emergency
  deriving DecidableEq

/-- A call of the notifier, after the bot's name. -/
inductive Notice where
  | liquidationEmergency (symbol : String) (distance : ℚ)
  | liquidationWarning (symbol : String) (markPrice liqPrice distance : ℚ)
  deriving DecidableEq

/-- The liquidation price `_check_position` compares with. -/
def liqPrice (pos : Position) : ℚ :=
  calculateLiquidationPrice pos.entryPrice pos.leverage pos.side

/-- The distance in percent of the mark price. -/
def distance (pos : Position) : ℚ :=
  Decimal.roundTo 2 (|pos.markPrice - liqPrice pos| / pos.markPrice * 100)

variable (guard : LiquidationGuardConfig)

/-- `_check_position` on the levels given so far. -/
def checkPosition (warned : String → Option WarningLevel) (pos : Position) :
    (String → Option WarningLevel) × List Notice :=
  if pos.leverage ≤ 1 then (warned, [])
  else if pos.markPrice ≤ 0 then (warned, [])
  else if liqPrice pos ≤ 0 then (warned, [])
  else if distance pos ≤ guard.emergencyClosePct then
    if warned pos.dealId = some .emergency then (warned, [])
    else (Function.update warned pos.dealId (some .emergency),
      [.liquidationEmergency pos.symbol (distance pos)])
  else if distance pos ≤ guard.warnPct then
    if warned pos.dealId = none then (Function.update warned pos.dealId (some .warn),
      [.liquidationWarning pos.symbol pos.markPrice (liqPrice pos) (distance pos)])
    else (warned, [])
  else (Function.update warned pos.dealId none, [])

/-- The level a position gets that had none. -/
def level (pos : Position) : Option WarningLevel :=
  (checkPosition guard (fun _ => none) pos).1 pos.dealId

/-- Severity as a number. -/
def severity : Option WarningLevel → ℕ
  | none => 0
  | some .warn => 1
  | some .emergency => 2

/-- `p` is at least as adverse as `q` for a position of the side. -/
def AtLeastAsAdverse (side : Side) (p q : ℚ) : Prop :=
  match side with
  | .long => p ≤ q
  | .short => q ≤ p

/-- The mark price is at or past a liquidation price. -/
def AtOrBeyond (pos : Position) : Prop :=
  0 < liqPrice pos ∧ AtLeastAsAdverse pos.side pos.markPrice (liqPrice pos)

/-- No less adverse mark price has a more severe level, and at or past the
liquidation price the level is the emergency level. -/
def SeverityHolds (pos : Position) : Prop :=
  (∀ q, AtLeastAsAdverse pos.side pos.markPrice q →
    severity (level guard { pos with markPrice := q }) ≤ severity (level guard pos)) ∧
  (AtOrBeyond pos → level guard pos = some .emergency)

/-! ### The level as a function of the distance -/

/-- The level of a distance. -/
def levelOf (d : ℚ) : Option WarningLevel :=
  if d ≤ guard.emergencyClosePct then some .emergency
  else if d ≤ guard.warnPct then some .warn
  else none

theorem severity_levelOf_anti (d d' : ℚ) (h : d ≤ d') :
    severity (levelOf guard d') ≤ severity (levelOf guard d) := by
  unfold levelOf
  by_cases hd' : d' ≤ guard.emergencyClosePct
  · rw [if_pos hd', if_pos (h.trans hd')]
  · rw [if_neg hd']
    by_cases hwarn : d' ≤ guard.warnPct
    · rw [if_pos hwarn, if_pos (h.trans hwarn)]
      split <;> simp [severity]
    · rw [if_neg hwarn]
      exact Nat.zero_le _

theorem severity_le_emergency (l : Option WarningLevel) :
    severity l ≤ severity (some .emergency) := by
  cases l with
  | none => exact Nat.zero_le _
  | some l =>
    cases l with
    | warn => decide
    | emergency => exact le_refl _

/-- A position is watched when it has a mark price and a liquidation price. -/
theorem level_watched (pos : Position) (hlev : 1 < pos.leverage) (hmark : 0 < pos.markPrice)
    (hliq : 0 < liqPrice pos) : level guard pos = levelOf guard (distance pos) := by
  unfold level checkPosition levelOf
  rw [if_neg (not_le.mpr hlev), if_neg (not_le.mpr hmark), if_neg (not_le.mpr hliq)]
  by_cases hemergency : distance pos ≤ guard.emergencyClosePct
  · simp [if_pos hemergency]
  · by_cases hwarn : distance pos ≤ guard.warnPct
    · simp [if_neg hemergency, if_pos hwarn]
    · simp [if_neg hemergency, if_neg hwarn]

theorem level_unwatched (pos : Position)
    (h : pos.leverage ≤ 1 ∨ pos.markPrice ≤ 0 ∨ liqPrice pos ≤ 0) : level guard pos = none := by
  unfold level checkPosition
  split_ifs with hlev hmark hliq <;> first | rfl | skip
  all_goals
    rcases h with h | h | h
    · exact absurd h hlev
    · exact absurd h hmark
    · exact absurd h hliq

/-- What a check leaves of the levels given before: an emergency stays one until the
position is safe again. -/
theorem checkPosition_recorded (warned : String → Option WarningLevel) (pos : Position)
    (hlev : 1 < pos.leverage) (hmark : 0 < pos.markPrice) (hliq : 0 < liqPrice pos) :
    (checkPosition guard warned pos).1 pos.dealId =
      match levelOf guard (distance pos) with
      | none => none
      | some .emergency => some .emergency
      | some .warn => some ((warned pos.dealId).getD .warn) := by
  unfold checkPosition levelOf
  rw [if_neg (not_le.mpr hlev), if_neg (not_le.mpr hmark), if_neg (not_le.mpr hliq)]
  by_cases hemergency : distance pos ≤ guard.emergencyClosePct
  · simp only [if_pos hemergency]
    split
    · assumption
    · simp
  · by_cases hwarn : distance pos ≤ guard.warnPct
    · simp only [if_neg hemergency, if_pos hwarn]
      cases hlast : warned pos.dealId with
      | none => simp
      | some last => simp [hlast]
    · simp [if_neg hemergency, if_neg hwarn]

/-! ### Before the liquidation price -/

/-- Towards the liquidation price the distance shrinks. -/
theorem distance_anti (pos : Position) (q : ℚ) (hmark : 0 < pos.markPrice)
    (hliq : 0 < liqPrice pos) (hbefore : ¬ AtOrBeyond pos)
    (h : AtLeastAsAdverse pos.side pos.markPrice q) (hq : 0 < q) :
    distance pos ≤ distance { pos with markPrice := q } := by
  have hside : ¬ AtLeastAsAdverse pos.side pos.markPrice (liqPrice pos) :=
    fun hadverse => hbefore ⟨hliq, hadverse⟩
  have hsame : liqPrice { pos with markPrice := q } = liqPrice pos := rfl
  unfold distance
  rw [hsame]
  apply Decimal.roundTo_mono
  apply mul_le_mul_of_nonneg_right _ (by norm_num)
  cases hs : pos.side with
  | long =>
    simp only [AtLeastAsAdverse, hs, not_le] at hside h
    rw [abs_of_nonneg (by linarith), abs_of_nonneg (by linarith), div_le_div_iff₀ hmark hq]
    nlinarith
  | short =>
    simp only [AtLeastAsAdverse, hs, not_le] at hside h
    rw [abs_of_nonpos (by linarith), abs_of_nonpos (by linarith), div_le_div_iff₀ hmark hq]
    nlinarith

theorem levelOf_emergency_iff (d : ℚ) :
    levelOf guard d = some .emergency ↔ d ≤ guard.emergencyClosePct := by
  unfold levelOf
  split_ifs with hemergency <;> simp [hemergency]

theorem one_lt_leverage (pos : Position) (hliq : 0 < liqPrice pos) : 1 < pos.leverage := by
  by_contra hlev
  have hzero : liqPrice pos = 0 := by
    simp only [liqPrice, calculateLiquidationPrice, if_pos (not_lt.mp hlev)]
  rw [hzero] at hliq
  exact lt_irrefl 0 hliq

/-- The severity is as it should be unless the position is past its liquidation price
by more than the emergency percentage. -/
theorem severityHolds_iff (pos : Position) (hmark : 0 < pos.markPrice) :
    SeverityHolds guard pos ↔ (AtOrBeyond pos → distance pos ≤ guard.emergencyClosePct) := by
  constructor
  · intro h hbeyond
    have hlevel := h.2 hbeyond
    rw [level_watched guard pos (one_lt_leverage pos hbeyond.1) hmark hbeyond.1] at hlevel
    exact (levelOf_emergency_iff guard (distance pos)).mp hlevel
  · intro h
    by_cases hbeyond : AtOrBeyond pos
    · have hlevel : level guard pos = some .emergency := by
        rw [level_watched guard pos (one_lt_leverage pos hbeyond.1) hmark hbeyond.1]
        exact (levelOf_emergency_iff guard (distance pos)).mpr (h hbeyond)
      refine ⟨fun q _ => ?_, fun _ => hlevel⟩
      rw [hlevel]
      exact severity_le_emergency _
    · refine ⟨fun q hq => ?_, fun hb => absurd hb hbeyond⟩
      by_cases hwatched : 0 < liqPrice pos ∧ 0 < q
      · obtain ⟨hliq, hqpos⟩ := hwatched
        have hlev := one_lt_leverage pos hliq
        rw [level_watched guard pos hlev hmark hliq,
          level_watched guard { pos with markPrice := q } hlev hqpos hliq]
        exact severity_levelOf_anti guard _ _ (distance_anti pos q hmark hliq hbeyond hq hqpos)
      · have hnone : level guard { pos with markPrice := q } = none := by
          apply level_unwatched
          by_cases hliq : 0 < liqPrice pos
          · exact .inr (.inl (not_lt.mp fun hqpos => hwatched ⟨hliq, hqpos⟩))
          · exact .inr (.inr (not_lt.mp hliq))
        rw [hnone]
        exact Nat.zero_le _

/-- A tenfold long with entry 100 and liquidation price 90.11. -/
def tenfoldLong (markPrice : ℚ) : Position := ⟨"deal", "BTCUSD", .long, 100, markPrice, 10⟩

theorem severityHolds_tenfoldLong : SeverityHolds {} (tenfoldLong 91) :=
  (severityHolds_iff {} (tenfoldLong 91) (by norm_num [tenfoldLong])).mpr (by
    rintro ⟨-, hbeyond⟩
    have hsafe : ¬ (tenfoldLong 91).markPrice ≤ liqPrice (tenfoldLong 91) := by decide +kernel
    exact absurd hbeyond hsafe)

/-- At 70 the position is past its liquidation price and has no level. -/
theorem not_severityHolds_tenfoldLong :
    ¬ ∀ (guard : LiquidationGuardConfig) (pos : Position),
      guard.emergencyClosePct ≤ guard.warnPct → 0 < pos.entryPrice → 1 < pos.leverage →
        0 < pos.markPrice → SeverityHolds guard pos := by
  intro h
  have hlevel := (h {} (tenfoldLong 70) (by norm_num) (by norm_num [tenfoldLong]) (by decide)
    (by norm_num [tenfoldLong])).2
  have hbeyond : AtOrBeyond (tenfoldLong 70) := by
    constructor
    · decide +kernel
    · show (tenfoldLong 70).markPrice ≤ liqPrice (tenfoldLong 70)
      decide +kernel
  have hnone : level {} (tenfoldLong 70) = none := by decide +kernel
  rw [hnone] at hlevel
  cases hlevel hbeyond

end LiquidationWarnings

end Reverto
