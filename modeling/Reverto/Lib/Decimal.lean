import Mathlib.Tactic
import Mathlib.Data.Rat.Floor
import Mathlib.Algebra.Order.Round

/-!
# Rounding to a number of decimals

`round(x, n)` on exact rationals: the nearest multiple of `10^-n`, and the even
multiple when two are equally near.
-/

namespace Decimal

/-- Nearest integer, ties to even. -/
def roundHalfEven (x : ℚ) : ℤ :=
  if x - ⌊x⌋ < 1 / 2 then ⌊x⌋
  else if 1 / 2 < x - ⌊x⌋ then ⌊x⌋ + 1
  else if ⌊x⌋ % 2 = 0 then ⌊x⌋ else ⌊x⌋ + 1

/-- `round(x, n)` -/
def roundTo (n : ℕ) (x : ℚ) : ℚ := roundHalfEven (x * 10 ^ n) / 10 ^ n

/-- `x` has at most `n` decimals. -/
def HasDecimals (n : ℕ) (x : ℚ) : Prop := ∃ z : ℤ, x * 10 ^ n = z

theorem roundHalfEven_int (z : ℤ) : roundHalfEven z = z := by
  simp [roundHalfEven]

theorem roundHalfEven_near (x : ℚ) : |(roundHalfEven x : ℚ) - x| ≤ 1 / 2 := by
  have h0 := Int.floor_le x
  have h1 := Int.lt_floor_add_one x
  unfold roundHalfEven
  rw [abs_le]
  split
  · constructor <;> linarith
  · split
    · push_cast
      constructor <;> linarith
    · split
      · constructor <;> linarith
      · push_cast
        constructor <;> linarith

theorem roundHalfEven_le (x : ℚ) : roundHalfEven x ≤ ⌊x⌋ + 1 := by
  unfold roundHalfEven
  split_ifs <;> omega

theorem floor_le_roundHalfEven (x : ℚ) : ⌊x⌋ ≤ roundHalfEven x := by
  unfold roundHalfEven
  split_ifs <;> omega

theorem roundHalfEven_mono (x y : ℚ) (h : x ≤ y) : roundHalfEven x ≤ roundHalfEven y := by
  have hfloor := Int.floor_le_floor h
  by_cases hsame : ⌊x⌋ = ⌊y⌋
  · have hfrac : x - ⌊x⌋ ≤ y - ⌊y⌋ := by
      rw [hsame]
      linarith
    unfold roundHalfEven
    rw [← hsame] at hfrac ⊢
    split_ifs <;> first | omega | linarith
  · have hx := roundHalfEven_le x
    have hy := floor_le_roundHalfEven y
    omega

theorem pow_ten_pos (n : ℕ) : (0 : ℚ) < 10 ^ n := by positivity

theorem roundTo_mul (n : ℕ) (x : ℚ) : roundTo n x * 10 ^ n = roundHalfEven (x * 10 ^ n) := by
  have h := (pow_ten_pos n).ne'
  unfold roundTo
  field_simp

theorem roundTo_hasDecimals (n : ℕ) (x : ℚ) : HasDecimals n (roundTo n x) :=
  ⟨roundHalfEven (x * 10 ^ n), roundTo_mul n x⟩

theorem roundTo_eq_self_iff (n : ℕ) (x : ℚ) : roundTo n x = x ↔ HasDecimals n x := by
  constructor
  · intro h
    rw [← h]
    exact roundTo_hasDecimals n x
  · rintro ⟨z, hz⟩
    have h := (pow_ten_pos n).ne'
    rw [roundTo, hz, roundHalfEven_int, ← hz]
    field_simp

@[simp] theorem roundTo_roundTo (n : ℕ) (x : ℚ) : roundTo n (roundTo n x) = roundTo n x :=
  (roundTo_eq_self_iff n _).mpr (roundTo_hasDecimals n x)

@[simp] theorem roundTo_zero (n : ℕ) : roundTo n 0 = 0 :=
  (roundTo_eq_self_iff n 0).mpr ⟨0, by simp⟩

theorem roundTo_near (n : ℕ) (x : ℚ) : |roundTo n x - x| ≤ 1 / 2 / 10 ^ n := by
  have hp := pow_ten_pos n
  have h := roundHalfEven_near (x * 10 ^ n)
  rw [← roundTo_mul, ← sub_mul, abs_mul, abs_of_pos hp] at h
  rw [le_div_iff₀ hp]
  exact h

theorem roundTo_mono (n : ℕ) (x y : ℚ) (h : x ≤ y) : roundTo n x ≤ roundTo n y := by
  have hp := pow_ten_pos n
  have hround := roundHalfEven_mono (x * 10 ^ n) (y * 10 ^ n) (mul_le_mul_of_nonneg_right h hp.le)
  exact div_le_div_of_nonneg_right (by exact_mod_cast hround) hp.le

theorem roundTo_nonneg (n : ℕ) (x : ℚ) (h : 0 ≤ x) : 0 ≤ roundTo n x := by
  have hp := pow_ten_pos n
  have hfloor : 0 ≤ ⌊x * 10 ^ n⌋ := Int.floor_nonneg.mpr (by positivity)
  have hround : 0 ≤ roundHalfEven (x * 10 ^ n) := by
    unfold roundHalfEven
    split_ifs <;> omega
  exact div_nonneg (by exact_mod_cast hround) hp.le

/-- Rounding to even commutes with a reflection at an integer. -/
theorem roundHalfEven_reflect (k : ℤ) (x : ℚ) :
    roundHalfEven ((2 * k : ℤ) - x) = 2 * k - roundHalfEven x := by
  by_cases hint : x = ⌊x⌋
  · rw [hint, ← Int.cast_sub, roundHalfEven_int, roundHalfEven_int]
  have h0 := lt_of_le_of_ne (Int.floor_le x) (Ne.symm hint)
  have h1 := Int.lt_floor_add_one x
  have hfloor : ⌊((2 * k : ℤ) : ℚ) - x⌋ = 2 * k - ⌊x⌋ - 1 := by
    rw [Int.floor_eq_iff]
    push_cast
    constructor <;> linarith
  have hfrac : ((2 * k : ℤ) : ℚ) - x - ⌊((2 * k : ℤ) : ℚ) - x⌋ = 1 - (x - ⌊x⌋) := by
    rw [hfloor]
    push_cast
    ring
  rw [roundHalfEven, roundHalfEven, hfrac, hfloor]
  split_ifs <;> first | omega | linarith

theorem roundTo_reflect (n : ℕ) (k : ℤ) (x : ℚ) (hn : 1 ≤ n) :
    roundTo n (k - x) = k - roundTo n x := by
  obtain ⟨m, rfl⟩ := Nat.exists_eq_add_of_le hn
  have hp := (pow_ten_pos (1 + m)).ne'
  have hscale : ((k : ℚ) - x) * 10 ^ (1 + m) = ((2 * (5 * 10 ^ m * k) : ℤ) : ℚ) - x * 10 ^ (1 + m) := by
    push_cast
    rw [pow_add]
    ring
  rw [roundTo, roundTo, hscale, roundHalfEven_reflect]
  push_cast
  rw [sub_div]
  congr 1
  rw [pow_add] at hp ⊢
  field_simp
  ring

instance (n : ℕ) (x : ℚ) : Decidable (HasDecimals n x) :=
  decidable_of_iff (roundTo n x = x) (roundTo_eq_self_iff n x)

example : roundTo 2 (1 / 200) = 0 ∧ roundTo 2 (3 / 200) = 1 / 50 := by decide +kernel

end Decimal
