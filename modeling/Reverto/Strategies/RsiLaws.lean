import Mathlib.Tactic
import Reverto.Strategies.Rsi

/-!
# What RSI measures (strategies/indicators/rsi.py)

The value of `calculate_rsi` in terms of the decayed gains and losses: its range, its
extremes, its independence of the unit of the closes, and the mirror image of a chart,
which swaps the conditions of `check_rsi_signal`.
-/

namespace Reverto

namespace Rsi

open Smoothing

/-! ### The means -/

theorem ewmFrom_getLast (alpha : ℚ) (n : ℕ) (s : EwmState) (xs : List (Option ℚ)) (h : xs ≠ []) :
    (ewmFrom alpha n s xs).getLast? = some ((xs.foldl (ewmRound alpha) s).output n) := by
  induction xs generalizing s with
  | nil => exact absurd rfl h
  | cons x xs ih =>
    rw [ewmFrom, List.foldl_cons]
    cases xs with
    | nil => rfl
    | cons y ys =>
      rw [List.getLast?_cons, ih (ewmRound alpha s x) (List.cons_ne_nil y ys)]
      rfl

theorem ewmFrom_take (alpha : ℚ) (n : ℕ) (s : EwmState) (xs : List (Option ℚ)) (k : ℕ) :
    (ewmFrom alpha n s xs).take k = ewmFrom alpha n s (xs.take k) := by
  induction xs generalizing s k with
  | nil => rw [List.take_nil, ewmFrom, List.take_nil]
  | cons x xs ih =>
    cases k with
    | zero => rfl
    | succ k => rw [ewmFrom, List.take_succ_cons, List.take_succ_cons, ewmFrom, ih]

theorem ewmFrom_length (alpha : ℚ) (n : ℕ) (s : EwmState) (xs : List (Option ℚ)) :
    (ewmFrom alpha n s xs).length = xs.length := by
  induction xs generalizing s with
  | nil => rfl
  | cons x xs ih => rw [ewmFrom, List.length_cons, List.length_cons, ih]

/-- The sum of the weights of `n` values. -/
def weights (q : ℚ) (n : ℕ) : ℚ := decayed q (List.replicate n 1)

theorem weights_succ (q : ℚ) (n : ℕ) : weights q (n + 1) = q * weights q n + 1 := by
  rw [weights, List.replicate_succ', decayed_snoc]
  rfl

theorem weights_pos (q : ℚ) (n : ℕ) (hq : 0 ≤ q) : 0 < weights q (n + 1) := by
  have hprior : 0 ≤ weights q n := decayed_nonneg q _ hq fun x hx => by
    rw [List.eq_of_mem_replicate hx]
    exact zero_le_one
  rw [weights_succ]
  have hmul := mul_nonneg hq hprior
  linarith

/-- The loop of `ewm` on values that are all there. -/
theorem ewm_foldl (alpha : ℚ) (hq : 0 ≤ 1 - alpha) (xs : List ℚ) (h : xs ≠ []) :
    (xs.map some).foldl (ewmRound alpha) {} =
      ⟨some (decayed (1 - alpha) xs / weights (1 - alpha) xs.length),
        weights (1 - alpha) xs.length, xs.length⟩ := by
  induction xs using List.reverseRecOn with
  | nil => exact absurd rfl h
  | append_singleton xs x ih =>
    rw [List.map_append, List.map_singleton, List.foldl_append, List.length_append,
      List.length_singleton, weights_succ, decayed_snoc]
    rcases List.eq_nil_or_concat xs with rfl | ⟨ys, y, rfl⟩
    · simp [ewmRound, decayed, weights]
    · rw [List.concat_eq_append] at ih ⊢
      have hpos := weights_pos (1 - alpha) ys.length hq
      have hlen : (ys ++ [y]).length = ys.length + 1 := by simp
      rw [hlen] at ih ⊢
      simp only [ih (by simp), List.foldl_cons, List.foldl_nil, ewmRound]
      have hscale : weights (1 - alpha) (ys.length + 1) * (1 - alpha) *
          (decayed (1 - alpha) (ys ++ [y]) / weights (1 - alpha) (ys.length + 1)) =
            (1 - alpha) * decayed (1 - alpha) (ys ++ [y]) := by
        field_simp
      rw [hscale, mul_comm (weights (1 - alpha) (ys.length + 1))]

/-! ### The value -/

/-- The moves up, as numbers that are not negative. -/
def ups (closes : List ℚ) : List ℚ := (moves closes).map fun d => max d 0

/-- The moves down. -/
def downs (closes : List ℚ) : List ℚ := (moves closes).map fun d => -min d 0

/-- What is left of a move after one more close. -/
def rest (period : ℕ) : ℚ := 1 - 1 / period

/-- The decayed moves up. -/
def up (period : ℕ) (closes : List ℚ) : ℚ := decayed (rest period) (ups closes)

/-- The decayed moves down. -/
def down (period : ℕ) (closes : List ℚ) : ℚ := decayed (rest period) (downs closes)

/-- RSI before it is rounded. -/
def rsiRaw (period : ℕ) (closes : List ℚ) : ℚ :=
  if down period closes = 0 then 100 else 100 - 100 / (1 + up period closes / down period closes)

theorem rest_nonneg (period : ℕ) (h : 1 ≤ period) : 0 ≤ rest period := by
  have hcast : (1 : ℚ) ≤ period := by exact_mod_cast h
  have hle : 1 / (period : ℚ) ≤ 1 := by
    rw [div_le_one (by linarith)]
    exact hcast
  rw [rest]
  linarith

theorem rest_pos (period : ℕ) (h : 2 ≤ period) : 0 < rest period := by
  have hcast : (2 : ℚ) ≤ period := by exact_mod_cast h
  have hlt : 1 / (period : ℚ) < 1 := by
    rw [div_lt_one (by linarith)]
    linarith
  rw [rest]
  linarith

theorem ups_nonneg (closes : List ℚ) : ∀ x ∈ ups closes, 0 ≤ x := by
  intro x hx
  obtain ⟨d, _, rfl⟩ := List.mem_map.mp hx
  exact le_max_right d 0

theorem downs_nonneg (closes : List ℚ) : ∀ x ∈ downs closes, 0 ≤ x := by
  intro x hx
  obtain ⟨d, _, rfl⟩ := List.mem_map.mp hx
  exact neg_nonneg.mpr (min_le_right d 0)

theorem up_nonneg (period : ℕ) (closes : List ℚ) (h : 1 ≤ period) : 0 ≤ up period closes :=
  decayed_nonneg _ _ (rest_nonneg period h) (ups_nonneg closes)

theorem down_nonneg (period : ℕ) (closes : List ℚ) (h : 1 ≤ period) : 0 ≤ down period closes :=
  decayed_nonneg _ _ (rest_nonneg period h) (downs_nonneg closes)

theorem moves_length (closes : List ℚ) : (moves closes).length = closes.length - 1 := by
  rw [moves, List.length_zipWith, List.length_tail]
  omega

theorem diff_length (closes : List ℚ) : (diff closes).length = closes.length := by
  cases closes with
  | nil => rfl
  | cons c cs =>
    rw [diff, if_neg (List.cons_ne_nil c cs), List.length_cons, List.length_map, moves_length]
    rfl

/-- The last mean of a series of moves behind the NaN of `diff`. -/
theorem ewm_last (period : ℕ) (f : ℚ → ℚ) (closes : List ℚ) (hperiod : 1 ≤ period)
    (hlen : period + 1 ≤ closes.length) :
    (ewmFrom (1 / period) period {} ((diff closes).map fun d => d.map f)).getLast? =
      some (some (decayed (rest period) ((moves closes).map f) /
        weights (rest period) (closes.length - 1))) := by
  have hne : closes ≠ [] := List.ne_nil_of_length_pos (by omega)
  have hdiff : (diff closes).map (fun d => d.map f) = none :: ((moves closes).map f).map some := by
    rw [diff, if_neg hne, List.map_cons, List.map_map, List.map_map]
    rfl
  have hmoves : (moves closes).length = closes.length - 1 := moves_length closes
  have hsome : (moves closes).map f ≠ [] := by
    refine List.ne_nil_of_length_pos ?_
    rw [List.length_map]
    omega
  have hnone : ewmRound (1 / (period : ℚ)) {} none = {} := rfl
  have henough : period ≤ closes.length - 1 := by omega
  rw [hdiff, ewmFrom_getLast _ _ _ _ (List.cons_ne_nil _ _), List.foldl_cons, hnone,
    ewm_foldl _ (rest_nonneg period hperiod) _ hsome, EwmState.output, List.length_map, hmoves,
    if_pos henough]
  rfl

/-! ### The series -/

/-- The values of `rsi` before they are rounded, for a period of 1 or more. -/
def series (period : ℕ) (closes : List ℚ) : List ℚ :=
  List.zipWith rsiValue (ewmFrom (1 / period) period {} (gain (diff closes)))
    (ewmFrom (1 / period) period {} (loss (diff closes)))

theorem rsiValues_eq (closes : List ℚ) (period : ℕ) (hperiod : 1 ≤ period)
    (hlen : period + 1 ≤ closes.length) : rsiValues closes period = .ok (series period closes) := by
  have hmean : ∀ s, ewmMean period s = .ok (ewmFrom (1 / period) period {} s) :=
    fun s => if_neg (not_lt.mpr hperiod)
  rw [rsiValues, if_neg (not_lt.mpr hlen), hmean, hmean]
  rfl

theorem series_length (period : ℕ) (closes : List ℚ) :
    (series period closes).length = closes.length := by
  rw [series, List.length_zipWith, ewmFrom_length, ewmFrom_length, gain, loss, List.length_map,
    List.length_map, min_self, diff_length]

theorem getLast_zipWith {α β γ : Type} (f : α → β → γ) (s : List α) (t : List β) (a : α) (b : β)
    (hlen : s.length = t.length) (hs : s.getLast? = some a) (ht : t.getLast? = some b) :
    (List.zipWith f s t).getLast? = some (f a b) := by
  obtain ⟨s, rfl⟩ := List.getLast?_eq_some_iff.mp hs
  obtain ⟨t, rfl⟩ := List.getLast?_eq_some_iff.mp ht
  have hinit : s.length = t.length := by simpa using hlen
  rw [List.zipWith_append hinit, List.zipWith_cons_cons, List.zipWith_nil_left, List.getLast?_concat]

theorem rsiValue_div (u d w : ℚ) (hw : 0 < w) :
    rsiValue (some (u / w)) (some (d / w)) = if d = 0 then 100 else 100 - 100 / (1 + u / d) := by
  have hzero : d / w = 0 ↔ d = 0 := div_eq_zero_iff.trans (or_iff_left hw.ne')
  simp only [rsiValue, hzero, div_div_div_cancel_right₀ hw.ne']

theorem series_last (closes : List ℚ) (period : ℕ) (hperiod : 1 ≤ period)
    (hlen : period + 1 ≤ closes.length) :
    (series period closes).getLast? = some (rsiRaw period closes) := by
  have hgain := ewm_last period (fun x => max x 0) closes hperiod hlen
  have hloss := ewm_last period (fun x => -min x 0) closes hperiod hlen
  have hcount : closes.length - 1 = closes.length - 2 + 1 := by omega
  have hw : 0 < weights (rest period) (closes.length - 1) := by
    rw [hcount]
    exact weights_pos _ _ (rest_nonneg period hperiod)
  have hsame : (ewmFrom (1 / (period : ℚ)) period {} (gain (diff closes))).length =
      (ewmFrom (1 / (period : ℚ)) period {} (loss (diff closes))).length := by
    rw [ewmFrom_length, ewmFrom_length, gain, loss, List.length_map, List.length_map]
  rw [series, getLast_zipWith _ _ _ _ _ hsame hgain hloss, rsiValue_div _ _ _ hw]
  rfl

theorem moves_take (c : ℚ) (cs : List ℚ) (k : ℕ) :
    (moves (c :: cs)).take k = moves (c :: cs.take k) := by
  induction cs generalizing c k with
  | nil => cases k <;> rfl
  | cons d ds ih =>
    cases k with
    | zero => rfl
    | succ k => exact congrArg (List.cons (d - c)) (ih d k)

theorem diff_take (closes : List ℚ) (k : ℕ) : (diff closes).take k = diff (closes.take k) := by
  cases closes with
  | nil => rw [List.take_nil, diff, if_pos rfl, List.take_nil]
  | cons c cs =>
    cases k with
    | zero => rfl
    | succ k =>
      rw [diff, if_neg (List.cons_ne_nil c cs), List.take_succ_cons, List.take_succ_cons, diff,
        if_neg (List.cons_ne_nil _ _), ← List.map_take, moves_take]

/-- The series of the first closes is the beginning of the series. -/
theorem series_take (period : ℕ) (closes : List ℚ) (k : ℕ) :
    (series period closes).take k = series period (closes.take k) := by
  rw [series, series, List.take_zipWith, ewmFrom_take, ewmFrom_take, gain, loss, gain, loss,
    ← List.map_take, ← List.map_take, diff_take]

theorem fromEnd_eq {α : Type} (s : List α) (k : ℕ) (value : α) (hk : k < s.length)
    (h : (s.take (s.length - k)).getLast? = some value) : fromEnd s (k + 1) = .ok value := by
  have hlast : (s.take (s.length - k)).getLast? = s[s.length - 1 - k]? := by
    rw [List.getLast?_eq_getElem?, List.length_take, List.getElem?_take]
    have hindex : min (s.length - k) s.length - 1 = s.length - 1 - k := by omega
    rw [hindex, if_pos (by omega)]
  rw [hlast] at h
  rw [fromEnd, Nat.add_sub_cancel, List.getElem?_reverse hk, h]

/-- The value `k` places before the last is the RSI of the closes up to there. -/
theorem fromEnd_series (closes : List ℚ) (period k : ℕ) (hperiod : 1 ≤ period)
    (hlen : period + 1 + k ≤ closes.length) :
    fromEnd (series period closes) (k + 1) =
      .ok (rsiRaw period (closes.take (closes.length - k))) := by
  refine fromEnd_eq _ k _ ?_ ?_
  · rw [series_length]
    omega
  · rw [series_length, series_take]
    refine series_last _ period hperiod ?_
    rw [List.length_take]
    omega

theorem calculateRsi_eq (closes : List ℚ) (period : ℕ) (hperiod : 1 ≤ period)
    (hlen : period + 1 ≤ closes.length) :
    calculateRsi closes period = .ok (Decimal.roundTo 2 (rsiRaw period closes)) := by
  have hlast := fromEnd_series closes period 0 hperiod hlen
  rw [Nat.sub_zero, List.take_length] at hlast
  rw [calculateRsi, rsiValues_eq closes period hperiod hlen]
  simp only [bind, Except.bind, hlast]
  rfl

/-! ### Trends, units and the mirror -/

open Ema (Falling Rising)

/-- Closes that are all the same. -/
def Flat (closes : List ℚ) : Prop := Falling closes ∧ Rising closes

/-- The chart turned upside down. -/
def mirror (top : ℚ) (closes : List ℚ) : List ℚ := closes.map fun c => top - c

theorem moves_forall (R : ℚ → ℚ → Prop) [IsTrans ℚ R] (p : ℚ → Prop)
    (hp : ∀ a b, p (b - a) ↔ R a b) (closes : List ℚ) :
    (∀ d ∈ moves closes, p d) ↔ closes.Pairwise R := by
  rw [← List.isChain_iff_pairwise]
  induction closes with
  | nil => exact iff_of_true (fun d hd => absurd hd List.not_mem_nil) List.IsChain.nil
  | cons a as ih =>
    cases as with
    | nil =>
      exact iff_of_true (fun d hd => absurd hd List.not_mem_nil) (List.IsChain.singleton a)
    | cons b bs =>
      have hmoves : moves (a :: b :: bs) = (b - a) :: moves (b :: bs) := rfl
      rw [hmoves, List.forall_mem_cons, ih, hp, List.isChain_cons_cons]

theorem ups_eq_zero (closes : List ℚ) : (∀ x ∈ ups closes, x = 0) ↔ Falling closes := by
  have htrans : IsTrans ℚ fun x y => y ≤ x := ⟨fun _ _ _ hab hbc => hbc.trans hab⟩
  rw [ups, List.forall_mem_map]
  exact moves_forall _ _ (fun a b => max_eq_right_iff.trans sub_nonpos) closes

theorem downs_eq_zero (closes : List ℚ) : (∀ x ∈ downs closes, x = 0) ↔ Rising closes := by
  have htrans : IsTrans ℚ fun x y : ℚ => x ≤ y := ⟨fun _ _ _ => le_trans⟩
  rw [downs, List.forall_mem_map]
  exact moves_forall _ _ (fun a b => neg_eq_zero.trans (min_eq_right_iff.trans sub_nonneg)) closes

theorem up_eq_zero (period : ℕ) (closes : List ℚ) (h : 2 ≤ period) :
    up period closes = 0 ↔ Falling closes :=
  (decayed_eq_zero_iff _ _ (rest_pos period h) (ups_nonneg closes)).trans (ups_eq_zero closes)

theorem down_eq_zero (period : ℕ) (closes : List ℚ) (h : 2 ≤ period) :
    down period closes = 0 ↔ Rising closes :=
  (decayed_eq_zero_iff _ _ (rest_pos period h) (downs_nonneg closes)).trans (downs_eq_zero closes)

theorem moves_map (f g : ℚ → ℚ) (hfg : ∀ a b, f b - f a = g (b - a)) (closes : List ℚ) :
    moves (closes.map f) = (moves closes).map g := by
  rw [moves, moves, ← List.map_tail, List.zipWith_map, List.map_zipWith]
  simp only [hfg]

theorem up_scale (period : ℕ) (closes : List ℚ) (a b : ℚ) (ha : 0 < a) :
    up period (closes.map fun c => a * c + b) = a * up period closes := by
  have hups : ups (closes.map fun c => a * c + b) = (ups closes).map fun x => a * x := by
    rw [ups, ups, moves_map _ (fun d => a * d) (fun x y => by ring), List.map_map, List.map_map]
    refine List.map_congr_left fun d _ => ?_
    rw [Function.comp_apply, Function.comp_apply, mul_max_of_nonneg d 0 ha.le, mul_zero]
  rw [up, hups, decayed_scale]
  rfl

theorem down_scale (period : ℕ) (closes : List ℚ) (a b : ℚ) (ha : 0 < a) :
    down period (closes.map fun c => a * c + b) = a * down period closes := by
  have hdowns : downs (closes.map fun c => a * c + b) = (downs closes).map fun x => a * x := by
    rw [downs, downs, moves_map _ (fun d => a * d) (fun x y => by ring), List.map_map, List.map_map]
    refine List.map_congr_left fun d _ => ?_
    rw [Function.comp_apply, Function.comp_apply, mul_neg, mul_min_of_nonneg d 0 ha.le, mul_zero]
  rw [down, hdowns, decayed_scale]
  rfl

theorem rsiRaw_scale (period : ℕ) (closes : List ℚ) (a b : ℚ) (ha : 0 < a) :
    rsiRaw period (closes.map fun c => a * c + b) = rsiRaw period closes := by
  have hzero : a * down period closes = 0 ↔ down period closes = 0 := mul_eq_zero_iff_left ha.ne'
  simp only [rsiRaw, up_scale period closes a b ha, down_scale period closes a b ha, hzero,
    mul_div_mul_left _ _ ha.ne']

theorem up_mirror (period : ℕ) (top : ℚ) (closes : List ℚ) :
    up period (mirror top closes) = down period closes := by
  have hups : ups (mirror top closes) = downs closes := by
    rw [ups, downs, mirror, moves_map _ (fun d => -d) (fun x y => by ring), List.map_map]
    refine List.map_congr_left fun d _ => ?_
    rw [Function.comp_apply, ← neg_zero, max_neg_neg, neg_zero]
  rw [up, hups]
  rfl

theorem mirror_mirror (top : ℚ) (closes : List ℚ) : mirror top (mirror top closes) = closes := by
  rw [mirror, mirror, List.map_map]
  exact (List.map_congr_left fun c _ => sub_sub_cancel top c).trans (List.map_id closes)

theorem down_mirror (period : ℕ) (top : ℚ) (closes : List ℚ) :
    down period (mirror top closes) = up period closes := by
  rw [← up_mirror period top (mirror top closes), mirror_mirror]

/-- Closes that are not all the same have their RSI mirrored at 50. -/
theorem rsiRaw_mirror (period : ℕ) (top : ℚ) (closes : List ℚ) (hperiod : 2 ≤ period)
    (hflat : ¬ Flat closes) :
    rsiRaw period (mirror top closes) = 100 - rsiRaw period closes := by
  have hup := up_nonneg period closes (by omega)
  have hdown := down_nonneg period closes (by omega)
  have hboth : ¬ (up period closes = 0 ∧ down period closes = 0) := by
    rw [up_eq_zero period closes hperiod, down_eq_zero period closes hperiod]
    exact hflat
  simp only [rsiRaw, up_mirror, down_mirror]
  by_cases hu : up period closes = 0
  · have hd : down period closes ≠ 0 := fun hd => hboth ⟨hu, hd⟩
    simp [hu, hd]
  · by_cases hd : down period closes = 0
    · simp [hu, hd]
    · have hsum : up period closes + down period closes ≠ 0 := by positivity
      have hsum' : down period closes + up period closes ≠ 0 := by positivity
      rw [if_neg hu, if_neg hd]
      field_simp
      ring

theorem rsiRaw_range (period : ℕ) (closes : List ℚ) (hperiod : 1 ≤ period) :
    0 ≤ rsiRaw period closes ∧ rsiRaw period closes ≤ 100 := by
  have hup := up_nonneg period closes hperiod
  have hdown := down_nonneg period closes hperiod
  rw [rsiRaw]
  split
  · exact ⟨by norm_num, le_rfl⟩
  · have hratio : 0 ≤ up period closes / down period closes := div_nonneg hup hdown
    have hpart : 100 / (1 + up period closes / down period closes) ≤ 100 := by
      rw [div_le_iff₀ (by linarith)]
      linarith
    have hnonneg : 0 ≤ 100 / (1 + up period closes / down period closes) := by positivity
    constructor <;> linarith

/-! ### The rounded value -/

/-- RSI stays between 0 and 100, does not depend on the unit and the origin of the prices, ends
at 100 on closes that never fall and at 0 on closes that never rise, and is mirrored at 50 when
the chart is turned upside down. Closes that are all the same count as rising. -/
structure RsiLaw (closes : List ℚ) (period : ℕ) : Prop where
  range : ∃ rsi, calculateRsi closes period = .ok rsi ∧ 0 ≤ rsi ∧ rsi ≤ 100
  unit : ∀ a b, 0 < a →
    calculateRsi (closes.map fun c => a * c + b) period = calculateRsi closes period
  rising : 2 ≤ period → Rising closes → calculateRsi closes period = .ok 100
  falling : 2 ≤ period → Falling closes → ¬ Rising closes → calculateRsi closes period = .ok 0
  mirrored : 2 ≤ period → ¬ Flat closes → ∀ top rsi, calculateRsi closes period = .ok rsi →
    calculateRsi (mirror top closes) period = .ok (100 - rsi)

theorem roundTo_hundred : Decimal.roundTo 2 100 = 100 :=
  (Decimal.roundTo_eq_self_iff 2 100).mpr ⟨10000, by norm_num⟩

theorem calculateRsi_mirror (closes : List ℚ) (period : ℕ) (top : ℚ) (hperiod : 2 ≤ period)
    (hlen : period + 1 ≤ closes.length) (hflat : ¬ Flat closes) :
    calculateRsi (mirror top closes) period =
      .ok (100 - Decimal.roundTo 2 (rsiRaw period closes)) := by
  have hreflect := Decimal.roundTo_reflect 2 100 (rsiRaw period closes) (by norm_num)
  rw [calculateRsi_eq _ period (by omega) (by rw [mirror, List.length_map]; exact hlen),
    rsiRaw_mirror period top closes hperiod hflat]
  exact congrArg _ hreflect

/-- The condition the mirrored chart meets. -/
def RsiCondition.mirrored : RsiCondition → RsiCondition
  | .crossAbove50 => .crossBelow50
  | .crossBelow50 => .crossAbove50
  | .bullishDivergence => .bearishDivergence
  | .bearishDivergence => .bullishDivergence
  | .below value => .above (100 - value)
  | .above value => .below (100 - value)
  | .crossAbove value => .crossBelow (100 - value)
  | .crossBelow value => .crossAbove (100 - value)

/-- The value of a threshold, which the text had to keep within 1 and 99. -/
def RsiCondition.InRange : RsiCondition → Prop
  | .below value | .above value | .crossAbove value | .crossBelow value => 1 ≤ value ∧ value ≤ 99
  | _ => True

theorem matchThreshold_inRange (threshold : List Char) (c : RsiCondition)
    (h : matchThreshold threshold = some c) : c.InRange := by
  obtain ⟨op, hop, h⟩ := Option.bind_eq_some_iff.mp h
  obtain ⟨value, _, h⟩ := Option.bind_eq_some_iff.mp h
  have hmem := List.mem_of_find?_eq_some hop
  split at h
  · rename_i hrange
    cases h
    simp only [operations, List.mem_cons, List.not_mem_nil, or_false] at hmem
    rcases hmem with rfl | rfl | rfl | rfl <;> exact hrange
  · cases h

/-- No text names a value outside 1 and 99. -/
theorem parseThreshold_inRange (threshold : String) (c : RsiCondition)
    (h : parseThreshold threshold = some c) : c.InRange := by
  rw [parseThreshold] at h
  split_ifs at h
  · cases h; trivial
  · cases h; trivial
  · cases h; trivial
  · cases h; trivial
  · exact matchThreshold_inRange _ c h

theorem Flat.sublist {s t : List ℚ} (h : Flat t) (hst : s.Sublist t) : Flat s :=
  ⟨h.1.sublist hst, h.2.sublist hst⟩

/-- What moves within the first closes moves within more of them. -/
theorem not_flat_take (closes : List ℚ) (n k : ℕ) (hnk : n ≤ k) (h : ¬ Flat (closes.take n)) :
    ¬ Flat (closes.take k) := by
  intro hflat
  have hsub : (closes.take n).Sublist (closes.take k) := by
    rw [← min_eq_left hnk, ← List.take_take]
    exact List.take_sublist n _
  exact h (hflat.sublist hsub)

theorem crossing_eq (closes : List ℚ) (period : ℕ) (test : ℚ → ℚ → Bool) (hperiod : 1 ≤ period)
    (hlen : period + 2 ≤ closes.length) :
    crossing closes period test =
      .ok (test (Decimal.roundTo 2 (rsiRaw period closes.dropLast))
        (Decimal.roundTo 2 (rsiRaw period closes))) := by
  rw [crossing, calculateRsi_eq closes period hperiod (by omega),
    calculateRsi_eq closes.dropLast period hperiod (by rw [List.length_dropLast]; omega)]
  rfl

theorem crossing_mirror (closes : List ℚ) (period : ℕ) (top : ℚ) (test test' : ℚ → ℚ → Bool)
    (htest : ∀ p c, test' (100 - p) (100 - c) = test p c) (hperiod : 2 ≤ period)
    (hlen : period + 2 ≤ closes.length) (hmoved : ¬ Flat (closes.take (period + 1))) :
    crossing (mirror top closes) period test' = crossing closes period test := by
  have hlast : ¬ Flat closes.dropLast := by
    rw [List.dropLast_eq_take]
    exact not_flat_take closes _ _ (by omega) hmoved
  have hall : ¬ Flat closes := by
    rw [← List.take_length (l := closes)]
    exact not_flat_take closes _ _ (by omega) hmoved
  have hprev := calculateRsi_mirror closes.dropLast period top hperiod
    (by rw [List.length_dropLast]; omega) hlast
  have hcurr := calculateRsi_mirror closes period top hperiod (by omega) hall
  have hdrop : (mirror top closes).dropLast = mirror top closes.dropLast := (List.map_dropLast ..).symm
  rw [crossing_eq closes period test (by omega) hlen, crossing, hdrop, hprev, hcurr, ← htest]
  rfl

theorem fromEnd_map {α β : Type} (f : α → β) (s : List α) (k : ℕ) :
    fromEnd (s.map f) k = (fromEnd s k).map f := by
  rw [fromEnd, fromEnd, ← List.map_reverse, List.getElem?_map]
  cases s.reverse[k - 1]? <;> rfl

theorem fromEnd_ok {α : Type} (s : List α) (k : ℕ) (hk : k < s.length) :
    ∃ value, fromEnd s (k + 1) = .ok value := by
  have hbound : k < s.reverse.length := by rwa [List.length_reverse]
  rw [fromEnd, Nat.add_sub_cancel, List.getElem?_eq_getElem hbound]
  exact ⟨_, rfl⟩

/-- A divergence compares the last close and RSI to the ones four closes before. -/
theorem divergence_eq (closes : List ℚ) (period : ℕ) (test : ℚ → ℚ → ℚ → ℚ → Bool)
    (hperiod : 1 ≤ period) (hlen : period + 6 ≤ closes.length) (close closeBack : ℚ)
    (hclose : fromEnd closes 1 = .ok close) (hback : fromEnd closes 5 = .ok closeBack) :
    divergence closes period test =
      .ok (test close closeBack (Decimal.roundTo 2 (rsiRaw period closes))
        (Decimal.roundTo 2 (rsiRaw period (closes.take (closes.length - 4))))) := by
  have hlast := fromEnd_series closes period 0 hperiod (by omega)
  have hprior := fromEnd_series closes period 4 hperiod (by omega)
  rw [Nat.sub_zero, List.take_length] at hlast
  have hshort : ¬ closes.length < period + 5 + 1 := by omega
  simp only [divergence, if_neg hshort, rsiSeries, rsiValues_eq closes period hperiod (by omega), bind,
    Except.bind, pure, Except.pure, hclose, hback, fromEnd_map, hlast, hprior, Except.map]

theorem divergence_mirror (closes : List ℚ) (period : ℕ) (top : ℚ)
    (test test' : ℚ → ℚ → ℚ → ℚ → Bool)
    (htest : ∀ a b v w, test' (top - a) (top - b) (100 - v) (100 - w) = test a b v w)
    (hperiod : 2 ≤ period) (hmoved : ¬ Flat (closes.take (period + 1))) :
    divergence (mirror top closes) period test' = divergence closes period test := by
  have hmirror : (mirror top closes).length = closes.length := List.length_map ..
  by_cases hlen : period + 6 ≤ closes.length
  · obtain ⟨close, hclose⟩ := fromEnd_ok closes 0 (by omega)
    obtain ⟨closeBack, hback⟩ := fromEnd_ok closes 4 (by omega)
    have hclose' : fromEnd (mirror top closes) 1 = .ok (top - close) := by
      rw [mirror, fromEnd_map, hclose]
      rfl
    have hback' : fromEnd (mirror top closes) 5 = .ok (top - closeBack) := by
      rw [mirror, fromEnd_map, hback]
      rfl
    have hround : ∀ s : List ℚ, ¬ Flat s → Decimal.roundTo 2 (rsiRaw period (mirror top s)) =
        100 - Decimal.roundTo 2 (rsiRaw period s) := fun s hs => by
      rw [rsiRaw_mirror period top s hperiod hs]
      exact Decimal.roundTo_reflect 2 100 _ (by norm_num)
    have htake : (mirror top closes).take (closes.length - 4) =
        mirror top (closes.take (closes.length - 4)) := (List.map_take ..).symm
    have hall : ¬ Flat closes := by
      rw [← List.take_length (l := closes)]
      exact not_flat_take closes _ _ (by omega) hmoved
    rw [divergence_eq closes period test (by omega) hlen close closeBack hclose hback,
      divergence_eq _ period test' (by omega) (by omega) _ _ hclose' hback', hmirror, htake,
      hround closes hall, hround _ (not_flat_take closes _ _ (by omega) hmoved), htest]
  · have hshort : closes.length < period + 5 + 1 := by omega
    simp only [divergence, hmirror, if_pos hshort]

theorem calculateRsi_short (closes : List ℚ) (period : ℕ) (h : closes.length < period + 1) :
    calculateRsi closes period = .error .indicatorError := by
  rw [calculateRsi, rsiValues, if_pos h]
  rfl

theorem level_mirror (closes : List ℚ) (period : ℕ) (top : ℚ) (test test' : ℚ → Bool)
    (htest : ∀ v, test' (100 - v) = test v) (hperiod : 2 ≤ period)
    (hmoved : ¬ Flat (closes.take (period + 1))) :
    (calculateRsi (mirror top closes) period).map test' = (calculateRsi closes period).map test := by
  have hmirror : (mirror top closes).length = closes.length := List.length_map ..
  by_cases hlen : period + 1 ≤ closes.length
  · have hall : ¬ Flat closes := by
      rw [← List.take_length (l := closes)]
      exact not_flat_take closes _ _ hlen hmoved
    rw [calculateRsi_mirror closes period top hperiod hlen hall,
      calculateRsi_eq closes period (by omega) hlen, Except.map, Except.map, htest]
  · rw [calculateRsi_short closes period (by omega),
      calculateRsi_short _ period (by rw [hmirror]; omega)]
    rfl

theorem crossesBelow_reflect (n p c : ℚ) :
    crossesBelow (100 - n) (100 - p) (100 - c) = crossesAbove n p c := by
  simp only [crossesBelow, crossesAbove, sub_lt_sub_iff_left, sub_le_sub_iff_left]

theorem crossesAbove_reflect (n p c : ℚ) :
    crossesAbove (100 - n) (100 - p) (100 - c) = crossesBelow n p c := by
  simp only [crossesBelow, crossesAbove, sub_lt_sub_iff_left, sub_le_sub_iff_left]

theorem cast_reflect (value : ℕ) (h : value ≤ 99) : ((100 - value : ℕ) : ℚ) = 100 - value := by
  rw [Nat.cast_sub (by omega)]
  rfl

theorem holds_mirror (closes : List ℚ) (period : ℕ) (top : ℚ) (c : RsiCondition) (hc : c.InRange)
    (hperiod : 2 ≤ period) (hmoved : ¬ Flat (closes.take (period + 1))) :
    holds (mirror top closes) period c.mirrored = holds closes period c := by
  have hmirror : (mirror top closes).length = closes.length := List.length_map ..
  have hfifty : (50 : ℚ) = 100 - 50 := by norm_num
  cases c with
  | crossAbove50 =>
    simp only [RsiCondition.mirrored, holds, hmirror]
    split
    · rfl
    · refine crossing_mirror closes period top _ _ (fun p c => ?_) hperiod (by omega) hmoved
      rw [← crossesBelow_reflect, ← hfifty]
  | crossBelow50 =>
    simp only [RsiCondition.mirrored, holds, hmirror]
    split
    · rfl
    · refine crossing_mirror closes period top _ _ (fun p c => ?_) hperiod (by omega) hmoved
      rw [← crossesAbove_reflect, ← hfifty]
  | bullishDivergence =>
    refine divergence_mirror closes period top _ _ (fun a b v w => ?_) hperiod hmoved
    simp only [sub_lt_sub_iff_left]
  | bearishDivergence =>
    refine divergence_mirror closes period top _ _ (fun a b v w => ?_) hperiod hmoved
    simp only [sub_lt_sub_iff_left]
  | below value =>
    refine level_mirror closes period top _ _ (fun v => ?_) hperiod hmoved
    rw [cast_reflect value hc.2]
    simp only [sub_lt_sub_iff_left]
  | above value =>
    refine level_mirror closes period top _ _ (fun v => ?_) hperiod hmoved
    rw [cast_reflect value hc.2]
    simp only [sub_lt_sub_iff_left]
  | crossAbove value =>
    simp only [RsiCondition.mirrored, holds, hmirror]
    split
    · rfl
    · refine crossing_mirror closes period top _ _ (fun p c => ?_) hperiod (by omega) hmoved
      rw [cast_reflect value hc.2, crossesBelow_reflect]
  | crossBelow value =>
    simp only [RsiCondition.mirrored, holds, hmirror]
    split
    · rfl
    · refine crossing_mirror closes period top _ _ (fun p c => ?_) hperiod (by omega) hmoved
      rw [cast_reflect value hc.2, crossesAbove_reflect]

end Rsi

end Reverto
