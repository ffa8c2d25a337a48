import Mathlib.Tactic
import Reverto.Lib.Smoothing
import Reverto.Strategies.Macd

/-!
# EMA (strategies/indicators/ema.py), and MACD on trends

`calculate_ema` and `check_ema_cross_signal` on the exponential means of macd.py. On closes
that only go one way, no cross of a faster over a slower mean goes the other way.
-/

namespace Reverto

namespace Ema

open Smoothing

/-- `ema.iloc[-k]` for `k` of 1 or 2. -/
def iloc (series : List (Option ℚ)) (k : ℕ) : Except PyError (Option ℚ) :=
  match series.reverse[k - 1]? with
  | some value => .ok value
  | none => .error .indexError

/-- `calculate_ema` -/
def calculateEma (closes : List ℚ) (period : ℕ) : Except PyError (Option ℚ) :=
  if closes.length < period then .error .indicatorError
  else do
    let ema ← Macd.ewmMean period (closes.map some)
    let last ← iloc ema 1
    pure (last.map (Decimal.roundTo 2))

/-- `check_ema_cross_signal` -/
def checkEmaCrossSignal (closes : List ℚ) (fast slow : ℕ) (signal : String) :
    Except PyError Bool :=
  if closes.length < slow * 3 then .error .indicatorError
  else do
    let fastEma ← Macd.ewmMean fast (closes.map some)
    let slowEma ← Macd.ewmMean slow (closes.map some)
    let fastPrev ← iloc fastEma 2
    let fastCurr ← iloc fastEma 1
    let slowPrev ← iloc slowEma 2
    let slowCurr ← iloc slowEma 1
    if signal = "bullish" then pure (Macd.atMost fastPrev slowPrev && Macd.less slowCurr fastCurr)
    else if signal = "bearish" then
      pure (Macd.atMost slowPrev fastPrev && Macd.less fastCurr slowCurr)
    else .error .indicatorError

/-! ### The means -/

/-- `alpha` of a span. -/
def alphaOf (span : ℕ) : ℚ := 2 / (span + 1)

/-- The mean of a series that begins with `x`. -/
def emaOf (span : ℕ) (x : ℚ) (xs : List ℚ) : ℚ := smooth (alphaOf span) x xs

theorem alphaOf_pos (span : ℕ) : 0 < alphaOf span := by
  unfold alphaOf
  positivity

theorem alphaOf_le_one (span : ℕ) (h : 1 ≤ span) : alphaOf span ≤ 1 := by
  have hspan : (1 : ℚ) ≤ span := by exact_mod_cast h
  rw [alphaOf, div_le_one (by positivity)]
  linarith

theorem alphaOf_anti (fast slow : ℕ) (h : fast ≤ slow) : alphaOf slow ≤ alphaOf fast := by
  have hcast : (fast : ℚ) ≤ slow := by exact_mod_cast h
  exact div_le_div_of_nonneg_left (by norm_num) (by positivity) (by linarith)

theorem ewmFrom_dropLast (alpha : ℚ) (mean : Option ℚ) (s : List (Option ℚ)) :
    (Macd.ewmFrom alpha mean s).dropLast = Macd.ewmFrom alpha mean s.dropLast := by
  induction s generalizing mean with
  | nil => rfl
  | cons x xs ih =>
    cases xs with
    | nil => rfl
    | cons y ys =>
      have hrest := ih (Macd.ewmNext alpha mean x)
      rw [Macd.ewmFrom, Macd.ewmFrom, List.dropLast_cons_cons, List.dropLast_cons_cons, Macd.ewmFrom]
      exact congrArg _ hrest

theorem ewmFrom_getLast (span : ℕ) (m : ℚ) (xs : List ℚ) (h : xs ≠ []) :
    (Macd.ewmFrom (alphaOf span) (some m) (xs.map some)).getLast? =
      some (some (smooth (alphaOf span) m xs)) := by
  induction xs generalizing m with
  | nil => exact absurd rfl h
  | cons x xs ih =>
    rw [List.map_cons, Macd.ewmFrom, smooth_cons]
    cases xs with
    | nil => rfl
    | cons y ys =>
      have hrest := ih (towards (alphaOf span) m x) (List.cons_ne_nil y ys)
      rw [List.getLast?_cons, Macd.ewmNext]
      change some (Option.getD (Macd.ewmFrom (alphaOf span) (some (towards (alphaOf span) m x))
        ((y :: ys).map some)).getLast? _) = _
      rw [hrest]
      rfl

/-- The last of the means. -/
theorem ewmMean_last (span : ℕ) (x : ℚ) (xs : List ℚ) :
    (Macd.ewmFrom (alphaOf span) none ((x :: xs).map some)).getLast? =
      some (some (emaOf span x xs)) := by
  rw [List.map_cons, Macd.ewmFrom, Macd.ewmNext]
  cases xs with
  | nil => rfl
  | cons y ys =>
    have hrest := ewmFrom_getLast span x (y :: ys) (List.cons_ne_nil y ys)
    rw [List.getLast?_cons, hrest]
    rfl

theorem ewmMean_eq (span : ℕ) (h : 1 ≤ span) (s : List (Option ℚ)) :
    Macd.ewmMean span s = .ok (Macd.ewmFrom (alphaOf span) none s) := by
  rw [Macd.ewmMean, if_neg (not_lt.mpr h)]
  rfl

theorem iloc_last (series : List (Option ℚ)) (value : Option ℚ)
    (h : series.getLast? = some value) : iloc series 1 = .ok value := by
  rw [iloc, Nat.sub_self, ← List.head?_eq_getElem?, List.head?_reverse, h]

theorem iloc_before (series : List (Option ℚ)) (value : Option ℚ)
    (h : series.dropLast.getLast? = some value) : iloc series 2 = .ok value := by
  rcases List.eq_nil_or_concat series with rfl | ⟨init, last, rfl⟩
  · cases h
  · rw [List.concat_eq_append] at h ⊢
    rw [List.dropLast_concat] at h
    have hindex : (init ++ [last]).reverse[2 - 1]? = init.reverse.head? := by
      rw [List.reverse_append, List.reverse_singleton, List.singleton_append, List.head?_eq_getElem?]
      rfl
    rw [iloc, hindex, List.head?_reverse, h]

/-- The means at the last close and at the one before. -/
theorem iloc_means (span : ℕ) (x y : ℚ) (ys : List ℚ) :
    iloc (Macd.ewmFrom (alphaOf span) none ((x :: y :: ys).map some)) 1 =
        .ok (some (emaOf span x (y :: ys))) ∧
      iloc (Macd.ewmFrom (alphaOf span) none ((x :: y :: ys).map some)) 2 =
        .ok (some (emaOf span x (y :: ys).dropLast)) := by
  refine ⟨iloc_last _ _ (ewmMean_last span x (y :: ys)), iloc_before _ _ ?_⟩
  rw [ewmFrom_dropLast, ← List.map_dropLast, List.dropLast_cons_cons]
  exact ewmMean_last span x (y :: ys).dropLast

/-- Enough closes for a cross are at least two. -/
theorem two_closes (closes : List ℚ) (slow : ℕ) (hslow : 1 ≤ slow) (hlen : slow * 3 ≤ closes.length) :
    ∃ x y ys, closes = x :: y :: ys := by
  match closes with
  | [] => simp only [List.length_nil] at hlen; omega
  | [_] => simp only [List.length_singleton] at hlen; omega
  | x :: y :: ys => exact ⟨x, y, ys, rfl⟩

/-- `check_ema_cross_signal` on enough closes. -/
theorem checkEmaCross_eq (fast slow : ℕ) (x y : ℚ) (ys : List ℚ) (signal : String)
    (hfast : 1 ≤ fast) (hslow : 1 ≤ slow) (hlen : slow * 3 ≤ (x :: y :: ys).length) :
    checkEmaCrossSignal (x :: y :: ys) fast slow signal =
      if signal = "bullish" then
        .ok (decide (emaOf fast x (y :: ys).dropLast ≤ emaOf slow x (y :: ys).dropLast) &&
          decide (emaOf slow x (y :: ys) < emaOf fast x (y :: ys)))
      else if signal = "bearish" then
        .ok (decide (emaOf slow x (y :: ys).dropLast ≤ emaOf fast x (y :: ys).dropLast) &&
          decide (emaOf fast x (y :: ys) < emaOf slow x (y :: ys)))
      else .error .indicatorError := by
  obtain ⟨hfast1, hfast2⟩ := iloc_means fast x y ys
  obtain ⟨hslow1, hslow2⟩ := iloc_means slow x y ys
  rw [checkEmaCrossSignal, if_neg (not_lt.mpr hlen), ewmMean_eq fast hfast, ewmMean_eq slow hslow]
  simp only [bind, Except.bind, hfast1, hfast2, hslow1, hslow2]
  rfl

/-! ### Closes that go one way -/

/-- Closes that never rise. -/
def Falling (closes : List ℚ) : Prop := closes.Pairwise fun x y => y ≤ x

/-- Closes that never fall. -/
def Rising (closes : List ℚ) : Prop := closes.Pairwise fun x y => x ≤ y

theorem emaOf_lag (fast slow : ℕ) (x : ℚ) (xs : List ℚ) (hfast : 1 ≤ fast) (hle : fast ≤ slow)
    (hfall : Falling (x :: xs)) : emaOf fast x xs ≤ emaOf slow x xs :=
  smooth_lag (alphaOf fast) (alphaOf slow) x xs (alphaOf_pos slow).le (alphaOf_anti fast slow hle)
    (alphaOf_le_one fast hfast) hfall

theorem emaOf_neg (span : ℕ) (x : ℚ) (xs : List ℚ) :
    emaOf span (-x) (xs.map fun y => -y) = -emaOf span x xs := by
  have haffine := smooth_affine (alphaOf span) (-1) 0 x xs
  have hmap : (xs.map fun y => -1 * y + 0) = xs.map fun y => -y :=
    List.map_congr_left fun y _ => by ring
  rw [hmap] at haffine
  rw [emaOf, emaOf, show -x = -1 * x + 0 by ring, haffine]
  ring

/-- The same for rising closes, from the closes turned upside down. -/
theorem emaOf_lead (fast slow : ℕ) (x : ℚ) (xs : List ℚ) (hfast : 1 ≤ fast) (hle : fast ≤ slow)
    (hrise : Rising (x :: xs)) : emaOf slow x xs ≤ emaOf fast x xs := by
  have hfall : Falling ((x :: xs).map fun y => -y) :=
    List.pairwise_map.mpr (hrise.imp fun hab => neg_le_neg hab)
  have hlag := emaOf_lag fast slow (-x) _ hfast hle hfall
  rw [emaOf_neg, emaOf_neg] at hlag
  exact neg_le_neg_iff.mp hlag

/-! ### MACD -/

theorem minus_getLast (s t : List (Option ℚ)) (a b : ℚ) (hlen : s.length = t.length)
    (hs : s.getLast? = some (some a)) (ht : t.getLast? = some (some b)) :
    (Macd.minus s t).getLast? = some (some (a - b)) := by
  rw [← List.head?_reverse] at hs ht ⊢
  rw [Macd.minus, List.reverse_zipWith hlen]
  cases hsr : s.reverse with
  | nil => rw [hsr] at hs; cases hs
  | cons c cs =>
    cases htr : t.reverse with
    | nil => rw [htr] at ht; cases ht
    | cons d ds =>
      rw [hsr] at hs
      rw [htr] at ht
      cases hs
      cases ht
      rfl

theorem minus_dropLast (s t : List (Option ℚ)) (hlen : s.length = t.length) :
    (Macd.minus s t).dropLast = Macd.minus s.dropLast t.dropLast := by
  rw [List.dropLast_eq_take, List.dropLast_eq_take, List.dropLast_eq_take, Macd.minus, Macd.minus,
    List.take_zipWith, List.length_zipWith, hlen, min_self]

/-- `calculate_macd` on enough closes: the difference of the two means, rounded, at the last
close and at the one before. -/
theorem calculateDefault_means (x y : ℚ) (ys : List ℚ) (hlen : 78 ≤ (x :: y :: ys).length) :
    ∃ m, Macd.calculateDefault (x :: y :: ys) = .ok m ∧
      m.macd = some (Decimal.roundTo 4 (emaOf 12 x (y :: ys) - emaOf 26 x (y :: ys))) ∧
      m.macdPrev = some (Decimal.roundTo 4
        (emaOf 12 x (y :: ys).dropLast - emaOf 26 x (y :: ys).dropLast)) := by
  have hmean : ∀ n s, Macd.meanOf "EMA" n s = Macd.ewmMean n s := fun n s => if_neg (by decide)
  have hfast := ewmMean_eq 12 (by norm_num) ((x :: y :: ys).map some)
  have hslow := ewmMean_eq 26 (by norm_num) ((x :: y :: ys).map some)
  generalize hfs : Macd.ewmFrom (alphaOf 12) none ((x :: y :: ys).map some) = fs at hfast
  generalize hss : Macd.ewmFrom (alphaOf 26) none ((x :: y :: ys).map some) = ss at hslow
  have hlens : fs.length = ss.length := by
    rw [← hfs, ← hss, Macd.ewmFrom_length, Macd.ewmFrom_length]
  have hline : (Macd.minus fs ss).length = (x :: y :: ys).length := by
    refine Macd.minus_length fs ss _ ?_ ?_
    · rw [← hfs, Macd.ewmFrom_length, List.length_map]
    · rw [← hss, Macd.ewmFrom_length, List.length_map]
  have hlast : (Macd.minus fs ss).getLast? =
      some (some (emaOf 12 x (y :: ys) - emaOf 26 x (y :: ys))) := by
    refine minus_getLast fs ss _ _ hlens ?_ ?_
    · rw [← hfs]
      exact ewmMean_last 12 x (y :: ys)
    · rw [← hss]
      exact ewmMean_last 26 x (y :: ys)
  have hprev : (Macd.minus fs ss).dropLast.getLast? =
      some (some (emaOf 12 x (y :: ys).dropLast - emaOf 26 x (y :: ys).dropLast)) := by
    rw [minus_dropLast fs ss hlens]
    refine minus_getLast _ _ _ _ ?_ ?_ ?_
    · rw [List.length_dropLast, List.length_dropLast, hlens]
    · rw [← hfs, ewmFrom_dropLast, ← List.map_dropLast, List.dropLast_cons_cons]
      exact ewmMean_last 12 x (y :: ys).dropLast
    · rw [← hss, ewmFrom_dropLast, ← List.map_dropLast, List.dropLast_cons_cons]
      exact ewmMean_last 26 x (y :: ys).dropLast
  obtain ⟨signal, hsignal, hsignalLen⟩ := Macd.ewmMean_ok 9 (by norm_num) (Macd.minus fs ss)
  have hhist := Macd.minus_length (Macd.minus fs ss) signal _ hline (hsignalLen.trans hline)
  obtain ⟨sig, hsig⟩ := Macd.getLast?_some signal (by omega)
  obtain ⟨hist, hhistLast⟩ := Macd.getLast?_some (Macd.minus (Macd.minus fs ss) signal) (by omega)
  simp only [Macd.calculateDefault, Macd.calculateMacd,
    if_neg (show ¬ (x :: y :: ys).length < 26 * 3 by omega), hmean, hfast, hslow, hsignal, hlast, hsig,
    hhistLast, bind, Except.bind, pure, Except.pure]
  refine ⟨_, rfl, rfl, ?_⟩
  dsimp only
  rw [if_pos (show 2 ≤ (Macd.minus fs ss).length by omega), hprev]
  rfl

/-! ### What the signals promise -/

/-- No mean leaves the range of the closes. While closes only fall no upward cross of means
fires, and MACD crosses zero upwards only in the rounding; while they only rise no downward. -/
structure TrendLaw (closes : List ℚ) : Prop where
  bounded : ∀ period, 1 ≤ period → period ≤ closes.length →
    ∃ ema, calculateEma closes period = .ok (some ema) ∧
      ∀ low high, (∀ c ∈ closes, low ≤ c ∧ c ≤ high) →
        Decimal.roundTo 2 low ≤ ema ∧ ema ≤ Decimal.roundTo 2 high
  bullish : Falling closes → ∀ fast slow, 1 ≤ fast → fast ≤ slow → slow * 3 ≤ closes.length →
    checkEmaCrossSignal closes fast slow "bullish" = .ok false
  bearish : Rising closes → ∀ fast slow, 1 ≤ fast → fast ≤ slow → slow * 3 ≤ closes.length →
    checkEmaCrossSignal closes fast slow "bearish" = .ok false
  above : Falling closes → 78 ≤ closes.length → ∃ m macd, Macd.calculateDefault closes = .ok m ∧
    m.macd = some macd ∧ macd ≤ 0 ∧ ∀ usePercentile,
      Macd.checkMacdSignal closes "macd_cross_above_zero" usePercentile = .ok true → macd = 0
  below : Rising closes → 78 ≤ closes.length → ∃ m macd, Macd.calculateDefault closes = .ok m ∧
    m.macd = some macd ∧ 0 ≤ macd ∧ ∀ usePercentile,
      Macd.checkMacdSignal closes "macd_cross_below_zero" usePercentile = .ok true → macd = 0

theorem calculateEma_bounded (closes : List ℚ) (period : ℕ) (hperiod : 1 ≤ period)
    (hlen : period ≤ closes.length) :
    ∃ ema, calculateEma closes period = .ok (some ema) ∧
      ∀ low high, (∀ c ∈ closes, low ≤ c ∧ c ≤ high) →
        Decimal.roundTo 2 low ≤ ema ∧ ema ≤ Decimal.roundTo 2 high := by
  cases closes with
  | nil =>
    rw [List.length_nil] at hlen
    omega
  | cons x xs =>
    have hrun : calculateEma (x :: xs) period = .ok (some (Decimal.roundTo 2 (emaOf period x xs))) := by
      rw [calculateEma, if_neg (not_lt.mpr hlen), ewmMean_eq period hperiod]
      simp only [bind, Except.bind, iloc_last _ _ (ewmMean_last period x xs)]
      rfl
    refine ⟨_, hrun, fun low high hrange => ⟨?_, ?_⟩⟩
    · refine Decimal.roundTo_mono 2 _ _ ?_
      exact smooth_ge (alphaOf period) x low xs (alphaOf_pos period).le (alphaOf_le_one period hperiod)
        (hrange x List.mem_cons_self).1 fun c hc => (hrange c (List.mem_cons_of_mem x hc)).1
    · refine Decimal.roundTo_mono 2 _ _ ?_
      exact smooth_le (alphaOf period) x high xs (alphaOf_pos period).le (alphaOf_le_one period hperiod)
        (hrange x List.mem_cons_self).2 fun c hc => (hrange c (List.mem_cons_of_mem x hc)).2

theorem roundTo_nonpos (n : ℕ) (v : ℚ) (h : v ≤ 0) : Decimal.roundTo n v ≤ 0 := by
  have hmono := Decimal.roundTo_mono n v 0 h
  rwa [Decimal.roundTo_zero] at hmono

end Ema

end Reverto
