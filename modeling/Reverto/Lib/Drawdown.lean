import Mathlib.Tactic

/-!
# How far a curve falls from its peaks

The fall of a curve at a point is measured from the highest value up to there, in
percent of that value. The maximum drawdown is the greatest of the falls, and a walk
along the curve finds it with the running peak.
-/

namespace Drawdown

/-! ### The curve of a balance -/

section Curves

variable {K : Type} [Field K]

/-- The fall from a peak in percent of the peak. -/
def fall (peak value : K) : K := (peak - value) / peak * 100

theorem fall_self (peak : K) : fall peak peak = 0 := by
  rw [fall, sub_self, zero_div, zero_mul]

/-- The curve of a balance under changes. -/
def balances (start : K) (changes : List K) : List K := changes.scanl (fun b c => b + c) start

theorem foldl_changes (start : K) (changes : List K) :
    changes.foldl (fun b c => b + c) start = start + changes.sum := by
  induction changes generalizing start with
  | nil => exact (add_zero start).symm
  | cons c changes ih => rw [List.foldl_cons, ih, List.sum_cons, add_assoc]

theorem balances_last (start : K) (changes : List K) :
    (balances start changes).getLast? = some (start + changes.sum) := by
  rw [balances, List.getLast?_scanl, foldl_changes]

theorem balances_concat (start : K) (changes : List K) (c : K) :
    balances start (changes ++ [c]) = balances start changes ++ [start + changes.sum + c] := by
  rw [balances, List.scanl_append, foldl_changes, List.scanl_singleton]
  rfl

theorem balances_take (start : K) (changes : List K) (n : ℕ) :
    (balances start changes).take (n + 1) = balances start (changes.take n) :=
  List.take_scanl start changes n

/-- A part of the curve is the curve of the first changes. -/
theorem balances_part (start : K) (changes upTo : List K) (h : upTo <+: balances start changes)
    (hne : upTo ≠ []) : ∃ n, upTo = balances start (changes.take n) := by
  have hlength : upTo.length = upTo.length - 1 + 1 := by
    have hpos := List.length_pos_of_ne_nil hne
    omega
  refine ⟨upTo.length - 1, ?_⟩
  rw [← balances_take, ← hlength]
  exact List.prefix_iff_eq_take.mp h

section Costs

variable {ι : Type} (gain cost : ι → K) (start : K)

/-- The curve of the gains. -/
def gross (l : List ι) : List K := balances start (l.map gain)

/-- The curve of the gains less their costs. -/
def net (l : List ι) : List K := balances start (l.map fun i => gain i - cost i)

theorem sum_net (l : List ι) :
    (l.map fun i => gain i - cost i).sum = (l.map gain).sum - (l.map cost).sum := by
  induction l with
  | nil => simp
  | cons i l ih =>
    rw [List.map_cons, List.map_cons, List.map_cons, List.sum_cons, List.sum_cons, List.sum_cons, ih]
    ring

theorem net_take_part (l : List ι) (n : ℕ) : net gain cost start (l.take n) <+: net gain cost start l := by
  rw [net, List.map_take, ← balances_take]
  exact List.take_prefix _ _

theorem gross_take_part (l : List ι) (n : ℕ) : gross gain start (l.take n) <+: gross gain start l := by
  rw [gross, List.map_take, ← balances_take]
  exact List.take_prefix _ _

theorem net_eq_gross (l : List ι) (h : ∀ i ∈ l, cost i = 0) :
    net gain cost start l = gross gain start l := by
  have hmap : (l.map fun i => gain i - cost i) = l.map gain :=
    List.map_congr_left fun i hi => by rw [h i hi, sub_zero]
  rw [net, gross, hmap]

end Costs

end Curves

/-! ### Falls -/

variable {K : Type} [Field K] [LinearOrder K]

/-- The curve falls by `x` at some point from the highest value up to there, if that
is positive. -/
def FallsBy (curve : List K) (x : K) : Prop :=
  ∃ upTo value peak, upTo <+: curve ∧ upTo.getLast? = some value ∧ IsGreatest {v | v ∈ upTo} peak ∧
    0 < peak ∧ x = fall peak value

/-- `x` is the greatest fall of the curve, `0` for a curve that never falls. -/
def IsMaxDrawdown (curve : List K) (x : K) : Prop := IsGreatest (insert 0 {y | FallsBy curve y}) x

/-- The running peak and the greatest fall after a walk along the curve. -/
structure Tracks (curve : List K) (peak worst : K) : Prop where
  peak : IsGreatest {v | v ∈ curve} peak
  worst : IsMaxDrawdown curve worst

theorem fallsBy_longer (curve longer : List K) (x : K) (h : curve <+: longer)
    (hx : FallsBy curve x) : FallsBy longer x := by
  obtain ⟨upTo, value, peak, hprefix, hrest⟩ := hx
  exact ⟨upTo, value, peak, hprefix.trans h, hrest⟩

/-- What is after a part of the curve can only deepen its greatest fall. -/
theorem isMaxDrawdown_prefix_le (curve longer : List K) (x y : K) (h : curve <+: longer)
    (hx : IsMaxDrawdown curve x) (hy : IsMaxDrawdown longer y) : x ≤ y := by
  rcases hx.1 with rfl | hfalls
  · exact hy.2 (Set.mem_insert _ _)
  · exact hy.2 (Set.mem_insert_of_mem _ (fallsBy_longer curve longer x h hfalls))

/-! ### Walking along a curve -/

theorem isGreatest_concat {α : Type} [LinearOrder α] (curve : List α) (peak value : α)
    (h : IsGreatest {v | v ∈ curve} peak) :
    IsGreatest {v | v ∈ curve ++ [value]} (max peak value) := by
  have hset : {v | v ∈ curve ++ [value]} = {v | v ∈ curve} ∪ {value} := by
    ext v
    simp only [List.mem_append, List.mem_singleton, Set.mem_ofPred_eq, Set.mem_union,
      Set.mem_singleton_iff]
  rw [hset]
  exact h.union isGreatest_singleton

/-- One more value adds the fall at that value. -/
theorem fallsBy_concat (curve : List K) (peak value x : K)
    (h : IsGreatest {v | v ∈ curve} peak) :
    FallsBy (curve ++ [value]) x ↔
      FallsBy curve x ∨ 0 < max peak value ∧ x = fall (max peak value) value := by
  have hpeak := isGreatest_concat curve peak value h
  constructor
  · intro ⟨upTo, v, p, hprefix, hlast, hp, hpos, hx⟩
    rcases List.prefix_concat_iff.mp hprefix with heq | hprefix
    · rw [heq, List.getLast?_concat] at hlast
      rw [heq] at hp
      obtain rfl := Option.some.inj hlast
      obtain rfl := hp.unique hpeak
      exact .inr ⟨hpos, hx⟩
    · exact .inl ⟨upTo, v, p, hprefix, hlast, hp, hpos, hx⟩
  · intro hcase
    rcases hcase with hx | hx
    · exact fallsBy_longer curve _ x (List.prefix_append _ _) hx
    · exact ⟨_, value, _, List.prefix_rfl, List.getLast?_concat, hpeak, hx.1, hx.2⟩

theorem tracks_singleton (start : K) : Tracks [start] start 0 := by
  have hpeak : IsGreatest {v | v ∈ [start]} start := by
    constructor
    · exact List.mem_singleton_self start
    · intro v hv
      exact (List.mem_singleton.mp hv).le
  refine ⟨hpeak, Set.mem_insert _ _, fun x hx => ?_⟩
  rcases hx with rfl | ⟨upTo, value, peak, hprefix, hlast, hp, _, hx⟩
  · exact le_rfl
  · have hconcat : upTo <+: [] ++ [start] := hprefix
    have hwhole : upTo = [] ++ [start] := by
      rcases List.prefix_concat_iff.mp hconcat with heq | hnil
      · exact heq
      · rw [List.prefix_nil.mp hnil] at hlast
        cases hlast
    rw [hwhole] at hlast hp
    obtain rfl : start = value := Option.some.inj hlast
    obtain rfl := hp.unique hpeak
    rw [hx, fall_self]

/-- One step of the walk. -/
theorem tracks_concat (curve : List K) (peak worst value : K) (h : Tracks curve peak worst) :
    Tracks (curve ++ [value]) (max peak value)
      (if 0 < max peak value then max worst (fall (max peak value) value) else worst) := by
  refine ⟨isGreatest_concat curve peak value h.peak, ?_⟩
  unfold IsMaxDrawdown
  split
  · next hpos =>
    have hset : insert 0 {y | FallsBy (curve ++ [value]) y} =
        insert 0 {y | FallsBy curve y} ∪ {fall (max peak value) value} := by
      ext y
      simp only [Set.mem_insert_iff, Set.mem_ofPred_eq, Set.mem_union, Set.mem_singleton_iff,
        fallsBy_concat curve peak value y h.peak, hpos, true_and, or_assoc]
    rw [hset]
    exact h.worst.union isGreatest_singleton
  · next hneg =>
    have hset : insert 0 {y | FallsBy (curve ++ [value]) y} = insert 0 {y | FallsBy curve y} := by
      ext y
      simp only [Set.mem_insert_iff, Set.mem_ofPred_eq, fallsBy_concat curve peak value y h.peak, hneg,
        false_and, or_false]
    rw [hset]
    exact h.worst

/-! ### Gains less costs -/

section Costs

variable [IsStrictOrderedRing K] {ι : Type} (gain cost : ι → K) (start : K)

/-- The peaks of the two curves are never further apart than the costs. -/
theorem peaks (l : List ι) (hcost : ∀ i ∈ l, 0 ≤ cost i) :
    ∃ top netTop, IsGreatest {v | v ∈ gross gain start l} top ∧
      IsGreatest {v | v ∈ net gain cost start l} netTop ∧ netTop ≤ top ∧
      top ≤ netTop + (l.map cost).sum ∧ start ≤ netTop := by
  induction l using List.reverseRecOn with
  | nil =>
    have hstart := (tracks_singleton start).peak
    exact ⟨start, start, hstart, hstart, le_rfl, by simp, le_rfl⟩
  | append_singleton l i ih =>
    have hi := hcost i (List.mem_append_right _ (List.mem_singleton_self i))
    obtain ⟨top, netTop, htop, hnetTop, hle, hge, hstart⟩ :=
      ih fun j hj => hcost j (List.mem_append_left _ hj)
    have hsum : 0 ≤ (l.map cost).sum :=
      List.sum_nonneg (List.forall_mem_map.mpr fun j hj => hcost j (List.mem_append_left _ hj))
    have hgrossPeak := isGreatest_concat _ top (start + (l.map gain).sum + gain i) htop
    have hnetPeak := isGreatest_concat _ netTop
      (start + (l.map fun i => gain i - cost i).sum + (gain i - cost i)) hnetTop
    rw [gross, ← balances_concat] at hgrossPeak
    rw [net, ← balances_concat] at hnetPeak
    rw [gross, net, List.map_append, List.map_append, List.map_append, List.sum_append]
    refine ⟨_, _, hgrossPeak, hnetPeak, ?_, ?_, hstart.trans (le_max_left _ _)⟩
    · refine max_le_max hle ?_
      rw [sum_net]
      linarith
    · rw [List.map_singleton, List.sum_singleton]
      refine max_le ?_ ?_
      · have hold := le_max_left netTop
          (start + (l.map fun i => gain i - cost i).sum + (gain i - cost i))
        linarith
      · have hnew := le_max_right netTop
          (start + (l.map fun i => gain i - cost i).sum + (gain i - cost i))
        rw [sum_net] at hnew ⊢
        linarith

/-- What the costs add to a fall, over the positive product of the peaks. -/
theorem cross_le (top netTop value total : K) (hvalue : value ≤ top) (hle : netTop ≤ top)
    (hge : top ≤ netTop + total) (htop : 0 ≤ top) : value * (top - netTop) ≤ total * top := by
  have hgap : 0 ≤ top - netTop := sub_nonneg.mpr hle
  calc value * (top - netTop) ≤ top * (top - netTop) := mul_le_mul_of_nonneg_right hvalue hgap
    _ ≤ top * total := mul_le_mul_of_nonneg_left (by linarith) htop
    _ = total * top := mul_comm _ _

theorem fall_le (top netTop value total : K) (hvalue : value ≤ top) (hle : netTop ≤ top)
    (hge : top ≤ netTop + total) (hpos : 0 < netTop) :
    fall top value ≤ fall netTop (value - total) := by
  have htop : 0 < top := hpos.trans_le hle
  have hcross := cross_le top netTop value total hvalue hle hge htop.le
  unfold fall
  refine mul_le_mul_of_nonneg_right ?_ (by norm_num)
  rw [div_le_div_iff₀ htop hpos]
  linarith

theorem fall_lt (top netTop value total : K) (htotal : 0 < total) (hvalue : value < top)
    (hle : netTop ≤ top) (hge : top ≤ netTop + total) (hpos : 0 < netTop) :
    fall top value < fall netTop (value - total) := by
  have htop : 0 < top := hpos.trans_le hle
  have hcross : value * (top - netTop) < total * top := by
    rcases (sub_nonneg.mpr hle).eq_or_lt with hsame | hgap
    · rw [← hsame, mul_zero]
      exact mul_pos htotal htop
    · have hstrict := mul_lt_mul_of_pos_right hvalue hgap
      have hrest := cross_le top netTop top total le_rfl hle hge htop.le
      exact hstrict.trans_le hrest
  unfold fall
  refine mul_lt_mul_of_pos_right ?_ (by norm_num)
  rw [div_lt_div_iff₀ htop hpos]
  linarith

/-- A fall of the gains, after the first of them, and what the balance has fallen there. -/
theorem fallsBy_gross (l : List ι) (x : K) (hstart : 0 < start) (hcost : ∀ i ∈ l, 0 ≤ cost i)
    (h : FallsBy (gross gain start l) x) :
    ∃ n y, FallsBy (gross gain start (l.take n)) x ∧ FallsBy (net gain cost start l) y ∧ x ≤ y ∧
      (0 < x → 0 < ((l.take n).map cost).sum → x < y) := by
  obtain ⟨upTo, value, peak, hprefix, hlast, hpeak, hpos, hx⟩ := h
  have hne : upTo ≠ [] := by
    intro hnil
    rw [hnil] at hlast
    cases hlast
  obtain ⟨n, hn⟩ := balances_part start (l.map gain) upTo hprefix hne
  rw [← List.map_take] at hn
  rw [hn, balances_last] at hlast
  obtain rfl := Option.some.inj hlast
  rw [hn] at hpeak
  have hcosts : ∀ i ∈ l.take n, 0 ≤ cost i := fun i hi => hcost i (List.mem_of_mem_take hi)
  obtain ⟨top, netTop, htop, hnetTop, hle, hge, hbase⟩ := peaks gain cost start (l.take n) hcosts
  obtain rfl : top = peak := htop.unique hpeak
  have hnetPos : 0 < netTop := hstart.trans_le hbase
  have hvalue : start + ((l.take n).map gain).sum ≤ top :=
    hpeak.2 (List.mem_of_getLast? (balances_last start ((l.take n).map gain)))
  have hnetLast : start + ((l.take n).map fun i => gain i - cost i).sum =
      start + ((l.take n).map gain).sum - ((l.take n).map cost).sum := by
    rw [sum_net]
    ring
  refine ⟨n, fall netTop (start + ((l.take n).map fun i => gain i - cost i).sum), ?_, ?_, ?_, ?_⟩
  · exact ⟨_, _, top, List.prefix_rfl, balances_last start _, hpeak, hpos, hx⟩
  · exact ⟨_, _, netTop, net_take_part gain cost start l n, balances_last start _, hnetTop,
      hnetPos, rfl⟩
  · rw [hx, hnetLast]
    exact fall_le top netTop _ _ hvalue hle hge hnetPos
  · intro hxpos hcharged
    have hbelow : start + ((l.take n).map gain).sum < top := by
      refine lt_of_le_of_ne hvalue fun heq => ?_
      rw [hx, heq, fall_self] at hxpos
      exact lt_irrefl _ hxpos
    rw [hx, hnetLast]
    exact fall_lt top netTop _ _ hcharged hbelow hle hge hnetPos

/-- Costs never make the maximum drawdown less. -/
theorem isMaxDrawdown_le (l : List ι) (x y : K) (hstart : 0 < start) (hcost : ∀ i ∈ l, 0 ≤ cost i)
    (hx : IsMaxDrawdown (gross gain start l) x) (hy : IsMaxDrawdown (net gain cost start l) y) :
    x ≤ y := by
  rcases hx.1 with rfl | hfalls
  · exact hy.2 (Set.mem_insert _ _)
  · obtain ⟨_, z, _, hz, hle, _⟩ := fallsBy_gross gain cost start l x hstart hcost hfalls
    exact hle.trans (hy.2 (Set.mem_insert_of_mem _ hz))

/-- They leave it as it is exactly when it has been reached before the first of them. -/
theorem isMaxDrawdown_net_iff (l : List ι) (x : K) (hstart : 0 < start)
    (hcost : ∀ i ∈ l, 0 ≤ cost i) (hx : IsMaxDrawdown (gross gain start l) x) :
    IsMaxDrawdown (net gain cost start l) x ↔
      ∃ n y, (∀ i ∈ l.take n, cost i = 0) ∧ IsMaxDrawdown (net gain cost start (l.take n)) y ∧
        IsMaxDrawdown (net gain cost start l) y := by
  constructor
  · intro hnet
    rcases (hx.2 (Set.mem_insert (0 : K) _)).eq_or_lt with rfl | hpos
    · refine ⟨0, 0, fun i hi => absurd hi ?_, (tracks_singleton start).worst, hnet⟩
      rw [List.take_zero]
      exact List.not_mem_nil
    · have hfalls := hx.1.resolve_left hpos.ne'
      obtain ⟨n, z, hgross, hz, _, hlt⟩ := fallsBy_gross gain cost start l x hstart hcost hfalls
      have hcosts : ∀ c ∈ (l.take n).map cost, 0 ≤ c :=
        List.forall_mem_map.mpr fun i hi => hcost i (List.mem_of_mem_take hi)
      have hzero : ((l.take n).map cost).sum = 0 := by
        rcases (List.sum_nonneg hcosts).eq_or_lt with hsum | hsum
        · exact hsum.symm
        · exact absurd (hnet.2 (Set.mem_insert_of_mem _ hz)) (not_le.mpr (hlt hpos hsum))
      have hfree : ∀ i ∈ l.take n, cost i = 0 := fun i hi =>
        List.all_zero_of_le_zero_le_of_sum_eq_zero hcosts hzero (List.mem_map_of_mem hi)
      refine ⟨n, x, hfree, ⟨.inr ?_, fun y hy => hnet.2 ?_⟩, hnet⟩
      · rw [net_eq_gross gain cost start _ hfree]
        exact hgross
      · rcases hy with hy | hy
        · exact .inl hy
        · exact .inr (fallsBy_longer _ _ y (net_take_part gain cost start l n) hy)
  · intro ⟨n, y, hfree, hearly, hnet⟩
    rw [net_eq_gross gain cost start _ hfree] at hearly
    have hge := isMaxDrawdown_prefix_le _ _ y x (gross_take_part gain start l n) hearly hx
    have hle := isMaxDrawdown_le gain cost start l x y hstart hcost hx hnet
    rw [le_antisymm hle hge]
    exact hnet

end Costs

end Drawdown
