import Mathlib.Tactic
import Reverto.Core.BareDeals

/-!
# The position-size advisories (web/routes/bots.py)

`_config_warnings` derives the largest order and the largest position of a bot from its
configuration; the engine gives the largest of all lives of the bot.
-/

namespace Reverto

namespace PositionAdvisory

open LadderReach LadderSize

/-! ### The advisories -/

/-- `Mode` -/
inductive Mode
  | live
  | paper
  | backtest
  deriving DecidableEq

/-- `level` -/
inductive Level
  | high
  | medium
  deriving DecidableEq

/-- `message`, with the numbers it prints. -/
inductive Message
  /-- "Worst-case DCA order is …× base order size (… BTC). This can require significant capital on
  the final levels." -/
  | capitalNeeded (multiple worst : ℚ)
  /-- "Worst-case DCA order is …× base order size. Verify your account can fund the deepest level." -/
  | deepestLevel (multiple : ℚ)
  /-- "Total position can reach …× base (… BTC). Ensure your balance supports this." -/
  | balanceNeeded (multiple cumulative : ℚ)
  /-- "Total position can reach …× base order size." -/
  | totalPosition (multiple : ℚ)
  /-- "Base order size … BTC exceeds the conservative 0.001 BTC starting point for live trading.
  Consider starting smaller until the strategy is proven." -/
  | largeBaseOrder (size : ℚ)
  /-- "Multiplier … × … orders produces very fast escalation (order 8 = …× base). Double-check this
  is intentional." -/
  | escalation (multiplier : ℚ) (orders : ℕ) (orderEight : ℚ)
  /-- "Drawdown guard is disabled. Enabling it is recommended for live trading as a last-resort kill
  switch." -/
  | noDrawdownGuard
  deriving DecidableEq

/-- An entry of `warnings`. -/
structure Warning where
  level : Level
  field : String
  message : Message
  deriving DecidableEq

/-- `summary` -/
structure Summary where
  mode : Mode
  baseOrderSize : ℚ
  worstCaseDca : ℚ
  worstCaseMultiple : ℚ
  cumulativePosition : ℚ
  cumulativeMultiple : ℚ
  maxOrders : ℕ
  multiplier : ℚ
  deriving DecidableEq

section Code

variable (cfg : BotConfig) (mode : Mode)

/-- `summary` of `_config_warnings` -/
def summary : Summary :=
  let bos := cfg.dca.baseOrderSize
  let maxOrders := max cfg.dca.maxOrders 1
  let multiplier := cfg.dca.multiplier
  let worst := bos * multiplier ^ (maxOrders - 1)
  let cumulative := ((List.range maxOrders).map fun i => bos * multiplier ^ i).sum
  { mode := mode
    baseOrderSize := bos
    worstCaseDca := worst
    worstCaseMultiple := if 0 < bos then worst / bos else 0
    cumulativePosition := cumulative
    cumulativeMultiple := if 0 < bos then cumulative / bos else 0
    maxOrders := maxOrders
    multiplier := multiplier }

/-- The worst-case single order. -/
def worstCaseWarnings (s : Summary) : List Warning :=
  if 50 < s.worstCaseMultiple then
    [⟨.high, "dca", .capitalNeeded s.worstCaseMultiple s.worstCaseDca⟩]
  else if 20 < s.worstCaseMultiple then [⟨.medium, "dca", .deepestLevel s.worstCaseMultiple⟩]
  else []

/-- The summed base order and rungs. -/
def cumulativeWarnings (s : Summary) : List Warning :=
  if 150 < s.cumulativeMultiple then
    [⟨.high, "dca", .balanceNeeded s.cumulativeMultiple s.cumulativePosition⟩]
  else if 100 < s.cumulativeMultiple then [⟨.medium, "dca", .totalPosition s.cumulativeMultiple⟩]
  else []

/-- The base order of a live bot. -/
def baseOrderWarnings (s : Summary) : List Warning :=
  if s.mode = .live ∧ 1 / 1000 < s.baseOrderSize then
    [⟨.high, "dca.base_order_size", .largeBaseOrder s.baseOrderSize⟩]
  else []

/-- The geometric explosion. -/
def escalationWarnings (s : Summary) : List Warning :=
  if 2 ≤ s.multiplier ∧ 8 ≤ s.maxOrders then
    [⟨.high, "dca", .escalation s.multiplier s.maxOrders (s.multiplier ^ 7)⟩]
  else []

/-- A live bot without the guard. -/
def drawdownWarnings (s : Summary) : List Warning :=
  if s.mode = .live ∧ cfg.drawdownGuard.enabled = false then
    [⟨.medium, "drawdown_guard", .noDrawdownGuard⟩]
  else []

/-- `_config_warnings` -/
def configWarnings : List Warning × Summary :=
  let s := summary cfg mode
  (worstCaseWarnings s ++ cumulativeWarnings s ++ baseOrderWarnings s ++ escalationWarnings s ++
    drawdownWarnings cfg s, s)

end Code

/-! ### What the engine reaches -/

variable (cfg : BotConfig) (sig : Signals) (mode : Mode)

/-- The sizes of the orders of all lives of the bot. -/
def orderSizes : Set ℚ := {x | ∃ d, Lives cfg sig d ∧ ∃ o ∈ d.orders, o.size = x}

/-- The total sizes of the deals of all lives of the bot. -/
def dealSizes : Set ℚ := {x | ∃ d, Lives cfg sig d ∧ d.totalSize = x}

/-- The advisories are exact. -/
structure Exact : Prop where
  worst : IsGreatest (orderSizes cfg sig) (configWarnings cfg mode).2.worstCaseDca
  cumulative : IsGreatest (dealSizes cfg sig) (configWarnings cfg mode).2.cumulativePosition
  quiet : (configWarnings cfg mode).1 = [] → ∀ d, Lives cfg sig d →
    (∀ o ∈ d.orders, o.size ≤ 20 * cfg.dca.baseOrderSize) ∧ d.totalSize ≤ 100 * cfg.dca.baseOrderSize

/-- The largest deal of all lives has the base order and the first `n` rungs. -/
structure Tops (n : ℕ) : Prop where
  all : ∀ d, Lives cfg sig d → ∃ k ≤ n, d.orders.map PaperOrder.size = ladderOrders cfg k
  full : ∃ d, Lives cfg sig d ∧ d.orders.map PaperOrder.size = ladderOrders cfg n

theorem totalSize_ladder (d : PaperDeal) (n : ℕ)
    (h : d.orders.map PaperOrder.size = ladderOrders cfg n) : d.totalSize = ladderSize cfg n := by
  rw [PaperDeal.totalSize, h, ladderOrders_sum]

/-- Where a deal can come to its ladder, the whole ladder is filled in some life. -/
theorem tops_ladder (h : CanLadder cfg sig) : Tops cfg sig (maxRungs cfg) := by
  refine ⟨fun d hd => ?_, ?_⟩
  · obtain ⟨k, hk⟩ := fillsRungs_of_lives cfg sig d hd
    exact ⟨k, hk.bounded, hk.sizes⟩
  · obtain ⟨ls, s, d, hitems, hd, hw⟩ := standsOn_any cfg sig h (maxRungs cfg) le_rfl
    refine ⟨d, ⟨1, ls, List.mem_append_left _ ?_⟩, hd.fills.sizes⟩
    rw [hw.state, hitems]
    exact List.mem_singleton_self d

/-- Elsewhere every deal is its base order. -/
theorem tops_base (hopen : CanOpen cfg sig) (h : maxRungs cfg = 0 ∨ ¬ CanLadder cfg sig) :
    Tops cfg sig 0 := by
  have hall : ∀ d, Lives cfg sig d → d.orders.map PaperOrder.size = ladderOrders cfg 0 := by
    intro d hd
    rcases h with hzero | hladder
    · obtain ⟨k, hk⟩ := fillsRungs_of_lives cfg sig d hd
      have hk0 : k = 0 := by
        have := hk.bounded
        omega
      rw [hk.sizes, hk0]
    · exact (bare_of_lives cfg sig hladder d hd).2
  obtain ⟨d, hd⟩ := lives_opened cfg sig hopen
  exact ⟨fun e he => ⟨0, le_rfl, hall e he⟩, d, hd, hall d hd⟩

/-- A bot that cannot open a deal has none. -/
theorem lives_canOpen (d : PaperDeal) (h : Lives cfg sig d) : CanOpen cfg sig := by
  by_cases hladder : CanLadder cfg sig
  · rcases hladder with htrigger | ⟨henter, _⟩
    · exact .inl htrigger
    · exact .inr henter
  · exact .inr (bare_of_lives cfg sig hladder d h).1

section Greatest

variable (n : ℕ) (h : Tops cfg sig n)

include h

theorem isGreatest_orderSizes_iff (x : ℚ) :
    IsGreatest (orderSizes cfg sig) x ↔
      x ∈ ladderOrders cfg n ∧ ∀ y ∈ ladderOrders cfg n, y ≤ x := by
  have hset : orderSizes cfg sig = {y | y ∈ ladderOrders cfg n} := by
    ext y
    constructor
    · rintro ⟨d, hd, o, ho, rfl⟩
      obtain ⟨k, hk, hsizes⟩ := h.all d hd
      exact ladderOrders_subset cfg k n hk (hsizes ▸ List.mem_map_of_mem ho)
    · intro hy
      obtain ⟨d, hd, hsizes⟩ := h.full
      have hmem : y ∈ d.orders.map PaperOrder.size := hsizes ▸ hy
      obtain ⟨o, ho, hsize⟩ := List.mem_map.mp hmem
      exact ⟨d, hd, o, ho, hsize⟩
  rw [hset]
  exact Iff.rfl

theorem isGreatest_dealSizes_iff (x : ℚ) :
    IsGreatest (dealSizes cfg sig) x ↔ x = ladderSize cfg n := by
  have htop : IsGreatest (dealSizes cfg sig) (ladderSize cfg n) := by
    constructor
    · obtain ⟨d, hd, hsizes⟩ := h.full
      exact ⟨d, hd, totalSize_ladder cfg d n hsizes⟩
    · rintro y ⟨d, hd, rfl⟩
      obtain ⟨k, hk, hsizes⟩ := h.all d hd
      rw [totalSize_ladder cfg d k hsizes]
      exact ladderSize_mono cfg hk
  constructor
  · intro hx
    exact hx.unique htop
  · rintro rfl
    exact htop

end Greatest

/-! ### When the two agree -/

/-- The rungs of the engine, from multiplier 0 on, are those the advisory counts, from multiplier 1
on. -/
structure SameLadder : Prop where
  multiplier : 1 ≤ cfg.dca.multiplier
  last : rungSize cfg (cfg.dca.maxOrders - 2) =
    cfg.dca.baseOrderSize * cfg.dca.multiplier ^ (cfg.dca.maxOrders - 1)
  total : ((List.range (cfg.dca.maxOrders - 1)).map (rungSize cfg)).sum =
    ((List.range (cfg.dca.maxOrders - 1)).map fun i =>
      cfg.dca.baseOrderSize * cfg.dca.multiplier ^ (i + 1)).sum

/-- A larger ladder has larger rungs. -/
theorem rungSize_mono (hm : 1 ≤ cfg.dca.multiplier) : Monotone (rungSize cfg) := by
  intro i j hij
  refine Decimal.roundTo_mono 8 _ _ ?_
  exact mul_le_mul_of_nonneg_left (pow_le_pow_right₀ hm hij) cfg.dca.baseOrderSize_pos.le

/-- The cumulative position is the base order and the orders behind it. -/
theorem cumulative_succ (n : ℕ) (hn : cfg.dca.maxOrders = n + 1) :
    (summary cfg mode).cumulativePosition = cfg.dca.baseOrderSize +
      ((List.range n).map fun i => cfg.dca.baseOrderSize * cfg.dca.multiplier ^ (i + 1)).sum := by
  have hmax : max cfg.dca.maxOrders 1 = n + 1 := by omega
  simp only [summary, hmax, List.range_succ_eq_map, List.map_cons, List.map_map, List.sum_cons,
    pow_zero, mul_one]
  rfl

theorem worst_succ (n : ℕ) (hn : cfg.dca.maxOrders = n + 1) :
    (summary cfg mode).worstCaseDca = cfg.dca.baseOrderSize * cfg.dca.multiplier ^ n := by
  have hmax : max cfg.dca.maxOrders 1 = n + 1 := by omega
  simp only [summary, hmax, Nat.add_sub_cancel]

/-- A bot of one order. -/
theorem summary_one (h : cfg.dca.maxOrders ≤ 1) :
    (summary cfg mode).worstCaseDca = cfg.dca.baseOrderSize ∧
      (summary cfg mode).cumulativePosition = cfg.dca.baseOrderSize := by
  have hmax : max cfg.dca.maxOrders 1 = 1 := by omega
  simp [summary, hmax]

/-- With two orders and more the cumulative position is larger than the base order. -/
theorem cumulative_gt (n : ℕ) (hn : cfg.dca.maxOrders = n + 2) :
    cfg.dca.baseOrderSize < (summary cfg mode).cumulativePosition := by
  have hbos := cfg.dca.baseOrderSize_pos
  have hpos : 0 < ((List.range (n + 1)).map fun i =>
      cfg.dca.baseOrderSize * cfg.dca.multiplier ^ (i + 1)).sum := by
    refine List.sum_pos _ ?_ (by simp)
    intro x hx
    obtain ⟨i, _, rfl⟩ := List.mem_map.mp hx
    exact mul_pos hbos (pow_pos cfg.dca.multiplier_pos _)
  rw [cumulative_succ cfg mode (n + 1) hn]
  linarith

/-- The two largest orders and the two largest deals are the same numbers on the same ladder. -/
theorem sameLadder_iff (n : ℕ) (hn : cfg.dca.maxOrders = n + 2) :
    (((summary cfg mode).worstCaseDca ∈ ladderOrders cfg (n + 1) ∧
        ∀ y ∈ ladderOrders cfg (n + 1), y ≤ (summary cfg mode).worstCaseDca) ∧
      (summary cfg mode).cumulativePosition = ladderSize cfg (n + 1)) ↔ SameLadder cfg := by
  have hbos := cfg.dca.baseOrderSize_pos
  have hlast : cfg.dca.maxOrders - 2 = n := by omega
  have hcount : cfg.dca.maxOrders - 1 = n + 1 := by omega
  rw [worst_succ cfg mode (n + 1) hn, cumulative_succ cfg mode (n + 1) hn, ladderSize,
    add_right_inj]
  constructor
  · rintro ⟨⟨hmem, hle⟩, htotal⟩
    have hbase := hle _ List.mem_cons_self
    have hm : 1 ≤ cfg.dca.multiplier := by
      by_contra hlt
      have hpow : cfg.dca.multiplier ^ (n + 1) < 1 :=
        pow_lt_one₀ cfg.dca.multiplier_pos.le (not_le.mp hlt) (Nat.succ_ne_zero n)
      have hsmall := mul_lt_mul_of_pos_left hpow hbos
      linarith
    refine ⟨hm, ?_, by rw [hcount]; exact htotal.symm⟩
    rw [hlast, hcount]
    have hrung : rungSize cfg n ∈ ladderOrders cfg (n + 1) :=
      List.mem_cons_of_mem _ (List.mem_map_of_mem (List.mem_range.mpr (Nat.lt_succ_self n)))
    refine le_antisymm (hle _ hrung) ?_
    rcases List.mem_cons.mp hmem with heq | hmem
    · -- the largest order is the base order, so the multiplier is 1 and the sums decide
      have hone : cfg.dca.multiplier = 1 := by
        have hpow : cfg.dca.multiplier ^ (n + 1) = 1 := by
          have hscaled : cfg.dca.baseOrderSize * cfg.dca.multiplier ^ (n + 1) =
              cfg.dca.baseOrderSize * 1 := by rw [heq, mul_one]
          exact mul_left_cancel₀ hbos.ne' hscaled
        exact (pow_eq_one_iff_of_nonneg cfg.dca.multiplier_pos.le (Nat.succ_ne_zero n)).mp hpow
      have hrungs : ∀ i, rungSize cfg i = rungSize cfg n := by
        intro i
        simp only [rungSize, hone, one_pow]
      have hsum : ((n + 1 : ℕ) : ℚ) * cfg.dca.baseOrderSize = ((n + 1 : ℕ) : ℚ) * rungSize cfg n := by
        have hleft : ((List.range (n + 1)).map fun i =>
            cfg.dca.baseOrderSize * cfg.dca.multiplier ^ (i + 1)).sum =
              ((n + 1 : ℕ) : ℚ) * cfg.dca.baseOrderSize := by
          simp [hone]
        have hright : ((List.range (n + 1)).map (rungSize cfg)).sum =
            ((n + 1 : ℕ) : ℚ) * rungSize cfg n := by
          rw [List.map_congr_left fun i _ => hrungs i]
          simp
        rw [← hleft, ← hright]
        exact htotal
      rw [heq]
      exact (mul_left_cancel₀ (by positivity) hsum).le
    · obtain ⟨i, hi, heq⟩ := List.mem_map.mp hmem
      rw [← heq]
      exact rungSize_mono cfg hm (Nat.lt_succ_iff.mp (List.mem_range.mp hi))
  · rintro ⟨hm, hworst, htotal⟩
    rw [hlast, hcount] at hworst
    rw [hcount] at htotal
    refine ⟨⟨?_, fun y hy => ?_⟩, htotal.symm⟩
    · rw [← hworst]
      exact List.mem_cons_of_mem _ (List.mem_map_of_mem (List.mem_range.mpr (Nat.lt_succ_self n)))
    · rcases List.mem_cons.mp hy with rfl | hy
      · have hpow : 1 ≤ cfg.dca.multiplier ^ (n + 1) := one_le_pow₀ hm
        have hlarge := mul_le_mul_of_nonneg_left hpow hbos.le
        linarith
      · obtain ⟨i, hi, rfl⟩ := List.mem_map.mp hy
        rw [← hworst]
        exact rungSize_mono cfg hm (Nat.lt_succ_iff.mp (List.mem_range.mp hi))

/-- Where no rung is rounded, only the multiplier 1 makes the ladders the same. -/
theorem sameLadder_iff_one (hn : 2 ≤ cfg.dca.maxOrders)
    (hexact : ∀ k, rungSize cfg k = cfg.dca.baseOrderSize * cfg.dca.multiplier ^ k) :
    SameLadder cfg ↔ cfg.dca.multiplier = 1 := by
  have hbos := cfg.dca.baseOrderSize_pos
  constructor
  · rintro ⟨hm, hlast, _⟩
    obtain ⟨n, hn⟩ : ∃ n, cfg.dca.maxOrders = n + 2 := ⟨cfg.dca.maxOrders - 2, by omega⟩
    have hbelow : cfg.dca.maxOrders - 2 = n := by omega
    have habove : cfg.dca.maxOrders - 1 = n + 1 := by omega
    rw [hexact, hbelow, habove, pow_succ] at hlast
    have hpow : 0 < cfg.dca.multiplier ^ n := pow_pos cfg.dca.multiplier_pos n
    have hscaled := mul_left_cancel₀ hbos.ne' hlast
    have hcancel : cfg.dca.multiplier ^ n * 1 = cfg.dca.multiplier ^ n * cfg.dca.multiplier := by
      rw [mul_one]
      exact hscaled
    exact (mul_left_cancel₀ hpow.ne' hcancel).symm
  · intro hone
    refine ⟨hone.ge, ?_, ?_⟩
    · rw [hexact, hone, one_pow, one_pow]
    · refine congrArg List.sum (List.map_congr_left fun i _ => ?_)
      rw [hexact, hone, one_pow, one_pow]

/-- Without a warning the multiples are below the thresholds. -/
theorem quiet_multiples (h : (configWarnings cfg mode).1 = []) :
    (summary cfg mode).worstCaseDca ≤ 20 * cfg.dca.baseOrderSize ∧
      (summary cfg mode).cumulativePosition ≤ 100 * cfg.dca.baseOrderSize := by
  have hbos := cfg.dca.baseOrderSize_pos
  have hworst : (summary cfg mode).worstCaseMultiple =
      (summary cfg mode).worstCaseDca / cfg.dca.baseOrderSize := if_pos hbos
  have htotal : (summary cfg mode).cumulativeMultiple =
      (summary cfg mode).cumulativePosition / cfg.dca.baseOrderSize := if_pos hbos
  simp only [configWarnings, List.append_eq_nil_iff] at h
  obtain ⟨⟨⟨⟨hw, hc⟩, _⟩, _⟩, _⟩ := h
  constructor
  · by_contra hlt
    have habove : 20 < (summary cfg mode).worstCaseMultiple := by
      rw [hworst, lt_div_iff₀ hbos]
      exact not_le.mp hlt
    simp only [worstCaseWarnings, if_pos habove] at hw
    split at hw
    · cases hw
    · cases hw
  · by_contra hlt
    have habove : 100 < (summary cfg mode).cumulativeMultiple := by
      rw [htotal, lt_div_iff₀ hbos]
      exact not_le.mp hlt
    simp only [cumulativeWarnings, if_pos habove] at hc
    split at hc
    · cases hc
    · cases hc

/-- The two maxima make the thresholds hold. -/
theorem exact_of_greatest
    (hworst : IsGreatest (orderSizes cfg sig) (summary cfg mode).worstCaseDca)
    (htotal : IsGreatest (dealSizes cfg sig) (summary cfg mode).cumulativePosition) :
    Exact cfg sig mode := by
  refine ⟨hworst, htotal, fun hquiet d hd => ?_⟩
  obtain ⟨hw, hc⟩ := quiet_multiples cfg mode hquiet
  refine ⟨fun o ho => ?_, ?_⟩
  · have hsize := hworst.2 ⟨d, hd, o, ho, rfl⟩
    exact hsize.trans hw
  · have hsize := htotal.2 ⟨d, hd, rfl⟩
    exact hsize.trans hc

/-- The advisories are exact for the bots whose largest deal has the numbers of the summary. -/
theorem exact_tops_iff (n : ℕ) (h : Tops cfg sig n) :
    Exact cfg sig mode ↔
      ((summary cfg mode).worstCaseDca ∈ ladderOrders cfg n ∧
        ∀ y ∈ ladderOrders cfg n, y ≤ (summary cfg mode).worstCaseDca) ∧
      (summary cfg mode).cumulativePosition = ladderSize cfg n := by
  rw [← isGreatest_orderSizes_iff cfg sig n h, ← isGreatest_dealSizes_iff cfg sig n h]
  constructor
  · intro hexact
    exact ⟨hexact.worst, hexact.cumulative⟩
  · rintro ⟨hworst, htotal⟩
    exact exact_of_greatest cfg sig mode hworst htotal

/-- The advisories are exact for the bots of one order that open deals, and for those that come to a
ladder whose rungs are the orders the advisory counts. -/
theorem exact_iff :
    Exact cfg sig mode ↔ CanOpen cfg sig ∧ (cfg.dca.maxOrders ≤ 1 ∨
      (cfg.dca.enabled = true ∧ CanLadder cfg sig ∧ SameLadder cfg)) := by
  by_cases hopen : CanOpen cfg sig
  · rcases Nat.lt_or_ge 1 cfg.dca.maxOrders with hmany | hone
    · obtain ⟨n, hn⟩ : ∃ n, cfg.dca.maxOrders = n + 2 := ⟨cfg.dca.maxOrders - 2, by omega⟩
      by_cases hreach : cfg.dca.enabled = true ∧ CanLadder cfg sig
      · have hrungs : maxRungs cfg = n + 1 := by
          rw [maxRungs, if_pos hreach.1, hn]
          rfl
        have htops := tops_ladder cfg sig hreach.2
        rw [hrungs] at htops
        rw [exact_tops_iff cfg sig mode (n + 1) htops, sameLadder_iff cfg mode n hn]
        constructor
        · intro hsame
          exact ⟨hopen, .inr ⟨hreach.1, hreach.2, hsame⟩⟩
        · rintro ⟨_, hone | ⟨_, _, hsame⟩⟩
          · omega
          · exact hsame
      · -- every deal is its base order, and the advisory counts more
        have hzero : maxRungs cfg = 0 ∨ ¬ CanLadder cfg sig := by
          by_cases henabled : cfg.dca.enabled = true
          · exact .inr fun hladder => hreach ⟨henabled, hladder⟩
          · exact .inl (if_neg henabled)
        have hlarge := cumulative_gt cfg mode n hn
        rw [exact_tops_iff cfg sig mode 0 (tops_base cfg sig hopen hzero)]
        constructor
        · rintro ⟨_, htotal⟩
          have hbase : ladderSize cfg 0 = cfg.dca.baseOrderSize := by simp [ladderSize]
          rw [htotal, hbase] at hlarge
          exact absurd hlarge (lt_irrefl _)
        · rintro ⟨_, hone | ⟨henabled, hladder, _⟩⟩
          · omega
          · exact absurd ⟨henabled, hladder⟩ hreach
    · obtain ⟨hworst, htotal⟩ := summary_one cfg mode hone
      have hzero : maxRungs cfg = 0 := by
        unfold maxRungs
        split
        · omega
        · rfl
      rw [exact_tops_iff cfg sig mode 0 (tops_base cfg sig hopen (.inl hzero)), hworst, htotal]
      simp [ladderOrders, ladderSize, hopen, hone]
  · constructor
    · intro hexact
      obtain ⟨d, hd, _⟩ := hexact.cumulative.1
      exact absurd (lives_canOpen cfg sig d hd) hopen
    · intro h
      exact absurd h.1 hopen

/-- Three orders, of which the last is 2.5 times the base order. -/
def growingBot : BotConfig := { BotConfig.small "grow" with dca := .growing }

/-- The advisory has an order of 6.25 times the base order, where the engine places none above 2.5. -/
theorem not_exact_growing : ¬ Exact growingBot Signals.silent .paper := by
  intro h
  obtain ⟨d, hd, o, ho, hsize⟩ := h.worst.1
  obtain ⟨n, hn⟩ := fillsRungs_of_lives growingBot Signals.silent d hd
  have hbound : n ≤ 2 := hn.bounded
  have hmem : o.size ∈ ladderOrders growingBot 2 :=
    ladderOrders_subset growingBot n 2 hbound (hn.sizes ▸ List.mem_map_of_mem ho)
  rw [hsize] at hmem
  revert hmem
  decide +kernel

end PositionAdvisory

end Reverto
