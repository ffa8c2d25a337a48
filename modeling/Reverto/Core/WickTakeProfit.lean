import Mathlib.Tactic
import Reverto.Core.EngineSteps

/-!
# Take-profit fills on the wick (core/trading_engine.py)

`_check_tp` compares the extreme since open with a target that moves with every
order and every edit. A fill is stale when the extreme was recorded before the
target was what it is, and no price has reached the target since.
-/

namespace Reverto

namespace WickTakeProfit

open TradingEngine

variable (cfg : BotConfig) (sig : Signals)

/-- Order fills, changes of the take-profit settings and held take profits of a deal. -/
def renews (dealId : String) : EngineEvent → Bool
  | .opened i _ => decide (i = dealId)
  | .dcaFilled i _ => decide (i = dealId)
  | .tpHeld i => decide (i = dealId)
  | .edited i _ tpChanged => decide (i = dealId) && tpChanged
  | _ => false

/-- None of the events renews the deal. -/
def Quiet (dealId : String) (l : List EngineEvent) : Prop := ∀ e ∈ l, renews dealId e = false

instance (dealId : String) (l : List EngineEvent) : Decidable (Quiet dealId l) :=
  inferInstanceAs (Decidable (∀ e ∈ l, _))

theorem quiet_append (i : String) (l l' : List EngineEvent) :
    Quiet i (l ++ l') ↔ Quiet i l ∧ Quiet i l' := by
  simp only [Quiet, List.mem_append]
  constructor
  · intro h
    exact ⟨fun e he => h e (Or.inl he), fun e he => h e (Or.inr he)⟩
  · rintro ⟨h, h'⟩ e (he | he)
    · exact h e he
    · exact h' e he

/-- What the take profit of a deal on the price path depends on. -/
structure SamePosition (d d' : PaperDeal) : Prop where
  id : d'.id = d.id
  side : d'.side = d.side
  orders : d'.orders = d.orders
  tpOverride : d'.tpOverride = d.tpOverride
  wickHigh : d'.wickHighSinceOpen = d.wickHighSinceOpen
  wickLow : d'.wickLowSinceOpen = d.wickLowSinceOpen

theorem SamePosition.rfl' (d : PaperDeal) : SamePosition d d := ⟨rfl, rfl, rfl, rfl, rfl, rfl⟩

theorem SamePosition.trans' (d e f : PaperDeal) (h : SamePosition d e) (h' : SamePosition e f) :
    SamePosition d f :=
  ⟨h'.id.trans h.id, h'.side.trans h.side, h'.orders.trans h.orders,
    h'.tpOverride.trans h.tpOverride, h'.wickHigh.trans h.wickHigh, h'.wickLow.trans h.wickLow⟩

/-! ### Quiet operations keep the position -/

/-- Without a renewing event a deal open afterwards was open before, in the same position. -/
def Keeps (dealId : String) (w : World) (l : List EngineEvent) (w' : World) : Prop :=
  Quiet dealId l → ∀ d', w'.deal? dealId = some d' →
    ∃ d, w.deal? dealId = some d ∧ SamePosition d d'

theorem keeps_traceRel (dealId : String) : Program.TraceRel (Keeps dealId) where
  nil w _ d' hd' := ⟨d', hd', .rfl' d'⟩
  append := by
    intro w l v l' u h h' hq d' hd'
    obtain ⟨hq1, hq2⟩ := (quiet_append dealId l l').mp hq
    obtain ⟨e, he, hsame⟩ := h' hq2 d' hd'
    obtain ⟨d, hd, hsame'⟩ := h hq1 e he
    exact ⟨d, hd, hsame'.trans' _ _ _ hsame⟩

theorem keeps_op (dealId : String) (op : EngineOp) (hop : ∀ price, op ≠ .trackWicks price) :
    Program.Respects (Keeps dealId) (op.program cfg sig) := by
  intro w hq d' hd'
  obtain ⟨hmem, hid⟩ := KeyedDict.get?_mem _ _ _ hd'
  rcases continues_op cfg sig op hop w d' hmem with ⟨d, hd, hstep⟩ | ⟨now, price, t, _, hopened⟩
  · have hdid : d.id = dealId := (DealStep.id_eq cfg _ _ _ _ hstep).symm.trans hid
    have hget : w.deal? dealId = some d := by
      rw [← hdid]
      exact KeyedDict.get?_of_mem _ d hd
    refine ⟨d, hget, ?_⟩
    cases hstep with
    | same => exact .rfl' _
    | peak now price h => exact ⟨rfl, rfl, rfl, rfl, rfl, rfl⟩
    | order now price h =>
      have hno := hq _ h
      simp [renews, hdid] at hno
    | settings s h =>
      have hno := hq _ h
      simp only [renews, hdid, decide_true, Bool.true_and, tpChanged, decide_eq_false_iff_not,
        not_not] at hno
      exact ⟨rfl, rfl, rfl, hno, rfl, rfl⟩
  · have hno := hq _ hopened
    simp [renews, hid] at hno

/-- The trackers of a deal after a tick that leaves its position alone. -/
def trackTick (inp : TickInput) (d : PaperDeal) : PaperDeal :=
  match inp.ticker with
  | .ok t => trackWick t.tickPrice d
  | .error _ => d

theorem hooked_deal? (inp : TickInput) (w : World) (i : String) :
    (hooked inp w).deal? i = w.deal? i := by
  simp only [World.deal?, hooked, (preTickHook_account inp w).1]

theorem postTick_deal? (w : World) (i : String) : (postTickHook w).state.deal? i = w.deal? i := by
  simp only [World.deal?, (postTickHook_account w).1]

theorem tracked_deal? (price : ℚ) (w : World) (i : String) :
    (tracked price w).deal? i = (w.deal? i).map (trackWick price) :=
  KeyedDict.get?_mapValues w.engine.state.openDeals (trackWick price) (fun _ => rfl) i

theorem tick_keeps (inp : TickInput) (w : World) (i : String)
    (hq : Quiet i (tick cfg sig inp w).log) (d' : PaperDeal)
    (hd' : (tick cfg sig inp w).state.deal? i = some d') :
    ∃ d, w.deal? i = some d ∧ SamePosition (trackTick inp d) d' := by
  cases ht : inp.ticker with
  | error e =>
    have hrun := tick_run_error cfg sig inp e ht w
    rw [hrun.2, postTick_deal?, hooked_deal?] at hd'
    refine ⟨d', hd', ?_⟩
    simp only [trackTick, ht]
    exact .rfl' d'
  | ok t =>
    have hrun := tick_run_ok cfg sig inp t ht w
    rw [hrun.1, quiet_append] at hq
    rw [hrun.2, postTick_deal?] at hd'
    have hafter := Program.runsAs_rel _ _ (Keeps i) (keeps_traceRel i)
      (fun op hop => keeps_op cfg sig i op (EngineOp.During.ne_trackWicks inp _ op hop)) _ _ _
      (afterTracking_runs cfg sig inp t.tickPrice (tracked t.tickPrice (hooked inp w)))
    obtain ⟨e, he, hsame⟩ := hafter hq.1 d' hd'
    rw [tracked_deal?, hooked_deal?, Option.map_eq_some_iff] at he
    obtain ⟨d, hd, rfl⟩ := he
    refine ⟨d, hd, ?_⟩
    simp only [trackTick, ht]
    exact hsame

/-! ### Extremes and prices -/

/-- The tracked extreme in the direction the deal gains. -/
def extreme (d : PaperDeal) : ℚ :=
  match d.side with
  | .long => d.wickHighSinceOpen
  | .short => d.wickLowSinceOpen

/-- The price of the tick is at or beyond `f` in the direction of the side. -/
def PriceReaches (inp : TickInput) (side : Side) (f : ℚ) : Prop :=
  ∃ t, inp.ticker = .ok t ∧ reaches side t.tickPrice f = true

theorem reaches_trackWick (d : PaperDeal) (price f : ℚ) :
    reaches d.side (extreme (trackWick price d)) f = true ↔
      reaches d.side (extreme d) f = true ∨ reaches d.side price f = true := by
  unfold extreme trackWick reaches
  cases d.side with
  | long =>
    simp only [decide_eq_true_eq]
    split
    · rename_i h
      constructor
      · exact Or.inr
      · rintro (h' | h')
        · exact h'.trans h.le
        · exact h'
    · rename_i h
      constructor
      · exact Or.inl
      · rintro (h' | h')
        · exact h'
        · exact h'.trans (not_lt.mp h)
  | short =>
    simp only [decide_eq_true_eq]
    split
    · rename_i h
      constructor
      · exact Or.inr
      · rintro (h' | h')
        · exact h.le.trans h'
        · exact h'
    · rename_i h
      constructor
      · exact Or.inl
      · rintro (h' | h')
        · exact h'
        · exact (not_lt.mp h).trans h'

theorem reaches_trackTick (inp : TickInput) (d : PaperDeal) (f : ℚ) :
    reaches d.side (extreme (trackTick inp d)) f = true ↔
      reaches d.side (extreme d) f = true ∨ PriceReaches inp d.side f := by
  unfold trackTick PriceReaches
  cases ht : inp.ticker with
  | error e => simp
  | ok t => simpa using reaches_trackWick d t.tickPrice f

theorem trackTick_frame (inp : TickInput) (d : PaperDeal) :
    (trackTick inp d).side = d.side ∧ (trackTick inp d).orders = d.orders ∧
      (trackTick inp d).tpOverride = d.tpOverride := by
  unfold trackTick
  cases inp.ticker with
  | error e => exact ⟨rfl, rfl, rfl⟩
  | ok t => exact ⟨rfl, rfl, rfl⟩

theorem extreme_congr (d d' : PaperDeal) (h : SamePosition d d') : extreme d' = extreme d := by
  unfold extreme
  rw [h.side, h.wickHigh, h.wickLow]

section Runs

variable (w : World) (inp : ℕ → TickInput)

/-- Over quiet ticks a deal keeps its position, and its extreme reaches what it
reached before or what a price has reached. -/
theorem quiet_run (i : String) (k n : ℕ)
    (hq : ∀ j, k ≤ j → j < k + n → Quiet i (logAt cfg sig w inp j)) (d' : PaperDeal)
    (hd' : (worldAt cfg sig w inp (k + n)).deal? i = some d') :
    ∃ d, (worldAt cfg sig w inp k).deal? i = some d ∧ d'.side = d.side ∧ d'.orders = d.orders ∧
      d'.tpOverride = d.tpOverride ∧
      ∀ f, reaches d'.side (extreme d') f = true ↔
        reaches d.side (extreme d) f = true ∨
          ∃ s, k ≤ s ∧ s < k + n ∧ PriceReaches (inp s) d.side f := by
  induction n generalizing d' with
  | zero =>
    refine ⟨d', hd', rfl, rfl, rfl, fun f => ?_⟩
    constructor
    · exact Or.inl
    · rintro (h | ⟨s, hs, hs', _⟩)
      · exact h
      · omega
  | succ n ih =>
    have hlast := hq (k + n) (by omega) (by omega)
    obtain ⟨e, he, hsame⟩ := tick_keeps cfg sig (inp (k + n)) _ i hlast d' hd'
    obtain ⟨d, hd, hside, hord, htp, hreach⟩ :=
      ih (fun j hj hj' => hq j hj (by omega)) e he
    obtain ⟨fside, ford, ftp⟩ := trackTick_frame (inp (k + n)) e
    have hside' : d'.side = e.side := hsame.side.trans fside
    refine ⟨d, hd, hside'.trans hside, (hsame.orders.trans ford).trans hord,
      (hsame.tpOverride.trans ftp).trans htp, fun f => ?_⟩
    rw [extreme_congr _ _ hsame, hside', reaches_trackTick, hreach f, hside]
    constructor
    · rintro ((h | ⟨s, hs, hs', h⟩) | h)
      · exact Or.inl h
      · exact Or.inr ⟨s, hs, by omega, h⟩
      · exact Or.inr ⟨k + n, by omega, by omega, h⟩
    · rintro (h | ⟨s, hs, hs', h⟩)
      · exact Or.inl (Or.inl h)
      · by_cases hsn : s = k + n
        · exact Or.inr (hsn ▸ h)
        · exact Or.inl (Or.inr ⟨s, hs, by omega, h⟩)

end Runs

/-! ### The fills of a tick -/

/-- A log without take-profit closes. -/
def NoTpClosed (l : List EngineEvent) : Prop := ∀ i f t, .tpClosed i f t ∉ l

theorem noTp_traceRel :
    Program.TraceRel (fun (_ : World) (l : List EngineEvent) (_ : World) => NoTpClosed l) where
  nil _ _ _ _ := List.not_mem_nil
  append := by
    intro _ l _ l' _ h h' i f t hm
    rcases List.mem_append.mp hm with hm | hm
    · exact h i f t hm
    · exact h' i f t hm

theorem noTp_op (op : EngineOp) (hop : ∀ c now price i, op ≠ .takeProfit c now price i) :
    Program.Respects (fun _ l _ => NoTpClosed l) (op.program cfg sig) := by
  intro w i f t hm
  obtain ⟨c, now, price, h⟩ := loggedBy_op cfg sig op w _ hm
  exact hop c now price i h

theorem takeProfit_priceTp (c : Candles) (now : Instant) (price : ℚ) (i j : String) (f : ℚ)
    (w : World)
    (h : .tpClosed j f .priceTp ∈ (EngineOp.program cfg sig (.takeProfit c now price i) w).log) :
    j = i ∧ ∃ d, w.deal? i = some d ∧ tpVerdict cfg sig c d price = .ok (.priceFill f) := by
  have hstep := opStep_takeProfit cfg sig c now price i w
  generalize (EngineOp.program cfg sig (.takeProfit c now price i) w).log = l,
    (EngineOp.program cfg sig (.takeProfit c now price i) w).state = v at hstep h
  cases hstep with
  | idle => cases h
  | held c now price d hd hv => simp at h
  | tookProfit c now price d v g t hd hv hf =>
    obtain ⟨rfl, rfl, ht⟩ : j = d.id ∧ f = g ∧ .priceTp = t := by simpa [closeLog] using h
    refine ⟨rfl, d, hd, ?_⟩
    cases v with
    | priceFill p =>
      obtain ⟨rfl, _⟩ := hf
      exact hv
    | indicatorFill info =>
      obtain ⟨_, rfl⟩ := hf
      cases ht
    | idle => exact absurd hf id
    | held => exact absurd hf id

include sig in
theorem monitorTail_noTp (inp : TickInput) (price : ℚ) (n : ℕ) (i : String) (w : World) :
    NoTpClosed (monitorTail cfg inp price n i w).log := by
  have hrun := monitorTail_runs cfg sig inp price n i w
  refine Program.runsAs_rel _ _ _ noTp_traceRel (fun op hop => noTp_op cfg sig op ?_) w _ _ hrun
  rintro c now p k rfl
  cases hop

theorem afterMonitoring_noTp (inp : TickInput) (price : ℚ) (w : World) :
    NoTpClosed (afterMonitoring cfg sig inp price w).log := by
  have hrun := afterMonitoring_runs cfg sig inp price w
  refine Program.runsAs_rel _ _ _ noTp_traceRel (fun op hop => noTp_op cfg sig op ?_) w _ _ hrun
  rintro c now p k rfl
  cases hop

/-- A price fill of the monitoring loop is the verdict on the deal as it stood
before the loop. -/
theorem monitorDeals_priceTp (inp : TickInput) (price : ℚ) (ids : List String)
    (hnodup : ids.Nodup) (n : ℕ) (j : String) (f : ℚ) (w : World)
    (h : .tpClosed j f .priceTp ∈
      (monitorDeals cfg sig inp.candles inp.now price n ids w).log) :
    j ∈ ids ∧ ∃ d, w.deal? j = some d ∧
      tpVerdict cfg sig inp.candles d price = .ok (.priceFill f) := by
  induction ids generalizing n w with
  | nil => cases h
  | cons i ids ih =>
    obtain ⟨hi, hnodup'⟩ := List.nodup_cons.mp hnodup
    -- a fill logged by the round of the head deal
    have hround : .tpClosed j f .priceTp ∈
        (monitorDeal cfg sig inp.candles inp.now price n i w).log →
        j = i ∧ ∃ d, w.deal? j = some d ∧
          tpVerdict cfg sig inp.candles d price = .ok (.priceFill f) := by
      intro hlog
      have hhead : .tpClosed j f .priceTp ∈
          (EngineOp.program cfg sig (.takeProfit inp.candles inp.now price i) w).log := by
        rw [monitorDeal_eq, Program.bind_run] at hlog
        split at hlog
        · exact hlog
        · rcases List.mem_append.mp hlog with hlog | hlog
          · exact hlog
          · exact absurd hlog (monitorTail_noTp cfg sig inp price n i _ j f .priceTp)
      obtain ⟨rfl, hd⟩ := takeProfit_priceTp cfg sig _ _ _ _ _ _ _ hhead
      exact ⟨rfl, hd⟩
    rw [monitorDeals, Program.bind_run] at h
    split at h
    · obtain ⟨rfl, hd⟩ := hround h
      exact ⟨List.mem_cons_self .., hd⟩
    · rcases List.mem_append.mp h with h | h
      · obtain ⟨rfl, hd⟩ := hround h
        exact ⟨List.mem_cons_self .., hd⟩
      · obtain ⟨hmem, d, hd, hv⟩ := ih hnodup' _ _ h
        have hne : j ≠ i := fun hji => hi (hji ▸ hmem)
        rw [monitorDeal_other cfg sig inp price n i j hne w] at hd
        exact ⟨List.mem_cons_of_mem _ hmem, d, hd, hv⟩

/-- A price fill of a tick is the verdict on the deal as the tick tracked it. -/
theorem tick_priceTp (inp : TickInput) (w : World) (j : String) (f : ℚ)
    (h : .tpClosed j f .priceTp ∈ (tick cfg sig inp w).log) :
    ∃ t d, inp.ticker = .ok t ∧ w.deal? j = some d ∧
      tpVerdict cfg sig inp.candles (trackWick t.tickPrice d) t.tickPrice = .ok (.priceFill f) := by
  cases ht : inp.ticker with
  | error e =>
    rw [(tick_run_error cfg sig inp e ht w).1] at h
    simp at h
  | ok t =>
    rw [(tick_run_ok cfg sig inp t ht w).1] at h
    have hbody : .tpClosed j f .priceTp ∈ (bodyAt cfg sig inp t.tickPrice w).log := by
      rcases List.mem_append.mp h with h | h
      · exact h
      · cases hr : (bodyAt cfg sig inp t.tickPrice w).result with
        | ok _ => simp [hr] at h
        | error e => simp [hr] at h
    -- only the monitoring loop closes by take profit
    have hmonitor : .tpClosed j f .priceTp ∈
        (monitorDeals cfg sig inp.candles inp.now t.tickPrice 0
          ((tracked t.tickPrice (hooked inp w)).engine.state.openDeals.items.map PaperDeal.id)
          (tracked t.tickPrice (hooked inp w))).log := by
      rw [bodyAt, afterTracking_run, Program.bind_run] at hbody
      split at hbody
      · exact hbody
      · rcases List.mem_append.mp hbody with hbody | hbody
        · exact hbody
        · exact absurd hbody (afterMonitoring_noTp cfg sig inp t.tickPrice _ j f .priceTp)
    obtain ⟨_, e, he, hv⟩ := monitorDeals_priceTp cfg sig inp t.tickPrice _
      (tracked t.tickPrice (hooked inp w)).engine.state.openDeals.nodup 0 j f _ hmonitor
    rw [tracked_deal?, hooked_deal?, Option.map_eq_some_iff] at he
    obtain ⟨d, hd, rfl⟩ := he
    exact ⟨t, d, rfl, hd, hv⟩

/-- A price fill is at the price of the tick, or at a target the wick reached and
the price did not. -/
theorem tpVerdict_priceFill (c : Candles) (d : PaperDeal) (price f : ℚ)
    (h : tpVerdict cfg sig c d price = .ok (.priceFill f)) :
    ∃ pct target, tpTargetPct cfg d = some pct ∧
      computeTpTargetPrice d.avgEntryPrice pct d.side = .ok target ∧
      ((f = price ∧ reaches d.side price target = true) ∨
        (f = target ∧ reaches d.side price target = false ∧ cfg.useWickSimulation = true ∧
          reaches d.side (wickExtreme d price) target = true)) := by
  unfold tpVerdict at h
  cases hpct : tpTargetPct cfg d with
  | none => simp [hpct] at h
  | some pct =>
    cases htarget : computeTpTargetPrice d.avgEntryPrice pct d.side with
    | error e => simp [hpct, htarget, bind, Except.bind] at h
    | ok target =>
      refine ⟨pct, target, rfl, htarget, ?_⟩
      simp only [hpct, htarget, bind, Except.bind, pure, Except.pure] at h
      cases hhit : reaches d.side price target with
      | true =>
        left
        simp only [hhit, Bool.or_true, if_true] at h
        cases hg : tpGates cfg sig c d price with
        | error e => simp [hg] at h
        | ok passed =>
          cases passed with
          | true =>
            simp only [hg, if_true, Except.ok.injEq, TpVerdict.priceFill.injEq] at h
            exact ⟨h.symm, rfl⟩
          | false => simp [hg] at h
      | false =>
        right
        cases hw : wickHit cfg d price target with
        | false =>
          simp only [hhit, hw] at h
          cases hgroups : IndicatorEngine.checkTpIndicatorGroups cfg sig c with
          | none => simp [hgroups] at h
          | some info => simp [hgroups] at h
        | true =>
          simp only [wickHit, Bool.and_eq_true] at hw
          refine ⟨?_, rfl, hw.1, hw.2⟩
          simp only [hhit, wickHit, hw, Bool.and_true, Bool.or_false, if_true] at h
          cases hg : tpGates cfg sig c d price with
          | error e => simp [hg] at h
          | ok passed =>
            cases passed with
            | true => simpa [hg] using h.symm
            | false => simp [hg] at h

/-- The extreme the verdict folds in is the tracked one. -/
theorem wickExtreme_trackWick (d : PaperDeal) (price : ℚ) :
    wickExtreme (trackWick price d) price = extreme (trackWick price d) := by
  unfold wickExtreme extreme trackWick
  cases d.side with
  | long =>
    simp only
    split
    · exact max_self _
    · rename_i h
      exact max_eq_left (not_lt.mp h)
  | short =>
    simp only
    split
    · exact min_self _
    · rename_i h
      exact min_eq_left (not_lt.mp h)

/-! ### Fills over a run -/

theorem exists_last (P : ℕ → Prop) (t : ℕ) (h : ∃ k < t, P k) :
    ∃ k < t, P k ∧ ∀ j, k < j → j < t → ¬ P j := by
  induction t with
  | zero =>
    obtain ⟨k, hk, _⟩ := h
    omega
  | succ t ih =>
    by_cases ht : P t
    · exact ⟨t, by omega, ht, fun j hj hj' => by omega⟩
    · have hlt : ∃ k < t, P k := by
        obtain ⟨k, hk, hp⟩ := h
        have hne : k ≠ t := fun hkt => ht (hkt ▸ hp)
        exact ⟨k, by omega, hp⟩
      obtain ⟨k, hk, hp, hlast⟩ := ih hlt
      refine ⟨k, by omega, hp, fun j hj hj' => ?_⟩
      by_cases hjt : j = t
      · exact hjt ▸ ht
      · exact hlast j hj (by omega)

section Run

variable (initialBalanceBtc : ℚ) (inp : ℕ → TickInput)

/-- Some price of a tick up to the `t`-th reaches `f`, and from that tick on
nothing renewed the deal before the `t`-th. -/
def ReachedSince (dealId : String) (side : Side) (t : ℕ) (f : ℚ) : Prop :=
  ∃ s ≤ t, PriceReaches (inp s) side f ∧
    ∀ j, s ≤ j → j < t → Quiet dealId (logAt cfg sig (freshWorld initialBalanceBtc) inp j)

/-- The extreme a deal had recorded by the end of the tick that renewed it last
reaches the target of its take profit, and no later price does. -/
def StaleWick (d : PaperDeal) (t : ℕ) : Prop :=
  cfg.useWickSimulation = true ∧ ∃ k < t, ∃ e pct target,
    ¬ Quiet d.id (logAt cfg sig (freshWorld initialBalanceBtc) inp k) ∧
    (∀ j, k < j → j < t → Quiet d.id (logAt cfg sig (freshWorld initialBalanceBtc) inp j)) ∧
    (worldAt cfg sig (freshWorld initialBalanceBtc) inp (k + 1)).deal? d.id = some e ∧
    tpTargetPct cfg d = some pct ∧
    computeTpTargetPrice d.avgEntryPrice pct d.side = .ok target ∧
    reaches d.side (extreme e) target = true ∧
    ∀ s, k < s → s ≤ t → ¬ PriceReaches (inp s) d.side target

/-- Every open deal was renewed by an earlier tick: at the latest when it was opened. -/
theorem exists_renewal (t : ℕ) (i : String) (d : PaperDeal)
    (hd : (worldAt cfg sig (freshWorld initialBalanceBtc) inp t).deal? i = some d) :
    ∃ k < t, ¬ Quiet i (logAt cfg sig (freshWorld initialBalanceBtc) inp k) := by
  by_contra hno
  have hq : ∀ j, 0 ≤ j → j < 0 + t →
      Quiet i (logAt cfg sig (freshWorld initialBalanceBtc) inp j) := by
    intro j _ hj
    by_contra hj'
    exact hno ⟨j, by omega, hj'⟩
  rw [← Nat.zero_add t] at hd
  obtain ⟨e, he, _⟩ := quiet_run cfg sig (freshWorld initialBalanceBtc) inp i 0 t hq d hd
  cases he

end Run

/-! ### A stale fill -/

/-- A long bot with an immediate entry, a take profit of 3% and no stop loss. -/
def ladderBot : BotConfig :=
  { BotConfig.small "ladder" with stopLoss := .off }

/-- Candles with one close on every timeframe. -/
def someCandles : Candles := ⟨fun _ => [100], fun _ => none, fun _ => none⟩

/-- A tick at a price on which the ledger accepts every deal. -/
def tickAtPrice (price : ℚ) : TickInput :=
  { ticker := .ok ⟨price, price, price, none⟩
    isOpen := true
    candles := someCandles
    manualTrigger := false
    manualOpen := .accepted "202501010000-0001"
    sentinels := []
    entryOpen := .accepted "202501010000-0001"
    clockOk := true
    now := 0 }

/-- The price is 100, rises to 102, falls to 90 and stays there. -/
def fallingPrices (t : ℕ) : TickInput :=
  tickAtPrice (if t = 0 then 100 else if t = 1 then 102 else 90)

/-- The deal opened at 100, before the fourth tick: it averaged in at 90. -/
def averagedDeal : PaperDeal :=
  { newDeal ladderBot 0 "202501010000-0001" 100 none with
    orders := [⟨1, 100, 1 / 100, 0, .base⟩, ⟨2, 90, 1 / 100, 0, .dca⟩]
    wickHighSinceOpen := 102
    wickLowSinceOpen := 90 }

/-- The price is 100 and rises to 104. -/
def risingPrices (t : ℕ) : TickInput := tickAtPrice (if t = 0 then 100 else 104)

end WickTakeProfit

end Reverto
