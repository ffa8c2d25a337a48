import Mathlib.Tactic
import Reverto.Core.MonitorRounds
import Reverto.Core.MonitorSafety

/-!
# The trailing stop over a life (core/trading_engine.py, paper/paper_state.py)

The peak of the stop lives in three fields of the deal: two trackers that every tick
moves and a peak that `_check_sl` moves. They survive restarts through the state file.
Over every run they hold the extremes of the base entry and of the prices since.
-/

namespace Reverto

open TradingEngine PriceGuard MonitorRounds

namespace TrailingStop

/-! ### Extremes of a price history -/

/-- The highest of the base entry and the prices. -/
def highest (base : ℚ) (prices : List ℚ) : ℚ := prices.foldl max base

/-- The lowest of the base entry and the prices. -/
def lowest (base : ℚ) (prices : List ℚ) : ℚ := prices.foldl min base

/-- The price a trailing stop of the side follows. -/
def trailed (side : Side) (base : ℚ) (prices : List ℚ) : ℚ :=
  match side with
  | .long => highest base prices
  | .short => lowest base prices

theorem highest_snoc (base : ℚ) (prices : List ℚ) (p : ℚ) :
    highest base (prices ++ [p]) = max (highest base prices) p := by
  rw [highest, List.foldl_append]
  rfl

theorem lowest_snoc (base : ℚ) (prices : List ℚ) (p : ℚ) :
    lowest base (prices ++ [p]) = min (lowest base prices) p := by
  rw [lowest, List.foldl_append]
  rfl

theorem highest_append_le (base : ℚ) (prices more : List ℚ) :
    highest base prices ≤ highest base (prices ++ more) := by
  induction more generalizing prices with
  | nil => rw [List.append_nil]
  | cons p more ih =>
    have hnext := ih (prices ++ [p])
    rw [highest_snoc, List.append_assoc] at hnext
    exact (le_max_left _ _).trans hnext

theorem lowest_append_le (base : ℚ) (prices more : List ℚ) :
    lowest base (prices ++ more) ≤ lowest base prices := by
  induction more generalizing prices with
  | nil => rw [List.append_nil]
  | cons p more ih =>
    have hnext := ih (prices ++ [p])
    rw [lowest_snoc, List.append_assoc] at hnext
    exact hnext.trans (min_le_left _ _)

/-! ### The trackers of a deal -/

/-- The trackers hold the extremes, and the peak lies between them once it is set. -/
structure OnTrail (base : ℚ) (prices : List ℚ) (d : PaperDeal) : Prop where
  orders : d.orders ≠ []
  high : d.wickHighSinceOpen = highest base prices
  low : d.wickLowSinceOpen = lowest base prices
  peak : d.peakPrice = 0 ∨ (lowest base prices ≤ d.peakPrice ∧ d.peakPrice ≤ highest base prices)

section Deal

variable (cfg : BotConfig) (base : ℚ) (prices : List ℚ) (d : PaperDeal)

/-- `_update_deal_wick_trackers` appends the price. -/
theorem OnTrail.track (h : OnTrail base prices d) (p : ℚ) :
    OnTrail base (prices ++ [p]) (trackWick p d) := by
  refine ⟨h.orders, ?_, ?_, ?_⟩
  · rw [highest_snoc, ← h.high, trackWick]
    simp only
    split
    · rename_i hlt
      exact (max_eq_right hlt.le).symm
    · rename_i hle
      exact (max_eq_left (not_lt.mp hle)).symm
  · rw [lowest_snoc, ← h.low, trackWick]
    simp only
    split
    · rename_i hlt
      exact (min_eq_right hlt.le).symm
    · rename_i hle
      exact (min_eq_left (not_lt.mp hle)).symm
  · rcases h.peak with hzero | ⟨hlo, hhi⟩
    · exact Or.inl hzero
    · rw [highest_snoc, lowest_snoc]
      exact Or.inr ⟨(min_le_left _ _).trans hlo, hhi.trans (le_max_left _ _)⟩

/-- The reference of the stop at a price that the trackers have seen. -/
theorem OnTrail.newPeak_eq (h : OnTrail base prices d) (hwick : cfg.useWickSimulation = true)
    (p : ℚ) (hlo : lowest base prices ≤ p) (hhi : p ≤ highest base prices) :
    newPeak cfg d p = trailed d.side base prices := by
  -- the peak counts from the price of the tick as long as it is not set
  have hpeak : ∀ x, (if d.peakPrice = 0 then p else d.peakPrice) = x →
      lowest base prices ≤ x ∧ x ≤ highest base prices := by
    intro x hx
    by_cases hzero : d.peakPrice = 0
    · rw [if_pos hzero] at hx
      exact hx ▸ ⟨hlo, hhi⟩
    · rw [if_neg hzero] at hx
      exact hx ▸ h.peak.resolve_left hzero
  obtain ⟨hbelow, habove⟩ := hpeak _ rfl
  unfold newPeak trailed
  cases d.side with
  | long =>
    simp only [hwick, if_true, h.high]
    rw [max_eq_left hhi]
    exact max_eq_right habove
  | short =>
    simp only [hwick, if_true, h.low]
    rw [min_eq_left hlo]
    exact min_eq_right hbelow

theorem lowest_le_base : lowest base prices ≤ base := lowest_append_le base [] prices

theorem base_le_highest : base ≤ highest base prices := highest_append_le base [] prices

theorem trailed_range : lowest base prices ≤ trailed d.side base prices ∧
    trailed d.side base prices ≤ highest base prices := by
  have hrange := (lowest_le_base base prices).trans (base_le_highest base prices)
  unfold trailed
  cases d.side with
  | long => exact ⟨hrange, le_refl _⟩
  | short => exact ⟨le_refl _, hrange⟩

/-- A deal is built on its trail. -/
theorem onTrail_newDeal (now : Instant) (i : String) (t : Option GroupTrigger) :
    OnTrail base [] (newDeal cfg now i base t) := by
  have hsize := ne_of_gt cfg.dca.baseOrderSize_pos
  have havg : ∀ x : PaperDeal, x.orders = [⟨1, base, cfg.dca.baseOrderSize, now, .base⟩] →
      x.avgEntryPrice = base := by
    intro x hx
    simp only [PaperDeal.avgEntryPrice, PaperDeal.totalSize, hx, List.cons_ne_nil, if_false,
      List.map_cons, List.map_nil, List.sum_cons, List.sum_nil, add_zero]
    exact mul_div_cancel_right₀ base hsize
  refine ⟨List.cons_ne_nil _ _, ?_, ?_, Or.inl rfl⟩
  · simp only [newDeal, PaperDeal.postInit]
    rw [if_pos ⟨trivial, List.cons_ne_nil _ _⟩]
    exact havg _ rfl
  · simp only [newDeal, PaperDeal.postInit]
    rw [if_pos ⟨trivial, List.cons_ne_nil _ _⟩]
    exact havg _ rfl

/-- Saving and loading a deal keeps it on its trail. -/
theorem OnTrail.reload (h : OnTrail base prices d) (p : ℚ) :
    OnTrail base prices (dictToDeal (dealToDict d p)) := ⟨h.orders, h.high, h.low, h.peak⟩

end Deal

/-! ### Operations of a tick -/

/-- The deal of the id is on its trail where it is open. -/
def TrailsIn (i : String) (base : ℚ) (prices : List ℚ) (s : PaperState) : Prop :=
  ∀ d ∈ s.openDeals.items, d.id = i → OnTrail base prices d

/-- In memory and in the state file. -/
structure Trails (i : String) (base : ℚ) (prices : List ℚ) (w : World) : Prop where
  memory : TrailsIn i base prices w.engine.state
  file : TrailsIn i base prices (fileState w.file)

/-- What a tick keeps of a deal that it opens at the base entry only. -/
def Kept (i : String) (base : ℚ) (prices : List ℚ) (w : World) (l : List EngineEvent)
    (w' : World) : Prop :=
  (∀ p, .opened i p ∈ l → p = base ∧ prices = []) →
    TrailsIn i base prices w.engine.state → TrailsIn i base prices w'.engine.state

theorem kept_traceRel (i : String) (base : ℚ) (prices : List ℚ) :
    Program.TraceRel (Kept i base prices) where
  nil _ _ h := h
  append := by
    intro w l v l' u h h' hopened hw
    have hv := h (fun p hp => hopened p (List.mem_append_left _ hp)) hw
    exact h' (fun p hp => hopened p (List.mem_append_right _ hp)) hv

variable (cfg : BotConfig) (sig : Signals) (i : String) (base : ℚ) (prices : List ℚ)

theorem trailsIn_congr (s s' : PaperState) (h : s'.openDeals = s.openDeals)
    (ht : TrailsIn i base prices s) : TrailsIn i base prices s' := by
  intro d hd
  rw [h] at hd
  exact ht d hd

/-- An operation at a price that the trackers have seen. -/
theorem kept_op (hwick : cfg.useWickSimulation = true) (inp : TickInput) (p : ℚ)
    (hlo : lowest base prices ≤ p) (hhi : p ≤ highest base prices) (op : EngineOp)
    (hop : EngineOp.During inp p op) :
    Program.Respects (Kept i base prices) (op.program cfg sig) := by
  intro w hopened h d' hd' hid
  rcases continues_op cfg sig op (hop.ne_trackWicks inp p op) w d' hd' with
    ⟨d, hd, hstep⟩ | ⟨now, q, t, hnew, hq⟩
  · have htrail := h d hd ((hstep.id_eq).symm.trans hid)
    cases hstep with
    | same => exact htrail
    | peak now q hstop =>
      have hq : q = p := by
        subst hstop
        cases hop
        rfl
      have hrange := trailed_range base prices d
      refine ⟨htrail.orders, htrail.high, htrail.low, Or.inr ?_⟩
      show lowest base prices ≤ newPeak cfg d q ∧ newPeak cfg d q ≤ highest base prices
      rw [hq, htrail.newPeak_eq cfg base prices d hwick p hlo hhi]
      exact hrange
    | order now q hq =>
      exact ⟨List.append_ne_nil_of_right_ne_nil _ (List.cons_ne_nil _ _), htrail.high, htrail.low,
        htrail.peak⟩
    | settings s hs => exact ⟨htrail.orders, htrail.high, htrail.low, htrail.peak⟩
  · rw [hid] at hnew hq
    obtain ⟨rfl, rfl⟩ := hopened q hq
    rw [hnew]
    exact onTrail_newDeal cfg q now i t

/-- What is saved lists the deals on their trails. -/
theorem trailsIn_fileState (s : PaperState) (doc : StateDoc) (hlists : Lists s doc)
    (h : TrailsIn i base prices s) : TrailsIn i base prices (fileState (some doc)) := by
  obtain ⟨price, hitems⟩ := fileState_openItems s doc hlists
  intro x hx hid
  rw [hitems] at hx
  obtain ⟨d, hd, rfl⟩ := List.mem_map.mp hx
  exact (h d hd hid).reload base prices d price

/-! ### A tick of the open deal -/

/-- `compute_sl_target_price` of a percentage in range. -/
theorem stopLine_ok (pct : ℚ) (h0 : 0 < pct) (h1 : pct < 100) (reference : ℚ) (side : Side) :
    ∃ line, computeSlTargetPrice reference pct side = .ok line := by
  cases side with
  | long =>
    have hpos : 0 < 1 + pct / 100 := by linarith
    exact ⟨_, pyDiv_ok _ _ (ne_of_gt hpos)⟩
  | short =>
    have hpos : 0 < 1 - pct / 100 := by linarith
    exact ⟨_, pyDiv_ok _ _ (ne_of_gt hpos)⟩

/-- The deal the checks of a tick at the price see. -/
def Guarded (pct : ℚ) (inp : TickInput) (p : ℚ) (d : PaperDeal) : Prop :=
  slSettings cfg d = some (.trailing, pct) ∧
    ∃ v, tpVerdict cfg sig inp.candles (trackWick p d) p = .ok v

theorem slSettings_trackWick (p : ℚ) (d : PaperDeal) :
    slSettings cfg (trackWick p d) = slSettings cfg d := rfl

/-- The round of the deal is not cut short. -/
theorem round_returns (pct : ℚ) (h0 : 0 < pct) (h1 : pct < 100) (inp : TickInput) (p : ℚ) (n : ℕ)
    (d : PaperDeal) (h : Guarded cfg sig pct inp p d) (hd : OnTrail base prices d) :
    roundEnd cfg sig inp.candles p n (trackWick p d) ≠ .aborts := by
  refine MonitorSafety.roundEnd_ne_aborts cfg sig inp.candles p n _ h.2 ?_ ?_
  · intro s hs
    rw [slSettings_trackWick, h.1] at hs
    cases hs
    obtain ⟨line, hline⟩ := stopLine_ok pct h0 h1
      (slReference cfg (trackWick p d) p .trailing) (trackWick p d).side
    exact ⟨slHit (trackWick p d).side p line, by rw [slVerdict, hline, Except.map]⟩
  · exact MonitorSafety.dcaVerdict_ok cfg _ p hd.orders

/-- A tick that does not raise keeps the deal on its trail, in memory and in the file. -/
theorem trails_body (hwick : cfg.useWickSimulation = true) (inp : TickInput) (p : ℚ) (w : World)
    (hlo : lowest base prices ≤ p) (hhi : p ≤ highest base prices)
    (hopened : ∀ q, .opened i q ∈ (afterTracking cfg sig inp p w).log → q = base ∧ prices = [])
    (hreturns : (monitorDeals cfg sig inp.candles inp.now p 0
      (w.engine.state.openDeals.items.map PaperDeal.id) w).result = .ok ())
    (h : TrailsIn i base prices w.engine.state) :
    Trails i base prices (afterTracking cfg sig inp p w).state := by
  have hmemory := Program.runsAs_rel _ _ (Kept i base prices) (kept_traceRel i base prices)
    (fun op hop => kept_op cfg sig i base prices hwick inp p hlo hhi op hop) _ _ _
    (afterTracking_runs cfg sig inp p w) hopened h
  refine ⟨hmemory, ?_⟩
  have hrun := afterTracking_run cfg sig inp p w
  rw [Program.bind_ok _ _ _ () hreturns] at hrun
  obtain ⟨v, hv⟩ := afterMonitoring_ends cfg sig inp p (monitorDeals cfg sig inp.candles inp.now p 0
    (w.engine.state.openDeals.items.map PaperDeal.id) w).state
  have hstate : (afterTracking cfg sig inp p w).state =
      (writeState cfg inp.now p inp.isOpen v).state := by rw [hrun, hv]
  rw [hstate] at hmemory ⊢
  exact trailsIn_fileState i base prices v.engine.state _
    (lists_writeStateDoc cfg inp.now v.engine p inp.isOpen) hmemory

/-! ### Steps of a life -/

/-- The price of a tick, where its ticker arrived. -/
def price? : LifeStep → Option ℚ
  | .tick inp => inp.ticker.toOption.map Ticker.tickPrice
  | _ => none

/-- The prices of the ticks among the steps. -/
def tickPrices (steps : List LifeStep) : List ℚ := steps.filterMap price?

/-- An event that opens a deal under the id. -/
def opens (dealId : String) : EngineEvent → Bool
  | .opened j _ => decide (j = dealId)
  | _ => false

theorem not_opened (l : List EngineEvent) (h : ∀ e ∈ l, opens i e = false) (q : ℚ) :
    .opened i q ∉ l := by
  intro hq
  have hopens := h _ hq
  simp [opens] at hopens

/-- At a tick the deal is open under its trailing stop, and the tick does not open it anew. -/
def Follows (pct : ℚ) (w : World) : LifeStep → Prop
  | .tick inp => (∃ d ∈ w.deal? i, slSettings cfg d = some (.trailing, pct)) ∧
      ∀ e ∈ (tick cfg sig inp w).log, opens i e = false
  | _ => True

instance (pct : ℚ) (w : World) : ∀ l, Decidable (Follows cfg sig i pct w l)
  | .tick inp => inferInstanceAs (Decidable ((∃ d ∈ w.deal? i, _) ∧
      ∀ e ∈ (tick cfg sig inp w).log, _))
  | .stop => .isTrue trivial
  | .restart _ => .isTrue trivial
  | .closeOffline .. => .isTrue trivial

/-- At a tick the take-profit check of the deal returns. -/
def TpReturns (w : World) : LifeStep → Prop
  | .tick inp => ∀ d ∈ w.deal? i, ∀ t ∈ inp.ticker.toOption,
      (tpVerdict cfg sig inp.candles (trackWick t.tickPrice d) t.tickPrice).isOk = true
  | _ => True

instance (w : World) : ∀ l, Decidable (TpReturns cfg sig i w l)
  | .tick inp => inferInstanceAs (Decidable (∀ d ∈ w.deal? i, ∀ t ∈ inp.ticker.toOption, _))
  | .stop => .isTrue trivial
  | .restart _ => .isTrue trivial
  | .closeOffline .. => .isTrue trivial

theorem TpReturns.verdict (w : World) (inp : TickInput) (d : PaperDeal) (t : Ticker)
    (h : TpReturns cfg sig i w (.tick inp)) (hd : w.deal? i = some d) (ht : inp.ticker = .ok t) :
    ∃ v, tpVerdict cfg sig inp.candles (trackWick t.tickPrice d) t.tickPrice = .ok v := by
  have hok := h d hd t (by rw [ht]; rfl)
  cases hv : tpVerdict cfg sig inp.candles (trackWick t.tickPrice d) t.tickPrice with
  | ok v => exact ⟨v, rfl⟩
  | error e =>
    rw [hv] at hok
    cases hok

theorem trails_congr (w w' : World) (hmemory : w'.engine.state.openDeals = w.engine.state.openDeals)
    (hfile : w'.file = w.file) (h : Trails i base prices w) : Trails i base prices w' := by
  refine ⟨trailsIn_congr i base prices _ _ hmemory h.memory, ?_⟩
  rw [hfile]
  exact h.file

theorem trails_postTick (w : World) (h : Trails i base prices w) :
    Trails i base prices (postTickHook w).state :=
  trails_congr i base prices w _ (congrArg PaperState.openDeals (postTickHook_account w).1)
    (postTick_running w).2 h

theorem trails_hooked (inp : TickInput) (w : World) (h : Trails i base prices w) :
    Trails i base prices (hooked inp w) :=
  trails_congr i base prices w _ (congrArg PaperState.openDeals (preTickHook_account inp w).1) rfl h

/-- The trackers see the price of the tick. -/
theorem trailsIn_tracked (p : ℚ) (w : World) (h : TrailsIn i base prices w.engine.state) :
    TrailsIn i base (prices ++ [p]) (tracked p w).engine.state := by
  intro x hx hid
  obtain ⟨d, hd, rfl⟩ := List.mem_map.mp hx
  exact (h d hd hid).track base prices d p

theorem tracked_items (p : ℚ) (inp : TickInput) (w : World) :
    (tracked p (hooked inp w)).engine.state.openDeals.items =
      w.engine.state.openDeals.items.map (trackWick p) := by
  show (hooked inp w).engine.state.openDeals.items.map _ = _
  rw [hooked, (preTickHook_account inp w).1]

theorem eq_of_oneOpen (w : World) (h : OneOpen w) (d e : PaperDeal)
    (hd : d ∈ w.engine.state.openDeals.items) (he : e ∈ w.engine.state.openDeals.items) : e = d := by
  have hlen := h.memory
  generalize w.engine.state.openDeals.items = ds at hd he hlen
  match ds with
  | [] => cases hd
  | [x] => rw [List.mem_singleton.mp hd, List.mem_singleton.mp he]
  | _ :: _ :: _ => simp at hlen

theorem body_log (inp : TickInput) (t : Ticker) (ht : inp.ticker = .ok t) (w : World)
    (e : EngineEvent) (he : e ∈ (bodyAt cfg sig inp t.tickPrice w).log) :
    e ∈ (tick cfg sig inp w).log := by
  rw [(tick_run_ok cfg sig inp t ht w).1]
  exact List.mem_append_left _ he

theorem trails_tick (hwick : cfg.useWickSimulation = true) (pct : ℚ) (h0 : 0 < pct)
    (h1 : pct < 100) (inp : TickInput) (w : World) (hone : OneOpen w)
    (hfollows : Follows cfg sig i pct w (.tick inp)) (htp : TpReturns cfg sig i w (.tick inp))
    (h : Trails i base prices w) :
    Trails i base (prices ++ (price? (.tick inp)).toList) (tick cfg sig inp w).state := by
  obtain ⟨⟨d, hd, hsl⟩, hno⟩ := hfollows
  cases ht : inp.ticker with
  | error e =>
    have hprice : price? (.tick inp) = none := by rw [price?, ht]; rfl
    rw [(tick_run_error cfg sig inp e ht w).2, hprice, Option.toList_none, List.append_nil]
    exact trails_postTick i base prices _ (trails_hooked i base prices inp w h)
  | ok t =>
    have hprice : price? (.tick inp) = some t.tickPrice := by rw [price?, ht]; rfl
    rw [(tick_run_ok cfg sig inp t ht w).2, hprice, Option.toList_some]
    refine trails_postTick i base _ _ ?_
    have hmem := (KeyedDict.get?_mem _ _ _ hd).1
    have hguard : Guarded cfg sig pct inp t.tickPrice d := ⟨hsl, htp.verdict cfg sig i w inp d t hd ht⟩
    refine trails_body cfg sig i base _ hwick inp t.tickPrice _ ?_ ?_ ?_ ?_ ?_
    · rw [lowest_snoc]
      exact min_le_right _ _
    · rw [highest_snoc]
      exact le_max_right _ _
    · exact fun q hq => absurd (body_log cfg sig inp t ht w _ hq) (not_opened i _ hno q)
    · refine MonitorSafety.monitorDeals_returns cfg sig inp t.tickPrice _ 0 _ (meets_items _) ?_
      intro x hx n
      rw [tracked_items] at hx
      obtain ⟨e, he, rfl⟩ := List.mem_map.mp hx
      have hed := eq_of_oneOpen w hone d e hmem he
      rw [hed]
      exact round_returns cfg sig base prices pct h0 h1 inp t.tickPrice n d hguard
        (h.memory d hmem (KeyedDict.get?_mem _ _ _ hd).2)
    · exact trailsIn_tracked i base prices t.tickPrice _ (trails_hooked i base prices inp w h).memory

/-- A close by the portal takes a deal out of the file and leaves the others on their trails. -/
theorem trailsIn_offline (file : Option StateDoc) (j : String) (p : ℚ) (now : Instant)
    (action : CloseAction) (h : TrailsIn i base prices (fileState file)) :
    TrailsIn i base prices (fileState (LifeStep.offlineFile cfg file j p now action)) := by
  rcases LifeStep.offlineFile_cases cfg file j p now action with
    hfile | ⟨s, d, doc, hfile, hlists, _, hopen, _⟩
  · rw [hfile]
    exact h
  · rw [hfile]
    refine trailsIn_fileState i base prices s doc hlists fun x hx hid => ?_
    rw [hopen] at hx
    exact h x (List.mem_of_mem_filter hx) hid

/-- One step of a life. -/
theorem trails_step (hwick : cfg.useWickSimulation = true) (pct : ℚ) (h0 : 0 < pct)
    (h1 : pct < 100) (l : LifeStep) (w : World) (hone : OneOpen w)
    (hfollows : Follows cfg sig i pct w l) (htp : TpReturns cfg sig i w l)
    (h : Trails i base prices w) :
    Trails i base (prices ++ (price? l).toList) (l.program cfg sig w).state := by
  cases l with
  | tick inp => exact trails_tick cfg sig i base prices hwick pct h0 h1 inp w hone hfollows htp h
  | stop =>
    show Trails i base (prices ++ []) _
    rw [List.append_nil]
    exact ⟨h.memory, trailsIn_congr i base prices _ _ (markStopped_deals w.file).1 h.file⟩
  | restart b =>
    show Trails i base (prices ++ []) _
    rw [List.append_nil]
    exact ⟨trailsIn_congr i base prices _ _ (bootEngine_deals b w.file).1 h.file, h.file⟩
  | closeOffline j p now action =>
    show Trails i base (prices ++ []) _
    rw [List.append_nil]
    exact ⟨h.memory, trailsIn_offline cfg i base prices w.file j p now action h.file⟩

/-- A run of steps. -/
theorem trails_run (hwick : cfg.useWickSimulation = true) (pct : ℚ) (h0 : 0 < pct)
    (h1 : pct < 100) (steps : List LifeStep) (w : World) (hone : OneOpen w)
    (hfollows : Program.EachStep (LifeStep.program cfg sig) (Follows cfg sig i pct) steps w)
    (htp : Program.EachStep (LifeStep.program cfg sig) (TpReturns cfg sig i) steps w)
    (h : Trails i base prices w) :
    Trails i base (prices ++ tickPrices steps)
      (Program.runAll (LifeStep.program cfg sig) steps w).2 := by
  induction steps generalizing w prices with
  | nil =>
    rw [tickPrices, List.filterMap_nil, List.append_nil]
    exact h
  | cons l steps ih =>
    have hstep := trails_step cfg sig i base prices hwick pct h0 h1 l w hone hfollows.1 htp.1 h
    have hrest := ih _ _ (oneOpen_step cfg sig l w hone) hfollows.2 htp.2 hstep
    have hprices : (price? l).toList ++ tickPrices steps = tickPrices (l :: steps) := by
      rw [tickPrices, tickPrices, List.filterMap_cons]
      cases price? l with
      | none => rfl
      | some p => rfl
    rw [List.append_assoc, hprices] at hrest
    exact hrest

/-! ### The opening tick -/

/-- A tick opens deals at its own price. -/
theorem body_opened (inp : TickInput) (p : ℚ) (w : World) (j : String) (q : ℚ)
    (h : .opened j q ∈ (afterTracking cfg sig inp p w).log) : q = p := by
  have hR := Program.traceRel_forall (σ := World) fun e : EngineEvent =>
    ∀ q, e = .opened j q → q = p
  have hrun := Program.runsAs_rel _ _ _ hR (fun op hop v e he q hq =>
    opened_price cfg sig p inp op hop v j q (hq ▸ he)) _ _ _ (afterTracking_runs cfg sig inp p w)
  exact hrun _ h q rfl

/-- A tick that opened a deal went through its monitoring loop. -/
theorem loop_returned (inp : TickInput) (p : ℚ) (w : World) (j : String) (q : ℚ)
    (h : .opened j q ∈ (afterTracking cfg sig inp p w).log) :
    (monitorDeals cfg sig inp.candles inp.now p 0
      (w.engine.state.openDeals.items.map PaperDeal.id) w).result = .ok () := by
  cases hr : (monitorDeals cfg sig inp.candles inp.now p 0
      (w.engine.state.openDeals.items.map PaperDeal.id) w).result with
  | ok _ => rfl
  | error e =>
    rw [afterTracking_run, Program.bind_error _ _ _ e hr] at h
    have hquiet := monitorDeals_noEntry cfg sig inp p _ 0 w _ h
    cases hquiet

theorem trails_opening (hwick : cfg.useWickSimulation = true) (inp : TickInput) (w : World)
    (hfresh : w.deal? i = none) (hopened : .opened i base ∈ (tick cfg sig inp w).log) :
    Trails i base [] (tick cfg sig inp w).state := by
  cases ht : inp.ticker with
  | error e =>
    rw [(tick_run_error cfg sig inp e ht w).1] at hopened
    simp at hopened
  | ok t =>
    obtain ⟨hlog, hstate⟩ := tick_run_ok cfg sig inp t ht w
    have hbody : .opened i base ∈ (bodyAt cfg sig inp t.tickPrice w).log := by
      rw [hlog] at hopened
      rcases List.mem_append.mp hopened with h | h
      · exact h
      · cases hr : (bodyAt cfg sig inp t.tickPrice w).result with
        | ok _ => simp [hr] at h
        | error e => simp [hr] at h
    have hbase := body_opened cfg sig inp t.tickPrice _ i base hbody
    rw [hstate]
    refine trails_postTick i base _ _ ?_
    refine trails_body cfg sig i base [] hwick inp t.tickPrice _ ?_ ?_ ?_ ?_ ?_
    · exact hbase.le
    · exact hbase.ge
    · intro q hq
      exact ⟨(body_opened cfg sig inp t.tickPrice _ i q hq).trans hbase.symm, rfl⟩
    · exact loop_returned cfg sig inp t.tickPrice _ i base hbody
    · intro x hx hid
      rw [tracked_items] at hx
      obtain ⟨d, hd, rfl⟩ := List.mem_map.mp hx
      have hnone := (KeyedDict.get?_eq_none_iff _ _).mp hfresh
      exact absurd (List.mem_map_of_mem hd) (hid ▸ hnone)

/-! ### The close of the stop -/

/-- The operation that closes a deal by its stop loss. -/
theorem slClosed_op (op : EngineOp) (w : World) (f : ℚ)
    (h : .slClosed i f ∈ (op.program cfg sig w).log) :
    ∃ now d s, op = .stopLoss now f i ∧ w.deal? i = some d ∧ slSettings cfg d = some s ∧
      .ledger (.closeDeal i f .sl (d.calculatePnl f).1 (d.calculatePnl f).2 now (slTrigger s.1)) ∈
        (op.program cfg sig w).log ∧
      (op.program cfg sig w).state.deal? i = none := by
  obtain ⟨now, price, rfl⟩ := loggedBy_op cfg sig op w _ h
  have hstep := opStep_stopLoss cfg sig now price i w
  generalize (EngineOp.program cfg sig (.stopLoss now price i) w).log = l,
    (EngineOp.program cfg sig (.stopLoss now price i) w).state = v at hstep h ⊢
  cases hstep with
  | idle => cases h
  | peaked now price d s hd hs => cases h
  | stopped now price d s hd hs hv =>
    obtain rfl : f = price := by simpa [closeLog] using h
    refine ⟨now, d, s, rfl, hd, hs, ?_, afterClose_deal? cfg now d f .sl (slTrigger s.1) _⟩
    simp [closeLog]

/-- The stop of the monitoring loop closes the deal as a trailing stop. -/
def ClosesTrailing (pct : ℚ) (w : World) (l : List EngineEvent) (w' : World) : Prop :=
  (∀ d, w.deal? i = some d → slSettings cfg d = some (.trailing, pct)) →
    (∀ d, w'.deal? i = some d → slSettings cfg d = some (.trailing, pct)) ∧
    ∀ f, .slClosed i f ∈ l → ∃ pnlBtc pnlPct now,
      .ledger (.closeDeal i f .sl pnlBtc pnlPct now .trailingSl) ∈ l

theorem closesTrailing_traceRel (pct : ℚ) : Program.TraceRel (ClosesTrailing cfg i pct) where
  nil _ h := ⟨h, fun _ hf => absurd hf List.not_mem_nil⟩
  append := by
    intro w l v l' u h h' hw
    obtain ⟨hv, hl⟩ := h hw
    obtain ⟨hu, hl'⟩ := h' hv
    refine ⟨hu, fun f hf => ?_⟩
    rcases List.mem_append.mp hf with hf | hf
    · obtain ⟨a, b, now, hm⟩ := hl f hf
      exact ⟨a, b, now, List.mem_append_left _ hm⟩
    · obtain ⟨a, b, now, hm⟩ := hl' f hf
      exact ⟨a, b, now, List.mem_append_right _ hm⟩

theorem closesTrailing_op (pct : ℚ) (inp : TickInput) (p : ℚ) (op : EngineOp)
    (hop : EngineOp.Monitors inp p op) :
    Program.Respects (ClosesTrailing cfg i pct) (op.program cfg sig) := by
  intro w hw
  have htrack : ∀ q, op ≠ .trackWicks q := by
    rintro q rfl
    cases hop
  refine ⟨fun d' hd' => ?_, fun f hf => ?_⟩
  · obtain ⟨hmem, hid⟩ := KeyedDict.get?_mem _ _ _ hd'
    rcases continues_op cfg sig op htrack w d' hmem with ⟨d, hd, hstep⟩ | ⟨now, q, t, _, hq⟩
    · have hget : w.deal? i = some d := by
        rw [← hid, hstep.id_eq]
        exact KeyedDict.get?_of_mem _ d hd
      have hsl := hw d hget
      cases hstep with
      | same => exact hsl
      | peak now q h => exact hsl
      | order now q h => exact hsl
      | settings s h =>
        obtain ⟨now, q, rfl⟩ := loggedBy_op cfg sig op w _ h
        cases hop
    · obtain ⟨now', inp', t', rfl⟩ := loggedBy_op cfg sig op w _ hq
      cases hop
  · obtain ⟨now, d, s, _, hd, hs, hledger, _⟩ := slClosed_op cfg sig i op w f hf
    rw [hw d hd] at hs
    cases hs
    exact ⟨_, _, now, hledger⟩

/-- A tick that closes the deal by its stop books a trailing stop. -/
theorem tick_trailing (pct : ℚ) (inp : TickInput) (w : World) (d : PaperDeal)
    (hd : w.deal? i = some d) (hsl : slSettings cfg d = some (.trailing, pct)) (f : ℚ)
    (hf : .slClosed i f ∈ (tick cfg sig inp w).log) :
    ∃ pnlBtc pnlPct now, .ledger (.closeDeal i f .sl pnlBtc pnlPct now .trailingSl) ∈
      (tick cfg sig inp w).log := by
  cases ht : inp.ticker with
  | error e =>
    rw [(tick_run_error cfg sig inp e ht w).1] at hf
    simp at hf
  | ok t =>
    have hloop := monitorDeals_respects_ops cfg sig _ (closesTrailing_traceRel cfg i pct) inp
      t.tickPrice (fun op hop => closesTrailing_op cfg sig i pct inp t.tickPrice op hop)
      ((tracked t.tickPrice (hooked inp w)).engine.state.openDeals.items.map PaperDeal.id) 0
      (tracked t.tickPrice (hooked inp w)) (by
        intro x hx
        rw [WickTakeProfit.tracked_deal?, WickTakeProfit.hooked_deal?, hd] at hx
        cases hx
        exact hsl)
    -- the close is neither among the late events nor the log of an exception
    have hmem : .slClosed i f ∈ (monitorDeals cfg sig inp.candles inp.now t.tickPrice 0
        ((tracked t.tickPrice (hooked inp w)).engine.state.openDeals.items.map PaperDeal.id)
        (tracked t.tickPrice (hooked inp w))).log ∧
        ∀ e, e ∈ (monitorDeals cfg sig inp.candles inp.now t.tickPrice 0
          ((tracked t.tickPrice (hooked inp w)).engine.state.openDeals.items.map PaperDeal.id)
          (tracked t.tickPrice (hooked inp w))).log → e ∈ (tick cfg sig inp w).log := by
      have hlog := (tick_run_ok cfg sig inp t ht w).1
      have hbody : .slClosed i f ∈ (bodyAt cfg sig inp t.tickPrice w).log := by
        rw [hlog] at hf
        rcases List.mem_append.mp hf with h | h
        · exact h
        · cases hr : (bodyAt cfg sig inp t.tickPrice w).result with
          | ok _ => simp [hr] at h
          | error e => simp [hr] at h
      have hsub := body_log cfg sig inp t ht w
      rw [bodyAt, afterTracking_run, Program.bind_run] at hbody hsub
      split at hbody
      · rename_i hr
        simp only [hr] at hsub
        exact ⟨hbody, hsub⟩
      · rename_i hr
        simp only [hr] at hsub
        refine ⟨?_, fun e he => hsub e (List.mem_append_left _ he)⟩
        rcases List.mem_append.mp hbody with h | h
        · exact h
        · have hquiet := afterMonitoring_noManagement cfg sig inp t.tickPrice _ _ h
          cases hquiet
    obtain ⟨a, b, now, hledger⟩ := hloop.2 f hmem.1
    exact ⟨a, b, now, hmem.2 _ hledger⟩

/-- A deal that was closed by its stop, or was not open, is not open afterwards. -/
def StaysClosed (w : World) (l : List EngineEvent) (w' : World) : Prop :=
  (∀ q, .opened i q ∉ l) → (w.deal? i = none ∨ ∃ f, .slClosed i f ∈ l) → w'.deal? i = none

theorem staysClosed_traceRel : Program.TraceRel (StaysClosed i) where
  nil w _ h := by
    rcases h with h | ⟨f, hf⟩
    · exact h
    · cases hf
  append := by
    intro w l v l' u h h' hopened hclosed
    have hl := h fun q hq => hopened q (List.mem_append_left _ hq)
    have hl' := h' fun q hq => hopened q (List.mem_append_right _ hq)
    rcases hclosed with hnone | ⟨f, hf⟩
    · exact hl' (Or.inl (hl (Or.inl hnone)))
    · rcases List.mem_append.mp hf with hf | hf
      · exact hl' (Or.inl (hl (Or.inr ⟨f, hf⟩)))
      · exact hl' (Or.inr ⟨f, hf⟩)

theorem staysClosed_op (op : EngineOp) :
    Program.Respects (StaysClosed i) (op.program cfg sig) := by
  intro w hopened hclosed
  rcases hclosed with hnone | ⟨f, hf⟩
  · by_cases htrack : ∃ q, op = .trackWicks q
    · obtain ⟨q, rfl⟩ := htrack
      have hmap := KeyedDict.get?_mapValues w.engine.state.openDeals (trackWick q) (fun _ => rfl) i
      exact hmap.trans (congrArg (Option.map (trackWick q)) hnone)
    · cases hd : (op.program cfg sig w).state.deal? i with
      | none => rfl
      | some d' =>
        obtain ⟨hmem, rfl⟩ := KeyedDict.get?_mem _ _ _ hd
        rcases continues_op cfg sig op (fun q hq => htrack ⟨q, hq⟩) w d' hmem with
          ⟨d, hd, hstep⟩ | ⟨now, q, t, _, hq⟩
        · rw [hstep.id_eq] at hnone
          have hget : w.deal? d.id = some d := KeyedDict.get?_of_mem _ d hd
          rw [hnone] at hget
          cases hget
        · exact absurd hq (hopened q)
  · obtain ⟨_, _, _, _, _, _, _, hgone⟩ := slClosed_op cfg sig i op w f hf
    exact hgone

theorem tick_closed (inp : TickInput) (w : World) (f : ℚ)
    (hno : ∀ q, .opened i q ∉ (tick cfg sig inp w).log)
    (hf : .slClosed i f ∈ (tick cfg sig inp w).log) :
    (tick cfg sig inp w).state.deal? i = none :=
  Program.runsAs_rel _ _ (StaysClosed i) (staysClosed_traceRel i)
    (fun op _ => staysClosed_op cfg sig i op) _ _ _ (tick_runs cfg sig inp w) hno (Or.inr ⟨f, hf⟩)

/-! ### The law -/

/-- A bot that lives through some steps, opens a deal at a tick, and lives on. -/
structure TrailedRun where
  initialBalanceBtc : ℚ
  before : List LifeStep
  opening : TickInput
  steps : List LifeStep
  dealId : String
  base : ℚ
  pct : ℚ

namespace TrailedRun

variable (r : TrailedRun)

/-- The world in which the opening tick is made. -/
def start : World := afterLife cfg sig r.initialBalanceBtc r.before

/-- The world after some of the steps behind the opening tick. -/
def world (steps : List LifeStep) : World :=
  (Program.runAll (LifeStep.program cfg sig) steps (tick cfg sig r.opening (r.start cfg sig)).state).2

/-- The deal is new at the opening tick, and open under one trailing stop at every tick
after it. -/
structure Trailed : Prop where
  wicks : cfg.useWickSimulation = true
  pct_pos : 0 < r.pct
  pct_lt : r.pct < 100
  base_pos : 0 < r.base
  prices_pos : ∀ p ∈ tickPrices r.steps, 0 < p
  fresh : (r.start cfg sig).deal? r.dealId = none
  opened : .opened r.dealId r.base ∈ (tick cfg sig r.opening (r.start cfg sig)).log
  follows : Program.EachStep (LifeStep.program cfg sig) (Follows cfg sig r.dealId r.pct) r.steps
    (r.world cfg sig [])

/-- At every tick of the run the take-profit check of the deal returns. -/
def TpReturns : Prop :=
  Program.EachStep (LifeStep.program cfg sig) (TrailingStop.TpReturns cfg sig r.dealId) r.steps
    (r.world cfg sig [])

instance : Decidable (r.TpReturns cfg sig) :=
  inferInstanceAs (Decidable (Program.EachStep _ _ r.steps (r.world cfg sig [])))

/-- The stop line of a price history. -/
def line (side : Side) (prices : List ℚ) : Except PyError ℚ :=
  computeSlTargetPrice (trailed side r.base prices) r.pct side

/-- What the trailing stop does about the deal at a tick, after the prices. -/
structure StopsAt (prices : List ℚ) (w : World) (inp : TickInput) (p : ℚ) (d : PaperDeal) :
    Prop where
  closes : ∃ line, r.line d.side (prices ++ [p]) = .ok line ∧
    computeSlTargetPrice (slReference cfg (trackWick p d) p .trailing) r.pct d.side = .ok line ∧
    ((∃ f, .slClosed r.dealId f ∈ (tick cfg sig inp w).log) ↔
      slHit d.side p line = true ∧ ∀ f t, .tpClosed r.dealId f t ∉ (tick cfg sig inp w).log)
  noRetreat : ∀ earlier more before line, prices ++ [p] = earlier ++ more →
    r.line d.side earlier = .ok before → r.line d.side (prices ++ [p]) = .ok line →
    reaches d.side line before = true
  booked : ∀ f, .slClosed r.dealId f ∈ (tick cfg sig inp w).log →
    f = p ∧ (tick cfg sig inp w).state.deal? r.dealId = none ∧
      ∃ pnlBtc pnlPct now, .ledger (.closeDeal r.dealId p .sl pnlBtc pnlPct now .trailingSl) ∈
        (tick cfg sig inp w).log

/-- The trailing stop at every tick of the run. -/
def Law : Prop :=
  ∀ earlier inp later t d, r.steps = earlier ++ .tick inp :: later → inp.ticker = .ok t →
    (r.world cfg sig earlier).deal? r.dealId = some d →
    r.StopsAt cfg sig (tickPrices earlier) (r.world cfg sig earlier) inp t.tickPrice d

/-! ### Runs whose take profit returns -/

variable {r}

/-- The line moves with its reference. -/
theorem line_reaches (side : Side) (h0 : 0 < r.pct) (h1 : r.pct < 100) (earlier more : List ℚ)
    (before line : ℚ) (hbefore : r.line side earlier = .ok before)
    (hline : r.line side (earlier ++ more) = .ok line) : reaches side line before = true := by
  unfold TrailedRun.line trailed at hbefore hline
  cases side with
  | long =>
    have hpos : 0 < 1 + r.pct / 100 := by linarith
    obtain ⟨_, rfl⟩ := pyDiv_eq_ok _ _ _ hbefore
    obtain ⟨_, rfl⟩ := pyDiv_eq_ok _ _ _ hline
    exact decide_eq_true (div_le_div_of_nonneg_right (highest_append_le r.base earlier more) hpos.le)
  | short =>
    have hpos : 0 < 1 - r.pct / 100 := by linarith
    obtain ⟨_, rfl⟩ := pyDiv_eq_ok _ _ _ hbefore
    obtain ⟨_, rfl⟩ := pyDiv_eq_ok _ _ _ hline
    exact decide_eq_true (div_le_div_of_nonneg_right (lowest_append_le r.base earlier more) hpos.le)

/-- Before every tick of the run the deal is on its trail, and no other deal is open. -/
theorem trails_world (h : r.Trailed cfg sig) (earlier : List LifeStep)
    (hfollows : Program.EachStep (LifeStep.program cfg sig) (Follows cfg sig r.dealId r.pct) earlier
      (r.world cfg sig []))
    (htp : Program.EachStep (LifeStep.program cfg sig) (TrailingStop.TpReturns cfg sig r.dealId)
      earlier (r.world cfg sig [])) :
    OneOpen (r.world cfg sig earlier) ∧
      Trails r.dealId r.base (tickPrices earlier) (r.world cfg sig earlier) := by
  have hstart : OneOpen (r.start cfg sig) := oneOpen_life cfg sig r.initialBalanceBtc r.before
  have hopened := oneOpen_step cfg sig (.tick r.opening) (r.start cfg sig) hstart
  have htrails := trails_opening cfg sig r.dealId r.base h.wicks r.opening _ h.fresh h.opened
  have hone := Program.runsAs_rel (LifeStep.program cfg sig) (fun _ => True) _
    (Program.traceRel_invariant OneOpen) (fun l _ => oneOpen_step cfg sig l)
    (tick cfg sig r.opening (r.start cfg sig)).state _ _ ⟨earlier, fun _ _ => trivial, rfl⟩ hopened
  exact ⟨hone, trails_run cfg sig r.dealId r.base [] h.wicks r.pct h.pct_pos h.pct_lt earlier _
    hopened hfollows htp htrails⟩

/-- The take profit leaves the deal to the stop exactly where it does not close it. -/
theorem tpPasses_iff (inp : TickInput) (w : World) (hone : OneOpen w) (d : PaperDeal)
    (hd : d ∈ w.engine.state.openDeals.items) (t : Ticker) (ht : inp.ticker = .ok t) (v : TpVerdict)
    (hv : tpVerdict cfg sig inp.candles (trackWick t.tickPrice d) t.tickPrice = .ok v) :
    tpPasses cfg sig inp.candles t.tickPrice (trackWick t.tickPrice d) = true ↔
      ∀ f trigger, .tpClosed d.id f trigger ∉ (tick cfg sig inp w).log := by
  have hclosed := tick_tpClosed_iff cfg sig inp w hone.memory d hd
  -- a verdict that fills nothing logs no close
  have hquiet : (∀ f, v ≠ .priceFill f) → (∀ info, v ≠ .indicatorFill info) →
      ∀ f trigger, .tpClosed d.id f trigger ∉ (tick cfg sig inp w).log := by
    intro hprice hindicator f trigger hm
    obtain ⟨t', ht', hverdict⟩ := (hclosed f trigger).mp hm
    rw [ht] at ht'
    cases ht'
    rw [hv] at hverdict
    rcases hverdict with ⟨hfill, _⟩ | ⟨info, hfill, _⟩
    · exact hprice f (Except.ok.inj hfill)
    · exact hindicator info (Except.ok.inj hfill)
  cases v with
  | idle => simp [tpPasses, hv, hquiet]
  | held => simp [tpPasses, hv, hquiet]
  | priceFill f =>
    have hm := (hclosed f .priceTp).mpr ⟨t, ht, Or.inl ⟨hv, rfl⟩⟩
    have hno : tpPasses cfg sig inp.candles t.tickPrice (trackWick t.tickPrice d) = false := by
      simp [tpPasses, hv]
    rw [hno]
    exact iff_of_false Bool.false_ne_true fun h => h f .priceTp hm
  | indicatorFill info =>
    have hm := (hclosed t.tickPrice (.indicatorTp info.groupName info.indicators)).mpr
      ⟨t, ht, Or.inr ⟨info, hv, rfl, rfl⟩⟩
    have hno : tpPasses cfg sig inp.candles t.tickPrice (trackWick t.tickPrice d) = false := by
      simp [tpPasses, hv]
    rw [hno]
    exact iff_of_false Bool.false_ne_true fun h => h _ _ hm

/-- A tick of a deal on its trail whose take-profit check returns. -/
theorem stopsAt_tick (hwick : cfg.useWickSimulation = true) (h0 : 0 < r.pct) (h1 : r.pct < 100)
    (ps : List ℚ) (w : World) (hone : OneOpen w) (htrails : Trails r.dealId r.base ps w)
    (inp : TickInput) (t : Ticker) (ht : inp.ticker = .ok t) (d : PaperDeal)
    (hd : w.deal? r.dealId = some d)
    (hfollows : Follows cfg sig r.dealId r.pct w (.tick inp))
    (htp : TrailingStop.TpReturns cfg sig r.dealId w (.tick inp)) :
    r.StopsAt cfg sig ps w inp t.tickPrice d := by
  obtain ⟨⟨e, he, hsl⟩, hno⟩ := hfollows
  obtain rfl : e = d := Option.some.inj (he.symm.trans hd)
  obtain ⟨v, hv⟩ := htp.verdict cfg sig _ w inp e t hd ht
  obtain ⟨hmem, hid⟩ := KeyedDict.get?_mem _ _ _ hd
  have htrail := (htrails.memory e hmem hid).track r.base ps e t.tickPrice
  have href : slReference cfg (trackWick t.tickPrice e) t.tickPrice .trailing =
      trailed e.side r.base (ps ++ [t.tickPrice]) := by
    refine htrail.newPeak_eq cfg r.base _ _ hwick t.tickPrice ?_ ?_
    · rw [lowest_snoc]
      exact min_le_right _ _
    · rw [highest_snoc]
      exact le_max_right _ _
  obtain ⟨line, hline⟩ := stopLine_ok r.pct h0 h1
    (trailed e.side r.base (ps ++ [t.tickPrice])) e.side
  have hverdict : slVerdict cfg (trackWick t.tickPrice e) t.tickPrice (.trailing, r.pct) =
      .ok (slHit e.side t.tickPrice line) := by
    rw [slVerdict, href]
    show (computeSlTargetPrice _ r.pct e.side).map _ = _
    rw [hline, Except.map]
    rfl
  have hpasses := tpPasses_iff cfg sig inp w hone e hmem t ht v hv
  have hslc := tick_slClosed_iff cfg sig inp w hone.memory e hmem
  refine ⟨⟨line, hline, ?_, ?_⟩, ?_, ?_⟩
  · rw [href]
    exact hline
  · rw [← hid, ← hpasses]
    constructor
    · rintro ⟨f, hf⟩
      obtain ⟨t', ht', _, hpass, s, hs, hit⟩ := (hslc f).mp hf
      rw [ht] at ht'
      cases ht'
      rw [slSettings_trackWick, hsl] at hs
      cases hs
      rw [hverdict] at hit
      exact ⟨Except.ok.inj hit, hpass⟩
    · rintro ⟨hhit, hpass⟩
      refine ⟨t.tickPrice, (hslc _).mpr ⟨t, ht, rfl, hpass, (.trailing, r.pct), hsl, ?_⟩⟩
      rw [hverdict, hhit]
  · intro earlier more before line' hsplit hbefore hline'
    rw [hsplit] at hline'
    exact line_reaches e.side h0 h1 earlier more before line' hbefore hline'
  · intro f hf
    have hclosed := tick_closed cfg sig r.dealId inp w f (not_opened _ _ hno) hf
    rw [← hid] at hf
    obtain ⟨t', ht', hprice, _⟩ := (hslc f).mp hf
    rw [ht] at ht'
    cases ht'
    rw [hid, hprice] at hf
    exact ⟨hprice, hclosed, tick_trailing cfg sig r.dealId r.pct inp w e hd hsl _ hf⟩

/-- The trailing stop does what it is for in every run in which the take-profit check of
the deal returns. -/
theorem law_of_tpReturns (r : TrailedRun) (h : r.Trailed cfg sig) (htp : r.TpReturns cfg sig) :
    r.Law cfg sig := by
  intro earlier inp later t d hsteps ht hd
  have hfollows := h.follows
  rw [TpReturns] at htp
  rw [hsteps, Program.eachStep_append] at hfollows htp
  obtain ⟨hone, htrails⟩ := trails_world cfg sig h earlier hfollows.1 htp.1
  exact stopsAt_tick cfg sig h.wicks h.pct_pos h.pct_lt _ _ hone htrails inp t ht d hd
    hfollows.2.1 htp.2.1

/-! ### Two runs -/

/-- A tick at a price that opens deals under an id of its own. -/
def tickInput (k : ℕ) (price : ℚ) : TickInput :=
  { TickInput.atPrice price with entryOpen := .accepted (toString k) }

/-- A long bot with a trailing stop of 5%. -/
def trailingBot : BotConfig := { BotConfig.small "trailing" with stopLoss := .trailing }

/-- The price rises to 102, the bot is restarted, and the price falls through the line. -/
def fallingRun : TrailedRun where
  initialBalanceBtc := 1
  before := []
  opening := tickInput 0 100
  steps := [.tick (tickInput 1 102), .stop, .restart 1, .tick (tickInput 2 98), .tick (tickInput 3 97)]
  dealId := "0"
  base := 100
  pct := 5

theorem trailed_fallingRun : fallingRun.Trailed trailingBot .silent where
  wicks := rfl
  pct_pos := by norm_num [fallingRun]
  pct_lt := by norm_num [fallingRun]
  base_pos := by norm_num [fallingRun]
  prices_pos := by decide +kernel
  fresh := rfl
  opened := by decide +kernel
  follows := by decide +kernel

theorem law_fallingRun : fallingRun.Law trailingBot .silent :=
  law_of_tpReturns trailingBot .silent fallingRun trailed_fallingRun (by decide +kernel)

/-- The same bot with a take profit of 100%. -/
def fullTrailingBot : BotConfig := { trailingBot with takeProfit := .full }

/-- The price halves. -/
def halvedRun : TrailedRun where
  initialBalanceBtc := 1
  before := []
  opening := tickInput 0 100
  steps := [.tick (tickInput 1 50)]
  dealId := "0"
  base := 100
  pct := 5

theorem trailed_halvedRun : halvedRun.Trailed fullTrailingBot .silent where
  wicks := rfl
  pct_pos := by norm_num [halvedRun]
  pct_lt := by norm_num [halvedRun]
  base_pos := by norm_num [halvedRun]
  prices_pos := by decide +kernel
  fresh := rfl
  opened := by decide +kernel
  follows := by decide +kernel

/-- The target of 100% divides by zero before the stop is looked at: the deal is not closed
at half its entry price. -/
theorem not_law_halvedRun :
    ¬ ∀ (cfg : BotConfig) (sig : Signals) (r : TrailedRun), r.Trailed cfg sig → r.Law cfg sig := by
  intro h
  have hopen : (halvedRun.world fullTrailingBot .silent []).deal? "0" =
      some (newDeal fullTrailingBot 0 "0" 100 none) := by decide +kernel
  have hlog : (tick fullTrailingBot .silent (tickInput 1 50)
      (halvedRun.world fullTrailingBot .silent [])).log = [.tickError .zeroDivisionError] := by
    decide +kernel
  have hlaw := h fullTrailingBot .silent halvedRun trailed_halvedRun [] (tickInput 1 50) [] _ _ rfl
    rfl hopen
  obtain ⟨line, hline, _, hiff⟩ := hlaw.closes
  rw [hlog] at hiff
  have hvalue : halvedRun.line .long [50] = .ok (2000 / 21) := by decide +kernel
  obtain rfl : 2000 / 21 = line := Except.ok.inj (hvalue.symm.trans hline)
  obtain ⟨f, hf⟩ := hiff.mpr ⟨by decide +kernel, fun f t ht => by simp at ht⟩
  simp at hf

end TrailedRun

end TrailingStop

end Reverto
