import Mathlib.Tactic
import Reverto.Core.EngineLife
import Reverto.Lib.WeightedMean

/-!
# The ladder of a deal (core/trading_engine.py)

The orders of a deal: a base order, then rungs that are numbered on, each at least
the configured spacing beyond the last. What the engine opens, fills, closes, saves
and loads keeps every deal a ladder and at most one of them open.
-/

namespace Reverto

open TradingEngine

namespace Ladder

variable (cfg : BotConfig)

/-! ### Ladders -/

/-- The price lies beyond the last fill by a percentage of it, where the deal loses. -/
def Beyond (side : Side) (step last price : ℚ) : Prop :=
  match side with
  | .long => price ≤ last * (1 - step / 100)
  | .short => last * (1 + step / 100) ≤ price

/-- The spacing of a rung in percent, by the number of rungs before it. -/
def spacing (k : ℕ) : ℚ := cfg.dca.orderSpacingPct * cfg.dca.stepScale ^ k

/-- The orders of a deal as the engine places them. -/
inductive Laddered (side : Side) : List PaperOrder → Prop
  | base (o : PaperOrder) (hnumber : o.orderNumber = 1) (htype : o.orderType = .base)
    (hprice : 0 < o.price) (hsize : 0 < o.size) : Laddered side [o]
  | rung (orders : List PaperOrder) (last o : PaperOrder) (h : Laddered side orders)
    (hlast : orders.getLast? = some last) (hmax : orders.length < cfg.dca.maxOrders)
    (hnumber : o.orderNumber = orders.length + 1) (htype : o.orderType = .dca)
    (hprice : 0 < o.price) (hsize : 0 ≤ o.size)
    (hbeyond : Beyond side (spacing cfg (orders.length - 1)) last.price o.price) :
    Laddered side (orders ++ [o])

/-- The second price is no better for the deal than the first. -/
def NoBetter (side : Side) (p q : ℚ) : Prop :=
  match side with
  | .long => q ≤ p
  | .short => p ≤ q

/-- The second price is worse for the deal than the first. -/
def Worse (side : Side) (p q : ℚ) : Prop :=
  match side with
  | .long => q < p
  | .short => p < q

theorem spacing_pos (k : ℕ) : 0 < spacing cfg k :=
  mul_pos cfg.dca.orderSpacingPct_pos (pow_pos cfg.dca.stepScale_pos k)

section

variable {cfg} {side : Side} {orders : List PaperOrder}

theorem Laddered.ne_nil (h : Laddered cfg side orders) : orders ≠ [] := by
  cases h with
  | base o => exact List.cons_ne_nil _ _
  | rung orders last o => exact List.append_ne_nil_of_right_ne_nil _ (List.cons_ne_nil _ _)

theorem Laddered.bounded (h : Laddered cfg side orders) :
    orders.length ≤ max 1 cfg.dca.maxOrders := by
  cases h with
  | base o => simp
  | rung orders last o h hlast hmax =>
    rw [List.length_append, List.length_singleton]
    omega

theorem Laddered.numbered (h : Laddered cfg side orders) :
    orders.map PaperOrder.orderNumber = List.range' 1 orders.length := by
  induction h with
  | base o hnumber => simp [hnumber]
  | rung orders last o h hlast hmax hnumber htype hprice hsize hbeyond ih =>
    rw [List.map_append, ih, List.length_append, List.length_singleton, List.range'_1_concat]
    simp [hnumber, Nat.add_comm]

theorem Laddered.starts (h : Laddered cfg side orders) :
    ∃ base rest, orders = base :: rest ∧ base.orderType = .base ∧
      ∀ o ∈ rest, o.orderType = .dca := by
  induction h with
  | base o hnumber htype => exact ⟨o, [], rfl, htype, by simp⟩
  | rung orders last o h hlast hmax hnumber htype hprice hsize hbeyond ih =>
    obtain ⟨base, rest, rfl, hbase, hrest⟩ := ih
    refine ⟨base, rest ++ [o], rfl, hbase, fun x hx => ?_⟩
    rcases List.mem_append.mp hx with hx | hx
    · exact hrest x hx
    · obtain rfl : x = o := by simpa using hx
      exact htype

theorem Laddered.positive (h : Laddered cfg side orders) : ∀ o ∈ orders, 0 < o.price := by
  induction h with
  | base o hnumber htype hprice => simpa using hprice
  | rung orders last o h hlast hmax hnumber htype hprice hsize hbeyond ih =>
    intro x hx
    rcases List.mem_append.mp hx with hx | hx
    · exact ih x hx
    · obtain rfl : x = o := by simpa using hx
      exact hprice

theorem Laddered.sized (h : Laddered cfg side orders) : ∀ o ∈ orders, 0 ≤ o.size := by
  induction h with
  | base o hnumber htype hprice hsize => simpa using hsize.le
  | rung orders last o h hlast hmax hnumber htype hprice hsize hbeyond ih =>
    intro x hx
    rcases List.mem_append.mp hx with hx | hx
    · exact ih x hx
    · obtain rfl : x = o := by simpa using hx
      exact hsize

theorem Laddered.total_pos (h : Laddered cfg side orders) :
    0 < WeightedMean.total PaperOrder.size orders := by
  induction h with
  | base o hnumber htype hprice hsize => simpa [WeightedMean.total] using hsize
  | rung orders last o h hlast hmax hnumber htype hprice hsize hbeyond ih =>
    rw [WeightedMean.total_append]
    exact add_pos_of_pos_of_nonneg ih hsize

theorem worse_of_beyond (step last price : ℚ) (hstep : 0 < step) (hlast : 0 < last)
    (h : Beyond side step last price) : Worse side last price := by
  have hpos : 0 < last * (step / 100) := mul_pos hlast (by positivity)
  cases side with
  | long =>
    simp only [Beyond, Worse] at h ⊢
    linarith
  | short =>
    simp only [Beyond, Worse] at h ⊢
    linarith

theorem NoBetter.trans_worse (p q r : ℚ) (h : NoBetter side p q) (h' : Worse side q r) :
    Worse side p r := by
  cases side with
  | long => exact lt_of_lt_of_le h' h
  | short => exact lt_of_le_of_lt h h'

theorem Worse.noBetter (p q : ℚ) (h : Worse side p q) : NoBetter side p q := by
  cases side with
  | long => exact le_of_lt h
  | short => exact le_of_lt h

theorem noBetter_refl (p : ℚ) : NoBetter side p p := by
  cases side with
  | long => exact le_refl p
  | short => exact le_refl p

/-- The last order of a ladder is the worst one. -/
theorem Laddered.last_worst (h : Laddered cfg side orders) (last : PaperOrder)
    (hlast : orders.getLast? = some last) : ∀ o ∈ orders, NoBetter side o.price last.price := by
  induction h generalizing last with
  | base o =>
    obtain rfl : o = last := by simpa using hlast
    intro x hx
    obtain rfl : x = o := by simpa using hx
    exact noBetter_refl x.price
  | rung orders previous o h hprevious hmax hnumber htype hprice hsize hbeyond ih =>
    obtain rfl : o = last := by simpa using hlast
    have hpos := h.positive previous (List.mem_of_getLast? hprevious)
    have hworse := worse_of_beyond _ _ _ (spacing_pos cfg _) hpos hbeyond
    intro x hx
    rcases List.mem_append.mp hx with hx | hx
    · exact ((ih previous hprevious x hx).trans_worse _ _ _ hworse).noBetter
    · obtain rfl : x = o := by simpa using hx
      exact noBetter_refl x.price

/-- The mean price of a ladder is no worse than its last price. -/
theorem Laddered.mean_noBetter (h : Laddered cfg side orders) (last : PaperOrder)
    (hlast : orders.getLast? = some last) :
    NoBetter side (WeightedMean.mean PaperOrder.price PaperOrder.size orders) last.price := by
  have hworst := h.last_worst last hlast
  cases side with
  | long => exact WeightedMean.le_mean _ _ orders last.price hworst h.sized h.total_pos
  | short => exact WeightedMean.mean_le _ _ orders last.price hworst h.sized h.total_pos

/-- A rung of positive size pulls the mean price its way. -/
theorem Laddered.mean_rung (h : Laddered cfg side orders) (last o : PaperOrder)
    (hlast : orders.getLast? = some last)
    (hbeyond : Beyond side (spacing cfg (orders.length - 1)) last.price o.price)
    (hsize : 0 < o.size) :
    Worse side (WeightedMean.mean PaperOrder.price PaperOrder.size orders)
      (WeightedMean.mean PaperOrder.price PaperOrder.size (orders ++ [o])) := by
  have hpos := h.positive last (List.mem_of_getLast? hlast)
  have hworse := (h.mean_noBetter last hlast).trans_worse _ _ _
    (worse_of_beyond _ _ _ (spacing_pos cfg _) hpos hbeyond)
  cases side with
  | long => exact WeightedMean.mean_append_lt _ _ orders o hworse hsize h.total_pos
  | short => exact WeightedMean.lt_mean_append _ _ orders o hworse hsize h.total_pos

theorem Laddered.spaced (h : Laddered cfg side orders) (k : ℕ) (last o : PaperOrder)
    (hlast : orders[k]? = some last) (ho : orders[k + 1]? = some o) :
    Beyond side (spacing cfg k) last.price o.price := by
  induction h with
  | base x => simp at ho
  | rung orders previous x h hprevious hmax hnumber htype hprice hsize hbeyond ih =>
    rcases Nat.lt_trichotomy (k + 1) orders.length with hk | hk | hk
    · rw [List.getElem?_append_left (by omega)] at hlast
      rw [List.getElem?_append_left hk] at ho
      exact ih hlast ho
    · have hk' : orders.length - 1 = k := by omega
      rw [List.getElem?_append_left (by omega)] at hlast
      rw [List.getElem?_append_right (by omega), hk, Nat.sub_self] at ho
      obtain rfl : x = o := by simpa using ho
      rw [List.getLast?_eq_getElem?, hk', hlast] at hprevious
      cases hprevious
      rwa [hk'] at hbeyond
    · rw [List.getElem?_append_right (by omega)] at ho
      have hnone : ¬ k + 1 - orders.length = 0 := by omega
      simp [hnone] at ho

theorem Laddered.averaged (h : Laddered cfg side orders) (k : ℕ) (o : PaperOrder) (hk : 0 < k)
    (ho : orders[k]? = some o) (hsize : 0 < o.size) :
    Worse side (WeightedMean.mean PaperOrder.price PaperOrder.size (orders.take k))
      (WeightedMean.mean PaperOrder.price PaperOrder.size (orders.take (k + 1))) := by
  induction h with
  | base x =>
    obtain ⟨j, rfl⟩ := Nat.exists_eq_succ_of_ne_zero hk.ne'
    simp at ho
  | rung orders last x h hlast hmax hnumber htype hprice hsize' hbeyond ih =>
    rcases Nat.lt_trichotomy k orders.length with hlt | heq | hgt
    · rw [List.getElem?_append_left hlt] at ho
      rw [List.take_append_of_le_length hlt.le, List.take_append_of_le_length hlt]
      exact ih ho
    · subst heq
      rw [List.getElem?_append_right le_rfl, Nat.sub_self] at ho
      obtain rfl : x = o := by simpa using ho
      rw [List.take_left, List.take_of_length_le (by simp)]
      exact h.mean_rung last x hlast hbeyond hsize
    · rw [List.getElem?_append_right hgt.le] at ho
      have hnone : ¬ k - orders.length = 0 := by omega
      simp [hnone] at ho

end

/-! ### The deals of an account -/

/-- The shape of a deal, by its orders. -/
structure WellBuilt (d : PaperDeal) : Prop where
  numbered : d.orders.map PaperOrder.orderNumber = List.range' 1 d.orders.length
  starts : ∃ base rest, d.orders = base :: rest ∧ base.orderType = .base ∧
    ∀ o ∈ rest, o.orderType = .dca
  bounded : d.orders.length ≤ max 1 cfg.dca.maxOrders
  spaced : ∀ k last o, d.orders[k]? = some last → d.orders[k + 1]? = some o →
    Beyond d.side (spacing cfg k) last.price o.price
  averaged : ∀ k o, 0 < k → d.orders[k]? = some o → 0 < o.size →
    Worse d.side ({ d with orders := d.orders.take k } : PaperDeal).avgEntryPrice
      ({ d with orders := d.orders.take (k + 1) } : PaperDeal).avgEntryPrice

theorem avgEntryPrice_eq_mean (d : PaperDeal) (h : d.orders ≠ []) :
    d.avgEntryPrice = WeightedMean.mean PaperOrder.price PaperOrder.size d.orders := by
  rw [PaperDeal.avgEntryPrice, if_neg h]
  rfl

theorem Laddered.wellBuilt (d : PaperDeal) (h : Laddered cfg d.side d.orders) :
    WellBuilt cfg d where
  numbered := h.numbered
  starts := h.starts
  bounded := h.bounded
  spaced := h.spaced
  averaged := by
    intro k o hk ho hsize
    have hne : ∀ j, 0 < j → d.orders.take j ≠ [] := by
      intro j hj hnil
      rcases List.take_eq_nil_iff.mp hnil with hj' | hnil
      · omega
      · exact h.ne_nil hnil
    rw [avgEntryPrice_eq_mean { d with orders := d.orders.take k } (hne k hk),
      avgEntryPrice_eq_mean { d with orders := d.orders.take (k + 1) } (hne _ (Nat.succ_pos k))]
    exact h.averaged k o hk ho hsize

/-- At most one deal is open, its id is no closed one's, and every deal is a ladder. -/
structure Structured (s : PaperState) : Prop where
  one : s.openDeals.items.length ≤ 1
  disjoint : ∀ i ∈ s.closedIds, i ∉ s.openIds
  openLaddered : ∀ d ∈ s.openDeals.items, Laddered cfg d.side d.orders
  closedLaddered : ∀ d ∈ s.closedDeals, Laddered cfg d.side d.orders

theorem structured_init (b : ℚ) : Structured cfg (PaperState.init b) where
  one := Nat.zero_le _
  disjoint := fun _ hi => by cases hi
  openLaddered := fun _ hd => by cases hd
  closedLaddered := fun _ hd => by cases hd

theorem Structured.congr (s s' : PaperState) (h : Structured cfg s)
    (hopen : s'.openDeals = s.openDeals) (hclosed : s'.closedDeals = s.closedDeals) :
    Structured cfg s' := by
  refine ⟨hopen ▸ h.one, ?_, hopen ▸ h.openLaddered, hclosed ▸ h.closedLaddered⟩
  rw [PaperState.closedIds, PaperState.openIds, hopen, hclosed]
  exact h.disjoint

/-- Loading what was saved keeps the structure. -/
theorem structured_fileState (s : PaperState) (doc : StateDoc) (hlists : Lists s doc)
    (h : Structured cfg s) : Structured cfg (fileState (some doc)) := by
  obtain ⟨price, hitems⟩ := fileState_openItems s doc hlists
  refine ⟨?_, ?_, ?_, ?_⟩
  · rw [hitems, List.length_map]
    exact h.one
  · intro i hi
    obtain ⟨x, hx, rfl⟩ := List.mem_map.mp hi
    obtain ⟨d, hd, rfl⟩ := fileState_closed s doc hlists x hx
    rw [fileState_openIds s doc hlists]
    exact h.disjoint d.id (List.mem_map_of_mem hd)
  · intro x hx
    rw [hitems] at hx
    obtain ⟨d, hd, rfl⟩ := List.mem_map.mp hx
    exact h.openLaddered d hd
  · intro x hx
    obtain ⟨d, hd, rfl⟩ := fileState_closed s doc hlists x hx
    exact h.closedLaddered d hd

theorem fileState_closedIds (s : PaperState) (doc : StateDoc) (hlists : Lists s doc) :
    (fileState (some doc)).closedIds ⊆ s.closedIds := by
  intro i hi
  obtain ⟨x, hx, rfl⟩ := List.mem_map.mp hi
  obtain ⟨d, hd, rfl⟩ := fileState_closed s doc hlists x hx
  have hid : d.id ∈ s.closedIds := List.mem_map_of_mem hd
  exact hid

/-! ### Operations -/

variable (sig : Signals)

/-- A rung is filled only where the ladder of the deal calls for it. -/
theorem dcaFilled_op (op : EngineOp) (w : World) (i : String) (price : ℚ)
    (h : .dcaFilled i price ∈ (op.program cfg sig w).log) :
    ∃ now d, op = .dca now price i ∧ w.deal? i = some d ∧ dcaVerdict cfg d price = .ok true := by
  obtain ⟨now, rfl⟩ := loggedBy_op cfg sig op w _ h
  have hstep := opStep_dca cfg sig now price i w
  generalize (EngineOp.program cfg sig (.dca now price i) w).log = l,
    (EngineOp.program cfg sig (.dca now price i) w).state = v at hstep h
  cases hstep with
  | idle => cases h
  | filled now price d hd hv => exact ⟨now, d, rfl, hd, hv⟩

theorem dcaVerdict_true (d : PaperDeal) (price : ℚ) (h : dcaVerdict cfg d price = .ok true) :
    ∃ last, d.orders.getLast? = some last ∧ 1 < cfg.dca.maxOrders ∧
      d.dcaCount < cfg.dca.maxOrders - 1 ∧ Beyond d.side (spacing cfg d.dcaCount) last.price price := by
  unfold dcaVerdict at h
  split at h
  · rename_i hallowed
    simp only [dcaAllowed, Bool.and_eq_true, decide_eq_true_eq] at hallowed
    cases hlast : d.orders.getLast? with
    | none => simp [hlast] at h
    | some last =>
      simp only [hlast, Except.ok.injEq] at h
      refine ⟨last, rfl, hallowed.1.2, hallowed.2, ?_⟩
      unfold dcaTriggered at h
      cases hside : d.side with
      | long =>
        rw [hside] at h
        have hle : price ≤ last.price * (1 - dcaStep cfg d / 100) := of_decide_eq_true h
        exact hle
      | short =>
        rw [hside] at h
        have hle : last.price * (1 + dcaStep cfg d / 100) ≤ price := of_decide_eq_true h
        exact hle
  · cases h

theorem Laddered.dcaCount (d : PaperDeal) (h : Laddered cfg d.side d.orders) :
    d.dcaCount = d.orders.length - 1 := by
  obtain ⟨base, rest, horders, hbase, hrest⟩ := h.starts
  have hfilter : (rest.filter fun o => o.orderType = .dca) = rest :=
    List.filter_eq_self.mpr fun o ho => by simpa using hrest o ho
  simp [PaperDeal.dcaCount, horders, hbase, hfilter]

/-- The rung the engine fills continues the ladder. -/
theorem Laddered.dcaOrder (now : Instant) (d : PaperDeal) (price : ℚ)
    (h : Laddered cfg d.side d.orders) (hprice : 0 < price)
    (hv : dcaVerdict cfg d price = .ok true) :
    Laddered cfg d.side (d.orders ++ [TradingEngine.dcaOrder cfg now d price]) := by
  obtain ⟨last, hlast, hmax, hcount, hbeyond⟩ := dcaVerdict_true cfg d price hv
  have hlen : 0 < d.orders.length := List.length_pos_of_ne_nil h.ne_nil
  rw [h.dcaCount] at hcount hbeyond
  refine .rung d.orders last _ h hlast (by omega) ?_ rfl hprice (Accounting.dcaSize_nonneg cfg d)
    hbeyond
  show d.dcaCount + 2 = d.orders.length + 1
  rw [h.dcaCount]
  omega

theorem laddered_newDeal (now : Instant) (i : String) (price : ℚ) (t : Option GroupTrigger)
    (hprice : 0 < price) :
    Laddered cfg (newDeal cfg now i price t).side (newDeal cfg now i price t).orders :=
  .base _ rfl rfl hprice cfg.dca.baseOrderSize_pos

/-- What an operation that opens nothing makes of a structured account. -/
structure StructuredStep (s s' : PaperState) : Prop where
  structured : Structured cfg s'
  openIds : s'.openIds ⊆ s.openIds
  closedIds : s'.closedIds ⊆ s.openIds ++ s.closedIds

theorem StructuredStep.refl (s : PaperState) (h : Structured cfg s) : StructuredStep cfg s s where
  structured := h
  openIds := fun _ hi => hi
  closedIds := fun _ hi => List.mem_append_right _ hi

/-- The open deals of an operation that opens nothing. -/
theorem openDeals_op (op : EngineOp) (hopen : ∀ now i p t, op ≠ .open now i p t)
    (hprice : ∀ now p i, op = .dca now p i → 0 < p) (w : World)
    (h : ∀ d ∈ w.engine.state.openDeals.items, Laddered cfg d.side d.orders) :
    ∀ d' ∈ (op.program cfg sig w).state.engine.state.openDeals.items,
      (∃ d ∈ w.engine.state.openDeals.items, d'.id = d.id) ∧ Laddered cfg d'.side d'.orders := by
  by_cases htrack : ∃ price, op = .trackWicks price
  · obtain ⟨price, rfl⟩ := htrack
    intro d' hd'
    obtain ⟨d, hd, rfl⟩ := List.mem_map.mp hd'
    exact ⟨⟨d, hd, rfl⟩, h d hd⟩
  · intro d' hd'
    rcases continues_op cfg sig op (fun price hp => htrack ⟨price, hp⟩) w d' hd' with
      ⟨d, hd, hstep⟩ | ⟨now, price, t, _, hopened⟩
    · refine ⟨⟨d, hd, hstep.id_eq⟩, ?_⟩
      cases hstep with
      | same => exact h d' hd
      | peak now price hop => exact h d hd
      | settings s hs => exact h d hd
      | order now price hl =>
        obtain ⟨now', e, hop, he, hv⟩ := dcaFilled_op cfg sig op w d.id price hl
        have hde : e = d := Option.some.inj (he.symm.trans (KeyedDict.get?_of_mem _ d hd))
        subst hde
        exact (h e hd).dcaOrder cfg now e price (hprice now' price e.id hop) hv
    · obtain ⟨now', inp, t', hop⟩ := loggedBy_op cfg sig op w _ hopened
      exact absurd hop (hopen now' inp price t')

/-- A deal that goes into the history. -/
theorem structuredStep_closed (s s' : PaperState) (d e : PaperDeal)
    (hd : s.openDeals.get? d.id = some d) (he : ClosedFrom d e)
    (hopen : s'.openDeals = s.openDeals.pop d.id) (hclosed : s'.closedDeals = s.closedDeals ++ [e])
    (h : Structured cfg s) : StructuredStep cfg s s' := by
  obtain ⟨trigger, peak, price, reason, now, rfl⟩ := he
  have hmem := (KeyedDict.get?_mem _ _ _ hd).1
  have hids : s'.closedIds = s.closedIds ++ [d.id] := by
    rw [PaperState.closedIds, hclosed, List.map_append]
    rfl
  have hitems : s'.openDeals.items ⊆ s.openDeals.items := by
    rw [hopen]
    exact List.filter_subset_self _
  have hsub : s'.openIds ⊆ s.openIds := List.map_subset _ hitems
  refine ⟨⟨?_, ?_, fun x hx => h.openLaddered x (hitems hx), ?_⟩, hsub, ?_⟩
  · rw [hopen]
    exact (List.length_filter_le _ _).trans h.one
  · intro i hi hm
    rw [hids] at hi
    rcases List.mem_append.mp hi with hi | hi
    · exact h.disjoint i hi (hsub hm)
    · obtain rfl : i = d.id := by simpa using hi
      rw [PaperState.openIds, hopen] at hm
      exact ((mem_openIds_pop _ _ _).mp hm).2 rfl
  · intro x hx
    rw [hclosed] at hx
    rcases List.mem_append.mp hx with hx | hx
    · exact h.closedLaddered x hx
    · obtain rfl := List.mem_singleton.mp hx
      exact h.openLaddered d hmem
  · rw [hids]
    intro i hi
    rcases List.mem_append.mp hi with hi | hi
    · exact List.mem_append_right _ hi
    · obtain rfl : i = d.id := by simpa using hi
      exact List.mem_append_left _ (List.mem_map_of_mem hmem)

theorem structuredStep_op (op : EngineOp) (hopen : ∀ now i p t, op ≠ .open now i p t)
    (hprice : ∀ now p i, op = .dca now p i → 0 < p) (w : World)
    (h : Structured cfg w.engine.state) :
    StructuredStep cfg w.engine.state (op.program cfg sig w).state.engine.state := by
  cases historyStep_op cfg sig op w with
  | closed d e hd he hpop hclosed => exact structuredStep_closed cfg _ _ d e hd he hpop hclosed h
  | same hclosed =>
    have hdeals := openDeals_op cfg sig op hopen hprice w h.openLaddered
    have hsub : (op.program cfg sig w).state.engine.state.openIds ⊆ w.engine.state.openIds := by
      intro i hi
      obtain ⟨d', hd', rfl⟩ := List.mem_map.mp hi
      obtain ⟨⟨d, hd, hid⟩, _⟩ := hdeals d' hd'
      rw [hid]
      exact List.mem_map_of_mem hd
    have hlen : (op.program cfg sig w).state.engine.state.openDeals.items.length ≤ 1 := by
      have hle := (List.Nodup.subperm
        (op.program cfg sig w).state.engine.state.openDeals.nodup hsub).length_le
      rw [PaperState.openIds, List.length_map, List.length_map] at hle
      exact hle.trans h.one
    have hids : (op.program cfg sig w).state.engine.state.closedIds = w.engine.state.closedIds := by
      rw [PaperState.closedIds, hclosed]
      rfl
    refine ⟨⟨hlen, ?_, fun d hd => (hdeals d hd).2, hclosed ▸ h.closedLaddered⟩, hsub, ?_⟩
    · intro i hi hm
      exact h.disjoint i (hids ▸ hi) (hsub hm)
    · rw [hids]
      exact fun i hi => List.mem_append_right _ hi

/-- Opening a deal where none is open. -/
theorem structured_afterOpen (now : Instant) (i : String) (price : ℚ) (t : Option GroupTrigger)
    (hprice : 0 < price) (w : World) (hflat : w.engine.state.openDeals.items = [])
    (hi : i ∉ w.engine.state.closedIds) (h : Structured cfg w.engine.state) :
    Structured cfg (afterOpen cfg now i price t w).engine.state := by
  have hopen : (afterOpen cfg now i price t w).engine.state.openDeals.items =
      [newDeal cfg now i price t] := by
    have hnone : w.engine.state.openDeals.get? (newDeal cfg now i price t).id = none := by
      rw [KeyedDict.get?_eq_none_iff, hflat]
      exact List.not_mem_nil
    have hset := KeyedDict.set_items_new w.engine.state.openDeals (newDeal cfg now i price t) hnone
    rw [hflat] at hset
    exact hset
  refine ⟨?_, ?_, ?_, h.closedLaddered⟩
  · rw [hopen]
    exact le_refl 1
  · intro j hj hm
    rw [PaperState.openIds, hopen] at hm
    obtain rfl : j = i := by simpa [newDeal, PaperDeal.postInit] using hm
    exact hi hj
  · intro d hd
    rw [hopen] at hd
    obtain rfl := List.mem_singleton.mp hd
    exact laddered_newDeal cfg now i price t hprice

/-! ### A life -/

/-- The ids deals are opened under. -/
def openedIds (log : List EngineEvent) : List String :=
  log.filterMap fun
    | .opened dealId _ => some dealId
    | _ => none

/-- The ids in memory and in the file. -/
def knownIds (w : World) : List String :=
  (w.engine.state.openIds ++ w.engine.state.closedIds) ++
    ((fileState w.file).openIds ++ (fileState w.file).closedIds)

/-- The account in memory and the one in the file are structured. -/
structure Sound (w : World) : Prop where
  memory : Structured cfg w.engine.state
  file : Structured cfg (fileState w.file)

/-- What opens deals under new ids only keeps the structure. -/
def Keeps (w : World) (log : List EngineEvent) (w' : World) : Prop :=
  (openedIds log).Nodup → (∀ i ∈ openedIds log, i ∉ knownIds w) → Sound cfg w →
    Sound cfg w' ∧ knownIds w' ⊆ knownIds w ++ openedIds log

theorem openedIds_append (l l' : List EngineEvent) :
    openedIds (l ++ l') = openedIds l ++ openedIds l' := List.filterMap_append

theorem traceRel_keeps : Program.TraceRel (Keeps cfg) where
  nil w _ _ h := ⟨h, fun _ hi => List.mem_append_left _ hi⟩
  append := by
    intro s l t l' u h h' hnodup hfresh hs
    rw [openedIds_append] at hnodup hfresh ⊢
    obtain ⟨hl, hl', hdisjoint⟩ := List.nodup_append.mp hnodup
    obtain ⟨ht, hknown⟩ := h hl (fun i hi => hfresh i (List.mem_append_left _ hi)) hs
    have hfresh' : ∀ i ∈ openedIds l', i ∉ knownIds t := by
      intro i hi hm
      rcases List.mem_append.mp (hknown hm) with hm | hm
      · exact hfresh i (List.mem_append_right _ hi) hm
      · exact hdisjoint i hm i hi rfl
    obtain ⟨hu, hknown'⟩ := h' hl' hfresh' ht
    refine ⟨hu, fun i hi => ?_⟩
    rw [← List.append_assoc]
    rcases List.mem_append.mp (hknown' hi) with hi | hi
    · exact List.mem_append_left _ (hknown hi)
    · exact List.mem_append_right _ hi

theorem openedIds_op (op : EngineOp) (hopen : ∀ now i p t, op ≠ .open now i p t) (w : World) :
    openedIds (op.program cfg sig w).log = [] := by
  refine List.filterMap_eq_nil_iff.mpr fun e he => ?_
  cases e with
  | opened i price =>
    obtain ⟨now, inp, t, hop⟩ := loggedBy_op cfg sig op w _ he
    exact absurd hop (hopen now inp price t)
  | _ => rfl

/-- An operation that opens nothing. -/
theorem keeps_op (op : EngineOp) (hopen : ∀ now i p t, op ≠ .open now i p t)
    (hprice : ∀ now p i, op = .dca now p i → 0 < p) :
    Program.Respects (Keeps cfg) (op.program cfg sig) := by
  intro w _ _ h
  have hstep := structuredStep_op cfg sig op hopen hprice w h.memory
  rw [openedIds_op cfg sig op hopen w, List.append_nil]
  have hmemory : ∀ i ∈ (op.program cfg sig w).state.engine.state.openIds ++
      (op.program cfg sig w).state.engine.state.closedIds, i ∈ knownIds w := by
    intro i hi
    refine List.mem_append_left _ ?_
    rcases List.mem_append.mp hi with hi | hi
    · exact List.mem_append_left _ (hstep.openIds hi)
    · exact hstep.closedIds hi
  have hfile := fileState_op cfg sig
    (fun s => Structured cfg s ∧ ∀ i ∈ s.openIds ++ s.closedIds, i ∈ knownIds w)
    (fun s doc hlists hs => ⟨structured_fileState cfg s doc hlists hs.1, fun i hi => ?_⟩) op w
    ⟨hstep.structured, hmemory⟩ ⟨h.file, fun i hi => List.mem_append_right _ hi⟩
  · refine ⟨⟨hstep.structured, hfile.1⟩, fun i hi => ?_⟩
    rcases List.mem_append.mp hi with hi | hi
    · exact hmemory i hi
    · exact hfile.2 i hi
  · rw [fileState_openIds s doc hlists] at hi
    rcases List.mem_append.mp hi with hi | hi
    · exact hs.2 i (List.mem_append_left _ hi)
    · exact hs.2 i (List.mem_append_right _ (fileState_closedIds s doc hlists hi))

theorem keeps_openDeal (now : Instant) (inp : OpenInput) (price : ℚ) (t : Option GroupTrigger)
    (hprice : 0 < price) (w : World) (hflat : w.engine.state.openDeals.items = []) :
    Keeps cfg w (openDeal cfg now inp price t w).log (openDeal cfg now inp price t w).state := by
  rw [openDeal_run]
  cases createWithRetry inp with
  | none => exact (traceRel_keeps cfg).nil w
  | some i =>
    have hids : openedIds (openLog cfg now i price t w) = [i] := rfl
    intro _ hfresh h
    rw [hids] at hfresh ⊢
    have hi : i ∉ w.engine.state.closedIds := fun hm =>
      hfresh i (List.mem_singleton_self i)
        (List.mem_append_left _ (List.mem_append_right _ hm))
    have hopen : (afterOpen cfg now i price t w).engine.state.openIds ⊆ [i] := by
      intro j hj
      obtain ⟨d, hd, rfl⟩ := List.mem_map.mp hj
      rcases continues_open cfg now (.open now inp price t) (openLog cfg now i price t w) w i price t
        (by simp [openLog]) d hd with ⟨e, he, _⟩ | ⟨_, _, _, _, hlog⟩
      · rw [hflat] at he
        cases he
      · have hid := (by simpa [openLog] using hlog : d.id = i ∧ _).1
        exact List.mem_singleton.mpr hid
    refine ⟨⟨structured_afterOpen cfg now i price t hprice w hflat hi h.memory, h.file⟩, ?_⟩
    intro j hj
    rcases List.mem_append.mp hj with hj | hj
    · rcases List.mem_append.mp hj with hj | hj
      · exact List.mem_append_right _ (hopen hj)
      · exact List.mem_append_left _ (List.mem_append_left _ (List.mem_append_right _ hj))
    · exact List.mem_append_left _ (List.mem_append_right _ hj)

theorem keeps_tick (inp : TickInput) (hprice : ∀ t, inp.ticker = .ok t → 0 < t.tickPrice) :
    Program.Respects (Keeps cfg) (tick cfg sig inp) := by
  refine tick_respects_body cfg sig (Keeps cfg) (traceRel_keeps cfg) inp ?_ fun t ht => ?_
  · rintro op (⟨e, rfl⟩ | rfl | rfl)
    · exact keeps_op cfg sig _ (by simp) (by simp)
    · exact keeps_op cfg sig _ (by simp) (by simp)
    · exact keeps_op cfg sig _ (by simp) (by simp)
  · have hpos := hprice t ht
    refine tickAt_respects cfg sig (Keeps cfg) (traceRel_keeps cfg) inp t.tickPrice ?_ ?_ ?_
    · intro op hop
      refine keeps_op cfg sig op (hop.not_open inp _ op) ?_
      rintro now p i rfl
      cases hop with
      | monitors _ h =>
        cases h
        exact hpos
    · exact fun w hflat => keeps_openDeal cfg inp.now inp.manualOpen _ none hpos w hflat
    · exact fun w trigger hflat => keeps_openDeal cfg inp.now inp.entryOpen _ trigger hpos w hflat

theorem keeps_stop : Program.Respects (Keeps cfg) (LifeStep.stop.program cfg sig) := by
  intro w _ _ h
  obtain ⟨hopen, hclosed⟩ := markStopped_deals w.file
  refine ⟨⟨h.memory, h.file.congr cfg _ _ hopen hclosed⟩, ?_⟩
  have hknown : knownIds (LifeStep.stop.program cfg sig w).state = knownIds w := by
    simp only [LifeStep.program, Program.modify_run, knownIds, PaperState.openIds,
      PaperState.closedIds, hopen, hclosed]
  rw [hknown]
  exact List.subset_append_left _ _

theorem keeps_restart (b : ℚ) :
    Program.Respects (Keeps cfg) ((LifeStep.restart b).program cfg sig) := by
  intro w _ _ h
  obtain ⟨hopen, hclosed⟩ := bootEngine_deals b w.file
  refine ⟨⟨h.file.congr cfg _ _ hopen hclosed, h.file⟩, ?_⟩
  have hknown : knownIds ((LifeStep.restart b).program cfg sig w).state =
      ((fileState w.file).openIds ++ (fileState w.file).closedIds) ++
        ((fileState w.file).openIds ++ (fileState w.file).closedIds) := by
    simp only [LifeStep.program, Program.modify_run, knownIds, PaperState.openIds,
      PaperState.closedIds, hopen, hclosed]
  rw [hknown]
  intro i hi
  refine List.mem_append_left _ (List.mem_append_right _ ?_)
  exact (List.mem_append.mp hi).elim id id

/-- A close by the portal either refuses or moves a deal of the file to its history. -/
theorem structuredStep_offline (file : Option StateDoc) (i : String) (price : ℚ) (now : Instant)
    (action : CloseAction) (h : Structured cfg (fileState file)) :
    Structured cfg (fileState (LifeStep.offlineFile cfg file i price now action)) ∧
      (fileState (LifeStep.offlineFile cfg file i price now action)).openIds ⊆
        (fileState file).openIds ∧
      (fileState (LifeStep.offlineFile cfg file i price now action)).closedIds ⊆
        (fileState file).openIds ++ (fileState file).closedIds := by
  rcases LifeStep.offlineFile_cases cfg file i price now action with
    hfile | ⟨s, d, doc, hfile, hlists, hd, hopen, hclosed⟩
  · rw [hfile]
    exact ⟨h, fun _ hi => hi, List.subset_append_right _ _⟩
  · have hfrom : ClosedFrom d (DealCloseHandler.closedDeal d price now action) := by
      cases action with
      | close => exact ⟨.manual, d.peakPrice, price, .manual, now, rfl⟩
      | cancel => exact ⟨.cancelled, d.peakPrice, price, .cancelled, now, rfl⟩
    have hstep := structuredStep_closed cfg (fileState file) s d _ hd hfrom hopen hclosed h
    rw [hfile]
    refine ⟨structured_fileState cfg _ _ hlists hstep.structured, ?_, ?_⟩
    · rw [fileState_openIds _ _ hlists]
      exact hstep.openIds
    · exact fun j hj => hstep.closedIds (fileState_closedIds _ _ hlists hj)

theorem keeps_closeOffline (i : String) (price : ℚ) (now : Instant) (action : CloseAction) :
    Program.Respects (Keeps cfg) ((LifeStep.closeOffline i price now action).program cfg sig) := by
  intro w _ _ h
  obtain ⟨hstruct, hopen, hclosed⟩ := structuredStep_offline cfg w.file i price now action h.file
  refine ⟨⟨h.memory, hstruct⟩, fun j hj => List.mem_append_left _ ?_⟩
  rcases List.mem_append.mp hj with hj | hj
  · exact List.mem_append_left _ hj
  · refine List.mem_append_right _ ?_
    rcases List.mem_append.mp hj with hj | hj
    · exact List.mem_append_left _ (hopen hj)
    · exact hclosed hj

/-- One step of a life. -/
theorem keeps_step (l : LifeStep) (hprice : l.PricePos) :
    Program.Respects (Keeps cfg) (l.program cfg sig) := by
  cases l with
  | tick inp => exact keeps_tick cfg sig inp hprice
  | stop => exact keeps_stop cfg sig
  | restart b => exact keeps_restart cfg sig b
  | closeOffline i price now action => exact keeps_closeOffline cfg sig i price now action

/-! ### The ids a tick opens deals under -/

/-- Every run of the program opens deals under some of the ids, in their order. -/
def OpensWithin {α : Type} (ids : List String) (m : EngineM α) : Prop :=
  ∀ w, (openedIds (m w).log).Sublist ids

theorem opensWithin_bind {α β : Type} (ids ids' : List String) (m : EngineM α)
    (f : α → EngineM β) (h : OpensWithin ids m) (hf : ∀ a, OpensWithin ids' (f a)) :
    OpensWithin (ids ++ ids') (m >>= f) := by
  intro w
  cases hr : (m w).result with
  | error e =>
    rw [Program.bind_error m f w e hr]
    exact (h w).trans (List.sublist_append_left _ _)
  | ok a =>
    rw [Program.bind_ok m f w a hr, openedIds_append]
    exact (h w).append (hf a (m w).state)

theorem opensWithin_openDeal (now : Instant) (inp : OpenInput) (price : ℚ)
    (t : Option GroupTrigger) : OpensWithin inp.ids (openDeal cfg now inp price t) := by
  intro w
  rw [openDeal_run]
  cases hc : createWithRetry inp with
  | none => exact List.nil_sublist _
  | some i =>
    have hi : i ∈ inp.ids := by
      unfold createWithRetry at hc
      unfold OpenInput.ids
      split at hc
      · simp_all
      · cases hc
      · split at hc
        · simp_all
        · cases hc
        · split at hc
          · simp_all
          · cases hc
    exact List.singleton_sublist.mpr hi

/-- A program of operations that open nothing. -/
theorem opensWithin_nil {α : Type} (m : EngineM α)
    (h : Program.Respects (fun _ l _ => openedIds l = []) m) : OpensWithin [] m := by
  intro w
  rw [show openedIds (m w).log = [] from h w]

theorem traceRel_opensNothing :
    Program.TraceRel fun (_ : World) (l : List EngineEvent) (_ : World) => openedIds l = [] where
  nil _ := rfl
  append := by
    intro _ l _ l' _ h h'
    rw [openedIds_append, h, h', List.append_nil]

theorem opensWithin_tickAt (inp : TickInput) (price : ℚ) :
    OpensWithin (inp.manualOpen.ids ++ inp.entryOpen.ids) (tickAt cfg sig inp price) := by
  have hR := traceRel_opensNothing
  have hop : ∀ op, EngineOp.Manages inp price op →
      Program.Respects (fun _ l _ => openedIds l = []) (op.program cfg sig) :=
    fun op h w => openedIds_op cfg sig op (h.not_open inp price op) w
  have hmonitor : Program.Respects (fun _ l _ => openedIds l = [])
      (monitorOpenDeals cfg sig inp.candles inp.now price) := by
    refine Program.respects_bind hR _ _ (hop _ .trackWicks) fun _ => ?_
    refine Program.respects_bind hR _ _ (Program.respects_get hR) fun w => ?_
    exact monitorDeals_respects_ops cfg sig _ hR inp price (fun op h => hop op (.monitors op h)) _ 0
  have hsentinels : Program.Respects (fun _ l _ => openedIds l = [])
      (checkDealSentinels cfg inp.now inp price) :=
    Program.respects_forEach hR _ _ fun s _ => hop _ (.sentinel s)
  have hmanual : OpensWithin inp.manualOpen.ids (checkManualTrigger cfg inp.now inp price) :=
    respects_checkManualTrigger (R := fun _ l _ => (openedIds l).Sublist inp.manualOpen.ids) cfg
      (fun _ => List.nil_sublist _) inp price
      fun w _ => opensWithin_openDeal cfg inp.now inp.manualOpen price none w
  have hentry : OpensWithin inp.entryOpen.ids (entryStep cfg sig inp price) :=
    respects_entryStep (R := fun _ l _ => (openedIds l).Sublist inp.entryOpen.ids) cfg sig
      (fun _ => List.nil_sublist _) inp price
      fun w t _ _ _ => opensWithin_openDeal cfg inp.now inp.entryOpen price t w
  refine opensWithin_bind [] _ _ _ (opensWithin_nil _ (hop _ .setPrice)) fun _ => ?_
  refine opensWithin_bind [] _ _ _ (opensWithin_nil _ hmonitor) fun _ => ?_
  refine opensWithin_bind [] _ _ _ (opensWithin_nil _ (hop _ .drawdown)) fun _ => ?_
  refine opensWithin_bind _ _ _ _ hmanual fun _ => ?_
  refine opensWithin_bind [] _ _ _ (opensWithin_nil _ hsentinels) fun _ => ?_
  have hwrite := opensWithin_bind _ [] _ _ hentry fun _ => opensWithin_nil _ (hop _ .write)
  rw [List.append_nil] at hwrite
  exact hwrite

/-- A step opens deals under ids it has drawn. -/
theorem opensWithin_step (l : LifeStep) : OpensWithin l.ids (l.program cfg sig) := by
  cases l with
  | stop => exact fun _ => List.nil_sublist _
  | restart b => exact fun _ => List.nil_sublist _
  | closeOffline i price now action => exact fun _ => List.nil_sublist _
  | tick inp =>
    intro w
    show (openedIds (tick cfg sig inp w).log).Sublist (inp.manualOpen.ids ++ inp.entryOpen.ids)
    cases ht : inp.ticker with
    | error e =>
      rw [(tick_run_error cfg sig inp e ht w).1]
      exact List.nil_sublist _
    | ok t =>
      have hbody := opensWithin_tickAt cfg sig inp t.tickPrice (hooked inp w)
      rw [tickAt_run] at hbody
      rw [(tick_run_ok cfg sig inp t ht w).1, openedIds_append]
      cases (bodyAt cfg sig inp t.tickPrice w).result with
      | ok _ =>
        show ((openedIds (bodyAt cfg sig inp t.tickPrice w).log) ++ []).Sublist _
        rw [List.append_nil]
        exact hbody
      | error e =>
        show ((openedIds (bodyAt cfg sig inp t.tickPrice w).log) ++ []).Sublist _
        rw [List.append_nil]
        exact hbody

theorem openedIds_runAll (ls : List LifeStep) (w : World) :
    (openedIds (Program.runAll (LifeStep.program cfg sig) ls w).1).Sublist
      (ls.flatMap LifeStep.ids) := by
  induction ls generalizing w with
  | nil => exact List.nil_sublist _
  | cons l ls ih =>
    rw [Program.runAll, openedIds_append, List.flatMap_cons]
    exact (opensWithin_step cfg sig l w).append (ih _)

/-! ### The rungs of a tick -/

/-- The rungs a log fills. -/
def rungs (log : List EngineEvent) : ℕ :=
  log.countP fun
    | .dcaFilled _ _ => true
    | _ => false

theorem rungs_append (l l' : List EngineEvent) : rungs (l ++ l') = rungs l + rungs l' :=
  List.countP_append

theorem rungs_eq_zero (l : List EngineEvent) (h : ∀ i price, .dcaFilled i price ∉ l) :
    rungs l = 0 := by
  refine List.countP_eq_zero.mpr fun e he => ?_
  cases e with
  | dcaFilled i price => exact absurd he (h i price)
  | _ => simp

theorem rungs_op (op : EngineOp) (hop : ∀ now price i, op ≠ .dca now price i) (w : World) :
    rungs (op.program cfg sig w).log = 0 := by
  refine rungs_eq_zero _ fun i price h => ?_
  obtain ⟨now, hdca⟩ := loggedBy_op cfg sig op w _ h
  exact hop now price i hdca

/-- The count of the monitoring loop is the number of rungs it has filled. -/
def Counted (n : ℕ) (o : Program.Outcome PyError EngineEvent World ℕ) : Prop :=
  match o.result with
  | .ok m => m = n + rungs o.log ∧ (n ≤ maxDcaPerTick → m ≤ maxDcaPerTick)
  | .error _ => rungs o.log = 0

theorem counted_bind {α : Type} (n : ℕ) (m : EngineM α) (f : α → EngineM ℕ) (w : World)
    (hm : rungs (m w).log = 0) (hf : ∀ a v, Counted n (f a v)) : Counted n ((m >>= f) w) := by
  cases hr : (m w).result with
  | error e =>
    rw [Program.bind_error m f w e hr]
    exact hm
  | ok a =>
    have h := hf a (m w).state
    rw [Program.bind_ok m f w a hr]
    unfold Counted at h ⊢
    rw [rungs_append, hm, Nat.zero_add]
    exact h

/-- The DCA of one round of the monitoring loop. -/
theorem counted_dca (now : Instant) (price : ℚ) (n : ℕ) (i : String) (w : World) :
    Counted n ((whileOpen i n fun d =>
      if maxDcaPerTick ≤ n then pure n
      else do
        let placed ← checkDca cfg now d price
        pure (if placed then n + 1 else n)) w) := by
  rw [whileOpen_run]
  cases w.deal? i with
  | none => exact ⟨rfl, id⟩
  | some d =>
    by_cases hn : maxDcaPerTick ≤ n
    · simp only [if_pos hn]
      exact ⟨rfl, id⟩
    · simp only [if_neg hn, Program.bind_run, checkDca_run]
      cases dcaVerdict cfg d price with
      | error e => exact rfl
      | ok b =>
        cases b with
        | false => exact ⟨rfl, id⟩
        | true =>
          refine ⟨rfl, fun _ => ?_⟩
          show n + 1 ≤ maxDcaPerTick
          omega

theorem counted_monitorDeal (inp : TickInput) (price : ℚ) (n : ℕ) (i : String) (w : World) :
    Counted n (monitorDeal cfg sig inp.candles inp.now price n i w) := by
  rw [monitorDeal_eq]
  refine counted_bind n _ _ w (rungs_op cfg sig _ (by simp) w) fun _ v => ?_
  have hsl := rungs_op cfg sig (.stopLoss inp.now price i) (by simp) v
  exact counted_bind n _ _ v hsl fun _ u => counted_dca cfg inp.now price n i u

theorem rungs_monitorDeals (inp : TickInput) (price : ℚ) (ids : List String) (n : ℕ)
    (hn : n ≤ maxDcaPerTick) (w : World) :
    n + rungs (monitorDeals cfg sig inp.candles inp.now price n ids w).log ≤ maxDcaPerTick := by
  induction ids generalizing n w with
  | nil => exact hn
  | cons i ids ih =>
    have hcount := counted_monitorDeal cfg sig inp price n i w
    unfold Counted at hcount
    rw [monitorDeals]
    cases hr : (monitorDeal cfg sig inp.candles inp.now price n i w).result with
    | error e =>
      rw [hr] at hcount
      rw [Program.bind_error _ _ _ e hr, hcount]
      exact hn
    | ok m =>
      rw [hr] at hcount
      obtain ⟨hm, hle⟩ := hcount
      have hrest := ih m (hle hn) (monitorDeal cfg sig inp.candles inp.now price n i w).state
      rw [Program.bind_ok _ _ _ m hr, rungs_append]
      omega

/-- A tick fills at most the configured number of rungs. -/
theorem rungs_tick (inp : TickInput) (w : World) :
    rungs (tick cfg sig inp w).log ≤ maxDcaPerTick := by
  cases ht : inp.ticker with
  | error e =>
    rw [(tick_run_error cfg sig inp e ht w).1]
    exact Nat.zero_le _
  | ok t =>
    have hbody : rungs (bodyAt cfg sig inp t.tickPrice w).log ≤ maxDcaPerTick := by
      rw [bodyAt, afterTracking_run]
      have hmonitor := rungs_monitorDeals cfg sig inp t.tickPrice
        ((tracked t.tickPrice (hooked inp w)).engine.state.openDeals.items.map PaperDeal.id) 0
        (Nat.zero_le _) (tracked t.tickPrice (hooked inp w))
      have hafter : ∀ v, rungs (afterMonitoring cfg sig inp t.tickPrice v).log = 0 := by
        intro v
        refine rungs_eq_zero _ fun i price h => ?_
        have hquiet := afterMonitoring_noManagement cfg sig inp t.tickPrice v _ h
        cases hquiet
      cases hr : (monitorDeals cfg sig inp.candles inp.now t.tickPrice 0
          ((tracked t.tickPrice (hooked inp w)).engine.state.openDeals.items.map PaperDeal.id)
          (tracked t.tickPrice (hooked inp w))).result with
      | error e =>
        rw [Program.bind_error _ _ _ e hr]
        simpa using hmonitor
      | ok u =>
        rw [Program.bind_ok _ _ _ u hr, rungs_append, hafter]
        simpa using hmonitor
    rw [(tick_run_ok cfg sig inp t ht w).1, rungs_append]
    cases (bodyAt cfg sig inp t.tickPrice w).result with
    | ok _ => exact hbody
    | error e => exact hbody

/-! ### Every life -/

/-- What holds of an engine after any life at positive prices whose ids are new. -/
structure EngineStructure (w : World) : Prop where
  one : w.engine.state.openDeals.items.length ≤ 1
  disjoint : ∀ i ∈ w.engine.state.closedIds, i ∉ w.engine.state.openIds
  wellBuilt : ∀ d ∈ w.engine.state.openDeals.items ++ w.engine.state.closedDeals, WellBuilt cfg d
  dcaPerTick : ∀ inp, rungs (tick cfg sig inp w).log ≤ maxDcaPerTick

theorem engineStructure_life (initialBalanceBtc : ℚ) (ls : List LifeStep)
    (hprice : ∀ l ∈ ls, l.PricePos) (hids : (ls.flatMap LifeStep.ids).Nodup) :
    EngineStructure cfg sig
      (Program.runAll (LifeStep.program cfg sig) ls (freshWorld initialBalanceBtc)).2 := by
  have hkeeps := Program.runsAs_rel (LifeStep.program cfg sig) LifeStep.PricePos (Keeps cfg)
    (traceRel_keeps cfg) (keeps_step cfg sig) (freshWorld initialBalanceBtc) _ _ ⟨ls, hprice, rfl⟩
  have hfresh : Sound cfg (freshWorld initialBalanceBtc) :=
    ⟨structured_init cfg initialBalanceBtc, structured_init cfg 0⟩
  have hnodup := hids.sublist (openedIds_runAll cfg sig ls (freshWorld initialBalanceBtc))
  have hnew : ∀ i ∈ openedIds
      (Program.runAll (LifeStep.program cfg sig) ls (freshWorld initialBalanceBtc)).1,
      i ∉ knownIds (freshWorld initialBalanceBtc) := fun i _ hi => by cases hi
  have h := (hkeeps hnodup hnew hfresh).1.memory
  refine ⟨h.one, h.disjoint, fun d hd => ?_, fun inp => rungs_tick cfg sig inp _⟩
  rcases List.mem_append.mp hd with hd | hd
  · exact (h.openLaddered d hd).wellBuilt cfg d
  · exact (h.closedLaddered d hd).wellBuilt cfg d

/-- A deal is opened at 100 and averaged down at 90, the bot is restarted, the deal
is averaged down again at 80. -/
def fallingLife : List LifeStep :=
  [.tickAt 0 100, .tickAt 1 90, .stop, .restart 1, .tickAt 2 80]

/-- A bot with an immediate entry, no stop loss and no wick simulation. -/
def fallingBot : BotConfig :=
  { BotConfig.small "falling" with stopLoss := .off, useWickSimulation := false }

theorem engineStructure_fallingLife :
    EngineStructure fallingBot .silent
      (Program.runAll (LifeStep.program fallingBot .silent) fallingLife (freshWorld 1)).2 := by
  refine engineStructure_life fallingBot .silent 1 fallingLife ?_ (by decide +kernel)
  intro l hl
  simp only [fallingLife, List.mem_cons, List.not_mem_nil, or_false] at hl
  rcases hl with rfl | rfl | rfl | rfl | rfl
  · exact LifeStep.pricePos_tickAt 0 100 (by norm_num)
  · exact LifeStep.pricePos_tickAt 1 90 (by norm_num)
  · trivial
  · trivial
  · exact LifeStep.pricePos_tickAt 2 80 (by norm_num)

example : ((Program.runAll (LifeStep.program fallingBot .silent) fallingLife
    (freshWorld 1)).2.engine.state.openDeals.items.map fun d => d.orders.length) = [3] := by
  decide +kernel

end Ladder

end Reverto
