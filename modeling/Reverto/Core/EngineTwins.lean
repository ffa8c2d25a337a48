import Mathlib.Tactic
import Reverto.Core.EngineSteps
import Reverto.Live.LiveEngine

/-!
# Two engines side by side (core/trading_engine.py)

Engines whose open deals differ in the shown PnL only and whose balances are close
decide alike: the same tick makes the same trades in both.
-/

namespace Reverto

/-- A deal without the PnL it shows, which no decision reads. -/
def PaperDeal.unshown (d : PaperDeal) : PaperDeal := { d with pnlBtc := 0, pnlPct := 0 }

theorem PaperDeal.unshown_id (d : PaperDeal) : d.unshown.id = d.id := rfl

/-- Open deals without the PnL they show. -/
def OpenDeals.unshown (deals : OpenDeals) : OpenDeals :=
  deals.mapValues PaperDeal.unshown PaperDeal.unshown_id

/-- The events of a trade: an opening, a DCA fill or a close. -/
def EngineEvent.isTrade : EngineEvent → Bool
  | .opened .. | .dcaFilled .. | .tpClosed .. | .slClosed .. | .handlerClosed .. => true
  | _ => false

/-- Two engines that decide alike, their balances at most `δ` apart. -/
structure Alike (δ : ℚ) (w v : World) : Prop where
  deals : OpenDeals.unshown w.engine.state.openDeals = OpenDeals.unshown v.engine.state.openDeals
  balance : |w.engine.state.balanceBtc - v.engine.state.balanceBtc| ≤ δ
  paused : w.engine.pausedByDrawdown = v.engine.pausedByDrawdown
  running : w.engine.running = v.engine.running

namespace Alike

variable {δ : ℚ} {w v : World}

/-- The deal under an id, in both engines or in neither. -/
theorem deal? (h : Alike δ w v) (i : String) :
    (w.deal? i).map PaperDeal.unshown = (v.deal? i).map PaperDeal.unshown := by
  have hw := KeyedDict.get?_mapValues w.engine.state.openDeals PaperDeal.unshown PaperDeal.unshown_id i
  have hv := KeyedDict.get?_mapValues v.engine.state.openDeals PaperDeal.unshown PaperDeal.unshown_id i
  rw [World.deal?, World.deal?, ← hw, ← hv]
  exact congrArg (fun deals : OpenDeals => deals.get? i) h.deals

theorem ids (h : Alike δ w v) :
    w.engine.state.openDeals.items.map PaperDeal.id =
      v.engine.state.openDeals.items.map PaperDeal.id := by
  have hkeys : ∀ deals : OpenDeals,
      deals.items.map PaperDeal.id = (OpenDeals.unshown deals).items.map PaperDeal.id :=
    fun deals => (KeyedDict.map_key_map PaperDeal.unshown PaperDeal.unshown_id deals.items).symm
  rw [hkeys, h.deals, ← hkeys]

theorem noDeal_iff (h : Alike δ w v) :
    w.engine.state.openDeals.items = [] ↔ v.engine.state.openDeals.items = [] := by
  have hids := h.ids
  constructor
  · intro hw
    rw [hw] at hids
    exact List.map_eq_nil_iff.mp hids.symm
  · intro hv
    rw [hv] at hids
    exact List.map_eq_nil_iff.mp hids

/-- The same update of an open deal in both. -/
theorem onDeal (h : Alike δ w v) (i : String) (f : PaperDeal → PaperDeal) (hf : ∀ d, (f d).id = d.id)
    (hcomm : ∀ d, (f d).unshown = f d.unshown) :
    Alike δ (World.onDeal i f hf w) (World.onDeal i f hf v) := by
  refine ⟨?_, h.balance, h.paused, h.running⟩
  have hmod := fun deals : OpenDeals =>
    KeyedDict.mapValues_modify deals PaperDeal.unshown f PaperDeal.unshown_id hf hcomm i
  calc OpenDeals.unshown (w.engine.state.openDeals.modify i f hf)
      = (OpenDeals.unshown w.engine.state.openDeals).modify i f hf := hmod _
    _ = (OpenDeals.unshown v.engine.state.openDeals).modify i f hf := by rw [h.deals]
    _ = OpenDeals.unshown (v.engine.state.openDeals.modify i f hf) := (hmod _).symm

/-- The same deal leaves both, and its PnL and a fee go to both balances. -/
theorem settle (h : Alike δ w v) (i : String) (gain : ℚ) (closed closed' : List PaperDeal) :
    Alike δ
      (World.onState (fun s => ⟨s.balanceBtc + gain, s.initialBalanceBtc, s.openDeals.pop i, closed⟩) w)
      (World.onState (fun s => ⟨s.balanceBtc + gain, s.initialBalanceBtc, s.openDeals.pop i, closed'⟩) v) := by
  refine ⟨?_, ?_, h.paused, h.running⟩
  · have hpop := fun deals : OpenDeals =>
      KeyedDict.mapValues_pop deals PaperDeal.unshown PaperDeal.unshown_id i
    calc OpenDeals.unshown (w.engine.state.openDeals.pop i)
        = (OpenDeals.unshown w.engine.state.openDeals).pop i := hpop _
      _ = (OpenDeals.unshown v.engine.state.openDeals).pop i := by rw [h.deals]
      _ = OpenDeals.unshown (v.engine.state.openDeals.pop i) := (hpop _).symm
  · show |w.engine.state.balanceBtc + gain - (v.engine.state.balanceBtc + gain)| ≤ δ
    rw [add_sub_add_right_eq_sub]
    exact h.balance

end Alike

namespace TradingEngine

variable (cfg : BotConfig) (sig : Signals) (c : Candles) (now : Instant)

/-! ### What a deal decides it decides without its PnL -/

section Unshown

variable (d e : PaperDeal) (h : d.unshown = e.unshown) (price : ℚ)
include h

theorem unshown_id_eq : d.id = e.id := by
  show d.unshown.id = e.unshown.id
  rw [h]

theorem unshown_totalSize : d.totalSize = e.totalSize := by
  show d.unshown.totalSize = e.unshown.totalSize
  rw [h]

theorem unshown_calculatePnl : d.calculatePnl price = e.calculatePnl price := by
  show d.unshown.calculatePnl price = e.unshown.calculatePnl price
  rw [h]

theorem unshown_tpVerdict : tpVerdict cfg sig c d price = tpVerdict cfg sig c e price := by
  show tpVerdict cfg sig c d.unshown price = tpVerdict cfg sig c e.unshown price
  rw [h]

theorem unshown_slSettings : slSettings cfg d = slSettings cfg e := by
  show slSettings cfg d.unshown = slSettings cfg e.unshown
  rw [h]

theorem unshown_slVerdict (s : SlType × ℚ) :
    slVerdict cfg d price s = slVerdict cfg e price s := by
  show slVerdict cfg d.unshown price s = slVerdict cfg e.unshown price s
  rw [h]

theorem unshown_newPeak : newPeak cfg d price = newPeak cfg e price := by
  show newPeak cfg d.unshown price = newPeak cfg e.unshown price
  rw [h]

theorem unshown_dcaVerdict : dcaVerdict cfg d price = dcaVerdict cfg e price := by
  show dcaVerdict cfg d.unshown price = dcaVerdict cfg e.unshown price
  rw [h]

theorem unshown_dcaOrder : dcaOrder cfg now d price = dcaOrder cfg now e price := by
  show dcaOrder cfg now d.unshown price = dcaOrder cfg now e.unshown price
  rw [h]

theorem unshown_dcaSize : dcaSize cfg d = dcaSize cfg e := by
  show dcaSize cfg d.unshown = dcaSize cfg e.unshown
  rw [h]

end Unshown

/-! ### Fees and closes -/

section Pairs

variable {δ : ℚ} {w v : World}

/-- Both balances pay a fee that both cover, or both equal balances meet it. -/
theorem alike_charged (h : Alike δ w v) (fee : ℚ)
    (hfee : δ = 0 ∨ feeCovered w fee = true ∧ feeCovered v fee = true) :
    Alike δ (charged fee w) (charged fee v) := by
  refine ⟨h.deals, ?_, h.paused, h.running⟩
  show |(if feeCovered w fee then w.engine.state.balanceBtc - fee else w.engine.state.balanceBtc) -
    (if feeCovered v fee then v.engine.state.balanceBtc - fee else v.engine.state.balanceBtc)| ≤ δ
  rcases hfee with rfl | ⟨hw, hv⟩
  · have heq : w.engine.state.balanceBtc = v.engine.state.balanceBtc :=
      sub_eq_zero.mp (abs_nonpos_iff.mp h.balance)
    rw [feeCovered, feeCovered, heq, sub_self, abs_zero]
  · rw [if_pos hw, if_pos hv, sub_sub_sub_cancel_right]
    exact h.balance

theorem booked_none (d : PaperDeal) (f : ℚ) (r : CloseReason) (t : ExitTrigger) (w : World)
    (h : w.deal? d.id = none) : booked now d f r t w = w := by
  have hopen : w.engine.state.openDeals.get? d.id = none := h
  have hmod : w.engine.state.openDeals.modify d.id (fun e => { e with exitTrigger := some t })
      (fun _ => rfl) = w.engine.state.openDeals := by
    refine KeyedDict.modify_eq_self _ _ _ _ fun a ha => ?_
    rw [hopen] at ha
    cases ha
  have hset : World.setExitTrigger d.id t w = w := by
    show World.onState (fun s => s.updateDeal d.id _ _) w = w
    simp only [World.onState, PaperState.updateDeal]
    rw [hmod]
  rw [booked, hset]
  simp only [World.onState]
  rw [PaperState.closeDeal_none _ _ _ _ _ hopen]

theorem alike_booked (h : Alike δ w v) (d e : PaperDeal) (hid : d.id = e.id) (f : ℚ)
    (r : CloseReason) (t : ExitTrigger) : Alike δ (booked now d f r t w) (booked now e f r t v) := by
  have hdeal := h.deal? d.id
  cases hw : w.deal? d.id with
  | none =>
    rw [hw] at hdeal
    have hv : v.deal? e.id = none := by
      rw [← hid]
      exact Option.map_eq_none_iff.mp hdeal.symm
    rw [booked_none now d f r t w hw, booked_none now e f r t v hv]
    exact h
  | some x =>
    rw [hw] at hdeal
    obtain ⟨y, hv, hy⟩ := Option.map_eq_some_iff.mp hdeal.symm
    rw [booked_eq now d x f r t w hw, booked_eq now e y f r t v (by rw [← hid]; exact hv),
      ← unshown_calculatePnl y x hy f, ← hid]
    exact h.settle d.id _ _ _

end Pairs

/-! ### The methods of a tick -/

section Methods

variable {Q : EngineEvent → Prop} {δ : ℚ} (hQ : δ = 0 ∨ ∀ fee, ¬ Q (.fee fee false)) {w v : World}

/-- Two programs that trade alike from two engines. -/
abbrev Twins (Q : EngineEvent → Prop) (δ : ℚ) (w v : World) {α : Type} (m m' : EngineM α) : Prop :=
  Program.TwinsAt Q EngineEvent.isTrade (Alike δ) w v m m'

theorem twins_whileOpen {α : Type} (h : Alike δ w v) (i : String) (z : α)
    (f f' : PaperDeal → EngineM α)
    (hf : ∀ d e, w.deal? i = some d → v.deal? i = some e → d.unshown = e.unshown →
      Twins Q δ w v (f d) (f' e)) : Twins Q δ w v (whileOpen i z f) (whileOpen i z f') := by
  refine Program.twinsAt_get_bind Q _ _ w v _ _ ?_
  have hdeal := h.deal? i
  cases hw : w.deal? i with
  | none =>
    rw [hw] at hdeal
    have hv : v.deal? i = none := Option.map_eq_none_iff.mp hdeal.symm
    rw [hv]
    exact Program.twinsAt_pure Q _ _ w v h z
  | some d =>
    rw [hw] at hdeal
    obtain ⟨e, hv, he⟩ := Option.map_eq_some_iff.mp hdeal.symm
    rw [hv]
    exact hf d e hw hv he.symm

include hQ

theorem covered_of (fee : ℚ) (hw : Q (.fee fee (feeCovered w fee)))
    (hv : Q (.fee fee (feeCovered v fee))) :
    δ = 0 ∨ feeCovered w fee = true ∧ feeCovered v fee = true := by
  rcases hQ with hzero | hrefused
  · exact Or.inl hzero
  · refine Or.inr ⟨?_, ?_⟩
    · cases hc : feeCovered w fee with
      | true => rfl
      | false => exact absurd (hc ▸ hw) (hrefused fee)
    · cases hc : feeCovered v fee with
      | true => rfl
      | false => exact absurd (hc ▸ hv) (hrefused fee)

theorem alike_afterClose (h : Alike δ w v) (d e : PaperDeal) (hde : d.unshown = e.unshown) (f : ℚ)
    (r : CloseReason) (t : ExitTrigger) (hw : ∀ x ∈ closeLog cfg now d f r t w, Q x)
    (hv : ∀ x ∈ closeLog cfg now e f r t v, Q x) :
    Alike δ (afterClose cfg now d f r t w) (afterClose cfg now e f r t v) := by
  have hid := unshown_id_eq d e hde
  have hsize := unshown_totalSize d e hde
  have hbooked := alike_booked now h d e hid f r t
  rw [afterClose, afterClose, ← hsize]
  refine alike_charged hbooked _ (covered_of hQ _ (hw _ (List.mem_cons_self ..)) ?_)
  have hfee := hv _ (List.mem_cons_self ..)
  rw [← hsize] at hfee
  exact hfee

theorem twins_checkTp (h : Alike δ w v) (d e : PaperDeal) (hde : d.unshown = e.unshown)
    (price : ℚ) : Twins Q δ w v (checkTp cfg sig c now d price) (checkTp cfg sig c now e price) := by
  intro hw hv
  have hid := unshown_id_eq d e hde
  rw [checkTp_run] at hw hv ⊢
  rw [checkTp_run]
  rw [← unshown_tpVerdict cfg sig c d e hde] at hv ⊢
  cases hverdict : tpVerdict cfg sig c d price with
  | error x => exact ⟨rfl, rfl, h⟩
  | ok verdict =>
    rw [hverdict] at hw hv
    cases verdict with
    | idle => exact ⟨rfl, rfl, h⟩
    | held => exact ⟨rfl, rfl, h⟩
    | priceFill f =>
      have hclose := alike_afterClose cfg now hQ h d e hde f .tp .priceTp
        (fun x hx => hw x (List.mem_append_left _ hx)) (fun x hx => hv x (List.mem_append_left _ hx))
      exact ⟨rfl, by rw [← hid]; rfl, hclose⟩
    | indicatorFill info =>
      have hclose := alike_afterClose cfg now hQ h d e hde price .tp
        (.indicatorTp info.groupName info.indicators)
        (fun x hx => hw x (List.mem_append_left _ hx)) (fun x hx => hv x (List.mem_append_left _ hx))
      exact ⟨rfl, by rw [← hid]; rfl, hclose⟩

theorem twins_checkSl (h : Alike δ w v) (d e : PaperDeal) (hde : d.unshown = e.unshown)
    (price : ℚ) : Twins Q δ w v (checkSl cfg now d price) (checkSl cfg now e price) := by
  intro hw hv
  have hid := unshown_id_eq d e hde
  rw [checkSl_run] at hw hv ⊢
  rw [checkSl_run]
  rw [← unshown_slSettings cfg d e hde] at hv ⊢
  cases hset : slSettings cfg d with
  | none => exact ⟨rfl, rfl, h⟩
  | some s =>
    rw [hset] at hw hv
    dsimp only at hw hv ⊢
    rw [← unshown_slVerdict cfg d e hde] at hv ⊢
    have hpeak : Alike δ (peaked cfg d price s.1 w) (peaked cfg e price s.1 v) := by
      unfold peaked
      split
      · rw [← hid, ← unshown_newPeak cfg d e hde]
        exact h.onDeal d.id _ _ fun _ => rfl
      · exact h
    cases hverdict : slVerdict cfg d price s with
    | error x => exact ⟨rfl, rfl, hpeak⟩
    | ok hit =>
      rw [hverdict] at hw hv
      cases hit with
      | false => exact ⟨rfl, rfl, hpeak⟩
      | true =>
        have hclose := alike_afterClose cfg now hQ hpeak d e hde price .sl (slTrigger s.1)
          (fun x hx => hw x (List.mem_append_left _ hx)) (fun x hx => hv x (List.mem_append_left _ hx))
        exact ⟨rfl, by rw [← hid]; rfl, hclose⟩

theorem twins_checkDca (h : Alike δ w v) (d e : PaperDeal) (hde : d.unshown = e.unshown)
    (price : ℚ) : Twins Q δ w v (checkDca cfg now d price) (checkDca cfg now e price) := by
  intro hw hv
  have hid := unshown_id_eq d e hde
  rw [checkDca_run] at hw hv ⊢
  rw [checkDca_run]
  rw [← unshown_dcaVerdict cfg d e hde] at hv ⊢
  cases hverdict : dcaVerdict cfg d price with
  | error x => exact ⟨rfl, rfl, h⟩
  | ok triggered =>
    rw [hverdict] at hw hv
    cases triggered with
    | false => exact ⟨rfl, rfl, h⟩
    | true =>
      have horder := unshown_dcaOrder cfg now d e hde price
      have hsize := unshown_dcaSize cfg d e hde
      have hadd : Alike δ (World.addOrder d.id (dcaOrder cfg now d price) w)
          (World.addOrder e.id (dcaOrder cfg now e price) v) := by
        rw [← hid, ← horder]
        exact h.onDeal d.id _ _ fun _ => rfl
      have hfee := hv _ (List.mem_cons_self ..)
      rw [← hsize] at hfee
      have hcharged := alike_charged hadd (calcFee cfg (dcaSize cfg d))
        (covered_of hQ _ (hw _ (List.mem_cons_self ..)) hfee)
      refine ⟨rfl, by simp [dcaLog, EngineEvent.isTrade, hid], ?_⟩
      show Alike δ (afterDca cfg now d price w) (afterDca cfg now e price v)
      rw [afterDca, afterDca, ← hsize]
      exact hcharged

theorem twins_openDeal (h : Alike δ w v) (inp : OpenInput) (price : ℚ)
    (trigger : Option GroupTrigger) :
    Twins Q δ w v (openDeal cfg now inp price trigger) (openDeal cfg now inp price trigger) := by
  intro hw hv
  rw [openDeal_run] at hw hv ⊢
  rw [openDeal_run]
  cases hid : createWithRetry inp with
  | none => exact ⟨rfl, rfl, h⟩
  | some dealId =>
    rw [hid] at hw hv
    have hset : Alike δ
        (World.onState (fun s => s.openDeal (newDeal cfg now dealId price trigger)) w)
        (World.onState (fun s => s.openDeal (newDeal cfg now dealId price trigger)) v) := by
      refine ⟨?_, h.balance, h.paused, h.running⟩
      have hmap := fun deals : OpenDeals => KeyedDict.mapValues_set deals PaperDeal.unshown
        PaperDeal.unshown_id (newDeal cfg now dealId price trigger)
      calc OpenDeals.unshown (w.engine.state.openDeals.set (newDeal cfg now dealId price trigger))
          = (OpenDeals.unshown w.engine.state.openDeals).set
              (newDeal cfg now dealId price trigger).unshown := hmap _
        _ = (OpenDeals.unshown v.engine.state.openDeals).set
              (newDeal cfg now dealId price trigger).unshown := by rw [h.deals]
        _ = OpenDeals.unshown
              (v.engine.state.openDeals.set (newDeal cfg now dealId price trigger)) := (hmap _).symm
    have hfeew := hw (.fee (calcFee cfg cfg.dca.baseOrderSize)
      (feeCovered w (calcFee cfg cfg.dca.baseOrderSize))) (by simp [openLog])
    have hfeev := hv (.fee (calcFee cfg cfg.dca.baseOrderSize)
      (feeCovered v (calcFee cfg cfg.dca.baseOrderSize))) (by simp [openLog])
    exact ⟨rfl, rfl, alike_charged hset _ (covered_of hQ _ hfeew hfeev)⟩

omit hQ in
theorem alike_afterHandler (h : Alike δ w v) (d e : PaperDeal) (hd : w.deal? d.id = some d)
    (he : v.deal? e.id = some e) (hde : d.unshown = e.unshown) (price : ℚ) (action : CloseAction) :
    Alike δ (afterHandler cfg now d price action w) (afterHandler cfg now e price action v) := by
  have hid := unshown_id_eq d e hde
  have hsettle := fun gain => h.settle d.id gain [] []
  have hpnl := unshown_calculatePnl d e hde price
  have hsize := unshown_totalSize d e hde
  have hw := DealCloseHandler.actState_eq cfg.dca.takerFee w.engine.state d price now action hd
  have hv := DealCloseHandler.actState_eq cfg.dca.takerFee v.engine.state e price now action he
  refine ⟨?_, ?_, h.paused, h.running⟩
  · simp only [afterHandler, hw, hv, ← hid]
    exact (hsettle 0).deals
  · have hassoc : ∀ balance fee : ℚ, balance + (d.calculatePnl price).1 - fee =
        balance + ((d.calculatePnl price).1 - fee) := fun balance fee => add_sub_assoc _ _ _
    simp only [afterHandler, hw, hv, ← hpnl, ← hsize]
    rw [hassoc, hassoc]
    exact (hsettle _).balance

omit hQ in
theorem twins_consumeSentinel (h : Alike δ w v) (price : ℚ) (s : Sentinel) :
    Twins Q δ w v (consumeSentinel cfg now price s) (consumeSentinel cfg now price s) := by
  intro _ _
  rw [consumeSentinel_run, consumeSentinel_run]
  cases s with
  | unknown i => exact ⟨rfl, rfl, h⟩
  | edit i settings =>
    have hdeal := h.deal? i
    dsimp only
    cases hw : w.deal? i with
    | none =>
      rw [hw] at hdeal
      rw [Option.map_eq_none_iff.mp hdeal.symm]
      exact ⟨rfl, rfl, h⟩
    | some d =>
      rw [hw] at hdeal
      obtain ⟨e, hv, _⟩ := Option.map_eq_some_iff.mp hdeal.symm
      rw [hv]
      exact ⟨rfl, rfl, h.onDeal i _ _ fun _ => rfl⟩
  | act i action =>
    have hdeal := h.deal? i
    dsimp only
    cases hw : w.deal? i with
    | none =>
      rw [hw] at hdeal
      rw [Option.map_eq_none_iff.mp hdeal.symm]
      exact ⟨rfl, rfl, h⟩
    | some d =>
      rw [hw] at hdeal
      obtain ⟨e, hv, he⟩ := Option.map_eq_some_iff.mp hdeal.symm
      rw [hv]
      dsimp only
      have hdid : d.id = i := (KeyedDict.get?_mem _ _ _ hw).2
      have heid : e.id = i := (KeyedDict.get?_mem _ _ _ hv).2
      split
      · exact ⟨rfl, rfl, h⟩
      · refine ⟨rfl, ?_, ?_⟩
        · simp [handlerLog, EngineEvent.isTrade, hdid, heid]
        · exact alike_afterHandler cfg now h d e (by rw [hdid]; exact hw) (by rw [heid]; exact hv)
            he.symm price action

/-! ### The phases of a tick -/

theorem twins_monitorDeal (h : Alike δ w v) (price : ℚ) (n : ℕ) (i : String) :
    Twins Q δ w v (monitorDeal cfg sig c now price n i) (monitorDeal cfg sig c now price n i) := by
  refine Program.twinsAt_bind Q _ _ w v _ _ _ _ ?_ fun _ s t hs => ?_
  · exact twins_whileOpen h i () _ _ fun d e _ _ hde => twins_checkTp cfg sig c now hQ h d e hde price
  refine Program.twinsAt_bind Q _ _ s t _ _ _ _ ?_ fun _ s' t' hs' => ?_
  · exact twins_whileOpen hs i () _ _ fun d e _ _ hde => twins_checkSl cfg now hQ hs d e hde price
  refine twins_whileOpen hs' i n _ _ fun d e _ _ hde => ?_
  split
  · exact Program.twinsAt_pure Q _ _ s' t' hs' n
  · refine Program.twinsAt_bind Q _ _ s' t' _ _ _ _ (twins_checkDca cfg now hQ hs' d e hde price) ?_
    intro placed s'' t'' hs''
    exact Program.twinsAt_pure Q _ _ s'' t'' hs'' _

theorem twins_monitorDeals (price : ℚ) (ids : List String) (n : ℕ) (w v : World)
    (h : Alike δ w v) :
    Twins Q δ w v (monitorDeals cfg sig c now price n ids) (monitorDeals cfg sig c now price n ids) := by
  induction ids generalizing n w v with
  | nil => exact Program.twinsAt_pure Q _ _ w v h ()
  | cons i ids ih =>
    refine Program.twinsAt_bind Q _ _ w v _ _ _ _ (twins_monitorDeal cfg sig c now hQ h price n i) ?_
    intro m s t hs
    exact ih m s t hs

theorem twins_fromTrigger (h : Alike δ w v) (inp : TickInput) (price : ℚ) :
    Twins Q δ w v (LiveEngine.fromTrigger cfg sig inp price)
      (LiveEngine.fromTrigger cfg sig inp price) := by
  refine Program.twinsAt_bind Q _ _ w v _ _ _ _ ?_ fun _ s t hs => ?_
  · refine Program.twinsAt_get_bind Q _ _ w v _ _ ?_
    simp only [h.noDeal_iff]
    split
    · exact twins_openDeal cfg inp.now hQ h inp.manualOpen price none
    · exact Program.twinsAt_pure Q _ _ w v h ()
  refine Program.twinsAt_bind Q _ _ s t _ _ _ _ ?_ fun _ s' t' hs' => ?_
  · exact Program.twinsAt_forEach Q _ _ _ _
      (fun x a b hab => twins_consumeSentinel cfg inp.now hab price x) inp.sentinels s t hs
  refine Program.twinsAt_bind Q _ _ s' t' _ _ _ _ ?_ fun _ s'' t'' hs'' => ?_
  · refine Program.twinsAt_get_bind Q _ _ s' t' _ _ ?_
    rw [hs'.paused]
    split
    · refine Program.twinsAt_get_bind Q _ _ s' t' _ _ ?_
      simp only [hs'.noDeal_iff]
      split
      · cases IndicatorEngine.checkEntrySignal cfg sig inp.candles with
        | mk fired trigger =>
          cases fired with
          | true => exact twins_openDeal cfg inp.now hQ hs' inp.entryOpen price trigger
          | false => exact Program.twinsAt_pure Q _ _ s' t' hs' ()
      · exact Program.twinsAt_pure Q _ _ s' t' hs' ()
    · exact Program.twinsAt_pure Q _ _ s' t' hs' ()
  exact Program.twinsAt_modify Q _ _ s'' t'' _ _ ⟨hs''.deals, hs''.balance, hs''.paused, hs''.running⟩

/-! ### The tick -/

omit hQ in
theorem alike_hooked (h : Alike δ w v) (inp : TickInput) :
    Alike δ (hooked inp w) (hooked inp v) := by
  simp only [hooked, preTickHook, Program.modify_run]
  split
  · exact ⟨h.deals, h.balance, h.paused, h.running⟩
  · exact ⟨h.deals, h.balance, rfl, h.running⟩

omit hQ in
theorem alike_tracked (h : Alike δ w v) (price : ℚ) :
    Alike δ (tracked price w) (tracked price v) := by
  refine ⟨?_, h.balance, h.paused, h.running⟩
  have hcomm := fun deals : OpenDeals => KeyedDict.mapValues_comm deals PaperDeal.unshown
    (trackWick price) PaperDeal.unshown_id (trackWick_id price) fun _ => rfl
  calc OpenDeals.unshown (w.engine.state.openDeals.mapValues (trackWick price) (trackWick_id price))
      = (OpenDeals.unshown w.engine.state.openDeals).mapValues (trackWick price)
          (trackWick_id price) := hcomm _
    _ = (OpenDeals.unshown v.engine.state.openDeals).mapValues (trackWick price)
          (trackWick_id price) := by rw [h.deals]
    _ = OpenDeals.unshown
          (v.engine.state.openDeals.mapValues (trackWick price) (trackWick_id price)) :=
        (hcomm _).symm

/-- The monitoring loop of a tick in both engines. -/
theorem loopAt_twins (h : Alike δ w v) (inp : TickInput) (price : ℚ)
    (hw : ∀ e ∈ (LiveEngine.loopAt cfg sig inp price w).log, Q e)
    (hv : ∀ e ∈ (LiveEngine.loopAt cfg sig inp price v).log, Q e) :
    (LiveEngine.loopAt cfg sig inp price w).result = (LiveEngine.loopAt cfg sig inp price v).result ∧
      (LiveEngine.loopAt cfg sig inp price w).log.filter EngineEvent.isTrade =
        (LiveEngine.loopAt cfg sig inp price v).log.filter EngineEvent.isTrade ∧
      Alike δ (LiveEngine.loopAt cfg sig inp price w).state
        (LiveEngine.loopAt cfg sig inp price v).state := by
  have htracked := alike_tracked (alike_hooked h inp) price
  have hids := htracked.ids
  unfold LiveEngine.loopAt at hw hv ⊢
  rw [← hids] at hv ⊢
  exact twins_monitorDeals cfg sig inp.candles inp.now hQ price _ 0 _ _ htracked hw hv

/-- The body of a tick in both engines, given that the guard leaves them alike. -/
theorem bodyAt_twins (h : Alike δ w v) (inp : TickInput) (price : ℚ)
    (hguard : (LiveEngine.loopAt cfg sig inp price w).result = .ok () →
      Alike δ (LiveEngine.loopAt cfg sig inp price w).state
        (LiveEngine.loopAt cfg sig inp price v).state →
      Alike δ (LiveEngine.atTrigger cfg sig inp price w) (LiveEngine.atTrigger cfg sig inp price v))
    (hw : ∀ e ∈ (bodyAt cfg sig inp price w).log, Q e)
    (hv : ∀ e ∈ (bodyAt cfg sig inp price v).log, Q e) :
    (bodyAt cfg sig inp price w).log.filter EngineEvent.isTrade =
        (bodyAt cfg sig inp price v).log.filter EngineEvent.isTrade ∧
      (bodyAt cfg sig inp price w).result = (bodyAt cfg sig inp price v).result ∧
      Alike δ (bodyAt cfg sig inp price w).state (bodyAt cfg sig inp price v).state := by
  rw [LiveEngine.bodyAt_run] at hw hv ⊢
  rw [LiveEngine.bodyAt_run]
  have hloop := loopAt_twins cfg sig hQ h inp price
  cases hrw : (LiveEngine.loopAt cfg sig inp price w).result with
  | error x =>
    cases hrv : (LiveEngine.loopAt cfg sig inp price v).result with
    | error y =>
      rw [hrw] at hw
      rw [hrv] at hv
      obtain ⟨hres, htrades, halike⟩ := hloop hw hv
      rw [hrw, hrv] at hres
      cases hres
      exact ⟨htrades, rfl, halike⟩
    | ok u =>
      rw [hrw] at hw
      rw [hrv] at hv
      obtain ⟨hres, _, _⟩ := hloop hw fun e he => hv e (List.mem_append_left _ he)
      rw [hrw, hrv] at hres
      cases hres
  | ok u =>
    rw [hrw] at hw
    cases hrv : (LiveEngine.loopAt cfg sig inp price v).result with
    | error y =>
      rw [hrv] at hv
      obtain ⟨hres, _, _⟩ := hloop (fun e he => hw e (List.mem_append_left _ he)) hv
      rw [hrw, hrv] at hres
      cases hres
    | ok u' =>
      rw [hrv] at hv
      obtain ⟨_, htrades, halike⟩ := hloop (fun e he => hw e (List.mem_append_left _ he))
        (fun e he => hv e (List.mem_append_left _ he))
      obtain ⟨hres, hrest, hlast⟩ := twins_fromTrigger cfg sig hQ (hguard hrw halike) inp price
        (fun e he => hw e (List.mem_append_right _ he)) (fun e he => hv e (List.mem_append_right _ he))
      refine ⟨?_, hres, hlast⟩
      rw [List.filter_append, List.filter_append, htrades, hrest]

end Methods

/-- The operations between the hooks leave what the hooks remember alone. -/
theorem bodyAt_hooks (inp : TickInput) (price : ℚ) (w : World) :
    (bodyAt cfg sig inp price w).state.engine.pausedByClockSkew =
        (hooked inp w).engine.pausedByClockSkew ∧
      (bodyAt cfg sig inp price w).state.engine.prevDrawdownForSkew =
        (hooked inp w).engine.prevDrawdownForSkew := by
  have hframe := Program.runsAs_rel (EngineOp.program cfg sig) (EngineOp.During inp price) _
    (Program.traceRel_frame fun w : World =>
      (w.engine.pausedByClockSkew, w.engine.prevDrawdownForSkew)) ?_ _ _ _
    (afterTracking_runs cfg sig inp price (tracked price (hooked inp w)))
  · exact Prod.mk.inj hframe
  · intro op hop v
    by_cases hdrawdown : ∃ p, op = .drawdown p
    · obtain ⟨p, rfl⟩ := hdrawdown
      show (_, _) = (_, _)
      simp only [EngineOp.program, updateDrawdownGuard, Program.modify_run, drawdownStep]
      split
      · rfl
      · split
        · rfl
        · rfl
    · obtain ⟨s, fees, p, hop'⟩ := accountOnly_op cfg sig op (fun p hp => hdrawdown ⟨p, hp⟩)
        (fun inp hp => by subst hp; cases hop) (fun hp => by subst hp; cases hop) v
      show (_, _) = (_, _)
      rw [hop']

/-- After the post-tick hook engines that were alike before and after the body are alike again. -/
theorem alike_postTick {δ : ℚ} {w v x y : World} (h : Alike δ w v) (inp : TickInput)
    (hbody : Alike δ x y)
    (hx : x.engine.pausedByClockSkew = (hooked inp w).engine.pausedByClockSkew ∧
      x.engine.prevDrawdownForSkew = (hooked inp w).engine.prevDrawdownForSkew)
    (hy : y.engine.pausedByClockSkew = (hooked inp v).engine.pausedByClockSkew ∧
      y.engine.prevDrawdownForSkew = (hooked inp v).engine.prevDrawdownForSkew) :
    Alike δ (postTickHook x).state (postTickHook y).state := by
  obtain ⟨hxskew, hxprev⟩ := hx
  obtain ⟨hyskew, hyprev⟩ := hy
  simp only [hooked, preTickHook, Program.modify_run] at hxskew hxprev hyskew hyprev
  simp only [postTickHook, Program.modify_run]
  cases hclock : inp.clockOk with
  | true =>
    simp only [hclock, if_true] at hxskew hyskew
    rw [if_neg (by simp [hxskew]), if_neg (by simp [hyskew])]
    exact hbody
  | false =>
    simp only [hclock, Bool.false_eq_true, if_false] at hxskew hxprev hyskew hyprev
    rw [if_pos hxskew, if_pos hyskew]
    refine ⟨hbody.deals, hbody.balance, ?_, hbody.running⟩
    show x.engine.prevDrawdownForSkew = y.engine.prevDrawdownForSkew
    rw [hxprev, hyprev]
    exact h.paused

/-- A tick trades alike in both engines, given that the guard leaves them alike. -/
theorem tick_twins {Q : EngineEvent → Prop} {δ : ℚ} (hQ : δ = 0 ∨ ∀ fee, ¬ Q (.fee fee false))
    {w v : World} (h : Alike δ w v) (inp : TickInput)
    (hguard : ∀ t, inp.ticker = .ok t → (LiveEngine.loopAt cfg sig inp t.tickPrice w).result = .ok () →
      Alike δ (LiveEngine.loopAt cfg sig inp t.tickPrice w).state
        (LiveEngine.loopAt cfg sig inp t.tickPrice v).state →
      Alike δ (LiveEngine.atTrigger cfg sig inp t.tickPrice w)
        (LiveEngine.atTrigger cfg sig inp t.tickPrice v))
    (hw : ∀ e ∈ (tick cfg sig inp w).log, Q e) (hv : ∀ e ∈ (tick cfg sig inp v).log, Q e) :
    (tick cfg sig inp w).log.filter EngineEvent.isTrade =
        (tick cfg sig inp v).log.filter EngineEvent.isTrade ∧
      Alike δ (tick cfg sig inp w).state (tick cfg sig inp v).state := by
  cases ht : inp.ticker with
  | error e =>
    obtain ⟨hlogw, hstatew⟩ := tick_run_error cfg sig inp e ht w
    obtain ⟨hlogv, hstatev⟩ := tick_run_error cfg sig inp e ht v
    rw [hlogw, hlogv, hstatew, hstatev]
    exact ⟨rfl, alike_postTick h inp (alike_hooked h inp) ⟨rfl, rfl⟩ ⟨rfl, rfl⟩⟩
  | ok t =>
    obtain ⟨hlogw, hstatew⟩ := tick_run_ok cfg sig inp t ht w
    obtain ⟨hlogv, hstatev⟩ := tick_run_ok cfg sig inp t ht v
    rw [hlogw] at hw
    rw [hlogv] at hv
    obtain ⟨htrades, hres, hbody⟩ := bodyAt_twins cfg sig hQ h inp t.tickPrice (hguard t ht)
      (fun e he => hw e (List.mem_append_left _ he)) (fun e he => hv e (List.mem_append_left _ he))
    rw [hlogw, hlogv, hstatew, hstatev]
    refine ⟨?_, alike_postTick h inp hbody (bodyAt_hooks cfg sig inp t.tickPrice w)
      (bodyAt_hooks cfg sig inp t.tickPrice v)⟩
    rw [List.filter_append, List.filter_append, htrades, hres]

end TradingEngine

end Reverto
