import Mathlib.Tactic
import Reverto.Core.EngineSteps
import Reverto.Lib.Machine

/-!
# Edits of an open deal (web/routes/deals.py, core/trading_engine.py)

A PATCH writes the settings it was given to the one edit sentinel of the deal,
over an edit that was not read yet. The engine reads the file, removes it, and
puts the override dicts it found in the place of the deal's own.
-/

namespace Reverto

/-- `DealEditBody` -/
structure DealEditBody where
  tpEnabled : Option Bool := none
  tpTargetPct : Option ℚ := none
  slEnabled : Option Bool := none
  slType : Option SlType := none
  slPct : Option ℚ := none
  dcaEnabled : Option Bool := none
  deriving DecidableEq, Repr

/-- The `settings` of `api_deal_edit`; an empty override is left out. -/
def DealEditBody.settings (body : DealEditBody) : EditSettings where
  tpOverride :=
    if (⟨body.tpEnabled, body.tpTargetPct⟩ : TpOverride) = {} then none
    else some ⟨body.tpEnabled, body.tpTargetPct⟩
  slOverride :=
    if (⟨body.slEnabled, body.slType, body.slPct⟩ : SlOverride) = {} then none
    else some ⟨body.slEnabled, body.slType, body.slPct⟩
  dcaEnabled := body.dcaEnabled

/-- The fields a PATCH may set. -/
inductive EditField where
  | tpEnabled
  | tpTargetPct
  | slEnabled
  | slType
  | slPct
  | dcaEnabled
  deriving DecidableEq

/-- All of them. -/
def EditField.all : List EditField :=
  [.tpEnabled, .tpTargetPct, .slEnabled, .slType, .slPct, .dcaEnabled]

theorem EditField.mem_all (field : EditField) : field ∈ EditField.all := by
  cases field <;> decide

/-- The settings give the field a value. -/
def EditSettings.sets (s : EditSettings) : EditField → Bool
  | .tpEnabled => (s.tpOverride.bind TpOverride.enabled).isSome
  | .tpTargetPct => (s.tpOverride.bind TpOverride.targetPct).isSome
  | .slEnabled => (s.slOverride.bind SlOverride.enabled).isSome
  | .slType => (s.slOverride.bind SlOverride.type).isSome
  | .slPct => (s.slOverride.bind SlOverride.pct).isSome
  | .dcaEnabled => s.dcaEnabled.isSome

namespace DealEdits

open TradingEngine

/-! ### The settings in effect -/

section Fields

variable (cfg : BotConfig)

/-- The take profit of the deal is on, as `_check_tp` reads it. -/
def tpEnabled (d : PaperDeal) : Bool :=
  match d.tpOverride with
  | some ov => ov.enabled.getD true
  | none => cfg.takeProfit.enabled

/-- `tp_pct` -/
def tpPct (d : PaperDeal) : ℚ :=
  match d.tpOverride with
  | some ov => ov.targetPct.getD cfg.takeProfit.targetPct
  | none => cfg.takeProfit.targetPct

/-- `sl_type` -/
def slType (d : PaperDeal) : SlType :=
  match d.slOverride with
  | some ov => ov.type.getD (slTypeOf cfg.stopLoss.type)
  | none => slTypeOf cfg.stopLoss.type

/-- `sl_pct` -/
def slPct (d : PaperDeal) : ℚ :=
  match d.slOverride with
  | some ov => ov.pct.getD cfg.stopLoss.pct
  | none => cfg.stopLoss.pct

/-- These are the settings the take profit works with. -/
theorem tpTargetPct_fields (d : PaperDeal) :
    tpTargetPct cfg d = if tpEnabled cfg d = true then some (tpPct cfg d) else none := by
  cases hov : d.tpOverride with
  | none => simp only [tpTargetPct, tpEnabled, tpPct, hov]
  | some ov => simp only [tpTargetPct, tpEnabled, tpPct, hov]

/-- These are the settings the stop loss works with, where it is on. -/
theorem slSettings_fields (d : PaperDeal) (s : SlType × ℚ) (h : slSettings cfg d = some s) :
    s = (slType cfg d, slPct cfg d) := by
  simp only [slSettings] at h
  simp only [slType, slPct]
  cases hov : d.slOverride with
  | none =>
    simp only [hov] at h
    split at h
    · cases h
    · exact (Option.some.inj h).symm
  | some ov =>
    simp only [hov] at h
    split at h
    · exact (Option.some.inj h).symm
    · cases h

/-- The value of the last edit that set the field, else the configured one. -/
def lastSet {α : Type} (field : DealEditBody → Option α) (configured : α)
    (edits : List DealEditBody) : α :=
  edits.foldl (fun v body => (field body).getD v) configured

theorem lastSet_append {α : Type} (field : DealEditBody → Option α) (configured : α)
    (edits : List DealEditBody) (body : DealEditBody) :
    lastSet field configured (edits ++ [body]) =
      (field body).getD (lastSet field configured edits) := by
  simp only [lastSet, List.foldl_append, List.foldl_cons, List.foldl_nil]

/-- Each field of the deal has the value of the last edit that set it. -/
structure HasFields (edits : List DealEditBody) (d : PaperDeal) : Prop where
  tpEnabled : DealEdits.tpEnabled cfg d =
    lastSet DealEditBody.tpEnabled cfg.takeProfit.enabled edits
  tpPct : DealEdits.tpPct cfg d =
    lastSet DealEditBody.tpTargetPct cfg.takeProfit.targetPct edits
  slType : DealEdits.slType cfg d =
    lastSet DealEditBody.slType (slTypeOf cfg.stopLoss.type) edits
  slPct : DealEdits.slPct cfg d = lastSet DealEditBody.slPct cfg.stopLoss.pct edits

/-- The take-profit fields an edit leaves out of an override it writes have the
value the engine then takes for them. -/
def TpComplete (edits : List DealEditBody) (body : DealEditBody) : Prop :=
  body.settings.tpOverride.isSome = true →
    (body.tpEnabled = none →
      lastSet DealEditBody.tpEnabled cfg.takeProfit.enabled edits = true) ∧
    (body.tpTargetPct = none →
      lastSet DealEditBody.tpTargetPct cfg.takeProfit.targetPct edits = cfg.takeProfit.targetPct)

/-- The same for the stop loss. -/
def SlComplete (edits : List DealEditBody) (body : DealEditBody) : Prop :=
  body.settings.slOverride.isSome = true →
    (body.slType = none →
      lastSet DealEditBody.slType (slTypeOf cfg.stopLoss.type) edits =
        slTypeOf cfg.stopLoss.type) ∧
    (body.slPct = none → lastSet DealEditBody.slPct cfg.stopLoss.pct edits = cfg.stopLoss.pct)

instance decidableTpComplete (edits : List DealEditBody) (body : DealEditBody) :
    Decidable (TpComplete cfg edits body) :=
  inferInstanceAs (Decidable (_ → _ ∧ _))

instance decidableSlComplete (edits : List DealEditBody) (body : DealEditBody) :
    Decidable (SlComplete cfg edits body) :=
  inferInstanceAs (Decidable (_ → _ ∧ _))

/-- `b` sets every field `u` sets. -/
def Covers (u b : EditSettings) : Prop := ∀ field, u.sets field = true → b.sets field = true

instance decidableCovers (u b : EditSettings) : Decidable (Covers u b) :=
  decidable_of_iff (∀ field ∈ EditField.all, u.sets field = true → b.sets field = true)
    ⟨fun h field => h field field.mem_all, fun h field _ => h field⟩

/-- No override is an empty dict. -/
structure Plain (u : EditSettings) : Prop where
  tp : u.tpOverride ≠ some {}
  sl : u.slOverride ≠ some {}

theorem plain_settings (body : DealEditBody) : Plain body.settings := by
  constructor
  · intro h
    simp only [DealEditBody.settings] at h
    split at h
    · cases h
    · rename_i hne
      exact hne (Option.some.inj h)
  · intro h
    simp only [DealEditBody.settings] at h
    split at h
    · cases h
    · rename_i hne
      exact hne (Option.some.inj h)

theorem plain_empty : Plain {} := by
  constructor
  · intro h
    cases h
  · intro h
    cases h

theorem applySettings_empty (d : PaperDeal) : applySettings {} d = d := rfl

/-- Settings that leave the take profit alone keep it. -/
theorem applySettings_tp_none (u : EditSettings) (d : PaperDeal) (h : u.tpOverride = none) :
    (applySettings u d).tpOverride = d.tpOverride := by
  simp only [applySettings, h, Option.isSome_none, Bool.false_eq_true, if_false]

theorem applySettings_tp_some (u : EditSettings) (d : PaperDeal) (ov : TpOverride)
    (h : u.tpOverride = some ov) : (applySettings u d).tpOverride = some ov := by
  simp only [applySettings, h, Option.isSome_some, if_true]

theorem applySettings_sl_none (u : EditSettings) (d : PaperDeal) (h : u.slOverride = none) :
    (applySettings u d).slOverride = d.slOverride := by
  simp only [applySettings, h, Option.isSome_none, Bool.false_eq_true, if_false]

theorem applySettings_sl_some (u : EditSettings) (d : PaperDeal) (ov : SlOverride)
    (h : u.slOverride = some ov) : (applySettings u d).slOverride = some ov := by
  simp only [applySettings, h, Option.isSome_some, if_true]

/-- The fields depend on the overrides only. -/
theorem hasFields_congr (edits : List DealEditBody) (d e : PaperDeal)
    (htp : e.tpOverride = d.tpOverride) (hsl : e.slOverride = d.slOverride)
    (h : HasFields cfg edits d) : HasFields cfg edits e := by
  obtain ⟨h1, h2, h3, h4⟩ := h
  constructor
  · rw [← h1]
    simp only [tpEnabled, htp]
  · rw [← h2]
    simp only [tpPct, htp]
  · rw [← h3]
    simp only [slType, hsl]
  · rw [← h4]
    simp only [slPct, hsl]

/-- Applying settings gives the same to deals with the same overrides. -/
theorem hasFields_applySettings_congr (edits : List DealEditBody) (u : EditSettings)
    (d e : PaperDeal) (htp : e.tpOverride = d.tpOverride) (hsl : e.slOverride = d.slOverride)
    (h : HasFields cfg edits (applySettings u d)) : HasFields cfg edits (applySettings u e) := by
  refine hasFields_congr cfg edits (applySettings u d) (applySettings u e) ?_ ?_ h
  · simp only [applySettings, htp]
  · simp only [applySettings, hsl]

theorem settings_tp_none (body : DealEditBody) (h : body.settings.tpOverride = none) :
    body.tpEnabled = none ∧ body.tpTargetPct = none := by
  simp only [DealEditBody.settings] at h
  split at h
  · rename_i heq
    injection heq with h1 h2
    exact ⟨h1, h2⟩
  · cases h

theorem settings_tp_some (body : DealEditBody) (ov : TpOverride)
    (h : body.settings.tpOverride = some ov) : ov = ⟨body.tpEnabled, body.tpTargetPct⟩ := by
  simp only [DealEditBody.settings] at h
  split at h
  · cases h
  · exact (Option.some.inj h).symm

theorem settings_sl_none (body : DealEditBody) (h : body.settings.slOverride = none) :
    body.slEnabled = none ∧ body.slType = none ∧ body.slPct = none := by
  simp only [DealEditBody.settings] at h
  split at h
  · rename_i heq
    injection heq with h1 h2 h3
    exact ⟨h1, h2, h3⟩
  · cases h

theorem settings_sl_some (body : DealEditBody) (ov : SlOverride)
    (h : body.settings.slOverride = some ov) :
    ov = ⟨body.slEnabled, body.slType, body.slPct⟩ := by
  simp only [DealEditBody.settings] at h
  split at h
  · cases h
  · exact (Option.some.inj h).symm

/-- The take-profit half of `HasFields` once an edit that covers the unread one is applied. -/
theorem tpFields_edit (edits : List DealEditBody) (u : EditSettings) (body : DealEditBody)
    (d : PaperDeal) (hu : Plain u) (hcovers : Covers u body.settings)
    (hcomplete : TpComplete cfg edits body) (h : HasFields cfg edits (applySettings u d)) :
    tpEnabled cfg (applySettings body.settings d) =
        lastSet DealEditBody.tpEnabled cfg.takeProfit.enabled (edits ++ [body]) ∧
      tpPct cfg (applySettings body.settings d) =
        lastSet DealEditBody.tpTargetPct cfg.takeProfit.targetPct (edits ++ [body]) := by
  rw [lastSet_append, lastSet_append]
  cases hb : body.settings.tpOverride with
  | none =>
    -- an edit that covers the unread one and says nothing here shows that neither did
    have hnone : u.tpOverride = none := by
      cases hut : u.tpOverride with
      | none => rfl
      | some ov =>
        exfalso
        have he := hcovers .tpEnabled
        have hp := hcovers .tpTargetPct
        simp only [EditSettings.sets, hut, hb, Option.bind_some, Option.bind_none,
          Option.isSome_none] at he hp
        have hov : ov = {} := by
          obtain ⟨enabled, targetPct⟩ := ov
          cases enabled with
          | some b => cases he rfl
          | none =>
            cases targetPct with
            | some q => cases hp rfl
            | none => rfl
        rw [hov] at hut
        exact hu.tp hut
    obtain ⟨h1, h2⟩ := settings_tp_none body hb
    have hsame : (applySettings body.settings d).tpOverride = (applySettings u d).tpOverride := by
      rw [applySettings_tp_none _ d hb, applySettings_tp_none u d hnone]
    have he := h.tpEnabled
    have hp := h.tpPct
    simp only [tpEnabled, tpPct, ← hsame] at he hp
    rw [h1, h2]
    exact ⟨he, hp⟩
  | some ov =>
    have hov := settings_tp_some body ov hb
    obtain ⟨hce, hcp⟩ := hcomplete (by rw [hb]; rfl)
    have hset := applySettings_tp_some body.settings d ov hb
    constructor
    · simp only [tpEnabled, hset, hov]
      cases hbe : body.tpEnabled with
      | some b => rfl
      | none => exact (hce hbe).symm
    · simp only [tpPct, hset, hov]
      cases hbp : body.tpTargetPct with
      | some q => rfl
      | none => exact (hcp hbp).symm

/-- The stop-loss half. -/
theorem slFields_edit (edits : List DealEditBody) (u : EditSettings) (body : DealEditBody)
    (d : PaperDeal) (hu : Plain u) (hcovers : Covers u body.settings)
    (hcomplete : SlComplete cfg edits body) (h : HasFields cfg edits (applySettings u d)) :
    slType cfg (applySettings body.settings d) =
        lastSet DealEditBody.slType (slTypeOf cfg.stopLoss.type) (edits ++ [body]) ∧
      slPct cfg (applySettings body.settings d) =
        lastSet DealEditBody.slPct cfg.stopLoss.pct (edits ++ [body]) := by
  rw [lastSet_append, lastSet_append]
  cases hb : body.settings.slOverride with
  | none =>
    have hnone : u.slOverride = none := by
      cases hus : u.slOverride with
      | none => rfl
      | some ov =>
        exfalso
        have he := hcovers .slEnabled
        have ht := hcovers .slType
        have hp := hcovers .slPct
        simp only [EditSettings.sets, hus, hb, Option.bind_some, Option.bind_none,
          Option.isSome_none] at he ht hp
        have hov : ov = {} := by
          obtain ⟨enabled, type, pct⟩ := ov
          cases enabled with
          | some b => cases he rfl
          | none =>
            cases type with
            | some t => cases ht rfl
            | none =>
              cases pct with
              | some q => cases hp rfl
              | none => rfl
        rw [hov] at hus
        exact hu.sl hus
    obtain ⟨_, h2, h3⟩ := settings_sl_none body hb
    have hsame : (applySettings body.settings d).slOverride = (applySettings u d).slOverride := by
      rw [applySettings_sl_none _ d hb, applySettings_sl_none u d hnone]
    have ht := h.slType
    have hp := h.slPct
    simp only [slType, slPct, ← hsame] at ht hp
    rw [h2, h3]
    exact ⟨ht, hp⟩
  | some ov =>
    have hov := settings_sl_some body ov hb
    obtain ⟨hct, hcp⟩ := hcomplete (by rw [hb]; rfl)
    have hset := applySettings_sl_some body.settings d ov hb
    constructor
    · simp only [slType, hset, hov]
      cases hbt : body.slType with
      | some t => rfl
      | none => exact (hct hbt).symm
    · simp only [slPct, hset, hov]
      cases hbp : body.slPct with
      | some q => rfl
      | none => exact (hcp hbp).symm

/-- An edit that covers the unread one and is complete takes effect as a whole. -/
theorem hasFields_edit (edits : List DealEditBody) (u : EditSettings) (body : DealEditBody)
    (d : PaperDeal) (hu : Plain u) (hcovers : Covers u body.settings)
    (htp : TpComplete cfg edits body) (hsl : SlComplete cfg edits body)
    (h : HasFields cfg edits (applySettings u d)) :
    HasFields cfg (edits ++ [body]) (applySettings body.settings d) := by
  obtain ⟨h1, h2⟩ := tpFields_edit cfg edits u body d hu hcovers htp h
  obtain ⟨h3, h4⟩ := slFields_edit cfg edits u body d hu hcovers hsl h
  exact ⟨h1, h2, h3, h4⟩

theorem covers_empty (b : EditSettings) : Covers {} b := by
  intro field h
  cases field <;> cases h

/-- Alone it takes effect as a whole only if it is complete. -/
theorem hasFields_edit_iff (edits : List DealEditBody) (body : DealEditBody) (d : PaperDeal)
    (h : HasFields cfg edits d) :
    HasFields cfg (edits ++ [body]) (applySettings body.settings d) ↔
      TpComplete cfg edits body ∧ SlComplete cfg edits body := by
  constructor
  · rintro ⟨h1, h2, h3, h4⟩
    rw [lastSet_append] at h1 h2 h3 h4
    constructor
    · intro hsome
      obtain ⟨ov, hb⟩ := Option.isSome_iff_exists.mp hsome
      have hov := settings_tp_some body ov hb
      have hset := applySettings_tp_some body.settings d ov hb
      simp only [tpEnabled, tpPct, hset, hov] at h1 h2
      constructor
      · intro hnone
        rw [hnone] at h1
        exact h1.symm
      · intro hnone
        rw [hnone] at h2
        exact h2.symm
    · intro hsome
      obtain ⟨ov, hb⟩ := Option.isSome_iff_exists.mp hsome
      have hov := settings_sl_some body ov hb
      have hset := applySettings_sl_some body.settings d ov hb
      simp only [slType, slPct, hset, hov] at h3 h4
      constructor
      · intro hnone
        rw [hnone] at h3
        exact h3.symm
      · intro hnone
        rw [hnone] at h4
        exact h4.symm
  · rintro ⟨htp, hsl⟩
    exact hasFields_edit cfg edits {} body d plain_empty (covers_empty _) htp hsl h

end Fields

/-! ### The sentinel between the portal and the engine -/

/-- The one edit sentinel of a deal: a PATCH empties the file and then writes it,
the engine reads it and then removes it. `edits` are the finished requests. -/
structure EditRun where
  world : World
  file : Option (Option EditSettings)
  patching : Option DealEditBody
  reading : Option (Option EditSettings)
  edits : List DealEditBody

/-- What happens next; `engineOp` is anything else the engine does in its ticks. -/
inductive EditStep where
  | open (body : DealEditBody)
  | write
  | read
  | consume (now : Instant) (price : ℚ)
  | engineOp (op : EngineOp)

/-- The operation consumes an edit of the deal. -/
def isEditOf (dealId : String) : EngineOp → Bool
  | .sentinel _ _ (.edit i _) => decide (i = dealId)
  | _ => false

/-- The event is the opening of a deal with that id. -/
def isOpeningOf (dealId : String) : EngineEvent → Bool
  | .opened i _ => decide (i = dealId)
  | _ => false

section Runs

variable (cfg : BotConfig) (sig : Signals) (dealId : String)

/-- One step. The requests of the portal run one after the other; an id is given to one deal. -/
def step (s : EditRun) : EditStep → Option EditRun
  | .open body =>
    match s.patching with
    | some _ => none
    | none => some { s with file := some none, patching := some body }
  | .write =>
    match s.patching with
    | none => none
    | some body =>
      -- a file the engine has removed meanwhile does not come back
      some
        { s with
          file := s.file.map fun _ => some body.settings
          patching := none
          edits := s.edits ++ [body] }
  | .read =>
    match s.reading, s.file with
    | none, some payload => some { s with reading := some payload }
    | _, _ => none
  | .consume now price =>
    match s.reading with
    | none => none
    | some payload =>
      -- an empty payload is taken for no settings
      let op := EngineOp.sentinel now price (.edit dealId (payload.getD {}))
      some { s with file := none, reading := none, world := (op.program cfg sig s.world).state }
  | .engineOp op =>
    if s.reading = none ∧ isEditOf dealId op = false ∧
        ((op.program cfg sig s.world).log.any (isOpeningOf dealId)) = false then
      some { s with world := (op.program cfg sig s.world).state }
    else none

/-- A run begins as the deal is opened. -/
def initial (now : Instant) (price : ℚ) (trigger : Option GroupTrigger) (w : World) : EditRun :=
  ⟨afterOpen cfg now dealId price trigger w, none, none, none, []⟩

/-- Once every sentinel is consumed, the deal has each field as last edited. -/
def EditsKept (s : EditRun) : Prop :=
  s.file = none → s.patching = none → s.reading = none →
    ∀ d, s.world.deal? dealId = some d → HasFields cfg s.edits d

/-- The settings the engine will find. -/
def pending (s : EditRun) : EditSettings :=
  match s.patching with
  | some body => body.settings
  | none =>
    match s.file with
    | some payload => payload.getD {}
    | none => {}

/-- An edit finds no sentinel that was read and not yet removed, sets every field
of one that was not read, and completes the overrides it sets; the engine reads
no file that is being written. -/
def KeepsEdits (s : EditRun) : EditStep → Prop
  | .open body => s.reading = none ∧ Covers (pending s) body.settings ∧
      TpComplete cfg s.edits body ∧ SlComplete cfg s.edits body
  | .read => s.patching = none
  | _ => True

instance decidableKeepsEdits (s : EditRun) : ∀ l, Decidable (KeepsEdits cfg s l)
  | .open _ => inferInstanceAs (Decidable (_ ∧ _ ∧ _ ∧ _))
  | .read => inferInstanceAs (Decidable (_ = _))
  | .write => .isTrue trivial
  | .consume _ _ => .isTrue trivial
  | .engineOp _ => .isTrue trivial

/-- The settings on their way give the deal each field as last edited. -/
structure OnTheWay (s : EditRun) : Prop where
  patchFile : ∀ body, s.patching = some body → s.file = some none ∧ s.reading = none
  readFile : ∀ payload, s.reading = some payload → s.file = some payload
  plain : Plain (pending s)
  fields : ∀ d, s.world.deal? dealId = some d →
    HasFields cfg (s.edits ++ s.patching.toList) (applySettings (pending s) d)

/-- A deal newly opened has no overrides. -/
theorem afterOpen_deal (now : Instant) (price : ℚ) (trigger : Option GroupTrigger) (w : World) :
    (afterOpen cfg now dealId price trigger w).deal? dealId =
      some (newDeal cfg now dealId price trigger) :=
  KeyedDict.get?_set_self w.engine.state.openDeals (newDeal cfg now dealId price trigger)

theorem onTheWay_initial (now : Instant) (price : ℚ) (trigger : Option GroupTrigger) (w : World) :
    OnTheWay cfg dealId (initial cfg dealId now price trigger w) := by
  refine ⟨?_, ?_, plain_empty, ?_⟩
  · intro body h
    cases h
  · intro payload h
    cases h
  · intro d hd
    have hopen := afterOpen_deal cfg dealId now price trigger w
    have hnew : d = newDeal cfg now dealId price trigger := Option.some.inj (hd.symm.trans hopen)
    subst hnew
    exact ⟨rfl, rfl, rfl, rfl⟩

/-- An operation that neither edits nor opens the deal leaves its overrides. -/
theorem overrides_op (op : EngineOp) (w : World) (hedit : isEditOf dealId op = false)
    (hopen : ((op.program cfg sig w).log.any (isOpeningOf dealId)) = false) (d' : PaperDeal)
    (hd' : (op.program cfg sig w).state.deal? dealId = some d') :
    ∃ d, w.deal? dealId = some d ∧ d'.tpOverride = d.tpOverride ∧ d'.slOverride = d.slOverride := by
  by_cases htrack : ∃ price, op = .trackWicks price
  · obtain ⟨price, rfl⟩ := htrack
    have hmap : (w.deal? dealId).map (trackWick price) = some d' := by
      rw [← hd']
      exact (KeyedDict.get?_mapValues _ _ (trackWick_id price) _).symm
    obtain ⟨d, hd, rfl⟩ := Option.map_eq_some_iff.mp hmap
    exact ⟨d, hd, rfl, rfl⟩
  · have hnot : ∀ price, op ≠ .trackWicks price := fun price h => htrack ⟨price, h⟩
    obtain ⟨hmem, hid⟩ := KeyedDict.get?_mem _ _ _ hd'
    rcases continues_op cfg sig op hnot w d' hmem with ⟨d, hd, hstep⟩ | ⟨now, price, t, _, hlog⟩
    · have hdid : d.id = dealId := by
        rw [← hid]
        exact (DealStep.id_eq cfg op _ d d' hstep).symm
      have hget : w.deal? dealId = some d := by
        have h := KeyedDict.get?_of_mem w.engine.state.openDeals d hd
        rw [hdid] at h
        exact h
      refine ⟨d, hget, ?_⟩
      cases hstep with
      | same => exact ⟨rfl, rfl⟩
      | peak now price h => exact ⟨rfl, rfl⟩
      | order now price h => exact ⟨rfl, rfl⟩
      | settings s h =>
        obtain ⟨now, price, hop⟩ := loggedBy_op cfg sig op w _ h
        rw [hop, hdid] at hedit
        simp only [isEditOf, decide_true, Bool.true_eq_false] at hedit
    · exfalso
      have hany := List.any_eq_false.mp hopen _ hlog
      rw [hid] at hany
      simp only [isOpeningOf, decide_true, not_true] at hany

theorem deal?_consume (now : Instant) (price : ℚ) (u : EditSettings) (w : World) (d : PaperDeal)
    (hd : w.deal? dealId = some d) :
    ((EngineOp.sentinel now price (.edit dealId u)).program cfg sig w).state.deal? dealId =
      some (applySettings u d) := by
  have hmod := KeyedDict.get?_modify_self w.engine.state.openDeals dealId (applySettings u)
    (applySettings_id u)
  have hget : w.engine.state.openDeals.get? dealId = some d := hd
  rw [hget] at hmod
  simp only [EngineOp.program, consumeSentinel_run, hd]
  exact hmod

theorem consume_deal (now : Instant) (price : ℚ) (u : EditSettings) (w : World) (d' : PaperDeal)
    (hd' : ((EngineOp.sentinel now price (.edit dealId u)).program cfg sig w).state.deal? dealId =
      some d') : ∃ d, w.deal? dealId = some d ∧ d' = applySettings u d := by
  cases hd : w.deal? dealId with
  | none =>
    simp only [EngineOp.program, consumeSentinel_run, hd] at hd'
    cases hd'
  | some d =>
    rw [deal?_consume cfg sig dealId now price u w d hd] at hd'
    exact ⟨d, rfl, (Option.some.inj hd').symm⟩

/-- A PATCH begins: its fields are on the way. -/
theorem onTheWay_open (s s' : EditRun) (body : DealEditBody) (hI : OnTheWay cfg dealId s)
    (hG : KeepsEdits cfg s (.open body)) (hs : step cfg sig dealId s (.open body) = some s') :
    OnTheWay cfg dealId s' := by
  obtain ⟨_, _, hplain, hfields⟩ := hI
  obtain ⟨hreading, hcovers, htp, hsl⟩ := hG
  simp only [step] at hs
  cases hp : s.patching with
  | some b =>
    rw [hp] at hs
    cases hs
  | none =>
    rw [hp] at hs
    cases hs
    refine ⟨?_, ?_, plain_settings body, ?_⟩
    · intro b hb
      exact ⟨rfl, hreading⟩
    · intro payload h
      rw [hreading] at h
      cases h
    · intro d hd
      have h := hfields d hd
      rw [hp, Option.toList_none, List.append_nil] at h
      exact hasFields_edit cfg s.edits (pending s) body d hplain hcovers htp hsl h

/-- A PATCH writes: its fields are in the sentinel. -/
theorem onTheWay_write (s s' : EditRun) (hI : OnTheWay cfg dealId s)
    (hs : step cfg sig dealId s .write = some s') : OnTheWay cfg dealId s' := by
  obtain ⟨hpatch, _, _, hfields⟩ := hI
  simp only [step] at hs
  cases hp : s.patching with
  | none =>
    rw [hp] at hs
    cases hs
  | some body =>
    obtain ⟨hfile, hreading⟩ := hpatch body hp
    rw [hp] at hs
    cases hs
    have hpending : pending s = body.settings := by
      simp only [pending, hp]
    have hnew : pending { s with
        file := s.file.map fun _ => some body.settings
        patching := none
        edits := s.edits ++ [body] } = body.settings := by
      simp only [pending, hfile, Option.map_some, Option.getD_some]
    refine ⟨?_, ?_, ?_, ?_⟩
    · intro b hb
      cases hb
    · intro payload h
      simp only [hreading] at h
      cases h
    · rw [hnew]
      exact plain_settings body
    · intro d hd
      have h := hfields d hd
      rw [hpending, hp] at h
      rw [hnew, Option.toList_none, List.append_nil]
      exact h

/-- The engine applies what it has read: the deal has the fields. -/
theorem onTheWay_consume (s s' : EditRun) (now : Instant) (price : ℚ) (hI : OnTheWay cfg dealId s)
    (hs : step cfg sig dealId s (.consume now price) = some s') : OnTheWay cfg dealId s' := by
  obtain ⟨hpatch, hread, _, hfields⟩ := hI
  simp only [step] at hs
  cases hr : s.reading with
  | none =>
    rw [hr] at hs
    cases hs
  | some payload =>
    have hfile := hread payload hr
    have hp : s.patching = none := by
      cases hp : s.patching with
      | none => rfl
      | some body =>
        have hnone := (hpatch body hp).2
        rw [hr] at hnone
        cases hnone
    rw [hr] at hs
    cases hs
    have hpending : pending s = payload.getD {} := by
      simp only [pending, hp, hfile]
    refine ⟨?_, ?_, ?_, ?_⟩
    · intro b hb
      rw [hp] at hb
      cases hb
    · intro p h
      cases h
    · simp only [pending, hp]
      exact plain_empty
    · intro d' hd'
      obtain ⟨d, hd, rfl⟩ := consume_deal cfg sig dealId now price (payload.getD {}) s.world d' hd'
      have h := hfields d hd
      rw [hpending] at h
      simp only [pending, hp, applySettings_empty]
      rw [hp] at h
      exact h

theorem onTheWay_step (s s' : EditRun) (l : EditStep) (hI : OnTheWay cfg dealId s)
    (hG : KeepsEdits cfg s l) (hs : step cfg sig dealId s l = some s') :
    OnTheWay cfg dealId s' := by
  cases l with
  | «open» body => exact onTheWay_open cfg sig dealId s s' body hI hG hs
  | write => exact onTheWay_write cfg sig dealId s s' hI hs
  | read =>
    obtain ⟨_, _, hplain, hfields⟩ := hI
    have hp : s.patching = none := hG
    simp only [step] at hs
    split at hs
    · rename_i payload _ hf
      cases hs
      refine ⟨?_, ?_, hplain, hfields⟩
      · intro b hb
        rw [hp] at hb
        cases hb
      · intro p h
        cases h
        exact hf
    · cases hs
  | consume now price => exact onTheWay_consume cfg sig dealId s s' now price hI hs
  | engineOp op =>
    obtain ⟨hpatch, hread, hplain, hfields⟩ := hI
    simp only [step] at hs
    split at hs
    · rename_i hop
      obtain ⟨_, hedit, hopen⟩ := hop
      cases hs
      refine ⟨hpatch, hread, hplain, ?_⟩
      intro d' hd'
      obtain ⟨d, hd, htp, hsl⟩ := overrides_op cfg sig dealId op s.world hedit hopen d' hd'
      exact hasFields_applySettings_congr cfg _ (pending s) d d' htp hsl (hfields d hd)
    · cases hs

/-- In a run whose edits and reads keep to the condition every edit takes effect. -/
theorem editsKept_run (now : Instant) (price : ℚ) (trigger : Option GroupTrigger) (w : World)
    (ls : List EditStep) (s : EditRun)
    (hG : Machine.Guarded (step cfg sig dealId) (KeepsEdits cfg)
      (initial cfg dealId now price trigger w) ls)
    (hrun : Machine.run (step cfg sig dealId) (initial cfg dealId now price trigger w) ls = some s) :
    EditsKept cfg dealId s := by
  have hway := Machine.run_invariant (step cfg sig dealId) (fun _ => True) (KeepsEdits cfg)
    (OnTheWay cfg dealId) (fun s l s' _ hI hl hs => onTheWay_step cfg sig dealId s s' l hI hl hs)
    (initial cfg dealId now price trigger w) s ls
    (onTheWay_initial cfg dealId now price trigger w) (fun _ _ => trivial) hG hrun
  intro hfile hpatching _ d hd
  have h := hway.fields d hd
  simp only [pending, hpatching, hfile, Option.toList_none, List.append_nil, applySettings_empty] at h
  exact h

/-- A finished PATCH. -/
def patch (body : DealEditBody) : List EditStep := [.open body, .write]

/-- A tick that consumes the sentinel. -/
def consumed : List EditStep := [.read, .consume 0 100]

/-- Where every edit so far is in effect, one more that is consumed alone is kept
only if it is complete. -/
theorem editsKept_alone_iff (w : World) (edits : List DealEditBody) (body : DealEditBody)
    (d : PaperDeal) (hd : w.deal? dealId = some d) (h : HasFields cfg edits d) :
    ∃ s, Machine.run (step cfg sig dealId) ⟨w, none, none, none, edits⟩ (patch body ++ consumed) =
        some s ∧
      (EditsKept cfg dealId s ↔ TpComplete cfg edits body ∧ SlComplete cfg edits body) := by
  have hdeal := deal?_consume cfg sig dealId 0 100 body.settings w d hd
  refine ⟨⟨((EngineOp.sentinel 0 100 (.edit dealId body.settings)).program cfg sig w).state, none,
    none, none, edits ++ [body]⟩, rfl, ?_⟩
  rw [← hasFields_edit_iff cfg edits body d h]
  constructor
  · intro hkept
    exact hkept rfl rfl rfl _ hdeal
  · intro hfields _ _ _ e he
    have heq := Option.some.inj (he.symm.trans hdeal)
    rw [heq]
    exact hfields

end Runs

/-! ### Edits that meet -/

/-- The deal of the runs below. -/
def startOf (cfg : BotConfig) : EditRun :=
  initial cfg "202501010000-0001" 0 100 none (freshWorld 1)

/-- Two edits of one deal before a tick. -/
def editsBeforeTick : List EditStep :=
  patch { tpEnabled := some true, tpTargetPct := some 4 } ++
    patch { slType := some .fixed, slPct := some 8 } ++ consumed

/-- The second edit takes the place of the first, which was answered with success. -/
theorem not_editsKept_before_tick :
    ¬ ∀ (cfg : BotConfig) (sig : Signals) (dealId : String) (now : Instant) (price : ℚ)
        (trigger : Option GroupTrigger) (w : World) (ls : List EditStep) (s : EditRun),
        Machine.run (step cfg sig dealId) (initial cfg dealId now price trigger w) ls = some s →
          EditsKept cfg dealId s := by
  intro h
  have hview : (Machine.run (step (.small "edits") .silent "202501010000-0001")
      (startOf (.small "edits")) editsBeforeTick).map (fun s => (s.file, s.patching, s.reading,
        (s.world.deal? "202501010000-0001").map (tpPct (.small "edits")),
        lastSet DealEditBody.tpTargetPct 3 s.edits)) = some (none, none, none, some 3, 4) := by
    decide +kernel
  obtain ⟨s, hs, hv⟩ := Option.map_eq_some_iff.mp hview
  simp only [Prod.mk.injEq, Option.map_eq_some_iff] at hv
  obtain ⟨hfile, hpatching, hreading, ⟨d, hd, hpct⟩, hlast⟩ := hv
  have hfields := h (.small "edits") .silent "202501010000-0001" 0 100 none (freshWorld 1)
    editsBeforeTick s hs hfile hpatching hreading d hd
  have heq : (3 : ℚ) = 4 := by
    rw [← hpct, ← hlast]
    exact hfields.tpPct
  norm_num at heq

/-- A complete edit of the take profit, and one of the stop loss after it was consumed. -/
def editsOneByOne : List EditStep :=
  patch { tpEnabled := some true, tpTargetPct := some 4 } ++ consumed ++
    patch { slType := some .fixed, slPct := some 8 } ++ consumed

theorem editsKept_one_by_one :
    ∃ s, Machine.run (step (.small "edits") .silent "202501010000-0001")
        (startOf (.small "edits")) editsOneByOne = some s ∧
      EditsKept (.small "edits") "202501010000-0001" s := by
  have hguarded : Machine.Guarded (step (.small "edits") .silent "202501010000-0001")
      (KeepsEdits (.small "edits")) (startOf (.small "edits")) editsOneByOne := by
    decide +kernel
  have hsome : (Machine.run (step (.small "edits") .silent "202501010000-0001")
      (startOf (.small "edits")) editsOneByOne).isSome = true := by
    decide +kernel
  obtain ⟨s, hs⟩ := Option.isSome_iff_exists.mp hsome
  exact ⟨s, hs, editsKept_run (.small "edits") .silent "202501010000-0001" 0 100 none
    (freshWorld 1) editsOneByOne s hguarded hs⟩

end DealEdits

end Reverto
