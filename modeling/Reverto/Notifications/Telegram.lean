import Mathlib.Tactic
import Reverto.Core.TelegramConfigStore

/-!
# Telegram alerts (notifications/telegram.py, core/telegram_config_store.py)

`TelegramNotifier`, which looks the chat and the preferences of its user up when it is built,
and the calls of the store that change them outside the link flow. The texts of the messages
are left out.
-/

namespace Reverto

namespace Telegram

open TelegramConfigStore

/-- The event types of `_valid_event_types`. -/
def validEventTypes : List String :=
  ["startup", "shutdown", "stop", "restart", "entry", "dca_trigger", "tp_hit", "sl_hit",
    "liquidation_warn", "schedule_open", "schedule_close", "error", "manual_close", "manual_cancel"]

/-- `_ALWAYS_ON_EVENTS` -/
def alwaysOnEvents : List String := ["error", "liquidation_warn", "shutdown"]

/-- The `notify_*` methods. -/
inductive Alert where
  | startup
  | shutdown
  | stop
  | restart
  | scheduleOpen
  | scheduleClose
  | entry
  | dca
  | takeProfit
  | stopLoss
  | manualClose
  | manualCancel
  | liquidationWarning
  | liquidationEmergency
  | error
  | errorPersistent
  deriving DecidableEq, Repr

/-- The event types a method asks `_is_enabled` for; one of them is enough. -/
def Alert.events : Alert → List String
  | .startup => ["startup"]
  | .shutdown => ["shutdown"]
  | .stop => ["stop", "shutdown"]
  | .restart => ["restart"]
  | .scheduleOpen => ["schedule_open"]
  | .scheduleClose => ["schedule_close"]
  | .entry => ["entry"]
  | .dca => ["dca_trigger"]
  | .takeProfit => ["tp_hit"]
  | .stopLoss => ["sl_hit"]
  | .manualClose => ["manual_close"]
  | .manualCancel => ["manual_cancel"]
  | .liquidationWarning => ["liquidation_warn"]
  | .liquidationEmergency => []
  | .error => ["error"]
  | .errorPersistent => ["error"]

/-- A `TelegramNotifier`; no `notifyOn` stands for every event. -/
structure Notifier where
  userId : Option ℕ
  chatId : Option String
  enabled : Bool
  notifyOn : Option (List String)
  deriving DecidableEq, Repr

/-- `TelegramNotifier(user_id, notify_on)` for the configuration of the user. -/
def Notifier.ofUser (userId : ℕ) (config : Option TelegramConfig) (notifyOn : Option (List String)) :
    Notifier :=
  match config with
  | none => ⟨some userId, none, false, some []⟩
  | some config => ⟨some userId, some config.chatId, true, some (notifyOn.getD config.notifyOn)⟩

/-- `_is_enabled` -/
def Notifier.isEnabled (n : Notifier) (eventType : String) : Bool :=
  if !n.enabled then false
  else if eventType ∈ alwaysOnEvents then true
  else
    match n.notifyOn with
    | none => true
    | some notifyOn => decide (eventType ∈ notifyOn)

/-- The method comes to its `send`. -/
def Notifier.passes (n : Notifier) : Alert → Bool
  | .liquidationEmergency => n.enabled
  | a => a.events.any n.isEnabled

/-- The alerts no preference mutes. -/
def Alert.safety : Alert → Bool
  | .liquidationEmergency => true
  | a => a.events.any fun e => decide (e ∈ alwaysOnEvents)

/-- The events are known, and none is listed twice. -/
def ValidList (events : List String) : Prop :=
  (∀ e ∈ events, e ∈ validEventTypes) ∧ events.Nodup

/-- `list(dict.fromkeys(events))`: each event where it comes first. -/
def dedupEvents (events : List String) : List String := events.reverse.dedup.reverse

/-- The transaction of `update_notify_on`, for events that are known. -/
def setNotifyOn (s : TelegramStore) (userId : ℕ) (events : List String) : TelegramStore :=
  { s with
    configs := s.configs.modify userId (fun c => { c with notifyOn := dedupEvents events })
      fun _ => rfl }

/-- The transaction of `disconnect`. -/
def dropConfig (s : TelegramStore) (userId : ℕ) : TelegramStore :=
  { s with configs := s.configs.pop userId }

/-! ### What passes -/

theorem isEnabled_of_safety (n : Notifier) (e : String) (henabled : n.enabled = true)
    (he : e ∈ alwaysOnEvents) : n.isEnabled e = true := by
  rw [Notifier.isEnabled, henabled, if_neg (by decide), if_pos he]

/-- A connected user gets every safety alert. -/
theorem passes_of_safety (n : Notifier) (a : Alert) (henabled : n.enabled = true)
    (ha : a.safety = true) : n.passes a = true := by
  cases a <;> first
    | exact henabled
    | (obtain ⟨e, he, halways⟩ := List.any_eq_true.mp ha
       exact List.any_eq_true.mpr ⟨e, he, isEnabled_of_safety n e henabled (of_decide_eq_true halways)⟩)

theorem enabled_of_isEnabled (n : Notifier) (e : String) (h : n.isEnabled e = true) :
    n.enabled = true := by
  cases henabled : n.enabled with
  | true => rfl
  | false => rw [Notifier.isEnabled, henabled, if_pos (by decide)] at h; cases h

theorem enabled_of_passes (n : Notifier) (a : Alert) (h : n.passes a = true) : n.enabled = true := by
  cases a <;> first
    | exact h
    | (obtain ⟨e, _, he⟩ := List.any_eq_true.mp h
       exact enabled_of_isEnabled n e he)

/-- Nothing else is sent than what the preferences name. -/
theorem named_of_passes (n : Notifier) (a : Alert) (events : List String)
    (hpreferences : n.notifyOn = some events) (h : n.passes a = true) (ha : a.safety = false) :
    ∃ e ∈ a.events, e ∈ events := by
  have hany : a.events.any n.isEnabled = true := by
    cases a <;> first
      | exact h
      | cases ha
  obtain ⟨e, he, henabled⟩ := List.any_eq_true.mp hany
  have hnot : e ∉ alwaysOnEvents := by
    intro halways
    have hsafe : a.safety = true := by
      cases a <;> first
        | exact List.any_eq_true.mpr ⟨e, he, decide_eq_true halways⟩
        | cases ha
    rw [hsafe] at ha
    cases ha
  have hon := enabled_of_isEnabled n e henabled
  rw [Notifier.isEnabled, hon, if_neg (by decide), if_neg hnot, hpreferences] at henabled
  exact ⟨e, he, of_decide_eq_true henabled⟩

theorem validList_default : ValidList defaultNotifyOn := ⟨by decide, by decide⟩

theorem validList_dedup (events : List String) (h : ∀ e ∈ events, e ∈ validEventTypes) :
    ValidList (dedupEvents events) :=
  ⟨fun e he => h e (List.mem_reverse.mp (List.mem_dedup.mp (List.mem_reverse.mp he))),
    List.nodup_reverse.mpr (List.nodup_dedup _)⟩

end Telegram

end Reverto
