import Mathlib.Tactic
import Reverto.Web.TelegramWebhook

/-!
# Where alerts go (web/routes/telegram_webhook.py, notifications/telegram.py)

An alert about a user's bots is posted to a chat that has presented to the webhook, with its
secret, a token that was minted for that user; and it is a safety alert or one the preferences
named when the notifier was built.
-/

namespace Reverto

namespace Telegram

open TelegramConfigStore

/-- The chat has presented a token of the user. -/
def Bound (w : World) (userId : ℕ) (chat : String) : Prop :=
  ∃ token mintedAt, LinkEvent.minted token userId mintedAt ∈ w.store.log ∧
    (chat, Command.start token) ∈ w.heard

/-- A configuration with a bound chat and a valid list of events. -/
def GoodConfig (w : World) (c : TelegramConfig) : Prop :=
  Bound w c.userId c.chatId ∧ ValidList c.notifyOn

/-- The notifier was built for a user without a configuration or with a good one. -/
def GoodNotifier (w : World) (n : Notifier) : Prop :=
  ∃ userId config notifyOn, n = Notifier.ofUser userId config notifyOn ∧
    ∀ c, config = some c → c.userId = userId ∧ GoodConfig w c

/-- A reply goes to a chat that has written, and an alert passes a notifier that was built well. -/
def GoodMessage (w : World) : Message → Prop
  | .reply chat _ => ∃ asked, (chat, asked) ∈ w.heard
  | .alert n kind => GoodNotifier w n ∧ n.passes kind = true

/-- Everything in the world can be traced to a link that was presented. -/
structure Routed (w : World) : Prop where
  inv : TelegramStore.Inv w.store
  consumers : ∀ c ∈ w.store.consumers.items, (c.chatId, Command.start c.token) ∈ w.heard
  configs : ∀ c ∈ w.store.configs.items, GoodConfig w c
  notifiers : ∀ n ∈ w.notifiers, GoodNotifier w n
  sent : ∀ m ∈ w.sent, GoodMessage w m

/-- Nothing is forgotten. -/
structure Later (w w' : World) : Prop where
  log : w.store.log ⊆ w'.store.log
  heard : w.heard ⊆ w'.heard

section

variable {w w' : World}

theorem Later.bound (h : Later w w') (userId : ℕ) (chat : String) (hb : Bound w userId chat) :
    Bound w' userId chat := by
  obtain ⟨token, mintedAt, hminted, hheard⟩ := hb
  exact ⟨token, mintedAt, h.log hminted, h.heard hheard⟩

theorem Later.config (h : Later w w') (c : TelegramConfig) (hc : GoodConfig w c) : GoodConfig w' c :=
  ⟨h.bound c.userId c.chatId hc.1, hc.2⟩

theorem Later.notifier (h : Later w w') (n : Notifier) (hn : GoodNotifier w n) :
    GoodNotifier w' n := by
  obtain ⟨userId, config, notifyOn, hn, hconfig⟩ := hn
  exact ⟨userId, config, notifyOn, hn, fun c hc => ⟨(hconfig c hc).1, h.config c (hconfig c hc).2⟩⟩

theorem Later.message (h : Later w w') (m : Message) (hm : GoodMessage w m) : GoodMessage w' m := by
  cases m with
  | reply chat text =>
    obtain ⟨asked, hasked⟩ := hm
    exact ⟨asked, h.heard hasked⟩
  | alert n kind => exact ⟨h.notifier n hm.1, hm.2⟩

/-- A change of the store alone: what is new in its tables has to be good. -/
theorem Routed.setStore (h : Routed w) (store : TelegramStore) (hinv : TelegramStore.Inv store)
    (hlog : w.store.log ⊆ store.log)
    (hconsumers : ∀ c ∈ store.consumers.items,
      c ∈ w.store.consumers.items ∨ (c.chatId, Command.start c.token) ∈ w.heard)
    (hconfigs : ∀ c ∈ store.configs.items, c ∈ w.store.configs.items ∨
      GoodConfig { w with store } c) : Routed { w with store } := by
  have hlater : Later w { w with store } := ⟨hlog, List.Subset.refl _⟩
  refine ⟨hinv, fun c hc => ?_, fun c hc => ?_, fun n hn => hlater.notifier n (h.notifiers n hn),
    fun m hm => hlater.message m (h.sent m hm)⟩
  · exact (hconsumers c hc).elim (h.consumers c) id
  · exact (hconfigs c hc).elim (fun hc => hlater.config c (h.configs c hc)) id

theorem Routed.replies (h : Routed w) (chat : String) (text : Reply) (asked : Command)
    (hasked : (chat, asked) ∈ w.heard) : Routed (w.replies chat text) := by
  refine ⟨h.inv, h.consumers, h.configs, h.notifiers, fun m hm => ?_⟩
  rcases List.mem_append.mp hm with hm | hm
  · exact h.sent m hm
  · rw [List.mem_singleton.mp hm]
    exact ⟨asked, hasked⟩

theorem Routed.hear (h : Routed w) (chat : String) (asked : Command) :
    Routed { w with heard := w.heard ++ [(chat, asked)] } := by
  have hlater : Later w { w with heard := w.heard ++ [(chat, asked)] } :=
    ⟨List.Subset.refl _, List.subset_append_left _ _⟩
  exact ⟨h.inv, fun c hc => hlater.heard (h.consumers c hc), fun c hc => hlater.config c (h.configs c hc),
    fun n hn => hlater.notifier n (h.notifiers n hn), fun m hm => hlater.message m (h.sent m hm)⟩

end

/-! ### The tables -/

section

variable {κ α : Type} [DecidableEq κ] {key : α → κ}

theorem mem_of_mem_set (d : KeyedDict key) (a x : α) (h : x ∈ (d.set a).items) :
    x = a ∨ x ∈ d.items := by
  by_cases hkey : key a ∈ d.items.map key
  · rw [KeyedDict.set_items_present d a hkey] at h
    obtain ⟨y, hy, rfl⟩ := List.mem_map.mp h
    split
    · exact Or.inl rfl
    · exact Or.inr hy
  · rw [KeyedDict.set_items_new d a ((KeyedDict.get?_eq_none_iff d _).mpr hkey)] at h
    exact (List.mem_append.mp h).symm.imp_left List.mem_singleton.mp

theorem mem_of_mem_modify (d : KeyedDict key) (k : κ) (f : α → α) (hf : ∀ a, key (f a) = key a)
    (x : α) (h : x ∈ (d.modify k f hf).items) : x ∈ d.items ∨ ∃ y ∈ d.items, x = f y := by
  obtain ⟨y, hy, rfl⟩ := List.mem_map.mp h
  split
  · exact Or.inr ⟨y, hy, rfl⟩
  · exact Or.inl hy

end

/-! ### The steps -/

section

variable {w : World}

theorem routed_link (h : Routed w) (token : String) (userId : ℕ) (now : Instant) (store : TelegramStore)
    (hstep : TelegramStore.step w.store (.mint token userId now) = some store) :
    Routed { w with store } := by
  have hinv := TelegramStore.inv_step w.store _ store h.inv hstep
  obtain ⟨_, _, rfl⟩ := TelegramStore.step_mint w.store token userId now store hstep
  exact h.setStore _ hinv (List.subset_append_left _ _) (fun c hc => Or.inl hc) fun c hc => Or.inl hc

theorem routed_cleanUp (h : Routed w) (now : Instant) (store : TelegramStore)
    (hstep : TelegramStore.step w.store (.cleanUp now) = some store) : Routed { w with store } := by
  have hinv := TelegramStore.inv_step w.store _ store h.inv hstep
  obtain ⟨_, rfl⟩ := TelegramStore.step_cleanUp w.store now store hstep
  exact h.setStore _ hinv (List.Subset.refl _) (fun c hc => Or.inl hc) fun c hc => Or.inl hc

theorem lookUp_consumers (s : TelegramStore) (thread : ℕ) (token chat : String) (now : Instant) :
    ∀ c ∈ (s.lookUp thread token chat now).consumers.items,
      c ∈ s.consumers.items ∨ (c.chatId = chat ∧ c.token = token) := by
  intro c hc
  unfold TelegramStore.lookUp at hc
  split at hc
  · exact Or.inl hc
  split at hc
  · exact Or.inl hc
  split at hc
  · exact Or.inl hc
  · rcases mem_of_mem_set _ _ _ hc with rfl | hc
    · exact Or.inr ⟨rfl, rfl⟩
    · exact Or.inl hc

theorem routed_present (h : Routed w) (thread : ℕ) (chat token : String) (now : Instant)
    (fails : Bool) (hheard : (chat, Command.start token) ∈ w.heard) (w' : World)
    (hstep : present w thread chat token now fails = some w') : Routed w' := by
  unfold present at hstep
  split at hstep
  · cases hstep
    exact h.replies chat .wentWrong (.start token) hheard
  · obtain ⟨store, hstore, rfl⟩ := Option.map_eq_some_iff.mp hstep
    have hinv := TelegramStore.inv_step w.store _ store h.inv hstore
    obtain ⟨_, rfl⟩ := TelegramStore.step_lookUp w.store thread token chat now store hstore
    obtain ⟨hconfigs, hlog⟩ :=
      TelegramStore.lookUp_frame (w.store.tickTo now) thread token chat now
    have hrouted := h.setStore ((w.store.tickTo now).lookUp thread token chat now) hinv
      (by rw [hlog]; exact List.Subset.refl _)
      (fun c hc => by
        rcases lookUp_consumers (w.store.tickTo now) thread token chat now c hc with hc | ⟨hchat, htoken⟩
        · exact Or.inl hc
        · rw [hchat, htoken]
          exact Or.inr hheard)
      (fun c hc => by
        rw [hconfigs] at hc
        exact Or.inl hc)
    split
    · exact hrouted.replies chat .expired (.start token) hheard
    · exact hrouted

theorem routed_receive (h : Routed w) (expected : String) (thread : ℕ) (secret chat : String)
    (text : Option (List Char)) (now : Instant) (fails : Bool) (w' : World)
    (hstep : receive expected w thread secret chat text now fails = some w') : Routed w' := by
  unfold receive at hstep
  split at hstep
  · cases hstep
    exact h
  · have hheard := h.hear chat (command text)
    have hlast : (chat, command text) ∈ w.heard ++ [(chat, command text)] :=
      List.mem_append_right _ (List.mem_singleton_self _)
    cases hcommand : command text with
    | ignored =>
      simp only [hcommand] at hstep
      cases hstep
      rw [hcommand] at hheard
      exact hheard
    | help =>
      simp only [hcommand] at hstep
      cases hstep
      rw [hcommand] at hheard hlast
      exact hheard.replies chat .help _ hlast
    | welcome =>
      simp only [hcommand] at hstep
      cases hstep
      rw [hcommand] at hheard hlast
      exact hheard.replies chat .welcome _ hlast
    | start token =>
      simp only [hcommand] at hstep
      rw [hcommand] at hheard hlast
      exact routed_present hheard thread chat token now fails hlast w' hstep

theorem routed_finish (h : Routed w) (thread : ℕ) (now : Instant) (fails : Bool) (w' : World)
    (hstep : finish w thread now fails = some w') : Routed w' := by
  unfold finish at hstep
  split at hstep
  · cases hstep
  · rename_i c hget
    obtain ⟨hc, _⟩ := KeyedDict.get?_mem w.store.consumers thread c hget
    have hheard := h.consumers c hc
    split at hstep
    · cases hstep
      have hpop : ∀ d ∈ (w.store.consumers.pop thread).items, d ∈ w.store.consumers.items :=
        fun d hd => (List.mem_filter.mp hd).1
      have hinv : TelegramStore.Inv { w.store with consumers := w.store.consumers.pop thread } :=
        { h.inv with consumers := fun d hd => h.inv.consumers d (hpop d hd) }
      have hrouted := h.setStore _ hinv (List.Subset.refl _) (fun d hd => Or.inl (hpop d hd))
        fun d hd => Or.inl hd
      exact hrouted.replies c.chatId .wentWrong _ hheard
    · obtain ⟨store, hstore, rfl⟩ := Option.map_eq_some_iff.mp hstep
      have hinv := TelegramStore.inv_step w.store _ store h.inv hstore
      obtain ⟨mintedAt, hminted⟩ := h.inv.consumers c hc
      obtain ⟨d, hd, _, rfl⟩ := TelegramStore.step_bind w.store thread now store hstore
      cases hget.symm.trans hd
      have hlog : w.store.log ⊆ ((w.store.tickTo now).bindChat c now).log :=
        List.subset_append_left _ _
      have hbound : Bound { w with store := (w.store.tickTo now).bindChat c now } c.userId c.chatId :=
        ⟨c.token, mintedAt, hlog hminted, hheard⟩
      have hrouted := h.setStore _ hinv hlog
        (fun d hd => Or.inl (List.mem_filter.mp hd).1) fun d hd => by
          rcases mem_of_mem_set _ _ _ hd with rfl | hd
          · refine Or.inr ⟨hbound, ?_⟩
            dsimp only
            cases hexisting : w.store.configs.get? c.userId with
            | none =>
              have hsame : (w.store.tickTo now).configs.get? c.userId = none := hexisting
              rw [hsame]
              exact validList_default
            | some existing =>
              have hsame : (w.store.tickTo now).configs.get? c.userId = some existing := hexisting
              rw [hsame]
              exact (h.configs existing (KeyedDict.get?_mem _ _ _ hexisting).1).2
          · exact Or.inl hd
      exact hrouted.replies c.chatId .connected _ hheard

theorem routed_disconnect (h : Routed w) (userId : ℕ) :
    Routed { w with store := dropConfig w.store userId } :=
  h.setStore _ { h.inv with } (List.Subset.refl _) (fun _ hc => Or.inl hc)
    fun _ hc => Or.inl (List.mem_filter.mp hc).1

theorem routed_updateNotifyOn (h : Routed w) (userId : ℕ) (events : List String)
    (hvalid : ∀ e ∈ events, e ∈ validEventTypes) :
    Routed { w with store := setNotifyOn w.store userId events } := by
  refine h.setStore _ { h.inv with } (List.Subset.refl _) (fun _ hc => Or.inl hc) fun c hc => ?_
  have hmem := mem_of_mem_modify w.store.configs userId
    (fun c => { c with notifyOn := dedupEvents events }) (fun _ => rfl) c hc
  rcases hmem with hc | ⟨d, hd, rfl⟩
  · exact Or.inl hc
  · exact Or.inr ⟨(h.configs d hd).1, validList_dedup events hvalid⟩

theorem routed_build (h : Routed w) (userId : ℕ) (notifyOn : Option (List String)) :
    Routed { w with notifiers := w.notifiers ++
      [Notifier.ofUser userId (w.store.configs.get? userId) notifyOn] } := by
  refine ⟨h.inv, h.consumers, h.configs, fun n hn => ?_, h.sent⟩
  rcases List.mem_append.mp hn with hn | hn
  · exact h.notifiers n hn
  · refine ⟨userId, _, notifyOn, List.mem_singleton.mp hn, fun c hc => ?_⟩
    obtain ⟨hmem, hkey⟩ := KeyedDict.get?_mem _ _ _ hc
    exact ⟨hkey, h.configs c hmem⟩

theorem routed_notify (h : Routed w) (n : Notifier) (kind : Alert) (hn : n ∈ w.notifiers)
    (hpasses : n.passes kind = true) : Routed { w with sent := w.sent ++ [.alert n kind] } := by
  refine ⟨h.inv, h.consumers, h.configs, h.notifiers, fun m hm => ?_⟩
  rcases List.mem_append.mp hm with hm | hm
  · exact h.sent m hm
  · rw [List.mem_singleton.mp hm]
    exact ⟨h.notifiers n hn, hpasses⟩

end

theorem routed_step (expected : String) (w : World) (l : Step) (w' : World) (h : Routed w)
    (hstep : step expected w l = some w') : Routed w' := by
  cases l with
  | link token userId now =>
    obtain ⟨store, hstore, rfl⟩ := Option.map_eq_some_iff.mp hstep
    exact routed_link h token userId now store hstore
  | webhook thread secret chat text now fails =>
    exact routed_receive h expected thread secret chat text now fails w' hstep
  | bind thread now fails => exact routed_finish h thread now fails w' hstep
  | cleanUp now =>
    obtain ⟨store, hstore, rfl⟩ := Option.map_eq_some_iff.mp hstep
    exact routed_cleanUp h now store hstore
  | disconnect userId =>
    cases hstep
    exact routed_disconnect h userId
  | updateNotifyOn userId events =>
    simp only [step] at hstep
    split at hstep
    · rename_i hvalid
      cases hstep
      exact routed_updateNotifyOn h userId events hvalid
    · cases hstep
      exact h
  | build userId notifyOn =>
    cases hstep
    exact routed_build h userId notifyOn
  | notify n kind =>
    obtain ⟨hn, hstep⟩ := Option.ite_none_right_eq_some.mp hstep
    cases hstep
    split
    · rename_i hpasses
      exact routed_notify h n kind hn hpasses
    · exact h

theorem routed_init : Routed {} where
  inv := TelegramStore.inv_new KeyedDict.empty
  consumers := fun _ hc => absurd hc List.not_mem_nil
  configs := fun _ hc => absurd hc List.not_mem_nil
  notifiers := fun _ hn => absurd hn List.not_mem_nil
  sent := fun _ hm => absurd hm List.not_mem_nil

/-- The alert comes from a notifier that was built for a user whose configuration had a bound chat and
valid preferences; it is a safety alert or one these named, or the list given instead of them. -/
def RightChat (w : World) (n : Notifier) (kind : Alert) : Prop :=
  ∃ config notifyOn, n = Notifier.ofUser config.userId (some config) notifyOn ∧
    Bound w config.userId config.chatId ∧ ValidList config.notifyOn ∧
    (kind.safety = true ∨ ∃ e ∈ kind.events, e ∈ notifyOn.getD config.notifyOn)

/-- A chat presents a token of the first user, whose bot then opens a deal. -/
def linkedSteps : List Step :=
  [.link "ab" 1 0, .webhook 0 "secret" "77" (some "/start link_ab".toList) 1 false, .bind 0 2 false,
    .build 1 none, .notify (Notifier.ofUser 1 (some ⟨1, "77", defaultNotifyOn, 1⟩) none) .entry]

/-- The world behind these steps. -/
def linkedWorld : World := (Machine.run (step "secret") {} linkedSteps).getD {}

end Telegram

end Reverto
