import Mathlib.Tactic
import Reverto.Core.TelegramConfigStore

/-!
# Link tokens under interleavings (core/telegram_config_store.py)

`consume_link_token` does not look at the token's row again in the transaction that
marks it used. A run uses every token once, in time and before a newer one exactly
when each of these transactions finds the row as it was read.
-/

namespace Reverto

namespace TelegramConfigStore

namespace TelegramStore

/-! ### The history -/

theorem newest_minted (log : List LinkEvent) (token : String) (userId u : ℕ) (now : Instant) :
    newest (log ++ [.minted token userId now]) u =
      if userId = u then some (token, now) else newest log u := by
  by_cases h : userId = u
  · simp [newest, LinkEvent.mintFor, h]
  · simp [newest, LinkEvent.mintFor, h]

theorem newest_consumed (log : List LinkEvent) (token : String) (userId u : ℕ) (chatId : String)
    (now : Instant) : newest (log ++ [.consumed token userId chatId now]) u = newest log u := by
  simp [newest, LinkEvent.mintFor]

theorem mem_of_newest (log : List LinkEvent) (token : String) (userId : ℕ) (mintedAt : Instant)
    (h : newest log userId = some (token, mintedAt)) : .minted token userId mintedAt ∈ log := by
  have hmem := List.mem_of_getLast? h
  obtain ⟨e, he, hmint⟩ := List.mem_filterMap.mp hmem
  cases e with
  | consumed token' u chatId now => cases hmint
  | minted token' u now =>
    simp only [LinkEvent.mintFor, Option.ite_none_right_eq_some, Option.some.injEq,
      Prod.mk.injEq] at hmint
    obtain ⟨rfl, rfl, rfl⟩ := hmint
    exact he

theorem mints_of_mem (log : List LinkEvent) (token : String) (userId : ℕ) (now : Instant)
    (h : .minted token userId now ∈ log) : token ∈ log.filterMap LinkEvent.mints :=
  List.mem_filterMap.mpr ⟨_, h, rfl⟩

theorem mints_minted (log : List LinkEvent) (token : String) (userId : ℕ) (now : Instant) :
    (log ++ [LinkEvent.minted token userId now]).filterMap LinkEvent.mints =
      log.filterMap LinkEvent.mints ++ [token] := by
  simp [LinkEvent.mints]

theorem consumes_minted (log : List LinkEvent) (token : String) (userId : ℕ) (now : Instant) :
    (log ++ [LinkEvent.minted token userId now]).filterMap LinkEvent.consumes =
      log.filterMap LinkEvent.consumes := by
  simp [LinkEvent.consumes]

theorem mints_consumed (log : List LinkEvent) (token : String) (userId : ℕ) (chatId : String)
    (now : Instant) : (log ++ [LinkEvent.consumed token userId chatId now]).filterMap LinkEvent.mints =
      log.filterMap LinkEvent.mints := by
  simp [LinkEvent.mints]

theorem consumes_consumed (log : List LinkEvent) (token : String) (userId : ℕ) (chatId : String)
    (now : Instant) : (log ++ [LinkEvent.consumed token userId chatId now]).filterMap LinkEvent.consumes =
      log.filterMap LinkEvent.consumes ++ [token] := by
  simp [LinkEvent.consumes]

/-- A token is minted for one user. -/
theorem mints_unique (log : List LinkEvent) (h : (log.filterMap LinkEvent.mints).Nodup)
    (token : String) (u u' : ℕ) (t t' : Instant) (hm : .minted token u t ∈ log)
    (hm' : .minted token u' t' ∈ log) : u = u' ∧ t = t' := by
  induction log with
  | nil => cases hm
  | cons e log ih =>
    rw [List.filterMap_cons] at h
    cases he : e.mints with
    | none =>
      rw [he] at h
      have hne : ∀ v s, (.minted token v s : LinkEvent) ≠ e := by
        intro v s heq
        rw [← heq] at he
        cases he
      exact ih h ((List.mem_cons.mp hm).resolve_left (hne u t))
        ((List.mem_cons.mp hm').resolve_left (hne u' t'))
    | some minted =>
      rw [he] at h
      obtain ⟨hfresh, hrest⟩ := List.nodup_cons.mp h
      rcases List.mem_cons.mp hm with rfl | hm
      · rcases List.mem_cons.mp hm' with heq | hm'
        · cases heq
          exact ⟨rfl, rfl⟩
        · cases he
          exact absurd (mints_of_mem log _ _ _ hm') hfresh
      · rcases List.mem_cons.mp hm' with heq | hm'
        · rw [← heq] at he
          cases he
          exact absurd (mints_of_mem log _ _ _ hm) hfresh
        · exact ih hrest hm hm'

/-- One more event. -/
theorem singleUse_concat (log : List LinkEvent) (e : LinkEvent) :
    SingleUse (log ++ [e]) ↔ SingleUse log ∧ ∀ token userId chatId now,
      e = .consumed token userId chatId now → Consumable log token userId now := by
  constructor
  · intro h
    refine ⟨fun before token userId chatId now after hlog => ?_, fun token userId chatId now he => ?_⟩
    · exact h before token userId chatId now (after ++ [e]) (by simp [hlog])
    · exact h log token userId chatId now [] (by rw [he])
  · rintro ⟨hlog, he⟩ before token userId chatId now after heq
    rcases List.eq_nil_or_concat after with rfl | ⟨after', last, rfl⟩
    · obtain ⟨rfl, hlast⟩ := List.append_inj' heq rfl
      exact he token userId chatId now (List.cons.inj hlast).1
    · refine hlog before token userId chatId now after' ?_
      have heq' : log ++ [e] = (before ++ .consumed token userId chatId now :: after') ++ [last] := by
        rw [heq, List.append_assoc, List.cons_append, List.concat_eq_append]
      exact (List.append_inj' heq' rfl).1

theorem singleUse_minted (log : List LinkEvent) (token : String) (userId : ℕ) (now : Instant) :
    SingleUse (log ++ [.minted token userId now]) ↔ SingleUse log := by
  rw [singleUse_concat]
  exact ⟨And.left, fun h => ⟨h, fun _ _ _ _ he => by cases he⟩⟩

theorem singleUse_consumed (log : List LinkEvent) (token : String) (userId : ℕ) (chatId : String)
    (now : Instant) : SingleUse (log ++ [.consumed token userId chatId now]) ↔
      SingleUse log ∧ Consumable log token userId now := by
  rw [singleUse_concat]
  constructor
  · rintro ⟨hlog, he⟩
    exact ⟨hlog, he token userId chatId now rfl⟩
  · rintro ⟨hlog, hc⟩
    refine ⟨hlog, fun token' userId' chatId' now' he => ?_⟩
    cases he
    exact hc

/-! ### What the tables say of the history -/

/-- The rows, the calls and the clock agree with what was done. -/
structure Inv (s : TelegramStore) : Prop where
  unique : (s.log.filterMap LinkEvent.mints).Nodup
  owner : ∀ r ∈ s.tokens.items, .minted r.token r.userId r.createdAt ∈ s.log
  expires : ∀ r ∈ s.tokens.items, r.expiresAt = r.createdAt + linkTokenTtl
  unused : ∀ r ∈ s.tokens.items, r.usedAt = none →
    newest s.log r.userId = some (r.token, r.createdAt) ∧
      r.token ∉ s.log.filterMap LinkEvent.consumes
  used : ∀ r ∈ s.tokens.items, r.usedAt ≠ none → r.token ∈ s.log.filterMap LinkEvent.consumes
  gone : ∀ userId token mintedAt, newest s.log userId = some (token, mintedAt) →
    (∃ r ∈ s.tokens.items, r.token = token ∧ r.createdAt = mintedAt) ∨
      mintedAt + linkTokenTtl ≤ s.clock
  consumers : ∀ c ∈ s.consumers.items, ∃ mintedAt, .minted c.token c.userId mintedAt ∈ s.log
  consumed : ∀ token ∈ s.log.filterMap LinkEvent.consumes,
    token ∈ s.log.filterMap LinkEvent.mints

theorem inv_new (configs : KeyedDict TelegramConfig.userId) : Inv { configs := configs } where
  unique := List.nodup_nil
  owner := fun r hr => absurd hr List.not_mem_nil
  expires := fun r hr => absurd hr List.not_mem_nil
  unused := fun r hr => absurd hr List.not_mem_nil
  used := fun r hr => absurd hr List.not_mem_nil
  gone := fun _ _ _ h => by cases h
  consumers := fun c hc => absurd hc List.not_mem_nil
  consumed := fun token h => absurd h List.not_mem_nil

theorem inv_tickTo (s : TelegramStore) (now : Instant) (h : Inv s) (hclock : s.clock ≤ now) :
    Inv (s.tickTo now) where
  unique := h.unique
  owner := h.owner
  expires := h.expires
  unused := h.unused
  used := h.used
  gone := fun userId token mintedAt hn => (h.gone userId token mintedAt hn).imp id hclock.trans'
  consumers := h.consumers
  consumed := h.consumed

/-- The rows that `create_link_token` leaves. -/
def kept (s : TelegramStore) (userId : ℕ) : KeyedDict LinkToken.token :=
  s.tokens.filter fun r => !decide (r.userId = userId ∧ r.usedAt = none)

theorem mem_kept (s : TelegramStore) (userId : ℕ) (r : LinkToken) :
    r ∈ (s.kept userId).items ↔ r ∈ s.tokens.items ∧ ¬ (r.userId = userId ∧ r.usedAt = none) := by
  rw [kept, KeyedDict.filter_items, List.mem_filter, Bool.not_eq_true', decide_eq_false_iff_not]

theorem mint_items (s : TelegramStore) (token : String) (userId : ℕ) (now : Instant) (h : Inv s)
    (hfresh : token ∉ s.log.filterMap LinkEvent.mints) :
    (s.mint token userId now).tokens.items =
      (s.kept userId).items ++ [⟨token, userId, now, now + linkTokenTtl, none⟩] := by
  refine KeyedDict.set_items_new (s.kept userId) ⟨token, userId, now, now + linkTokenTtl, none⟩ ?_
  refine (KeyedDict.get?_eq_none_iff _ _).mpr fun hmem => ?_
  obtain ⟨r, hr, hrt⟩ := List.mem_map.mp hmem
  have hminted := mints_of_mem _ _ _ _ (h.owner r ((mem_kept s userId r).mp hr).1)
  have hrt' : r.token = token := hrt
  exact hfresh (hrt' ▸ hminted)

theorem inv_mint (s : TelegramStore) (token : String) (userId : ℕ) (h : Inv s)
    (hfresh : token ∉ s.log.filterMap LinkEvent.mints) : Inv (s.mint token userId s.clock) := by
  have hitems := mint_items s token userId s.clock h hfresh
  have hlog : (s.mint token userId s.clock).log = s.log ++ [.minted token userId s.clock] := rfl
  have hrow : ∀ r ∈ (s.mint token userId s.clock).tokens.items,
      (r ∈ s.tokens.items ∧ ¬ (r.userId = userId ∧ r.usedAt = none)) ∨
        r = ⟨token, userId, s.clock, s.clock + linkTokenTtl, none⟩ := by
    intro r hr
    rw [hitems] at hr
    exact (List.mem_append.mp hr).imp (mem_kept s userId r).mp List.mem_singleton.mp
  refine ⟨?_, fun r hr => ?_, fun r hr => ?_, fun r hr hu => ?_, fun r hr hu => ?_,
    fun u t m hn => ?_, fun c hc => ?_, fun t ht => ?_⟩
  · rw [hlog, mints_minted, List.nodup_append]
    refine ⟨h.unique, List.nodup_singleton _, fun x hx y hy hxy => ?_⟩
    rw [List.mem_singleton] at hy
    exact hfresh (hy ▸ hxy ▸ hx)
  · rw [hlog]
    rcases hrow r hr with ⟨hr, _⟩ | rfl
    · exact List.mem_append_left _ (h.owner r hr)
    · exact List.mem_append_right _ (List.mem_singleton_self _)
  · rcases hrow r hr with ⟨hr, _⟩ | rfl
    · exact h.expires r hr
    · rfl
  · rw [hlog, newest_minted, consumes_minted]
    rcases hrow r hr with ⟨hr, hother⟩ | rfl
    · have huser : ¬ userId = r.userId := fun heq => hother ⟨heq.symm, hu⟩
      rw [if_neg huser]
      exact h.unused r hr hu
    · exact ⟨if_pos rfl, fun hmem => hfresh (h.consumed token hmem)⟩
  · rw [hlog, consumes_minted]
    rcases hrow r hr with ⟨hr, _⟩ | rfl
    · exact h.used r hr hu
    · exact absurd rfl hu
  · rw [hlog, newest_minted] at hn
    rw [hitems]
    by_cases huser : userId = u
    · rw [if_pos huser] at hn
      cases hn
      exact Or.inl ⟨_, List.mem_append_right _ (List.mem_singleton_self _), rfl, rfl⟩
    · rw [if_neg huser] at hn
      refine (h.gone u t m hn).imp ?_ id
      rintro ⟨r, hr, rfl, rfl⟩
      obtain ⟨hu, _⟩ := mints_unique _ h.unique _ _ _ _ _ (h.owner r hr) (mem_of_newest _ _ _ _ hn)
      refine ⟨r, List.mem_append_left _ ((mem_kept s userId r).mpr ⟨hr, fun hdrop => ?_⟩), rfl, rfl⟩
      exact huser (hdrop.1.symm.trans hu)
  · obtain ⟨m, hm⟩ := h.consumers c hc
    exact ⟨m, List.mem_append_left _ hm⟩
  · rw [hlog, consumes_minted] at ht
    rw [hlog, mints_minted]
    exact List.mem_append_left _ (h.consumed t ht)

theorem inv_lookUp (s : TelegramStore) (thread : ℕ) (token chatId : String) (now : Instant)
    (h : Inv s) : Inv (s.lookUp thread token chatId now) := by
  unfold lookUp
  cases hget : s.tokens.get? token with
  | none => exact h
  | some row =>
    obtain ⟨hrow, hkey⟩ := KeyedDict.get?_mem s.tokens token row hget
    dsimp only
    split
    · exact h
    split
    · exact h
    · refine ⟨h.unique, h.owner, h.expires, h.unused, h.used, h.gone, fun c hc => ?_, h.consumed⟩
      have hget' := KeyedDict.get?_of_mem _ c hc
      by_cases hthread : c.thread = thread
      · have hset := KeyedDict.get?_set_self s.consumers ⟨thread, token, row.userId, chatId, now⟩
        rw [hthread] at hget'
        cases hget'.symm.trans hset
        exact ⟨row.createdAt, hkey ▸ h.owner row hrow⟩
      · have hset := KeyedDict.get?_set_of_ne s.consumers ⟨thread, token, row.userId, chatId, now⟩
          c.thread hthread
        rw [hset] at hget'
        exact h.consumers c (KeyedDict.get?_mem s.consumers c.thread c hget').1

theorem inv_bindChat (s : TelegramStore) (c : Consumer) (now : Instant) (h : Inv s)
    (hc : c ∈ s.consumers.items) : Inv (s.bindChat c now) := by
  have hlog : (s.bindChat c now).log = s.log ++ [.consumed c.token c.userId c.chatId now] := rfl
  have hrow : ∀ r' ∈ (s.bindChat c now).tokens.items, ∃ r ∈ s.tokens.items,
      r'.token = r.token ∧ r'.userId = r.userId ∧ r'.createdAt = r.createdAt ∧
        r'.expiresAt = r.expiresAt ∧
        (r.token = c.token ∧ r'.usedAt = some c.now ∨ r.token ≠ c.token ∧ r'.usedAt = r.usedAt) := by
    intro r' hr'
    obtain ⟨r, hr, rfl⟩ := List.mem_map.mp hr'
    refine ⟨r, hr, ?_⟩
    by_cases htoken : r.token = c.token
    · simp [htoken]
    · simp [htoken]
  refine ⟨?_, fun r' hr' => ?_, fun r' hr' => ?_, fun r' hr' hu => ?_, fun r' hr' hu => ?_,
    fun u t m hn => ?_, fun d hd => ?_, fun t ht => ?_⟩
  · rw [hlog, mints_consumed]
    exact h.unique
  · obtain ⟨r, hr, htoken, huser, hcreated, _⟩ := hrow r' hr'
    rw [hlog, htoken, huser, hcreated]
    exact List.mem_append_left _ (h.owner r hr)
  · obtain ⟨r, hr, _, _, hcreated, hexpires, _⟩ := hrow r' hr'
    rw [hcreated, hexpires]
    exact h.expires r hr
  · obtain ⟨r, hr, htoken, huser, hcreated, _, hcase⟩ := hrow r' hr'
    rcases hcase with ⟨_, hused⟩ | ⟨hne, hsame⟩
    · exact absurd hu (by rw [hused]; exact Option.some_ne_none _)
    · obtain ⟨hnewest, hnot⟩ := h.unused r hr (hsame.symm.trans hu)
      rw [hlog, newest_consumed, consumes_consumed, htoken, huser, hcreated]
      refine ⟨hnewest, fun hmem => ?_⟩
      rcases List.mem_append.mp hmem with hmem | hmem
      · exact hnot hmem
      · exact hne (List.mem_singleton.mp hmem)
  · obtain ⟨r, hr, htoken, _, _, _, hcase⟩ := hrow r' hr'
    rw [hlog, consumes_consumed, htoken]
    rcases hcase with ⟨heq, _⟩ | ⟨_, hsame⟩
    · exact List.mem_append_right _ (List.mem_singleton.mpr heq)
    · exact List.mem_append_left _ (h.used r hr (hsame ▸ hu))
  · rw [hlog, newest_consumed] at hn
    refine (h.gone u t m hn).imp ?_ id
    rintro ⟨r, hr, rfl, rfl⟩
    refine ⟨_, List.mem_map_of_mem hr, ?_, ?_⟩
    · split
      · rfl
      · rfl
    · split
      · rfl
      · rfl
  · have hd' : d ∈ s.consumers.items := by
      rw [show (s.bindChat c now).consumers.items = _ from KeyedDict.pop_items _ _] at hd
      exact (List.mem_filter.mp hd).1
    obtain ⟨m, hm⟩ := h.consumers d hd'
    exact ⟨m, List.mem_append_left _ hm⟩
  · rw [hlog, consumes_consumed] at ht
    rw [hlog, mints_consumed]
    rcases List.mem_append.mp ht with ht | ht
    · exact h.consumed t ht
    · obtain ⟨m, hm⟩ := h.consumers c hc
      rw [List.mem_singleton.mp ht]
      exact mints_of_mem _ _ _ _ hm

theorem inv_cleanUp (s : TelegramStore) (h : Inv s) : Inv (s.cleanUp s.clock) := by
  have hmem : ∀ r ∈ (s.cleanUp s.clock).tokens.items, r ∈ s.tokens.items := by
    intro r hr
    exact (List.mem_filter.mp hr).1
  refine ⟨h.unique, fun r hr => h.owner r (hmem r hr), fun r hr => h.expires r (hmem r hr),
    fun r hr => h.unused r (hmem r hr), fun r hr => h.used r (hmem r hr), fun u t m hn => ?_,
    h.consumers, h.consumed⟩
  rcases h.gone u t m hn with ⟨r, hr, rfl, rfl⟩ | hexpired
  · by_cases hdrop : datetime r.expiresAt < datetime s.clock
    · right
      have hlt : r.expiresAt < s.clock := by
        by_contra hle
        have hmono : datetime s.clock ≤ datetime r.expiresAt :=
          Int.ediv_le_ediv (by norm_num) (add_le_add_left (not_lt.mp hle) 500)
        exact absurd hdrop (not_lt.mpr hmono)
      rw [← h.expires r hr]
      exact hlt.le
    · refine Or.inl ⟨r, List.mem_filter.mpr ⟨hr, ?_⟩, rfl, rfl⟩
      simp [hdrop]
  · exact Or.inr hexpired

theorem step_mint (s : TelegramStore) (token : String) (userId : ℕ) (now : Instant)
    (t : TelegramStore) (h : step s (.mint token userId now) = some t) :
    s.clock ≤ now ∧ token ∉ s.log.filterMap LinkEvent.mints ∧
      t = (s.tickTo now).mint token userId now := by
  obtain ⟨⟨hclock, hfresh⟩, heq⟩ := Option.ite_none_right_eq_some.mp h
  exact ⟨hclock, hfresh, (Option.some.inj heq).symm⟩

theorem step_lookUp (s : TelegramStore) (thread : ℕ) (token chatId : String) (now : Instant)
    (t : TelegramStore) (h : step s (.lookUp thread token chatId now) = some t) :
    s.clock ≤ now ∧ t = (s.tickTo now).lookUp thread token chatId now := by
  obtain ⟨⟨hclock, _⟩, heq⟩ := Option.ite_none_right_eq_some.mp h
  exact ⟨hclock, (Option.some.inj heq).symm⟩

theorem step_bind (s : TelegramStore) (thread : ℕ) (now : Instant) (t : TelegramStore)
    (h : step s (.bind thread now) = some t) :
    ∃ c, s.consumers.get? thread = some c ∧ s.clock ≤ now ∧ t = (s.tickTo now).bindChat c now := by
  unfold step at h
  cases hget : s.consumers.get? thread with
  | none => simp [hget] at h
  | some c =>
    simp only [hget] at h
    obtain ⟨hclock, heq⟩ := Option.ite_none_right_eq_some.mp h
    exact ⟨c, rfl, hclock, (Option.some.inj heq).symm⟩

theorem step_cleanUp (s : TelegramStore) (now : Instant) (t : TelegramStore)
    (h : step s (.cleanUp now) = some t) : s.clock ≤ now ∧ t = (s.tickTo now).cleanUp now := by
  obtain ⟨hclock, heq⟩ := Option.ite_none_right_eq_some.mp h
  exact ⟨hclock, (Option.some.inj heq).symm⟩

theorem inv_step (s : TelegramStore) (l : LinkStep) (t : TelegramStore) (h : Inv s)
    (hstep : step s l = some t) : Inv t := by
  cases l with
  | mint token userId now =>
    obtain ⟨hclock, hfresh, rfl⟩ := step_mint s token userId now t hstep
    exact inv_mint (s.tickTo now) token userId (inv_tickTo s now h hclock) hfresh
  | lookUp thread token chatId now =>
    obtain ⟨hclock, rfl⟩ := step_lookUp s thread token chatId now t hstep
    exact inv_lookUp (s.tickTo now) thread token chatId now (inv_tickTo s now h hclock)
  | bind thread now =>
    obtain ⟨c, hget, hclock, rfl⟩ := step_bind s thread now t hstep
    exact inv_bindChat (s.tickTo now) c now (inv_tickTo s now h hclock)
      (KeyedDict.get?_mem s.consumers thread c hget).1
  | cleanUp now =>
    obtain ⟨hclock, rfl⟩ := step_cleanUp s now t hstep
    exact inv_cleanUp (s.tickTo now) (inv_tickTo s now h hclock)

/-- Reading a row changes neither the configurations nor what was done. -/
theorem lookUp_frame (s : TelegramStore) (thread : ℕ) (token chatId : String) (now : Instant) :
    (s.lookUp thread token chatId now).configs = s.configs ∧
      (s.lookUp thread token chatId now).log = s.log := by
  unfold lookUp
  split
  · exact ⟨rfl, rfl⟩
  split
  · exact ⟨rfl, rfl⟩
  split
  · exact ⟨rfl, rfl⟩
  · exact ⟨rfl, rfl⟩

/-! ### Configurations -/

theorem configsKept_step (s : TelegramStore) (l : LinkStep) (t : TelegramStore) (h : Inv s)
    (hstep : step s l = some t) : ConfigsKept s t l := by
  cases l with
  | mint token userId now =>
    obtain ⟨_, _, rfl⟩ := step_mint s token userId now t hstep
    rfl
  | lookUp thread token chatId now =>
    obtain ⟨_, rfl⟩ := step_lookUp s thread token chatId now t hstep
    exact (lookUp_frame (s.tickTo now) thread token chatId now).1
  | bind thread now =>
    intro c hget
    obtain ⟨c', hget', _, rfl⟩ := step_bind s thread now t hstep
    cases hget.symm.trans hget'
    refine ⟨h.consumers c (KeyedDict.get?_mem s.consumers thread c hget).1, fun u hne => ?_,
      _, KeyedDict.get?_set_self _ _, rfl, fun existing hexisting => ?_⟩
    · exact KeyedDict.get?_set_of_ne _ _ _ hne
    · simp only [tickTo, hexisting]
  | cleanUp now =>
    obtain ⟨_, rfl⟩ := step_cleanUp s now t hstep
    rfl

/-! ### Single use -/

/-- A transaction that finds the row as it was read consumes a token that may be. -/
theorem consumable_iff (s : TelegramStore) (c : Consumer) (now : Instant) (h : Inv s)
    (hclock : s.clock ≤ now) (hc : c ∈ s.consumers.items) :
    Consumable s.log c.token c.userId now ↔
      ∃ row, s.tokens.get? c.token = some row ∧ row.usedAt = none ∧ now < row.expiresAt := by
  constructor
  · rintro ⟨mintedAt, hnewest, hlt, hnot⟩
    rcases h.gone c.userId c.token mintedAt hnewest with ⟨r, hr, htoken, hcreated⟩ | hexpired
    · refine ⟨r, htoken ▸ KeyedDict.get?_of_mem s.tokens r hr, ?_, ?_⟩
      · by_contra hused
        exact hnot (htoken ▸ h.used r hr hused)
      · rw [h.expires r hr, hcreated]
        exact hlt
    · exact absurd (hexpired.trans hclock) (not_le.mpr hlt)
  · rintro ⟨row, hget, hunused, hlt⟩
    obtain ⟨hrow, htoken⟩ := KeyedDict.get?_mem s.tokens c.token row hget
    obtain ⟨mintedAt, hminted⟩ := h.consumers c hc
    have howner := h.owner row hrow
    rw [htoken] at howner
    obtain ⟨huser, _⟩ := mints_unique _ h.unique _ _ _ _ _ howner hminted
    obtain ⟨hnewest, hnot⟩ := h.unused row hrow hunused
    rw [htoken, huser] at hnewest
    rw [htoken] at hnot
    rw [h.expires row hrow] at hlt
    exact ⟨row.createdAt, hnewest, hlt, hnot⟩

/-- What a step adds to the history. -/
theorem singleUse_step (s : TelegramStore) (l : LinkStep) (t : TelegramStore) (h : Inv s)
    (hstep : step s l = some t) : SingleUse t.log ↔ SingleUse s.log ∧ StillValid s l := by
  cases l with
  | mint token userId now =>
    obtain ⟨_, _, rfl⟩ := step_mint s token userId now t hstep
    exact (singleUse_minted s.log token userId now).trans (and_iff_left trivial).symm
  | lookUp thread token chatId now =>
    obtain ⟨_, rfl⟩ := step_lookUp s thread token chatId now t hstep
    rw [(lookUp_frame (s.tickTo now) thread token chatId now).2]
    exact (and_iff_left trivial).symm
  | bind thread now =>
    obtain ⟨c, hget, hclock, rfl⟩ := step_bind s thread now t hstep
    have hvalid : StillValid s (.bind thread now) ↔ Consumable s.log c.token c.userId now := by
      rw [consumable_iff s c now h hclock (KeyedDict.get?_mem s.consumers thread c hget).1]
      constructor
      · intro hv
        exact hv c hget
      · intro hrow d hd
        cases hget.symm.trans hd
        exact hrow
    rw [hvalid]
    exact singleUse_consumed s.log c.token c.userId c.chatId now
  | cleanUp now =>
    obtain ⟨_, rfl⟩ := step_cleanUp s now t hstep
    exact (and_iff_left trivial).symm

/-- The history of a run holds those of its states. -/
theorem singleUse_throughout (configs : KeyedDict TelegramConfig.userId) (ls : List LinkStep)
    (s : TelegramStore) (hrun : Machine.run step { configs := configs } ls = some s) :
    SingleUse s.log ↔
      Machine.Throughout step (fun t => Inv t → SingleUse t.log) { configs := configs } ls := by
  have hinv : Inv s := Machine.run_keeps step Inv inv_step _ s ls (inv_new configs) hrun
  constructor
  · intro h
    refine Machine.throughout_of_last step _ (fun a l b hstep hb ha => ?_) _ s ls hrun fun _ => h
    exact ((singleUse_step a l b ha hstep).mp (hb (inv_step a l b ha hstep))).1
  · intro h
    exact Machine.throughout_last step _ _ s ls hrun h hinv

/-- Every token is consumed once, in time and before a newer one exactly in the runs whose
transactions find each token's row as it was read; whatever the interleaving, a consume
changes the configuration of the token's user alone and keeps its events. -/
theorem singleUse_run (configs : KeyedDict TelegramConfig.userId) (ls : List LinkStep)
    (s : TelegramStore) (hrun : Machine.run step { configs := configs } ls = some s) :
    (SingleUse s.log ↔ Machine.Guarded step StillValid { configs := configs } ls) ∧
      ∀ l t, step s l = some t → ConfigsKept s t l := by
  have hinv : Inv s := Machine.run_keeps step Inv inv_step _ s ls (inv_new configs) hrun
  refine ⟨?_, fun l t => configsKept_step s l t hinv⟩
  rw [singleUse_throughout configs ls s hrun]
  symm
  refine Machine.guarded_iff_throughout step (fun _ => True) StillValid
    (fun s => Inv s ∧ SingleUse s.log) (fun t => Inv t → SingleUse t.log) (fun a l b _ h hvalid hstep => ?_) (fun a h _ => h.2)
    (fun a l b _ h hnot hstep hb => ?_) _ s ls ⟨inv_new configs, fun _ _ _ _ _ _ h => ?_⟩
    (fun _ _ => trivial) hrun
  · exact ⟨inv_step a l b h.1 hstep, (singleUse_step a l b h.1 hstep).mpr ⟨h.2, hvalid⟩⟩
  · exact hnot ((singleUse_step a l b h.1 hstep).mp (hb (inv_step a l b h.1 hstep))).2
  · simp at h

instance (s : TelegramStore) (l : LinkStep) : Decidable (StillValid s l) :=
  match l with
  | .bind thread now =>
    match hget : s.consumers.get? thread with
    | none => .isTrue fun c hc => by rw [hget] at hc; cases hc
    | some c =>
      match hrow : s.tokens.get? c.token with
      | none => .isFalse fun h => by
          obtain ⟨row, hsome, _⟩ := h c hget
          rw [hrow] at hsome
          cases hsome
      | some row =>
        decidable_of_iff (row.usedAt = none ∧ now < row.expiresAt) (by
          constructor
          · intro h d hd
            cases hget.symm.trans hd
            exact ⟨row, hrow, h⟩
          · intro h
            obtain ⟨row', hsome, hvalid⟩ := h c hget
            cases hrow.symm.trans hsome
            exact hvalid)
  | .mint .. => .isTrue trivial
  | .lookUp .. => .isTrue trivial
  | .cleanUp _ => .isTrue trivial

/-- A link is consumed, a second one replaces a third, and the expired rows go. -/
def relink : List LinkStep :=
  [.mint "first" 1 0, .lookUp 1 "first" "chat" 1, .bind 1 2, .mint "second" 1 3, .mint "third" 1 4,
    .lookUp 1 "second" "chat" 5, .lookUp 2 "third" "other chat" 6, .bind 2 7,
    .cleanUp (2 * linkTokenTtl)]

theorem singleUse_relink : ∃ s, Machine.run step {} relink = some s ∧ SingleUse s.log := by
  obtain ⟨s, hs⟩ : ∃ s, Machine.run step {} relink = some s :=
    Option.isSome_iff_exists.mp (by decide +kernel)
  exact ⟨s, hs, (singleUse_run KeyedDict.empty relink s hs).1.mpr (by decide +kernel)⟩

/-- Two chats present one link, and both read its row before either binds. -/
def sameLink : List LinkStep :=
  [.mint "link" 1 0, .lookUp 1 "link" "chat" 1, .lookUp 2 "link" "other chat" 2, .bind 1 3,
    .bind 2 4]

theorem not_singleUse_sameLink :
    ¬ ∀ (configs : KeyedDict TelegramConfig.userId) (ls : List LinkStep) (s : TelegramStore),
      Machine.run step { configs := configs } ls = some s → SingleUse s.log := by
  intro h
  obtain ⟨s, hs⟩ : ∃ s, Machine.run step {} sameLink = some s :=
    Option.isSome_iff_exists.mp (by decide +kernel)
  have hlog : (Machine.run step {} sameLink).map TelegramStore.log =
      some [.minted "link" 1 0, .consumed "link" 1 "chat" 3, .consumed "link" 1 "other chat" 4] := by
    decide +kernel
  rw [hs] at hlog
  obtain ⟨_, _, _, hnot⟩ := h KeyedDict.empty sameLink s hs
    [.minted "link" 1 0, .consumed "link" 1 "chat" 3] "link" 1 "other chat" 4 [] (Option.some.inj hlog)
  exact hnot (by decide)

end TelegramStore

end TelegramConfigStore

end Reverto
