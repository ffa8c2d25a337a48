import Mathlib.Tactic
import Reverto.Web.FeedIsolation

/-!
# The feed catches up (web/app.py, StateBroadcaster, watch_state_files, ws_state)

The watcher stores the mtime of a state file before it reads the file, so that a write during its
iteration is seen by the next one. Once a file rests, one whole iteration leaves every socket of
the owner with the state in the file, whatever older states were still under way.
-/

namespace Reverto

namespace StateFeed

/-- The state a frame shows of a bot with this slug. -/
def Frame.about (slug : String) : Frame → Option BotState
  | .botState slug' data => if slug' = slug then some data else none
  | _ => none

/-- The last state of the bot a client was sent. -/
def lastState (slug : String) (frames : List Frame) : Option BotState :=
  (frames.filterMap (Frame.about slug)).getLast?

theorem lastState_snoc (slug : String) (frames : List Frame) (f : Frame) :
    lastState slug (frames ++ [f]) = (f.about slug).orElse fun _ => lastState slug frames := by
  rw [lastState, List.filterMap_append]
  cases h : f.about slug with
  | none => simp [h, lastState]
  | some data => simp [h]

section

variable (b : BotInfo) (file : StateFile) (s : ℕ)

/-- The frame shows the state in the file. -/
def Current (f : Frame) : Prop :=
  ∃ data, f.about b.slug = some data ∧ data.doc = visible (some file)

/-- The frame shows no other state of the bot. -/
def NotOld (f : Frame) : Prop :=
  ∀ data, f.about b.slug = some data → data.doc = visible (some file)

/-- The watcher is about to send the socket the state in the file. -/
def Pending : Stage → Prop
  | .read b' => b' = b
  | .announce f targetUserId => targetUserId = b.userId ∧ Current b file f
  | .send f targets _ => s ∈ targets ∧ Current b file f
  | _ => False

/-- The watcher holds no older state for the socket. -/
def NothingOld (userId : Option ℕ) : Stage → Prop
  | .announce f targetUserId => targetUserId = b.userId → NotOld b file f
  | .send f targets _ => s ∈ targets → userId = some b.userId → NotOld b file f
  | _ => True

/-- The handler has the bot still to show. -/
def Awaits : Handler → Prop
  | .listing => True
  | .snapshot rest _ => b ∈ rest
  | _ => False

/-- The last state the client was sent is the one in the file. -/
def UpToDate (frames : List Frame) : Prop :=
  ∃ data, lastState b.slug frames = some data ∧ data.doc = visible (some file)

/-- The watcher has not given the socket up. -/
def Kept : Stage → Prop
  | .send _ _ stale => s ∉ stale
  | _ => True

/-- The broadcaster knows the socket. -/
structure Live (w : World) : Prop where
  connected : (w.handlers s).connected = true
  client : s ∈ w.clients
  mapped : w.userMap s = some b.userId
  kept : Kept s w.watcher.stage

/-- The file rests, and what is stored about it is on its way to the socket. -/
structure Settling (w : World) : Prop where
  rests : w.files b = some file
  old : w.stateMtimes b = some file.mtime → NothingOld b file s (w.userIds s) w.watcher.stage
  served : w.stateMtimes b = some file.mtime → w.userIds s = some b.userId →
    Pending b file s w.watcher.stage ∨ Awaits b (w.handlers s) ∨ UpToDate b file (w.frames s)
  live : w.userIds s = some b.userId → Live b s w

/-- The socket whose turn it is. -/
def Stage.sendsTo : Stage → Option ℕ
  | .send _ targets _ => targets.head?
  | _ => none

/-- The bot the handler shows next. -/
def Handler.shows : Handler → Option BotInfo
  | .snapshot rest _ => rest.head?
  | _ => none

/-- A step that leaves the file alone and does not fail for the bot and the socket. -/
def Undisturbed (w : World) : Step → Prop
  | .write b' file' => b' = b → file' = w.files b
  | .connect .. => True
  | .handle t a => t = s → (w.handlers s = .listing → b ∈ a.bots) ∧
      ((w.handlers s).shows = some b → a.fails = false ∧ a.dead = false)
  | .leave t => t ≠ s
  | .watch a => (w.watcher.stage = .read b → a.fails = false) ∧
      (w.watcher.stage.sendsTo = some s → a.dead = false)

instance (w : World) (l : Step) : Decidable (Undisturbed b s w l) :=
  match l with
  | .write b' file' => inferInstanceAs (Decidable (b' = b → file' = w.files b))
  | .connect .. => .isTrue trivial
  | .handle t a => inferInstanceAs (Decidable (t = s → (w.handlers s = .listing → b ∈ a.bots) ∧
      ((w.handlers s).shows = some b → a.fails = false ∧ a.dead = false)))
  | .leave t => inferInstanceAs (Decidable (t ≠ s))
  | .watch a => inferInstanceAs (Decidable ((w.watcher.stage = .read b → a.fails = false) ∧
      (w.watcher.stage.sendsTo = some s → a.dead = false)))

end

variable {b : BotInfo} {file : StateFile} {s : ℕ} {w : World}

/-! ### The parts of a step -/

theorem UpToDate.snoc {frames : List Frame} {f : Frame} (h : UpToDate b file frames)
    (hf : NotOld b file f) : UpToDate b file (frames ++ [f]) := by
  rw [UpToDate, lastState_snoc]
  cases hf' : f.about b.slug with
  | none => exact h
  | some data => exact ⟨data, rfl, hf data hf'⟩

theorem Current.snoc {frames : List Frame} {f : Frame} (h : Current b file f) :
    UpToDate b file (frames ++ [f]) := by
  obtain ⟨data, hf, hdata⟩ := h
  rw [UpToDate, lastState_snoc, hf]
  exact ⟨data, rfl, hdata⟩

theorem Current.notOld {f : Frame} (h : Current b file f) : NotOld b file f := by
  obtain ⟨data, hf, hdata⟩ := h
  intro data' hf'
  rw [hf] at hf'
  cases hf'
  exact hdata

/-- A read of the bot itself shows the file. -/
theorem current_read (h : w.files b = some file) (a : Answer) :
    Current b file (.botState b.slug (readState b (w.files b) a)) :=
  ⟨_, if_pos rfl, by rw [readState_doc, h]⟩

/-- A read of another bot of the same user shows nothing of it. -/
theorem about_other (b' : BotInfo) (data : BotState) (hne : b' ≠ b) (huser : b'.userId = b.userId) :
    (Frame.botState b'.slug data).about b.slug = none := by
  refine if_neg fun hslug => hne ?_
  cases b
  cases b'
  simp_all

theorem notOld_other (b' : BotInfo) (data : BotState) (hne : b' ≠ b)
    (huser : b'.userId = b.userId) : NotOld b file (.botState b'.slug data) := by
  intro data' h
  rw [about_other b' data hne huser] at h
  cases h

theorem Settling.sendText (h : Settling b file s w) (t : ℕ) (f : Frame)
    (hf : t = s → w.stateMtimes b = some file.mtime → w.userIds s = some b.userId → NotOld b file f) :
    Settling b file s (w.sendText t f) where
  rests := h.rests
  old := h.old
  served hm hu := by
    have hprior := h.served hm hu
    by_cases ht : s = t
    · subst ht
      have hframes : (w.sendText s f).frames s = w.frames s ++ [f] := Function.update_self ..
      rw [hframes]
      exact hprior.imp_right fun hrest => hrest.imp_right fun hup => hup.snoc (hf rfl hm hu)
    · have hframes : (w.sendText t f).frames s = w.frames s := Function.update_of_ne ht ..
      rw [hframes]
      exact hprior
  live hu := ⟨(h.live hu).connected, (h.live hu).client, (h.live hu).mapped, (h.live hu).kept⟩

theorem Settling.setStage (h : Settling b file s w) (stage : Stage)
    (hold : w.stateMtimes b = some file.mtime → NothingOld b file s (w.userIds s) stage)
    (hpending : w.stateMtimes b = some file.mtime → w.userIds s = some b.userId →
      Pending b file s w.watcher.stage →
        Pending b file s stage ∨ Awaits b (w.handlers s) ∨ UpToDate b file (w.frames s))
    (hkept : w.userIds s = some b.userId → Kept s stage) : Settling b file s (w.setStage stage) where
  rests := h.rests
  old := hold
  served hm hu := by
    rcases h.served hm hu with hprior | hprior
    · exact hpending hm hu hprior
    · exact Or.inr hprior
  live hu := ⟨(h.live hu).connected, (h.live hu).client, (h.live hu).mapped, hkept hu⟩

/-- Between two bots the rest of the iteration does not matter. -/
theorem Settling.setRest (h : Settling b file s w) (rest : List BotInfo)
    (groups : List (ℕ × List BotInfo)) (hnext : w.watcher.stage = .next) :
    Settling b file s { w with watcher := ⟨rest, groups, .next⟩ } where
  rests := h.rests
  old _ := trivial
  served hm hu := by
    have hprior := h.served hm hu
    rw [hnext] at hprior
    exact hprior
  live hu := ⟨(h.live hu).connected, (h.live hu).client, (h.live hu).mapped, trivial⟩

theorem Settling.setHandler (h : Settling b file s w) (t : ℕ) (hd : Handler)
    (hconnected : t = s → w.userIds s = some b.userId → hd.connected = true)
    (hawaits : t = s → w.stateMtimes b = some file.mtime → w.userIds s = some b.userId →
      Awaits b (w.handlers s) → Awaits b hd ∨ UpToDate b file (w.frames s)) :
    Settling b file s (w.setHandler t hd) where
  rests := h.rests
  old := h.old
  served hm hu := by
    have hprior := h.served hm hu
    by_cases ht : s = t
    · subst ht
      have hhandler : (w.setHandler s hd).handlers s = hd := Function.update_self ..
      rw [hhandler]
      rcases hprior with hprior | hprior | hprior
      · exact Or.inl hprior
      · exact Or.inr (hawaits rfl hm hu hprior)
      · exact Or.inr (Or.inr hprior)
    · have hhandler : (w.setHandler t hd).handlers s = w.handlers s := Function.update_of_ne ht ..
      rw [hhandler]
      exact hprior
  live hu := by
    have hprior := h.live hu
    refine ⟨?_, hprior.client, hprior.mapped, hprior.kept⟩
    by_cases ht : s = t
    · subst ht
      have hhandler : (w.setHandler s hd).handlers s = hd := Function.update_self ..
      rw [hhandler]
      exact hconnected rfl hu
    · have hhandler : (w.setHandler t hd).handlers s = w.handlers s := Function.update_of_ne ht ..
      rw [hhandler]
      exact hprior.connected

theorem Settling.drop (h : Settling b file s w) (stale : List ℕ)
    (hs : w.userIds s = some b.userId → s ∉ stale) : Settling b file s (w.drop stale) where
  rests := h.rests
  old := h.old
  served := h.served
  live hu := by
    have hprior := h.live hu
    have hout := hs hu
    refine ⟨hprior.connected, ?_, ?_, hprior.kept⟩
    · exact List.mem_filter.mpr ⟨hprior.client, decide_eq_true hout⟩
    · rw [World.drop]
      exact (if_neg hout).trans hprior.mapped

/-! ### The watcher -/

theorem settling_scan (h : Settling b file s w) (b' : BotInfo) (hnext : w.watcher.stage = .next) :
    Settling b file s (scan b' w) := by
  unfold scan
  split
  · exact h
  · rename_i file' hfile
    split
    · exact h
    · refine ⟨h.rests, fun _ => trivial, fun hm hu => ?_, fun hu => ?_⟩
      · by_cases hb : b' = b
        · exact Or.inl hb
        · have hsame : w.stateMtimes b = some file.mtime := by
            rw [← hm]
            exact (Function.update_of_ne (Ne.symm hb) _ _).symm
          have hprior := h.served hsame hu
          rw [hnext] at hprior
          exact hprior.elim False.elim Or.inr
      · have hprior := h.live hu
        exact ⟨hprior.connected, hprior.client, hprior.mapped, trivial⟩

theorem settling_watchNext (h : Settling b file s w) (a : Answer) (hnext : w.watcher.stage = .next) :
    Settling b file s (watchNext a w) := by
  unfold watchNext
  split
  · exact settling_scan (h.setRest _ _ hnext) _ rfl
  · rename_i uid bots groups _ _
    have hrest := h.setRest [] groups hnext
    exact hrest.setStage (.gather uid bots []) (fun _ => trivial) (fun _ _ hp => hp.elim) fun _ => trivial
  · exact h.setRest _ _ hnext

theorem settling_gather (h : Settling b file s w) (a : Answer) (uid : ℕ) (bots : List BotInfo)
    (got : List (BotInfo × BotState)) (hstage : w.watcher.stage = .gather uid bots got) :
    Settling b file s (gatherNext uid bots got a w) := by
  have hnone : ¬ Pending b file s w.watcher.stage := by
    rw [hstage]
    exact id
  unfold gatherNext
  split
  · exact h.setStage _ (fun _ _ data hdata => by cases hdata) (fun _ _ hp => absurd hp hnone)
      fun _ => trivial
  · split
    · have hnext : Settling b file s (w.setStage .next) :=
        h.setStage .next (fun _ => trivial) (fun _ _ hp => absurd hp hnone) fun _ => trivial
      exact hnext.setRest _ _ rfl
    · split
      · exact h.setStage _ (fun _ => trivial) (fun _ _ hp => absurd hp hnone) fun _ => trivial
      · exact h

theorem settling_read (h : Settling b file s w) (a : Answer) (b' : BotInfo)
    (hstage : w.watcher.stage = .read b') (hreads : b' = b → a.fails = false) :
    Settling b file s (watchStep a w) := by
  simp only [watchStep, hstage]
  split
  · rename_i hfails
    have hb : b' ≠ b := fun hb => by
      rw [hreads hb] at hfails
      cases hfails
    refine h.setStage _ (fun _ => trivial) (fun _ _ hp => ?_) fun _ => trivial
    rw [hstage] at hp
    exact absurd hp hb
  · by_cases hb : b' = b
    · subst hb
      have hcurrent := current_read h.rests a
      exact h.setStage _ (fun _ _ => hcurrent.notOld) (fun _ _ _ => Or.inl ⟨rfl, hcurrent⟩)
        fun _ => trivial
    · refine h.setStage _ (fun _ huser => notOld_other b' _ hb huser) (fun _ _ hp => ?_)
        fun _ => trivial
      rw [hstage] at hp
      exact absurd hp hb

theorem settling_announce (h : Settling b file s w) (hw : Isolated w) (a : Answer) (f : Frame)
    (user : ℕ) (hstage : w.watcher.stage = .announce f user) :
    Settling b file s (watchStep a w) := by
  simp only [watchStep, hstage]
  have hold := h.old
  rw [hstage] at hold
  refine h.setStage _ (fun hm hs hu => ?_) (fun hm hu hp => ?_) fun _ => List.not_mem_nil
  · have hmapped := hw.mapped s user (of_decide_eq_true (List.mem_filter.mp hs).2)
    rw [hu] at hmapped
    cases hmapped
    exact hold hm rfl
  · rw [hstage] at hp
    obtain ⟨rfl, hcurrent⟩ := hp
    have hlive := h.live hu
    exact Or.inl ⟨List.mem_filter.mpr ⟨hlive.client, decide_eq_true hlive.mapped⟩, hcurrent⟩

theorem settling_send (h : Settling b file s w) (a : Answer) (f : Frame) (t : ℕ)
    (todo stale : List ℕ) (hstage : w.watcher.stage = .send f (t :: todo) stale)
    (hsends : t = s → a.dead = false) : Settling b file s (watchStep a w) := by
  have hold := h.old
  have hkept : w.userIds s = some b.userId → s ∉ stale := fun hu => by
    have hprior := (h.live hu).kept
    rwa [hstage] at hprior
  rw [hstage] at hold
  simp only [watchStep, hstage]
  split
  · rename_i hdead
    have hother : w.userIds s = some b.userId → t ≠ s := by
      rintro hu rfl
      rcases hdead with hdead | hclosed
      · rw [hsends rfl] at hdead
        cases hdead
      · have hconnected := (h.live hu).connected
        rw [hclosed] at hconnected
        cases hconnected
    refine h.setStage _ (fun hm hs hu => hold hm (List.mem_cons_of_mem t hs) hu) (fun _ hu hp => ?_)
      fun hu => ?_
    · rw [hstage] at hp
      obtain ⟨hs, hcurrent⟩ := hp
      exact Or.inl ⟨List.mem_of_ne_of_mem (hother hu).symm hs, hcurrent⟩
    · exact List.not_mem_cons_of_ne_of_not_mem (hother hu).symm (hkept hu)
  · have hsent := h.sendText t f fun ht hm hu => hold hm (ht ▸ List.mem_cons_self) hu
    refine hsent.setStage _ (fun hm hs hu => hold hm (List.mem_cons_of_mem t hs) hu) (fun _ hu hp => ?_) hkept
    have hp : Pending b file s w.watcher.stage := hp
    rw [hstage] at hp
    obtain ⟨hs, hcurrent⟩ := hp
    rcases List.mem_cons.mp hs with rfl | hs
    · have hframes : (w.sendText s f).frames s = w.frames s ++ [f] := Function.update_self ..
      rw [hframes]
      exact Or.inr (Or.inr hcurrent.snoc)
    · exact Or.inl ⟨hs, hcurrent⟩

theorem settling_watch (h : Settling b file s w) (hw : Isolated w) (a : Answer)
    (hquiet : Undisturbed b s w (.watch a)) : Settling b file s (watchStep a w) := by
  cases hstage : w.watcher.stage with
  | next =>
    simp only [watchStep, hstage]
    exact settling_watchNext h a hstage
  | read b' =>
    refine settling_read h a b' hstage fun hb => hquiet.1 ?_
    rw [hstage, hb]
  | gather uid bots got =>
    simp only [watchStep, hstage]
    exact settling_gather h a uid bots got hstage
  | announce f user => exact settling_announce h hw a f user hstage
  | send f targets stale =>
    cases targets with
    | nil =>
      simp only [watchStep, hstage]
      have hkept : w.userIds s = some b.userId → s ∉ stale := fun hu => by
        have hprior := (h.live hu).kept
        rwa [hstage] at hprior
      refine (h.drop stale hkept).setStage _ (fun _ => trivial) (fun _ _ hp => ?_) fun _ => trivial
      have hp : Pending b file s w.watcher.stage := hp
      rw [hstage] at hp
      exact absurd hp.1 List.not_mem_nil
    | cons t todo =>
      refine settling_send h a f t todo stale hstage fun ht => hquiet.2 ?_
      rw [hstage, ht]
      rfl

/-! ### The handlers -/

/-- A handler sends its client a state of another bot, a summary or a ping, or fails to. -/
theorem Settling.sendOther (h : Settling b file s w) (t : ℕ) (f : Frame) (a : Answer)
    (hf : t = s → w.userIds s = some b.userId → NotOld b file f) :
    Settling b file s (if a.dead then w else w.sendText t f) := by
  split
  · exact h
  · exact h.sendText t f fun ht _ hu => hf ht hu

theorem settling_show (h : Settling b file s w) (t : ℕ) (a : Answer) (b' : BotInfo)
    (rest : List BotInfo) (states : List BotState)
    (hhandler : w.handlers t = .snapshot (b' :: rest) states)
    (howner : t = s → w.userIds s = some b.userId → b'.userId = b.userId)
    (hshows : t = s → b' = b → a.fails = false ∧ a.dead = false) (w' : World)
    (hstep : handleStep t b'.userId a w = some w') : Settling b file s w' := by
  simp only [handleStep, hhandler] at hstep
  have hawaits : t = s → b' ≠ b → Awaits b (w.handlers s) → b ∈ rest := by
    rintro rfl hne hprior
    rw [hhandler] at hprior
    exact List.mem_of_ne_of_mem hne.symm hprior
  split at hstep
  · rename_i hfails
    cases hstep
    refine h.setHandler t _ (fun _ _ => rfl) fun ht _ _ hprior => Or.inl (hawaits ht ?_ hprior)
    intro hb
    rw [(hshows ht hb).1] at hfails
    cases hfails
  · cases hstep
    by_cases hb : b' = b
    · subst hb
      have hcurrent := current_read h.rests a
      have hsent := h.sendOther t _ a fun _ _ => hcurrent.notOld
      refine hsent.setHandler t _ (fun _ _ => rfl) fun ht _ _ _ => Or.inr ?_
      subst ht
      have hframes : (w.sendText t (.botState b'.slug (readState b' (w.files b') a))).frames t =
          w.frames t ++ [.botState b'.slug (readState b' (w.files b') a)] := Function.update_self ..
      rw [(hshows rfl rfl).2, if_neg Bool.false_ne_true, hframes]
      exact hcurrent.snoc
    · have hsent := h.sendOther t (.botState b'.slug (readState b' (w.files b') a)) a
        fun ht hu => notOld_other b' _ hb (howner ht hu)
      refine hsent.setHandler t _ (fun _ _ => rfl) fun ht _ _ hprior => Or.inl (hawaits ht hb ?_)
      have hsame : (if a.dead then w
          else w.sendText t (.botState b'.slug (readState b' (w.files b') a))).handlers = w.handlers := by
        split <;> rfl
      rwa [hsame] at hprior

theorem settling_handle (h : Settling b file s w) (hw : Isolated w) (t user : ℕ) (a : Answer)
    (huser : w.userIds t = some user) (hquiet : Undisturbed b s w (.handle t a)) (w' : World)
    (hstep : handleStep t user a w = some w') : Settling b file s w' := by
  have hown := hw.handlers t
  cases hhandler : w.handlers t with
  | idle => simp only [handleStep, hhandler] at hstep; cases hstep
  | closed => simp only [handleStep, hhandler] at hstep; cases hstep
  | listing =>
    simp only [handleStep, hhandler] at hstep
    cases hstep
    refine h.setHandler t _ (fun _ _ => rfl) fun ht _ hu _ => Or.inl ?_
    subst ht
    rw [huser] at hu
    cases hu
    exact List.mem_filter.mpr ⟨(hquiet rfl).1 hhandler, decide_eq_true rfl⟩
  | snapshot rest states =>
    cases rest with
    | nil =>
      simp only [handleStep, hhandler] at hstep
      cases hstep
      have hsent := h.sendOther t (.summary (computeSummary states)) a
        fun _ _ data hdata => by cases hdata
      refine hsent.setHandler t _ (fun _ _ => rfl) fun ht _ _ hprior => ?_
      have hsame : (if a.dead then w
          else w.sendText t (.summary (computeSummary states))).handlers = w.handlers := by
        split <;> rfl
      subst ht
      rw [hsame, hhandler] at hprior
      exact absurd hprior List.not_mem_nil
    | cons b' rest =>
      rw [hhandler] at hown
      obtain ⟨user', huser', hrest, _⟩ := hown
      rw [huser] at huser'
      cases huser'
      have hb' := hrest b' List.mem_cons_self
      subst hb'
      refine settling_show h t a b' rest states hhandler (fun ht hu => ?_) (fun ht hb => ?_) w' hstep
      · subst ht
        rw [huser] at hu
        exact Option.some.inj hu
      · subst ht
        subst hb
        exact (hquiet rfl).2 (by rw [hhandler]; rfl)
  | waiting =>
    simp only [handleStep, hhandler] at hstep
    cases hstep
    exact h.sendOther t .ping a fun _ _ data hdata => by cases hdata

/-! ### The other steps -/

theorem settling_connect (h : Settling b file s w) (hw : Isolated w) (t user : ℕ)
    (hidle : w.handlers t = .idle) : Settling b file s (w.connect t user) := by
  by_cases ht : s = t
  · subst ht
    have hnone := hw.fresh s hidle
    have huser : (w.connect s user).userIds s = some user := Function.update_self ..
    have hhandler : (w.connect s user).handlers s = .listing := Function.update_self ..
    have hmapped : (w.connect s user).userMap s = some user := Function.update_self ..
    have hown := hw.stage
    -- nothing has been sent to a socket without a user
    have hout : ∀ f targets stale, w.watcher.stage = .send f targets stale →
        s ∉ targets ∧ s ∉ stale := by
      intro f targets stale hstage
      rw [hstage] at hown
      refine ⟨fun hs => ?_, fun hs => hown.2 s hs hnone⟩
      obtain ⟨u, hu, _⟩ := hown.1 s hs
      rw [hnone] at hu
      cases hu
    refine ⟨h.rests, fun hm => ?_, fun _ _ => ?_, fun hu => ?_⟩
    · have hprior := h.old hm
      change NothingOld b file s _ w.watcher.stage
      cases hstage : w.watcher.stage with
      | announce f u =>
        rw [hstage] at hprior
        exact hprior
      | send f targets stale => exact fun hs => absurd hs (hout f targets stale hstage).1
      | _ => trivial
    · rw [hhandler]
      exact Or.inr (Or.inl trivial)
    · rw [huser] at hu
      refine ⟨by rw [hhandler]; rfl, List.mem_cons_self, by rw [hmapped, hu], ?_⟩
      change Kept s w.watcher.stage
      cases hstage : w.watcher.stage with
      | send f targets stale => exact (hout f targets stale hstage).2
      | _ => trivial
  · have huser : (w.connect t user).userIds s = w.userIds s := Function.update_of_ne ht ..
    have hhandler : (w.connect t user).handlers s = w.handlers s := Function.update_of_ne ht ..
    have hmapped : (w.connect t user).userMap s = w.userMap s := Function.update_of_ne ht ..
    refine ⟨h.rests, fun hm => ?_, fun hm hu => ?_, fun hu => ?_⟩
    · rw [huser]
      exact h.old hm
    · rw [hhandler]
      rw [huser] at hu
      exact h.served hm hu
    · rw [huser] at hu
      have hprior := h.live hu
      exact ⟨by rw [hhandler]; exact hprior.connected, List.mem_cons_of_mem t hprior.client,
        by rw [hmapped]; exact hprior.mapped, hprior.kept⟩

theorem settling_write (h : Settling b file s w) (b' : BotInfo) (file' : Option StateFile)
    (hquiet : Undisturbed b s w (.write b' file')) :
    Settling b file s { w with
      files := Function.update w.files b' file', written := record b' file' ++ w.written } := by
  refine ⟨?_, h.old, h.served, fun hu => ?_⟩
  · by_cases hb : b' = b
    · subst hb
      rw [hquiet rfl, Function.update_eq_self]
      exact h.rests
    · exact (Function.update_of_ne (Ne.symm hb) _ _).trans h.rests
  · have hprior := h.live hu
    exact ⟨hprior.connected, hprior.client, hprior.mapped, hprior.kept⟩

theorem settling_step (w : World) (l : Step) (w' : World) (h : Settling b file s w) (hw : Isolated w)
    (hquiet : Undisturbed b s w l) (hstep : step w l = some w') : Settling b file s w' := by
  cases l with
  | write b' file' =>
    cases hstep
    exact settling_write h b' file' hquiet
  | connect t payload active =>
    simp only [step] at hstep
    split at hstep
    · cases hstep
    · rename_i hidle
      have hidle := not_not.mp hidle
      split at hstep
      · cases hstep
        refine h.setHandler t .closed (fun ht hu => ?_) fun ht _ hu _ => ?_
        · subst ht
          rw [hw.fresh t hidle] at hu
          cases hu
        · subst ht
          rw [hw.fresh t hidle] at hu
          cases hu
      · cases hstep
        exact settling_connect h hw t _ hidle
  | handle t a =>
    obtain ⟨user, huser, hstep⟩ := Option.bind_eq_some_iff.mp hstep
    exact settling_handle h hw t user a huser hquiet w' hstep
  | leave t =>
    obtain ⟨_, hstep⟩ := Option.ite_none_right_eq_some.mp hstep
    cases hstep
    have hne : s ≠ t := Ne.symm hquiet
    refine (h.drop [t] fun _ => ?_).setHandler t .closed (fun ht _ => absurd ht.symm hne)
      fun ht _ _ _ => absurd ht.symm hne
    exact mt List.mem_singleton.mp hne
  | watch a =>
    cases hstep
    exact settling_watch h hw a hquiet

/-! ### A whole iteration -/

/-- The iteration comes to the bot or has stored its mtime. -/
def Scheduled (b : BotInfo) (file : StateFile) (w : World) : Prop :=
  b ∈ w.watcher.rest ∨ w.stateMtimes b = some file.mtime

theorem scheduled_scan (b' : BotInfo) (hrests : w.files b = some file)
    (h : b' = b ∨ Scheduled b file w) : Scheduled b file (scan b' w) := by
  unfold scan
  by_cases hb : b' = b
  · subst hb
    rw [hrests]
    dsimp only
    split
    · rename_i hsame
      exact Or.inr hsame
    · exact Or.inr (Function.update_self ..)
  · have hprior := h.resolve_left hb
    split
    · exact hprior
    · split
      · exact hprior
      · refine hprior.imp_right fun hm => ?_
        exact (Function.update_of_ne (Ne.symm hb) _ _).trans hm

theorem scheduled_step (w : World) (l : Step) (w' : World) (hrests : w.files b = some file)
    (h : Scheduled b file w) (hstep : step w l = some w') : Scheduled b file w' := by
  have hother : (w'.watcher = w.watcher ∧ w'.stateMtimes = w.stateMtimes) → Scheduled b file w' := by
    rintro ⟨hwatcher, hmtimes⟩
    rwa [Scheduled, hwatcher, hmtimes]
  cases l with
  | write b' file' =>
    cases hstep
    exact h
  | connect t payload active =>
    simp only [step] at hstep
    split at hstep
    · cases hstep
    · split at hstep
      · cases hstep
        exact h
      · cases hstep
        exact h
  | handle t a =>
    obtain ⟨user, _, hstep⟩ := Option.bind_eq_some_iff.mp hstep
    refine hother ?_
    unfold handleStep at hstep
    split at hstep
    · cases hstep
    · cases hstep
    · cases hstep
      exact ⟨rfl, rfl⟩
    · split at hstep
      · cases hstep
        exact ⟨rfl, rfl⟩
      · cases hstep
        dsimp only [World.setHandler]
        split <;> exact ⟨rfl, rfl⟩
    · cases hstep
      dsimp only [World.setHandler]
      split <;> exact ⟨rfl, rfl⟩
    · cases hstep
      split <;> exact ⟨rfl, rfl⟩
  | leave t =>
    obtain ⟨_, hstep⟩ := Option.ite_none_right_eq_some.mp hstep
    cases hstep
    exact h
  | watch a =>
    cases hstep
    unfold watchStep
    split
    · unfold watchNext
      split
      · rename_i b' rest heq
        refine scheduled_scan b' hrests ?_
        rcases h with h | h
        · rw [heq] at h
          exact (List.mem_cons.mp h).imp Eq.symm Or.inl
        · exact Or.inr (Or.inr h)
      · rename_i hnil hgroups
        rw [Scheduled, hnil] at h
        exact Or.inr (h.resolve_left List.not_mem_nil)
      · rename_i hnil hgroups
        rw [Scheduled, hnil] at h
        exact Or.inr (h.resolve_left List.not_mem_nil)
    · split
      · exact h
      · exact h
    · unfold gatherNext
      split
      · exact h
      · split
        · exact h
        · split
          · exact h
          · exact h
    · exact h
    · split
      · exact h
      · exact h
    · exact h

/-- Once a state file rests, an iteration of the watcher leaves every socket of its owner with the
state in the file. -/
theorem feed_catches_up (b : BotInfo) (file : StateFile) (s : ℕ) (steps before round : List Step)
    (a : Answer) (w w' w'' : World) (hreach : Machine.run step {} steps = some w)
    (hfile : w.files b = some file) (hnew : w.stateMtimes b ≠ some file.mtime)
    (hlive : w.userIds s = some b.userId → Live b s w)
    (hbefore : Machine.run step w before = some w')
    (hquiet : Machine.Guarded step (Undisturbed b s) w before) (hsleeps : w'.watcher.sleeping)
    (hbots : b ∈ a.bots) (hround : Machine.run step w' (.watch a :: round) = some w'')
    (hquietRound : Machine.Guarded step (Undisturbed b s) w' (.watch a :: round))
    (hends : w''.watcher.sleeping) (huser : w''.userIds s = some b.userId)
    (hwaits : w''.handlers s = .waiting) : UpToDate b file (w''.frames s) := by
  have hstart : Isolated w ∧ Settling b file s w :=
    ⟨isolated_run steps w hreach, hfile, fun hm => absurd hm hnew, fun hm => absurd hm hnew, hlive⟩
  have hkeep : ∀ v l v', True → Isolated v ∧ Settling b file s v → Undisturbed b s v l →
      step v l = some v' → Isolated v' ∧ Settling b file s v' := fun v l v' _ hv hl hstep =>
    ⟨isolated_step v l v' hv.1 hstep, settling_step v l v' hv.2 hv.1 hl hstep⟩
  obtain ⟨hisolated, hsettling⟩ := Machine.run_invariant step (fun _ => True) (Undisturbed b s) _ hkeep
    w w' before hstart (fun _ _ => trivial) hquiet hbefore
  obtain ⟨v, hbegin, hrest⟩ := (Machine.run_cons_eq_some step w' w'' (.watch a) round).mp hround
  have hscheduled : Scheduled b file v := by
    cases hbegin
    have hv : watchStep a w' = { w' with watcher := ⟨a.bots, botsByUser a.bots, .next⟩ } := by
      rw [Watcher.sleeping] at hsleeps
      simp only [watchStep, watchNext, hsleeps]
    rw [hv]
    exact Or.inl hbots
  have hv := hkeep w' _ v trivial ⟨hisolated, hsettling⟩ hquietRound.1 hbegin
  have hall : ∀ u l u', True → (Isolated u ∧ Settling b file s u) ∧ Scheduled b file u →
      Undisturbed b s u l → step u l = some u' →
      (Isolated u' ∧ Settling b file s u') ∧ Scheduled b file u' := fun u l u' _ hu hl hstep =>
    ⟨hkeep u l u' trivial hu.1 hl hstep, scheduled_step u l u' hu.1.2.rests hu.2 hstep⟩
  obtain ⟨⟨_, hsettled⟩, hdone⟩ := Machine.run_invariant step (fun _ => True) (Undisturbed b s) _ hall
    v w'' round ⟨hv, hscheduled⟩ (fun _ _ => trivial) (hquietRound.2 v hbegin) hrest
  rw [Watcher.sleeping] at hends
  have hm : w''.stateMtimes b = some file.mtime := by
    rw [Scheduled, hends] at hdone
    exact hdone.resolve_left List.not_mem_nil
  have hserved := hsettled.served hm huser
  rw [hends, hwaits] at hserved
  exact (hserved.resolve_left id).resolve_left id

/-- A client is connected, and the watcher holds a state that has been overwritten. -/
def overwrittenSteps : List Step :=
  [.write ⟨1, "alpha"⟩ (some ⟨10, some {}⟩), .connect 0 (some 1) fun _ => true,
    .handle 0 { bots := [⟨1, "alpha"⟩] }, .handle 0 {}, .handle 0 {},
    .watch { bots := [⟨1, "alpha"⟩] }, .watch {}, .watch {},
    .write ⟨1, "alpha"⟩ (some ⟨11, some { openDealsCount := 1 }⟩)]

/-- The steps of the watcher for one bot, from its read on, and its summary. -/
def restOfRound : List Step :=
  [.watch {}, .watch {}, .watch {}, .watch {}, .watch { bot := ⟨1, "alpha"⟩ }, .watch {}, .watch {},
    .watch {}, .watch {}]

/-- The portal behind some steps. -/
def worldAfter (w : World) (steps : List Step) : World := (Machine.run step w steps).getD {}

theorem overwritten_caughtUp : UpToDate ⟨1, "alpha"⟩ ⟨11, some { openDealsCount := 1 }⟩
    ((worldAfter (worldAfter (worldAfter {} overwrittenSteps) restOfRound)
      (.watch { bots := [⟨1, "alpha"⟩] } :: .watch {} :: .watch {} :: restOfRound)).frames 0) :=
  feed_catches_up ⟨1, "alpha"⟩ ⟨11, some { openDealsCount := 1 }⟩ 0 overwrittenSteps restOfRound
    (.watch {} :: .watch {} :: restOfRound) { bots := [⟨1, "alpha"⟩] }
    (worldAfter {} overwrittenSteps) (worldAfter (worldAfter {} overwrittenSteps) restOfRound) _
    rfl (by decide +kernel) (by decide +kernel)
    (fun _ => ⟨by decide +kernel, by decide +kernel, by decide +kernel, trivial⟩) rfl
    (by decide +kernel) rfl (by decide) rfl (by decide +kernel) rfl (by decide +kernel)
    (by decide +kernel)

end StateFeed

end Reverto
