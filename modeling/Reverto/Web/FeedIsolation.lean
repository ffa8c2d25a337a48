import Mathlib.Tactic
import Reverto.Web.StateFeed

/-!
# No frame crosses users (web/app.py, StateBroadcaster, watch_state_files, ws_state)

Whatever interleaves, a socket gets the states of the bots of the user it was accepted for, read
from the files of those bots, and summaries over such states alone.
-/

namespace Reverto

namespace StateFeed

/-- A state read from what was written to the bot's own file. -/
def OwnState (written : List (BotInfo × StateDoc)) (user : ℕ) (data : BotState) : Prop :=
  data.botUserId = user ∧
    ∀ doc, data.doc = some doc → ((⟨user, data.botSlug⟩ : BotInfo), doc) ∈ written

/-- A frame about bots of the user alone. -/
def OwnFrame (written : List (BotInfo × StateDoc)) (user : ℕ) : Frame → Prop
  | .botState slug data => data.botSlug = slug ∧ OwnState written user data
  | .summary total => ∃ states, (∀ data ∈ states, OwnState written user data) ∧
      total = computeSummary states
  | .ping => True

/-- What the watcher holds is about the user it is for. -/
def StageOwn (written : List (BotInfo × StateDoc)) (userIds : ℕ → Option ℕ) : Stage → Prop
  | .next | .read _ => True
  | .gather uid bots got => (∀ b ∈ bots, b.userId = uid) ∧ ∀ p ∈ got, OwnState written p.1.userId p.2
  | .announce frame targetUserId => OwnFrame written targetUserId frame
  | .send frame targets stale =>
    (∀ s ∈ targets, ∃ user, userIds s = some user ∧ OwnFrame written user frame) ∧
      ∀ s ∈ stale, userIds s ≠ none

/-- What a handler holds is about its user. -/
def HandlerOwn (written : List (BotInfo × StateDoc)) (userId : Option ℕ) : Handler → Prop
  | .snapshot rest states => ∃ user, userId = some user ∧ (∀ b ∈ rest, b.userId = user) ∧
      ∀ data ∈ states, OwnState written user data
  | _ => True

/-- Everything in the portal is kept apart by users. -/
structure Isolated (w : World) : Prop where
  files : ∀ b file doc, w.files b = some file → file.doc = some doc → (b, doc) ∈ w.written
  fresh : ∀ s, w.handlers s = .idle → w.userIds s = none
  mapped : ∀ s user, w.userMap s = some user → w.userIds s = some user
  frames : ∀ s, ∀ f ∈ w.frames s, ∃ user, w.userIds s = some user ∧ OwnFrame w.written user f
  handlers : ∀ s, HandlerOwn w.written (w.userIds s) (w.handlers s)
  groups : ∀ g ∈ w.watcher.groups, ∀ b ∈ g.2, b.userId = g.1
  stage : StageOwn w.written w.userIds w.watcher.stage

theorem OwnState.mono {written written' : List (BotInfo × StateDoc)} {user : ℕ} {data : BotState}
    (hsub : written ⊆ written') (h : OwnState written user data) : OwnState written' user data :=
  ⟨h.1, fun doc hdoc => hsub (h.2 doc hdoc)⟩

theorem OwnFrame.mono {written written' : List (BotInfo × StateDoc)} {user : ℕ} {f : Frame}
    (hsub : written ⊆ written') (h : OwnFrame written user f) : OwnFrame written' user f := by
  cases f with
  | botState slug data => exact ⟨h.1, h.2.mono hsub⟩
  | summary total =>
    obtain ⟨states, hstates, htotal⟩ := h
    exact ⟨states, fun data hdata => (hstates data hdata).mono hsub, htotal⟩
  | ping => trivial

/-! ### One read -/

/-- The document a read of the file shows. -/
def visible (file : Option StateFile) : Option StateDoc :=
  (file.bind StateFile.doc).filter validates

@[simp] theorem readState_doc (b : BotInfo) (file : Option StateFile) (a : Answer) :
    (readState b file a).doc = visible file := by
  rw [readState, visible]
  cases file.bind StateFile.doc with
  | none => rfl
  | some doc =>
    by_cases hvalid : validates doc = true
    · simp only [hvalid, if_true, Option.filter]
      cases doc.exitReason a.pidAlive a.heartbeatStale <;> rfl
    · simp [hvalid, Option.filter, defaultState]

@[simp] theorem readState_botUserId (b : BotInfo) (file : Option StateFile) (a : Answer) :
    (readState b file a).botUserId = b.userId := by
  unfold readState
  split
  · rfl
  · split
    · split <;> rfl
    · rfl

@[simp] theorem readState_botSlug (b : BotInfo) (file : Option StateFile) (a : Answer) :
    (readState b file a).botSlug = b.slug := by
  unfold readState
  split
  · rfl
  · split
    · split <;> rfl
    · rfl

theorem Isolated.readState {w : World} (h : Isolated w) (b : BotInfo) (a : Answer) :
    OwnState w.written b.userId (readState b (w.files b) a) := by
  refine ⟨readState_botUserId b _ a, fun doc hdoc => ?_⟩
  rw [readState_doc] at hdoc
  have hfile := (Option.filter_eq_some_iff.mp hdoc).1
  obtain ⟨file, hfile, hdoc⟩ := Option.bind_eq_some_iff.mp hfile
  rw [readState_botSlug]
  exact h.files b file doc hfile hdoc

/-! ### The parts of a step -/

theorem Isolated.sendText {w : World} (h : Isolated w) (s user : ℕ) (f : Frame)
    (huser : w.userIds s = some user) (hown : OwnFrame w.written user f) :
    Isolated (w.sendText s f) where
  files := h.files
  fresh := h.fresh
  mapped := h.mapped
  frames t g hg := by
    by_cases ht : t = s
    · subst ht
      have hg : g ∈ w.frames t ++ [f] := by simpa [World.sendText] using hg
      rcases List.mem_append.mp hg with hg | hg
      · exact h.frames t g hg
      · rw [List.mem_singleton.mp hg]
        exact ⟨user, huser, hown⟩
    · refine h.frames t g ?_
      simpa [World.sendText, ht] using hg
  handlers := h.handlers
  groups := h.groups
  stage := h.stage

theorem Isolated.setHandler {w : World} (h : Isolated w) (s : ℕ) (hd : Handler)
    (hidle : hd ≠ .idle) (hown : HandlerOwn w.written (w.userIds s) hd) : Isolated (w.setHandler s hd) where
  files := h.files
  fresh t ht := by
    by_cases hts : t = s
    · subst hts
      exact absurd (by simpa [World.setHandler] using ht) hidle
    · refine h.fresh t ?_
      simpa [World.setHandler, hts] using ht
  mapped := h.mapped
  frames := h.frames
  handlers t := by
    by_cases hts : t = s
    · subst hts
      simpa [World.setHandler] using hown
    · simpa [World.setHandler, hts] using h.handlers t
  groups := h.groups
  stage := h.stage

theorem Isolated.drop {w : World} (h : Isolated w) (stale : List ℕ) : Isolated (w.drop stale) where
  files := h.files
  fresh := h.fresh
  mapped s user hs := by
    simp only [World.drop] at hs
    split at hs
    · cases hs
    · exact h.mapped s user hs
  frames := h.frames
  handlers := h.handlers
  groups := h.groups
  stage := h.stage

theorem Isolated.setWatcher {w : World} (h : Isolated w) (t : Watcher)
    (hgroups : ∀ g ∈ t.groups, ∀ b ∈ g.2, b.userId = g.1) (hstage : StageOwn w.written w.userIds t.stage) :
    Isolated { w with watcher := t } where
  files := h.files
  fresh := h.fresh
  mapped := h.mapped
  frames := h.frames
  handlers := h.handlers
  groups := hgroups
  stage := hstage

theorem Isolated.setStage {w : World} (h : Isolated w) (stage : Stage) (hstage : StageOwn w.written w.userIds stage) :
    Isolated (w.setStage stage) := h.setWatcher _ h.groups hstage

theorem Isolated.write {w : World} (h : Isolated w) (b : BotInfo) (file : Option StateFile) :
    Isolated { w with
      files := Function.update w.files b file, written := record b file ++ w.written } := by
  have hsub : w.written ⊆ record b file ++ w.written := List.subset_append_right _ _
  refine ⟨fun b' f doc hf hdoc => ?_, h.fresh, h.mapped, fun s f hf => ?_, fun s => ?_, h.groups, ?_⟩
  · by_cases hb : b' = b
    · subst hb
      have hfile : file = some f := by simpa using hf
      refine List.mem_append_left _ ?_
      simp [record, hfile, hdoc]
    · refine List.mem_append_right _ (h.files b' f doc ?_ hdoc)
      simpa [hb] using hf
  · obtain ⟨user, huser, hown⟩ := h.frames s f hf
    exact ⟨user, huser, hown.mono hsub⟩
  · have hprior := h.handlers s
    dsimp only
    cases hs : w.handlers s with
    | snapshot rest states =>
      rw [hs] at hprior
      obtain ⟨user, huser, hrest, hstates⟩ := hprior
      exact ⟨user, huser, hrest, fun data hdata => (hstates data hdata).mono hsub⟩
    | _ => trivial
  · have hprior := h.stage
    dsimp only
    cases hs : w.watcher.stage with
    | next => trivial
    | read b' => trivial
    | gather uid bots got =>
      rw [hs] at hprior
      exact ⟨hprior.1, fun p hp => (hprior.2 p hp).mono hsub⟩
    | announce f user =>
      rw [hs] at hprior
      exact OwnFrame.mono hsub hprior
    | send f targets stale =>
      rw [hs] at hprior
      refine ⟨fun s hmem => ?_, hprior.2⟩
      obtain ⟨user, huser, hown⟩ := hprior.1 s hmem
      exact ⟨user, huser, hown.mono hsub⟩

/-- A new socket has no user yet, so that nothing is held about it. -/
theorem Isolated.connect {w : World} (h : Isolated w) (s user : ℕ) (hidle : w.handlers s = .idle) :
    Isolated (w.connect s user) := by
  have hnone := h.fresh s hidle
  have hkeep : ∀ t u, w.userIds t = some u → Function.update w.userIds s (some user) t = some u := by
    intro t u htu
    have hts : t ≠ s := by
      rintro rfl
      rw [hnone] at htu
      cases htu
    rw [Function.update_of_ne hts, htu]
  refine ⟨h.files, fun t ht => ?_, fun t u htu => ?_, fun t f hf => ?_, fun t => ?_, h.groups, ?_⟩
  · by_cases hts : t = s
    · subst hts
      simp [World.connect] at ht
    · have hprior := h.fresh t (by simpa [World.connect, hts] using ht)
      simpa [World.connect, hts] using hprior
  · by_cases hts : t = s
    · subst hts
      simpa [World.connect] using htu
    · exact hkeep t u (h.mapped t u (by simpa [World.connect, hts] using htu))
  · obtain ⟨u, hu, hown⟩ := h.frames t f hf
    exact ⟨u, hkeep t u hu, hown⟩
  · have hprior := h.handlers t
    by_cases hts : t = s
    · subst hts
      simp [World.connect, HandlerOwn]
    · have hsame : (w.connect s user).handlers t = w.handlers t := Function.update_of_ne hts _ _
      rw [hsame]
      cases hh : w.handlers t with
      | snapshot rest states =>
        rw [hh] at hprior
        obtain ⟨u, hu, hrest, hstates⟩ := hprior
        exact ⟨u, hkeep t u hu, hrest, hstates⟩
      | _ => trivial
  · have hprior := h.stage
    have hsame : (w.connect s user).watcher = w.watcher := rfl
    rw [hsame]
    cases hh : w.watcher.stage with
    | send f targets stale =>
      rw [hh] at hprior
      refine ⟨fun t ht => ?_, fun t ht => ?_⟩
      · obtain ⟨u, hu, hown⟩ := hprior.1 t ht
        exact ⟨u, hkeep t u hu, hown⟩
      · obtain ⟨u, hu⟩ := Option.ne_none_iff_exists'.mp (hprior.2 t ht)
        show Function.update w.userIds s (some user) t ≠ none
        rw [hkeep t u hu]
        exact Option.some_ne_none u
    | gather uid bots got => rw [hh] at hprior; exact hprior
    | announce f u => rw [hh] at hprior; exact hprior
    | _ => trivial

/-! ### The steps -/

theorem isolated_scan {w : World} (h : Isolated w) (b : BotInfo) : Isolated (scan b w) := by
  unfold scan
  split
  · exact h
  · rename_i file _
    split
    · exact h
    · have hmtimes : Isolated
          { w with stateMtimes := Function.update w.stateMtimes b (some file.mtime) } :=
        ⟨h.files, h.fresh, h.mapped, h.frames, h.handlers, h.groups, h.stage⟩
      exact hmtimes.setStage (.read b) trivial

theorem botsByUser_own (bots : List BotInfo) : ∀ g ∈ botsByUser bots, ∀ b ∈ g.2, b.userId = g.1 := by
  intro g hg b hb
  obtain ⟨uid, _, rfl⟩ := List.mem_map.mp hg
  exact of_decide_eq_true (List.mem_filter.mp hb).2

theorem isolated_watchNext {w : World} (h : Isolated w) (a : Answer) : Isolated (watchNext a w) := by
  unfold watchNext
  split
  · exact isolated_scan (h.setWatcher ⟨_, w.watcher.groups, .next⟩ h.groups trivial) _
  · rename_i uid bots groups _ hgroups
    have hall := h.groups
    rw [hgroups] at hall
    have hown := hall (uid, bots) List.mem_cons_self
    exact h.setWatcher _ (fun g hg => hall g (List.mem_cons_of_mem _ hg))
      ⟨hown, fun p hp => absurd hp List.not_mem_nil⟩
  · exact h.setWatcher _ (botsByUser_own a.bots) trivial

theorem isolated_gather {w : World} (h : Isolated w) (a : Answer) (uid : ℕ) (bots : List BotInfo)
    (got : List (BotInfo × BotState)) (hstage : w.watcher.stage = .gather uid bots got) :
    Isolated (gatherNext uid bots got a w) := by
  have hown := h.stage
  rw [hstage] at hown
  obtain ⟨hbots, hgot⟩ := hown
  unfold gatherNext
  split
  · refine h.setStage _ ⟨_, fun data hdata => ?_, rfl⟩
    obtain ⟨b, hb, hlookup⟩ := List.mem_filterMap.mp hdata
    obtain ⟨before, after, heq, _⟩ := List.lookup_eq_some_iff.mp hlookup
    have hmem : (b, data) ∈ got := by
      rw [heq]
      exact List.mem_append_right _ List.mem_cons_self
    rw [← hbots b hb]
    exact hgot (b, data) hmem
  · split
    · exact h.setWatcher _ (fun g hg => absurd hg List.not_mem_nil) trivial
    · split
      · refine h.setStage _ ⟨hbots, fun p hp => ?_⟩
        rcases List.mem_cons.mp hp with rfl | hp
        · exact h.readState a.bot a
        · exact hgot p hp
      · exact h

theorem isolated_watch {w : World} (h : Isolated w) (a : Answer) : Isolated (watchStep a w) := by
  have hown := h.stage
  unfold watchStep
  split
  · exact isolated_watchNext h a
  · rename_i b _
    split
    · exact h.setStage _ trivial
    · exact h.setStage _ ⟨readState_botSlug b _ a, h.readState b a⟩
  · rename_i uid bots got hstage
    exact isolated_gather h a uid bots got hstage
  · rename_i f user hstage
    rw [hstage] at hown
    refine h.setStage _ ⟨fun s hs => ⟨user, ?_, hown⟩, fun s hs => absurd hs List.not_mem_nil⟩
    exact h.mapped s user (of_decide_eq_true (List.mem_filter.mp hs).2)
  · rename_i f s todo stale hstage
    rw [hstage] at hown
    obtain ⟨user, huser, hframe⟩ := hown.1 s List.mem_cons_self
    have htail := fun t ht => hown.1 t (List.mem_cons_of_mem s ht)
    split
    · refine h.setStage _ ⟨htail, fun t ht => ?_⟩
      rcases List.mem_cons.mp ht with rfl | ht
      · rw [huser]
        exact Option.some_ne_none user
      · exact hown.2 t ht
    · exact (h.sendText s user f huser hframe).setStage _ ⟨htail, hown.2⟩
  · exact (h.drop _).setStage _ trivial

theorem isolated_handle {w w' : World} (h : Isolated w) (s user : ℕ) (a : Answer)
    (huser : w.userIds s = some user) (hstep : handleStep s user a w = some w') : Isolated w' := by
  have hown := h.handlers s
  have hsend : ∀ f, OwnFrame w.written user f → Isolated (if a.dead then w else w.sendText s f) := by
    intro f hf
    split
    · exact h
    · exact h.sendText s user f huser hf
  have hwritten : ∀ f, (if a.dead then w else w.sendText s f).written = w.written := by
    intro f
    split <;> rfl
  have huserIds : ∀ f, (if a.dead then w else w.sendText s f).userIds = w.userIds := by
    intro f
    split <;> rfl
  unfold handleStep at hstep
  split at hstep
  · cases hstep
  · cases hstep
  · cases hstep
    refine h.setHandler s _ (by simp) ⟨user, huser, fun b hb => ?_, fun d hd => absurd hd List.not_mem_nil⟩
    exact of_decide_eq_true (List.mem_filter.mp hb).2
  · rename_i b rest states hsnapshot
    rw [hsnapshot] at hown
    obtain ⟨user', huser', hrest, hstates⟩ := hown
    rw [huser] at huser'
    cases huser'
    have htail : ∀ b' ∈ rest, b'.userId = user := fun b' hb' => hrest b' (List.mem_cons_of_mem b hb')
    have hb : b.userId = user := hrest b List.mem_cons_self
    have hread := h.readState b a
    rw [hb] at hread
    split at hstep
    · cases hstep
      exact h.setHandler s _ (by simp) ⟨user, huser, htail, hstates⟩
    · cases hstep
      have hframe : OwnFrame w.written user (.botState b.slug (readState b (w.files b) a)) :=
        ⟨readState_botSlug b _ a, hread⟩
      refine (hsend _ hframe).setHandler s _ (by simp) ?_
      rw [hwritten, huserIds]
      refine ⟨user, huser, htail, fun data hdata => ?_⟩
      rcases List.mem_append.mp hdata with hdata | hdata
      · exact hstates data hdata
      · rw [List.mem_singleton.mp hdata]
        exact hread
  · rename_i states hsnapshot
    rw [hsnapshot] at hown
    obtain ⟨user', huser', _, hstates⟩ := hown
    rw [huser] at huser'
    cases huser'
    cases hstep
    have hframe : OwnFrame w.written user (.summary (computeSummary states)) :=
      ⟨states, hstates, rfl⟩
    exact (hsend _ hframe).setHandler s _ (by simp) trivial
  · cases hstep
    exact hsend .ping trivial

theorem isolated_step (w : World) (l : Step) (w' : World) (h : Isolated w) (hstep : step w l = some w') :
    Isolated w' := by
  cases l with
  | write b file =>
    cases hstep
    exact h.write b file
  | connect s payload active =>
    simp only [step] at hstep
    split at hstep
    · cases hstep
    · rename_i hidle
      split at hstep
      · cases hstep
        exact h.setHandler s .closed (by simp) trivial
      · cases hstep
        exact h.connect s _ (not_not.mp hidle)
  | handle s a =>
    obtain ⟨user, huser, hstep⟩ := Option.bind_eq_some_iff.mp hstep
    exact isolated_handle h s user a huser hstep
  | leave s =>
    obtain ⟨_, hstep⟩ := Option.ite_none_right_eq_some.mp hstep
    cases hstep
    exact (h.drop [s]).setHandler s .closed (by simp) trivial
  | watch a =>
    cases hstep
    exact isolated_watch h a

theorem isolated_init : Isolated {} := by
  refine ⟨fun b file doc hf => ?_, fun _ _ => rfl, fun s user hs => ?_, fun s f hf => ?_,
    fun _ => trivial, fun g hg => ?_, trivial⟩
  · cases hf
  · cases hs
  · cases hf
  · cases hg

theorem isolated_run (steps : List Step) (w : World) (hrun : Machine.run step {} steps = some w) :
    Isolated w :=
  Machine.run_keeps step Isolated isolated_step {} w steps isolated_init hrun

/-- The user of a socket is the one of a session that was valid when the socket was accepted. -/
def Admitted (steps : List Step) (s user : ℕ) : Prop :=
  ∃ payload active, Step.connect s payload active ∈ steps ∧
    wsExtractUserId payload active = some user

theorem userIds_step (w w' : World) (l : Step) (hstep : step w l = some w') (s user : ℕ)
    (hs : w'.userIds s = some user) : w.userIds s = some user ∨ Admitted [l] s user := by
  cases l with
  | write b file =>
    cases hstep
    exact Or.inl hs
  | connect t payload active =>
    simp only [step] at hstep
    split at hstep
    · cases hstep
    · split at hstep
      · cases hstep
        exact Or.inl hs
      · rename_i user' hextract
        cases hstep
        by_cases hts : s = t
        · subst hts
          have huser : user' = user := by simpa [World.connect] using hs
          exact Or.inr ⟨payload, active, List.mem_singleton_self _, by rw [hextract, huser]⟩
        · exact Or.inl (by simpa [World.connect, hts] using hs)
  | handle t a =>
    obtain ⟨u, _, hstep⟩ := Option.bind_eq_some_iff.mp hstep
    have hsame : w'.userIds = w.userIds := by
      unfold handleStep at hstep
      split at hstep
      · cases hstep
      · cases hstep
      · cases hstep; rfl
      · split at hstep
        · cases hstep; rfl
        · cases hstep
          dsimp only [World.setHandler]
          split <;> rfl
      · cases hstep
        dsimp only [World.setHandler]
        split <;> rfl
      · cases hstep
        split <;> rfl
    rw [hsame] at hs
    exact Or.inl hs
  | leave t =>
    obtain ⟨_, hstep⟩ := Option.ite_none_right_eq_some.mp hstep
    cases hstep
    exact Or.inl hs
  | watch a =>
    cases hstep
    have hsame : (watchStep a w).userIds = w.userIds := by
      unfold watchStep
      split
      · unfold watchNext scan
        repeat' split
        all_goals rfl
      · split <;> rfl
      · unfold gatherNext
        repeat' split
        all_goals rfl
      · rfl
      · split <;> rfl
      · rfl
    rw [hsame] at hs
    exact Or.inl hs

theorem admitted_run (steps : List Step) (w : World) (hrun : Machine.run step {} steps = some w)
    (s user : ℕ) (hs : w.userIds s = some user) : Admitted steps s user := by
  have hinvariant := Machine.run_invariant step (fun l => l ∈ steps) (fun _ _ => True)
    (fun v => ∀ t u, v.userIds t = some u → Admitted steps t u)
    (fun v l v' hl hv _ hstep t u htu => by
      rcases userIds_step v v' l hstep t u htu with hprior | ⟨payload, active, hmem, hextract⟩
      · exact hv t u hprior
      · rw [List.mem_singleton] at hmem
        rw [← hmem] at hl
        exact ⟨payload, active, hl, hextract⟩)
    {} w steps (fun t u htu => by cases htu) (fun l hl => hl)
    (Machine.guarded_of_labels step (fun _ => True) {} steps fun _ _ => trivial) hrun
  exact hinvariant s user hs

/-- In every interleaving a frame a socket got is about the bots of the user it was accepted for. -/
theorem feed_isolated (steps : List Step) (w : World) (hrun : Machine.run step {} steps = some w)
    (s : ℕ) (f : Frame) (hf : f ∈ w.frames s) :
    ∃ user, Admitted steps s user ∧ OwnFrame w.written user f := by
  obtain ⟨user, huser, hown⟩ := (isolated_run steps w hrun).frames s f hf
  exact ⟨user, admitted_run steps w hrun s user huser, hown⟩

/-- Two users with a bot of the same slug, each with a socket; the watcher shows one of the bots. -/
def twoUsersSteps : List Step :=
  [.write ⟨1, "alpha"⟩ (some ⟨10, some {}⟩), .write ⟨2, "alpha"⟩ (some ⟨10, some {}⟩),
    .connect 0 (some 1) fun _ => true, .connect 1 (some 2) fun _ => true,
    .watch { bots := [⟨1, "alpha"⟩, ⟨2, "alpha"⟩] }, .watch {}, .watch {}, .watch {}, .watch {}]

/-- The portal behind these steps. -/
def twoUsersWorld : World := (Machine.run step {} twoUsersSteps).getD {}

theorem twoSockets_isolated : ∃ user, Admitted twoUsersSteps 0 user ∧
    OwnFrame twoUsersWorld.written user
      (.botState "alpha" ⟨1, "alpha", some {}, true, none, none⟩) :=
  feed_isolated twoUsersSteps twoUsersWorld rfl 0 _ (by decide +kernel)

end StateFeed

end Reverto
