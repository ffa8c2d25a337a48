import Mathlib.Tactic
import Reverto.Web.Portal

/-!
# Offline closes against the other writers of the portal

An offline close works under the state lock. `read_state` and the drawdown reset
write back a document they read before, without the lock. A close that returned
success stays in the file exactly as long as every document written back has
the deals the file has.
-/

namespace Reverto

/-- The document has a deal in its history and not among its open deals. -/
def StateDoc.HasClosed (doc : StateDoc) (dealId : String) : Prop :=
  (∃ x ∈ doc.closedDeals, x.id = dealId) ∧ dealId ∉ doc.openDeals.map DealDoc.id

/-- An account has a deal in its history and not among its open deals. -/
def PaperState.HasClosed (s : PaperState) (dealId : String) : Prop :=
  (∃ d ∈ s.closedDeals, d.id = dealId) ∧ s.openDeals.get? dealId = none

/-! ### Loads and writes of an account -/

theorem loadOpenDeals_none_iff (doc : StateDoc) (i : String) :
    doc.loadOpenDeals.get? i = none ↔ i ∉ doc.openDeals.map DealDoc.id := by
  rw [StateDoc.loadOpenDeals, KeyedDict.get?_ofList_eq_none_iff, List.map_map]
  rfl

theorem map_dictToDeal_id (l : List DealDoc) (i : String) :
    (∃ d ∈ l.map dictToDeal, d.id = i) ↔ ∃ x ∈ l, x.id = i := by
  simp

theorem loadPaperState_hasClosed (doc : StateDoc) (i : String) :
    (loadPaperStateFromFile (some doc)).HasClosed i ↔ doc.HasClosed i :=
  and_congr (map_dictToDeal_id doc.closedDeals i) (loadOpenDeals_none_iff doc i)

theorem bootEngine_hasClosed (initialBalanceBtc : ℚ) (doc : StateDoc) (i : String) :
    (bootEngine initialBalanceBtc (some doc)).state.HasClosed i ↔ doc.HasClosed i :=
  and_congr (map_dictToDeal_id doc.closedDeals i) (loadOpenDeals_none_iff doc i)

theorem persistState_hasClosed (name : String) (s : PaperState) (file : Option StateDoc)
    (i : String) : (DealCloseHandler.persistState name s file).HasClosed i ↔ s.HasClosed i := by
  have hopen : (s.openDeals.items.map fun d => dealToDict d 0).map DealDoc.id
      = s.openDeals.items.map PaperDeal.id := by
    rw [List.map_map]
    rfl
  simp only [StateDoc.HasClosed, PaperState.HasClosed, DealCloseHandler.persistState, hopen,
    KeyedDict.get?_eq_none_iff]
  simp

/-- An accepted close keeps the deals closed before and adds its own. -/
theorem actState_hasClosed (fee : ℚ) (s : PaperState) (d : PaperDeal) (price : ℚ) (now : Instant)
    (a : CloseAction) (h : s.openDeals.get? d.id = some d) (i : String)
    (hi : s.HasClosed i ∨ i = d.id) :
    (DealCloseHandler.actState fee s d price now a).HasClosed i := by
  rw [DealCloseHandler.actState_eq fee s d price now a h]
  have hown : (DealCloseHandler.closedDeal d price now a).id = d.id := by
    cases a with
    | close => rfl
    | cancel => rfl
  rcases hi with ⟨⟨c, hc, hci⟩, hopen⟩ | rfl
  · refine ⟨⟨c, List.mem_append_left _ hc, hci⟩, ?_⟩
    have hne : i ≠ d.id := by
      rintro rfl
      rw [h] at hopen
      cases hopen
    rw [KeyedDict.get?_pop_of_ne _ _ _ hne, hopen]
  · exact ⟨⟨_, List.mem_append_right _ (List.mem_singleton_self _), hown⟩,
      KeyedDict.get?_pop_self _ _⟩

/-! ### Documents on the way to the file -/

/-- The document a request without the lock is going to write back. -/
def Task.held : Task → Option StateDoc
  | .reconcileRead doc | .reconcileChecked doc _ | .resetRead doc => some doc
  | _ => none

/-- The open and the closed deals of a state file. -/
def dealLists (file : Option StateDoc) : Option (List DealDoc × List DealDoc) :=
  file.map fun doc => (doc.openDeals, doc.closedDeals)

/-- Some load of the file finds the deal closed. -/
def FileHasClosed (file : Option StateDoc) (dealId : String) : Prop :=
  ∃ doc, file = some doc ∧ doc.HasClosed dealId

theorem fileHasClosed_congr (file file' : Option StateDoc) (h : dealLists file = dealLists file')
    (i : String) (hi : FileHasClosed file i) : FileHasClosed file' i := by
  obtain ⟨doc, rfl, hdoc⟩ := hi
  cases file' with
  | none => cases h
  | some doc' =>
    obtain ⟨hopen, hclosed⟩ := Prod.mk.inj (Option.some.inj h)
    refine ⟨doc', rfl, ?_⟩
    rw [StateDoc.HasClosed, ← hopen, ← hclosed]
    exact hdoc

/-- A deal is open in a state file. -/
def OpenInFile (file : Option StateDoc) (dealId : String) : Prop :=
  ∃ lists, dealLists file = some lists ∧ dealId ∈ lists.1.map DealDoc.id

theorem not_openInFile_of_hasClosed (file : Option StateDoc) (i : String)
    (h : FileHasClosed file i) : ¬ OpenInFile file i := by
  rintro ⟨lists, hlists, hi⟩
  obtain ⟨doc, rfl, hdoc⟩ := h
  cases hlists
  exact hdoc.2 hi

theorem openInFile_of_loaded (file : Option StateDoc) (i : String) (d : PaperDeal)
    (h : (loadPaperStateFromFile file).openDeals.get? i = some d) : OpenInFile file i := by
  cases file with
  | none => cases h
  | some doc =>
    refine ⟨_, rfl, ?_⟩
    by_contra hi
    have hnone := (loadOpenDeals_none_iff doc i).mpr hi
    have hsome : doc.loadOpenDeals.get? i = some d := h
    rw [hnone] at hsome
    cases hsome

namespace Portal

variable (cfg : BotConfig) (sig : Signals) (initialBalanceBtc : ℚ)

/-- An offline close of the deal has returned success. -/
def Done (p : Portal) (dealId : String) : Prop := .dealClosedOffline dealId ∈ p.trace

/-- Whoever loads the state file finds every deal closed offline in the history
and not among the open deals. -/
def NoLostClose (p : Portal) : Prop :=
  ∀ i, p.Done i → FileHasClosed p.file i ∧ (loadPaperStateFromFile p.file).HasClosed i ∧
    (bootEngine initialBalanceBtc p.file).state.HasClosed i

/-- A document written back without the lock has the deals the file has. -/
def WritesBackCurrent (p : Portal) : PortalStep → Prop
  | .reconcileWrite n _ | .resetWrite n =>
    ∀ doc ∈ (p.tasks n).held, dealLists (some doc) = dealLists p.file
  | _ => True

/-- Offline closes, reconciles, resets, and bots that start and end; no ticks. -/
def OfflineStep : PortalStep → Prop
  | .engineOp _ | .stopRead | .stopWrite => False
  | _ => True

/-- What a closing thread carries has the deals closed before. -/
def KeepsClosed (i : String) : Task → Prop
  | .closeLoaded _ s | .closeActed _ s => s.HasClosed i
  | .closeMerged _ _ doc => doc.HasClosed i
  | _ => True

/-- A closing thread works on a deal that is open in the file. -/
def ClosesOpen (file : Option StateDoc) : Task → Prop
  | .closeLoaded _ s => ∀ i d, s.openDeals.get? i = some d → OpenInFile file i
  | .closeActed req s => s.HasClosed req.dealId ∧ OpenInFile file req.dealId
  | .closeMerged req _ doc => doc.HasClosed req.dealId ∧ OpenInFile file req.dealId
  | _ => True

/-- The deals closed offline are closed in the file and in all that closing
threads are going to write; a document held without the lock is current, or a
deal closed since is missing in it. -/
structure Kept (p : Portal) : Prop where
  lock : LockHeld p
  file : ∀ i, p.Done i → FileHasClosed p.file i
  tasks : ∀ n i, p.Done i → KeepsClosed i (p.tasks n)
  closes : ∀ n, ClosesOpen p.file (p.tasks n)
  held : ∀ n, ∀ doc ∈ (p.tasks n).held, dealLists (some doc) = dealLists p.file ∨
    ∃ i, p.Done i ∧ ¬ doc.HasClosed i

theorem kept_initial (file : Option StateDoc) : Kept (initial file) where
  lock := lockHeld_initial file
  file := fun i hi => by cases hi
  tasks := fun n i hi => by cases hi
  closes := fun _ => trivial
  held := fun n doc hdoc => by cases hdoc

theorem noLostClose_of_kept (p : Portal) (h : Kept p) : NoLostClose initialBalanceBtc p := by
  intro i hi
  have hfile := h.file i hi
  obtain ⟨doc, hdoc, hclosed⟩ := h.file i hi
  rw [hdoc]
  exact ⟨⟨doc, rfl, hclosed⟩, (loadPaperState_hasClosed doc i).mpr hclosed,
    (bootEngine_hasClosed initialBalanceBtc doc i).mpr hclosed⟩

theorem closesOpen_congr (file file' : Option StateDoc) (h : dealLists file = dealLists file')
    (t : Task) (ht : ClosesOpen file t) : ClosesOpen file' t := by
  cases t with
  | closeLoaded req s =>
    intro i d hd
    obtain ⟨lists, hlists, hi⟩ := ht i d hd
    exact ⟨lists, h ▸ hlists, hi⟩
  | closeActed req s =>
    obtain ⟨hs, lists, hlists, hi⟩ := ht
    exact ⟨hs, lists, h ▸ hlists, hi⟩
  | closeMerged req s doc =>
    obtain ⟨hs, lists, hlists, hi⟩ := ht
    exact ⟨hs, lists, h ▸ hlists, hi⟩
  | _ => trivial

/-- A thread moves on; the deals in the file and the closes so far stay. -/
theorem kept_task (p p' : Portal) (n : ℕ) (t : Task) (h : Kept p) (hlock : LockHeld p')
    (htasks : p'.tasks = (p.setTask n t).tasks) (hdone : ∀ i, p'.Done i ↔ p.Done i)
    (hlists : dealLists p.file = dealLists p'.file) (hkeeps : ∀ i, p.Done i → KeepsClosed i t)
    (hcloses : ClosesOpen p.file t)
    (hheld : ∀ doc ∈ t.held, dealLists (some doc) = dealLists p.file ∨
      ∃ i, p.Done i ∧ ¬ doc.HasClosed i) : Kept p' where
  lock := hlock
  file := fun i hi => fileHasClosed_congr _ _ hlists i (h.file i ((hdone i).mp hi))
  tasks := by
    intro m i hi
    rw [htasks]
    by_cases hmn : m = n
    · subst hmn
      rw [setTask_self]
      exact hkeeps i ((hdone i).mp hi)
    · rw [setTask_of_ne p n m t hmn]
      exact h.tasks m i ((hdone i).mp hi)
  closes := by
    intro m
    rw [htasks]
    by_cases hmn : m = n
    · subst hmn
      rw [setTask_self]
      exact closesOpen_congr _ _ hlists t hcloses
    · rw [setTask_of_ne p n m t hmn]
      exact closesOpen_congr _ _ hlists _ (h.closes m)
  held := by
    intro m doc hdoc
    rw [htasks] at hdoc
    simp only [hdone, ← hlists]
    by_cases hmn : m = n
    · subst hmn
      rw [setTask_self] at hdoc
      exact hheld doc hdoc
    · rw [setTask_of_ne p n m t hmn] at hdoc
      exact h.held m doc hdoc

theorem keepsClosed_of_not_closing (t : Task) (i : String) (h : t.closing = false) :
    KeepsClosed i t := by
  cases t with
  | closeLoaded req s => cases h
  | closeActed req s => cases h
  | closeMerged req s doc => cases h
  | _ => trivial

theorem closesOpen_of_not_closing (file : Option StateDoc) (t : Task) (h : t.closing = false) :
    ClosesOpen file t := by
  cases t with
  | closeLoaded req s => cases h
  | closeActed req s => cases h
  | closeMerged req s doc => cases h
  | _ => trivial

/-- The lock has one holder. -/
theorem not_closing_of_ne (p : Portal) (h : LockHeld p) (n m : ℕ)
    (hn : (p.tasks n).closing = true) (hmn : m ≠ n) : (p.tasks m).closing = false := by
  by_contra hm
  have hboth := (h.holder m (Bool.not_eq_false _ ▸ hm)).symm.trans (h.holder n hn)
  exact hmn (Option.some.inj hboth)

/-- The write of an offline close. -/
theorem kept_closeWrite (p : Portal) (n : ℕ) (req : CloseRequest) (s : PaperState) (doc : StateDoc)
    (h : Kept p) (htask : p.tasks n = .closeMerged req s doc)
    (hlock : LockHeld
      { p.setTask n .idle with
        file := some doc
        stateLock := none
        trace := p.trace ++ [.dealClosedOffline req.dealId] }) :
    Kept
      { p.setTask n .idle with
        file := some doc
        stateLock := none
        trace := p.trace ++ [.dealClosedOffline req.dealId] } := by
  have hkeeps : ∀ i, p.Done i → doc.HasClosed i := by
    intro i hi
    have hkeep := h.tasks n i hi
    rwa [htask] at hkeep
  obtain ⟨hown, hopen⟩ : doc.HasClosed req.dealId ∧ OpenInFile p.file req.dealId := by
    have hclose := h.closes n
    rwa [htask] at hclose
  have hdone : ∀ i, .dealClosedOffline i ∈ p.trace ++ [.dealClosedOffline req.dealId] →
      p.Done i ∨ i = req.dealId := by
    intro i hi
    rcases List.mem_append.mp hi with hi | hi
    · exact Or.inl hi
    · exact Or.inr (PortalEvent.dealClosedOffline.inj (List.mem_singleton.mp hi))
  have hother : ∀ m, ((p.setTask n .idle).tasks m).closing = false := by
    intro m
    by_cases hmn : m = n
    · subst hmn
      rw [setTask_self]
      rfl
    · rw [setTask_of_ne p n m _ hmn]
      exact not_closing_of_ne p h.lock n m (by rw [htask]; rfl) hmn
  refine ⟨hlock, fun i hi => ⟨doc, rfl, ?_⟩,
    fun m i _ => keepsClosed_of_not_closing _ i (hother m),
    fun m => closesOpen_of_not_closing _ _ (hother m), ?_⟩
  · rcases hdone i hi with hi | rfl
    · exact hkeeps i hi
    · exact hown
  · intro m held hheld
    right
    have hheld' : held ∈ ((p.setTask n .idle).tasks m).held := hheld
    by_cases hmn : m = n
    · subst hmn
      rw [setTask_self] at hheld'
      cases hheld'
    · rw [setTask_of_ne p n m _ hmn] at hheld'
      rcases h.held m held hheld' with hsame | ⟨i, hi, hnot⟩
      · -- a document read before this close still has the deal open
        refine ⟨req.dealId, List.mem_append_right _ (List.mem_singleton_self _), fun hclosed => ?_⟩
        obtain ⟨lists, hlists, hmem⟩ := hopen
        exact not_openInFile_of_hasClosed (some held) _ ⟨held, rfl, hclosed⟩
          ⟨lists, hsame.trans hlists, hmem⟩
      · exact ⟨i, List.mem_append_left _ hi, hnot⟩

/-- Every offline step that writes back current deals keeps the invariant. -/
theorem kept_step (p : Portal) (l : PortalStep) (p' : Portal) (hl : OfflineStep l) (h : Kept p)
    (hG : WritesBackCurrent p l) (hstep : step cfg sig initialBalanceBtc p l = some p') :
    Kept p' := by
  have hm := step_moves cfg sig initialBalanceBtc p p' l hstep
  have hlock := lockHeld_step cfg sig initialBalanceBtc p p' l h.lock hm
  cases hm with
  | spawn hbot => exact ⟨hlock, h.file, h.tasks, h.closes, h.held⟩
  | boot hbot hfree => exact ⟨hlock, h.file, h.tasks, h.closes, h.held⟩
  | kill hbot => exact ⟨hlock, h.file, h.tasks, h.closes, h.held⟩
  | stopRead e hbot => exact absurd hl id
  | stopWrite e read hbot => exact absurd hl id
  | engineOp op e hbot => exact absurd hl id
  | closeBegin n req htask hfree hbot =>
    refine kept_task p _ n _ h hlock rfl (fun _ => Iff.rfl) rfl (fun i hi => ?_)
      (fun i d hd => openInFile_of_loaded p.file i d hd) fun doc hdoc => by cases hdoc
    obtain ⟨doc, hdoc, hclosed⟩ := h.file i hi
    rw [hdoc]
    exact (loadPaperState_hasClosed doc i).mpr hclosed
  | closeRefused n now req state e htask haccept =>
    exact kept_task p _ n .idle h hlock rfl (fun _ => Iff.rfl) rfl (fun _ _ => trivial) trivial
      fun doc hdoc => by cases hdoc
  | closeAct n now req state deal htask haccept =>
    obtain ⟨hget, hid, _⟩ := DealCloseHandler.accept_ok state req.dealId req.currentPrice deal haccept
    have hself : state.openDeals.get? deal.id = some deal := by rw [hid, hget]
    have hact := actState_hasClosed cfg.dca.takerFee state deal req.currentPrice now req.action hself
    refine kept_task p _ n _ h hlock rfl (fun _ => Iff.rfl) rfl (fun i hi => ?_) ⟨?_, ?_⟩
      fun doc hdoc => by cases hdoc
    · have hkeep := h.tasks n i hi
      rw [htask] at hkeep
      exact hact i (Or.inl hkeep)
    · exact hact req.dealId (Or.inr hid.symm)
    · have hopen := h.closes n
      rw [htask] at hopen
      exact hopen req.dealId deal hget
  | closeMerge n req state htask =>
    have hpersist := persistState_hasClosed cfg.name state p.file
    have hclose := h.closes n
    rw [htask] at hclose
    refine kept_task p _ n _ h hlock rfl (fun _ => Iff.rfl) rfl (fun i hi => ?_)
      ⟨(hpersist req.dealId).mpr hclose.1, hclose.2⟩ fun doc hdoc => by cases hdoc
    have hkeep := h.tasks n i hi
    rw [htask] at hkeep
    exact (hpersist i).mpr hkeep
  | closeWrite n req state doc htask => exact kept_closeWrite p n req state doc h htask hlock
  | reconcileRead n doc htask hfile =>
    refine kept_task p _ n _ h hlock rfl (fun _ => Iff.rfl) rfl (fun _ _ => trivial) trivial ?_
    rintro read ⟨rfl⟩
    exact Or.inl (by rw [hfile])
  | reconcileCheck n stale doc next htask hnext =>
    have hdoc := h.held n doc (by rw [htask]; rfl)
    refine kept_task p _ n next h hlock rfl (fun _ => Iff.rfl) rfl (fun i _ => ?_) ?_ ?_
    · rcases hnext with rfl | ⟨reason, rfl⟩ <;> trivial
    · rcases hnext with rfl | ⟨reason, rfl⟩ <;> trivial
    · rcases hnext with rfl | ⟨reason, rfl⟩
      · rintro read ⟨⟩
      · rintro read ⟨rfl⟩
        exact hdoc
  | reconcileWrite n now doc reason htask =>
    have hcur := hG doc (by rw [htask]; rfl)
    exact kept_task p _ n .idle h hlock rfl (fun _ => Iff.rfl) hcur.symm (fun _ _ => trivial)
      trivial fun read hread => by cases hread
  | resetRead n doc htask hfile =>
    refine kept_task p _ n _ h hlock rfl (fun _ => Iff.rfl) rfl (fun _ _ => trivial) trivial ?_
    rintro read ⟨rfl⟩
    exact Or.inl (by rw [hfile])
  | resetWrite n doc htask =>
    have hcur := hG doc (by rw [htask]; rfl)
    refine kept_task p _ n .idle h hlock rfl (fun i => ?_) hcur.symm (fun _ _ => trivial)
      trivial fun read hread => by cases hread
    simp [Done]

/-- Writing back a document with other deals loses a close. -/
theorem lost_of_not_current (p : Portal) (l : PortalStep) (p' : Portal) (h : Kept p)
    (hG : ¬ WritesBackCurrent p l) (hstep : step cfg sig initialBalanceBtc p l = some p') :
    ¬ NoLostClose initialBalanceBtc p' := by
  have hm := step_moves cfg sig initialBalanceBtc p p' l hstep
  have hlost : ∀ (n : ℕ) (doc : StateDoc), (p.tasks n).held = some doc →
      ¬ (∀ doc ∈ (p.tasks n).held, dealLists (some doc) = dealLists p.file) →
      ∃ i, p.Done i ∧ ¬ doc.HasClosed i := by
    intro n doc hheld hne
    rcases h.held n doc hheld with hsame | hlost
    · refine absurd (fun d hd => ?_) hne
      rw [hheld] at hd
      cases hd
      exact hsame
    · exact hlost
  intro hall
  cases hm with
  | reconcileWrite n now doc reason htask =>
    obtain ⟨i, hi, hnot⟩ := hlost n doc (by rw [htask]; rfl) hG
    obtain ⟨doc', hdoc', hclosed⟩ := (hall i hi).1
    cases hdoc'
    exact hnot hclosed
  | resetWrite n doc htask =>
    obtain ⟨i, hi, hnot⟩ := hlost n doc (by rw [htask]; rfl) hG
    obtain ⟨doc', hdoc', hclosed⟩ := (hall i (List.mem_append_left _ hi)).1
    cases hdoc'
    exact hnot hclosed
  | _ => exact hG trivial

/-- No offline close is lost in a run exactly when every document written back
without the lock has the deals the file has. -/
theorem noLostClose_iff (file : Option StateDoc) (ls : List PortalStep) (p : Portal)
    (hls : ∀ l ∈ ls, OfflineStep l)
    (hrun : Machine.run (step cfg sig initialBalanceBtc) (initial file) ls = some p) :
    Machine.Throughout (step cfg sig initialBalanceBtc) (NoLostClose initialBalanceBtc)
        (initial file) ls ↔
      Machine.Guarded (step cfg sig initialBalanceBtc) WritesBackCurrent (initial file) ls :=
  (Machine.guarded_iff_throughout (step cfg sig initialBalanceBtc) OfflineStep WritesBackCurrent
    Kept (NoLostClose initialBalanceBtc) (kept_step cfg sig initialBalanceBtc)
    (noLostClose_of_kept initialBalanceBtc)
    (fun s l s' _ => lost_of_not_current cfg sig initialBalanceBtc s l s') (initial file) p ls
    (kept_initial file) hls hrun).symm

instance (p : Portal) : ∀ l, Decidable (WritesBackCurrent p l)
  | .reconcileWrite n _ | .resetWrite n =>
    inferInstanceAs (Decidable (∀ doc ∈ (p.tasks n).held, _ = _))
  | .spawn | .boot | .kill | .stopRead | .stopWrite | .engineOp _ | .closeBegin .. | .closeAct ..
  | .closeMerge _ | .closeWrite _ | .reconcileRead _ | .reconcileCheck .. | .resetRead _ =>
    .isTrue trivial

/-- A bot with a small base order. -/
def offlineBot : BotConfig := .small "offline"

/-- The state file of a bot that was killed with one deal open. -/
def oneOpenFile : Option StateDoc :=
  (Program.runAll (EngineOp.program offlineBot .silent)
    [.open 0 (.accepted "202501010000-0001") 100 none, .write 1 100 true]
    (freshWorld 1)).2.file

/-- Thread 1 reconciles the file; thread 0 closes the deal in between. -/
def closeDuringReconcile : List PortalStep :=
  [.reconcileRead 1, .closeBegin 0 ⟨"202501010000-0001", 100, .close⟩, .closeAct 0 2, .closeMerge 0,
    .closeWrite 0, .reconcileCheck 1 false, .reconcileWrite 1 3]

/-- The reconcile writes the deal back as open. -/
theorem lostClose_reconcile :
    ¬ ∀ (cfg : BotConfig) (sig : Signals) (initialBalanceBtc : ℚ) (file : Option StateDoc)
      (ls : List PortalStep) (p : Portal), (∀ l ∈ ls, OfflineStep l) →
      Machine.run (step cfg sig initialBalanceBtc) (initial file) ls = some p →
      NoLostClose initialBalanceBtc p := by
  intro h
  have hlaw := h offlineBot .silent 1 oneOpenFile closeDuringReconcile
  have hend : ∃ p ∈ Machine.run (step offlineBot .silent 1) (initial oneOpenFile)
      closeDuringReconcile, .dealClosedOffline "202501010000-0001" ∈ p.trace ∧
      (loadPaperStateFromFile p.file).openDeals.get? "202501010000-0001" ≠ none := by
    decide +kernel
  obtain ⟨p, hrun, hdone, hopen⟩ := hend
  have hsteps : ∀ l ∈ closeDuringReconcile, OfflineStep l := by
    simp [closeDuringReconcile, OfflineStep]
  exact hopen (hlaw p hsteps hrun "202501010000-0001" hdone).2.1.2

/-- The close, then the reconcile, then a bot that starts. -/
def closeThenReconcile : List PortalStep :=
  [.closeBegin 0 ⟨"202501010000-0001", 100, .close⟩, .closeAct 0 2, .closeMerge 0, .closeWrite 0,
    .reconcileRead 1, .reconcileCheck 1 false, .reconcileWrite 1 3, .spawn, .boot]

theorem noLostClose_in_turn :
    Machine.Throughout (step offlineBot .silent 1) (NoLostClose 1) (initial oneOpenFile)
      closeThenReconcile := by
  have hsteps : ∀ l ∈ closeThenReconcile, OfflineStep l := by
    simp [closeThenReconcile, OfflineStep]
  have hguarded : Machine.Guarded (step offlineBot .silent 1) WritesBackCurrent
      (initial oneOpenFile) closeThenReconcile := by
    decide +kernel
  have hsome : (Machine.run (step offlineBot .silent 1) (initial oneOpenFile)
      closeThenReconcile).isSome = true := by
    decide +kernel
  obtain ⟨p, hrun⟩ := Option.isSome_iff_exists.mp hsome
  exact (noLostClose_iff offlineBot .silent 1 oneOpenFile closeThenReconcile p hsteps hrun).mpr
    hguarded

end Portal

end Reverto
