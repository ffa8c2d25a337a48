import Mathlib.Tactic
import Reverto.Core.EngineSteps
import Reverto.Web.Portal

/-!
# The closed deals in the state file

`_write_state` shows the last `CLOSED_DEALS_UI_CAP` entries of the memory list,
newest first; `_load_state` and the close handler take and give the list oldest
first. The list in the file is right after a write as long as every engine was
built from a list in closing order.
-/

namespace Reverto

/-! ### The newest entries of a log -/

section Newest

variable {α : Type} (cap : ℕ)

/-- The newest entries of a log, newest first. -/
def newest (log : List α) : List α := log.reverse.take cap

theorem newest_append (log new : List α) :
    newest cap (log ++ new) = (new.reverse ++ newest cap log).take cap := by
  simp only [newest, List.reverse_append, List.take_append, List.take_take]
  congr 2
  omega

/-- Logs with the same newest entries keep them as both grow. -/
theorem newest_congr (log log' new : List α) (h : newest cap log = newest cap log') :
    newest cap (log ++ new) = newest cap (log' ++ new) := by
  rw [newest_append, newest_append, h]

theorem newest_map {β : Type} (f : α → β) (log : List α) :
    newest cap (log.map f) = (newest cap log).map f := by
  simp only [newest, ← List.map_reverse, List.map_take]

theorem mem_newest (log : List α) (x : α) (h : x ∈ newest cap log) : x ∈ log :=
  List.mem_reverse.mp (List.mem_of_mem_take h)

/-- Taking a log that is newest first for one that is oldest first turns it around. -/
theorem newest_newest (log : List α) : newest cap (newest cap log) = (newest cap log).reverse := by
  have hlen : (newest cap log).reverse.length ≤ cap := by
    simp only [newest, List.length_reverse]
    exact List.length_take_le _ _
  exact List.take_of_length_le hlen

end Newest

/-! ### The life of a bot -/

namespace Portal

variable (cfg : BotConfig) (sig : Signals) (initialBalanceBtc : ℚ)

/-- The documents of the deals an engine has in its history. -/
def closedDocs (e : EngineState) : List DealDoc := e.state.closedDeals.map fun d => dealToDict d 0

/-- `closed_deals` of a state file. -/
def fileClosed (file : Option StateDoc) : List DealDoc :=
  match file with
  | none => []
  | some doc => doc.closedDeals

/-- The deals a step closes, as the state file shows them. -/
def closes (p : Portal) : PortalStep → List DealDoc
  | .engineOp op =>
    match p.bot with
    | .running e =>
      (closedDocs (op.program cfg sig ⟨e, p.file⟩).state.engine).drop (closedDocs e).length
    | _ => []
  | .closeAct thread now =>
    match p.tasks thread with
    | .closeLoaded req state =>
      match DealCloseHandler.accept state req.dealId req.currentPrice with
      | .error _ => []
      | .ok deal =>
        [dealToDict (DealCloseHandler.closedDeal deal req.currentPrice now req.action) 0]
    | _ => []
  | _ => []

/-- A bot and the deals it has closed since it was created, oldest first. -/
structure Life where
  portal : Portal
  closed : List DealDoc

/-- A step, with the deals it closes on record. -/
def Life.step (s : Life) (l : PortalStep) : Option Life :=
  (Portal.step cfg sig initialBalanceBtc s.portal l).map fun p =>
    ⟨p, s.closed ++ s.portal.closes cfg sig l⟩

/-- A bot that was just created. -/
def Life.new : Life := ⟨Portal.initial none, []⟩

/-- An engine is built only from a state file whose list ends with the last
closed deals in closing order. -/
def LoadsInOrder (s : Life) : PortalStep → Prop
  | .boot => newest closedDealsUiCap (fileClosed s.portal.file) = newest closedDealsUiCap s.closed
  | _ => True

instance (s : Life) : ∀ l, Decidable (LoadsInOrder s l)
  | .boot => inferInstanceAs (Decidable (_ = _))
  | .spawn | .kill | .stopRead | .stopWrite | .engineOp _ | .closeBegin .. | .closeAct ..
  | .closeMerge _ | .closeWrite _ | .reconcileRead _ | .reconcileCheck .. | .reconcileWrite ..
  | .resetRead _ | .resetWrite _ => .isTrue trivial

/-! ### Invariant -/

/-- The document of a deal as it was closed. -/
def ClosedDoc (doc : DealDoc) : Prop := ∃ d : PaperDeal, d.isOpen = false ∧ doc = dealToDict d 0

theorem closedDoc_reload (doc : DealDoc) (h : ClosedDoc doc) : dealToDict (dictToDeal doc) 0 = doc := by
  obtain ⟨d, hd, rfl⟩ := h
  exact dealToDict_reencode d 0 0 hd

theorem closedDocs_boot (file : Option StateDoc) :
    closedDocs (bootEngine initialBalanceBtc file)
      = (fileClosed file).map fun doc => dealToDict (dictToDeal doc) 0 := by
  cases file with
  | none => rfl
  | some doc => simp [closedDocs, bootEngine, fileClosed]

/-- An operation appends the documents of the deals it closes. -/
theorem closedDocs_op (op : EngineOp) (w : World) :
    ∃ new, closedDocs (op.program cfg sig w).state.engine = closedDocs w.engine ++ new ∧
      ∀ doc ∈ new, ClosedDoc doc := by
  obtain ⟨ds, hds, hclosed⟩ := TradingEngine.historyGrows_op cfg sig op w
  refine ⟨ds.map fun d => dealToDict d 0, by simp only [closedDocs, hds, List.map_append], ?_⟩
  intro doc hdoc
  obtain ⟨d, hd, rfl⟩ := List.mem_map.mp hdoc
  exact ⟨d, hclosed d hd, rfl⟩

theorem closes_engineOp (p : Portal) (op : EngineOp) (e : EngineState) (hbot : p.bot = .running e)
    (new : List DealDoc)
    (h : closedDocs (op.program cfg sig ⟨e, p.file⟩).state.engine = closedDocs e ++ new) :
    p.closes cfg sig (.engineOp op) = new := by
  simp only [closes, hbot, h, List.drop_left]

/-- A loaded engine has the newest closed deals in its history. -/
structure Recorded (s : Life) : Prop where
  docs : ∀ doc ∈ s.closed, ClosedDoc doc
  lock : LockHeld s.portal
  memory : ∀ e, s.portal.bot = .running e →
    newest closedDealsUiCap (closedDocs e) = newest closedDealsUiCap s.closed

theorem recorded_new : Recorded Life.new where
  docs := fun doc h => by cases h
  lock := lockHeld_initial none
  memory := fun e h => by cases h

/-- A list in closing order stays so when the engine takes it into memory. -/
theorem newest_boot (closed : List DealDoc) (hdocs : ∀ doc ∈ closed, ClosedDoc doc)
    (file : Option StateDoc)
    (h : newest closedDealsUiCap (fileClosed file) = newest closedDealsUiCap closed) :
    newest closedDealsUiCap (closedDocs (bootEngine initialBalanceBtc file))
      = newest closedDealsUiCap closed := by
  rw [closedDocs_boot, newest_map, h]
  have hid : ∀ doc ∈ newest closedDealsUiCap closed, dealToDict (dictToDeal doc) 0 = doc :=
    fun doc hdoc => closedDoc_reload doc (hdocs doc (mem_newest _ _ _ hdoc))
  exact (List.map_congr_left hid).trans (List.map_id _)

/-- A step that closes nothing and loads or runs no engine. -/
theorem recorded_quiet (s : Life) (p' : Portal) (l : PortalStep) (h : Recorded s)
    (hlock : LockHeld p') (hcloses : s.portal.closes cfg sig l = [])
    (hbot : ∀ e, p'.bot = .running e → s.portal.bot = .running e) :
    Recorded ⟨p', s.closed ++ s.portal.closes cfg sig l⟩ := by
  rw [hcloses, List.append_nil]
  exact ⟨h.docs, hlock, fun e he => h.memory e (hbot e he)⟩

theorem recorded_step (s : Life) (l : PortalStep) (s' : Life) (h : Recorded s)
    (hG : LoadsInOrder s l) (hstep : Life.step cfg sig initialBalanceBtc s l = some s') :
    Recorded s' := by
  obtain ⟨p', hp', rfl⟩ := Option.map_eq_some_iff.mp hstep
  have hm := step_moves cfg sig initialBalanceBtc s.portal p' l hp'
  have hlock := lockHeld_step cfg sig initialBalanceBtc s.portal p' l h.lock hm
  have hquiet := recorded_quiet cfg sig s p' l h hlock
  cases hm with
  | spawn hbot => exact hquiet rfl fun e he => by cases he
  | boot hbot hfree =>
    refine ⟨fun doc hdoc => ?_, hlock, fun e he => ?_⟩
    · exact h.docs doc (by simpa [closes] using hdoc)
    · have he' : bootEngine initialBalanceBtc s.portal.file = e := BotProcess.running.inj he
      subst he'
      have hbooted := newest_boot initialBalanceBtc s.closed h.docs s.portal.file hG
      simpa [closes] using hbooted
  | kill hbot => exact hquiet rfl fun e he => by cases he
  | stopRead e hbot => exact hquiet rfl fun e he => by cases he
  | stopWrite e read hbot => exact hquiet rfl fun e he => by cases he
  | engineOp op e hbot =>
    obtain ⟨new, hnew, hdocs⟩ := closedDocs_op cfg sig op ⟨e, s.portal.file⟩
    have hcloses := closes_engineOp cfg sig s.portal op e hbot new hnew
    simp only [hcloses]
    refine ⟨fun doc hdoc => ?_, hlock, fun e' he' => ?_⟩
    · rcases List.mem_append.mp hdoc with hdoc | hdoc
      · exact h.docs doc hdoc
      · exact hdocs doc hdoc
    · have hsame : (op.program cfg sig ⟨e, s.portal.file⟩).state.engine = e' :=
        BotProcess.running.inj he'
      rw [← hsame, hnew]
      exact newest_congr _ _ _ new (h.memory e hbot)
  | closeBegin n req htask hfree hbot => exact hquiet rfl fun e he => he
  | closeRefused n now req state e htask haccept =>
    exact hquiet (by simp only [closes, htask, haccept]) fun e he => he
  | closeAct n now req state deal htask haccept =>
    -- the closing thread holds the lock, so no engine has a list to fall behind
    have hheld := h.lock.holder n (by rw [htask]; rfl)
    have hcloses : s.portal.closes cfg sig (.closeAct n now)
        = [dealToDict (DealCloseHandler.closedDeal deal req.currentPrice now req.action) 0] := by
      simp only [closes, htask, haccept]
    refine ⟨fun doc hdoc => ?_, hlock, fun e he => ?_⟩
    · simp only [hcloses] at hdoc
      rcases List.mem_append.mp hdoc with hdoc | hdoc
      · exact h.docs doc hdoc
      · refine ⟨_, ?_, List.mem_singleton.mp hdoc⟩
        cases req.action with
        | close => rfl
        | cancel => rfl
    · exact absurd he (h.lock.excluded (by rw [hheld]; exact Option.some_ne_none n) e)
  | closeMerge n req state htask => exact hquiet rfl fun e he => he
  | closeWrite n req state doc htask => exact hquiet rfl fun e he => he
  | reconcileRead n doc htask hfile => exact hquiet rfl fun e he => he
  | reconcileCheck n stale doc next htask hnext => exact hquiet rfl fun e he => he
  | reconcileWrite n now doc reason htask => exact hquiet rfl fun e he => he
  | resetRead n doc htask hfile => exact hquiet rfl fun e he => he
  | resetWrite n doc htask => exact hquiet rfl fun e he => he

/-! ### The list after a write -/

theorem file_write (now : Instant) (price : ℚ) (isOpen : Bool) (w : World) :
    ((EngineOp.write now price isOpen).program cfg sig w).state.file.map StateDoc.closedDeals
      = some (newest closedDealsUiCap (closedDocs w.engine)) := by
  simp only [closedDocs, newest_map]
  rfl

/-- The list a write of the engine leaves in the file. -/
theorem write_step (s s' : Life) (now : Instant) (price : ℚ) (isOpen : Bool)
    (h : Life.step cfg sig initialBalanceBtc s (.engineOp (.write now price isOpen)) = some s') :
    ∃ e, s.portal.bot = .running e ∧ s'.closed = s.closed ∧
      s'.portal.file.map StateDoc.closedDeals
        = some (newest closedDealsUiCap (closedDocs e)) := by
  obtain ⟨p', hp', rfl⟩ := Option.map_eq_some_iff.mp h
  have hm := step_moves cfg sig initialBalanceBtc s.portal p' _ hp'
  cases hm with
  | engineOp op e hbot =>
    refine ⟨e, hbot, ?_, file_write cfg sig now price isOpen ⟨e, s.portal.file⟩⟩
    have hnone := closes_engineOp cfg sig s.portal (.write now price isOpen) e hbot []
      (List.append_nil _).symm
    simp only [hnone, List.append_nil]

/-- In a run whose engines are built from lists in closing order, the list after
a write of the engine is the newest closed deals, newest first. -/
theorem closedDeals_after_write (ls : List PortalStep) (now : Instant) (price : ℚ) (isOpen : Bool)
    (s : Life)
    (hG : Machine.Guarded (Life.step cfg sig initialBalanceBtc) LoadsInOrder Life.new ls)
    (hrun : Machine.run (Life.step cfg sig initialBalanceBtc) Life.new
      (ls ++ [.engineOp (.write now price isOpen)]) = some s) :
    s.portal.file.map StateDoc.closedDeals
      = some (s.closed.reverse.take closedDealsUiCap) := by
  obtain ⟨t, ht, hlast⟩ := (Machine.run_append_eq_some _ _ _ _ _).mp hrun
  have hrec := Machine.run_invariant _ (fun _ => True) LoadsInOrder Recorded
    (fun s l s' _ => recorded_step cfg sig initialBalanceBtc s l s') _ t ls recorded_new
    (fun _ _ => trivial) hG ht
  obtain ⟨u, hu, hend⟩ := (Machine.run_cons_eq_some _ _ _ _ _).mp hlast
  cases hend
  obtain ⟨e, he, hclosed, hlist⟩ := write_step cfg sig initialBalanceBtc t s now price isOpen hu
  have hmem := hrec.memory e he
  rw [hlist, hmem, hclosed, newest]

/-! ### Where the condition fails -/

/-- The next engine is built in order from a list the last engine wrote only if
the list reads the same in both directions. -/
theorem loadsInOrder_after_write (s : Life)
    (h : fileClosed s.portal.file = newest closedDealsUiCap s.closed) :
    LoadsInOrder s .boot ↔
      (newest closedDealsUiCap s.closed).reverse = newest closedDealsUiCap s.closed := by
  rw [← newest_newest]
  simp only [LoadsInOrder, h]

/-- A write directly after an engine is built is right only if the list it was
built from was in closing order. -/
theorem write_after_boot (s t u : Life) (now : Instant) (price : ℚ) (isOpen : Bool)
    (hfile : ∀ doc ∈ fileClosed s.portal.file, ClosedDoc doc)
    (hboot : Life.step cfg sig initialBalanceBtc s .boot = some t)
    (hwrite : Life.step cfg sig initialBalanceBtc t (.engineOp (.write now price isOpen)) = some u) :
    u.portal.file.map StateDoc.closedDeals = some (newest closedDealsUiCap u.closed) ↔
      LoadsInOrder s .boot := by
  obtain ⟨p', hp', rfl⟩ := Option.map_eq_some_iff.mp hboot
  obtain ⟨e, he, hclosed, hlist⟩ := write_step cfg sig initialBalanceBtc _ u now price isOpen hwrite
  have hm := step_moves cfg sig initialBalanceBtc s.portal p' _ hp'
  cases hm with
  | boot hbot hfree =>
    have he' : bootEngine initialBalanceBtc s.portal.file = e := BotProcess.running.inj he
    have hsame : closedDocs e = fileClosed s.portal.file := by
      rw [← he', closedDocs_boot]
      exact (List.map_congr_left fun doc hdoc => closedDoc_reload doc (hfile doc hdoc)).trans
        (List.map_id _)
    have hu : u.closed = s.closed := by simpa [closes] using hclosed
    rw [hlist, hsame, hu, Option.some_inj]
    rfl

/-- A bot with a small base order. -/
def smallBot : BotConfig := .small "small"

/-- One deal opened and cancelled, a write and a restart. -/
def restartAfterOne : List PortalStep :=
  [.spawn, .boot,
    .engineOp (.open 0 (.accepted "202501010000-0001") 100 none),
    .engineOp (.sentinel 1 100 (.act "202501010000-0001" .cancel)),
    .engineOp (.write 2 100 true), .kill, .spawn, .boot]

/-- Two deals opened and cancelled, a write and a restart. -/
def restartAfterTwo : List PortalStep :=
  [.spawn, .boot,
    .engineOp (.open 0 (.accepted "202501010000-0001") 100 none),
    .engineOp (.sentinel 1 100 (.act "202501010000-0001" .cancel)),
    .engineOp (.open 2 (.accepted "202501010000-0002") 100 none),
    .engineOp (.sentinel 3 100 (.act "202501010000-0002" .cancel)),
    .engineOp (.write 4 100 true), .kill, .spawn, .boot]

/-- The restarted engine shows the older of the two deals first. -/
theorem closedDeals_order_after_restart :
    ¬ ∀ (cfg : BotConfig) (sig : Signals) (initialBalanceBtc : ℚ) (ls : List PortalStep)
      (now : Instant) (price : ℚ) (isOpen : Bool) (s : Life),
      Machine.run (Life.step cfg sig initialBalanceBtc) Life.new
        (ls ++ [.engineOp (.write now price isOpen)]) = some s →
      s.portal.file.map StateDoc.closedDeals
        = some (s.closed.reverse.take closedDealsUiCap) := by
  intro h
  have hlaw := h smallBot .silent 1 restartAfterTwo 5 100
    true
  have hend : ∃ s, Machine.run (Life.step smallBot
      .silent 1) Life.new
      (restartAfterTwo ++ [.engineOp (.write 5 100 true)]) = some s ∧
      s.portal.file.map StateDoc.closedDeals ≠ some (s.closed.reverse.take closedDealsUiCap) := by
    refine ⟨_, rfl, ?_⟩
    decide +kernel
  obtain ⟨s, hrun, hne⟩ := hend
  exact hne (hlaw s hrun)

/-- A restart after the first closed deal meets the condition. -/
theorem closedDeals_after_one_restart :
    ∃ s, Machine.run (Life.step smallBot .silent 1)
        Life.new (restartAfterOne ++ [.engineOp (.write 3 100 true)]) = some s ∧
      s.portal.file.map StateDoc.closedDeals
        = some (s.closed.reverse.take closedDealsUiCap) := by
  refine ⟨_, rfl, closedDeals_after_write smallBot _ 1 restartAfterOne 3 100 true _ ?_ rfl⟩
  decide +kernel

end Portal

end Reverto
