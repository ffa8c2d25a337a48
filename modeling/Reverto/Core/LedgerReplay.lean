import Mathlib.Tactic
import Reverto.Core.LedgerAgreement
import Reverto.Lib.Machine

/-!
# The ledger and the engine across crashes (core/trading_engine.py, core/deal_store.py)

One bot with its state file and the `deals` table. Any call on the table may fail,
and the process may die between any two steps and within an operation. On a start
the deals of the state file that have no row are inserted.
-/

namespace Reverto

open TradingEngine

/-- A bot and its ledger. -/
structure LedgerWorld where
  books : Books
  file : Option StateDoc
  bot : Option EngineState
  deriving DecidableEq

/-- What can happen; `ok` says which calls on the ledger go through. -/
inductive LedgerStep where
  | boot (initialBalanceBtc : ℚ) (working : Bool)
  | op (op : EngineOp) (ok : LedgerCall → Bool)
  | stop
  | crash
  | crashIn (op : EngineOp) (ok : LedgerCall → Bool) (made : ℕ)

/-- The account a state file holds. -/
def fileState (file : Option StateDoc) : PaperState := (bootEngine 0 file).state

namespace Books

variable (o : LedgerOwner)

/-- `replay_deals_in_transaction` -/
def replayDealsInTransaction (deals : List PaperDeal) (rows : List DealRow) : List DealRow :=
  deals.foldl (fun rows d => (LedgerCall.createDeal d).apply o rows) rows

end Books

namespace LedgerWorld

variable (cfg : BotConfig) (sig : Signals) (o : LedgerOwner)

/-- `_load_state`: the replay keeps the rows that are there. -/
def load (initialBalanceBtc : ℚ) (working : Bool) (s : LedgerWorld) : LedgerWorld :=
  let e := bootEngine initialBalanceBtc s.file
  { s with
    books :=
      { s.books.lost with
        rows :=
          if working then
            Books.replayDealsInTransaction o (e.state.openDeals.items ++ e.state.closedDeals)
              s.books.rows
          else s.books.rows }
    bot := some e }

/-- One step, if it is enabled. -/
def step (s : LedgerWorld) : LedgerStep → Option LedgerWorld
  | .boot initialBalanceBtc working =>
    if s.bot = none then some (s.load o initialBalanceBtc working) else none
  | .op op ok =>
    match s.bot with
    | none => none
    | some e =>
      let out := op.program cfg sig ⟨e, s.file⟩
      let calls := ledgerCalls out.log
      if accepts ok s.books.rows e.state calls = true then
        let books := calls.foldl (Books.call o ok) s.books
        some
          { books := if savesFile ⟨e, s.file⟩ op then books.saved else books
            file := out.state.file
            bot := some out.state.engine }
      else none
  | .stop =>
    match s.bot with
    | none => none
    | some _ =>
      some { books := s.books.lost, file := some (StateDoc.markStopped s.file), bot := none }
  | .crash =>
    match s.bot with
    | none => none
    | some _ => some { s with books := s.books.lost, bot := none }
  | .crashIn op ok made =>
    match s.bot with
    | none => none
    | some e =>
      let calls := ledgerCalls (op.program cfg sig ⟨e, s.file⟩).log
      if accepts ok s.books.rows e.state calls = true then
        let books := (calls.take made).foldl (Books.call o ok) s.books
        some { s with books := books.lost, bot := none }
      else none

end LedgerWorld

variable (o : LedgerOwner)

/-! ### The account the file gives back -/

/-- Agreement looks at the ids of the open deals and at the closed deals. -/
theorem agrees_congr (rows : List DealRow) (X : List String) (s s' : PaperState)
    (h : Agrees o rows X s) (hopen : s'.openDeals = s.openDeals)
    (hclosed : s'.closedDeals = s.closedDeals) : Agrees o rows X s' := by
  intro i
  refine (h i).frame o rows rows X X s s' i (fun r hr _ => hr) id ?_ fun d hd _ => hclosed ▸ hd
  rw [PaperState.openIds, hopen]
  rfl

theorem Shaped.congr (s s' : PaperState) (hs : Shaped s) (hopen : s'.openDeals = s.openDeals)
    (hclosed : s'.closedDeals = s.closedDeals) : Shaped s' := by
  refine ⟨hopen ▸ hs.isOpen, hclosed ▸ hs.isClosed, ?_, ?_⟩
  · rw [PaperState.closedIds, hclosed]
    exact hs.nodup
  · rw [PaperState.closedIds, PaperState.openIds, hclosed, hopen]
    exact hs.disjoint

theorem bootEngine_deals (initialBalanceBtc : ℚ) (file : Option StateDoc) :
    (bootEngine initialBalanceBtc file).state.openDeals = (fileState file).openDeals ∧
      (bootEngine initialBalanceBtc file).state.closedDeals = (fileState file).closedDeals := by
  cases file with
  | none => exact ⟨rfl, rfl⟩
  | some doc => exact ⟨rfl, rfl⟩

/-- The account the portal loads has the deals of the file. -/
theorem loadPaperStateFromFile_deals (file : Option StateDoc) :
    (loadPaperStateFromFile file).openDeals = (fileState file).openDeals ∧
      (loadPaperStateFromFile file).closedDeals = (fileState file).closedDeals := by
  cases file with
  | none => exact ⟨rfl, rfl⟩
  | some doc => exact ⟨rfl, rfl⟩

theorem markStopped_deals (file : Option StateDoc) :
    (fileState (some (StateDoc.markStopped file))).openDeals = (fileState file).openDeals ∧
      (fileState (some (StateDoc.markStopped file))).closedDeals = (fileState file).closedDeals := by
  cases file with
  | none => exact ⟨rfl, rfl⟩
  | some doc => exact ⟨rfl, rfl⟩

/-- The row of a closed deal is the row of the deal the file gives back. -/
theorem DealRow.Records.reload (r : DealRow) (d : PaperDeal) (h : r.Records d)
    (hd : d.isOpen = false) : r.Records (dictToDeal (dealToDict d 0)) := by
  refine ⟨h.1, ?_⟩
  rw [dictToDeal_dealToDict, shownPnl_closed d 0 hd]
  simp only [Decimal.roundTo_roundTo]
  exact h.2

section Reload

variable (s : PaperState) (doc : StateDoc) (h : Lists s doc)
include h

theorem fileState_openItems :
    ∃ price, (fileState (some doc)).openDeals.items =
      s.openDeals.items.map fun d => dictToDeal (dealToDict d price) := by
  obtain ⟨price, hdoc⟩ := h.openDeals
  refine ⟨price, ?_⟩
  have hitems : doc.openDeals.map dictToDeal =
      s.openDeals.items.map fun d => dictToDeal (dealToDict d price) := by
    rw [hdoc, List.map_map]
    rfl
  have hnodup : ((doc.openDeals.map dictToDeal).map PaperDeal.id).Nodup := by
    rw [hitems, List.map_map]
    exact s.openDeals.nodup
  rw [← hitems]
  exact KeyedDict.ofList_items _ hnodup

theorem fileState_openIds : (fileState (some doc)).openIds = s.openIds := by
  obtain ⟨price, hitems⟩ := fileState_openItems s doc h
  rw [PaperState.openIds, hitems, List.map_map]
  rfl

theorem fileState_closed (x : PaperDeal) (hx : x ∈ (fileState (some doc)).closedDeals) :
    ∃ d ∈ s.closedDeals, x = dictToDeal (dealToDict d 0) := by
  obtain ⟨l, hdoc, hl, _⟩ := h.closedDeals
  have hclosed : (fileState (some doc)).closedDeals = doc.closedDeals.map dictToDeal := rfl
  rw [hclosed, hdoc, List.map_map] at hx
  obtain ⟨d, hd, rfl⟩ := List.mem_map.mp hx
  exact ⟨d, hl hd, rfl⟩

theorem shaped_fileState (hs : Shaped s) : Shaped (fileState (some doc)) where
  isOpen := by
    obtain ⟨price, hitems⟩ := fileState_openItems s doc h
    intro x hx
    rw [hitems] at hx
    obtain ⟨d, hd, rfl⟩ := List.mem_map.mp hx
    exact hs.isOpen d hd
  isClosed := by
    intro x hx
    obtain ⟨d, hd, rfl⟩ := fileState_closed s doc h x hx
    exact hs.isClosed d hd
  nodup := by
    obtain ⟨l, hdoc, _, hnodup⟩ := h.closedDeals
    have hids : (fileState (some doc)).closedIds = l.map PaperDeal.id := by
      show ((doc.closedDeals.map dictToDeal).map PaperDeal.id) = _
      rw [hdoc, List.map_map, List.map_map]
      rfl
    rw [hids]
    exact hnodup hs.nodup
  disjoint := by
    intro i hi
    obtain ⟨x, hx, rfl⟩ := List.mem_map.mp hi
    obtain ⟨d, hd, rfl⟩ := fileState_closed s doc h x hx
    rw [fileState_openIds s doc h]
    exact hs.disjoint d.id (List.mem_map_of_mem hd)

theorem agrees_fileState (hs : Shaped s) (rows : List DealRow) (X : List String)
    (ha : Agrees o rows X s) :
    Agrees o rows X (fileState (some doc)) := by
  intro i
  have hids := fileState_openIds s doc h
  have hclosed : ∀ x ∈ (fileState (some doc)).closedDeals, x.id = i →
      ∃ d ∈ s.closedDeals, d.id = i ∧ x = dictToDeal (dealToDict d 0) := by
    intro x hx hxi
    obtain ⟨d, hd, rfl⟩ := fileState_closed s doc h x hx
    exact ⟨d, hd, hxi, rfl⟩
  refine ⟨fun hi => (ha i).owned ?_, fun hn hi => (ha i).openRow hn (hids ▸ hi),
    fun hn x hx hxi r hr hri => ?_, fun hn r hr hri ho hst => ?_⟩
  · rcases hi with hi | hi
    · exact Or.inl (hids ▸ hi)
    · obtain ⟨x, hx, hxi⟩ := List.mem_map.mp hi
      obtain ⟨d, hd, hdi, _⟩ := hclosed x hx hxi
      exact Or.inr (List.mem_map.mpr ⟨d, hd, hdi⟩)
  · obtain ⟨d, hd, hdi, rfl⟩ := hclosed x hx hxi
    exact ((ha i).closedRow hn d hd hdi r hr hri).reload r d (hs.isClosed d hd)
  · rw [hids]
    exact (ha i).stale hn r hr hri ho hst

end Reload

/-! ### The replay -/

namespace Books

theorem subset_replay (deals : List PaperDeal) (rows : List DealRow) :
    rows ⊆ replayDealsInTransaction o deals rows := by
  induction deals generalizing rows with
  | nil => exact fun r hr => hr
  | cons d deals ih =>
    intro r hr
    exact ih _ ((mem_createDeal o d rows r).mpr (Or.inl hr))

/-- Every replayed deal has a row. -/
theorem exists_replay (deals : List PaperDeal) (rows : List DealRow) (d : PaperDeal)
    (hd : d ∈ deals) : ∃ r ∈ replayDealsInTransaction o deals rows, r.id = d.id := by
  induction deals generalizing rows with
  | nil => cases hd
  | cons e deals ih =>
    rcases List.mem_cons.mp hd with rfl | hd
    · by_cases hex : ∃ x ∈ rows, x.id = d.id
      · obtain ⟨x, hx, hxi⟩ := hex
        exact ⟨x, subset_replay o (d :: deals) rows hx, hxi⟩
      · have hnone : ∀ x ∈ rows, x.id ≠ d.id := fun x hx hxi => hex ⟨x, hx, hxi⟩
        refine ⟨dealRowTuple o d, subset_replay o deals _ ?_, rfl⟩
        exact (mem_createDeal o d rows _).mpr (Or.inr ⟨rfl, hnone⟩)
    · exact ih _ hd

/-- The replay adds rows of replayed deals only. -/
theorem mem_replay (deals : List PaperDeal) (rows : List DealRow) (r : DealRow)
    (hr : r ∈ replayDealsInTransaction o deals rows) :
    r ∈ rows ∨ ∃ d ∈ deals, r = dealRowTuple o d := by
  induction deals generalizing rows with
  | nil => exact Or.inl hr
  | cons e deals ih =>
    rcases ih _ hr with hr | ⟨d, hd, rfl⟩
    · rcases (mem_createDeal o e rows r).mp hr with hr | ⟨rfl, _⟩
      · exact Or.inl hr
      · exact Or.inr ⟨e, List.mem_cons_self, rfl⟩
    · exact Or.inr ⟨d, List.mem_cons_of_mem _ hd, rfl⟩

end Books

theorem agrees_replay (rows : List DealRow) (X : List String) (s : PaperState) (hs : Shaped s)
    (h : Agrees o rows X s) :
    Agrees o (Books.replayDealsInTransaction o (s.openDeals.items ++ s.closedDeals) rows) X s := by
  intro i
  have hmem : ∀ r ∈ Books.replayDealsInTransaction o (s.openDeals.items ++ s.closedDeals) rows,
      r ∈ rows ∨ (∃ d ∈ s.openDeals.items, r = dealRowTuple o d) ∨
        ∃ d ∈ s.closedDeals, r = dealRowTuple o d := by
    intro r hr
    rcases Books.mem_replay o _ rows r hr with hr | ⟨d, hd, rfl⟩
    · exact Or.inl hr
    · rcases List.mem_append.mp hd with hd | hd
      · exact Or.inr (Or.inl ⟨d, hd, rfl⟩)
      · exact Or.inr (Or.inr ⟨d, hd, rfl⟩)
  have hopen : ∀ d ∈ s.openDeals.items, d.id ∈ s.openIds := fun d hd => List.mem_map_of_mem hd
  have hclosed : ∀ d ∈ s.closedDeals, d.id ∈ s.closedIds := fun d hd => List.mem_map_of_mem hd
  refine ⟨fun hi r hr hri => ?_, fun hn hi r hr hri => ?_, fun hn e he hei r hr hri => ?_,
    fun hn r hr hri ho hst => ?_⟩
  · rcases hmem r hr with hr | ⟨d, _, rfl⟩ | ⟨d, _, rfl⟩
    · exact (h i).owned hi r hr hri
    · exact dealRowTuple_ownedBy o d
    · exact dealRowTuple_ownedBy o d
  · rcases hmem r hr with hr | ⟨d, hd, rfl⟩ | ⟨d, hd, rfl⟩
    · exact (h i).openRow hn hi r hr hri
    · exact dealRowTuple_open o d (hs.isOpen d hd)
    · exact absurd hi (hs.disjoint i (hri ▸ hclosed d hd))
  · rcases hmem r hr with hr | ⟨d, hd, rfl⟩ | ⟨d, hd, rfl⟩
    · exact (h i).closedRow hn e he hei r hr hri
    · exact absurd (hopen d hd) (hs.disjoint d.id (List.mem_map.mpr ⟨e, he, hei.trans hri.symm⟩))
    · have hde : d = e := List.inj_on_of_nodup_map hs.nodup hd he (hri.trans hei.symm)
      subst hde
      exact dealRowTuple_records o d (hs.isClosed d hd)
  · rcases hmem r hr with hr | ⟨d, hd, rfl⟩ | ⟨d, hd, rfl⟩
    · exact (h i).stale hn r hr hri ho hst
    · exact hri ▸ hopen d hd
    · have hd' := (dealRowTuple_records o d (hs.isClosed d hd)).1
      rw [hst] at hd'
      cases hd'

/-! ### Runs -/

namespace LedgerWorld

variable (cfg : BotConfig) (sig : Signals)

/-- The rows agree with the deals in memory and with those a restart would load. -/
structure Synced (s : LedgerWorld) : Prop where
  fileShaped : Shaped (fileState s.file)
  fileAgrees : Agrees o s.books.rows s.books.unsaved (fileState s.file)
  shaped : ∀ e, s.bot = some e → Shaped e.state
  agrees : ∀ e, s.bot = some e → Agrees o s.books.rows s.books.astray e.state
  opened : ∀ e, s.bot = some e → ∀ i ∈ e.state.openIds,
    i ∈ (fileState s.file).openIds ∨ i ∈ s.books.unsaved

/-- A stopped bot whose ledger agrees with its state file. -/
structure AtRest (s : LedgerWorld) : Prop where
  stopped : s.bot = none
  unsaved : s.books.unsaved = []
  shaped : Shaped (fileState s.file)
  agrees : Agrees o s.books.rows [] (fileState s.file)

/-- A bot that was just created has no rows yet, whatever rows other bots have. -/
theorem atRest_new (rows : List DealRow) (h : ∀ r ∈ rows, ¬ r.OwnedBy o) :
    AtRest o ⟨⟨rows, [], []⟩, none, none⟩ where
  stopped := rfl
  unsaved := rfl
  shaped :=
    { isOpen := fun _ hd => by cases hd
      isClosed := fun _ hd => by cases hd
      nodup := List.nodup_nil
      disjoint := fun _ hi => by cases hi }
  agrees := fun _ =>
    { owned := fun hi => by
        rcases hi with hi | hi
        · cases hi
        · cases hi
      openRow := fun _ hi => by cases hi
      closedRow := fun _ _ hd => by cases hd
      stale := fun _ r hr _ ho => absurd ho (h r hr) }

/-- Without a process only the file counts. -/
theorem synced_stopped (s : LedgerWorld) (hbot : s.bot = none) (hs : Shaped (fileState s.file))
    (h : Agrees o s.books.rows s.books.unsaved (fileState s.file)) : Synced o s where
  fileShaped := hs
  fileAgrees := h
  shaped := fun e he => by rw [hbot] at he; cases he
  agrees := fun e he => by rw [hbot] at he; cases he
  opened := fun e he => by rw [hbot] at he; cases he

/-- The engine that is loaded has the deals of the file. -/
theorem synced_load (s : LedgerWorld) (b : ℚ) (working : Bool) (h : Synced o s) :
    Synced o (s.load o b working) := by
  obtain ⟨hopen, hclosed⟩ := bootEngine_deals b s.file
  have hshaped : Shaped (bootEngine b s.file).state := h.fileShaped.congr _ _ hopen hclosed
  have hagrees := agrees_congr o _ _ _ (bootEngine b s.file).state h.fileAgrees hopen hclosed
  have hrows : Agrees o (s.load o b working).books.rows s.books.unsaved
      (bootEngine b s.file).state := by
    cases working with
    | false => exact hagrees
    | true => exact agrees_replay o s.books.rows s.books.unsaved _ hshaped hagrees
  refine ⟨h.fileShaped, ?_, ?_, ?_, ?_⟩
  · exact agrees_congr o _ _ _ _ hrows hopen.symm hclosed.symm
  · rintro e ⟨rfl⟩
    exact hshaped
  · rintro e ⟨rfl⟩
    exact hrows
  · rintro e ⟨rfl⟩ i hi
    left
    rw [PaperState.openIds, hopen] at hi
    exact hi

section Operation

variable (s : LedgerWorld) (e : EngineState) (op : EngineOp) (ok : LedgerCall → Bool)
  (h : Synced o s) (hbot : s.bot = some e)
include h hbot

/-- The calls of an operation, also the first of them only, keep the agreement
with the file. -/
theorem fileAgrees_calls (calls : List LedgerCall)
    (hsub : calls ⊆ ledgerCalls (op.program cfg sig ⟨e, s.file⟩).log) :
    Agrees o (calls.foldl (Books.call o ok) s.books).rows
      (calls.foldl (Books.call o ok) s.books).unsaved (fileState s.file) := by
  refine agrees_calls o ok s.books calls _ h.fileShaped h.fileAgrees fun d hd => ?_
  have heff := ledgerEffect_op cfg sig op ⟨e, s.file⟩
  obtain ⟨hopen, hmem⟩ := saves_effect _ _ _ heff (h.shaped e hbot) d (hsub hd)
  exact ⟨hopen, h.opened e hbot d.id hmem⟩

theorem synced_op (s' : LedgerWorld) (hstep : step cfg sig o s (.op op ok) = some s') :
    Synced o s' := by
  simp only [step, hbot] at hstep
  obtain ⟨hacc, hs'⟩ := Option.ite_none_right_eq_some.mp hstep
  cases hs'
  have heff := ledgerEffect_op cfg sig op ⟨e, s.file⟩
  have hnew := accepts_createDeal ok s.books.rows e.state _ hacc
  have hshaped := shaped_effect _ _ _ heff (h.shaped e hbot) fun d hd => (hnew d hd).2.2
  have hagrees := agrees_effect o _ _ _ heff (h.shaped e hbot) ok s.books (h.agrees e hbot) hacc
  cases hsave : savesFile ⟨e, s.file⟩ op with
  | false =>
    have hfile := file_kept cfg sig op ⟨e, s.file⟩ hsave
    refine ⟨?_, ?_, ?_, ?_, ?_⟩
    · simp only [hfile]
      exact h.fileShaped
    · simp only [hfile]
      exact fileAgrees_calls o cfg sig s e op ok h hbot _ fun _ hc => hc
    · rintro _ ⟨rfl⟩
      exact hshaped
    · rintro _ ⟨rfl⟩
      exact hagrees
    · rintro _ ⟨rfl⟩ i hi
      simp only [hfile]
      rcases openIds_effect o _ _ _ heff ok s.books (fun d hd => ⟨(hnew d hd).1, (hnew d hd).2.2.1⟩)
        i hi with hi | hi
      · exact (h.opened e hbot i hi).imp id fun hx => Books.unsaved_subset_calls o ok s.books _ hx
      · exact Or.inr hi
  | true =>
    obtain ⟨doc, hfile, hlists⟩ := lists_op cfg sig op ⟨e, s.file⟩ hsave
    refine ⟨?_, ?_, ?_, ?_, ?_⟩
    · simp only [hfile]
      exact shaped_fileState _ doc hlists hshaped
    · simp only [hfile]
      exact agrees_fileState o _ doc hlists hshaped _ _ hagrees
    · rintro _ ⟨rfl⟩
      exact hshaped
    · rintro _ ⟨rfl⟩
      exact hagrees
    · rintro _ ⟨rfl⟩ i hi
      left
      simp only [hfile, fileState_openIds _ doc hlists]
      exact hi

theorem synced_crashIn (made : ℕ) (s' : LedgerWorld)
    (hstep : step cfg sig o s (.crashIn op ok made) = some s') : Synced o s' := by
  simp only [step, hbot] at hstep
  obtain ⟨_, hs'⟩ := Option.ite_none_right_eq_some.mp hstep
  cases hs'
  refine synced_stopped o _ rfl h.fileShaped ?_
  exact fileAgrees_calls o cfg sig s e op ok h hbot _ (List.take_subset _ _)

end Operation

theorem synced_step (s s' : LedgerWorld) (l : LedgerStep) (h : Synced o s)
    (hstep : step cfg sig o s l = some s') : Synced o s' := by
  cases l with
  | boot b working =>
    obtain ⟨_, hs'⟩ := Option.ite_none_right_eq_some.mp hstep
    cases hs'
    exact synced_load o s b working h
  | op op ok =>
    cases hbot : s.bot with
    | none => simp [step, hbot] at hstep
    | some e => exact synced_op o cfg sig s e op ok h hbot s' hstep
  | stop =>
    cases hbot : s.bot with
    | none => simp [step, hbot] at hstep
    | some e =>
      simp only [step, hbot] at hstep
      cases hstep
      obtain ⟨hopen, hclosed⟩ := markStopped_deals s.file
      refine synced_stopped o _ rfl (h.fileShaped.congr _ _ hopen hclosed) ?_
      exact agrees_congr o _ _ _ _ h.fileAgrees hopen hclosed
  | crash =>
    cases hbot : s.bot with
    | none => simp [step, hbot] at hstep
    | some e =>
      simp only [step, hbot] at hstep
      cases hstep
      exact synced_stopped o _ rfl h.fileShaped h.fileAgrees
  | crashIn op ok made =>
    cases hbot : s.bot with
    | none => simp [step, hbot] at hstep
    | some e => exact synced_crashIn o cfg sig s e op ok h hbot made s' hstep

/-- The ledger shows the deals of an account, the exempt ones perhaps out of date. -/
structure Mirrors (rows : List DealRow) (exempt : List String) (s : PaperState) : Prop where
  row : ∀ d ∈ s.openDeals.items ++ s.closedDeals, ∃ r ∈ rows, r.id = d.id ∧ r.OwnedBy o
  openRow : ∀ d ∈ s.openDeals.items, d.id ∉ exempt → ∀ r ∈ rows, r.id = d.id → r.status = .open
  closedRow : ∀ d ∈ s.closedDeals, d.id ∉ exempt → ∀ r ∈ rows, r.id = d.id → r.Records d
  stale : ∀ r ∈ rows, r.OwnedBy o → r.status = .open → r.id ∉ exempt → r.id ∈ s.openIds

/-- After a restart with a working ledger the ledger shows the deals of the state
file; out of date are only deals whose close call failed, or that were opened or
closed and not written to the file before the process died. -/
theorem mirrors_after_restart (s : LedgerWorld) (ls : List LedgerStep) (initialBalanceBtc : ℚ)
    (t : LedgerWorld) (hs : AtRest o s)
    (hrun : Machine.run (step cfg sig o) s (ls ++ [.boot initialBalanceBtc true]) = some t) :
    t.bot = some (bootEngine initialBalanceBtc t.file) ∧
      Mirrors o t.books.rows t.books.astray (bootEngine initialBalanceBtc t.file).state := by
  obtain ⟨u, hu, hlast⟩ := (Machine.run_append_eq_some _ _ _ _ _).mp hrun
  have hstart : Synced o s := by
    refine synced_stopped o s hs.stopped hs.shaped ?_
    rw [hs.unsaved]
    exact hs.agrees
  have hsync := Machine.run_keeps (step cfg sig o) (Synced o)
    (fun s l s' h hl => synced_step o cfg sig s s' l h hl) s u ls hstart hu
  obtain ⟨v, hv, hend⟩ := (Machine.run_cons_eq_some _ _ _ _ _).mp hlast
  cases hend
  obtain ⟨_, ht⟩ := Option.ite_none_right_eq_some.mp hv
  cases ht
  have hload := synced_load o u initialBalanceBtc true hsync
  have hagrees := hload.agrees _ rfl
  refine ⟨rfl, fun d hd => ?_, fun d hd hn r hr hri => ?_, fun d hd hn r hr hri => ?_,
    fun r hr ho hst hn => ?_⟩
  · obtain ⟨r, hr, hri⟩ := Books.exists_replay o _ u.books.rows d hd
    refine ⟨r, hr, hri, (hagrees d.id).owned ?_ r hr hri⟩
    exact (List.mem_append.mp hd).imp List.mem_map_of_mem List.mem_map_of_mem
  · exact (hagrees d.id).openRow hn (List.mem_map_of_mem hd) r hr hri
  · exact (hagrees d.id).closedRow hn d hd rfl r hr hri
  · exact (hagrees r.id).stale hn r hr rfl ho hst

/-- The calls of the operation go through; the process dies with nothing unsaved. -/
def Settled (s : LedgerWorld) : LedgerStep → Prop
  | .boot .. => True
  | .op op ok => ∀ e, s.bot = some e →
      ∀ c ∈ ledgerCalls (op.program cfg sig ⟨e, s.file⟩).log, ok c = true
  | .stop | .crash => s.books.unsaved = []
  | .crashIn op ok made => ∀ e, s.bot = some e →
      (((ledgerCalls (op.program cfg sig ⟨e, s.file⟩).log).take made).foldl (Books.call o ok)
        s.books).unsaved = []

/-- No deal is astray, nor will one be after the next start. -/
def NoneAstray (s : LedgerWorld) : Prop :=
  match s.bot with
  | none => s.books.unsaved = []
  | some _ => s.books.astray = []

theorem astray_calls (ok : LedgerCall → Bool) (b : Books) (calls : List LedgerCall)
    (hok : ∀ c ∈ calls, ok c = true) (h : b.astray = []) :
    (calls.foldl (Books.call o ok) b).astray = [] := by
  induction calls generalizing b with
  | nil => exact h
  | cons c calls ih =>
    refine ih (b.call o ok c) (fun c' hc' => hok c' (List.mem_cons_of_mem _ hc')) ?_
    have hc := hok c List.mem_cons_self
    unfold Books.call
    rw [hc]
    cases c with
    | saveDeal d => simp [h]
    | closeDeal i price reason pnlBtc pnlPct now trigger => simp [h]
    | _ => exact h

theorem noneAstray_step (s s' : LedgerWorld) (l : LedgerStep) (h : NoneAstray s)
    (hG : Settled o cfg sig s l) (hstep : step cfg sig o s l = some s') : NoneAstray s' := by
  unfold NoneAstray at h
  cases hbot : s.bot with
  | none =>
    rw [hbot] at h
    cases l with
    | boot b working =>
      simp only [step, if_pos hbot] at hstep
      cases hstep
      exact h
    | _ => simp [step, hbot] at hstep
  | some e =>
    rw [hbot] at h
    cases l with
    | boot b working => simp [step, hbot] at hstep
    | op op ok =>
      simp only [step, hbot] at hstep
      obtain ⟨_, hs'⟩ := Option.ite_none_right_eq_some.mp hstep
      cases hs'
      have hcalls := astray_calls o ok s.books _ (hG e hbot) h
      show (if savesFile ⟨e, s.file⟩ op = true then _ else _ : Books).astray = []
      split
      · exact hcalls
      · exact hcalls
    | stop =>
      simp only [step, hbot] at hstep
      cases hstep
      exact hG
    | crash =>
      simp only [step, hbot] at hstep
      cases hstep
      exact hG
    | crashIn op ok made =>
      simp only [step, hbot] at hstep
      obtain ⟨_, hs'⟩ := Option.ite_none_right_eq_some.mp hstep
      cases hs'
      exact hG e hbot

/-- Then the ledger shows every deal of the state file as it is. -/
theorem mirrors_settled (s : LedgerWorld) (ls : List LedgerStep) (initialBalanceBtc : ℚ)
    (t : LedgerWorld) (hs : AtRest o s)
    (hG : Machine.Guarded (step cfg sig o) (Settled o cfg sig) s
      (ls ++ [.boot initialBalanceBtc true]))
    (hrun : Machine.run (step cfg sig o) s (ls ++ [.boot initialBalanceBtc true]) = some t) :
    Mirrors o t.books.rows [] (bootEngine initialBalanceBtc t.file).state := by
  obtain ⟨hbot, hmirrors⟩ := mirrors_after_restart o cfg sig s ls initialBalanceBtc t hs hrun
  have hstart : NoneAstray s := by
    unfold NoneAstray
    rw [hs.stopped]
    exact hs.unsaved
  have hend := Machine.run_invariant (step cfg sig o) (fun _ => True) (Settled o cfg sig) NoneAstray
    (fun s l s' _ h hG hl => noneAstray_step o cfg sig s s' l h hG hl) s t _ hstart
    (fun _ _ => trivial) hG hrun
  unfold NoneAstray at hend
  rw [hbot] at hend
  rw [← hend]
  exact hmirrors

/-- The owner of the rows of a bot. -/
def mirrorOwner : LedgerOwner := ⟨1, "mirror", "mirror"⟩

/-- A bot with a small base order. -/
def mirrorBot : BotConfig := .small "mirror"

/-- A bot that was just created, and an empty ledger. -/
def emptyBooks : LedgerWorld := ⟨⟨[], [], []⟩, none, none⟩

/-- Every call goes through but the close calls. -/
def closesFail : LedgerCall → Bool
  | .closeDeal .. => false
  | _ => true

/-- A deal is opened and closed by hand, and the ledger misses the close. -/
def closeMissed : List LedgerStep :=
  [.boot 1 true, .op (.open 0 (.accepted "202501010000-0001") 100 none) fun _ => true,
    .op (.write 1 100 true) fun _ => true,
    .op (.sentinel 2 100 (.act "202501010000-0001" .close)) closesFail, .crash]

theorem mirrors_closeMissed :
    ∃ t, Machine.run (step mirrorBot .silent mirrorOwner) emptyBooks
        (closeMissed ++ [.boot 1 true]) = some t ∧ t.bot = some (bootEngine 1 t.file) ∧
      Mirrors mirrorOwner t.books.rows t.books.astray (bootEngine 1 t.file).state := by
  have hrest : AtRest mirrorOwner emptyBooks :=
    atRest_new mirrorOwner [] fun _ hr => by cases hr
  have hsome : (Machine.run (step mirrorBot .silent mirrorOwner) emptyBooks
      (closeMissed ++ [.boot 1 true])).isSome = true := by
    decide +kernel
  obtain ⟨t, ht⟩ := Option.isSome_iff_exists.mp hsome
  exact ⟨t, ht, mirrors_after_restart mirrorOwner mirrorBot .silent emptyBooks closeMissed 1 t hrest
    ht⟩

/-- The row of the deal stays open, the replay included. -/
theorem not_mirrors_closeMissed :
    ¬ ∀ (o : LedgerOwner) (cfg : BotConfig) (sig : Signals) (s : LedgerWorld)
      (ls : List LedgerStep) (initialBalanceBtc : ℚ) (t : LedgerWorld), AtRest o s →
      Machine.run (step cfg sig o) s (ls ++ [.boot initialBalanceBtc true]) = some t →
      Mirrors o t.books.rows [] (bootEngine initialBalanceBtc t.file).state := by
  intro h
  have hrest : AtRest mirrorOwner emptyBooks :=
    atRest_new mirrorOwner [] fun _ hr => by cases hr
  have hend : (Machine.run (step mirrorBot .silent mirrorOwner) emptyBooks
      (closeMissed ++ [.boot 1 true])).map (fun t => t.books.rows.any fun r =>
        decide (r.userId = 1 ∧ r.botSlug = "mirror" ∧ r.status = .open ∧
          r.id ∉ (bootEngine 1 t.file).state.openIds)) = some true := by
    decide +kernel
  obtain ⟨t, ht, hany⟩ := Option.map_eq_some_iff.mp hend
  obtain ⟨r, hr, hrow⟩ := List.any_eq_true.mp hany
  obtain ⟨huser, hslug, hst, hn⟩ := of_decide_eq_true hrow
  have hmirrors := h mirrorOwner mirrorBot .silent emptyBooks closeMissed 1 t hrest ht
  exact hn (hmirrors.stale r hr ⟨huser, hslug⟩ hst (List.not_mem_nil))

end LedgerWorld

end Reverto
