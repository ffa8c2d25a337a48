import Mathlib.Tactic
import Reverto.Core.LedgerOps

/-!
# The ledger against the deals of the engine (core/deal_store.py, core/trading_engine.py)

What it means for the rows of the ledger to agree with an account, and that the
calls of an operation keep the agreement. A call may fail: the engine logs it and
goes on, and the deal the call was about is no longer expected to agree.
-/

namespace Reverto

open TradingEngine

/-- The table, with the ids of the deals whose rows the engine has parted from, and
of those it will have parted from if the process dies now. -/
structure Books where
  rows : List DealRow
  astray : List String
  unsaved : List String
  deriving DecidableEq

/-- The id of the deal a call is about. -/
def LedgerCall.dealId : LedgerCall → String
  | .createDeal d => d.id
  | .saveOrder _ dealId _ => dealId
  | .saveDeal d => d.id
  | .closeDeal dealId .. => dealId

namespace Books

variable (o : LedgerOwner)

/-- One call of `_db_create_deal_with_retry`, `_db_save_order`, `_db_save_deal` or
`_db_close_deal`. -/
def call (ok : LedgerCall → Bool) (b : Books) (c : LedgerCall) : Books :=
  match ok c, c with
  | true, .createDeal d => ⟨c.apply o b.rows, b.astray, d.id :: b.unsaved⟩
  | true, .saveDeal d => ⟨c.apply o b.rows, b.astray.filter (· ≠ d.id), b.unsaved⟩
  | true, .closeDeal i .. => ⟨c.apply o b.rows, b.astray.filter (· ≠ i), i :: b.unsaved⟩
  | false, .closeDeal i .. => ⟨b.rows, i :: b.astray, b.unsaved⟩
  | _, _ => b

/-- The state file has been written. -/
def saved (b : Books) : Books := { b with unsaved := b.astray }

/-- The memory of the process is gone. -/
def lost (b : Books) : Books := { b with astray := b.unsaved }

end Books

/-- A deal is opened under an id that no row and no deal in memory has. -/
def accepts (ok : LedgerCall → Bool) (rows : List DealRow) (s : PaperState) (calls : List LedgerCall) :
    Bool :=
  calls.all fun
    | .createDeal d =>
      ok (.createDeal d) && rows.all (fun r => r.id ≠ d.id) &&
        s.openDeals.items.all (fun e => e.id ≠ d.id) && s.closedDeals.all (fun e => e.id ≠ d.id)
    | _ => true

/-! ### Rows and deals -/

/-- The row of a closed deal: the PnL up to the decimals the state file keeps, or
none for a deal that was cancelled. -/
def DealRow.Records (r : DealRow) (d : PaperDeal) : Prop :=
  r.status = .closed ∧
    ((Decimal.roundTo 8 r.pnlBtc = Decimal.roundTo 8 d.pnlBtc ∧
        Decimal.roundTo 4 r.pnlPct = Decimal.roundTo 4 d.pnlPct) ∨
      (d.closeReason = some .cancelled ∧ r.pnlBtc = 0 ∧ r.pnlPct = 0))

/-- The ids of the open deals. -/
def PaperState.openIds (s : PaperState) : List String := s.openDeals.items.map PaperDeal.id

/-- The ids of the closed deals. -/
def PaperState.closedIds (s : PaperState) : List String := s.closedDeals.map PaperDeal.id

/-- The rows under an id agree with the account, or the id is exempt. -/
structure AgreesAt (o : LedgerOwner) (rows : List DealRow) (exempt : List String) (s : PaperState)
    (i : String) : Prop where
  owned : i ∈ s.openIds ∨ i ∈ s.closedIds → ∀ r ∈ rows, r.id = i → r.OwnedBy o
  openRow : i ∉ exempt → i ∈ s.openIds → ∀ r ∈ rows, r.id = i → r.status = .open
  closedRow : i ∉ exempt → ∀ d ∈ s.closedDeals, d.id = i → ∀ r ∈ rows, r.id = i → r.Records d
  stale : i ∉ exempt → ∀ r ∈ rows, r.id = i → r.OwnedBy o → r.status = .open → i ∈ s.openIds

/-- The rows of the ledger agree with the account except for exempt deals. -/
def Agrees (o : LedgerOwner) (rows : List DealRow) (exempt : List String) (s : PaperState) : Prop :=
  ∀ i, AgreesAt o rows exempt s i

/-- Open deals are marked open, closed deals closed, and no two share an id. -/
structure Shaped (s : PaperState) : Prop where
  isOpen : ∀ d ∈ s.openDeals.items, d.isOpen = true
  isClosed : ∀ d ∈ s.closedDeals, d.isOpen = false
  nodup : s.closedIds.Nodup
  disjoint : ∀ i ∈ s.closedIds, i ∉ s.openIds

variable (o : LedgerOwner)

/-- What does not touch an id keeps the agreement there. -/
theorem AgreesAt.frame (rows rows' : List DealRow) (X X' : List String) (s s' : PaperState)
    (i : String) (h : AgreesAt o rows X s i)
    (hrows : ∀ r ∈ rows', r.id = i → r ∈ rows) (hX : i ∈ X → i ∈ X')
    (hopen : i ∈ s'.openIds ↔ i ∈ s.openIds)
    (hclosed : ∀ d ∈ s'.closedDeals, d.id = i → d ∈ s.closedDeals) :
    AgreesAt o rows' X' s' i where
  owned := by
    intro hi r hr hri
    refine h.owned ?_ r (hrows r hr hri) hri
    rcases hi with hi | hi
    · exact Or.inl (hopen.mp hi)
    · obtain ⟨d, hd, hdi⟩ := List.mem_map.mp hi
      exact Or.inr (List.mem_map.mpr ⟨d, hclosed d hd hdi, hdi⟩)
  openRow := fun hn hi r hr hri => h.openRow (mt hX hn) (hopen.mp hi) r (hrows r hr hri) hri
  closedRow := fun hn d hd hdi r hr hri =>
    h.closedRow (mt hX hn) d (hclosed d hd hdi) hdi r (hrows r hr hri) hri
  stale := fun hn r hr hri ho hs => hopen.mpr (h.stale (mt hX hn) r (hrows r hr hri) hri ho hs)

/-! ### What a call does to the rows -/

theorem dealRowTuple_open (d : PaperDeal) (h : d.isOpen = true) :
    (dealRowTuple o d).status = .open := by
  simp only [dealRowTuple, h, if_true]

theorem dealRowTuple_records (d : PaperDeal) (h : d.isOpen = false) :
    (dealRowTuple o d).Records d := by
  refine ⟨?_, Or.inl ⟨rfl, rfl⟩⟩
  simp [dealRowTuple, h]

/-- A row of the table after an insert. -/
theorem mem_createDeal (d : PaperDeal) (rows : List DealRow) (r : DealRow) :
    r ∈ (LedgerCall.createDeal d).apply o rows ↔
      r ∈ rows ∨ (r = dealRowTuple o d ∧ ∀ x ∈ rows, x.id ≠ d.id) := by
  simp only [LedgerCall.apply]
  split
  · rename_i h
    obtain ⟨x, hx, hid⟩ : ∃ x ∈ rows, x.id = d.id := by simpa using h
    constructor
    · exact Or.inl
    · rintro (hr | ⟨_, hn⟩)
      · exact hr
      · exact absurd hid (hn x hx)
  · rename_i h
    have hn : ∀ x ∈ rows, x.id ≠ d.id := by simpa using h
    rw [List.mem_append, List.mem_singleton]
    constructor
    · rintro (hr | hr)
      · exact Or.inl hr
      · exact Or.inr ⟨hr, hn⟩
    · rintro (hr | ⟨hr, _⟩)
      · exact Or.inl hr
      · exact Or.inr hr

/-- A row of the table after an upsert. -/
theorem mem_saveDeal (d : PaperDeal) (rows : List DealRow) (r : DealRow)
    (h : r ∈ (LedgerCall.saveDeal d).apply o rows) :
    r = dealRowTuple o d ∨ (r ∈ rows ∧ (r.id = d.id → ¬ r.OwnedBy o)) := by
  simp only [LedgerCall.apply] at h
  split at h
  · obtain ⟨x, hx, hxr⟩ := List.mem_map.mp h
    split at hxr
    · exact Or.inl hxr.symm
    · rename_i hn
      subst hxr
      exact Or.inr ⟨hx, fun hid ho => hn ⟨hid, ho⟩⟩
  · rename_i hnone
    have hn : ∀ x ∈ rows, x.id = d.id → ¬ x.OwnedBy o := by
      intro x hx hid ho
      exact hnone (List.any_eq_true.mpr ⟨x, hx, by simpa using ⟨hid, ho⟩⟩)
    split at h
    · exact Or.inr ⟨h, hn r h⟩
    · rcases List.mem_append.mp h with h | h
      · exact Or.inr ⟨h, hn r h⟩
      · exact Or.inl (List.mem_singleton.mp h)

/-- A row of the table after a close. -/
theorem mem_closeDeal (i : String) (price : ℚ) (reason : CloseReason) (pnlBtc pnlPct : ℚ)
    (now : Instant) (trigger : ExitTrigger) (rows : List DealRow) (r : DealRow)
    (h : r ∈ (LedgerCall.closeDeal i price reason pnlBtc pnlPct now trigger).apply o rows) :
    (r ∈ rows ∧ (r.id = i → ¬ r.OwnedBy o)) ∨
      (∃ x ∈ rows, x.id = i ∧ r.id = i ∧ x.userId = r.userId ∧ x.botSlug = r.botSlug ∧
        r.status = .closed ∧ r.pnlBtc = pnlBtc ∧ r.pnlPct = pnlPct) := by
  simp only [LedgerCall.apply] at h
  obtain ⟨x, hx, hxr⟩ := List.mem_map.mp h
  split at hxr
  · rename_i hid
    subst hxr
    exact Or.inr ⟨x, hx, hid.1, hid.1, rfl, rfl, rfl, rfl, rfl⟩
  · rename_i hn
    subst hxr
    exact Or.inl ⟨hx, fun hid ho => hn ⟨hid, ho.1⟩⟩

/-- A call leaves the rows of the other deals alone. -/
theorem mem_apply_of_ne (c : LedgerCall) (rows : List DealRow) (r : DealRow)
    (hr : r ∈ c.apply o rows) (hne : r.id ≠ c.dealId) : r ∈ rows := by
  cases c with
  | createDeal d =>
    rcases (mem_createDeal o d rows r).mp hr with hr | ⟨rfl, _⟩
    · exact hr
    · exact absurd rfl hne
  | saveOrder order i fee => exact hr
  | saveDeal d =>
    rcases mem_saveDeal o d rows r hr with rfl | ⟨hr, _⟩
    · exact absurd rfl hne
    · exact hr
  | closeDeal i price reason pnlBtc pnlPct now trigger =>
    rcases mem_closeDeal o i price reason pnlBtc pnlPct now trigger rows r hr with
      ⟨hr, _⟩ | ⟨x, _, _, hri, _⟩
    · exact hr
    · exact absurd hri hne

/-- A call hands no row of a deal to another owner. -/
theorem ownedBy_apply (c : LedgerCall) (rows : List DealRow) (i : String)
    (h : ∀ r ∈ rows, r.id = i → r.OwnedBy o) :
    ∀ r ∈ c.apply o rows, r.id = i → r.OwnedBy o := by
  intro r hr hri
  cases c with
  | createDeal d =>
    rcases (mem_createDeal o d rows r).mp hr with hr | ⟨rfl, _⟩
    · exact h r hr hri
    · exact dealRowTuple_ownedBy o d
  | saveOrder order j fee => exact h r hr hri
  | saveDeal d =>
    rcases mem_saveDeal o d rows r hr with rfl | ⟨hr, _⟩
    · exact dealRowTuple_ownedBy o d
    · exact h r hr hri
  | closeDeal j price reason pnlBtc pnlPct now trigger =>
    rcases mem_closeDeal o j price reason pnlBtc pnlPct now trigger rows r hr with
      ⟨hr, _⟩ | ⟨x, hx, hxj, hrj, huser, hslug, _⟩
    · exact h r hr hri
    · have hown := h x hx (by rw [hxj, ← hrj, hri])
      exact ⟨huser ▸ hown.1, hslug ▸ hown.2⟩

namespace Books

variable (ok : LedgerCall → Bool) (b : Books) (c : LedgerCall)

theorem call_rows : (b.call o ok c).rows = if ok c = true then c.apply o b.rows else b.rows := by
  unfold call
  cases hok : ok c with
  | false => cases c <;> rfl
  | true => cases c <;> rfl

@[simp] theorem call_saveOrder (order : PaperOrder) (i : String) (fee : ℚ) :
    b.call o ok (.saveOrder order i fee) = b := by
  unfold call
  cases ok (.saveOrder order i fee) <;> rfl

theorem mem_call_rows_of_ne (r : DealRow) (hr : r ∈ (b.call o ok c).rows) (hne : r.id ≠ c.dealId) :
    r ∈ b.rows := by
  rw [call_rows] at hr
  split at hr
  · exact mem_apply_of_ne o c b.rows r hr hne
  · exact hr

theorem ownedBy_call (i : String) (h : ∀ r ∈ b.rows, r.id = i → r.OwnedBy o) :
    ∀ r ∈ (b.call o ok c).rows, r.id = i → r.OwnedBy o := by
  rw [call_rows]
  split
  · exact ownedBy_apply o c b.rows i h
  · exact h

theorem unsaved_subset_call : b.unsaved ⊆ (b.call o ok c).unsaved := by
  intro i hi
  unfold call
  cases hok : ok c with
  | false =>
    cases c with
    | _ => exact hi
  | true =>
    cases c with
    | createDeal d => exact List.mem_cons_of_mem _ hi
    | closeDeal j price reason pnlBtc pnlPct now trigger => exact List.mem_cons_of_mem _ hi
    | _ => exact hi

theorem unsaved_subset_calls (calls : List LedgerCall) :
    b.unsaved ⊆ (calls.foldl (call o ok) b).unsaved := by
  induction calls generalizing b with
  | nil => exact fun i hi => hi
  | cons c calls ih =>
    intro i hi
    exact ih (b.call o ok c) (unsaved_subset_call o ok b c hi)

theorem mem_astray_call_of_ne (i : String) (hi : i ∈ b.astray) (hne : i ≠ c.dealId) :
    i ∈ (b.call o ok c).astray := by
  unfold call
  cases hok : ok c with
  | false =>
    cases c with
    | closeDeal j price reason pnlBtc pnlPct now trigger => exact List.mem_cons_of_mem _ hi
    | _ => exact hi
  | true =>
    cases c with
    | saveDeal d => exact List.mem_filter.mpr ⟨hi, by simpa [LedgerCall.dealId] using hne⟩
    | closeDeal j price reason pnlBtc pnlPct now trigger =>
      exact List.mem_filter.mpr ⟨hi, by simpa [LedgerCall.dealId] using hne⟩
    | _ => exact hi

end Books

/-! ### The account in the state file -/

theorem AgreesAt.of_exempt (rows : List DealRow) (X : List String) (s : PaperState) (i : String)
    (howned : i ∈ s.openIds ∨ i ∈ s.closedIds → ∀ r ∈ rows, r.id = i → r.OwnedBy o)
    (hi : i ∈ X) : AgreesAt o rows X s i where
  owned := howned
  openRow := fun hn => absurd hi hn
  closedRow := fun hn => absurd hi hn
  stale := fun hn => absurd hi hn

/-- A call and what goes with it in the account touch one deal. -/
theorem agrees_of_call (ok : LedgerCall → Bool) (b : Books) (c : LedgerCall) (X X' : List String)
    (s s' : PaperState) (h : Agrees o b.rows X s) (hX : ∀ i ∈ X, i ≠ c.dealId → i ∈ X')
    (hopen : ∀ i, i ≠ c.dealId → (i ∈ s'.openIds ↔ i ∈ s.openIds))
    (hclosed : ∀ d ∈ s'.closedDeals, d.id ≠ c.dealId → d ∈ s.closedDeals)
    (hat : AgreesAt o (b.call o ok c).rows X' s' c.dealId) :
    Agrees o (b.call o ok c).rows X' s' := by
  intro i
  by_cases hi : i = c.dealId
  · rw [hi]
    exact hat
  · refine (h i).frame o b.rows _ X X' s s' i (fun r hr hri => ?_) (fun hx => hX i hx hi)
      (hopen i hi) fun d hd hdi => hclosed d hd (hdi ▸ hi)
    exact Books.mem_call_rows_of_ne o ok b c r hr (hri ▸ hi)

/-- An account that a call is not about stays in agreement but for the deals the
call opens or closes. -/
theorem agrees_call (ok : LedgerCall → Bool) (b : Books) (c : LedgerCall) (s : PaperState)
    (hs : Shaped s) (h : Agrees o b.rows b.unsaved s)
    (hsave : ∀ d, c = .saveDeal d → d.isOpen = true ∧ (d.id ∈ s.openIds ∨ d.id ∈ b.unsaved)) :
    Agrees o (b.call o ok c).rows (b.call o ok c).unsaved s := by
  refine agrees_of_call o ok b c b.unsaved _ s s h
    (fun _ hx _ => Books.unsaved_subset_call o ok b c hx) (fun _ _ => Iff.rfl)
    (fun _ hd _ => hd) ?_
  have howned := fun hk => Books.ownedBy_call o ok b c c.dealId ((h c.dealId).owned hk)
  by_cases hexempt : c.dealId ∈ (b.call o ok c).unsaved
  · exact .of_exempt o _ _ s _ howned hexempt
  · have hsame : (b.call o ok c).rows = b.rows →
        AgreesAt o (b.call o ok c).rows (b.call o ok c).unsaved s c.dealId := by
      intro hrows
      rw [hrows]
      exact (h c.dealId).frame o b.rows _ _ _ s s _ (fun _ hr _ => hr)
        (fun hx => Books.unsaved_subset_call o ok b c hx) Iff.rfl fun _ hd _ => hd
    cases hok : ok c with
    | false => exact hsame (by rw [Books.call_rows, hok]; rfl)
    | true =>
      cases c with
      | createDeal d => exact absurd (by simp [Books.call, hok, LedgerCall.dealId]) hexempt
      | closeDeal j price reason pnlBtc pnlPct now trigger =>
        exact absurd (by simp [Books.call, hok, LedgerCall.dealId]) hexempt
      | saveOrder order j fee => exact hsame (by rw [Books.call_saveOrder])
      | saveDeal d =>
        have hd := hsave d rfl
        have hopen : d.id ∈ s.openIds := by
          rcases hd.2 with hopen | hx
          · exact hopen
          · exact absurd (Books.unsaved_subset_call o ok b _ hx) hexempt
        refine ⟨howned, ?_, ?_, fun _ _ _ _ _ _ => hopen⟩
        · intro _ _ r hr hri
          have hown := howned (Or.inl hopen) r hr hri
          rw [Books.call_rows, hok] at hr
          rcases mem_saveDeal o d b.rows r hr with rfl | ⟨_, hn⟩
          · exact dealRowTuple_open o d hd.1
          · exact absurd hown (hn hri)
        · intro _ e he hei
          exact absurd hopen (hs.disjoint _ (List.mem_map.mpr ⟨e, he, hei⟩))

theorem agrees_calls (ok : LedgerCall → Bool) (b : Books) (calls : List LedgerCall) (s : PaperState)
    (hs : Shaped s) (h : Agrees o b.rows b.unsaved s)
    (hsave : ∀ d, .saveDeal d ∈ calls →
      d.isOpen = true ∧ (d.id ∈ s.openIds ∨ d.id ∈ b.unsaved)) :
    Agrees o (calls.foldl (Books.call o ok) b).rows (calls.foldl (Books.call o ok) b).unsaved s := by
  induction calls generalizing b with
  | nil => exact h
  | cons c calls ih =>
    refine ih (b.call o ok c) (agrees_call o ok b c s hs h fun d hd => ?_) fun d hd => ?_
    · exact hsave d (hd ▸ List.mem_cons_self)
    · obtain ⟨hopen, hd'⟩ := hsave d (List.mem_cons_of_mem _ hd)
      exact ⟨hopen, hd'.imp id fun hx => Books.unsaved_subset_call o ok b c hx⟩

/-! ### The account in memory -/

theorem openIds_eq_view (w : World) :
    w.engine.state.openIds = (openView w).map Prod.fst := by
  simp [PaperState.openIds, openView, Function.comp_def]

theorem isOpen_iff_view (w : World) :
    (∀ d ∈ w.engine.state.openDeals.items, d.isOpen = true) ↔ ∀ v ∈ openView w, v.2 = true := by
  simp [openView]

theorem openIds_set (s : OpenDeals) (d : PaperDeal) (h : d.id ∉ s.items.map PaperDeal.id) :
    (s.set d).items = s.items ++ [d] :=
  KeyedDict.set_items_new s d ((KeyedDict.get?_eq_none_iff s d.id).mpr h)

theorem mem_openIds_pop (s : OpenDeals) (i j : String) :
    j ∈ (s.pop i).items.map PaperDeal.id ↔ j ∈ s.items.map PaperDeal.id ∧ j ≠ i := by
  simp only [KeyedDict.pop_items, List.mem_map, List.mem_filter, decide_eq_true_eq]
  constructor
  · rintro ⟨d, ⟨hd, hne⟩, rfl⟩
    exact ⟨⟨d, hd, rfl⟩, hne⟩
  · rintro ⟨⟨d, hd, rfl⟩, hne⟩
    exact ⟨d, ⟨hd, hne⟩, rfl⟩

/-- The deal a call of an accepted operation creates is new everywhere. -/
theorem accepts_createDeal (ok : LedgerCall → Bool) (rows : List DealRow) (s : PaperState)
    (calls : List LedgerCall) (h : accepts ok rows s calls = true) (d : PaperDeal)
    (hd : .createDeal d ∈ calls) :
    ok (.createDeal d) = true ∧ (∀ r ∈ rows, r.id ≠ d.id) ∧ d.id ∉ s.openIds ∧ d.id ∉ s.closedIds := by
  have hcall := List.all_eq_true.mp h _ hd
  simp only [Bool.and_eq_true, List.all_eq_true, decide_eq_true_eq] at hcall
  obtain ⟨⟨⟨hok, hrows⟩, hopen⟩, hclosed⟩ := hcall
  refine ⟨hok, hrows, fun hm => ?_, fun hm => ?_⟩
  · obtain ⟨e, he, hid⟩ := List.mem_map.mp hm
    exact hopen e he hid
  · obtain ⟨e, he, hid⟩ := List.mem_map.mp hm
    exact hclosed e he hid

theorem openIds_of_view (w w' : World) (hopen : openView w' = openView w) :
    w'.engine.state.openIds = w.engine.state.openIds := by
  rw [openIds_eq_view, openIds_eq_view, hopen]

theorem Shaped.of_view (w w' : World) (hs : Shaped w.engine.state)
    (hopen : openView w' = openView w)
    (hclosed : w'.engine.state.closedDeals = w.engine.state.closedDeals) :
    Shaped w'.engine.state := by
  refine ⟨?_, hclosed ▸ hs.isClosed, ?_, ?_⟩
  · rw [isOpen_iff_view, hopen, ← isOpen_iff_view]
    exact hs.isOpen
  · rw [PaperState.closedIds, hclosed]
    exact hs.nodup
  · rw [openIds_of_view w w' hopen, PaperState.closedIds, hclosed]
    exact hs.disjoint

/-- A deal that was opened. -/
theorem agrees_opened (w w' : World) (ok : LedgerCall → Bool) (b : Books) (d : PaperDeal)
    (h : Agrees o b.rows b.astray w.engine.state) (hd : d.isOpen = true)
    (hnew : ok (.createDeal d) = true ∧ (∀ r ∈ b.rows, r.id ≠ d.id) ∧
      d.id ∉ w.engine.state.openIds ∧ d.id ∉ w.engine.state.closedIds)
    (hopen : w'.engine.state.openDeals = w.engine.state.openDeals.set d)
    (hclosed : w'.engine.state.closedDeals = w.engine.state.closedDeals) :
    Agrees o (b.call o ok (.createDeal d)).rows (b.call o ok (.createDeal d)).astray
      w'.engine.state := by
  obtain ⟨hok, hfresh, hno, hnc⟩ := hnew
  have hids : w'.engine.state.openIds = w.engine.state.openIds ++ [d.id] := by
    rw [PaperState.openIds, hopen, openIds_set _ d hno, List.map_append, List.map_singleton]
    rfl
  have hmem : d.id ∈ w'.engine.state.openIds := by
    rw [hids]
    exact List.mem_append_right _ (List.mem_singleton_self _)
  refine agrees_of_call o ok b _ _ _ _ _ h (fun i hi hne => Books.mem_astray_call_of_ne o ok b _ i
    hi hne) (fun i hi => ?_) (fun e he _ => hclosed ▸ he) ?_
  · rw [hids, List.mem_append, List.mem_singleton]
    exact or_iff_left hi
  · have hrow : ∀ r ∈ (b.call o ok (.createDeal d)).rows, r.id = d.id → r = dealRowTuple o d := by
      intro r hr hri
      rw [Books.call_rows, hok] at hr
      rcases (mem_createDeal o d b.rows r).mp hr with hold | ⟨hnew, _⟩
      · exact absurd hri (hfresh r hold)
      · exact hnew
    refine ⟨fun _ r hr hri => ?_, fun _ _ r hr hri => ?_, fun _ e he hei => ?_,
      fun _ _ _ _ _ _ => hmem⟩
    · rw [hrow r hr hri]
      exact dealRowTuple_ownedBy o d
    · rw [hrow r hr hri]
      exact dealRowTuple_open o d hd
    · rw [hclosed] at he
      exact absurd (List.mem_map.mpr ⟨e, he, hei⟩) hnc

/-- A deal whose ladder was filled. -/
theorem agrees_filled (w w' : World) (hs : Shaped w.engine.state) (ok : LedgerCall → Bool)
    (b : Books) (d : PaperDeal) (h : Agrees o b.rows b.astray w.engine.state)
    (hd : d.isOpen = true) (hmem : d.id ∈ w.engine.state.openIds)
    (hopen : openView w' = openView w)
    (hclosed : w'.engine.state.closedDeals = w.engine.state.closedDeals) :
    Agrees o (b.call o ok (.saveDeal d)).rows (b.call o ok (.saveDeal d)).astray
      w'.engine.state := by
  have hids := openIds_of_view w w' hopen
  refine agrees_of_call o ok b _ _ _ _ _ h (fun i hi hne => Books.mem_astray_call_of_ne o ok b _ i
    hi hne) (fun i _ => by rw [hids]) (fun e he _ => hclosed ▸ he) ?_
  have howned : ∀ r ∈ (b.call o ok (.saveDeal d)).rows, r.id = d.id → r.OwnedBy o :=
    Books.ownedBy_call o ok b _ d.id ((h d.id).owned (Or.inl hmem))
  refine ⟨fun _ => howned, fun hn _ r hr hri => ?_, fun _ e he hei => ?_,
    fun _ _ _ _ _ _ => hids ▸ hmem⟩
  · have hown := howned r hr hri
    cases hok : ok (.saveDeal d) with
    | false =>
      simp only [Books.call, hok] at hr hn
      exact (h d.id).openRow hn hmem r hr hri
    | true =>
      rw [Books.call_rows, hok] at hr
      rcases mem_saveDeal o d b.rows r hr with rfl | ⟨_, hnot⟩
      · exact dealRowTuple_open o d hd
      · exact absurd hown (hnot hri)
  · rw [hclosed] at he
    exact absurd hmem (hs.disjoint _ (List.mem_map.mpr ⟨e, he, hei⟩))

/-- A deal that was closed. -/
theorem agrees_closed (w w' : World) (hs : Shaped w.engine.state) (ok : LedgerCall → Bool)
    (b : Books) (d e : PaperDeal) (price : ℚ) (reason : CloseReason) (pnlBtc pnlPct : ℚ)
    (now : Instant) (trigger : ExitTrigger) (h : Agrees o b.rows b.astray w.engine.state)
    (hmem : d.id ∈ w.engine.state.openIds)
    (hopen : w'.engine.state.openDeals = w.engine.state.openDeals.pop d.id)
    (hclosed : w'.engine.state.closedDeals = w.engine.state.closedDeals ++ [e])
    (he : ClosedAs e d.id reason pnlBtc pnlPct) :
    Agrees o (b.call o ok (.closeDeal d.id price reason pnlBtc pnlPct now trigger)).rows
      (b.call o ok (.closeDeal d.id price reason pnlBtc pnlPct now trigger)).astray
      w'.engine.state := by
  have hids : ∀ i, i ∈ w'.engine.state.openIds ↔ i ∈ w.engine.state.openIds ∧ i ≠ d.id := by
    intro i
    rw [PaperState.openIds, hopen, mem_openIds_pop]
    rfl
  have hlist : ∀ x ∈ w'.engine.state.closedDeals, x ∈ w.engine.state.closedDeals ∨ x = e := by
    intro x hx
    rwa [hclosed, List.mem_append, List.mem_singleton] at hx
  have hlast : ∀ x ∈ w'.engine.state.closedDeals, x.id = d.id → x = e := by
    intro x hx hxi
    refine (hlist x hx).resolve_left fun hold => ?_
    exact hs.disjoint _ (List.mem_map.mpr ⟨x, hold, hxi⟩) hmem
  refine agrees_of_call o ok b _ _ _ _ _ h (fun i hi hne => Books.mem_astray_call_of_ne o ok b _ i
    hi hne) (fun i hi => ?_) (fun x hx hne => ?_) ?_
  · rw [hids]
    exact and_iff_left hi
  · rcases hlist x hx with hx | rfl
    · exact hx
    · exact absurd he.id hne
  · have howned : ∀ r ∈ (b.call o ok (.closeDeal d.id price reason pnlBtc pnlPct now trigger)).rows,
        r.id = d.id → r.OwnedBy o :=
      Books.ownedBy_call o ok b _ d.id ((h d.id).owned (Or.inl hmem))
    cases hok : ok (.closeDeal d.id price reason pnlBtc pnlPct now trigger) with
    | false =>
      refine .of_exempt o _ _ _ _ (fun _ => howned) ?_
      simp [Books.call, hok, LedgerCall.dealId]
    | true =>
      have hrow : ∀ r ∈ (b.call o ok (.closeDeal d.id price reason pnlBtc pnlPct now trigger)).rows,
          r.id = d.id → r.status = .closed ∧ r.pnlBtc = pnlBtc ∧ r.pnlPct = pnlPct := by
        intro r hr hri
        have hown := howned r hr hri
        rw [Books.call_rows, hok] at hr
        rcases mem_closeDeal o d.id price reason pnlBtc pnlPct now trigger b.rows r hr with
          ⟨_, hnot⟩ | ⟨x, _, _, _, _, _, hstatus⟩
        · exact absurd hown (hnot hri)
        · exact hstatus
      refine ⟨fun _ => howned, fun _ hi => absurd rfl ((hids _).mp hi).2, fun _ x hx hxi r hr hri => ?_,
        fun _ r hr hri _ hs => ?_⟩
      · obtain ⟨hstatus, hb, hp⟩ := hrow r hr hri
        rw [hlast x hx hxi]
        refine ⟨hstatus, ?_⟩
        rw [hb, hp]
        rcases he.pnl with ⟨hb, hp⟩ | ⟨rfl, hb, hp⟩
        · exact Or.inl ⟨by rw [hb], by rw [hp]⟩
        · exact Or.inr ⟨he.closeReason, hb, hp⟩
      · rw [(hrow r hr hri).1] at hs
        cases hs

section Effects

variable (w w' : World) (calls : List LedgerCall) (heff : LedgerEffect w w' calls)
  (hs : Shaped w.engine.state)
include heff hs

/-- An operation keeps the deals in shape. -/
theorem shaped_effect
    (hnew : ∀ d, .createDeal d ∈ calls → d.id ∉ w.engine.state.openIds ∧
      d.id ∉ w.engine.state.closedIds) : Shaped w'.engine.state := by
  cases heff with
  | quiet hopen hclosed => exact hs.of_view w w' hopen hclosed
  | opened d order fee hd hopen hclosed =>
    obtain ⟨hno, hnc⟩ := hnew d (List.mem_cons_self)
    have hitems : w'.engine.state.openDeals.items = w.engine.state.openDeals.items ++ [d] := by
      rw [hopen, openIds_set _ d hno]
    refine ⟨?_, hclosed ▸ hs.isClosed, ?_, ?_⟩
    · intro e he
      rw [hitems, List.mem_append, List.mem_singleton] at he
      rcases he with he | rfl
      · exact hs.isOpen e he
      · exact hd
    · rw [PaperState.closedIds, hclosed]
      exact hs.nodup
    · rw [PaperState.closedIds, hclosed]
      intro i hi hio
      rw [PaperState.openIds, hitems, List.map_append, List.mem_append, List.map_singleton,
        List.mem_singleton] at hio
      rcases hio with hio | rfl
      · exact hs.disjoint i hi hio
      · exact hnc hi
  | filled d e order fee he hd hopen hclosed => exact hs.of_view w w' hopen hclosed
  | closed d e price reason pnlBtc pnlPct now trigger hd hopen hclosed he =>
    have hmem : d.id ∈ w.engine.state.openIds :=
      List.mem_map_of_mem (KeyedDict.get?_mem _ _ _ hd).1
    have hnc : d.id ∉ w.engine.state.closedIds := fun hc => hs.disjoint _ hc hmem
    refine ⟨?_, ?_, ?_, ?_⟩
    · intro x hx
      rw [hopen] at hx
      exact hs.isOpen x (List.mem_of_mem_filter hx)
    · intro x hx
      rw [hclosed, List.mem_append, List.mem_singleton] at hx
      rcases hx with hx | rfl
      · exact hs.isClosed x hx
      · exact he.isOpen
    · rw [PaperState.closedIds, hclosed, List.map_append, List.map_singleton, he.id]
      exact List.nodup_append.mpr ⟨hs.nodup, List.nodup_singleton _, by
        intro a ha b hb hab
        rw [List.mem_singleton] at hb
        exact hnc (hb ▸ hab ▸ ha)⟩
    · intro i hi hio
      rw [PaperState.openIds, hopen, mem_openIds_pop] at hio
      rw [PaperState.closedIds, hclosed, List.map_append, List.map_singleton, he.id,
        List.mem_append, List.mem_singleton] at hi
      rcases hi with hi | hi
      · exact hs.disjoint i hi hio.1
      · exact hio.2 hi

/-- What an operation saves is one of the open deals. -/
theorem saves_effect (d : PaperDeal) (hd : .saveDeal d ∈ calls) :
    d.isOpen = true ∧ d.id ∈ w.engine.state.openIds := by
  cases heff with
  | quiet hopen hclosed => cases hd
  | opened e order fee he hopen hclosed => simp at hd
  | closed e x price reason pnlBtc pnlPct now trigger he hopen hclosed hx => simp at hd
  | filled e x order fee he hx hopen hclosed =>
    have hde : d = e := by simpa using hd
    subst hde
    obtain ⟨hmem, hid⟩ := KeyedDict.get?_mem _ _ _ he
    exact ⟨hx.trans (hs.isOpen x hmem), hid ▸ List.mem_map_of_mem hmem⟩

/-- The rows still agree with the deals in memory. -/
theorem agrees_effect (ok : LedgerCall → Bool) (b : Books)
    (h : Agrees o b.rows b.astray w.engine.state)
    (hacc : accepts ok b.rows w.engine.state calls = true) :
    Agrees o (calls.foldl (Books.call o ok) b).rows (calls.foldl (Books.call o ok) b).astray
      w'.engine.state := by
  cases heff with
  | quiet hopen hclosed =>
    intro i
    exact (h i).frame o b.rows _ _ _ _ _ i (fun r hr _ => hr) id
      (by rw [openIds_of_view w w' hopen]) fun d hd _ => hclosed ▸ hd
  | opened d order fee hd hopen hclosed =>
    have hnew := accepts_createDeal ok b.rows w.engine.state _ hacc d List.mem_cons_self
    simp only [List.foldl_cons, List.foldl_nil, Books.call_saveOrder]
    exact agrees_opened o w w' ok b d h hd hnew hopen hclosed
  | filled d e order fee he hd hopen hclosed =>
    obtain ⟨hmem, hid⟩ := KeyedDict.get?_mem _ _ _ he
    have hdopen : d.isOpen = true := hd.trans (hs.isOpen e hmem)
    simp only [List.foldl_cons, List.foldl_nil, Books.call_saveOrder]
    exact agrees_filled o w w' hs ok b d h hdopen (hid ▸ List.mem_map_of_mem hmem) hopen hclosed
  | closed d e price reason pnlBtc pnlPct now trigger hd hopen hclosed he =>
    exact agrees_closed o w w' hs ok b d e _ _ _ _ _ _ h
      (List.mem_map_of_mem (KeyedDict.get?_mem _ _ _ hd).1) hopen hclosed he

end Effects

/-- A deal opened by the operation is not in the state file yet. -/
theorem openIds_effect (w w' : World) (calls : List LedgerCall) (heff : LedgerEffect w w' calls)
    (ok : LedgerCall → Bool) (b : Books)
    (hnew : ∀ d, .createDeal d ∈ calls → ok (.createDeal d) = true ∧
      d.id ∉ w.engine.state.openIds) (i : String) (hi : i ∈ w'.engine.state.openIds) :
    i ∈ w.engine.state.openIds ∨ i ∈ (calls.foldl (Books.call o ok) b).unsaved := by
  cases heff with
  | quiet hopen hclosed => exact Or.inl (openIds_of_view w w' hopen ▸ hi)
  | filled d e order fee he hd hopen hclosed => exact Or.inl (openIds_of_view w w' hopen ▸ hi)
  | opened d order fee hd hopen hclosed =>
    obtain ⟨hok, hno⟩ := hnew d List.mem_cons_self
    rw [PaperState.openIds, hopen, openIds_set _ d hno, List.map_append, List.mem_append,
      List.map_singleton, List.mem_singleton] at hi
    rcases hi with hi | rfl
    · exact Or.inl hi
    · right
      simp [Books.call, hok]
  | closed d e price reason pnlBtc pnlPct now trigger hd hopen hclosed he =>
    rw [PaperState.openIds, hopen, mem_openIds_pop] at hi
    exact Or.inl hi.1

end Reverto
