import Mathlib.Tactic
import Reverto.Lib.KeyedDict
import Reverto.Lib.Machine

/-!
# Order reconciliation (live/order_reconciliation.py, OrderReconciler)

Any number of `track_order` and `reconcile` calls, one step at a time: a step holds the lock
or touches one order of a snapshot. The polling of the exchange is commented out there, so the
age of an order is what ends it. The dictionary and the snapshots share the order objects.
-/

namespace Reverto

namespace OrderReconciliation

/-- `PendingOrder` -/
structure PendingOrder where
  clientOrderId : String
  dealId : String
  side : String
  size : ℚ
  placedAt : ℚ
  status : String := "pending"
  exchangeOrderId : Option String := none
  error : Option String := none
  fillPrice : Option ℚ := none
  filledSize : Option ℚ := none
  deriving DecidableEq, Repr

/-- The tenths of a number without its sign, rounded half to even. -/
def tenths (q : ℚ) : ℕ :=
  let x := |q| * 10
  let n := x.floor.toNat
  if x - n < 1 / 2 then n
  else if 1 / 2 < x - n then n + 1
  else if n % 2 = 0 then n else n + 1

/-- `f"{q:.1f}"` -/
def oneDecimal (q : ℚ) : String :=
  (if q < 0 then "-" else "") ++ toString (tenths q / 10) ++ "." ++ toString (tenths q % 10)

/-- An entry of `_pending`: the key and the number of the order object. -/
structure Tracked where
  coid : String
  order : ℕ
  deriving DecidableEq, Repr

/-- A `reconcile` call between its first and its last use of the lock. -/
structure Call where
  now : ℚ
  rest : List Tracked
  completed : List ℕ

/-- The objects given to `track_order` in the order of the calls, the reconciler, its running
calls and the orders that were returned so far. -/
structure Reconciler where
  orders : List PendingOrder := []
  pending : KeyedDict Tracked.coid := KeyedDict.empty
  calls : ℕ → Option Call := fun _ => none
  returned : List ℕ := []

inductive Label where
  | track (order : PendingOrder)
  | snapshot (call : ℕ) (now : ℚ)
  | check (call : ℕ)
  | remove (call : ℕ)
  deriving DecidableEq, Repr

/-- `client_order_id` of an order object. -/
def idAt (orders : List PendingOrder) (i : ℕ) : Option String :=
  orders[i]?.map (·.clientOrderId)

/-- The body of the loop of `reconcile`: a timeout is written to the order object. -/
def checkOrder (maxAgeSeconds now : ℚ) (pending : PendingOrder) : Option PendingOrder :=
  if maxAgeSeconds < now - pending.placedAt then
    some { pending with
      status := "timeout"
      error := some ("No confirmation after " ++ oneDecimal (now - pending.placedAt) ++ "s") }
  else none

/-- `track_order` -/
def track (s : Reconciler) (order : PendingOrder) : Reconciler :=
  { s with
    orders := s.orders ++ [order]
    pending := s.pending.set ⟨order.clientOrderId, s.orders.length⟩ }

/-- The call takes its next state. -/
def Reconciler.put (s : Reconciler) (c : ℕ) (call : Option Call) : Reconciler :=
  { s with calls := Function.update s.calls c call }

/-- The check of one order of the snapshot. -/
def checkNext (maxAgeSeconds : ℚ) (s : Reconciler) (c : ℕ) (now : ℚ) (t : Tracked)
    (rest : List Tracked) (completed : List ℕ) : Reconciler :=
  match s.orders[t.order]?.bind (checkOrder maxAgeSeconds now) with
  | none => s.put c (some ⟨now, rest, completed⟩)
  | some order =>
    { s with orders := s.orders.set t.order order }.put c
      (some ⟨now, rest, completed ++ [t.order]⟩)

/-- The removals under the lock, and the return. -/
def removeCompleted (s : Reconciler) (c : ℕ) (completed : List ℕ) : Reconciler :=
  { s with
    pending := (completed.filterMap (idAt s.orders)).foldl KeyedDict.pop s.pending
    returned := s.returned ++ completed }.put c none

/-- A step; `none` where the call is not there. -/
def step (maxAgeSeconds : ℚ) (s : Reconciler) : Label → Option Reconciler
  | .track order => some (track s order)
  | .snapshot c now =>
    match s.calls c with
    | none => some (s.put c (some ⟨now, s.pending.items, []⟩))
    | some _ => none
  | .check c =>
    match s.calls c with
    | some ⟨now, t :: rest, completed⟩ => some (checkNext maxAgeSeconds s c now t rest completed)
    | _ => none
  | .remove c =>
    match s.calls c with
    | some ⟨_, [], completed⟩ => some (removeCompleted s c completed)
    | _ => none

/-- The order is in `_pending`. -/
def Pending (s : Reconciler) (i : ℕ) : Prop := ∃ t ∈ s.pending.items, t.order = i

/-- Every tracked order is either pending or was returned exactly once. -/
def Settled (s : Reconciler) : Prop :=
  ∀ i < s.orders.length,
    (Pending s i ∧ s.returned.count i = 0) ∨ (¬ Pending s i ∧ s.returned.count i = 1)

/-- An order is tracked under an id that is not pending, and what a call removes is still
pending. -/
def Fresh (s : Reconciler) : Label → Prop
  | .track order => s.pending.get? order.clientOrderId = none
  | .remove c => ∀ call, s.calls c = some call → ∀ i ∈ call.completed, Pending s i
  | _ => True

/-! ### The invariant -/

/-- The key of an entry is the id of its order. -/
def Names (orders : List PendingOrder) (t : Tracked) : Prop := idAt orders t.order = some t.coid

/-- A call works on distinct orders that were tracked. -/
structure Snapshot (orders : List PendingOrder) (call : Call) : Prop where
  rest : ∀ t ∈ call.rest, Names orders t
  completed : ∀ i ∈ call.completed, i < orders.length
  nodup : (call.completed ++ call.rest.map (·.order)).Nodup

structure Sound (s : Reconciler) : Prop where
  named : ∀ t ∈ s.pending.items, Names s.orders t
  calls : ∀ c call, s.calls c = some call → Snapshot s.orders call
  known : ∀ i ∈ s.returned, i < s.orders.length
  settled : Settled s

theorem sound_initial : Sound {} where
  named := fun t ht => by cases ht
  calls := fun c call hc => by cases hc
  known := fun i hi => by cases hi
  settled := fun i hi => by cases hi

theorem names_lt (orders : List PendingOrder) (t : Tracked) (h : Names orders t) :
    t.order < orders.length := by
  unfold Names idAt at h
  obtain ⟨o, ho, _⟩ := Option.map_eq_some_iff.mp h
  exact (List.getElem?_eq_some_iff.mp ho).1

/-- The orders of two lists have the same ids as far as the first goes. -/
def SameIds (orders orders' : List PendingOrder) : Prop :=
  ∀ i < orders.length, idAt orders' i = idAt orders i

theorem sameIds_append (orders : List PendingOrder) (o : PendingOrder) :
    SameIds orders (orders ++ [o]) := by
  intro i hi
  unfold idAt
  rw [List.getElem?_append_left hi]

theorem sameIds_set (orders : List PendingOrder) (i : ℕ) (o o' : PendingOrder)
    (ho : orders[i]? = some o) (hid : o'.clientOrderId = o.clientOrderId) :
    SameIds orders (orders.set i o') := by
  intro j hj
  unfold idAt
  by_cases hij : i = j
  · subst hij
    rw [List.getElem?_set_self hj, ho, Option.map_some, Option.map_some, hid]
  · rw [List.getElem?_set_ne hij]

theorem names_sameIds (orders orders' : List PendingOrder) (t : Tracked)
    (hids : SameIds orders orders') (h : Names orders t) : Names orders' t :=
  (hids t.order (names_lt orders t h)).trans h

theorem snapshot_sameIds (orders orders' : List PendingOrder) (call : Call)
    (hids : SameIds orders orders') (hle : orders.length ≤ orders'.length)
    (h : Snapshot orders call) : Snapshot orders' call where
  rest := fun t ht => names_sameIds orders orders' t hids (h.rest t ht)
  completed := fun i hi => lt_of_lt_of_le (h.completed i hi) hle
  nodup := h.nodup

/-- Entries with one order have one key, so they are one entry. -/
theorem entry_unique (s : Reconciler) (hnamed : ∀ t ∈ s.pending.items, Names s.orders t)
    (t t' : Tracked) (ht : t ∈ s.pending.items) (ht' : t' ∈ s.pending.items)
    (h : t.coid = t'.coid ∨ t.order = t'.order) : t = t' := by
  have hcoid : t.coid = t'.coid := by
    rcases h with h | h
    · exact h
    · have hn := hnamed t ht
      unfold Names at hn
      rw [h, hnamed t' ht'] at hn
      exact (Option.some.inj hn).symm
  exact List.inj_on_of_nodup_map s.pending.nodup ht ht' hcoid

theorem orders_nodup (s : Reconciler) (hnamed : ∀ t ∈ s.pending.items, Names s.orders t) :
    (s.pending.items.map (·.order)).Nodup := by
  refine List.Nodup.map_on (fun t ht t' ht' h => ?_) s.pending.nodup.of_map
  exact entry_unique s hnamed t t' ht ht' (.inr h)

theorem put_calls_self (s : Reconciler) (c : ℕ) (call : Option Call) :
    (s.put c call).calls c = call := by
  simp only [Reconciler.put, Function.update_self]

theorem put_calls_other (s : Reconciler) (c c' : ℕ) (call : Option Call) (h : c' ≠ c) :
    (s.put c call).calls c' = s.calls c' := by
  simp only [Reconciler.put, Function.update_of_ne h]

/-- Only the state of one call changes. -/
theorem sound_put (s : Reconciler) (c : ℕ) (call : Option Call) (h : Sound s)
    (hcall : ∀ call', call = some call' → Snapshot s.orders call') : Sound (s.put c call) where
  named := h.named
  calls := by
    intro c' call' hc'
    by_cases hc : c' = c
    · rw [hc, put_calls_self] at hc'
      exact hcall call' hc'
    · rw [put_calls_other s c c' call hc] at hc'
      exact h.calls c' call' hc'
  known := h.known
  settled := h.settled

/-! ### Tracking -/

theorem track_items (s : Reconciler) (o : PendingOrder)
    (hfresh : s.pending.get? o.clientOrderId = none) :
    (track s o).pending.items = s.pending.items ++ [⟨o.clientOrderId, s.orders.length⟩] :=
  KeyedDict.set_items_new s.pending ⟨o.clientOrderId, s.orders.length⟩ hfresh

theorem sound_track (s : Reconciler) (o : PendingOrder) (h : Sound s)
    (hfresh : s.pending.get? o.clientOrderId = none) : Sound (track s o) := by
  have hitems := track_items s o hfresh
  have hids : SameIds s.orders (track s o).orders := sameIds_append s.orders o
  have hlen : (track s o).orders.length = s.orders.length + 1 := List.length_append
  refine ⟨fun t ht => ?_, fun c call hc => ?_, fun i hi => ?_, fun i hi => ?_⟩
  · rw [hitems] at ht
    rcases List.mem_append.mp ht with ht | ht
    · exact names_sameIds _ _ t hids (h.named t ht)
    · rw [List.mem_singleton.mp ht]
      unfold Names idAt track
      rw [List.getElem?_concat_length, Option.map_some]
  · exact snapshot_sameIds _ _ call hids (by omega) (h.calls c call hc)
  · have hlt := h.known i hi
    omega
  · have hpending : Pending (track s o) i ↔ Pending s i ∨ i = s.orders.length := by
      unfold Pending
      rw [hitems]
      constructor
      · rintro ⟨t, ht, rfl⟩
        rcases List.mem_append.mp ht with ht | ht
        · exact .inl ⟨t, ht, rfl⟩
        · rw [List.mem_singleton.mp ht]
          exact .inr rfl
      · rintro (⟨t, ht, rfl⟩ | rfl)
        · exact ⟨t, List.mem_append_left _ ht, rfl⟩
        · exact ⟨_, List.mem_append_right _ (List.mem_singleton_self _), rfl⟩
    have hreturned : (track s o).returned = s.returned := rfl
    rw [hpending, hreturned]
    by_cases hnew : i = s.orders.length
    · refine .inl ⟨.inr hnew, List.count_eq_zero.mpr fun hin => ?_⟩
      have hlt := h.known i hin
      omega
    · have hold := h.settled i (by omega)
      simpa only [hnew, or_false] using hold

/-- Tracking an id that is pending loses the order that was pending under it. -/
theorem not_settled_track (s : Reconciler) (o : PendingOrder) (h : Sound s)
    (hpending : ¬ s.pending.get? o.clientOrderId = none) : ¬ Settled (track s o) := by
  obtain ⟨t, ht⟩ := Option.ne_none_iff_exists'.mp hpending
  obtain ⟨hmem, hcoid⟩ := KeyedDict.get?_mem s.pending _ t ht
  have hlt := names_lt s.orders t (h.named t hmem)
  have hzero : s.returned.count t.order = 0 := by
    rcases h.settled t.order hlt with hs | hs
    · exact hs.2
    · exact absurd ⟨t, hmem, rfl⟩ hs.1
  have hgone : ¬ Pending (track s o) t.order := by
    rintro ⟨t', ht', horder⟩
    have hin : o.clientOrderId ∈ s.pending.items.map Tracked.coid :=
      List.mem_map.mpr ⟨t, hmem, hcoid⟩
    rw [track, KeyedDict.set_items_present s.pending ⟨o.clientOrderId, s.orders.length⟩ hin] at ht'
    obtain ⟨b, hb, hbt⟩ := List.mem_map.mp ht'
    split at hbt
    · rw [← hbt] at horder
      exact absurd horder (by dsimp only; omega)
    · rename_i hne
      rw [← hbt] at horder
      have hsame := entry_unique s h.named b t hb hmem (.inr horder)
      exact hne (hsame ▸ hcoid)
  intro hsettled
  have hlen : (track s o).orders.length = s.orders.length + 1 := List.length_append
  rcases hsettled t.order (by omega) with hs | hs
  · exact hgone hs.1
  · have hone : s.returned.count t.order = 1 := hs.2
    omega

/-! ### Checking -/

/-- Writing a timeout to an order object keeps its id. -/
theorem sound_write (s : Reconciler) (i : ℕ) (o o' : PendingOrder) (h : Sound s)
    (ho : s.orders[i]? = some o) (hid : o'.clientOrderId = o.clientOrderId) :
    Sound { s with orders := s.orders.set i o' } := by
  have hids := sameIds_set s.orders i o o' ho hid
  have hlen : (s.orders.set i o').length = s.orders.length := List.length_set
  refine ⟨fun t ht => names_sameIds _ _ t hids (h.named t ht), fun c call hc => ?_,
    fun j hj => ?_, fun j hj => ?_⟩
  · exact snapshot_sameIds _ _ call hids (le_of_eq hlen.symm) (h.calls c call hc)
  · exact lt_of_lt_of_eq (h.known j hj) hlen.symm
  · exact h.settled j (lt_of_lt_of_eq hj hlen)

theorem checkOrder_id (maxAgeSeconds now : ℚ) (o o' : PendingOrder)
    (h : checkOrder maxAgeSeconds now o = some o') : o'.clientOrderId = o.clientOrderId := by
  unfold checkOrder at h
  split at h
  · cases h
    rfl
  · cases h

theorem sound_check (maxAgeSeconds now : ℚ) (s : Reconciler) (c : ℕ) (t : Tracked)
    (rest : List Tracked) (completed : List ℕ) (h : Sound s)
    (hcall : s.calls c = some ⟨now, t :: rest, completed⟩) :
    Sound (checkNext maxAgeSeconds s c now t rest completed) := by
  have hsnap := h.calls c _ hcall
  have hrest : ∀ u ∈ rest, Names s.orders u := fun u hu => hsnap.rest u (List.mem_cons_of_mem t hu)
  have hnodup := hsnap.nodup
  rw [List.map_cons] at hnodup
  unfold checkNext
  cases hbind : s.orders[t.order]?.bind (checkOrder maxAgeSeconds now) with
  | none =>
    refine sound_put s c _ h fun call' heq => ?_
    cases heq
    refine ⟨hrest, hsnap.completed, ?_⟩
    exact hnodup.sublist ((List.sublist_cons_self _ _).append_left _)
  | some o' =>
    obtain ⟨o, ho, hcheck⟩ := Option.bind_eq_some_iff.mp hbind
    have hid := checkOrder_id maxAgeSeconds now o o' hcheck
    have hwrite := sound_write s t.order o o' h ho hid
    refine sound_put _ c _ hwrite fun call' heq => ?_
    cases heq
    refine snapshot_sameIds s.orders _ _ (sameIds_set s.orders t.order o o' ho hid)
      (le_of_eq List.length_set.symm) ⟨hrest, fun i hi => ?_, ?_⟩
    · rcases List.mem_append.mp hi with hi | hi
      · exact hsnap.completed i hi
      · rw [List.mem_singleton.mp hi]
        exact (List.getElem?_eq_some_iff.mp ho).1
    · rw [List.append_assoc]
      exact hnodup

/-! ### Removing -/

theorem mem_foldl_pop (ids : List String) (d : KeyedDict Tracked.coid) (t : Tracked) :
    t ∈ (ids.foldl KeyedDict.pop d).items ↔ t ∈ d.items ∧ t.coid ∉ ids := by
  induction ids generalizing d with
  | nil => simp
  | cons id ids ih =>
    rw [List.foldl_cons, ih, KeyedDict.pop_items, List.mem_filter, decide_eq_true_iff,
      List.mem_cons, not_or, and_assoc]

/-- Exactly the completed orders leave. -/
theorem pending_remove (s : Reconciler) (c : ℕ) (completed : List ℕ) (h : Sound s)
    (hpending : ∀ i ∈ completed, Pending s i) (i : ℕ) :
    Pending (removeCompleted s c completed) i ↔ Pending s i ∧ i ∉ completed := by
  constructor
  · rintro ⟨t, ht, rfl⟩
    obtain ⟨hmem, hnot⟩ := (mem_foldl_pop _ s.pending t).mp ht
    refine ⟨⟨t, hmem, rfl⟩, fun hin => hnot ?_⟩
    exact List.mem_filterMap.mpr ⟨t.order, hin, h.named t hmem⟩
  · rintro ⟨⟨t, hmem, rfl⟩, hnot⟩
    refine ⟨t, (mem_foldl_pop _ s.pending t).mpr ⟨hmem, fun hin => ?_⟩, rfl⟩
    obtain ⟨j, hj, hid⟩ := List.mem_filterMap.mp hin
    obtain ⟨t', hmem', rfl⟩ := hpending j hj
    have hcoid : t'.coid = t.coid := Option.some.inj ((h.named t' hmem').symm.trans hid)
    have hsame := entry_unique s h.named t' t hmem' hmem (.inl hcoid)
    exact hnot (hsame ▸ hj)

theorem sound_remove (s : Reconciler) (c : ℕ) (now : ℚ) (completed : List ℕ) (h : Sound s)
    (hcall : s.calls c = some ⟨now, [], completed⟩)
    (hpending : ∀ i ∈ completed, Pending s i) : Sound (removeCompleted s c completed) := by
  have hsnap := h.calls c _ hcall
  have hnodup := hsnap.nodup
  rw [List.map_nil, List.append_nil] at hnodup
  refine ⟨fun t ht => ?_, fun c' call hc => ?_, fun i hi => ?_, fun i hi => ?_⟩
  · exact h.named t ((mem_foldl_pop _ s.pending t).mp ht).1
  · exact (sound_put s c none h fun _ heq => by cases heq).calls c' call hc
  · rcases List.mem_append.mp hi with hi | hi
    · exact h.known i hi
    · exact hsnap.completed i hi
  · have hcount : (removeCompleted s c completed).returned.count i =
        s.returned.count i + completed.count i := List.count_append
    rw [pending_remove s c completed h hpending, hcount]
    by_cases hin : i ∈ completed
    · have hone : completed.count i = 1 := List.count_eq_one_of_mem hnodup hin
      have hzero : s.returned.count i = 0 := by
        rcases h.settled i hi with hs | hs
        · exact hs.2
        · exact absurd (hpending i hin) hs.1
      exact .inr ⟨fun hboth => hboth.2 hin, by omega⟩
    · rw [List.count_eq_zero.mpr hin]
      simpa only [hin, not_false_eq_true, and_true, Nat.add_zero] using h.settled i hi

/-- An order that is no longer pending was returned before and is returned again. -/
theorem not_settled_remove (s : Reconciler) (c : ℕ) (now : ℚ) (completed : List ℕ) (h : Sound s)
    (hcall : s.calls c = some ⟨now, [], completed⟩) (i : ℕ) (hi : i ∈ completed)
    (hgone : ¬ Pending s i) : ¬ Settled (removeCompleted s c completed) := by
  have hlt := (h.calls c _ hcall).completed i hi
  have hone : s.returned.count i = 1 := by
    rcases h.settled i hlt with hs | hs
    · exact absurd hs.1 hgone
    · exact hs.2
  have hagain : 0 < completed.count i := List.count_pos_iff.mpr hi
  have hcount : (removeCompleted s c completed).returned.count i =
      s.returned.count i + completed.count i := List.count_append
  intro hsettled
  rcases hsettled i hlt with hs | hs
  · omega
  · omega

/-! ### Runs -/

theorem sound_step (maxAgeSeconds : ℚ) (s : Reconciler) (l : Label) (t : Reconciler) (h : Sound s)
    (hfresh : Fresh s l) (hstep : step maxAgeSeconds s l = some t) : Sound t := by
  cases l with
  | track o =>
    cases hstep
    exact sound_track s o h hfresh
  | snapshot c now =>
    simp only [step] at hstep
    split at hstep
    · cases hstep
      refine sound_put s c _ h fun call heq => ?_
      cases heq
      exact ⟨h.named, List.forall_mem_nil _, orders_nodup s h.named⟩
    · cases hstep
  | check c =>
    simp only [step] at hstep
    split at hstep
    · rename_i now u rest completed hcall
      cases hstep
      exact sound_check maxAgeSeconds now s c u rest completed h hcall
    · cases hstep
  | remove c =>
    simp only [step] at hstep
    split at hstep
    · rename_i now completed hcall
      cases hstep
      exact sound_remove s c now completed h hcall (hfresh _ hcall)
    · cases hstep

/-- A step that is not fresh leaves an order behind or returns one again. -/
theorem not_settled_step (maxAgeSeconds : ℚ) (s : Reconciler) (l : Label) (t : Reconciler)
    (h : Sound s) (hstale : ¬ Fresh s l) (hstep : step maxAgeSeconds s l = some t) :
    ¬ Settled t := by
  cases l with
  | track o =>
    cases hstep
    exact not_settled_track s o h hstale
  | snapshot c now => exact absurd trivial hstale
  | check c => exact absurd trivial hstale
  | remove c =>
    simp only [step] at hstep
    split at hstep
    · rename_i now completed hcall
      cases hstep
      unfold Fresh at hstale
      push Not at hstale
      obtain ⟨call, hc, i, hi, hgone⟩ := hstale
      rw [hcall] at hc
      cases hc
      exact not_settled_remove s c now completed h hcall i hi hgone
    · cases hstep

/-- A run keeps every tracked order pending or returned once in every state exactly when it
tracks only ids that are not pending and removes only orders that still are. -/
theorem fresh_iff_settled (maxAgeSeconds : ℚ) (ls : List Label) (u : Reconciler)
    (hrun : Machine.run (step maxAgeSeconds) {} ls = some u) :
    Machine.Guarded (step maxAgeSeconds) Fresh {} ls ↔
      Machine.Throughout (step maxAgeSeconds) Settled {} ls :=
  Machine.guarded_iff_throughout (step maxAgeSeconds) (fun _ => True) Fresh Sound Settled
    (fun s l t _ h hfresh hstep => sound_step maxAgeSeconds s l t h hfresh hstep)
    (fun _ h => h.settled)
    (fun s l t _ h hstale hstep => not_settled_step maxAgeSeconds s l t h hstale hstep)
    {} u ls sound_initial (fun _ _ => trivial) hrun

/-- An order that timed out and one that is placed under its id. -/
def expired : PendingOrder := ⟨"order-1", "LIVE-0001", "buy", 1, 0, "pending", none, none, none, none⟩

def retried : PendingOrder :=
  ⟨"order-1", "LIVE-0001", "buy", 1, 100, "pending", none, none, none, none⟩

theorem fresh_iff_settled_inTurn :
    ∃ u, Machine.run (step 60) {} [.track expired, .snapshot 0 100, .check 0, .remove 0,
        .track retried] = some u ∧
      (Machine.Guarded (step 60) Fresh {} [.track expired, .snapshot 0 100, .check 0, .remove 0,
          .track retried] ↔
        Machine.Throughout (step 60) Settled {} [.track expired, .snapshot 0 100, .check 0,
          .remove 0, .track retried]) := by
  have hsome : (Machine.run (step 60) {} [.track expired, .snapshot 0 100, .check 0, .remove 0,
      .track retried]).isSome = true := by decide +kernel
  obtain ⟨u, hrun⟩ := Option.isSome_iff_exists.mp hsome
  exact ⟨u, hrun, fresh_iff_settled 60 _ u hrun⟩

/-- An order that is tracked again between the snapshot and the removal is dropped. -/
theorem not_settled_retried :
    ¬ ∀ (maxAgeSeconds : ℚ) (ls : List Label) (u : Reconciler),
      Machine.run (step maxAgeSeconds) {} ls = some u → Settled u := by
  intro h
  have hlast : (Machine.run (step 60) {} [.track expired, .snapshot 0 100, .check 0,
      .track retried, .remove 0]).map (fun u => (u.orders.length, u.pending.items, u.returned)) =
        some (2, [], [0]) := by decide +kernel
  obtain ⟨u, hrun, hu⟩ := Option.map_eq_some_iff.mp hlast
  obtain ⟨hlen, hrest⟩ := Prod.mk.inj hu
  obtain ⟨hitems, hreturned⟩ := Prod.mk.inj hrest
  rcases h 60 _ u hrun 1 (by omega) with hs | hs
  · obtain ⟨t, ht, _⟩ := hs.1
    rw [hitems] at ht
    cases ht
  · rw [hreturned] at hs
    exact absurd hs.2 (by decide)

end OrderReconciliation

end Reverto
