import Mathlib.Tactic
import Reverto.Lib.Machine

/-!
# The notification queue (core/trading_engine.py, _notify and _notify_worker)

A step is one call on the queue or one assignment. `stop` puts the sentinel `None`, which
stands here as `none`. The count of unfinished tasks that `task_done` keeps is left out,
nobody joins the queue. An increment of the counter is one step, as the engine relies on.
-/

namespace Reverto

namespace NotifyQueue

variable {α : Type}

/-- Where a producer stands in `_notify`, or in the blocking `put` of `stop`. -/
inductive Producer (α : Type) where
  | idle
  | putting (item : α)
  | full (item : α)
  | gotten (item : α)
  | counted (item : α)
  | stopping
  deriving DecidableEq, Repr

/-- Where `_notify_worker` stands. -/
inductive Worker (α : Type) where
  | waiting
  | dispatching (item : α)
  | checking
  | recovered
  | returned
  deriving DecidableEq, Repr

/-- What left the queue, and whether the worker took it or a producer dropped it. -/
structure Removal (α : Type) where
  item : Option α
  taken : Bool
  deriving DecidableEq, Repr

/-- The queue with its producers and its worker, and what happened so far. -/
structure Notifications (α : Type) where
  queue : List (Option α) := []
  producers : List (Producer α)
  worker : Worker α := .waiting
  droppedCount : ℕ := 0
  dropPending : Bool := false
  enqueued : List (Option α) := []
  removals : List (Removal α) := []
  delivered : List α := []
  deriving DecidableEq, Repr

/-- `full()`; a `maxsize` that is not positive is no bound. -/
def full (maxsize : ℤ) (queue : List (Option α)) : Bool := 0 < maxsize ∧ maxsize ≤ queue.length

/-- The producer goes on. -/
def Notifications.to (s : Notifications α) (p : ℕ) (phase : Producer α) : Notifications α :=
  { s with producers := s.producers.set p phase }

/-- `put` where there is room. -/
def Notifications.enqueue (s : Notifications α) (item : Option α) : Notifications α :=
  { s with queue := s.queue ++ [item], enqueued := s.enqueued ++ [item] }

/-- The oldest item leaves. -/
def Notifications.remove (s : Notifications α) (item : Option α) (queue : List (Option α))
    (taken : Bool) : Notifications α :=
  { s with queue := queue, removals := s.removals ++ [⟨item, taken⟩] }

/-- The next step of a producer that is in `_notify` or `stop`. -/
def produce (maxsize : ℤ) (s : Notifications α) (p : ℕ) : Producer α → Option (Notifications α)
  | .idle => none
  | .putting item =>
    if full maxsize s.queue then some (s.to p (.full item))
    else some ((s.enqueue (some item)).to p .idle)
  | .full item =>
    match s.queue with
    | [] => some (s.to p (.putting item))
    | oldest :: rest => some ((s.remove oldest rest false).to p (.gotten item))
  | .gotten item => some ({ s with droppedCount := s.droppedCount + 1 }.to p (.counted item))
  | .counted item => some ({ s with dropPending := true }.to p (.putting item))
  | .stopping => if full maxsize s.queue then none else some ((s.enqueue none).to p .idle)

/-- The next step of the worker; `ok` says whether the notification went out. -/
def work (s : Notifications α) (ok : Bool) : Option (Notifications α) :=
  match s.worker with
  | .waiting =>
    match s.queue with
    | [] => none
    | none :: rest => some { s.remove none rest true with worker := .returned }
    | some item :: rest => some { s.remove (some item) rest true with worker := .dispatching item }
  | .dispatching item =>
    some { s with worker := .checking, delivered := s.delivered ++ if ok then [item] else [] }
  | .checking =>
    some { s with worker := if s.dropPending && s.queue.isEmpty then .recovered else .waiting }
  | .recovered => some { s with worker := .waiting, dropPending := false }
  | .returned => none

/-- A call of `_notify`, a call of `stop`, or the next step of one that runs. -/
inductive Label (α : Type) where
  | notify (p : ℕ) (item : α)
  | stop (p : ℕ)
  | produce (p : ℕ)
  | work (ok : Bool)
  deriving DecidableEq, Repr

def step (maxsize : ℤ) (s : Notifications α) : Label α → Option (Notifications α)
  | .notify p item =>
    match s.producers[p]? with
    | some .idle => some (s.to p (.putting item))
    | _ => none
  | .stop p =>
    match s.producers[p]? with
    | some .idle => some (s.to p .stopping)
    | _ => none
  | .produce p => s.producers[p]?.bind (produce maxsize s p)
  | .work ok => work s ok

/-- An engine with its producers, none of them in `_notify`. -/
def initial (producers : ℕ) : Notifications α :=
  { producers := List.replicate producers .idle }

/-! ### What is kept -/

/-- Between the removal of an item and its count. -/
def uncounted : Producer α → Bool
  | .gotten _ => true
  | _ => false

/-- The items the worker took. -/
def takenItems (s : Notifications α) : List (Option α) :=
  (s.removals.filter (·.taken)).map (·.item)

/-- The items producers took out. -/
def droppedItems (s : Notifications α) : List (Option α) :=
  (s.removals.filter (!·.taken)).map (·.item)

/-- The item the worker has in hand. -/
def Worker.inHand : Worker α → List (Option α)
  | .dispatching item => [some item]
  | _ => []

/-- Items leave in the order they came; the worker delivers of what it took; every drop is
counted or about to be. -/
structure Accounted (s : Notifications α) : Prop where
  oldestFirst : s.enqueued = s.removals.map (·.item) ++ s.queue
  inOrder : (s.delivered.map some ++ s.worker.inHand).Sublist (takenItems s)
  counted : s.droppedCount + s.producers.countP uncounted = (droppedItems s).length

/-- A producer that goes on leaves its count and brings that of its next phase. -/
theorem countP_to (s : Notifications α) (p : ℕ) (old new : Producer α)
    (hp : s.producers[p]? = some old) :
    (s.to p new).producers.countP uncounted + (if uncounted old then 1 else 0) =
      s.producers.countP uncounted + if uncounted new then 1 else 0 := by
  obtain ⟨hlt, hget⟩ := List.getElem?_eq_some_iff.mp hp
  have hset : (s.producers.set p new).countP uncounted =
      (s.producers.countP uncounted - if uncounted s.producers[p] then 1 else 0) +
        if uncounted new then 1 else 0 := List.countP_set hlt
  have hpos : (if uncounted old then 1 else 0) ≤ s.producers.countP uncounted := by
    split
    · rename_i hold
      exact List.countP_pos_iff.mpr ⟨old, List.mem_of_getElem? hp, hold⟩
    · exact Nat.zero_le _
  rw [hget] at hset
  simp only [Notifications.to]
  omega

theorem accounted_initial (producers : ℕ) : Accounted (initial producers : Notifications α) where
  oldestFirst := rfl
  inOrder := List.Sublist.refl []
  counted := by
    have hnone : (List.replicate producers (Producer.idle : Producer α)).countP uncounted = 0 := by
      rw [List.countP_replicate]
      rfl
    simp only [initial, droppedItems, List.filter_nil, List.map_nil, List.length_nil, hnone]

/-- A producer that does not take an item out and counts none. -/
theorem accounted_to (s : Notifications α) (p : ℕ) (old new : Producer α) (h : Accounted s)
    (hp : s.producers[p]? = some old) (hold : uncounted old = false)
    (hnew : uncounted new = false) : Accounted (s.to p new) := by
  refine ⟨h.oldestFirst, h.inOrder, ?_⟩
  have hcount := countP_to s p old new hp
  rw [hold, hnew] at hcount
  have hsame : (s.to p new).producers.countP uncounted = s.producers.countP uncounted := hcount
  exact (congrArg (s.droppedCount + ·) hsame).trans h.counted

theorem accounted_enqueue (s : Notifications α) (item : Option α) (h : Accounted s) :
    Accounted (s.enqueue item) := by
  refine ⟨?_, h.inOrder, h.counted⟩
  simp only [Notifications.enqueue]
  rw [h.oldestFirst, List.append_assoc]

/-- The item a producer takes out is the oldest in the queue. -/
theorem accounted_drop (s : Notifications α) (p : ℕ) (item : α) (oldest : Option α)
    (rest : List (Option α)) (h : Accounted s) (hp : s.producers[p]? = some (.full item))
    (hqueue : s.queue = oldest :: rest) :
    Accounted ((s.remove oldest rest false).to p (.gotten item)) := by
  refine ⟨?_, ?_, ?_⟩
  · simp only [Notifications.remove, Notifications.to]
    rw [h.oldestFirst, hqueue, List.map_append, List.append_assoc]
    rfl
  · have htaken : takenItems ((s.remove oldest rest false).to p (.gotten item)) = takenItems s := by
      simp [takenItems, Notifications.remove, Notifications.to]
    rw [htaken]
    exact h.inOrder
  · have hdropped : (droppedItems ((s.remove oldest rest false).to p (.gotten item))).length =
        (droppedItems s).length + 1 := by
      simp [droppedItems, Notifications.remove, Notifications.to]
    have hcount := countP_to (s.remove oldest rest false) p _ (.gotten item) hp
    have hold := h.counted
    simp only [uncounted, if_true, Bool.false_eq_true, if_false, Nat.add_zero] at hcount
    rw [hdropped, hcount, ← hold]
    exact (Nat.add_assoc _ _ 1).symm

/-- The drop is counted. -/
theorem accounted_count (s : Notifications α) (p : ℕ) (item : α) (h : Accounted s)
    (hp : s.producers[p]? = some (.gotten item)) :
    Accounted ({ s with droppedCount := s.droppedCount + 1 }.to p (.counted item)) := by
  refine ⟨h.oldestFirst, h.inOrder, ?_⟩
  have hcount := countP_to { s with droppedCount := s.droppedCount + 1 } p _ (.counted item) hp
  have hold := h.counted
  simp only [uncounted, if_true, Bool.false_eq_true, if_false, Nat.add_zero] at hcount
  calc s.droppedCount + 1 + ({ s with droppedCount := s.droppedCount + 1 }.to p
          (.counted item)).producers.countP uncounted
      = s.droppedCount + s.producers.countP uncounted := by omega
    _ = (droppedItems s).length := hold

/-! ### The worker -/

/-- The worker takes the oldest item. -/
theorem accounted_take (s : Notifications α) (oldest : Option α) (rest : List (Option α))
    (phase : Worker α) (h : Accounted s) (hqueue : s.queue = oldest :: rest)
    (hidle : s.worker.inHand = []) (hphase : phase.inHand.Sublist [oldest]) :
    Accounted { s.remove oldest rest true with worker := phase } := by
  refine ⟨?_, ?_, ?_⟩
  · simp only [Notifications.remove]
    rw [h.oldestFirst, hqueue, List.map_append, List.append_assoc]
    rfl
  · have htaken : takenItems { s.remove oldest rest true with worker := phase } =
        takenItems s ++ [oldest] := by
      simp [takenItems, Notifications.remove]
    have hbefore := h.inOrder
    rw [hidle, List.append_nil] at hbefore
    rw [htaken]
    exact hbefore.append hphase
  · have hdropped : droppedItems { s.remove oldest rest true with worker := phase } =
        droppedItems s := by
      simp [droppedItems, Notifications.remove]
    rw [hdropped]
    exact h.counted

theorem accounted_work (s t : Notifications α) (ok : Bool) (h : Accounted s)
    (hstep : work s ok = some t) : Accounted t := by
  unfold work at hstep
  cases hworker : s.worker with
  | waiting =>
    simp only [hworker] at hstep
    cases hqueue : s.queue with
    | nil =>
      rw [hqueue] at hstep
      cases hstep
    | cons oldest rest =>
      rw [hqueue] at hstep
      have hidle : s.worker.inHand = [] := by rw [hworker]; rfl
      cases oldest with
      | none =>
        cases hstep
        exact accounted_take s none rest _ h hqueue hidle (List.nil_sublist _)
      | some item =>
        cases hstep
        exact accounted_take s (some item) rest _ h hqueue hidle (List.Sublist.refl _)
  | dispatching item =>
    simp only [hworker] at hstep
    cases hstep
    refine ⟨h.oldestFirst, ?_, h.counted⟩
    have hbefore := h.inOrder
    rw [hworker] at hbefore
    refine List.Sublist.trans ?_ hbefore
    simp only [Worker.inHand, List.map_append, List.append_nil]
    apply List.Sublist.append_left
    cases ok with
    | true => exact List.Sublist.refl _
    | false => exact List.nil_sublist _
  | checking =>
    simp only [hworker] at hstep
    cases hstep
    refine ⟨h.oldestFirst, ?_, h.counted⟩
    have hbefore := h.inOrder
    rw [hworker] at hbefore
    dsimp only
    split
    · exact hbefore
    · exact hbefore
  | recovered =>
    simp only [hworker] at hstep
    cases hstep
    have hbefore := h.inOrder
    rw [hworker] at hbefore
    exact ⟨h.oldestFirst, hbefore, h.counted⟩
  | returned =>
    simp only [hworker] at hstep
    cases hstep

/-! ### Runs -/

theorem accounted_produce (maxsize : ℤ) (s t : Notifications α) (p : ℕ) (phase : Producer α)
    (h : Accounted s) (hp : s.producers[p]? = some phase)
    (hstep : produce maxsize s p phase = some t) : Accounted t := by
  cases phase with
  | idle => cases hstep
  | putting item =>
    simp only [produce] at hstep
    split at hstep
    · cases hstep
      exact accounted_to s p _ _ h hp rfl rfl
    · cases hstep
      exact accounted_to (s.enqueue (some item)) p _ _ (accounted_enqueue s _ h) hp rfl rfl
  | full item =>
    simp only [produce] at hstep
    cases hqueue : s.queue with
    | nil =>
      rw [hqueue] at hstep
      cases hstep
      exact accounted_to s p _ _ h hp rfl rfl
    | cons oldest rest =>
      rw [hqueue] at hstep
      cases hstep
      exact accounted_drop s p item oldest rest h hp hqueue
  | gotten item =>
    cases hstep
    exact accounted_count s p item h hp
  | counted item =>
    cases hstep
    exact accounted_to { s with dropPending := true } p _ _ ⟨h.oldestFirst, h.inOrder, h.counted⟩
      hp rfl rfl
  | stopping =>
    simp only [produce] at hstep
    split at hstep
    · cases hstep
    · cases hstep
      exact accounted_to (s.enqueue none) p _ _ (accounted_enqueue s _ h) hp rfl rfl

theorem accounted_step (maxsize : ℤ) (s : Notifications α) (l : Label α) (t : Notifications α)
    (h : Accounted s) (hstep : step maxsize s l = some t) : Accounted t := by
  cases l with
  | notify p item =>
    simp only [step] at hstep
    split at hstep
    · rename_i hp
      cases hstep
      exact accounted_to s p _ _ h hp rfl rfl
    · cases hstep
  | stop p =>
    simp only [step] at hstep
    split at hstep
    · rename_i hp
      cases hstep
      exact accounted_to s p _ _ h hp rfl rfl
    · cases hstep
  | produce p =>
    obtain ⟨phase, hp, hphase⟩ := Option.bind_eq_some_iff.mp hstep
    exact accounted_produce maxsize s t p phase h hp hphase
  | work ok => exact accounted_work s t ok h hstep

/-- The items that left are those the worker took and those that were dropped. -/
theorem length_removals (s : Notifications α) :
    (takenItems s).length + (droppedItems s).length = s.removals.length := by
  unfold takenItems droppedItems
  rw [List.length_map, List.length_map]
  exact (List.length_eq_length_filter_add _).symm

/-- What is delivered was enqueued, in that order and as often; items leave oldest first, the
dropped ones too; the counter is enqueued minus taken minus queued, up to the producers that
have taken an item out and not counted it yet. -/
theorem accounted_run (maxsize : ℤ) (producers : ℕ) (ls : List (Label α)) (u : Notifications α)
    (hrun : Machine.run (step maxsize) (initial producers) ls = some u) :
    (u.delivered.map some).Sublist u.enqueued ∧
      u.enqueued = u.removals.map (·.item) ++ u.queue ∧
      u.droppedCount + u.producers.countP uncounted + (takenItems u).length + u.queue.length =
        u.enqueued.length := by
  have h := Machine.run_keeps (step maxsize) Accounted (accounted_step maxsize)
    (initial producers) u ls (accounted_initial producers) hrun
  refine ⟨?_, h.oldestFirst, ?_⟩
  · have hdelivered : (u.delivered.map some).Sublist (takenItems u) :=
      (List.sublist_append_left _ _).trans h.inOrder
    have htaken : (takenItems u).Sublist (u.removals.map (·.item)) :=
      List.Sublist.map Removal.item List.filter_sublist
    rw [h.oldestFirst]
    exact (hdelivered.trans htaken).trans (List.sublist_append_left _ _)
  · have hlen := length_removals u
    have hcounted := h.counted
    rw [h.oldestFirst, List.length_append, List.length_map]
    omega

/-- A full queue of two: the oldest item makes room, the next delivery fails. -/
def outage : List (Label ℕ) :=
  [.notify 0 1, .produce 0, .notify 0 2, .produce 0, .notify 0 3, .produce 0, .produce 0,
    .produce 0, .produce 0, .produce 0, .work true, .work false, .work true, .work true, .work true]

theorem accounted_outage :
    ∃ u, Machine.run (step 2) (initial 1) outage = some u ∧
      (u.delivered.map some).Sublist u.enqueued ∧
      u.enqueued = u.removals.map (·.item) ++ u.queue ∧
      u.droppedCount + u.producers.countP uncounted + (takenItems u).length + u.queue.length =
        u.enqueued.length := by
  have hsome : (Machine.run (step 2) (initial 1) outage).isSome = true := by decide
  obtain ⟨u, hrun⟩ := Option.isSome_iff_exists.mp hsome
  exact ⟨u, hrun, accounted_run 2 1 outage u hrun⟩

/-- Between the removal and the increment the counter is one behind. -/
theorem not_counted_gotten :
    ¬ ∀ (maxsize : ℤ) (producers : ℕ) (ls : List (Label ℕ)) (u : Notifications ℕ),
      Machine.run (step maxsize) (initial producers) ls = some u →
      u.droppedCount + (takenItems u).length + u.queue.length = u.enqueued.length := by
  intro h
  have hone := h 1 1 [.notify 0 1, .produce 0, .notify 0 2, .produce 0, .produce 0] _ rfl
  exact absurd hone (by decide)

end NotifyQueue

end Reverto
