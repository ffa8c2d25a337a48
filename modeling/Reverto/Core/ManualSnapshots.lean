import Mathlib.Tactic
import Reverto.Lib.Machine

/-!
# The gate of manual snapshots (core/portfolio_store.py, web/routes/portfolio.py)

`manual_allowed` and the rows it looks at, while requests for a manual snapshot, the scheduler and
account deletions change the table. `trigger_manual_snapshot` awaits nothing, so that one request
is served at a time; the scheduler is a process of its own. Instants are microseconds, and
`captured_at` is the second that the text of `datetime('now')` names.
-/

namespace Reverto

namespace ManualSnapshots

/-- A row of `portfolio_snapshots`, with the request that inserted a manual one. -/
structure Row where
  userId : ℕ
  accountId : ℕ
  capturedAt : ℤ
  manual : Bool
  request : ℕ
  deriving DecidableEq, Repr

/-- `datetime(…)` of an instant. -/
def second (t : ℤ) : ℤ := t / 1000000

/-- `_MANUAL_WINDOW` -/
def window : ℤ := 3600 * 1000000

/-- `MAX(captured_at)` of the manual rows of the user within the window. -/
def lastManual (rows : List Row) (userId : ℕ) (now : ℤ) : Option ℤ :=
  ((rows.filter fun r => decide (r.userId = userId) && r.manual &&
    decide (second (now - window) ≤ r.capturedAt)).map Row.capturedAt).max?

/-- `manual_allowed`: `none` where the snapshot is allowed, else `next_allowed_at`. -/
def manualAllowed (rows : List Row) (userId : ℕ) (now : ℤ) : Option ℤ :=
  match lastManual rows userId now with
  | none => none
  | some last =>
    let nextAllowed := last * 1000000 + window
    if nextAllowed ≤ now then none else some nextAllowed

/-- The table, the request that is served, how many came before it, and the clock. -/
structure Table where
  rows : List Row := []
  serving : Option ℕ := none
  requests : ℕ := 0
  clock : ℤ := 0
  deriving DecidableEq

/-- One step; every reading of the clock comes with it. -/
inductive Step where
  | begin (userId : ℕ) (now : ℤ)
  | capture (accountId : ℕ) (now : ℤ)
  | finish
  | auto (userId accountId : ℕ) (now : ℤ)
  | deleteAccount (accountId : ℕ)
  deriving DecidableEq

/-- One step, if it is enabled; the clock does not go back. -/
def step (t : Table) : Step → Option Table
  | .begin userId now =>
    if t.serving = none ∧ t.clock ≤ now then
      let t := { t with clock := now, requests := t.requests + 1 }
      match manualAllowed t.rows userId now with
      | some _ => some t
      | none => some { t with serving := some userId }
    else none
  | .capture accountId now =>
    match t.serving with
    | none => none
    | some userId =>
      if t.clock ≤ now then
        some { t with clock := now, rows := ⟨userId, accountId, second now, true, t.requests⟩ :: t.rows }
      else none
  | .finish => some { t with serving := none }
  | .auto userId accountId now =>
    if t.clock ≤ now then
      some { t with clock := now, rows := ⟨userId, accountId, second now, false, 0⟩ :: t.rows }
    else none
  | .deleteAccount accountId =>
    -- `ON DELETE CASCADE`
    some { t with rows := t.rows.filter fun r => r.accountId ≠ accountId }

/-! ### One question -/

/-- A manual row of the user. -/
def Counts (rows : List Row) (userId : ℕ) (r : Row) : Prop :=
  r ∈ rows ∧ r.userId = userId ∧ r.manual = true

theorem lastManual_mem (rows : List Row) (userId : ℕ) (now last : ℤ)
    (h : lastManual rows userId now = some last) :
    (∃ r, Counts rows userId r ∧ r.capturedAt = last) ∧
      ∀ r, Counts rows userId r → second (now - window) ≤ r.capturedAt → r.capturedAt ≤ last := by
  obtain ⟨hmem, hmax⟩ := List.max?_eq_some_iff.mp h
  constructor
  · obtain ⟨r, hr, rfl⟩ := List.mem_map.mp hmem
    obtain ⟨hr, hcond⟩ := List.mem_filter.mp hr
    simp only [Bool.and_eq_true, decide_eq_true_eq] at hcond
    exact ⟨r, ⟨hr, hcond.1.1, hcond.1.2⟩, rfl⟩
  · intro r hr hin
    refine hmax _ (List.mem_map_of_mem (List.mem_filter.mpr ⟨hr.1, ?_⟩))
    simp only [Bool.and_eq_true, decide_eq_true_eq]
    exact ⟨⟨hr.2.1, hr.2.2⟩, hin⟩

theorem lastManual_none (rows : List Row) (userId : ℕ) (now : ℤ)
    (h : lastManual rows userId now = none) (r : Row) (hr : Counts rows userId r) :
    r.capturedAt < second (now - window) := by
  by_contra hin
  rw [lastManual, List.max?_eq_none_iff, List.map_eq_nil_iff, List.filter_eq_nil_iff] at h
  refine h r hr.1 ?_
  simp only [Bool.and_eq_true, decide_eq_true_eq]
  exact ⟨⟨hr.2.1, hr.2.2⟩, not_lt.mp hin⟩

theorem outside_window (now captured : ℤ) (h : captured < second (now - window)) :
    captured * 1000000 + window ≤ now := by
  unfold second at h
  omega

/-- A snapshot is allowed when every manual row of the user is an hour old. -/
theorem manualAllowed_iff (rows : List Row) (userId : ℕ) (now : ℤ) :
    manualAllowed rows userId now = none ↔
      ∀ r, Counts rows userId r → r.capturedAt * 1000000 + window ≤ now := by
  unfold manualAllowed
  cases hlast : lastManual rows userId now with
  | none =>
    refine iff_of_true rfl fun r hr => ?_
    exact outside_window now r.capturedAt (lastManual_none rows userId now hlast r hr)
  | some last =>
    obtain ⟨⟨newest, hnewest, rfl⟩, hmax⟩ := lastManual_mem rows userId now last hlast
    dsimp only
    split
    · rename_i hold
      refine iff_of_true rfl fun r hr => ?_
      by_cases hin : second (now - window) ≤ r.capturedAt
      · have hle := hmax r hr hin
        omega
      · exact outside_window now r.capturedAt (not_le.mp hin)
    · rename_i hyoung
      refine iff_of_false (by simp) fun hall => hyoung (hall newest hnewest)

/-- `next_allowed_at` is the first instant at which these rows allow a snapshot. -/
theorem manualAllowed_next (rows : List Row) (userId : ℕ) (now next : ℤ)
    (h : manualAllowed rows userId now = some next) (later : ℤ) (hlater : now ≤ later) :
    manualAllowed rows userId later = none ↔ next ≤ later := by
  rw [manualAllowed_iff]
  unfold manualAllowed at h
  cases hlast : lastManual rows userId now with
  | none => rw [hlast] at h; cases h
  | some last =>
    obtain ⟨⟨newest, hnewest, rfl⟩, hmax⟩ := lastManual_mem rows userId now last hlast
    simp only [hlast, Option.ite_none_left_eq_some, Option.some.injEq] at h
    obtain ⟨_, rfl⟩ := h
    refine ⟨fun hall => hall newest hnewest, fun hle r hr => ?_⟩
    by_cases hin : second (now - window) ≤ r.capturedAt
    · have hnew := hmax r hr hin
      omega
    · have hout := outside_window now r.capturedAt (not_le.mp hin)
      omega

/-- `next_allowed_at` is an hour after one of the user's manual rows. -/
theorem manualAllowed_row (rows : List Row) (userId : ℕ) (now next : ℤ)
    (h : manualAllowed rows userId now = some next) :
    ∃ r, Counts rows userId r ∧ next = r.capturedAt * 1000000 + window := by
  unfold manualAllowed at h
  cases hlast : lastManual rows userId now with
  | none => rw [hlast] at h; cases h
  | some last =>
    obtain ⟨⟨newest, hnewest, rfl⟩, _⟩ := lastManual_mem rows userId now last hlast
    simp only [hlast, Option.ite_none_left_eq_some, Option.some.injEq] at h
    exact ⟨newest, hnewest, h.2.symm⟩

/-! ### Whole runs -/

/-- Manual rows of a user that two requests inserted are an hour apart. -/
def Apart (rows : List Row) : Prop :=
  ∀ userId r r', Counts rows userId r → Counts rows userId r' → r.request < r'.request →
    r.capturedAt + 3600 ≤ r'.capturedAt

/-- The rows, the clock and the request that is served agree. -/
structure Inv (t : Table) : Prop where
  past : ∀ r ∈ t.rows, r.capturedAt ≤ second t.clock
  known : ∀ r ∈ t.rows, r.request ≤ t.requests
  apart : Apart t.rows
  serving : ∀ userId, t.serving = some userId → ∀ r, Counts t.rows userId r →
    r.request < t.requests → r.capturedAt + 3600 ≤ second t.clock

theorem second_mono (a b : ℤ) (h : a ≤ b) : second a ≤ second b :=
  Int.ediv_le_ediv (by norm_num) h

theorem inv_begin (t t' : Table) (userId : ℕ) (now : ℤ) (h : Inv t)
    (hstep : step t (.begin userId now) = some t') : Inv t' := by
  obtain ⟨⟨hidle, hclock⟩, hstep⟩ := Option.ite_none_right_eq_some.mp hstep
  have hsecond := second_mono t.clock now hclock
  have hnext : Inv { t with clock := now, requests := t.requests + 1, serving := none } :=
    ⟨fun r hr => (h.past r hr).trans hsecond, fun r hr => (h.known r hr).trans (Nat.le_succ _), h.apart,
      fun _ hserving => by cases hserving⟩
  cases hallowed : manualAllowed t.rows userId now with
  | some next =>
    simp only [hallowed] at hstep
    cases hstep
    refine ⟨hnext.past, hnext.known, h.apart, fun u hu => ?_⟩
    rw [hidle] at hu
    cases hu
  | none =>
    simp only [hallowed] at hstep
    cases hstep
    refine ⟨hnext.past, hnext.known, h.apart, fun u hu r hr _ => ?_⟩
    cases hu
    have hold := (manualAllowed_iff t.rows userId now).mp hallowed r hr
    show r.capturedAt + 3600 ≤ second now
    unfold second window at *
    omega

theorem inv_capture (t t' : Table) (accountId : ℕ) (now : ℤ) (h : Inv t)
    (hstep : step t (.capture accountId now) = some t') : Inv t' := by
  cases hserving : t.serving with
  | none =>
    simp only [step, hserving] at hstep
    cases hstep
  | some served =>
    simp only [step, hserving] at hstep
    obtain ⟨hclock, hstep⟩ := Option.ite_none_right_eq_some.mp hstep
    cases hstep
    have hsecond := second_mono t.clock now hclock
    constructor
    · intro r hr
      cases hr with
      | head => exact le_refl (second now)
      | tail _ hr => exact (h.past r hr).trans hsecond
    · intro r hr
      cases hr with
      | head => exact le_refl t.requests
      | tail _ hr => exact h.known r hr
    · intro userId r r' hr hr' hlt
      obtain ⟨hmem, huser, hmanual⟩ := hr
      obtain ⟨hmem', huser', hmanual'⟩ := hr'
      cases hmem with
      | head =>
        -- no request comes after the one that is served
        cases hmem' with
        | head => exact absurd hlt (lt_irrefl _)
        | tail _ hmem' => exact absurd hlt (not_lt.mpr (h.known r' hmem'))
      | tail _ hmem =>
        cases hmem' with
        | head =>
          have hold := h.serving served hserving r ⟨hmem, huser.trans huser'.symm, hmanual⟩ hlt
          exact hold.trans hsecond
        | tail _ hmem' => exact h.apart userId r r' ⟨hmem, huser, hmanual⟩ ⟨hmem', huser', hmanual'⟩ hlt
    · intro userId hu r hr hlt
      obtain ⟨hmem, huser, hmanual⟩ := hr
      cases hmem with
      | head => exact absurd hlt (lt_irrefl _)
      | tail _ hmem => exact (h.serving userId (hserving.trans hu) r ⟨hmem, huser, hmanual⟩ hlt).trans hsecond

theorem inv_auto (t t' : Table) (userId accountId : ℕ) (now : ℤ) (h : Inv t)
    (hstep : step t (.auto userId accountId now) = some t') : Inv t' := by
  obtain ⟨hclock, hstep⟩ := Option.ite_none_right_eq_some.mp hstep
  cases hstep
  have hsecond := second_mono t.clock now hclock
  -- the new row is not a manual one
  have hcounts : ∀ u r, Counts (⟨userId, accountId, second now, false, 0⟩ :: t.rows) u r → Counts t.rows u r := by
    intro u r hr
    obtain ⟨hmem, huser, hmanual⟩ := hr
    cases hmem with
    | head => cases hmanual
    | tail _ hmem => exact ⟨hmem, huser, hmanual⟩
  constructor
  · intro r hr
    cases hr with
    | head => exact le_refl (second now)
    | tail _ hr => exact (h.past r hr).trans hsecond
  · intro r hr
    cases hr with
    | head => exact Nat.zero_le t.requests
    | tail _ hr => exact h.known r hr
  · intro u r r' hr hr' hlt
    exact h.apart u r r' (hcounts u r hr) (hcounts u r' hr') hlt
  · intro u hu r hr hlt
    exact (h.serving u hu r (hcounts u r hr) hlt).trans hsecond

theorem inv_deleteAccount (t : Table) (accountId : ℕ) (h : Inv t) :
    Inv { t with rows := t.rows.filter fun r => r.accountId ≠ accountId } := by
  have hcounts : ∀ u r, Counts (t.rows.filter fun r => r.accountId ≠ accountId) u r → Counts t.rows u r := by
    intro u r hr
    exact ⟨List.mem_of_mem_filter hr.1, hr.2⟩
  constructor
  · intro r hr
    exact h.past r (List.mem_of_mem_filter hr)
  · intro r hr
    exact h.known r (List.mem_of_mem_filter hr)
  · intro u r r' hr hr' hlt
    exact h.apart u r r' (hcounts u r hr) (hcounts u r' hr') hlt
  · intro u hu r hr hlt
    exact h.serving u hu r (hcounts u r hr) hlt

theorem inv_step (t : Table) (s : Step) (t' : Table) (h : Inv t) (hstep : step t s = some t') : Inv t' := by
  cases s with
  | begin userId now => exact inv_begin t t' userId now h hstep
  | capture accountId now => exact inv_capture t t' accountId now h hstep
  | finish =>
    cases hstep
    exact ⟨h.past, h.known, h.apart, fun u hu => by cases hu⟩
  | auto userId accountId now => exact inv_auto t t' userId accountId now h hstep
  | deleteAccount accountId =>
    cases hstep
    exact inv_deleteAccount t accountId h

theorem inv_empty : Inv {} := by
  constructor
  · intro r hr
    cases hr
  · intro r hr
    cases hr
  · intro u r r' hr
    cases hr.1
  · intro u hu
    cases hu

/-- Two accounts at 0.4 s; a request 59 minutes later is refused, one an hour later is served. -/
def twoPresses : List Step :=
  [.begin 1 400000, .capture 10 500000, .capture 11 1200000, .finish, .auto 1 10 1800000000,
    .begin 1 3540000000, .begin 1 3601000000, .capture 10 3601000000, .finish]

end ManualSnapshots

end Reverto
