import Mathlib.Tactic
import Reverto.Core.SnapshotScheduler

/-!
# Hours of the automatic snapshots (main_scheduler.py)

However long ticks take, and wherever the process is killed and started again, no account
is captured twice in one clock hour: a tick captures an account once, and it starts in a
later hour than the one in which the process went to sleep.
-/

namespace Reverto

namespace SnapshotScheduler

open Program

variable (stamp : ℤ → String)

/-- The user and the account of a row. -/
def owner (row : Snapshot) : ℕ × ℕ := (row.userId, row.exchangeAccountId)

/-- Whom an event captures. -/
def ownerIn (event : SchedulerEvent) : Option (ℕ × ℕ) := (rowIn event).map owner

/-- Whom an event captures, and when. -/
def captureIn : SchedulerEvent → Option ((ℕ × ℕ) × ℤ)
  | .captured row now => some (owner row, now)
  | _ => none

/-- Captures of one account lie in different hours, in order. -/
def HoursApart (l : List SchedulerEvent) : Prop :=
  (l.filterMap captureIn).Pairwise fun a b => a.1 = b.1 → a.2 / hour < b.2 / hour

/-- Since a sleep that ended in a later hour the account was not captured. -/
def HourLaw (before : List SchedulerEvent) : SchedulerEvent → Prop
  | .captured row _ => ∃ l₁ t now l₂, before = l₁ ++ .slept t :: .woke now :: l₂ ∧
      nextHour t ≤ now ∧ owner row ∉ l₂.filterMap ownerIn
  | _ => True

/-- What `run_tick` goes through. -/
def visited (tick : Tick) : List (ℕ × ℕ) :=
  (allUserIds tick.atStart).flatMap fun userId =>
    (listAccounts (tick.atTurn userId) userId).map fun account => (userId, account.id)

/-! ### One tick -/

theorem owners_captureOneAccount (userId : ℕ) (account : ExchangeAccount) (source : String)
    (call : AccountCall) :
    Yields ownerIn [(userId, account.id)] (captureOneAccount stamp userId account source call) := by
  intro s
  have hpriced : ∀ currency, (tryPriced currency call s).log.filterMap ownerIn = [] := by
    intro currency
    rw [(tryPriced_cases currency call s).1, priced_run]
    have hrows := map_price_rows (PriceFeed.getUsdRate currency call.now call.replies s.rates).log
    have howners := congrArg (List.map owner) hrows
    rwa [List.map_filterMap] at howners
  rw [captureOneAccount, emit_bind_run, List.filterMap_cons_none rfl]
  cases hcall : exchangeCall account call with
  | none => exact List.nil_sublist _
  | some balance =>
    dsimp only
    rcases captureBalance_cases stamp userId account.id source call balance s with
      ⟨rate, inserted, _, _, _, hrun⟩ | ⟨e, _, hrun⟩ | ⟨_, hrun⟩
    · rw [hrun]
      dsimp only
      rw [List.filterMap_append, hpriced]
      exact List.Sublist.refl _
    · rw [hrun]
      dsimp only
      rw [hpriced]
      exact List.nil_sublist _
    · rw [hrun]
      dsimp only
      rw [hpriced]
      exact List.nil_sublist _

theorem owners_captureUser (source : String) (tick : Tick) (userId : ℕ) :
    Yields ownerIn ((listAccounts (tick.atTurn userId) userId).map fun account => (userId, account.id))
      (captureUser stamp source tick userId) := by
  have hround : ∀ account, Yields ownerIn [(userId, account.id)]
      (captureNext stamp source userId (tick.calls userId) account) := by
    intro account
    refine yields_bind ownerIn [] _ _ _ (yields_quiet ownerIn [] _ fun _ => rfl) fun _ => ?_
    refine yields_bind ownerIn _ [] _ _ (owners_captureOneAccount stamp userId account source _) ?_
    exact fun _ => yields_quiet ownerIn [] _ fun _ => rfl
  have hloop := yields_forEach ownerIn (fun account => [(userId, account.id)]) _ hround
    (listAccounts (tick.atTurn userId) userId)
  rwa [← List.map_eq_flatMap] at hloop

/-- A tick captures nobody it does not visit, in the order of its visits. -/
theorem owners_runTick (source : String) (tick : Tick) :
    Yields ownerIn (visited tick) (runTick stamp source tick) := by
  refine yields_bind ownerIn [] _ _ _ (yields_quiet ownerIn [] _ fun _ => rfl) fun _ => ?_
  have husers := yields_forEach ownerIn _ _ (owners_captureUser stamp source tick)
    (allUserIds tick.atStart)
  have hend := yields_bind ownerIn _ [] _ (fun _ => get >>= fun s : Scheduler =>
    pure (s.succeeded, s.attempted)) husers fun _ => yields_quiet ownerIn [] _ fun _ => rfl
  rwa [List.append_nil] at hend

theorem listAccounts_nodup (accounts : ExchangeAccountStore.Accounts) (userId : ℕ) :
    ((listAccounts accounts userId).map ExchangeAccount.id).Nodup := by
  have hperm := (List.perm_insertionSort ListedBefore
    (accounts.items.filter fun a => decide (a.userId = userId))).map ExchangeAccount.id
  rw [listAccounts, hperm.nodup_iff]
  exact accounts.nodup.sublist (List.filter_sublist.map ExchangeAccount.id)

theorem allUserIds_nodup (accounts : ExchangeAccountStore.Accounts) : (allUserIds accounts).Nodup := by
  rw [allUserIds, (List.perm_insertionSort _ _).nodup_iff]
  exact List.nodup_dedup _

/-- A tick visits an account of a user once. -/
theorem visited_nodup (tick : Tick) : (visited tick).Nodup := by
  have hpair : ∀ userId, (listAccounts (tick.atTurn userId) userId).map
      (fun account => (userId, account.id)) =
        ((listAccounts (tick.atTurn userId) userId).map ExchangeAccount.id).map (Prod.mk userId) := by
    intro userId
    rw [List.map_map]
    rfl
  rw [visited, List.nodup_flatMap]
  constructor
  · intro userId _
    rw [hpair]
    exact (listAccounts_nodup _ userId).map (Prod.mk_right_injective userId)
  · refine (allUserIds_nodup tick.atStart).imp fun {a b} hab => ?_
    rw [Function.onFun, hpair, hpair, List.disjoint_left]
    intro entry ha hb
    obtain ⟨_, _, rfl⟩ := List.mem_map.mp ha
    obtain ⟨_, _, heq⟩ := List.mem_map.mp hb
    exact hab (Prod.mk.inj heq).1.symm

/-! ### The hours -/

theorem nextHour_div (now : ℤ) : nextHour now / hour = now / hour + 1 := by
  rw [nextHour, Int.mul_ediv_cancel _ (by decide), Int.add_ediv_of_dvd_right (dvd_refl hour)]
  rfl

theorem sleepUntil_le (target now : ℤ) (readings : List (Bool × ℤ))
    (h : sleepUntil target readings = some now) : target ≤ now := by
  induction readings with
  | nil => cases h
  | cons reading readings ih =>
    obtain ⟨shutdown, read⟩ := reading
    rw [sleepUntil] at h
    split at h
    · cases h
    split at h
    · rename_i hle
      cases h
      exact hle
    · exact ih h

theorem hourLaw_later (l l₁ : List SchedulerEvent) (event : SchedulerEvent) (h : HourLaw l₁ event) :
    HourLaw (l ++ l₁) event := by
  cases event with
  | captured row at_ =>
    obtain ⟨a, t, now, b, rfl, hle, hnew⟩ := h
    exact ⟨l ++ a, t, now, b, (List.append_assoc _ _ _).symm, hle, hnew⟩
  | price event => trivial
  | tried userId accountId => trivial
  | slept now => trivial
  | woke now => trivial

/-- A tick behind a sleep. -/
theorem hourLaw_tick (t now : ℤ) (l : List SchedulerEvent) (hle : nextHour t ≤ now)
    (hl : (l.filterMap ownerIn).Nodup) : Lawful HourLaw (.slept t :: .woke now :: l) := by
  have hsleep : Lawful HourLaw [.slept t, .woke now] :=
    lawful_snoc _ [SchedulerEvent.slept t] _ (lawful_snoc _ [] _ (lawful_nil _) trivial) trivial
  refine lawful_append HourLaw [.slept t, .woke now] l hsleep fun l₁ event l₂ heq => ?_
  cases event with
  | captured row at_ =>
    refine ⟨[], t, now, l₁, rfl, hle, fun hmem => ?_⟩
    have hown : ownerIn (.captured row at_) = some (owner row) := rfl
    rw [heq, List.filterMap_append, List.filterMap_cons_some hown] at hl
    exact (List.nodup_append.mp hl).2.2 _ hmem _ List.mem_cons_self rfl
  | price event => trivial
  | tried userId accountId => trivial
  | slept now => trivial
  | woke now => trivial

theorem hourLaw_mainLoop (turns : List LoopTurn) (s : Scheduler) :
    Lawful HourLaw (mainLoop stamp turns s).log := by
  induction turns generalizing s with
  | nil => exact lawful_nil HourLaw
  | cons turn turns ih =>
    rw [mainLoop, emit_bind_run]
    cases hslept : sleepUntil (nextHour turn.sleptAt) turn.readings with
    | none => exact lawful_snoc _ [] _ (lawful_nil _) trivial
    | some now =>
      have hle := sleepUntil_le _ now turn.readings hslept
      have hnodup : ((runTick stamp "auto" turn.tick s).log.filterMap ownerIn).Nodup :=
        (owners_runTick stamp "auto" turn.tick s).nodup (visited_nodup turn.tick)
      have htick := hourLaw_tick turn.sleptAt now _ hle hnodup
      have hrest := lawful_concat HourLaw hourLaw_later _ _ htick (ih (runTick stamp "auto" turn.tick s).state)
      dsimp only
      rw [emit_bind_run, bind_ok _ _ s () (by rw [ignore_run]), ignore_run]
      exact hrest

theorem mem_of_captureIn (l : List SchedulerEvent) (a : (ℕ × ℕ) × ℤ)
    (h : a ∈ l.filterMap captureIn) : a.1 ∈ l.filterMap ownerIn ∧ a.2 ∈ l.filterMap readAt := by
  obtain ⟨event, hmem, hcapture⟩ := List.mem_filterMap.mp h
  cases event with
  | captured row now =>
    cases hcapture
    exact ⟨List.mem_filterMap.mpr ⟨_, hmem, rfl⟩, List.mem_filterMap.mpr ⟨_, hmem, rfl⟩⟩
  | price event => cases hcapture
  | tried userId accountId => cases hcapture
  | slept now => cases hcapture
  | woke now => cases hcapture

/-- Lawful captures are hours apart while the clock does not go back. -/
theorem hoursApart_of_lawful (l : List SchedulerEvent) (h : Lawful HourLaw l) (htime : Timely l) :
    HoursApart l := by
  induction l using List.reverseRecOn with
  | nil => exact List.Pairwise.nil
  | append_singleton l event ih =>
    have hreadings := htime
    rw [Timely, List.filterMap_append] at hreadings
    have hprior := ih (lawful_prior HourLaw l [event] h) (List.pairwise_append.mp hreadings).1
    rw [HoursApart, List.filterMap_append]
    cases event with
    | captured row now =>
      refine List.pairwise_append.mpr ⟨hprior, List.pairwise_singleton _ _, fun a ha b hb howner => ?_⟩
      rw [List.mem_singleton.mp hb] at howner ⊢
      have hlaw : HourLaw l (.captured row now) := h l _ [] rfl
      obtain ⟨l₁, t, woken, l₂, rfl, hle, hnew⟩ := hlaw
      have hslept : readAt (.slept t) = some t := rfl
      have hwoke : readAt (.woke woken) = some woken := rfl
      rw [List.filterMap_append, List.filterMap_cons_some hslept, List.filterMap_cons_some hwoke,
        List.pairwise_append] at hreadings
      obtain ⟨hsorted, _, hlast⟩ := hreadings
      have hnow : woken ≤ now := hlast woken (by simp) now List.mem_cons_self
      have hearlier : a ∈ l₁.filterMap captureIn := by
        rw [List.filterMap_append] at ha
        rcases List.mem_append.mp ha with hfirst | hsecond
        · exact hfirst
        · have hsince := (mem_of_captureIn l₂ a hsecond).1
          rw [howner] at hsince
          exact absurd hsince hnew
      have hbefore : a.2 ≤ t :=
        (List.pairwise_append.mp hsorted).2.2 a.2 (mem_of_captureIn l₁ a hearlier).2 t List.mem_cons_self
      have hpos : (0 : ℤ) < hour := by decide
      calc a.2 / hour ≤ t / hour := Int.ediv_le_ediv hpos hbefore
        _ < nextHour t / hour := by
          rw [nextHour_div]
          exact Int.lt_succ _
        _ ≤ now / hour := Int.ediv_le_ediv hpos (hle.trans hnow)
    | price event => exact (List.append_nil (l.filterMap captureIn)).symm ▸ hprior
    | tried userId accountId => exact (List.append_nil (l.filterMap captureIn)).symm ▸ hprior
    | slept now => exact (List.append_nil (l.filterMap captureIn)).symm ▸ hprior
    | woke now => exact (List.append_nil (l.filterMap captureIn)).symm ▸ hprior

/-- One process: the turns of its loop, what it starts from, and how many of its events happen
before it is killed. -/
structure ProcessLife where
  turns : List LoopTurn
  start : Scheduler
  cut : ℕ

/-- The events of processes one after the other. -/
def lives (processes : List ProcessLife) : List SchedulerEvent :=
  processes.flatMap fun life => (mainLoop stamp life.turns life.start).log.take life.cut

theorem hourLaw_lives (processes : List ProcessLife) : Lawful HourLaw (lives stamp processes) := by
  induction processes with
  | nil => exact lawful_nil HourLaw
  | cons life processes ih =>
    have hlog := hourLaw_mainLoop stamp life.turns life.start
    rw [← List.take_append_drop life.cut (mainLoop stamp life.turns life.start).log] at hlog
    exact lawful_concat HourLaw hourLaw_later _ _ (lawful_prior HourLaw _ _ hlog) ih

/-- However long the ticks take and wherever the scheduler is killed and started again, the
automatic snapshots of an account lie in different clock hours, while the clock does not go
back. -/
theorem one_snapshot_an_hour (processes : List ProcessLife) (htime : Timely (lives stamp processes)) :
    HoursApart (lives stamp processes) :=
  hoursApart_of_lawful _ (hourLaw_lives stamp processes) htime

/-- The first process is killed in its second tick. -/
def restartedScheduler : List ProcessLife :=
  [⟨[turnFrom 300000000, turnFrom 3900000000], {}, 9⟩, ⟨[turnFrom 7500000000], {}, 100⟩]

theorem restartedScheduler_apart : HoursApart (lives (fun _ => "") restartedScheduler) :=
  one_snapshot_an_hour (fun _ => "") restartedScheduler (by rw [Timely]; decide +kernel)

end SnapshotScheduler

end Reverto
