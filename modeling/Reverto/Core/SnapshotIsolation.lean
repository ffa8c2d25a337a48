import Mathlib.Tactic
import Reverto.Core.SnapshotHours

/-!
# Accounts that fail (main_scheduler.py)

What a tick does for an account does not depend on how the others fare, as long as no
reply of CoinGecko is malformed: every account is tried once, and each one whose own calls
succeed gets its row.
-/

namespace Reverto

namespace SnapshotScheduler

open Program

/-- An account as `run_tick` meets it. -/
structure Visit where
  userId : ℕ
  account : ExchangeAccount
  call : AccountCall

/-- What `run_tick` goes through, with the calls. -/
def visits (tick : Tick) : List Visit :=
  (allUserIds tick.atStart).flatMap fun userId =>
    (listAccounts (tick.atTurn userId) userId).map fun account =>
      ⟨userId, account, tick.calls userId account.id⟩

/-- The user and the account. -/
def Visit.key (v : Visit) : ℕ × ℕ := (v.userId, v.account.id)

/-- Credentials, client, balance, rate and INSERT of the account itself all succeed. -/
def Healthy (v : Visit) : Prop :=
  ∃ balance, exchangeCall v.account v.call = some balance ∧
    (balance.2 = "USD" ∨ PriceFeed.Quoted balance.2 v.call.replies) ∧ v.call.inserted ≠ none

/-- The row is of the account, with its balance. -/
structure Captures (v : Visit) (row : Snapshot) : Prop where
  owner : owner row = v.key
  balance : exchangeCall v.account v.call = some (row.balanceNative, row.currency)

/-- Whom an event tries. -/
def triedIn : SchedulerEvent → Option (ℕ × ℕ)
  | .tried userId accountId => some (userId, accountId)
  | _ => none

/-- Each visit was tried once, in order, and counted; `rows` were inserted, at most one for
each visit and one for each healthy visit. -/
structure Rounds (vs : List Visit) (s : Scheduler) (l : List SchedulerEvent) (s' : Scheduler)
    (rows : List Snapshot) : Prop where
  snapshots : s'.snapshots = s.snapshots ++ rows
  attempted : s'.attempted = s.attempted + vs.length
  succeeded : s'.succeeded = s.succeeded + rows.length
  tried : l.filterMap triedIn = vs.map Visit.key
  owners : (rows.map owner).Sublist (vs.map Visit.key)
  healthy : ∀ v ∈ vs, Healthy v → ∃ row ∈ rows, Captures v row
  captured : ∀ row ∈ rows, ∃ v ∈ vs, Captures v row

theorem rounds_nil (s : Scheduler) : Rounds [] s [] s [] where
  snapshots := (List.append_nil _).symm
  attempted := rfl
  succeeded := rfl
  tried := rfl
  owners := List.Sublist.refl _
  healthy _ hv := absurd hv List.not_mem_nil
  captured _ hrow := absurd hrow List.not_mem_nil

theorem rounds_append (vs vs' : List Visit) (s t u : Scheduler) (l l' : List SchedulerEvent)
    (rows rows' : List Snapshot) (h : Rounds vs s l t rows) (h' : Rounds vs' t l' u rows') :
    Rounds (vs ++ vs') s (l ++ l') u (rows ++ rows') where
  snapshots := by
    rw [h'.snapshots, h.snapshots, List.append_assoc]
  attempted := by
    rw [h'.attempted, h.attempted, List.length_append, Nat.add_assoc]
  succeeded := by
    rw [h'.succeeded, h.succeeded, List.length_append, Nat.add_assoc]
  tried := by
    rw [List.filterMap_append, List.map_append, h.tried, h'.tried]
  owners := by
    rw [List.map_append, List.map_append]
    exact h.owners.append h'.owners
  healthy v hv hv' := by
    rcases List.mem_append.mp hv with hleft | hright
    · obtain ⟨row, hrow, hcaptures⟩ := h.healthy v hleft hv'
      exact ⟨row, List.mem_append_left _ hrow, hcaptures⟩
    · obtain ⟨row, hrow, hcaptures⟩ := h'.healthy v hright hv'
      exact ⟨row, List.mem_append_right _ hrow, hcaptures⟩
  captured row hrow := by
    rcases List.mem_append.mp hrow with hleft | hright
    · obtain ⟨v, hv, hcaptures⟩ := h.captured row hleft
      exact ⟨v, List.mem_append_left _ hv, hcaptures⟩
    · obtain ⟨v, hv, hcaptures⟩ := h'.captured row hright
      exact ⟨v, List.mem_append_right _ hv, hcaptures⟩

/-- The program returns and goes through the visits. -/
def GoesThrough (vs : List Visit) (m : Program RateError SchedulerEvent Scheduler Unit) : Prop :=
  ∀ s, (m s).result = .ok () ∧ ∃ rows, Rounds vs s (m s).log (m s).state rows

theorem goesThrough_forEach {α : Type} (vs : α → List Visit)
    (f : α → Program RateError SchedulerEvent Scheduler Unit) (xs : List α)
    (h : ∀ x ∈ xs, GoesThrough (vs x) (f x)) : GoesThrough (xs.flatMap vs) (forEach f xs) := by
  induction xs with
  | nil => exact fun s => ⟨rfl, [], rounds_nil s⟩
  | cons x xs ih =>
    intro s
    obtain ⟨hok, rows, hrounds⟩ := h x List.mem_cons_self s
    obtain ⟨hok', rows', hrounds'⟩ := ih (fun y hy => h y (List.mem_cons_of_mem x hy)) (f x s).state
    rw [forEach, bind_ok _ _ s () hok, List.flatMap_cons]
    exact ⟨hok', rows ++ rows', rounds_append _ _ _ _ _ _ _ _ _ hrounds hrounds'⟩

/-! ### One account -/

/-- With a well-formed reply the second `try` returns, with a rate where one is quoted. -/
theorem tryPriced_returns (currency : String) (call : AccountCall) (s : Scheduler)
    (hcurrency : PriceFeed.normalized currency = currency) (hempty : currency ≠ "")
    (hwell : call.replies.coingecko ≠ .malformed) :
    ∃ found, (tryPriced currency call s).result = .ok found ∧
      (currency = "USD" ∨ PriceFeed.Quoted currency call.replies → found ≠ none) := by
  obtain ⟨_, _, hresult⟩ := tryPriced_cases currency call s
  have hends := PriceFeed.ends_getUsdRate currency call.now call.replies s.rates hcurrency
  rw [priced_run] at hresult
  dsimp only at hresult
  cases hrate : (PriceFeed.getUsdRate currency call.now call.replies s.rates).result with
  | ok rate =>
    rw [hrate] at hresult
    exact ⟨some rate, hresult, fun _ hnone => by cases hnone⟩
  | error e =>
    rw [hrate] at hresult hends
    dsimp only at hresult
    rw [PriceFeed.Ends] at hends
    split at hends
    · exact absurd hends hwell
    · rename_i hcaught
      rw [if_neg hcaught] at hresult
      exact ⟨none, hresult, fun hquoted _ => hends ⟨hempty, hquoted⟩⟩

theorem tryPriced_state (currency : String) (call : AccountCall) (s : Scheduler) :
    ∃ rates, (tryPriced currency call s).state = { s with rates := rates } := by
  rw [(tryPriced_cases currency call s).2.1, priced_run]
  exact ⟨_, rfl⟩

theorem tryPriced_tried (currency : String) (call : AccountCall) (s : Scheduler) :
    (tryPriced currency call s).log.filterMap triedIn = [] := by
  rw [(tryPriced_cases currency call s).1, priced_run]
  generalize (PriceFeed.getUsdRate currency call.now call.replies s.rates).log = l
  induction l with
  | nil => rfl
  | cons event l ih => exact ih

variable (stamp : ℤ → String)

/-- The row of a visit, or none where it is not healthy. -/
theorem captureOneAccount_spec (v : Visit) (source : String) (s : Scheduler)
    (hsource : source ∈ validSources) (hwell : v.call.replies.coingecko ≠ .malformed) :
    ∃ captured rates rows,
      (captureOneAccount stamp v.userId v.account source v.call s).result = .ok captured ∧
      (captureOneAccount stamp v.userId v.account source v.call s).state =
        { s with rates := rates, snapshots := s.snapshots ++ rows } ∧
      (captureOneAccount stamp v.userId v.account source v.call s).log.filterMap triedIn = [v.key] ∧
      ((captured = false ∧ rows = [] ∧ ¬ Healthy v) ∨
        ∃ row, captured = true ∧ rows = [row] ∧ Captures v row) := by
  rw [captureOneAccount, emit_bind_run]
  have hnone : s.snapshots ++ [] = s.snapshots := List.append_nil _
  cases hcall : exchangeCall v.account v.call with
  | none =>
    refine ⟨false, s.rates, [], rfl, ?_, rfl, .inl ⟨rfl, rfl, fun hhealthy => ?_⟩⟩
    · rw [hnone]
      rfl
    · obtain ⟨balance, hbalance, _⟩ := hhealthy
      rw [hcall] at hbalance
      cases hbalance
  | some balance =>
    obtain ⟨hcurrency, hempty, _⟩ := normalized_exchangeCall v.account v.call balance hcall
    obtain ⟨found, hfound, hquoted⟩ := tryPriced_returns balance.2 v.call s hcurrency hempty hwell
    obtain ⟨rates, hstate⟩ := tryPriced_state balance.2 v.call s
    have htried := tryPriced_tried balance.2 v.call s
    have hhead : triedIn (.tried v.userId v.account.id) = some v.key := rfl
    dsimp only
    rcases captureBalance_cases stamp v.userId v.account.id source v.call balance s with
      ⟨rate, inserted, _, _, _, hrun⟩ | ⟨e, he, _⟩ | ⟨hwhy, hrun⟩
    · rw [hrun, hstate]
      refine ⟨true, rates, _, rfl, rfl, ?_, .inr ⟨_, rfl, rfl, ⟨rfl, hcall⟩⟩⟩
      dsimp only
      rw [List.filterMap_cons_some hhead, List.filterMap_append, htried]
      rfl
    · rw [hfound] at he
      cases he
    · rw [hrun, hstate]
      refine ⟨false, rates, [], rfl, ?_, ?_, .inl ⟨rfl, rfl, fun hhealthy => ?_⟩⟩
      · rw [hnone]
      · dsimp only
        rw [List.filterMap_cons_some hhead, htried]
      · obtain ⟨balance', hbalance, hrate, hinserted⟩ := hhealthy
        rw [hcall] at hbalance
        cases hbalance
        rcases hwhy with hmissing | hrefused | hunknown
        · rw [hfound] at hmissing
          exact hquoted hrate (Except.ok.inj hmissing)
        · exact hinserted hrefused
        · exact hunknown hsource

/-- One round of the inner loop. -/
theorem goesThrough_captureNext (v : Visit) (source : String) (calls : ℕ → AccountCall)
    (hcall : calls v.account.id = v.call) (hsource : source ∈ validSources)
    (hwell : v.call.replies.coingecko ≠ .malformed) :
    GoesThrough [v] (captureNext stamp source v.userId calls v.account) := by
  intro s
  rw [captureNext, modify_bind_run, hcall]
  obtain ⟨captured, rates, rows, hresult, hstate, htried, hrows⟩ := captureOneAccount_spec stamp v
    source { s with attempted := s.attempted + 1 } hsource hwell
  rw [bind_ok _ _ _ captured hresult]
  refine ⟨rfl, rows, ?_⟩
  dsimp only [modify_run]
  rw [hstate, List.append_nil]
  rcases hrows with ⟨rfl, rfl, hsick⟩ | ⟨row, rfl, rfl, hcaptures⟩
  · refine ⟨rfl, rfl, rfl, htried, List.nil_sublist _, fun w hw hhealthy => ?_, fun row hrow => ?_⟩
    · rw [List.mem_singleton.mp hw] at hhealthy
      exact absurd hhealthy hsick
    · cases hrow
  · refine ⟨rfl, rfl, rfl, htried, ?_, fun w hw _ => ⟨row, List.mem_singleton_self row, ?_⟩,
      fun row' hrow => ⟨v, List.mem_singleton_self v, ?_⟩⟩
    · rw [List.map_singleton, List.map_singleton, hcaptures.owner]
    · rw [List.mem_singleton.mp hw]
      exact hcaptures
    · rw [List.mem_singleton.mp hrow]
      exact hcaptures

/-- Whatever the other accounts do, a tick tries every account once, inserts a row for each
healthy one and at most one for any, and counts both; only a malformed reply of CoinGecko
can end it early. -/
theorem tick_isolated (source : String) (tick : Tick) (s : Scheduler)
    (hsource : source ∈ validSources)
    (hwell : ∀ v ∈ visits tick, v.call.replies.coingecko ≠ .malformed) :
    ∃ rows, (runTick stamp source tick s).result = .ok (rows.length, (visits tick).length) ∧
      Rounds (visits tick) { s with succeeded := 0, attempted := 0 } (runTick stamp source tick s).log
        (runTick stamp source tick s).state rows := by
  have husers : GoesThrough (visits tick)
      (forEach (captureUser stamp source tick) (allUserIds tick.atStart)) := by
    refine goesThrough_forEach _ _ _ fun userId huser => ?_
    rw [List.map_eq_flatMap]
    refine goesThrough_forEach _ _ _ fun account haccount => ?_
    refine goesThrough_captureNext stamp ⟨userId, account, tick.calls userId account.id⟩ source
      (tick.calls userId) rfl hsource (hwell _ ?_)
    exact List.mem_flatMap.mpr ⟨userId, huser, List.mem_map_of_mem haccount⟩
  obtain ⟨hok, rows, hrounds⟩ := husers { s with succeeded := 0, attempted := 0 }
  have hrun : runTick stamp source tick s =
      (forEach (captureUser stamp source tick) (allUserIds tick.atStart) >>= fun _ =>
        get >>= fun s : Scheduler => pure (s.succeeded, s.attempted))
          { s with succeeded := 0, attempted := 0 } := rfl
  have hsucceeded := hrounds.succeeded
  have hattempted := hrounds.attempted
  rw [Nat.zero_add] at hsucceeded hattempted
  rw [hrun, bind_ok _ _ _ () hok, get_bind_run, pure_run, hsucceeded, hattempted]
  refine ⟨rows, rfl, ?_⟩
  dsimp only
  rw [List.append_nil]
  exact hrounds

theorem twoUsers_isolated :
    ∃ rows, (runTick (fun _ => "") "auto" (tickFrom 0) {}).result =
        .ok (rows.length, (visits (tickFrom 0)).length) ∧
      Rounds (visits (tickFrom 0)) {} (runTick (fun _ => "") "auto" (tickFrom 0) {}).log
        (runTick (fun _ => "") "auto" (tickFrom 0) {}).state rows :=
  tick_isolated (fun _ => "") "auto" (tickFrom 0) {} (by decide) (by decide +kernel)

end SnapshotScheduler

end Reverto
