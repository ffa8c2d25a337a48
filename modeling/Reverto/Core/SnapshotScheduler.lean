import Mathlib.Data.String.Basic
import Mathlib.Tactic
import Reverto.Core.PortfolioStore
import Reverto.Core.PriceFeed

/-!
# The snapshot scheduler (main_scheduler.py, core/exchange_clients.py, core/markets.py)

One process: its price cache, the rows it inserts into `portfolio_snapshots`, and the
counters of `run_tick`. What the tables, the exchanges and the feeds answer are inputs;
instants are microseconds. `stamp` is the text of `datetime('now')`.
-/

namespace Reverto

namespace Markets

/-- `balance_currency` of every entry of `MARKETS`. -/
def balanceCurrencies : List (String × List (String × String)) :=
  [("bitget", [("spot", "USDT"), ("coin_m", "BTC"), ("usdt_m", "USDT"), ("usdc_m", "USDC")]),
    ("kraken", [("spot", "USD"), ("futures", "BTC")])]

/-- `get_market_config(exchange_type, market_type)["balance_currency"]`; `none` where it raises. -/
def balanceCurrency (exchangeType marketType : String) : Option String :=
  (balanceCurrencies.lookup exchangeType).bind fun marketTypes => marketTypes.lookup marketType

end Markets

/-- What `get_account_credentials` does. -/
inductive CredentialsReply where
  | raised
  | unreadable
  | read (keys : Credentials)
  deriving DecidableEq, Repr

/-- What `fetch_balance` comes to: an exception, or `free` of the currency, if it has one. -/
inductive BalanceReply where
  | failed
  | free (amount : Option ℚ)
  deriving DecidableEq, Repr

/-- All that happens outside while an account is captured. `inserted` is the id and the
instant of the row, `none` where the INSERT raises. -/
structure AccountCall where
  credentials : CredentialsReply
  balance : BalanceReply
  now : ℤ
  replies : FeedReplies
  inserted : Option (ℕ × ℤ)
  deriving DecidableEq, Repr

/-- What the tables hold when `run_tick` reads them, and the calls for each user and account. -/
structure Tick where
  atStart : ExchangeAccountStore.Accounts
  atTurn : ℕ → ExchangeAccountStore.Accounts
  calls : ℕ → ℕ → AccountCall

/-- A price was looked up, an account was tried, a row was inserted, a sleep began or ended. -/
inductive SchedulerEvent where
  | price (event : PriceEvent)
  | tried (userId accountId : ℕ)
  | captured (row : Snapshot) (now : ℤ)
  | slept (now : ℤ)
  | woke (now : ℤ)
  deriving DecidableEq, Repr

structure Scheduler where
  rates : RateCache := KeyedDict.empty
  snapshots : List Snapshot := []
  succeeded : ℕ := 0
  attempted : ℕ := 0

namespace SnapshotScheduler

open Program

/-- `build_authenticated_exchange`, the `balance_currency` of the client. -/
def buildAuthenticatedExchange (exchangeType marketType : String) (creds : Credentials) :
    Option String :=
  if exchangeType = "bitget" then
    if creds.passphrase = "" then none else Markets.balanceCurrency "bitget" marketType
  else if exchangeType = "kraken" then Markets.balanceCurrency "kraken" marketType
  else none

/-- `get_balance` -/
def getBalance : BalanceReply → Option ℚ
  | .failed => none
  | .free amount => some (amount.getD 0)

/-- The first `try` of `_capture_one_account`. -/
def exchangeCall (account : ExchangeAccount) (call : AccountCall) : Option (ℚ × String) :=
  match call.credentials with
  | .read creds =>
    match buildAuthenticatedExchange account.exchangeType account.marketType creds with
    | some currency => (getBalance call.balance).map fun balance => (balance, currency)
    | none => none
  | _ => none

/-- `_VALID_SOURCES` -/
def validSources : List String := ["auto", "manual"]

/-- `get_usd_rate` in the scheduler. -/
def priced (currency : String) (call : AccountCall) :
    Program RateError SchedulerEvent Scheduler (ℚ × String) :=
  zoom Scheduler.rates (fun rates s => { s with rates := rates })
    (relabel SchedulerEvent.price (PriceFeed.getUsdRate currency call.now call.replies))

/-- The second `try`: a `PriceFeedError` is caught. -/
def tryPriced (currency : String) (call : AccountCall) :
    Program RateError SchedulerEvent Scheduler (Option (ℚ × String)) :=
  handle (priced currency call >>= fun rate => pure (some rate)) fun e =>
    if e = .attributeError then raise e else pure none

section Stamped

variable (stamp : ℤ → String)

/-- The row of `create_snapshot`. -/
def rowOf (userId accountId : ℕ) (source : String) (balance : ℚ × String) (rate : ℚ × String)
    (inserted : ℕ × ℤ) : Snapshot where
  id := inserted.1
  userId := userId
  exchangeAccountId := accountId
  capturedAt := stamp inserted.2
  balanceNative := balance.1
  currency := balance.2
  balanceUsd := balance.1 * rate.1
  usdRate := rate.1
  rateSource := rate.2
  source := source

/-- `create_snapshot` and the `try` around it. -/
def createSnapshot (userId accountId : ℕ) (source : String) (balance : ℚ × String)
    (rate : ℚ × String) (call : AccountCall) : Program RateError SchedulerEvent Scheduler Bool :=
  match call.inserted with
  | some inserted =>
    if source ∉ validSources then pure false
    else do
      let row := rowOf stamp userId accountId source balance rate inserted
      emit (.captured row inserted.2)
      modify fun s => { s with snapshots := s.snapshots ++ [row] }
      pure true
  | none => pure false

/-- `_capture_one_account` behind the exchange. -/
def captureBalance (userId accountId : ℕ) (source : String) (call : AccountCall)
    (balance : ℚ × String) : Program RateError SchedulerEvent Scheduler Bool := do
  match ← tryPriced balance.2 call with
  | some rate => createSnapshot stamp userId accountId source balance rate call
  | none => pure false

/-- `_capture_one_account` -/
def captureOneAccount (userId : ℕ) (account : ExchangeAccount) (source : String)
    (call : AccountCall) : Program RateError SchedulerEvent Scheduler Bool := do
  emit (.tried userId account.id)
  match exchangeCall account call with
  | some balance => captureBalance stamp userId account.id source call balance
  | none => pure false

/-- `_all_user_ids` -/
def allUserIds (accounts : ExchangeAccountStore.Accounts) : List ℕ :=
  (accounts.items.map ExchangeAccount.userId).dedup.insertionSort (· ≤ ·)

/-- `ORDER BY exchange_type ASC, alias ASC` -/
abbrev ListedBefore (a b : ExchangeAccount) : Prop :=
  a.exchangeType < b.exchangeType ∨ (a.exchangeType = b.exchangeType ∧ a.aliasName ≤ b.aliasName)

/-- `list_accounts` -/
def listAccounts (accounts : ExchangeAccountStore.Accounts) (userId : ℕ) : List ExchangeAccount :=
  (accounts.items.filter fun a => decide (a.userId = userId)).insertionSort ListedBefore

/-- The body of the inner loop of `run_tick`. -/
def captureNext (source : String) (userId : ℕ) (calls : ℕ → AccountCall)
    (account : ExchangeAccount) : Program RateError SchedulerEvent Scheduler Unit := do
  modify fun s => { s with attempted := s.attempted + 1 }
  let captured ← captureOneAccount stamp userId account source (calls account.id)
  modify fun s => { s with succeeded := if captured then s.succeeded + 1 else s.succeeded }

/-- The body of the outer loop. -/
def captureUser (source : String) (tick : Tick) (userId : ℕ) :
    Program RateError SchedulerEvent Scheduler Unit :=
  forEach (captureNext stamp source userId (tick.calls userId))
    (listAccounts (tick.atTurn userId) userId)

/-- `run_tick` -/
def runTick (source : String) (tick : Tick) :
    Program RateError SchedulerEvent Scheduler (ℕ × ℕ) := do
  modify fun s => { s with succeeded := 0, attempted := 0 }
  forEach (captureUser stamp source tick) (allUserIds tick.atStart)
  let s ← get
  pure (s.succeeded, s.attempted)

/-! ### The main loop -/

/-- An hour in microseconds. -/
def hour : ℤ := 3600 * 1000000

/-- `(now + timedelta(hours=1)).replace(minute=0, second=0, microsecond=0)` -/
def nextHour (now : ℤ) : ℤ := (now + hour) / hour * hour

/-- The loop of `_sleep_until_next_hour`: `_shutdown_requested` and the clock at each turn.
The reading that ends it, `none` where there is no tick. -/
def sleepUntil (target : ℤ) : List (Bool × ℤ) → Option ℤ
  | [] => none
  | (shutdown, now) :: readings =>
    if shutdown then none else if target ≤ now then some now else sleepUntil target readings

/-- One turn of the loop of `main`. -/
structure LoopTurn where
  sleptAt : ℤ
  readings : List (Bool × ℤ)
  tick : Tick

/-- The loop of `main`; it ends where a sleep does not end in a tick. -/
def mainLoop : List LoopTurn → Program RateError SchedulerEvent Scheduler Unit
  | [] => pure ()
  | turn :: turns => do
    emit (.slept turn.sleptAt)
    match sleepUntil (nextHour turn.sleptAt) turn.readings with
    | none => pure ()
    | some now => do
      emit (.woke now)
      handle (runTick stamp "auto" turn.tick >>= fun _ => pure ()) fun _ => pure ()
      mainLoop turns

/-! ### What the rows say -/

/-- The price events of a log. -/
def priceOf : SchedulerEvent → Option PriceEvent
  | .price event => some event
  | _ => none

/-- The row of an event. -/
def rowIn : SchedulerEvent → Option Snapshot
  | .captured row _ => some row
  | _ => none

/-- The clock reading of an event. -/
def readAt : SchedulerEvent → Option ℤ
  | .price event => some (PriceFeed.readAt event)
  | .tried _ _ => none
  | .captured _ now => some now
  | .slept now => some now
  | .woke now => some now

/-- The clock never goes back. -/
def Timely (l : List SchedulerEvent) : Prop := (l.filterMap readAt).Pairwise (· ≤ ·)

/-- A row is inserted right after its rate was returned, and holds the balance in USD. -/
def RowLaw (before : List SchedulerEvent) (row : Snapshot) (now : ℤ) : Prop :=
  (∃ t, before.getLast? = some (.price (.answered row.currency row.usdRate row.rateSource t))) ∧
    row.balanceUsd = row.balanceNative * row.usdRate ∧ row.capturedAt = stamp now ∧
      row.source ∈ validSources

/-- Prices are lawful, and so are rows. -/
def SchedulerLaw (before : List SchedulerEvent) : SchedulerEvent → Prop
  | .price event => PriceFeed.RateLaw (before.filterMap priceOf) event
  | .captured row now => RowLaw stamp before row now
  | _ => True

/-- The cache holds the last rates stored, the table the rows inserted; every row is lawful. -/
structure Kept (before : List SchedulerEvent) (s : Scheduler) : Prop where
  rates : PriceFeed.Kept (before.filterMap priceOf) s.rates
  rows : s.snapshots = before.filterMap rowIn
  lawful : Lawful (fun l e => ∀ row now, e = .captured row now → RowLaw stamp l row now) before

theorem readAt_price (l : List SchedulerEvent) :
    ((l.filterMap priceOf).map PriceFeed.readAt).Sublist (l.filterMap readAt) := by
  induction l with
  | nil => exact List.Sublist.refl _
  | cons event l ih =>
    cases event with
    | price event => exact ih.cons_cons _
    | tried userId accountId => exact ih
    | captured row now => exact ih.cons _
    | slept now => exact ih.cons _
    | woke now => exact ih.cons _

theorem timely_prices (l : List SchedulerEvent) (h : Timely l) :
    PriceFeed.Timely (l.filterMap priceOf) := h.sublist (readAt_price l)

/-- What is kept makes the whole log lawful. -/
theorem lawful_of_kept (l : List SchedulerEvent) (s : Scheduler) (h : Kept stamp l s)
    (htime : Timely l) : Lawful (SchedulerLaw stamp) l := by
  have hprices := lawful_filterMap priceOf PriceFeed.RateLaw l (h.rates.lawful (timely_prices l htime))
  intro l₁ event l₂ heq
  cases event with
  | price event => exact hprices l₁ _ l₂ heq event rfl
  | captured row now => exact h.lawful l₁ _ l₂ heq row now rfl
  | tried userId accountId => trivial
  | slept now => trivial
  | woke now => trivial

/-- An event that is neither a price nor a row. -/
theorem kept_snoc (before : List SchedulerEvent) (s : Scheduler) (event : SchedulerEvent)
    (h : Kept stamp before s) (hprice : priceOf event = none) (hrow : rowIn event = none) :
    Kept stamp (before ++ [event]) s where
  rates := by
    rw [List.filterMap_append, List.filterMap_cons_none hprice, List.filterMap_nil, List.append_nil]
    exact h.rates
  rows := by
    rw [List.filterMap_append, List.filterMap_cons_none hrow, List.filterMap_nil, List.append_nil]
    exact h.rows
  lawful := by
    refine lawful_snoc _ before event h.lawful fun row now heq => ?_
    subst heq
    cases hrow

/-- A row that the log explains. -/
theorem kept_captured (before : List SchedulerEvent) (s : Scheduler) (row : Snapshot) (now : ℤ)
    (h : Kept stamp before s) (hrow : RowLaw stamp before row now) :
    Kept stamp (before ++ [.captured row now]) { s with snapshots := s.snapshots ++ [row] } where
  rates := by
    rw [List.filterMap_append]
    exact (List.append_nil (before.filterMap priceOf)).symm ▸ h.rates
  rows := by
    rw [List.filterMap_append]
    exact congrArg (· ++ [row]) h.rows
  lawful := by
    refine lawful_snoc _ before _ h.lawful fun row' now' heq => ?_
    cases heq
    exact hrow

theorem priced_run (currency : String) (call : AccountCall) (s : Scheduler) :
    priced currency call s =
      ⟨(PriceFeed.getUsdRate currency call.now call.replies s.rates).result,
        (PriceFeed.getUsdRate currency call.now call.replies s.rates).log.map SchedulerEvent.price,
        { s with rates := (PriceFeed.getUsdRate currency call.now call.replies s.rates).state }⟩ := by
  rw [priced, zoom, relabel]

theorem map_price_prices (l : List PriceEvent) :
    (l.map SchedulerEvent.price).filterMap priceOf = l := by
  induction l with
  | nil => rfl
  | cons event l ih => exact congrArg (event :: ·) ih

theorem map_price_rows (l : List PriceEvent) :
    (l.map SchedulerEvent.price).filterMap rowIn = [] := by
  induction l with
  | nil => rfl
  | cons event l ih => exact ih

theorem keeps_priced (currency : String) (call : AccountCall) :
    KeepsHistory (Kept stamp) (priced currency call) := by
  intro s before h
  have hcall := PriceFeed.keepsHistory_getUsdRate currency call.now call.replies s.rates _ h.rates
  rw [priced_run]
  generalize PriceFeed.getUsdRate currency call.now call.replies s.rates = out at hcall
  refine ⟨?_, ?_, ?_⟩
  · rw [List.filterMap_append, map_price_prices]
    exact hcall
  · rw [List.filterMap_append, map_price_rows, List.append_nil]
    exact h.rows
  · refine lawful_append _ before _ h.lawful fun l₁ event l₂ heq row now hevent => ?_
    have hlog : out.log.map SchedulerEvent.price = l₁ ++ event :: l₂ := heq
    have hmem : event ∈ out.log.map SchedulerEvent.price := by
      rw [hlog]
      exact List.mem_append_right _ List.mem_cons_self
    obtain ⟨price, _, hprice⟩ := List.mem_map.mp hmem
    rw [hevent] at hprice
    cases hprice

/-- The second `try` keeps what the lookup did; a rate, none, or the `AttributeError`. -/
theorem tryPriced_cases (currency : String) (call : AccountCall) (s : Scheduler) :
    (tryPriced currency call s).log = (priced currency call s).log ∧
      (tryPriced currency call s).state = (priced currency call s).state ∧
      match (priced currency call s).result with
      | .ok rate => (tryPriced currency call s).result = .ok (some rate)
      | .error e => (tryPriced currency call s).result =
          if e = .attributeError then .error e else .ok none := by
  rw [tryPriced]
  cases hresult : (priced currency call s).result with
  | ok rate =>
    have hbind := bind_ok (priced currency call) (fun rate => pure (some rate)) s rate hresult
    rw [handle_ok _ _ s (some rate) (by rw [hbind]; rfl), hbind]
    exact ⟨List.append_nil _, rfl, rfl⟩
  | error e =>
    have hbind := bind_error (priced currency call) (fun rate => pure (some rate)) s e hresult
    rw [handle_error _ _ s e (by rw [hbind]), hbind]
    dsimp only
    split
    · exact ⟨List.append_nil _, rfl, rfl⟩
    · exact ⟨List.append_nil _, rfl, rfl⟩

/-- A rate that the second `try` gives was returned last. -/
theorem tryPriced_answered (currency : String) (call : AccountCall) (s : Scheduler)
    (rate : ℚ × String) (h : (tryPriced currency call s).result = .ok (some rate)) :
    (tryPriced currency call s).log.getLast? =
      some (.price (.answered (PriceFeed.normalized currency) rate.1 rate.2 call.now)) := by
  obtain ⟨hlog, _, hresult⟩ := tryPriced_cases currency call s
  rw [hlog]
  cases hpriced : (priced currency call s).result with
  | error e =>
    rw [hpriced] at hresult
    dsimp only at hresult
    rw [h] at hresult
    split at hresult
    · cases hresult
    · cases hresult
  | ok rate' =>
    rw [hpriced] at hresult
    dsimp only at hresult
    rw [h] at hresult
    cases hresult
    rw [priced_run] at hpriced ⊢
    have hends := PriceFeed.endsWith_getUsdRate currency call.now call.replies s.rates rate hpriced
    rw [List.getLast?_map, hends]
    rfl

theorem keeps_tryPriced (currency : String) (call : AccountCall) :
    KeepsHistory (Kept stamp) (tryPriced currency call) := by
  intro s before h
  obtain ⟨hlog, hstate, _⟩ := tryPriced_cases currency call s
  rw [hlog, hstate]
  exact keeps_priced stamp currency call s before h

/-- The currencies of the registry are written in capitals. -/
theorem normalized_balanceCurrency (exchangeType marketType currency : String)
    (h : Markets.balanceCurrency exchangeType marketType = some currency) :
    PriceFeed.normalized currency = currency ∧ currency ≠ "" ∧
      (currency = "USD" ∨ PriceFeed.coingeckoIds.lookup currency ≠ none) := by
  have hall : ∀ entry ∈ Markets.balanceCurrencies, ∀ market ∈ entry.2,
      PriceFeed.normalized market.2 = market.2 ∧ market.2 ≠ "" ∧
        (market.2 = "USD" ∨ PriceFeed.coingeckoIds.lookup market.2 ≠ none) := by
    decide +kernel
  obtain ⟨marketTypes, hexchange, hmarket⟩ := Option.bind_eq_some_iff.mp h
  have hentry : (exchangeType, marketTypes) ∈ Markets.balanceCurrencies := by
    obtain ⟨l₁, l₂, hl, _⟩ := List.lookup_eq_some_iff.mp hexchange
    rw [hl]
    exact List.mem_append_right _ List.mem_cons_self
  have hcurrency : (marketType, currency) ∈ marketTypes := by
    obtain ⟨l₁, l₂, hl, _⟩ := List.lookup_eq_some_iff.mp hmarket
    rw [hl]
    exact List.mem_append_right _ List.mem_cons_self
  exact hall _ hentry _ hcurrency

theorem normalized_exchangeCall (account : ExchangeAccount) (call : AccountCall)
    (balance : ℚ × String) (h : exchangeCall account call = some balance) :
    PriceFeed.normalized balance.2 = balance.2 ∧ balance.2 ≠ "" ∧
      (balance.2 = "USD" ∨ PriceFeed.coingeckoIds.lookup balance.2 ≠ none) := by
  rw [exchangeCall] at h
  split at h
  · rename_i creds _
    split at h
    · rename_i currency hclient
      obtain ⟨amount, _, rfl⟩ := Option.map_eq_some_iff.mp h
      rw [buildAuthenticatedExchange] at hclient
      split at hclient
      · exact normalized_balanceCurrency _ _ currency (Option.ite_none_left_eq_some.mp hclient).2
      · obtain ⟨_, hkraken⟩ := Option.ite_none_right_eq_some.mp hclient
        exact normalized_balanceCurrency _ _ currency hkraken
    · cases h
  · cases h

/-- Behind the exchange a row is inserted for the rate returned, or nothing is; only what the
lookup raises is raised. -/
theorem captureBalance_cases (userId accountId : ℕ) (source : String) (call : AccountCall)
    (balance : ℚ × String) (s : Scheduler) :
    (∃ rate inserted, (tryPriced balance.2 call s).result = .ok (some rate) ∧
      call.inserted = some inserted ∧ source ∈ validSources ∧
      captureBalance stamp userId accountId source call balance s =
        ⟨.ok true, (tryPriced balance.2 call s).log ++
            [.captured (rowOf stamp userId accountId source balance rate inserted) inserted.2],
          { (tryPriced balance.2 call s).state with
            snapshots := (tryPriced balance.2 call s).state.snapshots ++
              [rowOf stamp userId accountId source balance rate inserted] }⟩) ∨
    (∃ e, (tryPriced balance.2 call s).result = .error e ∧
      captureBalance stamp userId accountId source call balance s =
        ⟨.error e, (tryPriced balance.2 call s).log, (tryPriced balance.2 call s).state⟩) ∨
    (((tryPriced balance.2 call s).result = .ok none ∨ call.inserted = none ∨
        source ∉ validSources) ∧
      captureBalance stamp userId accountId source call balance s =
        ⟨.ok false, (tryPriced balance.2 call s).log, (tryPriced balance.2 call s).state⟩) := by
  rw [captureBalance]
  generalize htried : tryPriced balance.2 call = tried
  cases hresult : (tried s).result with
  | error e => exact .inr (.inl ⟨e, rfl, bind_error _ _ s e hresult⟩)
  | ok found =>
    rw [bind_ok _ _ s found hresult]
    cases found with
    | none => exact .inr (.inr ⟨.inl rfl, by simp only [pure_run, List.append_nil]⟩)
    | some rate =>
      cases hinserted : call.inserted with
      | none =>
        refine .inr (.inr ⟨.inr (.inl rfl), ?_⟩)
        simp only [createSnapshot, hinserted, pure_run, List.append_nil]
      | some inserted =>
        by_cases hsource : source ∈ validSources
        · refine .inl ⟨rate, inserted, rfl, rfl, hsource, ?_⟩
          simp only [createSnapshot, hinserted, not_not.mpr hsource, if_false]
          rfl
        · refine .inr (.inr ⟨.inr (.inr hsource), ?_⟩)
          simp only [createSnapshot, hinserted, if_pos hsource, pure_run, List.append_nil]

/-- Trying an account keeps the log lawful. -/
theorem keeps_captureOneAccount (userId : ℕ) (account : ExchangeAccount) (source : String)
    (call : AccountCall) :
    KeepsHistory (Kept stamp) (captureOneAccount stamp userId account source call) := by
  intro s before h
  rw [captureOneAccount, emit_bind_run, List.append_cons]
  have htried := kept_snoc stamp before s (.tried userId account.id) h rfl rfl
  generalize before ++ [SchedulerEvent.tried userId account.id] = before' at htried
  cases hcall : exchangeCall account call with
  | none => exact (congrArg (Kept stamp · s) (List.append_nil _)).mpr htried
  | some balance =>
    have hpriced := keeps_tryPriced stamp balance.2 call s before' htried
    dsimp only
    rcases captureBalance_cases stamp userId account.id source call balance s with
      ⟨rate, inserted, hrate, _, hsource, hrun⟩ | ⟨e, _, hrun⟩ | ⟨_, hrun⟩
    · rw [hrun]
      dsimp only
      rw [← List.append_assoc]
      refine kept_captured stamp _ _ _ _ hpriced ⟨⟨call.now, ?_⟩, rfl, rfl, hsource⟩
      have hlast := tryPriced_answered balance.2 call s rate hrate
      rw [(normalized_exchangeCall account call balance hcall).1] at hlast
      rw [List.getLast?_append, hlast]
      rfl
    · rw [hrun]
      exact hpriced
    · rw [hrun]
      exact hpriced

/-- The counters are in no row. -/
theorem keeps_counters (f : Scheduler → Scheduler) (hrates : ∀ s, (f s).rates = s.rates)
    (hrows : ∀ s, (f s).snapshots = s.snapshots) :
    KeepsHistory (Kept stamp) (modify f : Program RateError SchedulerEvent Scheduler Unit) := by
  intro s before h
  have hlog : before ++ (modify f s : Outcome RateError SchedulerEvent Scheduler Unit).log = before :=
    List.append_nil before
  rw [hlog]
  refine ⟨?_, ?_, h.lawful⟩
  · exact (hrates s).symm ▸ h.rates
  · exact (hrows s).trans h.rows

theorem keeps_captureUser (source : String) (tick : Tick) (userId : ℕ) :
    KeepsHistory (Kept stamp) (captureUser stamp source tick userId) := by
  have hR := traceRel_history (Kept stamp)
  refine respects_forEach hR _ _ fun account _ => ?_
  refine respects_bind hR _ _ (keeps_counters stamp _ (fun _ => rfl) fun _ => rfl) fun _ => ?_
  refine respects_bind hR _ _ (keeps_captureOneAccount stamp _ account _ _) fun captured => ?_
  exact keeps_counters stamp _ (fun _ => rfl) fun _ => rfl

theorem keeps_runTick (source : String) (tick : Tick) :
    KeepsHistory (Kept stamp) (runTick stamp source tick) := by
  have hR := traceRel_history (Kept stamp)
  refine respects_bind hR _ _ (keeps_counters stamp _ (fun _ => rfl) fun _ => rfl) fun _ => ?_
  refine respects_bind hR _ _ ?_ fun _ => ?_
  · exact respects_forEach hR _ _ fun userId _ => keeps_captureUser stamp source tick userId
  · exact respects_bind hR _ _ (respects_get hR) fun _ => respects_pure hR _

theorem keeps_emit (event : SchedulerEvent) (hprice : priceOf event = none)
    (hrow : rowIn event = none) :
    KeepsHistory (Kept stamp)
      (emit event : Program RateError SchedulerEvent Scheduler Unit) := by
  intro s before h
  exact kept_snoc stamp before s event h hprice hrow

theorem keeps_mainLoop (turns : List LoopTurn) :
    KeepsHistory (Kept stamp) (mainLoop stamp turns) := by
  have hR := traceRel_history (Kept stamp)
  induction turns with
  | nil => exact respects_pure hR ()
  | cons turn turns ih =>
    refine respects_bind hR _ _ (keeps_emit stamp _ rfl rfl) fun _ => ?_
    cases sleepUntil (nextHour turn.sleptAt) turn.readings with
    | none => exact respects_pure hR ()
    | some now =>
      refine respects_bind hR _ _ (keeps_emit stamp _ rfl rfl) fun _ => ?_
      refine respects_bind hR _ _ (respects_handle hR _ _ ?_ fun _ => respects_pure hR ()) fun _ => ih
      exact respects_bind hR _ _ (keeps_runTick stamp "auto" turn.tick) fun _ => respects_pure hR ()

theorem kept_initial : Kept stamp [] {} where
  rates := PriceFeed.kept_empty
  rows := rfl
  lawful := lawful_nil _

end Stamped

/-- Two users; the credentials of one account cannot be read. -/
def twoUsers : ExchangeAccountStore.Accounts :=
  KeyedDict.ofList [⟨11, 1, "bitget", "coin_m", "main", "u", none, true⟩,
    ⟨12, 1, "kraken", "spot", "cash", "v", none, true⟩,
    ⟨13, 2, "kraken", "futures", "other", "w", none, true⟩]

/-- A tick that starts at an instant, one second for each account. -/
def tickFrom (start : ℤ) : Tick where
  atStart := twoUsers
  atTurn := fun _ => twoUsers
  calls := fun _ accountId =>
    { credentials := if accountId = 12 then .unreadable else .read ⟨"k", "s", "p"⟩
      balance := .free (some 2)
      now := start + (accountId - 11) * 1000000
      replies := ⟨.failed, .last (some 60000)⟩
      inserted := some (accountId, start + (accountId - 11) * 1000000 + 1) }

/-- A turn that goes to sleep five minutes into an hour and wakes up late. -/
def turnFrom (sleptAt : ℤ) : LoopTurn where
  sleptAt := sleptAt
  readings := [(false, sleptAt), (false, nextHour sleptAt + 7)]
  tick := tickFrom (nextHour sleptAt + 8)

end SnapshotScheduler

end Reverto
