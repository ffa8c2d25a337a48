import Mathlib.Tactic
import Reverto.Lib.KeyedDict
import Reverto.Lib.Program

/-!
# Order placement with retries (exchanges/bitget.py)

The exchange accepts an order or not, and independently of that its reply arrives,
is lost or is rate-limited. It never recognises a repeated client order id by itself.
-/

namespace Reverto

/-- The exception classes the order path tells apart: the ccxt ones, other exceptions,
and what is not an `Exception`. -/
inductive ErrorClass where
  | insufficientFunds
  | rateLimitExceeded
  | networkError
  | orderNotFound
  | baseError
  | exception
  | interrupt
  deriving DecidableEq, Repr

/-- `except ccxt.NetworkError`; a rate limit is one. -/
def ErrorClass.isNetworkError : ErrorClass → Bool
  | .rateLimitExceeded | .networkError => true
  | _ => false

/-- `except Exception` -/
def ErrorClass.isException : ErrorClass → Bool
  | .interrupt => false
  | _ => true

/-- An exception out of the ccxt client. -/
structure ClientError where
  kind : ErrorClass
  text : String
  deriving DecidableEq, Repr

/-- `str(e)[:200]` -/
def ClientError.shortText (e : ClientError) : String := (e.text.take 200).toString

/-- What an order call raises. -/
inductive OrderError where
  | insufficientFunds (text : String)
  | rateLimit (text : String)
  | exchangeNetwork (text : String)
  | raised (e : ClientError)
  deriving DecidableEq, Repr

/-- A reply of the client: an order dict, or something else. -/
inductive RawReply where
  | order (id : String) (status : Option String)
  | other
  deriving DecidableEq, Repr

/-- `isinstance(existing, dict) and existing.get("status") in {...}` -/
def RawReply.isKnown : RawReply → Bool
  | .order _ (some status) => status ∈ ["open", "closed", "filled", "partial"]
  | .order _ none => false
  | .other => false

/-- `params` of a request. -/
abbrev OrderParams := KeyedDict (Prod.fst : String × String → String)

/-- `params.get("clientOrderId")` -/
def OrderParams.clientOrderId (params : OrderParams) : Option String :=
  (params.get? "clientOrderId").map Prod.snd

/-- What a call sends to the exchange, and its pauses. -/
inductive OrderEvent where
  | create (params : OrderParams) (accepted : Bool)
  | fetch (id symbol : String) (params : OrderParams)
  | sleep (seconds : ℚ)
  deriving DecidableEq

/-- An order request: whether the exchange accepts it, and what the client gets. -/
structure CreateReply where
  accepted : Bool
  reply : Except ClientError RawReply
  deriving DecidableEq

/-- `except ccxt.RateLimitExceeded` of the reply. -/
def CreateReply.rateLimited (r : CreateReply) : Bool :=
  match r.reply with
  | .ok _ => false
  | .error e => e.kind = .rateLimitExceeded

/-- A lookup by client order id: the truth, with the reply if there is such an order;
not found, whether there is one or not; or an exception. -/
inductive FetchReply where
  | truthful (existing : RawReply) (missing : String)
  | notFound (missing : String)
  | raises (e : ClientError)
  deriving DecidableEq

/-- The answers to the order requests and to the lookups of one call, in order. -/
structure ExchangeReplies where
  create : ℕ → CreateReply
  fetch : ℕ → FetchReply

/-- The client order ids of the orders accepted, and the requests of the call so far. -/
structure OrderBook where
  accepted : List (Option String)
  creates : ℕ
  fetches : ℕ
  deriving DecidableEq

/-- The arguments of `_with_order_retries` that it reads, and the id it would generate. -/
structure OrderCall where
  client : Bool
  symbol : Option String
  params : OrderParams
  generated : String

namespace OrderCall

abbrev OrderM := Program OrderError OrderEvent OrderBook

variable (x : ExchangeReplies) (c : OrderCall)

/-- `params.get("clientOrderId") or _generate_client_order_id()` -/
def clientOrderId : String :=
  match OrderParams.clientOrderId c.params with
  | some id => if id = "" then c.generated else id
  | none => c.generated

/-- `kwargs["params"]` of every attempt. -/
def sentParams : OrderParams :=
  if c.client then c.params.set ("clientOrderId", c.clientOrderId) else c.params

/-- The symbol of the lookup before a retry, if one is made. -/
def lookupSymbol : Option String :=
  match c.symbol with
  | some symbol => if c.client ∧ c.clientOrderId ≠ "" ∧ symbol ≠ "" then some symbol else none
  | none => none

/-- `fn(*args, **kwargs)` -/
def create : OrderM RawReply := fun book =>
  let answer := x.create book.creates
  { result := answer.reply.mapError .raised
    log := [.create c.sentParams answer.accepted]
    state :=
      { book with
        accepted := if answer.accepted
          then OrderParams.clientOrderId c.sentParams :: book.accepted else book.accepted
        creates := book.creates + 1 } }

/-- The answer to a lookup; `exists?` says whether there is an order with the id. -/
def fetched : FetchReply → (exists? : Bool) → Except OrderError RawReply
  | .truthful existing _, true => .ok existing
  | .truthful _ missing, false => .error (.raised ⟨.orderNotFound, missing⟩)
  | .notFound missing, _ => .error (.raised ⟨.orderNotFound, missing⟩)
  | .raises e, _ => .error (.raised e)

/-- `client.fetch_order(client_order_id, symbol, params=lookup_params)` -/
def fetch (symbol : String) : OrderM RawReply := fun book =>
  { result := fetched (x.fetch book.fetches) (some c.clientOrderId ∈ book.accepted)
    log := [.fetch c.clientOrderId symbol (c.sentParams.pop "clientOrderId")]
    state := { book with fetches := book.fetches + 1 } }

/-- The lookup with its handlers: the existing order, or `None`. -/
def existing (symbol : String) : OrderM (Option RawReply) :=
  Program.handle (fetch x c symbol >>= fun raw => pure (some raw)) fun
    | .raised e =>
      if e.kind = .orderNotFound then pure none
      else if e.kind.isNetworkError then
        Program.raise
          (.exchangeNetwork ("Cannot verify order " ++ c.clientOrderId ++ ": " ++ e.shortText))
      else if e.kind.isException then pure none
      else Program.raise (.raised e)
    | e => Program.raise e

/-- The body of the `try` of one attempt. -/
def attempt (k : ℕ) : OrderM RawReply :=
  match c.lookupSymbol with
  | some symbol =>
    if 0 < k then do
      let found ← existing x c symbol
      match found with
      | some raw => if raw.isKnown then pure raw else create x c
      | none => create x c
    else create x c
  | none => create x c

/-- The `RateLimitError` after the loop. -/
def exhausted : Option ClientError → OrderError
  | some e => .rateLimit e.shortText
  | none => .rateLimit "Bitget rate-limit exhausted"

/-- `for attempt in range(3)`, with the attempts left and the attempt made next. -/
def attempts : ℕ → ℕ → Option ClientError → OrderM RawReply
  | 0, _, last => Program.raise (exhausted last)
  | left + 1, k, _ =>
    Program.handle (attempt x c k) fun
      | .raised e =>
        if e.kind = .insufficientFunds then Program.raise (.insufficientFunds e.shortText)
        else if e.kind = .rateLimitExceeded then
          if k = 2 then Program.raise (exhausted (some e))
          else do
            Program.emit (.sleep (1 / 2 * 2 ^ k))
            attempts left (k + 1) (some e)
        else if e.kind.isNetworkError then Program.raise (.exchangeNetwork e.shortText)
        else Program.raise (.raised e)
      | e => Program.raise e

/-- `_with_order_retries` -/
def withOrderRetries : OrderM RawReply := attempts x c 3 0 none

/-! ### The orders that a call places -/

/-- The orders accepted during a call. -/
def acceptedOrders (log : List OrderEvent) : ℕ :=
  log.countP fun e => match e with
    | .create _ accepted => accepted
    | _ => false

/-- At most one order is accepted, on an exchange that holds the orders `accepted` before. -/
def AtMostOnce (accepted : List (Option String)) : Prop :=
  acceptedOrders (withOrderRetries x c ⟨accepted, 0, 0⟩).log ≤ 1

/-- After request `k` the exchange holds an order with the id of the call. -/
def Listed (accepted : List (Option String)) (k : ℕ) : Prop :=
  some c.clientOrderId ∈ accepted ∨ ∃ i < k + 1, (x.create i).accepted = true

instance (accepted : List (Option String)) (k : ℕ) : Decidable (Listed x c accepted k) :=
  inferInstanceAs (Decidable (_ ∨ _))

/-- The answer to a lookup after which nothing is placed. -/
def FetchStops : FetchReply → (exists? : Bool) → Bool
  | .truthful existing _, true => existing.isKnown
  | .truthful _ _, false => false
  | .notFound _, _ => false
  | .raises e, _ => e.kind.isNetworkError || !e.kind.isException

/-- The lookup after request `k` is made and ends the call. -/
def LookupStops (accepted : List (Option String)) (k : ℕ) : Prop :=
  c.lookupSymbol.isSome ∧ FetchStops (x.fetch k) (decide (Listed x c accepted k))

instance (accepted : List (Option String)) (k : ℕ) : Decidable (LookupStops x c accepted k) :=
  inferInstanceAs (Decidable (_ ∧ _))

/-- Request `k` or the lookup after it ends the call. -/
def Stops (accepted : List (Option String)) (k : ℕ) : Prop :=
  (x.create k).rateLimited = false ∨ LookupStops x c accepted k

instance (accepted : List (Option String)) (k : ℕ) : Decidable (Stops x c accepted k) :=
  inferInstanceAs (Decidable (_ ∨ _))

/-- The orders accepted by the requests from `k` on, if request `k` is made. -/
def acceptedFrom (accepted : List (Option String)) : ℕ → ℕ → ℕ
  | 0, _ => 0
  | left + 1, k =>
    (if (x.create k).accepted then 1 else 0) +
      if Stops x c accepted k then 0 else acceptedFrom accepted left (k + 1)

theorem acceptedFrom_zero (accepted : List (Option String)) (left k : ℕ) :
    acceptedFrom x c accepted left k = 0 ↔
      ∀ j, k ≤ j → j < k + left → (x.create j).accepted →
        ∃ m, k ≤ m ∧ m < j ∧ Stops x c accepted m := by
  induction left generalizing k with
  | zero =>
    simp only [acceptedFrom, true_iff]
    intro j hkj hj
    omega
  | succ left ih =>
    rw [acceptedFrom, Nat.add_eq_zero_iff]
    constructor
    · rintro ⟨hown, hrest⟩ j hkj hj hacc
      by_cases hstop : Stops x c accepted k
      · have hne : k ≠ j := by
          rintro rfl
          simp [hacc] at hown
        exact ⟨k, le_refl k, by omega, hstop⟩
      · rw [if_neg hstop] at hrest
        have hne : k ≠ j := by
          rintro rfl
          simp [hacc] at hown
        obtain ⟨m, hm, hmj, hs⟩ := (ih (k + 1)).mp hrest j (by omega) (by omega) hacc
        exact ⟨m, by omega, hmj, hs⟩
    · intro h
      have hown : (x.create k).accepted = false := by
        cases hacc : (x.create k).accepted with
        | false => rfl
        | true =>
          obtain ⟨m, hm, hmk, -⟩ := h k (le_refl k) (by omega) hacc
          omega
      refine ⟨by simp [hown], ?_⟩
      by_cases hstop : Stops x c accepted k
      · rw [if_pos hstop]
      · rw [if_neg hstop, ih]
        intro j hkj hj hacc
        obtain ⟨m, hm, hmj, hs⟩ := h j (by omega) (by omega) hacc
        have hne : m ≠ k := by
          rintro rfl
          exact hstop hs
        exact ⟨m, by omega, hmj, hs⟩

theorem acceptedFrom_le_one (accepted : List (Option String)) (left k : ℕ) :
    acceptedFrom x c accepted left k ≤ 1 ↔
      ∀ i j, k ≤ i → i < j → j < k + left → (x.create i).accepted → (x.create j).accepted →
        ∃ m, k ≤ m ∧ m < j ∧ Stops x c accepted m := by
  induction left generalizing k with
  | zero =>
    simp only [acceptedFrom, Nat.zero_le, true_iff]
    intro i j hki hij hj
    omega
  | succ left ih =>
    rw [acceptedFrom]
    by_cases hstop : Stops x c accepted k
    · rw [if_pos hstop]
      have hle : (if (x.create k).accepted then 1 else 0) + 0 ≤ 1 := by
        split
        · exact le_refl 1
        · exact Nat.zero_le 1
      exact iff_of_true hle fun i j hki hij _ _ _ => ⟨k, le_refl k, by omega, hstop⟩
    · rw [if_neg hstop]
      cases hacc : (x.create k).accepted with
      | false =>
        rw [if_neg (by simp), Nat.zero_add, ih]
        constructor
        · intro h i j hki hij hj hi hja
          have hne : k ≠ i := by
            rintro rfl
            simp [hacc] at hi
          obtain ⟨m, hm, hmj, hs⟩ := h i j (by omega) hij (by omega) hi hja
          exact ⟨m, by omega, hmj, hs⟩
        · intro h i j hki hij hj hi hja
          obtain ⟨m, hm, hmj, hs⟩ := h i j (by omega) hij (by omega) hi hja
          have hne : m ≠ k := by
            rintro rfl
            exact hstop hs
          exact ⟨m, by omega, hmj, hs⟩
      | true =>
        have hzero : (if true = true then 1 else 0) + acceptedFrom x c accepted left (k + 1) ≤ 1 ↔
            acceptedFrom x c accepted left (k + 1) = 0 := by
          rw [if_pos rfl]
          omega
        rw [hzero, acceptedFrom_zero]
        constructor
        · intro h i j hki hij hj hi hja
          obtain ⟨m, hm, hmj, hs⟩ := h j (by omega) (by omega) hja
          exact ⟨m, by omega, hmj, hs⟩
        · intro h j hkj hj hja
          obtain ⟨m, hm, hmj, hs⟩ := h k j (le_refl k) (by omega) (by omega) hacc hja
          have hne : m ≠ k := by
            rintro rfl
            exact hstop hs
          exact ⟨m, by omega, hmj, hs⟩

/-! ### One attempt -/

/-- The exchange when attempt `k` begins. -/
structure Before (accepted : List (Option String)) (k : ℕ) (book : OrderBook) : Prop where
  creates : book.creates = k
  fetches : c.lookupSymbol.isSome → book.fetches = k - 1
  listed : c.lookupSymbol.isSome → (some c.clientOrderId ∈ book.accepted ↔
    some c.clientOrderId ∈ accepted ∨ ∃ i < k, (x.create i).accepted = true)

theorem sentParams_clientOrderId (h : c.client = true) :
    OrderParams.clientOrderId c.sentParams = some c.clientOrderId := by
  have hset := KeyedDict.get?_set_self c.params ("clientOrderId", c.clientOrderId)
  simp only [sentParams, h, if_true, OrderParams.clientOrderId]
  rw [hset, Option.map_some]

theorem lookupSymbol_client (h : c.lookupSymbol.isSome) : c.client = true := by
  unfold lookupSymbol at h
  cases hs : c.symbol with
  | none => simp [hs] at h
  | some symbol =>
    rw [hs] at h
    by_cases hc : c.client = true
    · exact hc
    · simp [hc] at h

/-- What an order request leaves behind. -/
theorem create_log (book : OrderBook) :
    acceptedOrders (create x c book).log = if (x.create book.creates).accepted then 1 else 0 := by
  simp [create, acceptedOrders, List.countP_cons]

theorem before_create (accepted : List (Option String)) (k : ℕ) (book : OrderBook)
    (hcreates : book.creates = k)
    (hfetches : c.lookupSymbol.isSome → book.fetches = k)
    (hlisted : c.lookupSymbol.isSome → (some c.clientOrderId ∈ book.accepted ↔
      some c.clientOrderId ∈ accepted ∨ ∃ i < k, (x.create i).accepted = true)) :
    Before x c accepted (k + 1) (create x c book).state where
  creates := by simp [create, hcreates]
  fetches h := by simp [create, hfetches h]
  listed h := by
    have hid := sentParams_clientOrderId c (lookupSymbol_client c h)
    have hsucc : (∃ i < k + 1, (x.create i).accepted = true) ↔
        (∃ i < k, (x.create i).accepted = true) ∨ (x.create k).accepted = true := by
      constructor
      · rintro ⟨i, hi, hacc⟩
        rcases Nat.lt_succ_iff_lt_or_eq.mp hi with hlt | rfl
        · exact Or.inl ⟨i, hlt, hacc⟩
        · exact Or.inr hacc
      · rintro (⟨i, hi, hacc⟩ | hacc)
        · exact ⟨i, by omega, hacc⟩
        · exact ⟨k, by omega, hacc⟩
    rw [hsucc, ← or_assoc, ← hlisted h]
    simp only [create, hcreates]
    cases hacc : (x.create k).accepted with
    | false => simp
    | true => simp [hid]

/-- What the lookup of an order answers. -/
theorem existing_result (symbol : String) (book : OrderBook) :
    ((existing x c symbol book).result = match x.fetch book.fetches,
        decide (some c.clientOrderId ∈ book.accepted) with
      | .truthful raw _, true => .ok (some raw)
      | .truthful _ _, false => .ok none
      | .notFound _, _ => .ok none
      | .raises e, _ =>
        if e.kind = .orderNotFound then .ok none
        else if e.kind.isNetworkError then
          .error (.exchangeNetwork
            ("Cannot verify order " ++ c.clientOrderId ++ ": " ++ e.shortText))
        else if e.kind.isException then .ok none
        else .error (.raised e)) ∧
      acceptedOrders (existing x c symbol book).log = 0 ∧
      (existing x c symbol book).state = { book with fetches := book.fetches + 1 } := by
  unfold existing
  cases hreply : x.fetch book.fetches with
  | truthful raw missing =>
    cases hin : decide (some c.clientOrderId ∈ book.accepted) with
    | true =>
      rw [Program.handle_ok _ _ _ (some raw) (by
        simp [Program.bind_run, fetch, fetched, hreply, hin])]
      simp [Program.bind_run, fetch, fetched, hreply, hin, acceptedOrders]
    | false =>
      rw [Program.handle_error _ _ _ (.raised ⟨.orderNotFound, missing⟩) (by
        simp [Program.bind_run, fetch, fetched, hreply, hin])]
      simp [Program.bind_run, fetch, fetched, hreply, hin, acceptedOrders]
  | notFound missing =>
    rw [Program.handle_error _ _ _ (.raised ⟨.orderNotFound, missing⟩) (by
      simp [Program.bind_run, fetch, fetched, hreply])]
    simp [Program.bind_run, fetch, fetched, hreply, acceptedOrders]
  | raises e =>
    rw [Program.handle_error _ _ _ (.raised e) (by
      simp [Program.bind_run, fetch, fetched, hreply])]
    by_cases hnf : e.kind = .orderNotFound
    · simp [Program.bind_run, fetch, fetched, hreply, acceptedOrders, hnf]
    · by_cases hnet : e.kind.isNetworkError = true
      · simp [Program.bind_run, fetch, fetched, hreply, acceptedOrders, hnf, hnet]
      · by_cases hexc : e.kind.isException = true
        · simp [Program.bind_run, fetch, fetched, hreply, acceptedOrders, hnf, hnet, hexc]
        · simp [Program.bind_run, fetch, fetched, hreply, acceptedOrders, hnf, hnet, hexc]

theorem acceptedOrders_append (l l' : List OrderEvent) :
    acceptedOrders (l ++ l') = acceptedOrders l + acceptedOrders l' := List.countP_append

/-- A lookup that stops: nothing is placed, and the attempt is over. -/
theorem attempt_stops (k : ℕ) (symbol : String) (book : OrderBook) (hk : 0 < k)
    (hsymbol : c.lookupSymbol = some symbol)
    (h : FetchStops (x.fetch book.fetches) (decide (some c.clientOrderId ∈ book.accepted))) :
    acceptedOrders (attempt x c k book).log = 0 ∧
      ∀ e, (attempt x c k book).result = .error (.raised e) → e.kind ≠ .rateLimitExceeded := by
  obtain ⟨hresult, hlog, -⟩ := existing_result x c symbol book
  simp only [attempt, hsymbol, if_pos hk]
  cases hreply : x.fetch book.fetches with
  | truthful raw missing =>
    cases hin : decide (some c.clientOrderId ∈ book.accepted) with
    | true =>
      rw [hreply, hin] at hresult h
      have hknown : raw.isKnown = true := h
      rw [Program.bind_ok _ _ _ _ hresult]
      simp [hknown, hlog]
    | false =>
      rw [hreply, hin] at h
      exact absurd h (by simp [FetchStops])
  | notFound missing =>
    rw [hreply] at h
    exact absurd h (by simp [FetchStops])
  | raises e =>
    rw [hreply] at hresult h
    simp only [FetchStops, Bool.or_eq_true, Bool.not_eq_true'] at h
    have hnf : e.kind ≠ .orderNotFound := by
      intro hnf
      simp [hnf, ErrorClass.isNetworkError, ErrorClass.isException] at h
    by_cases hnet : e.kind.isNetworkError = true
    · simp only [if_neg hnf, hnet, if_true] at hresult
      rw [Program.bind_error _ _ _ _ hresult]
      exact ⟨hlog, by simp⟩
    · have hexc : e.kind.isException = false := h.resolve_left hnet
      simp only [if_neg hnf, if_neg hnet, hexc, Bool.false_eq_true, if_false] at hresult
      rw [Program.bind_error _ _ _ _ hresult]
      refine ⟨hlog, ?_⟩
      intro e' he hrate
      cases he
      rw [hrate] at hexc
      exact absurd hexc (by decide)

/-- A lookup that does not stop finds no order, or none that counts. -/
theorem existing_passes (symbol : String) (book : OrderBook)
    (h : FetchStops (x.fetch book.fetches) (decide (some c.clientOrderId ∈ book.accepted)) = false) :
    ∃ found, (existing x c symbol book).result = .ok found ∧
      ∀ raw, found = some raw → raw.isKnown = false := by
  have hresult := (existing_result x c symbol book).1
  cases hreply : x.fetch book.fetches with
  | truthful raw missing =>
    cases hin : decide (some c.clientOrderId ∈ book.accepted) with
    | true =>
      rw [hreply, hin] at hresult h
      refine ⟨some raw, hresult, ?_⟩
      intro raw' hraw
      cases hraw
      exact h
    | false =>
      rw [hreply, hin] at hresult
      exact ⟨none, hresult, by simp⟩
  | notFound missing =>
    rw [hreply] at hresult
    exact ⟨none, hresult, by simp⟩
  | raises e =>
    rw [hreply] at hresult h
    simp only [FetchStops, Bool.or_eq_false_iff, Bool.not_eq_false'] at h
    refine ⟨none, ?_, by simp⟩
    by_cases hnf : e.kind = .orderNotFound
    · simpa only [if_pos hnf] using hresult
    · simpa only [if_neg hnf, h.1, h.2, Bool.false_eq_true, if_false, if_true] using hresult

/-- A lookup that does not stop: the order is placed. -/
theorem attempt_passes (k : ℕ) (symbol : String) (book : OrderBook) (hk : 0 < k)
    (hsymbol : c.lookupSymbol = some symbol)
    (h : FetchStops (x.fetch book.fetches) (decide (some c.clientOrderId ∈ book.accepted)) = false) :
    attempt x c k book =
      { create x c { book with fetches := book.fetches + 1 } with
        log := (existing x c symbol book).log ++
          (create x c { book with fetches := book.fetches + 1 }).log } := by
  obtain ⟨found, hfound, hunknown⟩ := existing_passes x c symbol book h
  have hstate := (existing_result x c symbol book).2.2
  simp only [attempt, hsymbol, if_pos hk]
  rw [Program.bind_ok _ _ _ _ hfound, hstate]
  cases found with
  | none => rfl
  | some raw => simp [hunknown raw rfl]

/-! ### The whole call -/

/-- The requests after an attempt whose order request was made. -/
theorem attempts_placed (accepted : List (Option String)) (left k : ℕ) (last : Option ClientError)
    (book sent : OrderBook) (hk : k + left + 1 = 3) (hsent : sent.creates = k)
    (hresult : (attempt x c k book).result = (create x c sent).result)
    (hlog : acceptedOrders (attempt x c k book).log = acceptedOrders (create x c sent).log)
    (hstate : (attempt x c k book).state = (create x c sent).state)
    (hrest : ∀ last', left ≠ 0 →
      acceptedOrders (attempts x c left (k + 1) last' (create x c sent).state).log =
        if LookupStops x c accepted k then 0 else acceptedFrom x c accepted left (k + 1)) :
    acceptedOrders (attempts x c (left + 1) k last book).log =
      acceptedFrom x c accepted (left + 1) k := by
  rw [create_log, hsent] at hlog
  rw [acceptedFrom]
  have hreply : (create x c sent).result = (x.create k).reply.mapError .raised := by
    rw [← hsent]
    rfl
  rw [hreply] at hresult
  have hquiet : (x.create k).rateLimited = false →
      acceptedOrders (attempts x c (left + 1) k last book).log =
        acceptedOrders (attempt x c k book).log := by
    intro hlimited
    rw [attempts]
    cases hr : (x.create k).reply with
    | ok raw =>
      rw [hr] at hresult
      rw [Program.handle_ok _ _ _ raw hresult]
    | error e =>
      rw [hr] at hresult
      have hne : e.kind ≠ .rateLimitExceeded := by
        simpa [CreateReply.rateLimited, hr] using hlimited
      rw [Program.handle_error _ _ _ (.raised e) hresult, acceptedOrders_append]
      by_cases hfunds : e.kind = .insufficientFunds
      · simp [hfunds, acceptedOrders]
      · by_cases hnet : e.kind.isNetworkError = true
        · simp [hfunds, hne, hnet, acceptedOrders]
        · simp [hfunds, hne, hnet, acceptedOrders]
  cases hlimited : (x.create k).rateLimited with
  | false =>
    have hstop : Stops x c accepted k := Or.inl hlimited
    rw [if_pos hstop, hquiet hlimited, hlog, Nat.add_zero]
  | true =>
    have hstop : Stops x c accepted k ↔ LookupStops x c accepted k := by
      simp [Stops, hlimited]
    simp only [hstop]
    cases hr : (x.create k).reply with
    | ok raw => simp [CreateReply.rateLimited, hr] at hlimited
    | error e =>
      have hkind : e.kind = .rateLimitExceeded := by
        simpa [CreateReply.rateLimited, hr] using hlimited
      rw [hr] at hresult
      rw [attempts, Program.handle_error _ _ _ (.raised e) hresult, acceptedOrders_append, hlog]
      have hfunds : e.kind ≠ .insufficientFunds := by simp [hkind]
      simp only [if_neg hfunds, if_pos hkind]
      by_cases hlast : k = 2
      · have hleft : left = 0 := by omega
        simp [hlast, hleft, acceptedFrom, acceptedOrders]
      · have hnext := hrest (some e) (by omega)
        rw [if_neg hlast, Program.emit_bind_run, hstate]
        have hsleep : acceptedOrders (OrderEvent.sleep (1 / 2 * 2 ^ k) ::
            (attempts x c left (k + 1) (some e) (create x c sent).state).log) =
            acceptedOrders (attempts x c left (k + 1) (some e) (create x c sent).state).log := by
          simp [acceptedOrders]
        rw [hsleep, hnext]

/-- An attempt that accepts nothing and is not rate-limited is the last one. -/
theorem attempts_over (left k : ℕ) (last : Option ClientError) (book : OrderBook)
    (hnone : acceptedOrders (attempt x c k book).log = 0)
    (hnever : ∀ e, (attempt x c k book).result = .error (.raised e) →
      e.kind ≠ .rateLimitExceeded) :
    acceptedOrders (attempts x c (left + 1) k last book).log = 0 := by
  rw [attempts]
  cases hr : (attempt x c k book).result with
  | ok raw =>
    rw [Program.handle_ok _ _ _ raw hr]
    exact hnone
  | error err =>
    rw [Program.handle_error _ _ _ err hr, acceptedOrders_append, hnone, Nat.zero_add]
    cases err with
    | raised e =>
      have hne := hnever e hr
      by_cases hfunds : e.kind = .insufficientFunds
      · simp [hfunds, acceptedOrders]
      · by_cases hnet : e.kind.isNetworkError = true
        · simp [hfunds, hne, hnet, acceptedOrders]
        · simp [hfunds, hne, hnet, acceptedOrders]
    | insufficientFunds text => rfl
    | rateLimit text => rfl
    | exchangeNetwork text => rfl

/-- The attempts from `k` on accept nothing when the lookup before them stops, and
else what the requests from `k` on accept. -/
theorem attempts_accepted (accepted : List (Option String)) (left k : ℕ)
    (last : Option ClientError) (book : OrderBook) (hk : k + left = 3)
    (hbook : Before x c accepted k book) :
    acceptedOrders (attempts x c left k last book).log =
      if 0 < k ∧ LookupStops x c accepted (k - 1) then 0 else acceptedFrom x c accepted left k := by
  induction left generalizing k last book with
  | zero => simp [attempts, acceptedFrom, acceptedOrders]
  | succ left ih =>
    by_cases hlookup : 0 < k ∧ c.lookupSymbol.isSome
    · obtain ⟨hpos, hsome⟩ := hlookup
      obtain ⟨symbol, hsymbol⟩ := Option.isSome_iff_exists.mp hsome
      have hanswer : FetchStops (x.fetch book.fetches)
          (decide (some c.clientOrderId ∈ book.accepted)) = true ↔ LookupStops x c accepted (k - 1) := by
        have hlisted : some c.clientOrderId ∈ book.accepted ↔ Listed x c accepted (k - 1) := by
          rw [hbook.listed hsome, Listed, Nat.sub_add_cancel hpos]
        simp only [LookupStops, hsome, hbook.fetches hsome, hlisted, true_and]
      cases hstop : FetchStops (x.fetch book.fetches)
          (decide (some c.clientOrderId ∈ book.accepted)) with
      | true =>
        obtain ⟨hnone, hnever⟩ := attempt_stops x c k symbol book hpos hsymbol hstop
        rw [if_pos ⟨hpos, hanswer.mp hstop⟩]
        exact attempts_over x c left k last book hnone hnever
      | false =>
        have hpass : ¬ LookupStops x c accepted (k - 1) := by
          rw [← hanswer, hstop]
          simp
        rw [if_neg fun h => hpass h.2]
        have hrun := attempt_passes x c k symbol book hpos hsymbol hstop
        have hquiet := (existing_result x c symbol book).2.1
        refine attempts_placed x c accepted left k last book { book with fetches := book.fetches + 1 }
          hk hbook.creates (by rw [hrun]) ?_ (by rw [hrun]) ?_
        · rw [hrun]
          show acceptedOrders ((existing x c symbol book).log ++ _) = _
          rw [acceptedOrders_append, hquiet, Nat.zero_add]
        · intro last' _
          have hfetches := hbook.fetches hsome
          have hnext : Before x c accepted (k + 1)
              (create x c { book with fetches := book.fetches + 1 }).state :=
            before_create x c accepted k _ hbook.creates (fun _ => by simp [hfetches]; omega)
              hbook.listed
          simpa using ih (k + 1) last' _ (by omega) hnext
    · have hdirect : attempt x c k book = create x c book := by
        unfold attempt
        cases hs : c.lookupSymbol with
        | none => rfl
        | some symbol =>
          have hzero : ¬ 0 < k := fun hpos => hlookup ⟨hpos, by simp [hs]⟩
          simp only [if_neg hzero]
      have hno : ¬ (0 < k ∧ LookupStops x c accepted (k - 1)) := fun h => hlookup ⟨h.1, h.2.1⟩
      rw [if_neg hno]
      refine attempts_placed x c accepted left k last book book hk hbook.creates (by rw [hdirect])
        (by rw [hdirect]) (by rw [hdirect]) ?_
      intro last' _
      have hnext : Before x c accepted (k + 1) (create x c book).state := by
        refine before_create x c accepted k book hbook.creates ?_ hbook.listed
        intro hsome
        have hzero : k = 0 := by
          by_contra hne
          exact hlookup ⟨by omega, hsome⟩
        rw [hbook.fetches hsome, hzero]
      simpa using ih (k + 1) last' _ (by omega) hnext

/-- A call places at most one order exactly when, between any two requests that the exchange
accepts, a request is not rate-limited or a lookup stops the call. -/
theorem atMostOnce_iff (accepted : List (Option String)) :
    AtMostOnce x c accepted ↔
      ∀ i j, i < j → j < 3 → (x.create i).accepted → (x.create j).accepted →
        ∃ k < j, (x.create k).rateLimited = false ∨
          c.lookupSymbol.isSome ∧ FetchStops (x.fetch k) (decide (Listed x c accepted k)) := by
  have hstart : Before x c accepted 0 ⟨accepted, 0, 0⟩ := ⟨rfl, fun _ => rfl, fun _ => by simp⟩
  have hcount := attempts_accepted x c accepted 3 0 none ⟨accepted, 0, 0⟩ rfl hstart
  rw [if_neg (by simp)] at hcount
  rw [AtMostOnce, withOrderRetries, hcount, acceptedFrom_le_one]
  constructor
  · intro h i j hij hj hi hja
    obtain ⟨m, -, hm, hstop⟩ := h i j (Nat.zero_le i) hij hj hi hja
    exact ⟨m, hm, hstop⟩
  · intro h i j _ hij hj hi hja
    obtain ⟨m, hm, hstop⟩ := h i j hij hj hi hja
    exact ⟨m, Nat.zero_le m, hm, hstop⟩

/-- A limit order, as the adapter places it. -/
def limitOrder : OrderCall where
  client := true
  symbol := some "BTC/USD:BTC"
  params := KeyedDict.ofList [("productType", "COIN-FUTURES")]
  generated := "reverto-0123456789abcdef"

/-- The first request is accepted and rate-limited, the lookup is refused with an exchange
error, and the second request is accepted. -/
def refusedLookup : ExchangeReplies where
  create
    | 0 => ⟨true, .error ⟨.rateLimitExceeded, "Too Many Requests"⟩⟩
    | _ => ⟨true, .ok (.order "1001" (some "open"))⟩
  fetch _ := .raises ⟨.baseError, "Parameter orderId error"⟩

theorem not_atMostOnce_refusedLookup :
    ¬ ∀ (x : ExchangeReplies) (c : OrderCall) (accepted : List (Option String)),
      AtMostOnce x c accepted := by
  intro h
  have hrun := h refusedLookup limitOrder []
  revert hrun
  unfold AtMostOnce
  decide +kernel

end OrderCall

end Reverto
