import Mathlib.Tactic
import Reverto.Lib.KeyedDict
import Reverto.Lib.Machine
import Reverto.Paper.PaperState

/-!
# Telegram chats and link tokens (core/telegram_config_store.py)

The calls that mint, consume and clean up link tokens, interleaved at their SQL
statements and transactions. `consume_link_token` reads the token's row first and
binds the chat in a transaction of its own.
-/

namespace Reverto

/-- A row of `telegram_link_tokens`. -/
structure LinkToken where
  token : String
  userId : ℕ
  createdAt : Instant
  expiresAt : Instant
  usedAt : Option Instant := none
  deriving DecidableEq, Repr

/-- A row of `telegram_configs`. -/
structure TelegramConfig where
  userId : ℕ
  chatId : String
  notifyOn : List String
  connectedAt : Instant
  deriving DecidableEq, Repr

namespace TelegramConfigStore

/-- `DEFAULT_NOTIFY_ON` -/
def defaultNotifyOn : List String :=
  ["startup", "stop", "restart", "error", "liquidation_warn", "entry", "dca_trigger", "tp_hit",
    "sl_hit", "schedule_open"]

/-- `_LINK_TOKEN_TTL`, one hour. -/
def linkTokenTtl : ℤ := 3600 * 1000000

/-- `datetime(…)`: SQLite keeps milliseconds and compares whole seconds. -/
def datetime (t : Instant) : ℤ := (t + 500) / 1000000

/-- A call of `consume_link_token` between its SELECT and its transaction. -/
structure Consumer where
  thread : ℕ
  token : String
  userId : ℕ
  chatId : String
  now : Instant
  deriving DecidableEq, Repr

/-- What the calls have done: a token was minted, or consumed with success. -/
inductive LinkEvent where
  | minted (token : String) (userId : ℕ) (now : Instant)
  | consumed (token : String) (userId : ℕ) (chatId : String) (now : Instant)
  deriving DecidableEq, Repr

/-- The token an event mints for a user, and when. -/
def LinkEvent.mintFor (userId : ℕ) : LinkEvent → Option (String × Instant)
  | .minted token u now => if u = userId then some (token, now) else none
  | .consumed .. => none

/-- The token an event mints. -/
def LinkEvent.mints : LinkEvent → Option String
  | .minted token _ _ => some token
  | .consumed .. => none

/-- The token an event consumes. -/
def LinkEvent.consumes : LinkEvent → Option String
  | .minted .. => none
  | .consumed token _ _ _ => some token

/-- The tables, the calls that have read a row, the clock and what was done. -/
structure TelegramStore where
  tokens : KeyedDict LinkToken.token := KeyedDict.empty
  configs : KeyedDict TelegramConfig.userId := KeyedDict.empty
  consumers : KeyedDict Consumer.thread := KeyedDict.empty
  clock : Instant := 0
  log : List LinkEvent := []

/-- A statement or a transaction of a call, with the clock reading. -/
inductive LinkStep where
  | mint (token : String) (userId : ℕ) (now : Instant)
  | lookUp (thread : ℕ) (token chatId : String) (now : Instant)
  | bind (thread : ℕ) (now : Instant)
  | cleanUp (now : Instant)
  deriving DecidableEq, Repr

namespace TelegramStore

/-- The transaction of `create_link_token`. -/
def mint (s : TelegramStore) (token : String) (userId : ℕ) (now : Instant) : TelegramStore :=
  { s with
    tokens :=
      (s.tokens.filter fun r => !decide (r.userId = userId ∧ r.usedAt = none)).set
        ⟨token, userId, now, now + linkTokenTtl, none⟩
    log := s.log ++ [.minted token userId now] }

/-- The SELECT of `consume_link_token` and the checks of the row. -/
def lookUp (s : TelegramStore) (thread : ℕ) (token chatId : String) (now : Instant) :
    TelegramStore :=
  match s.tokens.get? token with
  | none => s
  | some row =>
    if row.usedAt ≠ none then s
    else if row.expiresAt ≤ now then s
    else { s with consumers := s.consumers.set ⟨thread, token, row.userId, chatId, now⟩ }

/-- The transaction of `consume_link_token`. -/
def bindChat (s : TelegramStore) (c : Consumer) (now : Instant) : TelegramStore :=
  let notifyOn :=
    match s.configs.get? c.userId with
    | some existing => existing.notifyOn
    | none => defaultNotifyOn
  { s with
    tokens := s.tokens.modify c.token (fun r => { r with usedAt := some c.now }) fun _ => rfl
    configs := s.configs.set ⟨c.userId, c.chatId, notifyOn, c.now⟩
    consumers := s.consumers.pop c.thread
    log := s.log ++ [.consumed c.token c.userId c.chatId now] }

/-- `cleanup_expired_tokens` -/
def cleanUp (s : TelegramStore) (now : Instant) : TelegramStore :=
  { s with tokens := s.tokens.filter fun r => !decide (datetime r.expiresAt < datetime now) }

/-- The clock is read. -/
def tickTo (s : TelegramStore) (now : Instant) : TelegramStore := { s with clock := now }

/-- One step of the calls, if it is enabled; `secrets.token_hex` returns no token
twice, and the clock does not go back. -/
def step (s : TelegramStore) : LinkStep → Option TelegramStore
  | .mint token userId now =>
    if s.clock ≤ now ∧ token ∉ s.log.filterMap LinkEvent.mints then
      some ((s.tickTo now).mint token userId now)
    else none
  | .lookUp thread token chatId now =>
    if s.clock ≤ now ∧ s.consumers.get? thread = none then
      some ((s.tickTo now).lookUp thread token chatId now)
    else none
  | .bind thread now =>
    match s.consumers.get? thread with
    | none => none
    | some c => if s.clock ≤ now then some ((s.tickTo now).bindChat c now) else none
  | .cleanUp now => if s.clock ≤ now then some ((s.tickTo now).cleanUp now) else none

/-! ### What the claim asks of a run -/

/-- The token minted last for a user, and when. -/
def newest (log : List LinkEvent) (userId : ℕ) : Option (String × Instant) :=
  (log.filterMap (LinkEvent.mintFor userId)).getLast?

/-- A token may be consumed for a user: it is the newest of that user, has not
expired and was not consumed before. -/
def Consumable (log : List LinkEvent) (token : String) (userId : ℕ) (now : Instant) : Prop :=
  ∃ mintedAt, newest log userId = some (token, mintedAt) ∧ now < mintedAt + linkTokenTtl ∧
    token ∉ log.filterMap LinkEvent.consumes

/-- Every token that was consumed could be. -/
def SingleUse (log : List LinkEvent) : Prop :=
  ∀ before token userId chatId now after,
    log = before ++ .consumed token userId chatId now :: after → Consumable before token userId now

/-- A consume changes one configuration, of the user the token was minted for, and
keeps the events that user is notified of; the other steps change none. -/
def ConfigsKept (s t : TelegramStore) : LinkStep → Prop
  | .bind thread _ => ∀ c, s.consumers.get? thread = some c →
      (∃ mintedAt, .minted c.token c.userId mintedAt ∈ s.log) ∧
      (∀ userId, userId ≠ c.userId → t.configs.get? userId = s.configs.get? userId) ∧
      ∃ config, t.configs.get? c.userId = some config ∧ config.chatId = c.chatId ∧
        ∀ existing, s.configs.get? c.userId = some existing → config.notifyOn = existing.notifyOn
  | _ => t.configs = s.configs

/-- When a consume binds its chat, the token it read is still there, unused and
unexpired. -/
def StillValid (s : TelegramStore) : LinkStep → Prop
  | .bind thread now => ∀ c, s.consumers.get? thread = some c →
      ∃ row, s.tokens.get? c.token = some row ∧ row.usedAt = none ∧ now < row.expiresAt
  | _ => True

end TelegramStore

end TelegramConfigStore

end Reverto
