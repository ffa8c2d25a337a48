import Mathlib.Tactic
import Reverto.Core.Credentials
import Reverto.Lib.Machine

/-!
# Exchange accounts (core/exchange_account_store.py, core/markets.py)

The rows of `exchange_accounts` and the credential files they name. The store's
functions are called one after the other; a call stops for good after any of its
file operations, statements and transactions when the process crashes.
-/

namespace Reverto

/-- A row of `exchange_accounts`. -/
structure ExchangeAccount where
  id : ℕ
  userId : ℕ
  exchangeType : String
  marketType : String
  aliasName : String
  credentialsUuid : String
  lastTestedAt : Option String := none
  isDefault : Bool := false
  deriving DecidableEq, Repr

namespace Markets

/-- The keys of `MARKETS`. -/
def markets : List (String × List String) :=
  [("bitget", ["spot", "coin_m", "usdt_m", "usdc_m"]), ("kraken", ["spot", "futures"])]

/-- `validate_combo` raises nothing. -/
def validateCombo (exchangeType marketType : String) : Bool :=
  match markets.lookup exchangeType with
  | none => false
  | some marketTypes => decide (marketType ∈ marketTypes)

end Markets

namespace ExchangeAccountStore

def maxAliasLen : ℕ := 64

def maxApiKeyLen : ℕ := 512

def maxApiSecretLen : ℕ := 512

def maxPassphraseLen : ℕ := 64

/-- What an `AccountValidationError` complains of. -/
inductive AccountError where
  | unknownCombo
  | aliasLength
  | apiKeyLength
  | apiSecretLength
  | passphraseLength
  | aliasExists
  | aliasCollision
  deriving DecidableEq, Repr

/-- The arguments of `create_account`. -/
structure NewAccount where
  userId : ℕ
  exchangeType : String
  marketType : String
  aliasName : String
  keys : Credentials
  isDefault : Bool := false
  deriving DecidableEq, Repr

/-- A string with a length from 1 to the maximum. -/
def sized (text : String) (maxLen : ℕ) : Bool := text ≠ "" && decide (text.length ≤ maxLen)

/-- `_validate_inputs` -/
def validateInputs (a : NewAccount) : Option AccountError :=
  if Markets.validateCombo a.exchangeType a.marketType = false then some .unknownCombo
  else if sized a.aliasName maxAliasLen = false then some .aliasLength
  else if sized a.keys.apiKey maxApiKeyLen = false then some .apiKeyLength
  else if sized a.keys.apiSecret maxApiSecretLen = false then some .apiSecretLength
  else if maxPassphraseLen < a.keys.passphrase.length then some .passphraseLength
  else none

/-- The table; `id` is its primary key. -/
abbrev Accounts := KeyedDict ExchangeAccount.id

/-- What the UNIQUE constraint compares. -/
def SameAlias (a b : ExchangeAccount) : Prop :=
  a.userId = b.userId ∧ a.exchangeType = b.exchangeType ∧ a.marketType = b.marketType ∧
    a.aliasName = b.aliasName

instance (a b : ExchangeAccount) : Decidable (SameAlias a b) :=
  inferInstanceAs (Decidable (_ ∧ _ ∧ _ ∧ _))

/-- The row `create_account` inserts. -/
def NewAccount.row (a : NewAccount) (id : ℕ) (credentialsUuid : String) : ExchangeAccount where
  id := id
  userId := a.userId
  exchangeType := a.exchangeType
  marketType := a.marketType
  aliasName := a.aliasName
  credentialsUuid := credentialsUuid
  isDefault := a.isDefault

/-- `UPDATE … SET is_default = 0 WHERE user_id = ? AND exchange_type = ? AND id != ?` -/
def unsetOthers (userId : ℕ) (exchangeType : String) (id : ℕ) (rows : Accounts) : Accounts :=
  rows.mapValues
    (fun a =>
      if a.userId = userId ∧ a.exchangeType = exchangeType ∧ a.id ≠ id then
        { a with isDefault := false }
      else a)
    (fun a => by split <;> rfl)

/-- `UPDATE … SET is_default = ? WHERE id = ?` -/
def setDefaultFlag (id : ℕ) (isDefault : Bool) (rows : Accounts) : Accounts :=
  rows.modify id (fun a => { a with isDefault := isDefault }) fun _ => rfl

/-- The transaction of `create_account`; `none` where the INSERT is refused. -/
def insertAccount (a : NewAccount) (id : ℕ) (credentialsUuid : String) (refused : Bool)
    (rows : Accounts) : Option Accounts :=
  if refused ∨ ∃ b ∈ rows.items, SameAlias b (a.row id credentialsUuid) then none
  else
    let rows := rows.set (a.row id credentialsUuid)
    some (if a.isDefault then unsetOthers a.userId a.exchangeType id rows else rows)

/-- The columns `update_account` sets, `is_default` apart. -/
structure AccountEdit where
  aliasName : Option String := none
  lastTestedAt : Option String := none
  deriving DecidableEq, Repr

/-- A row after the edit. -/
def AccountEdit.apply (e : AccountEdit) (a : ExchangeAccount) : ExchangeAccount :=
  { a with
    aliasName := e.aliasName.getD a.aliasName
    lastTestedAt := e.lastTestedAt <|> a.lastTestedAt }

/-- `not sets` -/
def AccountEdit.isEmpty (e : AccountEdit) : Bool := e.aliasName.isNone && e.lastTestedAt.isNone

/-- `UPDATE … SET … WHERE id = ?`; `none` where the constraint refuses it. -/
def writeColumns (id : ℕ) (e : AccountEdit) (refused : Bool) (rows : Accounts) :
    Option Accounts :=
  if e.isEmpty then some rows
  else if refused ∨ ∃ a ∈ rows.items, a.id = id ∧ ∃ b ∈ rows.items, b.id ≠ id ∧
      SameAlias b (e.apply a) then none
  else some (rows.modify id e.apply fun _ => rfl)

/-- The transaction of `update_account`. -/
def updateRows (id userId : ℕ) (exchangeType : String) (e : AccountEdit) (isDefault : Option Bool)
    (refused : Bool) (rows : Accounts) : Option Accounts :=
  (writeColumns id e refused rows).map fun rows =>
    match isDefault with
    | some true => setDefaultFlag id true (unsetOthers userId exchangeType id rows)
    | some false => setDefaultFlag id false rows
    | none => rows

/-! ### Calls -/

/-- A call of the store; `set_default` is an update of the flag alone. -/
inductive AccountRequest where
  | create (a : NewAccount) (credentialsUuid : String)
  | update (id : ℕ) (e : AccountEdit) (isDefault : Option Bool)
  | delete (id : ℕ)
  deriving DecidableEq

/-- `set_default` -/
def AccountRequest.setDefault (id : ℕ) : AccountRequest := .update id {} (some true)

/-- What a call returns or raises. -/
inductive AccountAnswer where
  | created (id : ℕ)
  | returned (changed : Bool)
  | raised (e : AccountError)
  deriving DecidableEq, Repr

/-- The next step of the call in progress. -/
inductive AccountCall (K T : Type) where
  | idle
  | saveKey (a : NewAccount) (credentialsUuid : String)
  | saveTmp (a : NewAccount) (credentialsUuid : String) (key : K)
  | saveReplace (a : NewAccount) (credentialsUuid : String)
  | insert (a : NewAccount) (credentialsUuid : String)
  | cleanUp (a : NewAccount) (credentialsUuid : String)
  | updateRow (id userId : ℕ) (exchangeType : String) (e : AccountEdit) (isDefault : Option Bool)
  | deleteRow (id userId : ℕ) (credentialsUuid : String)
  | deleteBlob (userId : ℕ) (credentialsUuid : String)

/-- The table with its last id, the files of each user, the call in progress, the
answer of the last one, and the keys each account was created with. -/
structure AccountStore (K T : Type) where
  accounts : Accounts := KeyedDict.empty
  lastId : ℕ := 0
  disks : ℕ → Disk K T := fun _ => {}
  call : AccountCall K T := .idle
  answer : Option AccountAnswer := none
  created : List (ℕ × Credentials) := []

/-- A call begins, the call in progress makes its next step, or the process crashes.
What a step generates, and whether the database refuses a write for another
reason than the rows of the model, is in the label. -/
inductive AccountStep (K S : Type) where
  | begin (r : AccountRequest)
  | advance (generated : K) (seed : S) (now : Instant) (refused : Bool)
  | crash

namespace AccountStore

variable {K S T : Type} (fernet : AuthCipher K S Plaintext T)

/-- The call ends. -/
def finish (s : AccountStore K T) (answer : AccountAnswer) : AccountStore K T :=
  { s with call := .idle, answer := some answer }

/-- The files of one user change. -/
def setDisk (s : AccountStore K T) (userId : ℕ) (d : Disk K T) : AccountStore K T :=
  { s with disks := Function.update s.disks userId d }

/-- The checks and the SELECT at the start of a call. -/
def begin (s : AccountStore K T) : AccountRequest → AccountStore K T
  | .create a credentialsUuid =>
    match validateInputs a with
    | some e => s.finish (.raised e)
    | none =>
      if ∃ b ∈ s.accounts.items, SameAlias b (a.row 0 credentialsUuid) then
        s.finish (.raised .aliasExists)
      else { s with call := .saveKey a credentialsUuid }
  | .update id e isDefault =>
    match s.accounts.get? id with
    | none => s.finish (.returned false)
    | some a =>
      if e.aliasName.all (fun name => sized name maxAliasLen) = false then
        s.finish (.raised .aliasLength)
      else if e.isEmpty && isDefault.isNone then s.finish (.returned false)
      else { s with call := .updateRow id a.userId a.exchangeType e isDefault }
  | .delete id =>
    match s.accounts.get? id with
    | none => s.finish (.returned false)
    | some a => { s with call := .deleteRow id a.userId a.credentialsUuid }

/-- The next step of a call. -/
def advance (s : AccountStore K T) (generated : K) (seed : S) (now : Instant) (refused : Bool) :
    Option (AccountStore K T) :=
  match s.call with
  | .idle => none
  | .saveKey a credentialsUuid =>
    let (key, d) :=
      FernetCredentialProvider.loadOrCreateUserKey generated now (s.disks a.userId)
    some { s.setDisk a.userId d with call := .saveTmp a credentialsUuid key }
  | .saveTmp a credentialsUuid key =>
    let blob := fernet.encrypt key seed a.keys.saved
    let d := FernetCredentialProvider.RotationStep.apply (s.disks a.userId)
      (.writeTmp credentialsUuid blob)
    some { s.setDisk a.userId d with call := .saveReplace a credentialsUuid }
  | .saveReplace a credentialsUuid =>
    let d := FernetCredentialProvider.RotationStep.apply (s.disks a.userId)
      (.replaceEnc credentialsUuid)
    some { s.setDisk a.userId d with call := .insert a credentialsUuid }
  | .insert a credentialsUuid =>
    let id := s.lastId + 1
    match insertAccount a id credentialsUuid refused s.accounts with
    | none => some { s with call := .cleanUp a credentialsUuid }
    | some rows =>
      some (finish
        { s with accounts := rows, lastId := id, created := s.created ++ [(id, a.keys)] }
        (.created id))
  | .cleanUp a credentialsUuid =>
    let d := (FernetCredentialProvider.deleteKeysByUuid credentialsUuid (s.disks a.userId)).2
    some ((s.setDisk a.userId d).finish (.raised .aliasExists))
  | .updateRow id userId exchangeType e isDefault =>
    match updateRows id userId exchangeType e isDefault refused s.accounts with
    | none => some (s.finish (.raised .aliasCollision))
    | some rows => some (finish { s with accounts := rows } (.returned true))
  | .deleteRow id userId credentialsUuid =>
    some { s with accounts := s.accounts.pop id, call := .deleteBlob userId credentialsUuid }
  | .deleteBlob userId credentialsUuid =>
    let d := (FernetCredentialProvider.deleteKeysByUuid credentialsUuid (s.disks userId)).2
    some ((s.setDisk userId d).finish (.returned true))

/-- One step of the store, if it is enabled. -/
def step (s : AccountStore K T) : AccountStep K S → Option (AccountStore K T)
  | .begin r =>
    match s.call with
    | .idle => some (s.begin r)
    | _ => none
  | .advance generated seed now refused => s.advance fernet generated seed now refused
  | .crash => some { s with call := .idle, answer := none }

/-- `uuid4` returned a uuid that no row names. -/
def FreshUuid (s : AccountStore K T) : AccountStep K S → Prop
  | .begin (.create _ credentialsUuid) =>
    ∀ a ∈ s.accounts.items, a.credentialsUuid ≠ credentialsUuid
  | _ => True

/-- `get_default_account` -/
def defaults (s : AccountStore K T) (userId : ℕ) (exchangeType : String) : List ExchangeAccount :=
  s.accounts.items.filter fun a =>
    decide (a.userId = userId ∧ a.exchangeType = exchangeType ∧ a.isDefault = true)

/-- Every row names a blob of its own that opens to the keys its account was created
with, and a bucket has at most one default. -/
structure Sound (s : AccountStore K T) : Prop where
  blobs : ∀ a ∈ s.accounts.items, ∃ p, (∀ q, (a.id, q) ∈ s.created ↔ q = p) ∧
    ∀ (generated : K) (now : Instant),
      (FernetCredentialProvider.getKeysByUuid fernet generated now a.credentialsUuid
        (s.disks a.userId)).1 = some p
  uuids : (s.accounts.items.map ExchangeAccount.credentialsUuid).Nodup
  oneDefault : ∀ userId exchangeType, (s.defaults userId exchangeType).length ≤ 1

end AccountStore

end ExchangeAccountStore

end Reverto
