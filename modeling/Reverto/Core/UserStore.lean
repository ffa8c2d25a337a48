import Mathlib.Tactic
import Reverto.Lib.SlidingWindow
import Reverto.Paper.PaperState

/-!
# One account of the users table (core/user.py, core/user_store.py)

The table is seen from one row, the account the requests are about; a lookup of
another id finds nothing. `bcrypt` is the parameter `Bcrypt`. The timing equalisers
of `verify_password` and the parsing of the stored ISO timestamp are left out.
-/

namespace Reverto

/-- `FAILED_LOGIN_WINDOW_S` -/
def FAILED_LOGIN_WINDOW_S : ℤ := 900

/-- `PER_ACCOUNT_FAIL_LIMIT` -/
def PER_ACCOUNT_FAIL_LIMIT : ℕ := 10

/-- `PASSWORD_MIN_LENGTH` -/
def PASSWORD_MIN_LENGTH : ℕ := 12

/-- A second of an `Instant`. -/
def second : ℤ := 1000000

/-- The window as a length of time. -/
def failedLoginWindow : ℤ := FAILED_LOGIN_WINDOW_S * second

/-- The calls of the `bcrypt` package. -/
structure Bcrypt where
  /-- `hashpw(plaintext, gensalt())` with the salt drawn -/
  hashpw : String → String → String
  /-- `checkpw(plaintext, stored)`; `none` where it raises `ValueError` -/
  checkpw : String → String → Option Bool

/-- A row of `users`, less the columns the requests do not read. -/
structure UserRow where
  id : ℕ
  username : String
  active : Bool
  passwordHash : Option String
  sessionEpoch : ℕ
  totpSeedEncrypted : Option String
  failedLoginCount : ℕ
  lastFailedLoginAt : Option Instant
  deriving DecidableEq

/-- `User`, as the requests read it. -/
structure User where
  id : ℕ
  username : String
  active : Bool
  totpSeedEncrypted : Option String
  deriving DecidableEq

/-- `User.totp_enabled` -/
def User.totpEnabled (u : User) : Bool := u.totpSeedEncrypted.isSome

namespace UserRow

variable (row : UserRow)

/-- `_row_to_user` -/
def toUser : User := ⟨row.id, row.username, row.active, row.totpSeedEncrypted⟩

/-- `get_user_by_id` -/
def getUserById (userId : ℕ) : Option User := if userId = row.id then some row.toUser else none

/-- `get_user_by_username` -/
def getUserByUsername (username : String) : Option User :=
  if username = row.username then some row.toUser else none

/-- `verify_password` -/
def verifyPassword (bcrypt : Bcrypt) (username plaintext : String) : Option User :=
  match row.getUserByUsername username with
  | none => none
  | some user =>
    if user.active then
      match row.passwordHash with
      | none => none
      | some stored =>
        if stored = "" then none
        else if bcrypt.checkpw plaintext stored = some true then some user
        else none
    else none

/-- `set_password` with the salt drawn; the flag says whether the row was found. -/
def setPassword (bcrypt : Bcrypt) (userId : ℕ) (plaintext salt : String) : UserRow × Bool :=
  if userId = row.id then ({ row with passwordHash := some (bcrypt.hashpw plaintext salt) }, true)
  else (row, false)

/-- `update_user_totp_seed` -/
def updateUserTotpSeed (userId : ℕ) (encryptedSeed : Option String) : UserRow × Bool :=
  if userId = row.id then ({ row with totpSeedEncrypted := encryptedSeed }, true)
  else (row, false)

/-- `bump_session_epoch` -/
def bumpSessionEpoch (userId : ℕ) : UserRow :=
  if userId = row.id then { row with sessionEpoch := row.sessionEpoch + 1 } else row

/-- `get_session_epoch` -/
def getSessionEpoch (userId : ℕ) : ℕ := if userId = row.id then row.sessionEpoch else 0

/-- `increment_failed_login` -/
def incrementFailedLogin (userId : ℕ) (now : Instant) : UserRow :=
  if userId = row.id then
    { row with
      failedLoginCount := match row.lastFailedLoginAt with
        | none => 1
        | some priorLast =>
          if failedLoginWindow < now - priorLast then 1 else row.failedLoginCount + 1
      lastFailedLoginAt := some now }
  else row

/-- `reset_failed_login` -/
def resetFailedLogin (userId : ℕ) : UserRow :=
  if userId = row.id then { row with failedLoginCount := 0, lastFailedLoginAt := none } else row

/-- `check_login_rate_limit`: the seconds to wait when the account is limited. -/
def checkLoginRateLimit (userId : ℕ) (now : Instant) : Option ℤ :=
  if userId = row.id then
    if row.failedLoginCount < PER_ACCOUNT_FAIL_LIMIT then none
    else
      match row.lastFailedLoginAt with
      | none => none
      | some lastAt =>
        if failedLoginWindow ≤ now - lastAt then none
        else some ((failedLoginWindow - (now - lastAt)) / second)
  else none

/-! ### The columns an update leaves alone -/

@[simp] theorem id_setPassword (bcrypt : Bcrypt) (userId : ℕ) (plaintext salt : String) :
    (row.setPassword bcrypt userId plaintext salt).1.id = row.id := by
  unfold setPassword
  split <;> rfl

@[simp] theorem id_updateUserTotpSeed (userId : ℕ) (seed : Option String) :
    (row.updateUserTotpSeed userId seed).1.id = row.id := by
  unfold updateUserTotpSeed
  split <;> rfl

@[simp] theorem id_bumpSessionEpoch (userId : ℕ) : (row.bumpSessionEpoch userId).id = row.id := by
  unfold bumpSessionEpoch
  split <;> rfl

/-- The user a lookup finds is the account's. -/
theorem getUserById_some (userId : ℕ) (user : User) (h : row.getUserById userId = some user) :
    user = row.toUser := by
  unfold getUserById at h
  split at h
  · exact (Option.some.inj h).symm
  · cases h

theorem verifyPassword_some (bcrypt : Bcrypt) (username plaintext : String) (user : User)
    (h : row.verifyPassword bcrypt username plaintext = some user) : user = row.toUser := by
  unfold verifyPassword at h
  cases hfound : row.getUserByUsername username with
  | none => simp [hfound] at h
  | some found =>
    have hrow : found = row.toUser := by
      unfold getUserByUsername at hfound
      split at hfound
      · exact (Option.some.inj hfound).symm
      · cases hfound
    simp only [hfound] at h
    split at h
    · split at h
      · cases h
      · split at h
        · cases h
        · split at h
          · rw [← hrow]
            exact (Option.some.inj h).symm
          · cases h
    · cases h

/-! ### The failure counter -/

/-- The failure columns as a counter. -/
def failures : SlidingWindow.Counter Instant := ⟨row.failedLoginCount, row.lastFailedLoginAt⟩

theorem failures_increment (now : Instant) :
    (row.incrementFailedLogin row.id now).failures = row.failures.record failedLoginWindow now := by
  simp only [incrementFailedLogin, if_true, failures, SlidingWindow.Counter.record]
  cases row.lastFailedLoginAt with
  | none => rfl
  | some priorLast => rfl

/-- The gate lets a request through while the recent failures are below the limit. -/
theorem checkLoginRateLimit_iff (now : Instant) :
    row.checkLoginRateLimit row.id now = none ↔
      row.failures.recent failedLoginWindow now < PER_ACCOUNT_FAIL_LIMIT := by
  have hpos : 0 < PER_ACCOUNT_FAIL_LIMIT := by decide
  simp only [checkLoginRateLimit, if_true, failures, SlidingWindow.Counter.recent]
  cases row.lastFailedLoginAt with
  | none => simp [hpos]
  | some lastAt =>
    by_cases hcount : row.failedLoginCount < PER_ACCOUNT_FAIL_LIMIT
    · simp only [if_pos hcount, true_iff]
      split
      · exact hpos
      · exact hcount
    · by_cases hold : failedLoginWindow ≤ now - lastAt
      · simp [hcount, hold, hpos]
      · simp [hcount, hold]

end UserRow

end Reverto
