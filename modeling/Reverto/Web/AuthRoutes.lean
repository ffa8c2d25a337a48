import Mathlib.Tactic
import Reverto.Core.UserStore
import Reverto.Lib.Program

/-!
# The auth endpoints (web/routes/auth.py, web/app.py, core/totp.py)

The requests of one account. A handler runs up to its next `await` in one step: a
request that needs a user waits for its body after `_request_user` has resolved it in
a worker thread, `auth_change_password` waits for the breach service, and
`auth_totp_disable` sleeps before it counts a wrong password. The signed cookies
(`itsdangerous`), `pyotp`, `bcrypt` and the account's Fernet key are the parameter
`AuthEnv`. The audit log, the backoff sleep of `auth_login`, its branch for unknown
usernames and the request limiter are left out.
-/

namespace Reverto

/-- A status code, the `detail` and the `Retry-After` header of a refused request. -/
structure HttpError where
  status : ℕ
  detail : String
  retryAfter : Option ℤ := none
  deriving DecidableEq

/-- A `URLSafeTimedSerializer`: what it loads from a text it signed is what was signed. -/
structure TimedSerializer (α T : Type) where
  dumps : α → ℤ → T
  loads : T → ℤ → ℤ → Option α
  loads_dumps : ∀ x signedAt maxAge now y, loads (dumps x signedAt) maxAge now = some y → y = x

/-- The payload of `_create_session_cookie`. -/
structure SessionPayload where
  uid : ℕ
  iat : ℤ
  ep : ℕ
  deriving DecidableEq

/-- The payload of `_set_pending_totp_cookie`. -/
structure PendingTotp where
  secret : String
  uid : ℕ
  iat : ℤ
  deriving DecidableEq

/-- The payload of `_set_pending_login_totp_cookie`. -/
structure PendingLogin where
  uid : ℕ
  iat : ℤ
  deriving DecidableEq

/-- What the handlers call outside the repository, and the portal's API key. -/
structure AuthEnv (T : Type) where
  bcrypt : Bcrypt
  /-- `str.isdigit` -/
  isdigit : String → Bool
  /-- `pyotp.TOTP(secret, ..).verify(code, valid_window=1)` at a time -/
  totpVerify : String → String → Instant → Bool
  /-- `encrypt_for_user` with the nonce drawn -/
  encryptForUser : ℕ → String → String → String
  /-- `decrypt_for_user`; `none` where it raises -/
  decryptForUser : ℕ → String → Option String
  apiKey : String
  session : TimedSerializer SessionPayload T
  pendingTotp : TimedSerializer PendingTotp T
  pendingLogin : TimedSerializer PendingLogin T

/-- The body of a request that depends on `_request_user`; the secret of
`auth_totp_setup` is the one it draws. -/
inductive UserRequest (T : Type) where
  | changePassword (currentPassword newPassword : String)
  | totpSetup (secret : String)
  | totpVerify (pending : Option T) (code : String)
  | totpDisable (currentPassword totpCode : String)
  deriving DecidableEq

/-- A request at an `await`. -/
inductive AuthTask (T : Type) where
  | handler (user : User) (request : UserRequest T)
  | breachCheck (user : User) (newPassword : String)
  | damping (user : User) (wake : Instant)
  deriving DecidableEq

/-- What a request does that the account's history tells: factor checks, cookies
signed, epoch bumps and seeds stored. A session cookie is recorded with the pending
cookie it was given for. -/
inductive AuthEvent (T : Type) where
  | passwordChecked (ok : Bool) (now : Instant)
  | totpChecked (ok : Bool) (now : Instant)
  | loginStaged (token : T)
  | sessionMinted (token : T) (ep : ℕ) (pending : Option T)
  | enrolmentStaged (token : T) (secret : String)
  | epochBumped
  | seedCommitted (secret : String)
  deriving DecidableEq

/-- The account's row, the clock and the requests at an `await`. -/
structure AuthState (T : Type) where
  row : UserRow
  clock : Instant
  tasks : List (AuthTask T)
  deriving DecidableEq

/-- A handler of the portal. -/
abbrev AuthM (T : Type) := Program HttpError (AuthEvent T) (AuthState T)

/-- `_SESSION_TTL` -/
def SESSION_TTL : ℤ := 86400

/-- `_PENDING_TOTP_TTL` -/
def PENDING_TOTP_TTL : ℤ := 600

/-- `_PENDING_LOGIN_TOTP_TTL` -/
def PENDING_LOGIN_TOTP_TTL : ℤ := 120

/-- `DIGITS` of core/totp.py -/
def DIGITS : ℕ := 6

/-- `int(time.time())` -/
def unixTime (now : Instant) : ℤ := now / second

/-- `_round_retry_after_to_minute` -/
def roundRetryAfterToMinute (seconds : ℤ) : ℤ :=
  if seconds ≤ 0 then 0 else (seconds + 59) / 60 * 60

/-- `_rate_limit_detail` -/
def rateLimitDetail (retryAfterS : ℤ) : String :=
  let minutes := retryAfterS / 60
  let seconds := retryAfterS % 60
  let wait :=
    if minutes ≠ 0 ∧ seconds ≠ 0 then
      toString minutes ++ " minutes and " ++ toString seconds ++ " seconds"
    else if minutes ≠ 0 then toString minutes ++ " minutes"
    else toString seconds ++ " seconds"
  "Too many failed login attempts. Please try again in " ++ wait ++ "."

/-- The 429 of both login steps. -/
def tooManyAttempts (retryAfter : ℤ) : HttpError :=
  let rounded := roundRetryAfterToMinute retryAfter
  ⟨429, rateLimitDetail rounded, some rounded⟩

namespace AuthState

variable {T : Type}

/-- Write the account's row. -/
def onRow (f : UserRow → UserRow) (s : AuthState T) : AuthState T := { s with row := f s.row }

/-- A request reaches an `await`. -/
def await (task : AuthTask T) (s : AuthState T) : AuthState T :=
  { s with tasks := s.tasks ++ [task] }

/-- The `i`-th waiting request goes on. -/
def wakeUp (i : ℕ) (s : AuthState T) : AuthState T := { s with tasks := s.tasks.eraseIdx i }

end AuthState

namespace AuthRoutes

variable {T : Type} (env : AuthEnv T)

/-! ### Cookies -/

/-- `_verify_session_cookie` -/
def verifySessionCookie (s : AuthState T) (token : Option T) : Option SessionPayload :=
  match token with
  | none => none
  | some token =>
    match env.session.loads token SESSION_TTL (unixTime s.clock) with
    | none => none
    | some data =>
      if data.uid = 0 then none
      else if data.ep ≠ s.row.getSessionEpoch data.uid then none
      else some data

/-- `_read_pending_totp_cookie` -/
def readPendingTotpCookie (s : AuthState T) (token : Option T) (expectedUserId : ℕ) :
    Option String :=
  match token with
  | none => none
  | some token =>
    match env.pendingTotp.loads token PENDING_TOTP_TTL (unixTime s.clock) with
    | none => none
    | some data =>
      if data.uid ≠ expectedUserId then none
      else if data.secret = "" then none
      else some data.secret

/-- `_read_pending_login_totp_cookie` -/
def readPendingLoginTotpCookie (s : AuthState T) (token : Option T) : Option ℕ :=
  match token with
  | none => none
  | some token =>
    match env.pendingLogin.loads token PENDING_LOGIN_TOTP_TTL (unixTime s.clock) with
    | none => none
    | some data => if data.uid = 0 then none else some data.uid

/-- `_request_user`; `AuthMiddleware` lets the same requests through. -/
def requestUser (s : AuthState T) (session : Option T) (apiKey : Option String) :
    Except HttpError User :=
  match verifySessionCookie env s session with
  | none =>
    if apiKey = some env.apiKey ∧ env.apiKey ≠ "" then
      match s.row.getUserById 1 with
      | none => .error ⟨401, "Not authenticated", none⟩
      | some admin => if admin.active then .ok admin else .error ⟨401, "Not authenticated", none⟩
    else .error ⟨401, "Not authenticated", none⟩
  | some payload =>
    match s.row.getUserById payload.uid with
    | none => .error ⟨401, "User not found", none⟩
    | some user => if user.active then .ok user else .error ⟨401, "User not found", none⟩

/-! ### Factors -/

/-- `verify_code` of core/totp.py -/
def verifyCode (secret code : String) (now : Instant) : Bool :=
  if secret = "" ∨ code = "" then false
  else if env.isdigit code = false ∨ code.length ≠ DIGITS then false
  else env.totpVerify secret code now

/-- A call of `verify_password` and the check it is in the account's history. -/
def checkPassword (username plaintext : String) : AuthM T (Option User) := do
  let s ← Program.get
  let user := s.row.verifyPassword env.bcrypt username plaintext
  Program.emit (.passwordChecked user.isSome s.clock)
  pure user

/-- A call of `verify_code` on the account's own seed. -/
def checkCode (secret code : String) : AuthM T Bool := do
  let s ← Program.get
  let ok := verifyCode env secret code s.clock
  Program.emit (.totpChecked ok s.clock)
  pure ok

/-- `increment_failed_login` now. -/
def countFailure (userId : ℕ) : AuthM T Unit :=
  Program.modify fun s => s.onRow fun row => row.incrementFailedLogin userId s.clock

/-- `bump_session_epoch` -/
def bumpEpoch (userId : ℕ) : AuthM T Unit := do
  let s ← Program.get
  if userId = s.row.id then
    Program.modify (AuthState.onRow fun row => row.bumpSessionEpoch userId)
    Program.emit .epochBumped
  else pure ()

/-! ### Login and logout -/

/-- `_mint_session_response` -/
def mintSessionResponse (user : User) (pending : Option T) : AuthM T Unit := do
  let s ← Program.get
  let ep := s.row.getSessionEpoch user.id
  let now := unixTime s.clock
  Program.emit (.sessionMinted (env.session.dumps ⟨user.id, now, ep⟩ now) ep pending)

/-- `auth_login` with the account's username. -/
def authLogin (password : String) : AuthM T Unit := do
  let s ← Program.get
  match s.row.checkLoginRateLimit s.row.id s.clock with
  | some retryAfter => Program.raise (tooManyAttempts retryAfter)
  | none => do
    let verified ← checkPassword env s.row.username password
    match verified with
    | none => do
      countFailure s.row.id
      Program.raise ⟨401, "Invalid credentials", none⟩
    | some user =>
      if user.totpEnabled then
        let now := unixTime s.clock
        Program.emit (.loginStaged (env.pendingLogin.dumps ⟨user.id, now⟩ now))
      else do
        Program.modify (AuthState.onRow fun row => row.resetFailedLogin user.id)
        mintSessionResponse env user none

/-- `auth_login_totp` -/
def authLoginTotp (pending : Option T) (code : String) : AuthM T Unit := do
  let s ← Program.get
  match readPendingLoginTotpCookie env s pending with
  | none =>
    Program.raise
      ⟨400, "No login in progress. Sign in again with your username and password.", none⟩
  | some userId =>
    match s.row.getUserById userId with
    | none => Program.raise ⟨401, "User not found", none⟩
    | some user =>
      if user.active then
        match user.totpSeedEncrypted with
        | none =>
          Program.raise
            ⟨400, "TOTP is no longer enabled for this account. Sign in again — your password alone is now sufficient.", none⟩
        | some encrypted =>
          match s.row.checkLoginRateLimit user.id s.clock with
          | some retryAfter => Program.raise (tooManyAttempts retryAfter)
          | none =>
            match env.decryptForUser user.id encrypted with
            | none =>
              Program.raise
                ⟨500, "TOTP verification temporarily unavailable. Contact an administrator.", none⟩
            | some secret => do
              let ok ← checkCode env secret code
              if ok then do
                Program.modify (AuthState.onRow fun row => row.resetFailedLogin user.id)
                mintSessionResponse env user pending
              else do
                countFailure user.id
                Program.raise ⟨401, "Invalid TOTP code", none⟩
      else Program.raise ⟨401, "User not found", none⟩

/-- `auth_logout` -/
def authLogout (session : Option T) : AuthM T Unit := do
  let s ← Program.get
  match verifySessionCookie env s session with
  | none => pure ()
  | some payload => bumpEpoch payload.uid

/-! ### The handlers behind `_request_user` -/

/-- `auth_change_password` up to the breach check. -/
def authChangePassword (user : User) (currentPassword newPassword : String) : AuthM T Unit :=
  if newPassword.length < PASSWORD_MIN_LENGTH then
    Program.raise
      ⟨400, "Password must be at least " ++ toString PASSWORD_MIN_LENGTH ++ " characters", none⟩
  else if newPassword = currentPassword then Program.raise ⟨400, "password_unchanged", none⟩
  else do
    let verified ← checkPassword env user.username currentPassword
    match verified with
    | none => Program.raise ⟨401, "Current password is incorrect", none⟩
    | some _ => Program.modify (AuthState.await (.breachCheck user newPassword))

/-- `auth_change_password` once the breach service has answered. -/
def commitPassword (user : User) (newPassword : String) (pwned : Bool) (salt : String) :
    AuthM T Unit :=
  if pwned then
    Program.raise
      ⟨400, "This password has been found in data breaches and is unsafe to use. Please choose a different password.", none⟩
  else do
    let s ← Program.get
    match s.row.setPassword env.bcrypt user.id newPassword salt with
    | (_, false) => Program.raise ⟨500, "Failed to update password", none⟩
    | (row, true) => do
      Program.modify (AuthState.onRow fun _ => row)
      bumpEpoch user.id

/-- `auth_totp_setup` -/
def authTotpSetup (user : User) (secret : String) : AuthM T Unit :=
  if user.totpEnabled then
    Program.raise
      ⟨400, "TOTP already enabled. Disable first via /auth/totp/disable to re-enroll.", none⟩
  else do
    let s ← Program.get
    let now := unixTime s.clock
    Program.emit (.enrolmentStaged (env.pendingTotp.dumps ⟨secret, user.id, now⟩ now) secret)

/-- `auth_totp_verify` -/
def authTotpVerify (user : User) (pending : Option T) (code nonce : String) : AuthM T Unit := do
  let s ← Program.get
  match readPendingTotpCookie env s pending user.id with
  | none =>
    Program.raise ⟨400, "No TOTP enrolment in progress. POST /auth/totp/setup first.", none⟩
  | some secret =>
    if user.totpEnabled then Program.raise ⟨409, "totp_already_enabled", none⟩
    else if verifyCode env secret code s.clock then
      match s.row.updateUserTotpSeed user.id (some (env.encryptForUser user.id secret nonce)) with
      | (_, false) => Program.raise ⟨401, "User row no longer exists", none⟩
      | (row, true) => do
        Program.modify (AuthState.onRow fun _ => row)
        Program.emit (.seedCommitted secret)
        bumpEpoch user.id
    else Program.raise ⟨401, "Invalid TOTP code", none⟩

/-- `auth_totp_disable`; a wrong password is counted after a sleep of 0.1 s. -/
def authTotpDisable (user : User) (currentPassword totpCode : String) : AuthM T Unit := do
  let s ← Program.get
  match user.totpSeedEncrypted with
  | none => Program.raise ⟨400, "TOTP is not enabled for this account.", none⟩
  | some encrypted => do
    let verified ← checkPassword env user.username currentPassword
    match verified with
    | none => Program.modify (AuthState.await (.damping user (s.clock + second / 10)))
    | some _ =>
      match env.decryptForUser user.id encrypted with
      | none =>
        Program.raise ⟨500, "Could not decrypt stored TOTP seed. Contact an administrator.", none⟩
      | some secret => do
        let ok ← checkCode env secret totpCode
        if ok then do
          Program.modify (AuthState.onRow fun row => (row.updateUserTotpSeed user.id none).1)
          bumpEpoch user.id
        else do
          countFailure user.id
          Program.raise ⟨401, "Invalid TOTP code", none⟩

/-! ### Steps -/

/-- What a request is given when it goes on: the salt or nonce it draws and the
answer of `is_password_pwned`. -/
structure Answer where
  drawn : String
  pwned : Bool
  deriving DecidableEq

/-- A request goes on after its `await`. -/
def continueTask (answer : Answer) : AuthTask T → AuthM T Unit
  | .handler user (.changePassword currentPassword newPassword) =>
    authChangePassword env user currentPassword newPassword
  | .handler user (.totpSetup secret) => authTotpSetup env user secret
  | .handler user (.totpVerify pending code) => authTotpVerify env user pending code answer.drawn
  | .handler user (.totpDisable currentPassword totpCode) =>
    authTotpDisable env user currentPassword totpCode
  | .breachCheck user newPassword =>
    commitPassword env user newPassword answer.pwned answer.drawn
  | .damping user _ => do
    countFailure user.id
    Program.raise ⟨401, "Invalid credentials", none⟩

/-- A sleeping request is not due before its time. -/
def asleep (now : Instant) : AuthTask T → Bool
  | .damping _ wake => decide (now < wake)
  | _ => false

end AuthRoutes

/-- What can happen at the portal: time passes, a request arrives, a waiting one goes on. -/
inductive AuthOp (T : Type) where
  | elapse (d : ℕ)
  | login (password : String)
  | loginTotp (pending : Option T) (code : String)
  | logout (session : Option T)
  | arrive (session : Option T) (apiKey : Option String) (request : UserRequest T)
  | resume (i : ℕ) (answer : AuthRoutes.Answer)
  deriving DecidableEq

open AuthRoutes in
/-- One step of the portal. -/
def AuthOp.program {T : Type} (env : AuthEnv T) : AuthOp T → AuthM T Unit
  | .elapse d => Program.modify fun s => { s with clock := s.clock + d }
  | .login password => authLogin env password
  | .loginTotp pending code => authLoginTotp env pending code
  | .logout session => authLogout env session
  | .arrive session apiKey request => do
    let s ← Program.get
    let user ← Program.lift (requestUser env s session apiKey)
    Program.modify (AuthState.await (.handler user request))
  | .resume i answer => do
    let s ← Program.get
    match s.tasks[i]? with
    | none => pure ()
    | some task =>
      if asleep s.clock task then pure ()
      else do
        Program.modify (AuthState.wakeUp i)
        continueTask env answer task

/-- Cookies that carry their payload and the second they were signed in. -/
inductive PlainToken where
  | session (data : SessionPayload) (signedAt : ℤ)
  | pendingTotp (data : PendingTotp) (signedAt : ℤ)
  | pendingLogin (data : PendingLogin) (signedAt : ℤ)
  deriving DecidableEq

/-- A portal whose hashes, seeds and codes can be read off. -/
def AuthEnv.plain : AuthEnv PlainToken where
  bcrypt :=
    { hashpw := fun plaintext _ => "$2b$" ++ plaintext
      checkpw := fun plaintext stored => some (decide (stored = "$2b$" ++ plaintext)) }
  isdigit := fun code => code.toList.all Char.isDigit
  totpVerify := fun secret code _ => decide (code = toString (100000 + secret.length))
  encryptForUser := fun _ secret _ => secret
  decryptForUser := fun _ encrypted => some encrypted
  apiKey := "portal-key"
  session :=
    { dumps := .session
      loads := fun token maxAge now =>
        match token with
        | .session data signedAt => if now - signedAt ≤ maxAge then some data else none
        | _ => none
      loads_dumps := by
        intro x signedAt maxAge now y h
        simp only [Option.ite_none_right_eq_some, Option.some.injEq] at h
        exact h.2.symm }
  pendingTotp :=
    { dumps := .pendingTotp
      loads := fun token maxAge now =>
        match token with
        | .pendingTotp data signedAt => if now - signedAt ≤ maxAge then some data else none
        | _ => none
      loads_dumps := by
        intro x signedAt maxAge now y h
        simp only [Option.ite_none_right_eq_some, Option.some.injEq] at h
        exact h.2.symm }
  pendingLogin :=
    { dumps := .pendingLogin
      loads := fun token maxAge now =>
        match token with
        | .pendingLogin data signedAt => if now - signedAt ≤ maxAge then some data else none
        | _ => none
      loads_dumps := by
        intro x signedAt maxAge now y h
        simp only [Option.ite_none_right_eq_some, Option.some.injEq] at h
        exact h.2.symm }

/-- An account with the password `correct-horse` and no failures so far. -/
def UserRow.plain (totpSeed : Option String) : UserRow where
  id := 1
  username := "admin"
  active := true
  passwordHash := some "$2b$correct-horse"
  sessionEpoch := 0
  totpSeedEncrypted := totpSeed
  failedLoginCount := 0
  lastFailedLoginAt := none

end Reverto
