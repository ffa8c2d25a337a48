import Mathlib.Tactic
import Reverto.Web.AuthRoutes

/-!
# What a step of the auth endpoints does (web/routes/auth.py)

One lemma per handler: the events it leaves in the account's history and the row it
leaves behind, for each way it can end.
-/

namespace Reverto

namespace AuthRoutes

variable {T : Type} (env : AuthEnv T)

/-! ### Parts of handlers -/

theorem checkPassword_run (username plaintext : String) (f : Option User → AuthM T Unit)
    (s : AuthState T) :
    (checkPassword env username plaintext >>= f) s =
      let user := s.row.verifyPassword env.bcrypt username plaintext
      ⟨(f user s).result, .passwordChecked user.isSome s.clock :: (f user s).log,
        (f user s).state⟩ := rfl

theorem checkCode_run (secret code : String) (f : Bool → AuthM T Unit) (s : AuthState T) :
    (checkCode env secret code >>= f) s =
      let ok := verifyCode env secret code s.clock
      ⟨(f ok s).result, .totpChecked ok s.clock :: (f ok s).log, (f ok s).state⟩ := rfl

theorem countFailure_run (userId : ℕ) (e : HttpError) (s : AuthState T) :
    ((countFailure userId >>= fun _ => Program.raise e : AuthM T Unit)) s =
      ⟨.error e, [], s.onRow fun row => row.incrementFailedLogin userId s.clock⟩ := rfl

theorem bumpEpoch_run (userId : ℕ) (s : AuthState T) :
    (bumpEpoch userId : AuthM T Unit) s =
      if userId = s.row.id then
        ⟨.ok (), [.epochBumped], s.onRow fun row => row.bumpSessionEpoch userId⟩
      else ⟨.ok (), [], s⟩ := by
  unfold bumpEpoch
  rw [Program.get_bind_run]
  split <;> rfl

/-- The session cookie `_create_session_cookie` signs for the account. -/
def sessionToken (s : AuthState T) : T :=
  env.session.dumps ⟨s.row.id, unixTime s.clock, s.row.sessionEpoch⟩ (unixTime s.clock)

theorem completeLogin_run (user : User) (pending : Option T) (s : AuthState T)
    (hid : user.id = s.row.id) :
    ((Program.modify (AuthState.onRow fun row => row.resetFailedLogin s.row.id) >>=
      fun _ => mintSessionResponse env user pending : AuthM T Unit)) s =
      ⟨.ok (), [.sessionMinted (sessionToken env s) s.row.sessionEpoch pending],
        s.onRow fun row => row.resetFailedLogin s.row.id⟩ := by
  rw [Program.modify_bind_run]
  simp only [mintSessionResponse, Program.get_bind_run, Program.emit_run, AuthState.onRow, hid,
    UserRow.resetFailedLogin, if_true, UserRow.getSessionEpoch, sessionToken]

/-- Run in `s`, the handler leaves the events `log` and the state `s'`. -/
def Leaves (m : AuthM T Unit) (s : AuthState T) (log : List (AuthEvent T)) (s' : AuthState T) :
    Prop :=
  (m s).log = log ∧ (m s).state = s'

/-- What holds of the events and the state that the handler leaves. -/
theorem Leaves.holds (P : List (AuthEvent T) → AuthState T → Prop) (log l : List (AuthEvent T))
    (m : AuthM T Unit) (s s' : AuthState T) (hm : Leaves m s l s') (h : P (log ++ l) s') :
    P (log ++ (m s).log) (m s).state := by
  obtain ⟨hlog, hstate⟩ := hm
  rw [hlog, hstate]
  exact h

/-- A handler that does nothing. -/
theorem Leaves.stays (P : List (AuthEvent T) → AuthState T → Prop) (log : List (AuthEvent T))
    (m : AuthM T Unit) (s : AuthState T) (hm : Leaves m s [] s) (h : P log s) :
    P (log ++ (m s).log) (m s).state := by
  apply Leaves.holds P log [] m s s hm
  rw [List.append_nil]
  exact h

/-! ### Login and logout -/

theorem authLogin_cases (password : String) (s : AuthState T) :
    Leaves (authLogin env password) s [] s ∨
    (s.row.checkLoginRateLimit s.row.id s.clock = none ∧
      s.row.verifyPassword env.bcrypt s.row.username password = none ∧
      Leaves (authLogin env password) s [.passwordChecked false s.clock]
        (s.onRow fun row => row.incrementFailedLogin s.row.id s.clock)) ∨
    (∃ token, Leaves (authLogin env password) s
      [.passwordChecked true s.clock, .loginStaged token] s) ∨
    Leaves (authLogin env password) s
      [.passwordChecked true s.clock, .sessionMinted (sessionToken env s) s.row.sessionEpoch none]
      (s.onRow fun row => row.resetFailedLogin s.row.id) := by
  cases hlimit : s.row.checkLoginRateLimit s.row.id s.clock with
  | some retryAfter =>
    left
    simp only [Leaves, authLogin, Program.get_bind_run, hlimit, Program.raise_run, and_self]
  | none =>
    right
    cases hverified : s.row.verifyPassword env.bcrypt s.row.username password with
    | none =>
      left
      refine ⟨rfl, rfl, ?_⟩
      simp only [Leaves, authLogin, Program.get_bind_run, hlimit, checkPassword_run, hverified,
        countFailure_run, Option.isSome_none, and_self]
    | some user =>
      have huser := s.row.verifyPassword_some env.bcrypt s.row.username password user hverified
      have hid : user.id = s.row.id := by
        rw [huser]
        rfl
      right
      cases htotp : user.totpEnabled with
      | true =>
        left
        refine ⟨env.pendingLogin.dumps ⟨user.id, unixTime s.clock⟩ (unixTime s.clock), ?_⟩
        simp only [Leaves, authLogin, Program.get_bind_run, hlimit, checkPassword_run, hverified,
          htotp, if_true, Program.emit_run, Option.isSome_some, and_self]
      | false =>
        right
        simp only [Leaves, authLogin, Program.get_bind_run, hlimit, checkPassword_run, hverified,
          htotp, Bool.false_eq_true, if_false, hid, completeLogin_run env user none s hid,
          Option.isSome_some, and_self]

/-- The seed `auth_login_totp` checks the code against, when nothing is wrong before. -/
def loginTotpSecret (s : AuthState T) (pending : Option T) : Option String :=
  match readPendingLoginTotpCookie env s pending with
  | none => none
  | some userId =>
    match s.row.getUserById userId with
    | none => none
    | some user =>
      if user.active = true ∧ s.row.checkLoginRateLimit s.row.id s.clock = none then
        user.totpSeedEncrypted.bind (env.decryptForUser s.row.id)
      else none

theorem authLoginTotp_cases (pending : Option T) (code : String) (s : AuthState T) :
    Leaves (authLoginTotp env pending code) s [] s ∨
    (∃ secret, loginTotpSecret env s pending = some secret ∧
      verifyCode env secret code s.clock = false ∧
      Leaves (authLoginTotp env pending code) s [.totpChecked false s.clock]
        (s.onRow fun row => row.incrementFailedLogin s.row.id s.clock)) ∨
    (∃ secret, loginTotpSecret env s pending = some secret ∧
      verifyCode env secret code s.clock = true ∧
      Leaves (authLoginTotp env pending code) s
        [.totpChecked true s.clock,
          .sessionMinted (sessionToken env s) s.row.sessionEpoch pending]
        (s.onRow fun row => row.resetFailedLogin s.row.id)) := by
  cases hcookie : readPendingLoginTotpCookie env s pending with
  | none =>
    left
    simp only [Leaves, authLoginTotp, Program.get_bind_run, hcookie, Program.raise_run, and_self]
  | some userId =>
    cases hfound : s.row.getUserById userId with
    | none =>
      left
      simp only [Leaves, authLoginTotp, Program.get_bind_run, hcookie, hfound, Program.raise_run,
        and_self]
    | some user =>
      have huser := s.row.getUserById_some userId user hfound
      have hid : user.id = s.row.id := by
        rw [huser]
        rfl
      cases hactive : user.active with
      | false =>
        left
        simp only [Leaves, authLoginTotp, Program.get_bind_run, hcookie, hfound, hactive,
          Bool.false_eq_true, if_false, Program.raise_run, and_self]
      | true =>
        cases hseed : user.totpSeedEncrypted with
        | none =>
          left
          simp only [Leaves, authLoginTotp, Program.get_bind_run, hcookie, hfound, hactive, if_true,
            hseed, Program.raise_run, and_self]
        | some encrypted =>
          cases hlimit : s.row.checkLoginRateLimit s.row.id s.clock with
          | some retryAfter =>
            left
            simp only [Leaves, authLoginTotp, Program.get_bind_run, hcookie, hfound, hactive,
              if_true, hseed, hid, hlimit, Program.raise_run, and_self]
          | none =>
            cases hdecrypt : env.decryptForUser s.row.id encrypted with
            | none =>
              left
              simp only [Leaves, authLoginTotp, Program.get_bind_run, hcookie, hfound, hactive,
                if_true, hseed, hid, hlimit, hdecrypt, Program.raise_run, and_self]
            | some secret =>
              right
              have hsecret : loginTotpSecret env s pending = some secret := by
                simp only [loginTotpSecret, hcookie, hfound, hactive, hlimit, and_self, if_true,
                  hseed, Option.bind_some, hdecrypt]
              cases hcode : verifyCode env secret code s.clock with
              | false =>
                left
                refine ⟨secret, hsecret, hcode, ?_⟩
                simp only [Leaves, authLoginTotp, Program.get_bind_run, hcookie, hfound, hactive,
                  if_true, hseed, hid, hlimit, hdecrypt, checkCode_run, hcode, Bool.false_eq_true,
                  if_false, countFailure_run, and_self]
              | true =>
                right
                refine ⟨secret, hsecret, hcode, ?_⟩
                simp only [Leaves, authLoginTotp, Program.get_bind_run, hcookie, hfound, hactive,
                  if_true, hseed, hid, hlimit, hdecrypt, checkCode_run, hcode,
                  completeLogin_run env user pending s hid, and_self]

theorem bumpEpoch_cases (userId : ℕ) (s : AuthState T) :
    Leaves (bumpEpoch userId) s [] s ∨
    Leaves (bumpEpoch userId) s [.epochBumped]
      (s.onRow fun row => row.bumpSessionEpoch s.row.id) := by
  by_cases hid : userId = s.row.id
  · right
    simp only [Leaves, bumpEpoch_run, hid, if_true, and_self]
  · left
    simp only [Leaves, bumpEpoch_run, if_neg hid, and_self]

theorem authLogout_cases (session : Option T) (s : AuthState T) :
    Leaves (authLogout env session) s [] s ∨
    Leaves (authLogout env session) s [.epochBumped]
      (s.onRow fun row => row.bumpSessionEpoch s.row.id) := by
  cases hcookie : verifySessionCookie env s session with
  | none =>
    left
    simp only [Leaves, authLogout, Program.get_bind_run, hcookie, Program.pure_run, and_self]
  | some payload =>
    have hrun : authLogout env session s = bumpEpoch payload.uid s := by
      simp only [authLogout, Program.get_bind_run, hcookie]
    rw [Leaves, Leaves, hrun]
    exact bumpEpoch_cases payload.uid s

/-! ### The handlers behind `_request_user` -/

/-- `_request_user` resolves the account's own user. -/
theorem requestUser_ok (s : AuthState T) (session : Option T) (apiKey : Option String)
    (user : User) (h : requestUser env s session apiKey = .ok user) : user = s.row.toUser := by
  have hlookup : ∀ (userId : ℕ) (e e' : HttpError),
      (match s.row.getUserById userId with
        | none => .error e
        | some user => if user.active then .ok user else .error e') = Except.ok user →
        user = s.row.toUser := by
    intro userId e e' hok
    cases hfound : s.row.getUserById userId with
    | none => simp [hfound] at hok
    | some found =>
      simp only [hfound] at hok
      split at hok
      · cases hok
        exact s.row.getUserById_some userId user hfound
      · cases hok
  unfold requestUser at h
  cases hcookie : verifySessionCookie env s session with
  | none =>
    simp only [hcookie] at h
    split at h
    · exact hlookup 1 _ _ h
    · cases h
  | some payload =>
    simp only [hcookie] at h
    exact hlookup payload.uid _ _ h

/-- The request reaches the check of its current password. -/
def ReachesPasswordCheck (currentPassword newPassword : String) : Prop :=
  PASSWORD_MIN_LENGTH ≤ newPassword.length ∧ newPassword ≠ currentPassword

instance (currentPassword newPassword : String) :
    Decidable (ReachesPasswordCheck currentPassword newPassword) :=
  inferInstanceAs (Decidable (_ ∧ _))

theorem authChangePassword_cases (user : User) (currentPassword newPassword : String)
    (s : AuthState T) :
    let m := authChangePassword env user currentPassword newPassword
    Leaves m s [] s ∨
    (ReachesPasswordCheck currentPassword newPassword ∧
      s.row.verifyPassword env.bcrypt user.username currentPassword = none ∧
      Leaves m s [.passwordChecked false s.clock] s) ∨
    Leaves m s [.passwordChecked true s.clock] (s.await (.breachCheck user newPassword)) := by
  intro m
  by_cases hlength : newPassword.length < PASSWORD_MIN_LENGTH
  · left
    simp only [Leaves, m, authChangePassword, if_pos hlength, Program.raise_run, and_self]
  · by_cases hsame : newPassword = currentPassword
    · left
      simp only [Leaves, m, authChangePassword, if_neg hlength, if_pos hsame, Program.raise_run,
        and_self]
    · right
      cases hverified : s.row.verifyPassword env.bcrypt user.username currentPassword with
      | none =>
        left
        refine ⟨⟨not_lt.mp hlength, hsame⟩, rfl, ?_⟩
        simp only [Leaves, m, authChangePassword, if_neg hlength, if_neg hsame, checkPassword_run,
          hverified, Program.raise_run, Option.isSome_none, and_self]
      | some verified =>
        right
        simp only [Leaves, m, authChangePassword, if_neg hlength, if_neg hsame, checkPassword_run,
          hverified, Program.modify_run, Option.isSome_some, and_self]

theorem commitPassword_cases (user : User) (newPassword : String) (pwned : Bool) (salt : String)
    (s : AuthState T) :
    let m := commitPassword env user newPassword pwned salt
    Leaves m s [] s ∨
    Leaves m s [.epochBumped] (s.onRow fun row =>
      (row.setPassword env.bcrypt s.row.id newPassword salt).1.bumpSessionEpoch s.row.id) := by
  intro m
  cases pwned with
  | true =>
    left
    simp only [Leaves, m, commitPassword, if_true, Program.raise_run, and_self]
  | false =>
    by_cases hid : user.id = s.row.id
    · right
      simp only [Leaves, m, commitPassword, Bool.false_eq_true, if_false, Program.get_bind_run,
        UserRow.setPassword, hid, if_true, Program.modify_bind_run, bumpEpoch_run, AuthState.onRow,
        and_self]
    · left
      simp only [Leaves, m, commitPassword, Bool.false_eq_true, if_false, Program.get_bind_run,
        UserRow.setPassword, hid, Program.raise_run, and_self]

theorem authTotpSetup_cases (user : User) (secret : String) (s : AuthState T) :
    Leaves (authTotpSetup env user secret) s [] s ∨
    (∃ uid now, Leaves (authTotpSetup env user secret) s
      [.enrolmentStaged (env.pendingTotp.dumps ⟨secret, uid, now⟩ now) secret] s) := by
  cases htotp : user.totpEnabled with
  | true =>
    left
    simp only [Leaves, authTotpSetup, htotp, if_true, Program.raise_run, and_self]
  | false =>
    right
    refine ⟨user.id, unixTime s.clock, ?_⟩
    simp only [Leaves, authTotpSetup, htotp, Bool.false_eq_true, if_false, Program.get_bind_run,
      Program.emit_run, and_self]

/-- The checks of `auth_totp_verify`, all passed. -/
def TotpVerifyAccepted (s : AuthState T) (user : User) (pending : Option T) (code secret : String) :
    Prop :=
  readPendingTotpCookie env s pending user.id = some secret ∧ user.totpEnabled = false ∧
    verifyCode env secret code s.clock = true ∧ user.id = s.row.id

theorem authTotpVerify_cases (user : User) (pending : Option T) (code nonce : String)
    (s : AuthState T) :
    let m := authTotpVerify env user pending code nonce
    Leaves m s [] s ∨
    (∃ secret seed, TotpVerifyAccepted env s user pending code secret ∧
      Leaves m s [.seedCommitted secret, .epochBumped] (s.onRow fun row =>
        (row.updateUserTotpSeed s.row.id (some seed)).1.bumpSessionEpoch s.row.id)) := by
  intro m
  cases hcookie : readPendingTotpCookie env s pending user.id with
  | none =>
    left
    simp only [Leaves, m, authTotpVerify, Program.get_bind_run, hcookie, Program.raise_run,
      and_self]
  | some secret =>
    cases htotp : user.totpEnabled with
    | true =>
      left
      simp only [Leaves, m, authTotpVerify, Program.get_bind_run, hcookie, htotp, if_true,
        Program.raise_run, and_self]
    | false =>
      cases hcode : verifyCode env secret code s.clock with
      | false =>
        left
        simp only [Leaves, m, authTotpVerify, Program.get_bind_run, hcookie, htotp, hcode,
          Bool.false_eq_true, if_false, Program.raise_run, and_self]
      | true =>
        by_cases hid : user.id = s.row.id
        · right
          refine ⟨secret, env.encryptForUser s.row.id secret nonce,
            ⟨hcookie, htotp, hcode, hid⟩, ?_⟩
          rw [hid] at hcookie
          simp only [Leaves, m, authTotpVerify, Program.get_bind_run, hcookie, htotp, hcode,
            Bool.false_eq_true, if_false, if_true, UserRow.updateUserTotpSeed, hid,
            Program.modify_bind_run, Program.emit_bind_run, bumpEpoch_run, AuthState.onRow,
            and_self]
        · left
          simp only [Leaves, m, authTotpVerify, Program.get_bind_run, hcookie, htotp, hcode,
            Bool.false_eq_true, if_false, if_true, UserRow.updateUserTotpSeed, hid,
            Program.raise_run, and_self]

theorem authTotpDisable_cases (user : User) (currentPassword totpCode : String)
    (s : AuthState T) :
    let m := authTotpDisable env user currentPassword totpCode
    Leaves m s [] s ∨
    (user.totpEnabled = true ∧
      s.row.verifyPassword env.bcrypt user.username currentPassword = none ∧
      Leaves m s [.passwordChecked false s.clock]
        (s.await (.damping user (s.clock + second / 10)))) ∨
    Leaves m s [.passwordChecked true s.clock] s ∨
    (∃ secret, user.totpSeedEncrypted.bind (env.decryptForUser user.id) = some secret ∧
      verifyCode env secret totpCode s.clock = false ∧
      Leaves m s [.passwordChecked true s.clock, .totpChecked false s.clock]
        (s.onRow fun row => row.incrementFailedLogin user.id s.clock)) ∨
    Leaves m s [.passwordChecked true s.clock, .totpChecked true s.clock] s ∨
    Leaves m s [.passwordChecked true s.clock, .totpChecked true s.clock, .epochBumped]
      (s.onRow fun row => (row.updateUserTotpSeed s.row.id none).1.bumpSessionEpoch s.row.id) := by
  intro m
  cases hseed : user.totpSeedEncrypted with
  | none =>
    left
    simp only [Leaves, m, authTotpDisable, Program.get_bind_run, hseed, Program.raise_run, and_self]
  | some encrypted =>
    right
    cases hverified : s.row.verifyPassword env.bcrypt user.username currentPassword with
    | none =>
      left
      refine ⟨by rw [User.totpEnabled, hseed, Option.isSome_some], rfl, ?_⟩
      simp only [Leaves, m, authTotpDisable, Program.get_bind_run, hseed, checkPassword_run,
        hverified, Program.modify_run, Option.isSome_none, and_self]
    | some verified =>
      right
      cases hdecrypt : env.decryptForUser user.id encrypted with
      | none =>
        left
        simp only [Leaves, m, authTotpDisable, Program.get_bind_run, hseed, checkPassword_run,
          hverified, hdecrypt, Program.raise_run, Option.isSome_some, and_self]
      | some secret =>
        right
        cases hcode : verifyCode env secret totpCode s.clock with
        | false =>
          left
          refine ⟨secret, by rw [Option.bind_some, hdecrypt], hcode, ?_⟩
          simp only [Leaves, m, authTotpDisable, Program.get_bind_run, hseed, checkPassword_run,
            hverified, hdecrypt, checkCode_run, hcode, Bool.false_eq_true, if_false,
            countFailure_run, Option.isSome_some, and_self]
        | true =>
          right
          by_cases hid : user.id = s.row.id
          · right
            rw [hid] at hdecrypt
            simp only [Leaves, m, authTotpDisable, Program.get_bind_run, hseed, checkPassword_run,
              hverified, hid, hdecrypt, checkCode_run, hcode, if_true, Program.modify_bind_run,
              bumpEpoch_run, UserRow.updateUserTotpSeed, AuthState.onRow, Option.isSome_some,
              and_self]
          · left
            simp only [Leaves, m, authTotpDisable, Program.get_bind_run, hseed, checkPassword_run,
              hverified, hdecrypt, checkCode_run, hcode, if_true, Program.modify_bind_run,
              bumpEpoch_run, UserRow.updateUserTotpSeed, AuthState.onRow, if_neg hid,
              Option.isSome_some, and_self]

/-! ### Requests that wait -/

theorem arrive_cases (session : Option T) (apiKey : Option String) (request : UserRequest T)
    (s : AuthState T) :
    let m := AuthOp.program env (.arrive session apiKey request)
    Leaves m s [] s ∨ ∃ user, requestUser env s session apiKey = .ok user ∧
      Leaves m s [] (s.await (.handler user request)) := by
  intro m
  cases huser : requestUser env s session apiKey with
  | error e =>
    left
    simp only [Leaves, m, AuthOp.program, Program.get_bind_run, huser, Program.lift_error]
    simp only [Program.bind_run, Program.raise_run, and_self]
  | ok user =>
    right
    refine ⟨user, rfl, ?_⟩
    simp only [Leaves, m, AuthOp.program, Program.get_bind_run, huser, Program.lift_ok,
      Program.pure_bind, Program.modify_run, and_self]

/-- A waiting request that is not there, or sleeps, does not go on. -/
theorem resume_cases (i : ℕ) (answer : Answer) (s : AuthState T) :
    let m := AuthOp.program env (.resume i answer)
    Leaves m s [] s ∨ ∃ task, s.tasks[i]? = some task ∧
      m s = continueTask env answer task (s.wakeUp i) := by
  intro m
  cases hi : s.tasks[i]? with
  | none =>
    left
    simp only [Leaves, m, AuthOp.program, Program.get_bind_run, hi, Program.pure_run, and_self]
  | some task =>
    cases hasleep : asleep s.clock task with
    | true =>
      left
      simp only [Leaves, m, AuthOp.program, Program.get_bind_run, hi, hasleep, if_true,
        Program.pure_run, and_self]
    | false =>
      right
      refine ⟨task, rfl, ?_⟩
      simp only [m, AuthOp.program, Program.get_bind_run, hi, hasleep, Bool.false_eq_true, if_false,
        Program.modify_bind_run]

end AuthRoutes

end Reverto
