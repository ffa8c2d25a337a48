import Mathlib.Tactic
import Reverto.Web.AuthSteps

/-!
# How fast an account's factors can be tried (web/routes/auth.py, core/user_store.py)

Four endpoints check the password or a TOTP code of an account. Those that count a
wrong one and check the counter first keep `PER_ACCOUNT_FAIL_LIMIT + 1` failures
`FAILED_LOGIN_WINDOW_S` apart; `auth_change_password` does neither, and
`auth_totp_disable` counts without checking, a wrong password after a sleep.
-/

namespace Reverto

namespace FactorThrottle

open AuthRoutes

variable {T : Type} (env : AuthEnv T)

/-! ### The property -/

/-- The time of a failed password or TOTP check. -/
def failedAt : AuthEvent T → Option Instant
  | .passwordChecked false now => some now
  | .totpChecked false now => some now
  | _ => none

/-- A full login success. -/
def fullLogin : AuthEvent T → Bool
  | .sessionMinted _ _ _ => true
  | _ => false

/-- Any `PER_ACCOUNT_FAIL_LIMIT + 1` failed checks with no full login between them
span at least the window. -/
def Throttled (log : List (AuthEvent T)) : Prop :=
  SlidingWindow.SpreadBetween failedLoginWindow failedAt fullLogin PER_ACCOUNT_FAIL_LIMIT log

/-! ### The steps the counter holds back -/

/-- A wrong password that `auth_totp_disable` has not counted yet. -/
def isDamping : AuthTask T → Bool
  | .damping _ _ => true
  | _ => false

/-- The failures in the window, those not counted yet included. -/
def recentFailures (s : AuthState T) : ℕ :=
  s.row.failures.recent failedLoginWindow s.clock + s.tasks.countP isDamping

/-- The waiting request makes a check that fails. -/
def failsTask (s : AuthState T) : AuthTask T → Bool
  | .handler user (.changePassword currentPassword newPassword) =>
    decide (ReachesPasswordCheck currentPassword newPassword) &&
      (s.row.verifyPassword env.bcrypt user.username currentPassword).isNone
  | .handler user (.totpDisable currentPassword totpCode) =>
    user.totpEnabled &&
      ((s.row.verifyPassword env.bcrypt user.username currentPassword).isNone ||
        match user.totpSeedEncrypted.bind (env.decryptForUser user.id) with
        | none => false
        | some secret => !verifyCode env secret totpCode s.clock)
  | _ => false

/-- The step makes a check that fails. -/
def failsFactor (s : AuthState T) : AuthOp T → Bool
  | .login password =>
    (s.row.checkLoginRateLimit s.row.id s.clock).isNone &&
      (s.row.verifyPassword env.bcrypt s.row.username password).isNone
  | .loginTotp pending code =>
    match loginTotpSecret env s pending with
    | none => false
    | some secret => !verifyCode env secret code s.clock
  | .resume i _ => (s.tasks[i]?.map (failsTask env s)).getD false
  | _ => false

/-- The step runs `auth_change_password`. -/
def changesPassword (s : AuthState T) : AuthOp T → Bool
  | .resume i _ =>
    match s.tasks[i]? with
    | some (.handler _ (.changePassword _ _)) => true
    | _ => false
  | _ => false

/-- A check that fails is not made by `auth_change_password`, and only while the
recent failures are below the limit. -/
def Gated (s : AuthState T) (op : AuthOp T) : Prop :=
  failsFactor env s op = true →
    changesPassword s op = false ∧ recentFailures s < PER_ACCOUNT_FAIL_LIMIT

instance (s : AuthState T) (op : AuthOp T) : Decidable (Gated env s op) :=
  inferInstanceAs (Decidable (_ → _))

/-! ### What a step keeps -/

/-- The user a waiting request was resolved to. -/
def taskUser : AuthTask T → User
  | .handler user _ => user
  | .breachCheck user _ => user
  | .damping user _ => user

/-- The failed checks are spread out, the counter accounts for the latest, and the
waiting requests are the account's. -/
structure Counted (log : List (AuthEvent T)) (s : AuthState T) : Prop where
  guarded : SlidingWindow.Guarded failedLoginWindow s.clock s.row.failures
    (s.tasks.countP isDamping) failedAt fullLogin PER_ACCOUNT_FAIL_LIMIT log
  own : ∀ task ∈ s.tasks, (taskUser task).id = s.row.id

variable (log : List (AuthEvent T)) (s : AuthState T)

/-- An event that is neither a failed check nor a full login. -/
theorem counted_other (e : AuthEvent T) (hat : failedAt e = none) (he : fullLogin e = false)
    (h : Counted log s) : Counted (log ++ [e]) s :=
  { h with guarded := SlidingWindow.guarded_other e hat he h.guarded }

/-- Events that are neither failed checks nor full logins. -/
theorem counted_others (l : List (AuthEvent T))
    (hl : ∀ e ∈ l, failedAt e = none ∧ fullLogin e = false) (h : Counted log s) :
    Counted (log ++ l) s := by
  induction l using List.reverseRecOn with
  | nil => rwa [List.append_nil]
  | append_singleton l e ih =>
    have hinit := ih fun e' he' => hl e' (List.mem_append_left _ he')
    obtain ⟨hat, he⟩ := hl e (List.mem_append_right _ List.mem_cons_self)
    rw [← List.append_assoc]
    exact counted_other (log ++ l) s e hat he hinit

/-- A write of the row that leaves the failures alone. -/
theorem counted_onRow (f : UserRow → UserRow) (hid : (f s.row).id = s.row.id)
    (hfailures : (f s.row).failures = s.row.failures) (h : Counted log s) :
    Counted log (s.onRow f) := by
  constructor
  · show SlidingWindow.Guarded failedLoginWindow s.clock (f s.row).failures _ _ _ _ log
    rw [hfailures]
    exact h.guarded
  · intro task htask
    show (taskUser task).id = (f s.row).id
    rw [hid]
    exact h.own task htask

theorem counted_await (task : AuthTask T) (hdamping : isDamping task = false)
    (hown : (taskUser task).id = s.row.id) (h : Counted log s) : Counted log (s.await task) := by
  constructor
  · have hcount : (s.await task).tasks.countP isDamping = s.tasks.countP isDamping := by
      simp [AuthState.await, List.countP_append, hdamping]
    rw [hcount]
    exact h.guarded
  · intro task' htask'
    rcases List.mem_append.mp htask' with hm | hm
    · exact h.own task' hm
    · rw [List.mem_singleton.mp hm]
      exact hown

/-- A failed check that is counted at once. -/
theorem counted_failure (e : AuthEvent T) (hat : failedAt e = some s.clock)
    (he : fullLogin e = false) (hgate : recentFailures s < PER_ACCOUNT_FAIL_LIMIT)
    (h : Counted log s) :
    Counted (log ++ [e]) (s.onRow fun row => row.incrementFailedLogin s.row.id s.clock) := by
  have hevent := SlidingWindow.guarded_event e hat he hgate h.guarded
  have hrecord := SlidingWindow.guarded_record hevent
  rw [← UserRow.failures_increment] at hrecord
  refine ⟨hrecord, fun task htask => ?_⟩
  have hown := h.own task htask
  simpa only [AuthState.onRow, UserRow.incrementFailedLogin, if_true] using hown

/-- A failed check of `auth_totp_disable` that is counted after a sleep. -/
theorem counted_damping (e : AuthEvent T) (user : User) (wake : Instant)
    (hat : failedAt e = some s.clock) (he : fullLogin e = false)
    (hgate : recentFailures s < PER_ACCOUNT_FAIL_LIMIT) (hid : user.id = s.row.id)
    (h : Counted log s) : Counted (log ++ [e]) (s.await (.damping user wake)) := by
  have hevent := SlidingWindow.guarded_event e hat he hgate h.guarded
  constructor
  · have hcount : (s.await (.damping user wake)).tasks.countP isDamping =
        s.tasks.countP isDamping + 1 := by
      simp [AuthState.await, List.countP_append, isDamping]
    rw [hcount]
    exact hevent
  · intro task htask
    rcases List.mem_append.mp htask with hm | hm
    · exact h.own task hm
    · rw [List.mem_singleton.mp hm]
      exact hid

/-- The full login success resets the counter. -/
theorem counted_fullLogin (token : T) (ep : ℕ) (pending : Option T) (h : Counted log s) :
    Counted (log ++ [.sessionMinted token ep pending])
      (s.onRow fun row => row.resetFailedLogin s.row.id) := by
  constructor
  · exact SlidingWindow.guarded_reset _ _ _ rfl h.guarded
  · intro task htask
    have hown := h.own task htask
    simpa only [AuthState.onRow, UserRow.resetFailedLogin, if_true] using hown

/-- The waiting requests once one goes on. -/
theorem wakeUp_tasks (i : ℕ) (task : AuthTask T) (hi : s.tasks[i]? = some task) :
    s.tasks.countP isDamping =
      (s.wakeUp i).tasks.countP isDamping + (if isDamping task = true then 1 else 0) ∧
    ∀ t ∈ (s.wakeUp i).tasks, t ∈ s.tasks := by
  obtain ⟨hlt, hget⟩ := List.getElem?_eq_some_iff.mp hi
  constructor
  · have hperm := (List.getElem_cons_eraseIdx_perm hlt).countP_eq isDamping
    rw [List.countP_cons, hget] at hperm
    exact hperm.symm
  · intro t ht
    exact List.mem_of_mem_eraseIdx ht

theorem counted_wakeUp (i : ℕ) (task : AuthTask T) (hi : s.tasks[i]? = some task)
    (hdamping : isDamping task = false) (h : Counted log s) : Counted log (s.wakeUp i) := by
  obtain ⟨hcount, hmem⟩ := wakeUp_tasks s i task hi
  simp only [hdamping, Bool.false_eq_true, if_false, Nat.add_zero] at hcount
  constructor
  · rw [← hcount]
    exact h.guarded
  · intro t ht
    exact h.own t (hmem t ht)

/-- A wrong password is counted after its sleep. -/
theorem counted_wakeUp_damping (i : ℕ) (user : User) (wake : Instant)
    (hi : s.tasks[i]? = some (.damping user wake)) (h : Counted log s) :
    Counted log ((s.wakeUp i).onRow fun row => row.incrementFailedLogin user.id s.clock) := by
  obtain ⟨hcount, hmem⟩ := wakeUp_tasks s i _ hi
  have hid : user.id = s.row.id := h.own _ (List.mem_of_getElem? hi)
  have hguarded := h.guarded
  simp only [isDamping, if_true] at hcount
  rw [hcount] at hguarded
  have hrecord := SlidingWindow.guarded_record hguarded
  rw [← UserRow.failures_increment] at hrecord
  rw [hid]
  refine ⟨hrecord, fun t ht => ?_⟩
  have hown := h.own t (hmem t ht)
  simpa only [AuthState.onRow, AuthState.wakeUp, UserRow.incrementFailedLogin, if_true] using hown

/-! ### Every handler -/

theorem failures_bumpSessionEpoch (row : UserRow) (userId : ℕ) :
    (row.bumpSessionEpoch userId).failures = row.failures := by
  unfold UserRow.bumpSessionEpoch
  split <;> rfl

theorem failures_updateUserTotpSeed (row : UserRow) (userId : ℕ) (seed : Option String) :
    (row.updateUserTotpSeed userId seed).1.failures = row.failures := by
  unfold UserRow.updateUserTotpSeed
  split <;> rfl

theorem failures_setPassword (row : UserRow) (userId : ℕ) (plaintext salt : String) :
    (row.setPassword env.bcrypt userId plaintext salt).1.failures = row.failures := by
  unfold UserRow.setPassword
  split <;> rfl

theorem counted_login (password : String) (hgate : Gated env s (.login password))
    (h : Counted log s) :
    Counted (log ++ (authLogin env password s).log) (authLogin env password s).state := by
  rcases authLogin_cases env password s with hm | ⟨hlimit, hverify, hm⟩ | ⟨token, hm⟩ | hm
  · exact Leaves.stays Counted log _ s hm h
  · have hrecent := (hgate (by simp [failsFactor, hlimit, hverify])).2
    exact Leaves.holds Counted log _ _ s _ hm (counted_failure log s _ rfl rfl hrecent h)
  · have hstaged := counted_others log s [.passwordChecked true s.clock, .loginStaged token]
      (by simp [failedAt, fullLogin]) h
    exact Leaves.holds Counted log _ _ s s hm hstaged
  · have hchecked := counted_other log s (.passwordChecked true s.clock) rfl rfl h
    have hminted := counted_fullLogin _ s (sessionToken env s) s.row.sessionEpoch none hchecked
    rw [List.append_assoc] at hminted
    exact Leaves.holds Counted log _ _ s _ hm hminted

theorem counted_loginTotp (pending : Option T) (code : String)
    (hgate : Gated env s (.loginTotp pending code)) (h : Counted log s) :
    Counted (log ++ (authLoginTotp env pending code s).log)
      (authLoginTotp env pending code s).state := by
  rcases authLoginTotp_cases env pending code s with
    hm | ⟨secret, hsecret, hcode, hm⟩ | ⟨secret, -, -, hm⟩
  · exact Leaves.stays Counted log _ s hm h
  · have hrecent := (hgate (by simp [failsFactor, hsecret, hcode])).2
    exact Leaves.holds Counted log _ _ s _ hm (counted_failure log s _ rfl rfl hrecent h)
  · have hchecked := counted_other log s (.totpChecked true s.clock) rfl rfl h
    have hminted := counted_fullLogin _ s (sessionToken env s) s.row.sessionEpoch pending hchecked
    rw [List.append_assoc] at hminted
    exact Leaves.holds Counted log _ _ s _ hm hminted

/-- A write of the row with events that are neither failed checks nor full logins. -/
theorem counted_update (l : List (AuthEvent T)) (f : UserRow → UserRow)
    (hl : ∀ e ∈ l, failedAt e = none ∧ fullLogin e = false) (hid : (f s.row).id = s.row.id)
    (hfailures : (f s.row).failures = s.row.failures) (h : Counted log s) :
    Counted (log ++ l) (s.onRow f) :=
  counted_onRow (log ++ l) s f hid hfailures (counted_others log s l hl h)

theorem counted_logout (session : Option T) (h : Counted log s) :
    Counted (log ++ (authLogout env session s).log) (authLogout env session s).state := by
  rcases authLogout_cases env session s with hm | hm
  · exact Leaves.stays Counted log _ s hm h
  · have hbumped := counted_update log s [.epochBumped]
      (fun row => row.bumpSessionEpoch s.row.id) (by simp [failedAt, fullLogin])
      (s.row.id_bumpSessionEpoch s.row.id) (failures_bumpSessionEpoch s.row s.row.id) h
    exact Leaves.holds Counted log _ _ s _ hm hbumped

theorem counted_changePassword (user : User) (currentPassword newPassword : String)
    (hright : failsTask env s (.handler user (.changePassword currentPassword newPassword)) = false)
    (hid : user.id = s.row.id) (h : Counted log s) :
    Counted (log ++ (authChangePassword env user currentPassword newPassword s).log)
      (authChangePassword env user currentPassword newPassword s).state := by
  rcases authChangePassword_cases env user currentPassword newPassword s with
    hm | ⟨hreach, hverify, hm⟩ | hm
  · exact Leaves.stays Counted log _ s hm h
  · simp [failsTask, hreach, hverify] at hright
  · have hchecked := counted_other log s (.passwordChecked true s.clock) rfl rfl h
    have hwaiting := counted_await _ s (.breachCheck user newPassword) rfl hid hchecked
    exact Leaves.holds Counted log _ _ s _ hm hwaiting

theorem counted_commitPassword (user : User) (newPassword : String) (pwned : Bool) (salt : String)
    (h : Counted log s) :
    Counted (log ++ (commitPassword env user newPassword pwned salt s).log)
      (commitPassword env user newPassword pwned salt s).state := by
  rcases commitPassword_cases env user newPassword pwned salt s with hm | hm
  · exact Leaves.stays Counted log _ s hm h
  · have hbumped := counted_update log s [.epochBumped] (fun row =>
      (row.setPassword env.bcrypt s.row.id newPassword salt).1.bumpSessionEpoch s.row.id)
      (by simp [failedAt, fullLogin])
      (by rw [UserRow.id_bumpSessionEpoch, UserRow.id_setPassword])
      (by rw [failures_bumpSessionEpoch, failures_setPassword]) h
    exact Leaves.holds Counted log _ _ s _ hm hbumped

theorem counted_totpSetup (user : User) (secret : String) (h : Counted log s) :
    Counted (log ++ (authTotpSetup env user secret s).log)
      (authTotpSetup env user secret s).state := by
  rcases authTotpSetup_cases env user secret s with hm | ⟨uid, now, hm⟩
  · exact Leaves.stays Counted log _ s hm h
  · exact Leaves.holds Counted log _ _ s s hm (counted_other log s _ rfl rfl h)

theorem counted_totpVerify (user : User) (pending : Option T) (code nonce : String)
    (h : Counted log s) :
    Counted (log ++ (authTotpVerify env user pending code nonce s).log)
      (authTotpVerify env user pending code nonce s).state := by
  rcases authTotpVerify_cases env user pending code nonce s with hm | ⟨secret, seed, -, hm⟩
  · exact Leaves.stays Counted log _ s hm h
  · have hstored := counted_update log s [.seedCommitted secret, .epochBumped] (fun row =>
      (row.updateUserTotpSeed s.row.id (some seed)).1.bumpSessionEpoch s.row.id)
      (by simp [failedAt, fullLogin])
      (by rw [UserRow.id_bumpSessionEpoch, UserRow.id_updateUserTotpSeed])
      (by rw [failures_bumpSessionEpoch, failures_updateUserTotpSeed]) h
    exact Leaves.holds Counted log _ _ s _ hm hstored

theorem counted_totpDisable (user : User) (currentPassword totpCode : String)
    (hgate : failsTask env s (.handler user (.totpDisable currentPassword totpCode)) = true →
      recentFailures s < PER_ACCOUNT_FAIL_LIMIT)
    (hid : user.id = s.row.id) (h : Counted log s) :
    Counted (log ++ (authTotpDisable env user currentPassword totpCode s).log)
      (authTotpDisable env user currentPassword totpCode s).state := by
  rcases authTotpDisable_cases env user currentPassword totpCode s with
    hm | ⟨htotp, hverify, hm⟩ | hm | ⟨secret, hsecret, hcode, hm⟩ | hm | hm
  · exact Leaves.stays Counted log _ s hm h
  · have hrecent := hgate (by simp [failsTask, htotp, hverify])
    exact Leaves.holds Counted log _ _ s _ hm
      (counted_damping log s _ user _ rfl rfl hrecent hid h)
  · exact Leaves.holds Counted log _ _ s s hm (counted_other log s _ rfl rfl h)
  · have htotp : user.totpEnabled = true := by
      unfold User.totpEnabled
      cases hseed : user.totpSeedEncrypted with
      | none => simp [hseed] at hsecret
      | some encrypted => rfl
    have hrecent := hgate (by simp [failsTask, htotp, hsecret, hcode])
    have hchecked := counted_other log s (.passwordChecked true s.clock) rfl rfl h
    have hfailed := counted_failure _ s (.totpChecked false s.clock) rfl rfl hrecent hchecked
    rw [List.append_assoc, ← hid] at hfailed
    exact Leaves.holds Counted log _ _ s _ hm hfailed
  · have hchecked := counted_others log s
      [.passwordChecked true s.clock, .totpChecked true s.clock]
      (by simp [failedAt, fullLogin]) h
    exact Leaves.holds Counted log _ _ s s hm hchecked
  · have hcleared := counted_update log s
      [.passwordChecked true s.clock, .totpChecked true s.clock, .epochBumped] (fun row =>
        (row.updateUserTotpSeed s.row.id none).1.bumpSessionEpoch s.row.id)
      (by simp [failedAt, fullLogin])
      (by rw [UserRow.id_bumpSessionEpoch, UserRow.id_updateUserTotpSeed])
      (by rw [failures_bumpSessionEpoch, failures_updateUserTotpSeed]) h
    exact Leaves.holds Counted log _ _ s _ hm hcleared

/-! ### Every run -/

theorem counted_elapse (d : ℕ) (h : Counted log s) :
    Counted log { s with clock := s.clock + d } := by
  have hle : s.clock ≤ s.clock + d := le_add_of_nonneg_right (Int.natCast_nonneg d)
  exact { guarded := SlidingWindow.guarded_later _ hle h.guarded, own := h.own }

theorem counted_arrive (session : Option T) (apiKey : Option String) (request : UserRequest T)
    (h : Counted log s) :
    Counted (log ++ (AuthOp.program env (.arrive session apiKey request) s).log)
      (AuthOp.program env (.arrive session apiKey request) s).state := by
  rcases arrive_cases env session apiKey request s with hm | ⟨user, huser, hm⟩
  · exact Leaves.stays Counted log _ s hm h
  · have hid : user.id = s.row.id := by
      rw [requestUser_ok env s session apiKey user huser]
      rfl
    have hwaiting := counted_await log s (.handler user request) rfl hid h
    rw [← List.append_nil log] at hwaiting
    exact Leaves.holds Counted log _ _ s _ hm hwaiting

/-- A waiting request that goes on. -/
theorem counted_continueTask (i : ℕ) (answer : Answer) (task : AuthTask T)
    (hi : s.tasks[i]? = some task) (hgate : Gated env s (.resume i answer))
    (h : Counted log s) :
    Counted (log ++ (continueTask env answer task (s.wakeUp i)).log)
      (continueTask env answer task (s.wakeUp i)).state := by
  have hown : (taskUser task).id = s.row.id := h.own task (List.mem_of_getElem? hi)
  have hfails : failsFactor env s (.resume i answer) = failsTask env s task := by
    simp only [failsFactor, hi, Option.map_some, Option.getD_some]
  cases task with
  | handler user request =>
    have hawake := counted_wakeUp log s i _ hi rfl h
    cases request with
    | changePassword currentPassword newPassword =>
      have hright : failsTask env s
          (.handler user (.changePassword currentPassword newPassword)) = false := by
        by_contra hwrong
        have hnot := (hgate (hfails.trans (Bool.eq_true_of_not_eq_false hwrong))).1
        simp [changesPassword, hi] at hnot
      exact counted_changePassword env log (s.wakeUp i) user currentPassword newPassword hright
        hown hawake
    | totpSetup secret => exact counted_totpSetup env log (s.wakeUp i) user secret hawake
    | totpVerify pending code =>
      exact counted_totpVerify env log (s.wakeUp i) user pending code answer.drawn hawake
    | totpDisable currentPassword totpCode =>
      have hcount := (wakeUp_tasks s i _ hi).1
      refine counted_totpDisable env log (s.wakeUp i) user currentPassword totpCode ?_ hown hawake
      intro hwrong
      have hrecent := (hgate (hfails.trans hwrong)).2
      unfold recentFailures at hrecent ⊢
      rw [hcount] at hrecent
      exact lt_of_le_of_lt (Nat.add_le_add_left (Nat.le_add_right _ _) _) hrecent
  | breachCheck user newPassword =>
    have hawake := counted_wakeUp log s i _ hi rfl h
    exact counted_commitPassword env log (s.wakeUp i) user newPassword answer.pwned answer.drawn
      hawake
  | damping user wake =>
    have hcounted := counted_wakeUp_damping log s i user wake hi h
    simp only [continueTask, countFailure_run, List.append_nil]
    exact hcounted

/-- What a gated step keeps. -/
theorem counted_step (op : AuthOp T) (hgate : Gated env s op) (h : Counted log s) :
    Counted (log ++ (AuthOp.program env op s).log) (AuthOp.program env op s).state := by
  cases op with
  | elapse d =>
    have hlater := counted_elapse log s d h
    simpa only [AuthOp.program, Program.modify_run, List.append_nil] using hlater
  | login password => exact counted_login env log s password hgate h
  | loginTotp pending code => exact counted_loginTotp env log s pending code hgate h
  | logout session => exact counted_logout env log s session h
  | arrive session apiKey request => exact counted_arrive env log s session apiKey request h
  | resume i answer =>
    rcases resume_cases env i answer s with hm | ⟨task, hi, hm⟩
    · exact Leaves.stays Counted log _ s hm h
    · rw [hm]
      exact counted_continueTask env log s i answer task hi hgate h

theorem counted_start (row : UserRow) (clock : Instant) :
    Counted ([] : List (AuthEvent T)) ⟨row, clock, []⟩ where
  guarded := SlidingWindow.guarded_nil
  own := by
    intro task htask
    cases htask

/-- As long as no failed check is made by `auth_change_password`, or elsewhere while
the recent failures have reached the limit, the account is throttled. -/
theorem throttled_run (row : UserRow) (clock : Instant) (ops : List (AuthOp T))
    (h : Program.EachStep (AuthOp.program env) (Gated env) ops ⟨row, clock, []⟩) :
    Throttled (Program.runAll (AuthOp.program env) ops ⟨row, clock, []⟩).1 := by
  have htraced := Program.eachTraced_of_eachStep (AuthOp.program env) (Gated env) ops [] _ h
  have hcounted := Program.traced_invariant (AuthOp.program env) (fun _ => Gated env) Counted
    (fun l s op hI hP => counted_step env l s op hP hI) ops [] _ (counted_start row clock) htraced
  exact hcounted.guarded.between

/-! ### Two accounts -/

/-- Two wrong passwords and a login. -/
def typos : List (AuthOp PlainToken) :=
  [.login "battery", .elapse 1000000, .login "staple", .elapse 1000000, .login "correct-horse"]

theorem throttled_typos :
    Throttled (Program.runAll (AuthOp.program .plain) typos ⟨.plain none, 0, []⟩).1 :=
  throttled_run .plain (.plain none) 0 typos (by decide +kernel)

/-- A session holder tries eleven current passwords at once. -/
def spray : List (AuthOp PlainToken) :=
  .login "correct-horse" ::
    (List.replicate 11 (.arrive (some (.session ⟨1, 0, 0⟩ 0)) none
      (.changePassword "guess" "new-password-1")) ++
    List.replicate 11 (.resume 0 ⟨"salt", false⟩))

theorem not_throttled_spray :
    ¬ ∀ (T : Type) (env : AuthEnv T) (row : UserRow) (clock : Instant) (ops : List (AuthOp T)),
      Throttled (Program.runAll (AuthOp.program env) ops ⟨row, clock, []⟩).1 := by
  intro h
  have hspray := h PlainToken .plain (.plain none) 0 spray
  have hlog : (Program.runAll (AuthOp.program .plain) spray ⟨.plain none, 0, []⟩).1 =
      [.passwordChecked true 0, .sessionMinted (.session ⟨1, 0, 0⟩ 0) 0 none] ++
        List.replicate 11 (.passwordChecked false 0) ++ [] := by decide +kernel
  have hspread := hspray _ _ _ hlog (by decide) 0 10 0 0 (by decide) (by decide) (by decide)
  revert hspread
  decide

end FactorThrottle

end Reverto
