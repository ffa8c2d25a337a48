import Mathlib.Tactic
import Reverto.Web.AuthSteps

/-!
# What an epoch bump revokes (web/app.py, web/routes/auth.py)

Only the session cookie carries the epoch. A login that waits for its TOTP code and
an enrolment that waits for its first code live in cookies without one, so what a
bump leaves of them depends on which cookies are presented after it.
-/

namespace Reverto

namespace EpochRevocation

open AuthRoutes

variable {T : Type} (env : AuthEnv T)

/-! ### The property -/

/-- The history since the latest epoch bump. -/
def sinceBump (log : List (AuthEvent T)) : List (AuthEvent T) :=
  log.foldl (fun acc e => match e with
    | .epochBumped => []
    | e => acc ++ [e]) []

/-- A password check for which a pending-login cookie was given. -/
def Staged (l : List (AuthEvent T)) (pending : T) : Prop :=
  ∃ l₁ now l₂, l = l₁ ++ .passwordChecked true now :: .loginStaged pending :: l₂

/-- The session cookie was given for a password check, directly or by way of a
pending-login cookie. -/
def Descends (l : List (AuthEvent T)) (token : T) : Prop :=
  (∃ l₁ now ep l₂, l = l₁ ++ .passwordChecked true now :: .sessionMinted token ep none :: l₂) ∨
  ∃ pending l₁ ep l₂, Staged l₁ pending ∧ l = l₁ ++ .sessionMinted token ep (some pending) :: l₂

/-- Every session cookie that is accepted descends from a password check since the
latest bump, and every seed was generated after the latest bump before it was stored. -/
structure Revoking (log : List (AuthEvent T)) (s : AuthState T) : Prop where
  sessions : ∀ token ep pending, .sessionMinted token ep pending ∈ log →
    (verifySessionCookie env s (some token)).isSome = true → Descends (sinceBump log) token
  seeds : ∀ before secret after, log = before ++ .seedCommitted secret :: after →
    ∃ token, .enrolmentStaged token secret ∈ sinceBump before

/-- A pending cookie that completes a login or an enrolment was given after the
latest bump. -/
def FreshPending (log : List (AuthEvent T)) (s : AuthState T) : AuthOp T → Prop
  | .loginTotp pending code =>
    ∀ secret, loginTotpSecret env s pending = some secret →
      verifyCode env secret code s.clock = true → ∃ token, pending = some token ∧
        Staged (sinceBump log) token
  | .resume i _ =>
    ∀ user pending code secret, s.tasks[i]? = some (.handler user (.totpVerify pending code)) →
      TotpVerifyAccepted env s user pending code secret → ∃ token secret', pending = some token ∧
        .enrolmentStaged token secret' ∈ sinceBump log
  | _ => True

/-! ### The history since the latest bump -/

theorem sinceBump_bumped (log : List (AuthEvent T)) : sinceBump (log ++ [.epochBumped]) = [] := by
  simp [sinceBump]

theorem sinceBump_append (log : List (AuthEvent T)) (e : AuthEvent T) (he : e ≠ .epochBumped) :
    sinceBump (log ++ [e]) = sinceBump log ++ [e] := by
  cases e with
  | epochBumped => exact absurd rfl he
  | _ => simp [sinceBump]

theorem staged_append (l l' : List (AuthEvent T)) (pending : T) (h : Staged l pending) :
    Staged (l ++ l') pending := by
  obtain ⟨l₁, now, l₂, rfl⟩ := h
  exact ⟨l₁, now, l₂ ++ l', by simp⟩

theorem descends_append (l l' : List (AuthEvent T)) (token : T) (h : Descends l token) :
    Descends (l ++ l') token := by
  rcases h with ⟨l₁, now, ep, l₂, rfl⟩ | ⟨pending, l₁, ep, l₂, hstaged, rfl⟩
  · exact .inl ⟨l₁, now, ep, l₂ ++ l', by simp⟩
  · exact .inr ⟨pending, l₁, ep, l₂ ++ l', hstaged, by simp⟩

/-! ### What a step keeps -/

/-- What the history says about the cookies: session cookies of the current epoch
descend from a check since the latest bump, and cookies hold what they were signed for. -/
structure Lineage (log : List (AuthEvent T)) (s : AuthState T) : Prop where
  minted : ∀ token ep pending, .sessionMinted token ep pending ∈ log →
    (∃ iat now, token = env.session.dumps ⟨s.row.id, iat, ep⟩ now) ∧ ep ≤ s.row.sessionEpoch ∧
      (ep = s.row.sessionEpoch → Descends (sinceBump log) token)
  enrolled : ∀ token secret, .enrolmentStaged token secret ∈ log →
    ∃ uid iat now, token = env.pendingTotp.dumps ⟨secret, uid, iat⟩ now
  committed : ∀ before secret after, log = before ++ .seedCommitted secret :: after →
    ∃ token, .enrolmentStaged token secret ∈ sinceBump before

variable (log : List (AuthEvent T)) (s : AuthState T)

theorem lineage_congr (s' : AuthState T) (hid : s'.row.id = s.row.id)
    (hepoch : s'.row.sessionEpoch = s.row.sessionEpoch) (h : Lineage env log s) :
    Lineage env log s' where
  minted := by
    rw [hid, hepoch]
    exact h.minted
  enrolled := h.enrolled
  committed := h.committed

/-- The seeds stored so far, when an event that stores none or a fresh one follows. -/
theorem committed_append (e : AuthEvent T)
    (he : ∀ secret, e = .seedCommitted secret →
      ∃ token, .enrolmentStaged token secret ∈ sinceBump log)
    (h : Lineage env log s) (before : List (AuthEvent T)) (secret : String)
    (after : List (AuthEvent T)) (hlog : log ++ [e] = before ++ .seedCommitted secret :: after) :
    ∃ token, .enrolmentStaged token secret ∈ sinceBump before := by
  cases after using List.reverseRecOn with
  | nil =>
    obtain ⟨hbefore, hlast⟩ := List.append_inj' hlog rfl
    rw [← hbefore]
    exact he secret (List.head_eq_of_cons_eq hlast)
  | append_singleton after e' =>
    rw [← List.cons_append, ← List.append_assoc] at hlog
    exact h.committed before secret after (List.append_inj_left' hlog rfl)

/-- One more event that is no bump. -/
theorem lineage_event (e : AuthEvent T) (hbump : e ≠ .epochBumped)
    (hminted : ∀ token ep pending, e = .sessionMinted token ep pending →
      token = sessionToken env s ∧ ep = s.row.sessionEpoch ∧
        Descends (sinceBump log ++ [e]) token)
    (henrolled : ∀ token secret, e = .enrolmentStaged token secret →
      ∃ uid iat now, token = env.pendingTotp.dumps ⟨secret, uid, iat⟩ now)
    (hcommitted : ∀ secret, e = .seedCommitted secret →
      ∃ token, .enrolmentStaged token secret ∈ sinceBump log)
    (h : Lineage env log s) : Lineage env (log ++ [e]) s where
  minted := by
    intro token ep pending hmem
    rw [sinceBump_append log e hbump]
    rcases List.mem_append.mp hmem with hold | hnew
    · obtain ⟨hsigned, hle, hdescends⟩ := h.minted token ep pending hold
      exact ⟨hsigned, hle, fun hep => descends_append _ _ token (hdescends hep)⟩
    · obtain ⟨htoken, hep, hdescends⟩ := hminted token ep pending (List.mem_singleton.mp hnew).symm
      refine ⟨⟨unixTime s.clock, unixTime s.clock, ?_⟩, le_of_eq hep, fun _ => hdescends⟩
      rw [htoken, hep]
      rfl
  enrolled := by
    intro token secret hmem
    rcases List.mem_append.mp hmem with hold | hnew
    · exact h.enrolled token secret hold
    · exact henrolled token secret (List.mem_singleton.mp hnew).symm
  committed := committed_append env log s e hcommitted h

/-- A factor check or a login that waits for its code. -/
def Plain : AuthEvent T → Prop
  | .passwordChecked _ _ => True
  | .totpChecked _ _ => True
  | .loginStaged _ => True
  | _ => False

theorem lineage_plain (l : List (AuthEvent T)) (hl : ∀ e ∈ l, Plain e) (h : Lineage env log s) :
    Lineage env (log ++ l) s := by
  induction l using List.reverseRecOn with
  | nil => rwa [List.append_nil]
  | append_singleton l e ih =>
    have hinit := ih fun e' he' => hl e' (List.mem_append_left _ he')
    have he := hl e (List.mem_append_right _ List.mem_cons_self)
    rw [← List.append_assoc]
    refine lineage_event env (log ++ l) s e ?_ ?_ ?_ ?_ hinit
    · rintro rfl
      exact he
    · rintro token ep pending rfl
      exact he.elim
    · rintro token secret rfl
      exact he.elim
    · rintro secret rfl
      exact he.elim

/-- A bump leaves no session cookie of the current epoch. -/
theorem lineage_bumped (s' : AuthState T) (hid : s'.row.id = s.row.id)
    (hepoch : s'.row.sessionEpoch = s.row.sessionEpoch + 1) (h : Lineage env log s) :
    Lineage env (log ++ [.epochBumped]) s' where
  minted := by
    intro token ep pending hmem
    have hold : .sessionMinted token ep pending ∈ log := by
      rcases List.mem_append.mp hmem with hold | hnew
      · exact hold
      · cases List.mem_singleton.mp hnew
    obtain ⟨hsigned, hle, -⟩ := h.minted token ep pending hold
    rw [hid, hepoch]
    exact ⟨hsigned, by omega, fun hep => by omega⟩
  enrolled := by
    intro token secret hmem
    rcases List.mem_append.mp hmem with hold | hnew
    · exact h.enrolled token secret hold
    · cases List.mem_singleton.mp hnew
  committed := committed_append env log s .epochBumped (fun secret he => by cases he) h

/-- A session cookie given for a password check or a pending-login cookie. -/
theorem lineage_minted (pending : Option T)
    (hdescends : Descends
      (sinceBump log ++ [.sessionMinted (sessionToken env s) s.row.sessionEpoch pending])
      (sessionToken env s)) (h : Lineage env log s) :
    Lineage env (log ++ [.sessionMinted (sessionToken env s) s.row.sessionEpoch pending]) s := by
  refine lineage_event env log s _ (by nofun) ?_ (by nofun) (by nofun) h
  intro token ep pending' he
  cases he
  exact ⟨rfl, rfl, hdescends⟩

/-! ### Every handler -/

/-- A handler that makes checks and writes neither the id nor the epoch. -/
theorem lineage_of_plain (m : AuthM T Unit) (s' : AuthState T) (l : List (AuthEvent T))
    (hm : Leaves m s l s') (hl : ∀ e ∈ l, Plain e) (hid : s'.row.id = s.row.id)
    (hepoch : s'.row.sessionEpoch = s.row.sessionEpoch) (h : Lineage env log s) :
    Lineage env (log ++ (m s).log) (m s).state := by
  apply Leaves.holds (Lineage env) log l m s s' hm
  exact lineage_congr env (log ++ l) s s' hid hepoch (lineage_plain env log s l hl h)

theorem id_incrementFailedLogin (row : UserRow) (userId : ℕ) (now : Instant) :
    (row.incrementFailedLogin userId now).id = row.id := by
  unfold UserRow.incrementFailedLogin
  split <;> rfl

theorem sessionEpoch_incrementFailedLogin (row : UserRow) (userId : ℕ) (now : Instant) :
    (row.incrementFailedLogin userId now).sessionEpoch = row.sessionEpoch := by
  unfold UserRow.incrementFailedLogin
  split <;> rfl

theorem id_resetFailedLogin (row : UserRow) (userId : ℕ) :
    (row.resetFailedLogin userId).id = row.id := by
  unfold UserRow.resetFailedLogin
  split <;> rfl

theorem sessionEpoch_resetFailedLogin (row : UserRow) (userId : ℕ) :
    (row.resetFailedLogin userId).sessionEpoch = row.sessionEpoch := by
  unfold UserRow.resetFailedLogin
  split <;> rfl

theorem sessionEpoch_updateUserTotpSeed (row : UserRow) (userId : ℕ) (seed : Option String) :
    (row.updateUserTotpSeed userId seed).1.sessionEpoch = row.sessionEpoch := by
  unfold UserRow.updateUserTotpSeed
  split <;> rfl

theorem sessionEpoch_setPassword (row : UserRow) (userId : ℕ) (plaintext salt : String) :
    (row.setPassword env.bcrypt userId plaintext salt).1.sessionEpoch = row.sessionEpoch := by
  unfold UserRow.setPassword
  split <;> rfl

theorem sessionEpoch_bumpSessionEpoch (row row' : UserRow) (hid : row'.id = row.id)
    (hepoch : row'.sessionEpoch = row.sessionEpoch) :
    (row'.bumpSessionEpoch row.id).sessionEpoch = row.sessionEpoch + 1 := by
  simp only [UserRow.bumpSessionEpoch, hid, if_true, hepoch]

theorem lineage_login (password : String) (h : Lineage env log s) :
    Lineage env (log ++ (authLogin env password s).log) (authLogin env password s).state := by
  rcases authLogin_cases env password s with hm | ⟨-, -, hm⟩ | ⟨token, hm⟩ | hm
  · exact Leaves.stays (Lineage env) log _ s hm h
  · exact lineage_of_plain env log s _ _ _ hm (by simp [Plain])
      (id_incrementFailedLogin s.row s.row.id s.clock)
      (sessionEpoch_incrementFailedLogin s.row s.row.id s.clock) h
  · exact lineage_of_plain env log s _ s _ hm (by simp [Plain]) rfl rfl h
  · have hchecked := lineage_plain env log s [.passwordChecked true s.clock] (by simp [Plain]) h
    have hminted := lineage_minted env _ s none
      (by
        rw [sinceBump_append log _ (by nofun)]
        exact .inl ⟨sinceBump log, s.clock, s.row.sessionEpoch, [], by simp⟩) hchecked
    rw [List.append_assoc] at hminted
    have hreset := lineage_congr env _ s (s.onRow fun row => row.resetFailedLogin s.row.id)
      (id_resetFailedLogin s.row s.row.id) (sessionEpoch_resetFailedLogin s.row s.row.id) hminted
    exact Leaves.holds (Lineage env) log _ _ s _ hm hreset

theorem lineage_loginTotp (pending : Option T) (code : String)
    (hfresh : FreshPending env log s (.loginTotp pending code)) (h : Lineage env log s) :
    Lineage env (log ++ (authLoginTotp env pending code s).log)
      (authLoginTotp env pending code s).state := by
  rcases authLoginTotp_cases env pending code s with
    hm | ⟨secret, -, -, hm⟩ | ⟨secret, hsecret, hcode, hm⟩
  · exact Leaves.stays (Lineage env) log _ s hm h
  · exact lineage_of_plain env log s _ _ _ hm (by simp [Plain])
      (id_incrementFailedLogin s.row s.row.id s.clock)
      (sessionEpoch_incrementFailedLogin s.row s.row.id s.clock) h
  · obtain ⟨token, rfl, hstaged⟩ := hfresh secret hsecret hcode
    have hchecked := lineage_plain env log s [.totpChecked true s.clock] (by simp [Plain]) h
    have hminted := lineage_minted env _ s (some token)
      (by
        rw [sinceBump_append log _ (by nofun)]
        exact .inr ⟨token, sinceBump log ++ [.totpChecked true s.clock], s.row.sessionEpoch, [],
          staged_append _ _ token hstaged, rfl⟩) hchecked
    rw [List.append_assoc] at hminted
    have hreset := lineage_congr env _ s (s.onRow fun row => row.resetFailedLogin s.row.id)
      (id_resetFailedLogin s.row s.row.id) (sessionEpoch_resetFailedLogin s.row s.row.id) hminted
    exact Leaves.holds (Lineage env) log _ _ s _ hm hreset

theorem lineage_logout (session : Option T) (h : Lineage env log s) :
    Lineage env (log ++ (authLogout env session s).log) (authLogout env session s).state := by
  rcases authLogout_cases env session s with hm | hm
  · exact Leaves.stays (Lineage env) log _ s hm h
  · have hbumped := lineage_bumped env log s
      (s.onRow fun row => row.bumpSessionEpoch s.row.id) (s.row.id_bumpSessionEpoch s.row.id)
      (sessionEpoch_bumpSessionEpoch s.row s.row rfl rfl) h
    exact Leaves.holds (Lineage env) log _ _ s _ hm hbumped

theorem lineage_changePassword (user : User) (currentPassword newPassword : String)
    (h : Lineage env log s) :
    Lineage env (log ++ (authChangePassword env user currentPassword newPassword s).log)
      (authChangePassword env user currentPassword newPassword s).state := by
  rcases authChangePassword_cases env user currentPassword newPassword s with
    hm | ⟨-, -, hm⟩ | hm
  · exact Leaves.stays (Lineage env) log _ s hm h
  · exact lineage_of_plain env log s _ s _ hm (by simp [Plain]) rfl rfl h
  · exact lineage_of_plain env log s _ _ _ hm (by simp [Plain]) rfl rfl h

theorem lineage_commitPassword (user : User) (newPassword : String) (pwned : Bool) (salt : String)
    (h : Lineage env log s) :
    Lineage env (log ++ (commitPassword env user newPassword pwned salt s).log)
      (commitPassword env user newPassword pwned salt s).state := by
  rcases commitPassword_cases env user newPassword pwned salt s with hm | hm
  · exact Leaves.stays (Lineage env) log _ s hm h
  · have hbumped := lineage_bumped env log s (s.onRow fun row =>
        (row.setPassword env.bcrypt s.row.id newPassword salt).1.bumpSessionEpoch s.row.id)
      ((UserRow.id_bumpSessionEpoch _ s.row.id).trans
        (s.row.id_setPassword env.bcrypt s.row.id newPassword salt))
      (sessionEpoch_bumpSessionEpoch s.row _
        (s.row.id_setPassword env.bcrypt s.row.id newPassword salt)
        (sessionEpoch_setPassword env s.row s.row.id newPassword salt)) h
    exact Leaves.holds (Lineage env) log _ _ s _ hm hbumped

theorem lineage_totpSetup (user : User) (secret : String) (h : Lineage env log s) :
    Lineage env (log ++ (authTotpSetup env user secret s).log)
      (authTotpSetup env user secret s).state := by
  rcases authTotpSetup_cases env user secret s with hm | ⟨uid, now, hm⟩
  · exact Leaves.stays (Lineage env) log _ s hm h
  · have henrolled := lineage_event env log s
      (.enrolmentStaged (env.pendingTotp.dumps ⟨secret, uid, now⟩ now) secret) (by nofun)
      (by nofun)
      (by
        intro token secret' he
        cases he
        exact ⟨uid, now, now, rfl⟩)
      (by nofun) h
    exact Leaves.holds (Lineage env) log _ _ s s hm henrolled

/-- The seed an enrolment cookie holds is the one it was signed for. -/
theorem secret_of_enrolled (token : T) (expectedUserId : ℕ) (secret secret' : String)
    (hread : readPendingTotpCookie env s (some token) expectedUserId = some secret)
    (hmem : .enrolmentStaged token secret' ∈ log) (h : Lineage env log s) : secret' = secret := by
  obtain ⟨uid, iat, now, rfl⟩ := h.enrolled token secret' hmem
  unfold readPendingTotpCookie at hread
  cases hload : env.pendingTotp.loads (env.pendingTotp.dumps ⟨secret', uid, iat⟩ now)
      PENDING_TOTP_TTL (unixTime s.clock) with
  | none => simp [hload] at hread
  | some data =>
    have hdata := env.pendingTotp.loads_dumps _ _ _ _ data hload
    simp only [hload, hdata] at hread
    split_ifs at hread
    exact Option.some.inj hread

theorem mem_of_sinceBump (e : AuthEvent T) (h : e ∈ sinceBump log) : e ∈ log := by
  induction log using List.reverseRecOn with
  | nil => simp [sinceBump] at h
  | append_singleton log e' ih =>
    by_cases hbump : e' = .epochBumped
    · rw [hbump, sinceBump_bumped] at h
      cases h
    · rw [sinceBump_append log e' hbump] at h
      rcases List.mem_append.mp h with hold | hnew
      · exact List.mem_append_left _ (ih hold)
      · exact List.mem_append_right _ hnew

theorem lineage_totpVerify (user : User) (pending : Option T) (code nonce : String)
    (hfresh : ∀ secret, TotpVerifyAccepted env s user pending code secret →
      ∃ token secret', pending = some token ∧ .enrolmentStaged token secret' ∈ sinceBump log)
    (h : Lineage env log s) :
    Lineage env (log ++ (authTotpVerify env user pending code nonce s).log)
      (authTotpVerify env user pending code nonce s).state := by
  rcases authTotpVerify_cases env user pending code nonce s with
    hm | ⟨secret, seed, haccepted, hm⟩
  · exact Leaves.stays (Lineage env) log _ s hm h
  · obtain ⟨token, secret', rfl, hmem⟩ := hfresh secret haccepted
    have hsecret : secret' = secret := secret_of_enrolled env log s token user.id secret secret'
      haccepted.1 (mem_of_sinceBump log _ hmem) h
    have hstored := lineage_event env log s (.seedCommitted secret) (by nofun) (by nofun)
      (by nofun)
      (by
        intro secret'' he
        cases he
        exact ⟨token, hsecret ▸ hmem⟩) h
    have hbumped := lineage_bumped env _ s (s.onRow fun row =>
        (row.updateUserTotpSeed s.row.id (some seed)).1.bumpSessionEpoch s.row.id)
      ((UserRow.id_bumpSessionEpoch _ s.row.id).trans
        (s.row.id_updateUserTotpSeed s.row.id (some seed)))
      (sessionEpoch_bumpSessionEpoch s.row _ (s.row.id_updateUserTotpSeed s.row.id (some seed))
        (sessionEpoch_updateUserTotpSeed s.row s.row.id (some seed))) hstored
    rw [List.append_assoc] at hbumped
    exact Leaves.holds (Lineage env) log _ _ s _ hm hbumped

theorem lineage_totpDisable (user : User) (currentPassword totpCode : String)
    (h : Lineage env log s) :
    Lineage env (log ++ (authTotpDisable env user currentPassword totpCode s).log)
      (authTotpDisable env user currentPassword totpCode s).state := by
  rcases authTotpDisable_cases env user currentPassword totpCode s with
    hm | ⟨-, -, hm⟩ | hm | ⟨secret, -, -, hm⟩ | hm | hm
  · exact Leaves.stays (Lineage env) log _ s hm h
  · exact lineage_of_plain env log s _ _ _ hm (by simp [Plain]) rfl rfl h
  · exact lineage_of_plain env log s _ s _ hm (by simp [Plain]) rfl rfl h
  · exact lineage_of_plain env log s _ _ _ hm (by simp [Plain])
      (id_incrementFailedLogin s.row user.id s.clock)
      (sessionEpoch_incrementFailedLogin s.row user.id s.clock) h
  · exact lineage_of_plain env log s _ s _ hm (by simp [Plain]) rfl rfl h
  · have hchecked := lineage_plain env log s
      [.passwordChecked true s.clock, .totpChecked true s.clock] (by simp [Plain]) h
    have hbumped := lineage_bumped env _ s (s.onRow fun row =>
        (row.updateUserTotpSeed s.row.id none).1.bumpSessionEpoch s.row.id)
      ((UserRow.id_bumpSessionEpoch _ s.row.id).trans
        (s.row.id_updateUserTotpSeed s.row.id none))
      (sessionEpoch_bumpSessionEpoch s.row _ (s.row.id_updateUserTotpSeed s.row.id none)
        (sessionEpoch_updateUserTotpSeed s.row s.row.id none)) hchecked
    rw [List.append_assoc] at hbumped
    exact Leaves.holds (Lineage env) log _ _ s _ hm hbumped

/-! ### Every run -/

theorem lineage_continueTask (answer : Answer) (task : AuthTask T)
    (hfresh : ∀ user pending code secret, task = .handler user (.totpVerify pending code) →
      TotpVerifyAccepted env s user pending code secret →
        ∃ token secret', pending = some token ∧ .enrolmentStaged token secret' ∈ sinceBump log)
    (h : Lineage env log s) :
    Lineage env (log ++ (continueTask env answer task s).log)
      (continueTask env answer task s).state := by
  cases task with
  | handler user request =>
    cases request with
    | changePassword currentPassword newPassword =>
      exact lineage_changePassword env log s user currentPassword newPassword h
    | totpSetup secret => exact lineage_totpSetup env log s user secret h
    | totpVerify pending code =>
      exact lineage_totpVerify env log s user pending code answer.drawn
        (fun secret => hfresh user pending code secret rfl) h
    | totpDisable currentPassword totpCode =>
      exact lineage_totpDisable env log s user currentPassword totpCode h
  | breachCheck user newPassword =>
    exact lineage_commitPassword env log s user newPassword answer.pwned answer.drawn h
  | damping user wake =>
    have hcounted := lineage_congr env log s
      (s.onRow fun row => row.incrementFailedLogin user.id s.clock)
      (id_incrementFailedLogin s.row user.id s.clock)
      (sessionEpoch_incrementFailedLogin s.row user.id s.clock) h
    simpa only [continueTask, countFailure_run, List.append_nil] using hcounted

/-- What a step with fresh pending cookies keeps. -/
theorem lineage_step (op : AuthOp T) (hfresh : FreshPending env log s op)
    (h : Lineage env log s) :
    Lineage env (log ++ (AuthOp.program env op s).log) (AuthOp.program env op s).state := by
  cases op with
  | elapse d =>
    have hlater := lineage_congr env log s { s with clock := s.clock + d } rfl rfl h
    simpa only [AuthOp.program, Program.modify_run, List.append_nil] using hlater
  | login password => exact lineage_login env log s password h
  | loginTotp pending code => exact lineage_loginTotp env log s pending code hfresh h
  | logout session => exact lineage_logout env log s session h
  | arrive session apiKey request =>
    rcases arrive_cases env session apiKey request s with hm | ⟨user, _, hm⟩
    · exact Leaves.stays (Lineage env) log _ s hm h
    · have hwaiting := lineage_congr env log s (s.await (.handler user request)) rfl rfl h
      rw [← List.append_nil log] at hwaiting
      exact Leaves.holds (Lineage env) log _ _ s _ hm hwaiting
  | resume i answer =>
    rcases resume_cases env i answer s with hm | ⟨task, hi, hm⟩
    · exact Leaves.stays (Lineage env) log _ s hm h
    · rw [hm]
      have hawake := lineage_congr env log s (s.wakeUp i) rfl rfl h
      exact lineage_continueTask env log (s.wakeUp i) answer task
        (fun user pending code secret htask haccepted =>
          hfresh user pending code secret (by rw [hi, htask]) haccepted) hawake

theorem lineage_start (row : UserRow) (clock : Instant) :
    Lineage env ([] : List (AuthEvent T)) ⟨row, clock, []⟩ where
  minted := by
    intro token ep pending hmem
    cases hmem
  enrolled := by
    intro token secret hmem
    cases hmem
  committed := by
    intro before secret after hlog
    simp at hlog

/-- A session cookie that is accepted carries the current epoch. -/
theorem revoking_of_lineage (h : Lineage env log s) : Revoking env log s where
  sessions := by
    intro token ep pending hmem haccepted
    obtain ⟨⟨iat, now, rfl⟩, -, hdescends⟩ := h.minted token ep pending hmem
    apply hdescends
    unfold verifySessionCookie at haccepted
    cases hload : env.session.loads (env.session.dumps ⟨s.row.id, iat, ep⟩ now) SESSION_TTL
        (unixTime s.clock) with
    | none => simp [hload] at haccepted
    | some data =>
      have hdata := env.session.loads_dumps _ _ _ _ data hload
      simp only [hload, hdata] at haccepted
      split_ifs at haccepted with _ hep
      · cases haccepted
      · cases haccepted
      · rw [not_not, UserRow.getSessionEpoch, if_pos rfl] at hep
        exact hep
  seeds := h.committed

/-- As long as every pending cookie that completes a login or an enrolment was given
after the latest bump, a bump revokes everything before it. -/
theorem revoking_run (row : UserRow) (clock : Instant) (ops : List (AuthOp T))
    (h : Program.EachTraced (AuthOp.program env) (FreshPending env) ops [] ⟨row, clock, []⟩) :
    Revoking env (Program.runAll (AuthOp.program env) ops ⟨row, clock, []⟩).1
      (Program.runAll (AuthOp.program env) ops ⟨row, clock, []⟩).2 := by
  have hlineage := Program.traced_invariant (AuthOp.program env) (FreshPending env) (Lineage env)
    (fun l s op hI hP => lineage_step env l s op hP hI) ops [] _ (lineage_start env row clock) h
  exact revoking_of_lineage env _ _ hlineage

/-! ### Two accounts with TOTP -/

/-- A login in both steps and a logout. -/
def signedOut : List (AuthOp PlainToken) :=
  [.login "correct-horse", .loginTotp (some (.pendingLogin ⟨1, 0⟩ 0)) "100004",
    .logout (some (.session ⟨1, 0, 0⟩ 0))]

theorem revoking_signedOut :
    Revoking .plain
      (Program.runAll (AuthOp.program .plain) signedOut ⟨.plain (some "SEED"), 0, []⟩).1
      (Program.runAll (AuthOp.program .plain) signedOut ⟨.plain (some "SEED"), 0, []⟩).2 := by
  apply revoking_run .plain (.plain (some "SEED")) 0 signedOut
  refine ⟨trivial, ?_, trivial, trivial⟩
  intro secret _ _
  exact ⟨_, rfl, [], 0, [], by decide +kernel⟩

/-- A login waits for its code while the password is changed. -/
def halfLoggedIn : List (AuthOp PlainToken) :=
  [.login "correct-horse", .loginTotp (some (.pendingLogin ⟨1, 0⟩ 0)) "100004",
    .arrive (some (.session ⟨1, 0, 0⟩ 0)) none
      (.changePassword "correct-horse" "battery-staple"),
    .resume 0 ⟨"salt", false⟩, .resume 0 ⟨"salt", false⟩,
    .loginTotp (some (.pendingLogin ⟨1, 0⟩ 0)) "100004"]

theorem checked_of_descends (l : List (AuthEvent T)) (token : T) (h : Descends l token) :
    ∃ now, .passwordChecked true now ∈ l := by
  rcases h with ⟨l₁, now, ep, l₂, rfl⟩ | ⟨pending, l₁, ep, l₂, ⟨l₃, now, l₄, rfl⟩, rfl⟩
  · exact ⟨now, by simp⟩
  · exact ⟨now, by simp⟩

theorem not_revoking_halfLoggedIn :
    ¬ ∀ (T : Type) (env : AuthEnv T) (row : UserRow) (clock : Instant) (ops : List (AuthOp T)),
      Revoking env (Program.runAll (AuthOp.program env) ops ⟨row, clock, []⟩).1
        (Program.runAll (AuthOp.program env) ops ⟨row, clock, []⟩).2 := by
  intro h
  have hrun := h PlainToken .plain (.plain (some "SEED")) 0 halfLoggedIn
  have hdescends := hrun.sessions (.session ⟨1, 0, 1⟩ 0) 1 (some (.pendingLogin ⟨1, 0⟩ 0))
    (by decide +kernel) (by decide +kernel)
  have hsince : sinceBump (Program.runAll (AuthOp.program .plain) halfLoggedIn
      ⟨.plain (some "SEED"), 0, []⟩).1 =
      [.totpChecked true 0,
        .sessionMinted (.session ⟨1, 0, 1⟩ 0) 1 (some (.pendingLogin ⟨1, 0⟩ 0))] := by
    decide +kernel
  rw [hsince] at hdescends
  obtain ⟨now, hmem⟩ := checked_of_descends _ _ hdescends
  simp at hmem

end EpochRevocation

end Reverto
