import Mathlib.Tactic
import Reverto.Web.AuthSteps

/-!
# Codes that are used once (core/totp.py, web/routes/auth.py)

Two endpoints take a code of the enrolled seed: `auth_login_totp` and
`auth_totp_disable`. `pyotp` accepts the codes of the steps around the clock reading;
that a code was accepted before is recorded nowhere.
-/

namespace Reverto

namespace OneTimeCodes

open AuthRoutes

variable {T : Type} (env : AuthEnv T)

/-- `PERIOD_SECONDS` of core/totp.py -/
def PERIOD_SECONDS : ℤ := 30

/-- `SKEW_TOLERANCE_WINDOWS` of core/totp.py -/
def SKEW_TOLERANCE_WINDOWS : ℤ := 1

/-- The time step of a clock reading. -/
def timeStep (now : Instant) : ℤ := unixTime now / PERIOD_SECONDS

/-- `pyotp` accepts exactly the codes of the steps inside the skew window; a code has
`DIGITS` digits. -/
structure SkewWindow (codeAt : String → ℤ → String) : Prop where
  verify : ∀ secret code now, env.totpVerify secret code now = true ↔
    ∃ k, |k - timeStep now| ≤ SKEW_TOLERANCE_WINDOWS ∧ code = codeAt secret k
  isdigit : ∀ secret k, env.isdigit (codeAt secret k) = true
  length : ∀ secret k, (codeAt secret k).length = DIGITS

/-- A code that a request hands to the check of a seed, and when. -/
structure Presented where
  secret : String
  code : String
  now : Instant
  deriving DecidableEq

/-- The seed `auth_totp_disable` checks the code against, when nothing is wrong before. -/
def disableSecret (s : AuthState T) (user : User) (currentPassword : String) : Option String :=
  if (s.row.verifyPassword env.bcrypt user.username currentPassword).isSome then
    user.totpSeedEncrypted.bind (env.decryptForUser user.id)
  else none

/-- The check of a code against the seed that was found; an empty seed is never checked. -/
def presented (now : Instant) (code : String) : Option String → Option Presented
  | some secret => if secret = "" then none else some ⟨secret, code, now⟩
  | none => none

/-- The code a step presents to the check of the seed. -/
def presents (s : AuthState T) : AuthOp T → Option Presented
  | .loginTotp pending code => presented s.clock code (loginTotpSecret env s pending)
  | .resume i _ =>
    match s.tasks[i]? with
    | some (.handler user (.totpDisable currentPassword totpCode)) =>
      presented s.clock totpCode (disableSecret env s user currentPassword)
    | _ => none
  | _ => none

/-- The codes that the steps of a run present, in order. -/
def presentations : List (AuthOp T) → AuthState T → List Presented
  | [], _ => []
  | op :: ops, s => (presents env s op).toList ++ presentations ops (AuthOp.program env op s).state

/-- The handler returned. -/
def returned : Except HttpError Unit → Bool
  | .ok _ => true
  | .error _ => false

/-- The request is answered with success. -/
def succeeds (s : AuthState T) (op : AuthOp T) : Bool :=
  returned (AuthOp.program env op s).result

/-- The codes with which a login or a disable completes, in order. -/
def completions : List (AuthOp T) → AuthState T → List Presented
  | [], _ => []
  | op :: ops, s =>
    (if succeeds env s op then (presents env s op).toList else []) ++
      completions ops (AuthOp.program env op s).state

section Steps

variable (codeAt : String → ℤ → String)

/-- The code is that of a step inside the window. -/
def Presented.Spends (p : Presented) (k : ℤ) : Prop :=
  |k - timeStep p.now| ≤ SKEW_TOLERANCE_WINDOWS ∧ p.code = codeAt p.secret k

/-- Both codes are that of one step for one seed. -/
def Twice (p q : Presented) : Prop :=
  p.secret = q.secret ∧ ∃ k, Presented.Spends codeAt p k ∧ Presented.Spends codeAt q k

/-- No step's code is there twice. -/
def OneTime (l : List Presented) : Prop := l.Pairwise fun p q => ¬ Twice codeAt p q

end Steps

/-! ### What completes -/

/-- A login whose code is checked succeeds exactly when the code is right. -/
theorem authLoginTotp_returned (s : AuthState T) (pending : Option T) (code secret : String)
    (h : loginTotpSecret env s pending = some secret) :
    returned (authLoginTotp env pending code s).result = verifyCode env secret code s.clock := by
  unfold loginTotpSecret at h
  cases hcookie : readPendingLoginTotpCookie env s pending with
  | none => simp [hcookie] at h
  | some userId =>
    cases hfound : s.row.getUserById userId with
    | none => simp [hcookie, hfound] at h
    | some user =>
      have hid : user.id = s.row.id := by
        rw [s.row.getUserById_some userId user hfound]
        rfl
      simp only [hcookie, hfound] at h
      split at h
      · rename_i hopen
        cases hseed : user.totpSeedEncrypted with
        | none => simp [hseed] at h
        | some encrypted =>
          rw [hseed, Option.bind_some] at h
          cases hcode : verifyCode env secret code s.clock with
          | false =>
            simp only [authLoginTotp, Program.get_bind_run, hcookie, hfound, hopen.1, if_true,
              hseed, hid, hopen.2, h, checkCode_run, hcode, Bool.false_eq_true, if_false,
              countFailure_run, returned]
          | true =>
            simp only [authLoginTotp, Program.get_bind_run, hcookie, hfound, hopen.1, if_true,
              hseed, hid, hopen.2, h, checkCode_run, hcode,
              completeLogin_run env user pending s hid, returned]
      · cases h

/-- A disable whose code is checked succeeds exactly when the code is right. -/
theorem authTotpDisable_returned (s s' : AuthState T) (user : User)
    (currentPassword totpCode secret : String) (hrow : s'.row = s.row) (hclock : s'.clock = s.clock)
    (h : disableSecret env s user currentPassword = some secret) :
    returned (authTotpDisable env user currentPassword totpCode s').result =
      verifyCode env secret totpCode s.clock := by
  unfold disableSecret at h
  split at h
  · rename_i hverified
    obtain ⟨verified, hpassword⟩ := Option.isSome_iff_exists.mp hverified
    cases hseed : user.totpSeedEncrypted with
    | none => simp [hseed] at h
    | some encrypted =>
      rw [hseed, Option.bind_some] at h
      cases hcode : verifyCode env secret totpCode s.clock with
      | false =>
        simp only [authTotpDisable, Program.get_bind_run, hseed, checkPassword_run, hrow, hpassword,
          h, checkCode_run, hclock, hcode, Bool.false_eq_true, if_false, countFailure_run, returned]
      | true =>
        simp only [authTotpDisable, Program.get_bind_run, hseed, checkPassword_run, hrow, hpassword,
          h, checkCode_run, hclock, hcode, if_true, Program.modify_bind_run, bumpEpoch_run]
        split
        · rfl
        · rfl
  · cases h

theorem presented_some (now : Instant) (code : String) (found : Option String) (p : Presented)
    (h : presented now code found = some p) :
    ∃ secret, found = some secret ∧ secret ≠ "" ∧ p = ⟨secret, code, now⟩ := by
  cases found with
  | none => cases h
  | some secret =>
    by_cases hne : secret = ""
    · simp [presented, hne] at h
    · simp only [presented, hne, if_false, Option.some.injEq] at h
      exact ⟨secret, rfl, hne, h.symm⟩

/-- A request that presents a code succeeds exactly when the code is right. -/
theorem succeeds_presents (s : AuthState T) (op : AuthOp T) (p : Presented)
    (h : presents env s op = some p) :
    succeeds env s op = verifyCode env p.secret p.code p.now ∧ p.secret ≠ "" := by
  cases op with
  | loginTotp pending code =>
    obtain ⟨secret, hsecret, hne, rfl⟩ := presented_some _ _ _ _ h
    exact ⟨authLoginTotp_returned env s pending code secret hsecret, hne⟩
  | resume i answer =>
    cases hi : s.tasks[i]? with
    | none => simp [presents, hi] at h
    | some task =>
      cases task with
      | breachCheck user newPassword => simp [presents, hi] at h
      | damping user wake => simp [presents, hi] at h
      | handler user request =>
        cases request with
        | changePassword currentPassword newPassword => simp [presents, hi] at h
        | totpSetup secret => simp [presents, hi] at h
        | totpVerify pending code => simp [presents, hi] at h
        | totpDisable currentPassword totpCode =>
          simp only [presents, hi] at h
          obtain ⟨secret, hsecret, hne, rfl⟩ := presented_some _ _ _ _ h
          refine ⟨?_, hne⟩
          have hrun := authTotpDisable_returned env s (s.wakeUp i) user currentPassword totpCode
            secret rfl rfl hsecret
          have hawake : asleep s.clock
              (.handler user (.totpDisable currentPassword totpCode) : AuthTask T) = false := rfl
          simpa only [succeeds, AuthOp.program, Program.get_bind_run, hi, hawake,
            Bool.false_eq_true, if_false, Program.modify_bind_run, continueTask] using hrun
  | elapse d => cases h
  | login password => cases h
  | logout session => cases h
  | arrive session apiKey request => cases h

/-- The codes that complete something are the right ones among those presented. -/
theorem completions_eq (ops : List (AuthOp T)) (s : AuthState T) :
    completions env ops s =
      (presentations env ops s).filter fun p => verifyCode env p.secret p.code p.now := by
  induction ops generalizing s with
  | nil => rfl
  | cons op ops ih =>
    rw [completions, presentations, List.filter_append, ih]
    congr 1
    cases hp : presents env s op with
    | none => simp
    | some p =>
      have hsucceeds := (succeeds_presents env s op p hp).1
      cases hcode : verifyCode env p.secret p.code p.now with
      | false => simp [hsucceeds, hcode]
      | true => simp [hsucceeds, hcode]

theorem mem_presentations (ops : List (AuthOp T)) (s : AuthState T) (p : Presented)
    (h : p ∈ presentations env ops s) : p.secret ≠ "" := by
  induction ops generalizing s with
  | nil => cases h
  | cons op ops ih =>
    rcases List.mem_append.mp h with h | h
    · exact (succeeds_presents env s op p (Option.mem_toList.mp h)).2
    · exact ih _ h

/-! ### When codes are used once -/

variable (codeAt : String → ℤ → String)

/-- The code of a step inside the window is right. -/
theorem verifyCode_of_spends (hpyotp : SkewWindow env codeAt) (p : Presented) (k : ℤ)
    (hne : p.secret ≠ "") (h : Presented.Spends codeAt p k) :
    verifyCode env p.secret p.code p.now = true := by
  have hlength := hpyotp.length p.secret k
  have hdigit := hpyotp.isdigit p.secret k
  rw [← h.2] at hlength hdigit
  have hcode : p.code ≠ "" := by
    intro hempty
    rw [hempty] at hlength
    revert hlength
    decide
  simp only [verifyCode, hne, hcode, or_self, if_false, hdigit, hlength, Bool.true_eq_false, ne_eq,
    not_true_eq_false]
  exact (hpyotp.verify p.secret p.code p.now).mpr ⟨k, h⟩

/-- Codes complete at most one login or disable each exactly when no step's code is
presented twice for a seed inside its window. -/
theorem oneTime_iff (hpyotp : SkewWindow env codeAt) (row : UserRow) (clock : Instant)
    (ops : List (AuthOp T)) :
    OneTime codeAt (completions env ops ⟨row, clock, []⟩) ↔
      OneTime codeAt (presentations env ops ⟨row, clock, []⟩) := by
  rw [completions_eq, OneTime, List.pairwise_filter, OneTime]
  have hseeds := mem_presentations env ops ⟨row, clock, []⟩
  constructor
  · intro h
    refine h.imp_of_mem ?_
    rintro p q hp hq hpq ⟨hsecret, k, hk, hk'⟩
    have hright := verifyCode_of_spends env codeAt hpyotp p k (hseeds p hp) hk
    have hright' := verifyCode_of_spends env codeAt hpyotp q k (hseeds q hq) hk'
    exact hpq hright hright' ⟨hsecret, k, hk, hk'⟩
  · intro h
    exact h.imp fun hpq _ _ => hpq

/-! ### Two accounts with TOTP -/

/-- Six digits. -/
def sixDigits (n : ℕ) : List Char :=
  [n / 100000, n / 10000, n / 1000, n / 100, n / 10, n].map fun m => Nat.digitChar (m % 10)

/-- Codes that count the steps. -/
def stepCode (secret : String) (k : ℤ) : String :=
  String.ofList (sixDigits (k + secret.length).toNat)

/-- A portal whose codes count the steps. -/
def stepped : AuthEnv PlainToken :=
  { AuthEnv.plain with
    totpVerify := fun secret code now =>
      decide (code ∈ [timeStep now - 1, timeStep now, timeStep now + 1].map (stepCode secret)) }

theorem skewWindow_stepped : SkewWindow stepped stepCode where
  verify secret code now := by
    have hwindow : ∀ k, |k - timeStep now| ≤ SKEW_TOLERANCE_WINDOWS ↔
        k = timeStep now - 1 ∨ k = timeStep now ∨ k = timeStep now + 1 := by
      intro k
      rw [SKEW_TOLERANCE_WINDOWS, abs_le]
      omega
    simp only [stepped, decide_eq_true_eq, List.map_cons, List.map_nil, List.mem_cons,
      List.not_mem_nil, or_false, hwindow, or_and_right, exists_or, exists_eq_left]
  isdigit secret k := by
    show (stepCode secret k).toList.all Char.isDigit = true
    simp [stepCode, sixDigits]
    omega
  length secret k := by
    simp [stepCode, sixDigits, DIGITS]

/-- The cookie of a password step at second 0 or 60. -/
def staged (iat : ℤ) : Option PlainToken := some (.pendingLogin ⟨1, iat⟩ iat)

/-- Two logins a minute apart, each with the code of its step. -/
def freshCodes : List (AuthOp PlainToken) :=
  [.login "correct-horse", .loginTotp (staged 0) "000004", .elapse 60000000,
    .login "correct-horse", .loginTotp (staged 60) "000006"]

theorem oneTime_freshCodes :
    OneTime stepCode (completions stepped freshCodes ⟨.plain (some "SEED"), 0, []⟩) := by
  refine (oneTime_iff stepped stepCode skewWindow_stepped (.plain (some "SEED")) 0 freshCodes).mpr ?_
  have hcodes : presentations stepped freshCodes ⟨.plain (some "SEED"), 0, []⟩ =
      [⟨"SEED", "000004", 0⟩, ⟨"SEED", "000006", 60000000⟩] := by decide +kernel
  rw [hcodes, OneTime, List.pairwise_pair]
  rintro ⟨-, k, h, h'⟩
  have hsame : "000004" = "000006" := h.2.trans h'.2.symm
  revert hsame
  decide

/-- Two logins at one time with one code. -/
def replayedCode : List (AuthOp PlainToken) :=
  [.login "correct-horse", .loginTotp (staged 0) "000004", .loginTotp (staged 0) "000004"]

theorem not_oneTime_replayedCode :
    ¬ ∀ (T : Type) (env : AuthEnv T) (codeAt : String → ℤ → String), SkewWindow env codeAt →
      ∀ (row : UserRow) (clock : Instant) (ops : List (AuthOp T)),
        OneTime codeAt (completions env ops ⟨row, clock, []⟩) := by
  intro h
  have hrun := h PlainToken stepped stepCode skewWindow_stepped (.plain (some "SEED")) 0 replayedCode
  have hcodes : completions stepped replayedCode ⟨.plain (some "SEED"), 0, []⟩ =
      [⟨"SEED", "000004", 0⟩, ⟨"SEED", "000004", 0⟩] := by decide +kernel
  rw [hcodes, OneTime, List.pairwise_pair] at hrun
  have hspends : Presented.Spends stepCode ⟨"SEED", "000004", 0⟩ 0 := ⟨by decide, by decide +kernel⟩
  exact hrun ⟨rfl, 0, hspends, hspends⟩

end OneTimeCodes

end Reverto
