import Mathlib.Tactic
import Reverto.Core.KeyRotation

/-!
# Secrets across rotations

What the provider hands out in a sequence of calls: the stored credentials, and
the tokens of `encrypt_for_user`. A rotation keeps the credentials; it does not
know the tokens.
-/

namespace Reverto

namespace FernetCredentialProvider

variable {K S T : Type} (fernet : AuthCipher K S Plaintext T)

section Secrets

variable (gen : ℕ → K)

/-- A call of the provider; `seed` is the random part of what it encrypts. -/
inductive ProviderCall (S T : Type) where
  | save (uuid : String) (p : Credentials) (seed : S) (now : Instant)
  | get (uuid : String) (now : Instant)
  | delete (uuid : String)
  | encrypt (text : String) (seed : S) (now : Instant)
  | decrypt (token : T) (now : Instant)
  | rotate (seed : String → S) (timestamp : String) (now : Instant) (retentionDays : ℤ)

/-- The files, the number of calls so far, and the tokens `encrypt_for_user` has returned. -/
structure Provider (K T : Type) where
  disk : Disk K T := {}
  calls : ℕ := 0
  issued : List (T × String) := []

/-- What a rotation takes; the `n`-th call generates the `n`-th key. -/
def Provider.rotation (s : Provider K T) (seed : String → S) (timestamp : String) (now : Instant)
    (retentionDays : ℤ) : RotationInput K S :=
  ⟨gen s.calls, seed, timestamp, now, retentionDays⟩

/-- The state after a call. -/
def Provider.step (s : Provider K T) : ProviderCall S T → Provider K T
  | .save uuid p seed now =>
    ⟨saveKeysByUuid fernet (gen s.calls) seed now uuid p s.disk, s.calls + 1, s.issued⟩
  | .get uuid now =>
    ⟨(getKeysByUuid fernet (gen s.calls) now uuid s.disk).2, s.calls + 1, s.issued⟩
  | .delete uuid => ⟨(deleteKeysByUuid uuid s.disk).2, s.calls + 1, s.issued⟩
  | .encrypt text seed now =>
    let (token, d) := encryptForUser fernet (gen s.calls) seed now text s.disk
    ⟨d, s.calls + 1, s.issued ++ [(token, text)]⟩
  | .decrypt token now =>
    ⟨(decryptForUser fernet (gen s.calls) now token s.disk).2, s.calls + 1, s.issued⟩
  | .rotate seed timestamp now retentionDays =>
    match rotateUserKey fernet (s.rotation gen seed timestamp now retentionDays) s.disk with
    | .ok (_, d) => ⟨d, s.calls + 1, s.issued⟩
    | .error _ => ⟨s.disk, s.calls + 1, s.issued⟩

/-- The state after some calls. -/
def Provider.run (s : Provider K T) (calls : List (ProviderCall S T)) : Provider K T :=
  calls.foldl (Provider.step fernet gen) s

/-- Every stored credential and every token reads the same before and after. -/
def SecretsKept (issued : List (T × String)) (before after : Disk K T) : Prop :=
  (∀ (generated : K) (now : Instant) (uuid : String) (p : Credentials),
    (getKeysByUuid fernet generated now uuid before).1 = some p →
      (getKeysByUuid fernet generated now uuid after).1 = some p) ∧
  ∀ (generated : K) (now : Instant), ∀ tm ∈ issued,
    (decryptForUser fernet generated now tm.1 after).1 = some tm.2

/-- The key in use and the keys of the tokens were generated by earlier calls. -/
structure Generated (s : Provider K T) : Prop where
  key : ∀ k, s.disk.key = some k → ∃ i < s.calls, k = gen i
  issued : ∀ tm ∈ s.issued, ∃ i < s.calls, ∃ seed, tm.1 = fernet.encrypt (gen i) seed (.utf8 tm.2)

variable {fernet gen}

theorem rotateUserKey_ok (inp : RotationInput K S) (d d' : Disk K T) (r : RotationResult)
    (h : rotateUserKey fernet inp d = .ok (r, d')) :
    ∃ key plaintext, Started fernet d key plaintext ∧
      d' = applySteps (rotationSteps fernet inp plaintext d) d := by
  unfold rotateUserKey at h
  cases hkey : d.key with
  | none =>
    rw [hkey] at h
    cases h
  | some key =>
    rw [hkey] at h
    cases hread : readAll fernet d key (listUuidsWithKeys d) with
    | error uuid =>
      simp only [hread] at h
      cases h
    | ok plaintext =>
      simp only [hread] at h
      cases h
      exact ⟨key, plaintext, ⟨hkey, hread⟩, rfl⟩

/-- The files after a rotation that returned. -/
theorem rotateUserKey_files (inp : RotationInput K S) (d d' : Disk K T) (r : RotationResult)
    (h : rotateUserKey fernet inp d = .ok (r, d')) :
    ∃ key plaintext, Started fernet d key plaintext ∧ d'.key = some inp.newKey ∧
      ∀ up ∈ plaintext, d'.enc.read up.1
        = some (fernet.encrypt inp.newKey (inp.seed up.1) up.2.rotated) := by
  obtain ⟨key, plaintext, hstart, rfl⟩ := rotateUserKey_ok inp d d' r h
  have hcleanup : ∀ s ∈ (oldBackups inp (applySteps
      (prepareSteps fernet inp plaintext ++ commitSteps inp plaintext) d)).map
      (RotationStep.unlinkBackup (K := K) (T := T)), Harmless s := by
    intro s hs
    obtain ⟨name, _, rfl⟩ := List.mem_map.mp hs
    trivial
  obtain ⟨hkey, _, henc⟩ := hstart.finished fernet inp _ hcleanup
  exact ⟨key, plaintext, hstart, hkey, henc⟩

theorem generated_new : Generated fernet gen ({} : Provider K T) where
  key := fun k h => by cases h
  issued := fun tm h => by cases h

theorem loadOrCreate_key (generated : K) (now : Instant) (d : Disk K T) :
    (loadOrCreateUserKey generated now d).2.key = some (loadOrCreateUserKey generated now d).1 := by
  unfold loadOrCreateUserKey
  cases h : d.key with
  | none => rfl
  | some k => exact h

/-- The key a call works with was generated by it or by an earlier one. -/
theorem Generated.load (s : Provider K T) (h : Generated fernet gen s) (now : Instant) :
    ∃ i < s.calls + 1, (loadOrCreateUserKey (gen s.calls) now s.disk).1 = gen i := by
  unfold loadOrCreateUserKey
  cases hkey : s.disk.key with
  | none => exact ⟨s.calls, Nat.lt_succ_self _, rfl⟩
  | some k =>
    obtain ⟨i, hi, hk⟩ := h.key k hkey
    exact ⟨i, Nat.lt_succ_of_lt hi, hk⟩

theorem generated_step (s : Provider K T) (h : Generated fernet gen s) (call : ProviderCall S T) :
    Generated fernet gen (s.step fernet gen call) := by
  have hold : ∀ tm ∈ s.issued, ∃ i < s.calls + 1, ∃ seed,
      tm.1 = fernet.encrypt (gen i) seed (.utf8 tm.2) := by
    intro tm htm
    obtain ⟨i, hi, hseed⟩ := h.issued tm htm
    exact ⟨i, Nat.lt_succ_of_lt hi, hseed⟩
  have hsame : ∀ k, s.disk.key = some k → ∃ i < s.calls + 1, k = gen i := by
    intro k hk
    obtain ⟨i, hi, hki⟩ := h.key k hk
    exact ⟨i, Nat.lt_succ_of_lt hi, hki⟩
  have hload : ∀ (now : Instant) (k : K),
      (loadOrCreateUserKey (gen s.calls) now s.disk).2.key = some k → ∃ i < s.calls + 1, k = gen i := by
    intro now k hk
    rw [loadOrCreate_key] at hk
    cases hk
    exact h.load s now
  cases call with
  | save uuid p seed now => exact ⟨hload now, hold⟩
  | get uuid now =>
    refine ⟨fun k hk => ?_, hold⟩
    simp only [Provider.step, getKeysByUuid] at hk
    cases hread : s.disk.enc.read uuid with
    | none =>
      rw [hread] at hk
      exact hsame k hk
    | some blob =>
      rw [hread] at hk
      exact hload now k hk
  | delete uuid =>
    refine ⟨fun k hk => ?_, hold⟩
    simp only [Provider.step, deleteKeysByUuid] at hk
    cases hread : s.disk.enc.read uuid with
    | none =>
      rw [hread] at hk
      exact hsame k hk
    | some blob =>
      rw [hread] at hk
      exact hsame k hk
  | encrypt text seed now =>
    obtain ⟨i, hi, hk⟩ := h.load s now
    have htoken : (encryptForUser fernet (gen s.calls) seed now text s.disk).1
        = fernet.encrypt (gen i) seed (.utf8 text) := by
      rw [← hk]
      rfl
    refine ⟨hload now, fun tm htm => ?_⟩
    have hmem : tm ∈ s.issued ++
        [((encryptForUser fernet (gen s.calls) seed now text s.disk).1, text)] := htm
    rcases List.mem_append.mp hmem with hmem | hmem
    · exact hold tm hmem
    · rw [List.mem_singleton.mp hmem]
      exact ⟨i, hi, seed, htoken⟩
  | decrypt token now => exact ⟨hload now, hold⟩
  | rotate seed timestamp now retentionDays =>
    simp only [Provider.step]
    cases hrot : rotateUserKey fernet (s.rotation gen seed timestamp now retentionDays) s.disk with
    | error e => exact ⟨hsame, hold⟩
    | ok rd =>
      obtain ⟨r, d'⟩ := rd
      obtain ⟨_, _, _, hkey, _⟩ := rotateUserKey_files _ _ _ _ hrot
      refine ⟨fun k hk => ?_, hold⟩
      have hnew : some (gen s.calls) = some k := hkey.symm.trans hk
      exact ⟨s.calls, Nat.lt_succ_self _, (Option.some.inj hnew).symm⟩

theorem generated_run (calls : List (ProviderCall S T)) (s : Provider K T)
    (h : Generated fernet gen s) : Generated fernet gen (s.run fernet gen calls) := by
  induction calls generalizing s with
  | nil => exact h
  | cons call calls ih => exact ih _ (generated_step s h call)

/-- The stored credentials survive a rotation. -/
theorem credentials_kept (inp : RotationInput K S) (d d' : Disk K T) (r : RotationResult)
    (h : rotateUserKey fernet inp d = .ok (r, d')) (generated : K) (now : Instant) (uuid : String)
    (p : Credentials) (hp : (getKeysByUuid fernet generated now uuid d).1 = some p) :
    (getKeysByUuid fernet generated now uuid d').1 = some p := by
  obtain ⟨key, plaintext, hstart, hkey, henc⟩ := rotateUserKey_files inp d d' r h
  cases hread : d.enc.read uuid with
  | none =>
    simp only [getKeysByUuid, hread] at hp
    cases hp
  | some blob =>
    obtain ⟨q, hq, hblob⟩ := hstart.blob fernet uuid blob hread
    simp only [getKeysByUuid, hread, loadOrCreateUserKey, hstart.hasKey] at hp
    have hqp : q = p := Option.some.inj (hblob.symm.trans hp)
    subst hqp
    simp only [getKeysByUuid, henc (uuid, q) hq, loadOrCreateUserKey, hkey]
    exact readBlob_rotated fernet _ _ q

/-- No token survives it. -/
theorem token_lost (hgen : Function.Injective gen) (s : Provider K T) (hs : Generated fernet gen s)
    (d' : Disk K T) (hkey : d'.key = some (gen s.calls)) (tm : T × String) (htm : tm ∈ s.issued)
    (generated : K) (now : Instant) : (decryptForUser fernet generated now tm.1 d').1 = none := by
  obtain ⟨i, hi, seed, ht⟩ := hs.issued tm htm
  have hne : gen s.calls ≠ gen i := fun heq => (Nat.ne_of_gt hi) (hgen heq)
  have hdec := fernet.decrypt_encrypt (gen i) seed (.utf8 tm.2)
  simp only [decryptForUser, loadOrCreateUserKey, hkey]
  rw [ht, fernet.decrypt_other (gen i) (gen s.calls) _ _ hdec hne, Option.bind_none]

/-- After any calls, a rotation keeps every secret exactly when the provider has
never returned a token. -/
theorem rotation_keeps_secrets_iff (hgen : Function.Injective gen) (calls : List (ProviderCall S T))
    (seed : String → S) (timestamp : String) (now : Instant) (retentionDays : ℤ)
    (r : RotationResult) (d' : Disk K T) :
    let s := Provider.run fernet gen {} calls
    rotateUserKey fernet (s.rotation gen seed timestamp now retentionDays) s.disk = .ok (r, d') →
      (SecretsKept fernet s.issued s.disk d' ↔ s.issued = []) := by
  intro s hrot
  have hs : Generated fernet gen s := generated_run calls {} generated_new
  obtain ⟨_, _, _, hkey, _⟩ := rotateUserKey_files _ _ _ _ hrot
  constructor
  · rintro ⟨_, htokens⟩
    cases hissued : s.issued with
    | nil => rfl
    | cons tm rest =>
      have htm : tm ∈ s.issued := hissued ▸ List.mem_cons_self
      have hlost := token_lost hgen s hs d' hkey tm htm (gen 0) 0
      rw [htokens (gen 0) 0 tm htm] at hlost
      cases hlost
  · intro hnone
    refine ⟨credentials_kept _ _ _ r hrot, fun generated now tm htm => ?_⟩
    rw [hnone] at htm
    cases htm

end Secrets

/-- A token issued before the rotation does not decrypt after it. -/
theorem rotation_loses_token :
    ¬ ∀ (K S T : Type) (fernet : AuthCipher K S Plaintext T) (gen : ℕ → K),
      Function.Injective gen → ∀ (calls : List (ProviderCall S T)) (seed : String → S)
      (timestamp : String) (now : Instant) (retentionDays : ℤ) (r : RotationResult) (d' : Disk K T),
      let s := Provider.run fernet gen {} calls
      rotateUserKey fernet (s.rotation gen seed timestamp now retentionDays) s.disk = .ok (r, d') →
        SecretsKept fernet s.issued s.disk d' := by
  intro h
  have hlaw := h ℕ Unit _ numbered id Function.injective_id [.encrypt "totp-seed" () 0]
    (fun _ => ()) "t" 1 7 ⟨"t", [], []⟩ _ rfl
  have hread := hlaw.2 0 0 ((0, (), .utf8 "totp-seed"), "totp-seed") (by decide)
  revert hread
  decide +kernel

/-- Two credentials are saved and the key is rotated. -/
def savedThenRotated : List (ProviderCall Unit (ℕ × Unit × Plaintext)) :=
  [.save "a" ⟨"key-a", "secret-a", "phrase"⟩ () 0, .save "b" ⟨"key-b", "secret-b", ""⟩ () 1,
    .rotate (fun _ => ()) "t1" 2 7]

/-- A second rotation keeps both credentials. -/
theorem rotation_keeps_credentials :
    ∃ r d', rotateUserKey numbered
        ((Provider.run numbered id {} savedThenRotated).rotation id (fun _ => ()) "t2" 9 7)
        (Provider.run numbered id {} savedThenRotated).disk = .ok (r, d') ∧
      SecretsKept numbered (Provider.run numbered id {} savedThenRotated).issued
        (Provider.run numbered id {} savedThenRotated).disk d' := by
  refine ⟨_, _, rfl, ?_⟩
  exact (rotation_keeps_secrets_iff Function.injective_id savedThenRotated (fun _ => ()) "t2" 9 7
    _ _ rfl).mpr rfl

end FernetCredentialProvider

end Reverto
