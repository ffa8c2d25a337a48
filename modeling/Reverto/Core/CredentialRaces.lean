import Mathlib.Tactic
import Reverto.Core.CredentialCalls
import Reverto.Core.KeyRotation

/-!
# Races of the credential provider

Which steps of concurrent calls leave the files as the completed operations say.
A step disturbs another call when it writes a key over a key, a credential from
a tmp file or under a key that is no longer its own, or changes a credential a
rotation has read and will put back.
-/

namespace Reverto

namespace FernetCredentialProvider

variable {K S T : Type} (fernet : AuthCipher K S Plaintext T)

/-! ### What a rotation holds -/

/-- The credential of a re-encrypted blob. -/
def Reencrypted.entry (w : Reencrypted T) : String × Credentials := (w.uuid, w.payload)

/-- The credentials a purpose carries along. -/
def Purpose.snapshot : Purpose → List (String × Credentials)
  | .rotate _ _ _ snapshot => snapshot
  | _ => []

/-- The key is wanted by a rotation. -/
def Purpose.inside : Purpose → Bool
  | .rotate .. => true
  | _ => false

namespace CallState

/-- The credentials a rotation has read and not yet put back. -/
def snapshot : CallState K T → List (String × Credentials)
  | .keyExists next | .keyRead next | .keyCreate next => next.snapshot
  | .rotateGet _ _ snapshot | .rotateRead _ _ _ snapshot _ => snapshot
  | .rotateTmp _ _ todo written => todo ++ written.map Reencrypted.entry
  | .rotateKeyReplace _ _ written => written.map Reencrypted.entry
  | .rotateReplace _ _ pending => pending.map Reencrypted.entry
  | _ => []

/-- A rotation between its lock and its last replacement. -/
def inside : CallState K T → Bool
  | .keyExists next | .keyRead next | .keyCreate next => next.inside
  | .rotateList _ | .rotateGet .. | .rotateRead .. | .rotateTmp .. | .rotateKeyReplace ..
  | .rotateReplace .. => true
  | _ => false

/-- The uuids whose files wait for a blob under the new key. -/
def pending : CallState K T → List String
  | .rotateReplace _ _ pending => pending.map Reencrypted.uuid
  | _ => []

end CallState

namespace Vault

/-- The step does not undo what another call has done or is about to do. -/
def Undisturbed (v : Vault K T) : VaultStep K S → Prop
  | .advance n _ _ _ =>
    match v.calls n with
    | .keyCreate _ => v.disk.key = none
    | .saveReplace uuid _ key blob =>
      v.disk.encTmp.read uuid = none ∨
        v.disk.encTmp.read uuid = some blob ∧ v.disk.key = some key ∧
          ∀ m, uuid ∉ (v.calls m).snapshot.map Prod.fst
    | .deleteUnlink uuid => ∀ m, uuid ∉ (v.calls m).snapshot.map Prod.fst
    | .rotateFlock inode => v.holder inode ≠ none ∨ ∀ m, (v.calls m).inside = false
    | .rotateKeyReplace _ _ written =>
      v.issued = [] ∧ ∀ uuid, v.disk.enc.read uuid ≠ none → uuid ∈ written.map Reencrypted.uuid
    | .rotateReplace _ _ (w :: _) => v.disk.encTmp.read w.uuid = some w.blob
    | _ => True
  | _ => True

/-! ### Invariant -/

/-- The blobs a call is going to put in place open under the key they are for. -/
def BlobsOk (disk : Disk K T) : CallState K T → Prop
  | .saveReplace _ p key blob => readBlob fernet key blob = some p
  | .rotateTmp _ newKey _ written => ∀ w ∈ written, readBlob fernet newKey w.blob = some w.payload
  | .rotateKeyReplace _ newKey written =>
    disk.keyTmp = some newKey ∧ ∀ w ∈ written, readBlob fernet newKey w.blob = some w.payload
  | .rotateReplace _ newKey pending =>
    disk.key = some newKey ∧ ∀ w ∈ pending, readBlob fernet newKey w.blob = some w.payload
  | _ => True

/-- What a call holds agrees with the files and the completed operations. -/
structure CallOk (disk : Disk K T) (last : String → Option LastOp) (c : CallState K T) : Prop where
  read : ∀ up ∈ c.snapshot, disk.enc.read up.1 ≠ none ∧
    ∀ q, last up.1 = some (.saved q) → q = up.2
  blobs : BlobsOk fernet disk c

/-- A blob opens under the current key. -/
def OpensTo (disk : Disk K T) (blob : T) (p : Credentials) : Prop :=
  ∃ key, disk.key = some key ∧ readBlob fernet key blob = some p

/-- The files are as the completed operations left them, up to what one rotation
is about to put back. -/
structure Consistent (v : Vault K T) : Prop where
  calls : ∀ n, CallOk fernet v.disk v.last (v.calls n)
  exclusive : ∀ m n, (v.calls m).inside = true → (v.calls n).inside = true → m = n
  saved : ∀ uuid p, v.last uuid = some (.saved p) → ∃ blob, v.disk.enc.read uuid = some blob ∧
    (OpensTo fernet v.disk blob p ∨ ∃ n, uuid ∈ (v.calls n).pending)
  deleted : ∀ uuid, v.last uuid = some .deleted → v.disk.enc.read uuid = none
  tokens : ∀ tm ∈ v.issued, ∃ key, v.disk.key = some key ∧
    fernet.decrypt key tm.1 = some (.utf8 tm.2)

@[simp] theorem setCall_self (v : Vault K T) (n : ℕ) (c : CallState K T) :
    (v.setCall n c).calls n = c := Function.update_self ..

theorem setCall_of_ne (v : Vault K T) (n m : ℕ) (c : CallState K T) (h : m ≠ n) :
    (v.setCall n c).calls m = v.calls m := Function.update_of_ne h _ _

/-- What holds of the new state of a thread and of the others holds of all. -/
theorem forall_setCall (P : CallState K T → Prop) (v : Vault K T) (n : ℕ) (c : CallState K T)
    (hn : P c) (hother : ∀ m, m ≠ n → P (v.calls m)) : ∀ m, P ((v.setCall n c).calls m) := by
  intro m
  by_cases hmn : m = n
  · subst hmn
    rwa [setCall_self]
  · rw [setCall_of_ne v n m c hmn]
    exact hother m hmn

theorem consistent_new : Consistent fernet ({} : Vault K T) where
  calls := fun n => ⟨fun up hup => absurd hup List.not_mem_nil, trivial⟩
  exclusive := fun m n hm => by cases hm
  saved := fun uuid p h => by cases h
  deleted := fun uuid h => by cases h
  tokens := fun tm h => by cases h

theorem pending_inside (c : CallState K T) (uuid : String) (h : uuid ∈ c.pending) :
    c.inside = true := by
  cases c with
  | rotateReplace inode newKey pending => rfl
  | _ => cases h

/-- A call outside the lock holds no blob that depends on the key files. -/
theorem blobsOk_outside (disk disk' : Disk K T) (c : CallState K T) (hout : c.inside = false)
    (h : BlobsOk fernet disk c) : BlobsOk fernet disk' c := by
  cases c with
  | rotateKeyReplace inode newKey written => cases hout
  | rotateReplace inode newKey pending => cases hout
  | _ => exact h

/-- A call is not affected by changes to files it does not hold. -/
theorem callOk_frame (disk disk' : Disk K T) (last last' : String → Option LastOp)
    (c : CallState K T) (h : CallOk fernet disk last c)
    (hread : ∀ up ∈ c.snapshot, disk'.enc.read up.1 = disk.enc.read up.1 ∧ last' up.1 = last up.1)
    (hkeys : c.inside = false ∨ disk'.key = disk.key ∧ disk'.keyTmp = disk.keyTmp) :
    CallOk fernet disk' last' c := by
  refine ⟨fun up hup => ?_, ?_⟩
  · obtain ⟨henc, hlast⟩ := hread up hup
    rw [henc, hlast]
    exact h.read up hup
  · have hblobs := h.blobs
    rcases hkeys with hout | ⟨hkey, hkeyTmp⟩
    · exact blobsOk_outside fernet disk disk' c hout hblobs
    · cases c with
      | rotateKeyReplace inode newKey written => exact ⟨hkeyTmp.trans hblobs.1, hblobs.2⟩
      | rotateReplace inode newKey pending => exact ⟨hkey.trans hblobs.1, hblobs.2⟩
      | _ => exact hblobs

/-- The other threads are outside while one rotates. -/
theorem outside_of_ne (v : Vault K T) (h : Consistent fernet v) (n m : ℕ) (hmn : m ≠ n)
    (hn : (v.calls n).inside = true) : (v.calls m).inside = false := by
  cases hm : (v.calls m).inside with
  | false => rfl
  | true => exact absurd (h.exclusive m n hm hn) hmn

/-- Mutual exclusion when one thread moves on. -/
theorem exclusive_setCall (v : Vault K T) (h : Consistent fernet v) (n : ℕ) (c : CallState K T)
    (hinside : c.inside = true →
      (v.calls n).inside = true ∨ ∀ m, (v.calls m).inside = false) :
    ∀ i j, ((v.setCall n c).calls i).inside = true → ((v.setCall n c).calls j).inside = true →
      i = j := by
  have hother : ∀ m, m ≠ n → c.inside = true → ((v.setCall n c).calls m).inside = false := by
    intro m hmn hc
    rw [setCall_of_ne v n m c hmn]
    rcases hinside hc with hn | hall
    · exact outside_of_ne fernet v h n m hmn hn
    · exact hall m
  intro i j hi hj
  by_cases hin : i = n
  · subst hin
    by_cases hji : j = i
    · exact hji.symm
    · rw [setCall_self] at hi
      rw [hother j hji hi] at hj
      cases hj
  · by_cases hjn : j = n
    · subst hjn
      rw [setCall_self] at hj
      rw [hother i hin hj] at hi
      cases hi
    · rw [setCall_of_ne v n i c hin] at hi
      rw [setCall_of_ne v n j c hjn] at hj
      exact h.exclusive i j hi hj

/-- A step that changes neither the key nor a credential file, and completes nothing. -/
theorem consistent_quiet (v v' : Vault K T) (n : ℕ) (c : CallState K T) (h : Consistent fernet v)
    (hcalls : v'.calls = (v.setCall n c).calls) (hkey : v'.disk.key = v.disk.key)
    (henc : v'.disk.enc = v.disk.enc)
    (hkeyTmp : v'.disk.keyTmp = v.disk.keyTmp ∨ (v.calls n).inside = true)
    (hlast : v'.last = v.last) (hissued : v'.issued = v.issued)
    (hinside : c.inside = true → (v.calls n).inside = true ∨ ∀ m, (v.calls m).inside = false)
    (hpending : ∀ u ∈ (v.calls n).pending, u ∈ c.pending)
    (hok : CallOk fernet v'.disk v'.last c) : Consistent fernet v' where
  calls := by
    intro m
    rw [hcalls]
    by_cases hmn : m = n
    · subst hmn
      rwa [setCall_self]
    · rw [setCall_of_ne v n m c hmn]
      refine callOk_frame fernet v.disk v'.disk v.last v'.last _ (h.calls m)
        (fun up _ => by rw [henc, hlast]; exact ⟨rfl, rfl⟩) ?_
      rcases hkeyTmp with hsame | hn
      · exact Or.inr ⟨hkey, hsame⟩
      · exact Or.inl (outside_of_ne fernet v h n m hmn hn)
  exclusive := by
    rw [hcalls]
    exact exclusive_setCall fernet v h n c hinside
  saved := by
    intro uuid p hp
    rw [hlast] at hp
    obtain ⟨blob, hblob, hopen⟩ := h.saved uuid p hp
    refine ⟨blob, by rw [henc]; exact hblob, ?_⟩
    rcases hopen with ⟨key, hk, hread⟩ | ⟨m, hm⟩
    · exact Or.inl ⟨key, hkey.trans hk, hread⟩
    · refine Or.inr ⟨m, ?_⟩
      rw [hcalls]
      by_cases hmn : m = n
      · subst hmn
        rw [setCall_self]
        exact hpending uuid hm
      · rwa [setCall_of_ne v n m c hmn]
  deleted := by
    intro uuid hd
    rw [hlast] at hd
    rw [henc]
    exact h.deleted uuid hd
  tokens := by
    intro tm htm
    rw [hissued] at htm
    obtain ⟨key, hk, hdec⟩ := h.tokens tm htm
    exact ⟨key, hkey.trans hk, hdec⟩

/-- A thread moves on and nothing else changes. -/
theorem consistent_setCall (v : Vault K T) (n : ℕ) (c : CallState K T) (h : Consistent fernet v)
    (hinside : c.inside = true → (v.calls n).inside = true ∨ ∀ m, (v.calls m).inside = false)
    (hpending : ∀ u ∈ (v.calls n).pending, u ∈ c.pending) (hok : CallOk fernet v.disk v.last c) :
    Consistent fernet (v.setCall n c) :=
  consistent_quiet fernet v (v.setCall n c) n c h rfl rfl rfl (Or.inl rfl) rfl rfl hinside hpending
    hok

/-- A call that holds nothing. -/
theorem callOk_empty (disk : Disk K T) (last : String → Option LastOp) (c : CallState K T)
    (hsnapshot : c.snapshot = [])
    (hblobs : (∀ uuid p key blob, c ≠ .saveReplace uuid p key blob) ∧ c.inside = false) :
    CallOk fernet disk last c := by
  obtain ⟨hsave, hout⟩ := hblobs
  refine ⟨fun up hup => ?_, ?_⟩
  · rw [hsnapshot] at hup
    cases hup
  · cases c with
    | saveReplace uuid p key blob => exact absurd rfl (hsave uuid p key blob)
    | rotateTmp inode newKey todo written => cases hout
    | rotateKeyReplace inode newKey written => cases hout
    | rotateReplace inode newKey pending => cases hout
    | _ => trivial

/-- A thread ends its call or waits outside the lock. -/
theorem consistent_leave (v : Vault K T) (n : ℕ) (c : CallState K T) (h : Consistent fernet v)
    (hpending : (v.calls n).pending = []) (hsnapshot : c.snapshot = [])
    (hblobs : (∀ uuid p key blob, c ≠ .saveReplace uuid p key blob) ∧ c.inside = false) :
    Consistent fernet (v.setCall n c) := by
  refine consistent_setCall fernet v n c h (fun hin => ?_) (fun u hu => ?_)
    (callOk_empty fernet _ _ c hsnapshot hblobs)
  · rw [hblobs.2] at hin
    cases hin
  · rw [hpending] at hu
    cases hu

/-! ### The user key -/

theorem consistent_abandon (v : Vault K T) (n : ℕ) (next : Purpose) (h : Consistent fernet v)
    (hpending : (v.calls n).pending = []) : Consistent fernet (v.abandon n next) := by
  cases next with
  | save uuid p => exact consistent_leave fernet v n .idle h hpending rfl (by simp [CallState.inside])
  | encrypt text => exact consistent_leave fernet v n .idle h hpending rfl (by simp [CallState.inside])
  | rotate inode uuid todo snapshot =>
    exact consistent_leave fernet v n (.rotateUnlock inode) h hpending rfl
      (by simp [CallState.inside])

/-- A call that has the current key goes on. -/
theorem consistent_withKey (v : Vault K T) (n : ℕ) (key : K) (seed : S) (next : Purpose)
    (h : Consistent fernet v) (hkey : v.disk.key = some key)
    (hsnapshot : (v.calls n).snapshot = next.snapshot) (hinside : (v.calls n).inside = next.inside)
    (hpending : (v.calls n).pending = []) : Consistent fernet (v.withKey fernet n key seed next) := by
  cases next with
  | save uuid p =>
    exact consistent_leave fernet v n (.saveTmp uuid p key) h hpending rfl
      (by simp [CallState.inside])
  | encrypt text =>
    have hidle := consistent_leave fernet v n .idle h hpending rfl (by simp [CallState.inside])
    refine ⟨hidle.calls, hidle.exclusive, hidle.saved, hidle.deleted, fun tm htm => ?_⟩
    simp only [withKey] at htm
    split at htm
    · exact hidle.tokens tm htm
    · rcases List.mem_append.mp htm with htm | htm
      · exact hidle.tokens tm htm
      · rw [List.mem_singleton.mp htm]
        exact ⟨key, hkey, fernet.decrypt_encrypt key seed _⟩
  | rotate inode uuid todo snapshot =>
    refine consistent_setCall fernet v n _ h (fun _ => Or.inl hinside) (fun u hu => ?_) ⟨?_, trivial⟩
    · rw [hpending] at hu
      cases hu
    · have hread := (h.calls n).read
      rw [hsnapshot] at hread
      exact hread

/-- The first use of the key: there is nothing that another key has encrypted. -/
theorem consistent_create (v : Vault K T) (generated : K) (now : Instant)
    (h : Consistent fernet v) (hnone : v.disk.key = none) :
    Consistent fernet
      { v with disk := { v.disk with key := some generated, keyMtime := now } } := by
  have hnokey : ∀ key, v.disk.key ≠ some key := by
    intro key
    rw [hnone]
    exact (Option.some_ne_none key).symm
  refine ⟨fun n => ⟨(h.calls n).read, ?_⟩, h.exclusive, fun uuid p hp => ?_, h.deleted,
    fun tm htm => ?_⟩
  · have hblobs := (h.calls n).blobs
    cases hc : v.calls n with
    | rotateReplace inode newKey pending =>
      rw [hc] at hblobs
      exact absurd hblobs.1 (hnokey newKey)
    | _ =>
      rw [hc] at hblobs
      exact hblobs
  · obtain ⟨blob, _, ⟨key, hk, _⟩ | ⟨m, hm⟩⟩ := h.saved uuid p hp
    · exact absurd hk (hnokey key)
    · have hblobs := (h.calls m).blobs
      cases hc : v.calls m with
      | rotateReplace inode newKey pending =>
        rw [hc] at hblobs
        exact absurd hblobs.1 (hnokey newKey)
      | _ =>
        rw [hc] at hm
        cases hm
  · obtain ⟨key, hk, _⟩ := h.tokens tm htm
    exact absurd hk (hnokey key)

theorem consistent_keyStep (v v' : Vault K T) (n : ℕ) (generated : K) (seed : S) (now : Instant)
    (c : CallState K T) (hcall : v.calls n = c) (h : Consistent fernet v)
    (hG : ∀ next, c = .keyCreate next → v.disk.key = none)
    (hstep : v.keyStep fernet n generated seed now c = some v') : Consistent fernet v' := by
  cases c with
  | keyExists next =>
    cases hstep
    have hread := (h.calls n).read
    rw [hcall] at hread
    split
    · exact consistent_setCall fernet v n _ h (fun hin => Or.inl (by rw [hcall]; exact hin))
        (by rw [hcall]; exact fun u hu => hu) ⟨hread, trivial⟩
    · exact consistent_setCall fernet v n _ h (fun hin => Or.inl (by rw [hcall]; exact hin))
        (by rw [hcall]; exact fun u hu => hu) ⟨hread, trivial⟩
  | keyRead next =>
    simp only [keyStep] at hstep
    cases hkey : v.disk.key with
    | none =>
      simp only [hkey] at hstep
      cases hstep
      exact consistent_abandon fernet v n next h (by rw [hcall]; rfl)
    | some key =>
      simp only [hkey] at hstep
      cases hstep
      exact consistent_withKey fernet v n key seed next h hkey (by rw [hcall]; rfl)
        (by rw [hcall]; rfl) (by rw [hcall]; rfl)
  | keyCreate next =>
    cases hstep
    have hcreate := consistent_create fernet v generated now h (hG next rfl)
    have hcall' : ({ v with disk := { v.disk with key := some generated, keyMtime := now } } :
      Vault K T).calls n = .keyCreate next := hcall
    exact consistent_withKey fernet _ n generated seed next hcreate rfl (by rw [hcall']; rfl)
      (by rw [hcall']; rfl) (by rw [hcall']; rfl)
  | _ => cases hstep

/-! ### Saves and deletes -/

/-- The file of a credential that no rotation holds becomes what `op` says of it. -/
theorem consistent_complete (v : Vault K T) (n : ℕ) (uuid : String) (op : LastOp)
    (enc encTmp : Files T) (h : Consistent fernet v) (hpending : (v.calls n).pending = [])
    (hfree : ∀ m, uuid ∉ (v.calls m).snapshot.map Prod.fst)
    (hsaved : ∀ p, op = .saved p → ∃ blob, enc.read uuid = some blob ∧
      ∃ key, v.disk.key = some key ∧ readBlob fernet key blob = some p)
    (hdeleted : op = .deleted → enc.read uuid = none)
    (hsame : ∀ u, u ≠ uuid → enc.read u = v.disk.enc.read u) :
    Consistent fernet (Vault.complete
      { v with disk := { v.disk with enc := enc, encTmp := encTmp } } n uuid op) := by
  have hidle := consistent_leave fernet v n .idle h hpending rfl (by simp [CallState.inside])
  have hother : ∀ m, ∀ up ∈ ((v.setCall n .idle).calls m).snapshot, up.1 ≠ uuid := by
    rintro m up hup rfl
    by_cases hmn : m = n
    · subst hmn
      rw [setCall_self] at hup
      cases hup
    · rw [setCall_of_ne v n m _ hmn] at hup
      exact hfree m (List.mem_map_of_mem hup)
  refine ⟨fun m => ?_, hidle.exclusive, fun u q hq => ?_, fun u hu => ?_, hidle.tokens⟩
  · refine callOk_frame fernet v.disk _ v.last _ _ (hidle.calls m) (fun up hup => ?_)
      (Or.inr ⟨rfl, rfl⟩)
    have hne := hother m up hup
    exact ⟨hsame up.1 hne, Function.update_of_ne hne _ _⟩
  · have hq' : Function.update v.last uuid (some op) u = some (.saved q) := hq
    by_cases huu : u = uuid
    · subst huu
      rw [Function.update_self] at hq'
      obtain ⟨blob, hblob, hopen⟩ := hsaved q (Option.some.inj hq')
      exact ⟨blob, hblob, Or.inl hopen⟩
    · rw [Function.update_of_ne huu] at hq'
      obtain ⟨b, hb, hopen⟩ := hidle.saved u q hq'
      exact ⟨b, (hsame u huu).trans hb, hopen⟩
  · have hu' : Function.update v.last uuid (some op) u = some .deleted := hu
    by_cases huu : u = uuid
    · subst huu
      rw [Function.update_self] at hu'
      exact hdeleted (Option.some.inj hu')
    · rw [Function.update_of_ne huu] at hu'
      exact (hsame u huu).trans (hidle.deleted u hu')

/-- A credential that no rotation holds is written under the current key. -/
theorem consistent_saved (v : Vault K T) (n : ℕ) (uuid : String) (p : Credentials) (key : K)
    (blob : T) (h : Consistent fernet v) (hkey : v.disk.key = some key)
    (hblob : readBlob fernet key blob = some p) (hpending : (v.calls n).pending = [])
    (hfree : ∀ m, uuid ∉ (v.calls m).snapshot.map Prod.fst) :
    Consistent fernet (Vault.complete
      { v with
        disk :=
          { v.disk with
            enc := v.disk.enc.write uuid blob
            encTmp := v.disk.encTmp.pop uuid } } n uuid (.saved p)) := by
  refine consistent_complete fernet v n uuid (.saved p) _ _ h hpending hfree (fun q hq => ?_)
    (fun hq => by cases hq) fun u hu => Files.read_write_of_ne _ _ _ _ hu
  cases hq
  exact ⟨blob, Files.read_write_self _ _ _, key, hkey, hblob⟩

/-- A credential that no rotation holds is removed. -/
theorem consistent_deleted (v : Vault K T) (n : ℕ) (uuid : String) (enc : Files T)
    (h : Consistent fernet v) (hpending : (v.calls n).pending = [])
    (hfree : ∀ m, uuid ∉ (v.calls m).snapshot.map Prod.fst) (hgone : enc.read uuid = none)
    (hsame : ∀ u, u ≠ uuid → enc.read u = v.disk.enc.read u) :
    Consistent fernet (Vault.complete { v with disk := { v.disk with enc := enc } } n uuid
      .deleted) :=
  consistent_complete fernet v n uuid .deleted enc v.disk.encTmp h hpending hfree
    (fun q hq => by cases hq) (fun _ => hgone) hsame

/-- A credential that is not there is in no snapshot. -/
theorem not_held_of_absent (v : Vault K T) (h : Consistent fernet v) (uuid : String)
    (hnone : v.disk.enc.read uuid = none) : ∀ m, uuid ∉ (v.calls m).snapshot.map Prod.fst := by
  intro m hm
  obtain ⟨up, hup, rfl⟩ := List.mem_map.mp hm
  exact ((h.calls m).read up hup).1 hnone

theorem readBlob_saved (seed : S) (key : K) (p : Credentials) :
    readBlob fernet key (fernet.encrypt key seed p.saved) = some p := by
  simp [readBlob, fernet.decrypt_encrypt]

theorem consistent_fileStep (v v' : Vault K T) (n : ℕ) (seed : S) (c : CallState K T)
    (hcall : v.calls n = c) (h : Consistent fernet v)
    (hsave : ∀ uuid p key blob, c = .saveReplace uuid p key blob →
      v.disk.encTmp.read uuid = none ∨ v.disk.encTmp.read uuid = some blob ∧
        v.disk.key = some key ∧ ∀ m, uuid ∉ (v.calls m).snapshot.map Prod.fst)
    (hdelete : ∀ uuid, c = .deleteUnlink uuid → ∀ m, uuid ∉ (v.calls m).snapshot.map Prod.fst)
    (hstep : v.fileStep fernet n seed c = some v') : Consistent fernet v' := by
  cases c with
  | saveTmp uuid p key =>
    cases hstep
    refine consistent_quiet fernet v _ n (.saveReplace uuid p key (fernet.encrypt key seed p.saved))
      h rfl rfl rfl (Or.inl rfl) rfl rfl (fun hin => by cases hin) ?_ ⟨?_, ?_⟩
    · rw [hcall]
      exact fun u hu => hu
    · exact fun up hup => absurd hup List.not_mem_nil
    · exact readBlob_saved fernet seed key p
  | saveReplace uuid p key blob =>
    simp only [fileStep] at hstep
    have hpending : (v.calls n).pending = [] := by rw [hcall]; rfl
    rcases hsave uuid p key blob rfl with hnone | ⟨htmp, hkey, hfree⟩
    · simp only [hnone] at hstep
      cases hstep
      exact consistent_leave fernet v n .idle h hpending rfl (by simp [CallState.inside])
    · simp only [htmp] at hstep
      cases hstep
      have hblob := (h.calls n).blobs
      rw [hcall] at hblob
      exact consistent_saved fernet v n uuid p key blob h hkey hblob hpending hfree
  | deleteExists uuid =>
    simp only [fileStep] at hstep
    have hpending : (v.calls n).pending = [] := by rw [hcall]; rfl
    cases hread : v.disk.enc.read uuid with
    | none =>
      simp only [hread] at hstep
      cases hstep
      exact consistent_deleted fernet v n uuid v.disk.enc h hpending
        (not_held_of_absent fernet v h uuid hread) hread fun _ _ => rfl
    | some blob =>
      simp only [hread] at hstep
      cases hstep
      exact consistent_leave fernet v n (.deleteUnlink uuid) h hpending rfl
        (by simp [CallState.inside])
  | deleteUnlink uuid =>
    cases hstep
    exact consistent_deleted fernet v n uuid (v.disk.enc.pop uuid) h (by rw [hcall]; rfl)
      (hdelete uuid rfl) (Files.read_pop_self _ _) fun u hu => Files.read_pop_of_ne _ _ _ hu
  | _ => cases hstep

/-! ### The lock of a rotation -/

theorem consistent_lockStep (v v' : Vault K T) (n : ℕ) (c : CallState K T) (hcall : v.calls n = c)
    (h : Consistent fernet v)
    (hG : ∀ inode, c = .rotateFlock inode →
      v.holder inode ≠ none ∨ ∀ m, (v.calls m).inside = false)
    (hstep : v.lockStep n c = some v') : Consistent fernet v' := by
  have hleave : ∀ (v' : Vault K T) (c' : CallState K T), v'.calls = (v.setCall n c').calls →
      v'.disk = v.disk → v'.last = v.last → v'.issued = v.issued → (v.calls n).pending = [] →
      c'.snapshot = [] → ((∀ uuid p key blob, c' ≠ .saveReplace uuid p key blob) ∧
      c'.inside = false) → Consistent fernet v' := by
    intro v' c' hcalls hdisk hlast hissued hpending hsnapshot hblobs
    have hmoved := consistent_leave fernet v n c' h hpending hsnapshot hblobs
    refine ⟨?_, ?_, ?_, ?_, ?_⟩
    · rw [hcalls, hdisk, hlast]
      exact hmoved.calls
    · rw [hcalls]
      exact hmoved.exclusive
    · rw [hcalls, hdisk, hlast]
      exact hmoved.saved
    · rw [hdisk, hlast]
      exact hmoved.deleted
    · rw [hdisk, hissued]
      exact hmoved.tokens
  have hpending : ∀ c', v.calls n = c' → c'.pending = [] → (v.calls n).pending = [] := by
    intro c' hc hp
    rw [hc, hp]
  cases c with
  | rotateExists =>
    cases hstep
    split
    · exact hleave _ .rotateOpen rfl rfl rfl rfl (hpending _ hcall rfl) rfl
        (by simp [CallState.inside])
    · exact hleave _ .idle rfl rfl rfl rfl (hpending _ hcall rfl) rfl (by simp [CallState.inside])
  | rotateOpen =>
    simp only [lockStep] at hstep
    cases hlock : v.lockFile with
    | some inode =>
      simp only [hlock] at hstep
      cases hstep
      exact hleave _ (.rotateFlock inode) rfl rfl rfl rfl (hpending _ hcall rfl) rfl
        (by simp [CallState.inside])
    | none =>
      simp only [hlock] at hstep
      cases hstep
      exact hleave _ (.rotateFlock v.nextInode) rfl rfl rfl rfl (hpending _ hcall rfl) rfl
        (by simp [CallState.inside])
  | rotateFlock inode =>
    simp only [lockStep] at hstep
    cases hheld : v.holder inode with
    | some m =>
      simp only [hheld] at hstep
      cases hstep
      exact hleave _ .rotateUnlink rfl rfl rfl rfl (hpending _ hcall rfl) rfl
        (by simp [CallState.inside])
    | none =>
      simp only [hheld] at hstep
      cases hstep
      have hfree : ∀ m, (v.calls m).inside = false := by
        rcases hG inode rfl with hne | hfree
        · exact absurd hheld hne
        · exact hfree
      refine consistent_quiet fernet v _ n (.rotateList inode) h rfl rfl rfl (Or.inl rfl) rfl rfl
        (fun _ => Or.inr hfree) ?_ ⟨fun up hup => absurd hup List.not_mem_nil, trivial⟩
      rw [hcall]
      exact fun u hu => hu
  | rotateUnlock inode =>
    cases hstep
    exact hleave _ .rotateUnlink rfl rfl rfl rfl (hpending _ hcall rfl) rfl
      (by simp [CallState.inside])
  | rotateUnlink =>
    cases hstep
    exact hleave _ .idle rfl rfl rfl rfl (hpending _ hcall rfl) rfl (by simp [CallState.inside])
  | _ => cases hstep

/-! ### Under the lock -/

theorem readBlob_unique (key key' : K) (blob : T) (p q : Credentials)
    (hp : readBlob fernet key blob = some p) (hq : readBlob fernet key' blob = some q) : q = p := by
  have hkey : key = key' := by
    by_contra hne
    rw [readBlob_other fernet key key' blob p hp (Ne.symm hne)] at hq
    cases hq
  subst hkey
  exact Option.some.inj (hq.symm.trans hp)

/-- A step under the lock that leaves the key and the credential files alone. -/
theorem consistent_inside (v : Vault K T) (d : Disk K T) (n : ℕ) (c : CallState K T)
    (h : Consistent fernet v) (hin : (v.calls n).inside = true) (hkey : d.key = v.disk.key)
    (henc : d.enc = v.disk.enc) (hpending : ∀ u ∈ (v.calls n).pending, u ∈ c.pending)
    (hsnapshot : ∀ up ∈ c.snapshot, up ∈ (v.calls n).snapshot) (hblobs : BlobsOk fernet d c) :
    Consistent fernet (Vault.setCall { v with disk := d } n c) := by
  refine consistent_quiet fernet v _ n c h rfl hkey henc (Or.inr hin) rfl rfl (fun _ => Or.inl hin)
    hpending ⟨fun up hup => ?_, hblobs⟩
  have hread := (h.calls n).read up (hsnapshot up hup)
  rw [← henc] at hread
  exact hread

/-- A rotation reads a credential: it gets what was saved last. -/
theorem consistent_read (v : Vault K T) (n inode : ℕ) (uuid : String) (todo : List String)
    (snapshot : List (String × Credentials)) (key : K) (p : Credentials) (h : Consistent fernet v)
    (hcall : v.calls n = .rotateRead inode uuid todo snapshot key)
    (hread : (v.disk.enc.read uuid).bind (readBlob fernet key) = some p) :
    Consistent fernet (v.setCall n (.rotateGet inode todo (snapshot ++ [(uuid, p)]))) := by
  have hin : (v.calls n).inside = true := by rw [hcall]; rfl
  obtain ⟨blob, hblob, hp⟩ := Option.bind_eq_some_iff.mp hread
  refine consistent_setCall fernet v n _ h (fun _ => Or.inl hin) (by rw [hcall]; exact fun u hu => hu)
    ⟨fun up hup => ?_, trivial⟩
  rcases List.mem_append.mp hup with hup | hup
  · refine (h.calls n).read up ?_
    rw [hcall]
    exact hup
  · rw [List.mem_singleton.mp hup]
    refine ⟨by rw [hblob]; exact Option.some_ne_none blob, fun q hq => ?_⟩
    obtain ⟨blob', hblob', hopen⟩ := h.saved uuid q hq
    cases hblob.symm.trans hblob'
    rcases hopen with ⟨k, _, hk⟩ | ⟨m, hm⟩
    · exact readBlob_unique fernet key k blob p q hp hk
    · -- only this rotation is inside, and it waits for no replacement
      have hmn := h.exclusive m n (pending_inside _ _ hm) hin
      rw [hmn, hcall] at hm
      cases hm

/-- The new key is put in place, over credentials the rotation holds all of. -/
theorem consistent_replaceKey (v : Vault K T) (n inode : ℕ) (newKey : K) (now : Instant)
    (written : List (Reencrypted T)) (h : Consistent fernet v)
    (hcall : v.calls n = .rotateKeyReplace inode newKey written) (hissued : v.issued = [])
    (hall : ∀ uuid, v.disk.enc.read uuid ≠ none → uuid ∈ written.map Reencrypted.uuid) :
    Consistent fernet (Vault.setCall
      { v with disk := { v.disk with key := some newKey, keyMtime := now, keyTmp := none } } n
      (.rotateReplace inode newKey written)) := by
  have hin : (v.calls n).inside = true := by rw [hcall]; rfl
  have hok := h.calls n
  rw [hcall] at hok
  refine ⟨?_, exclusive_setCall fernet v h n _ fun _ => Or.inl hin, fun u p hp => ?_,
    h.deleted, fun tm htm => ?_⟩
  · refine forall_setCall _ _ n _ ⟨hok.read, rfl, hok.blobs.2⟩ fun m hmn => ?_
    exact callOk_frame fernet v.disk _ v.last v.last _ (h.calls m) (fun up _ => ⟨rfl, rfl⟩)
      (Or.inl (outside_of_ne fernet v h n m hmn hin))
  · obtain ⟨blob, hblob, _⟩ := h.saved u p hp
    refine ⟨blob, hblob, Or.inr ⟨n, ?_⟩⟩
    rw [setCall_self]
    exact hall u (by rw [hblob]; exact Option.some_ne_none blob)
  · have htm' : tm ∈ v.issued := htm
    rw [hissued] at htm'
    cases htm'

/-- A credential is put back under the new key. -/
theorem consistent_replaceEnc (v : Vault K T) (n inode : ℕ) (newKey : K) (w : Reencrypted T)
    (pending : List (Reencrypted T)) (h : Consistent fernet v)
    (hcall : v.calls n = .rotateReplace inode newKey (w :: pending)) :
    Consistent fernet (Vault.setCall
      { v with
        disk :=
          { v.disk with
            enc := v.disk.enc.write w.uuid w.blob
            encTmp := v.disk.encTmp.pop w.uuid } } n
      (.rotateReplace inode newKey pending)) := by
  have hin : (v.calls n).inside = true := by rw [hcall]; rfl
  have hok := h.calls n
  rw [hcall] at hok
  obtain ⟨hkey, hblobs⟩ := hok.blobs
  have hwrite : ∀ u, (v.disk.enc.write w.uuid w.blob).read u ≠ none ∨ u ≠ w.uuid := by
    intro u
    by_cases hu : u = w.uuid
    · subst hu
      exact Or.inl (by rw [Files.read_write_self]; exact Option.some_ne_none _)
    · exact Or.inr hu
  have hheld : ∀ (c : CallState K T), CallOk fernet v.disk v.last c → ∀ up ∈ c.snapshot,
      (v.disk.enc.write w.uuid w.blob).read up.1 ≠ none ∧
        ∀ q, v.last up.1 = some (.saved q) → q = up.2 := by
    intro c hc up hup
    refine ⟨?_, (hc.read up hup).2⟩
    rcases hwrite up.1 with hsome | hne
    · exact hsome
    · rw [Files.read_write_of_ne _ _ _ _ hne]
      exact (hc.read up hup).1
  refine ⟨?_, exclusive_setCall fernet v h n _ fun _ => Or.inl hin, fun u p hp => ?_,
    fun u hu => ?_, h.tokens⟩
  · refine forall_setCall _ _ n _ ⟨fun up hup => ?_, hkey, fun w' hw' => ?_⟩ fun m hmn => ?_
    · exact hheld _ hok up (List.mem_cons_of_mem w.entry hup)
    · exact hblobs w' (List.mem_cons_of_mem w hw')
    · exact ⟨hheld _ (h.calls m), blobsOk_outside fernet v.disk _ _
        (outside_of_ne fernet v h n m hmn hin) (h.calls m).blobs⟩
  · obtain ⟨blob, hblob, hopen⟩ := h.saved u p hp
    by_cases hu : u = w.uuid
    · subst hu
      have hpayload : p = w.payload := (hok.read w.entry List.mem_cons_self).2 p hp
      refine ⟨w.blob, Files.read_write_self _ _ _, Or.inl ⟨newKey, hkey, ?_⟩⟩
      rw [hpayload]
      exact hblobs w List.mem_cons_self
    · refine ⟨blob, (Files.read_write_of_ne _ _ _ _ hu).trans hblob, ?_⟩
      rcases hopen with hopen | ⟨m, hm⟩
      · exact Or.inl hopen
      · have hmn := h.exclusive m n (pending_inside _ _ hm) hin
        rw [hmn, hcall] at hm
        have hrest : u ∈ (CallState.rotateReplace (K := K) inode newKey pending).pending := by
          rcases List.mem_cons.mp hm with hm | hm
          · exact absurd hm hu
          · exact hm
        refine Or.inr ⟨n, ?_⟩
        rw [setCall_self]
        exact hrest
  · have hgone := h.deleted u hu
    have hne : u ≠ w.uuid := by
      rintro rfl
      exact (hok.read w.entry List.mem_cons_self).1 hgone
    exact (Files.read_write_of_ne _ _ _ _ hne).trans hgone

theorem consistent_rotateStep (v v' : Vault K T) (n : ℕ) (generated : K) (seed : S) (now : Instant)
    (c : CallState K T) (hcall : v.calls n = c) (h : Consistent fernet v)
    (hkey : ∀ inode newKey written, c = .rotateKeyReplace inode newKey written →
      v.issued = [] ∧ ∀ uuid, v.disk.enc.read uuid ≠ none → uuid ∈ written.map Reencrypted.uuid)
    (henc : ∀ inode newKey w pending, c = .rotateReplace inode newKey (w :: pending) →
      v.disk.encTmp.read w.uuid = some w.blob)
    (hstep : v.rotateStep fernet n generated seed now c = some v') : Consistent fernet v' := by
  have hok := h.calls n
  have hunlock : ∀ inode, (v.calls n).pending = [] →
      Consistent fernet (v.setCall n (.rotateUnlock inode)) := fun inode hpending =>
    consistent_leave fernet v n _ h hpending rfl (by simp [CallState.inside])
  cases c with
  | rotateList inode =>
    cases hstep
    exact consistent_inside fernet v v.disk n _ h (by rw [hcall]; rfl) rfl rfl
      (by rw [hcall]; exact fun u hu => hu) (fun up hup => absurd hup List.not_mem_nil) trivial
  | rotateGet inode todo snapshot =>
    cases todo with
    | nil =>
      cases hstep
      have hframe := applySteps_harmless [.copyBackup (toString now)]
        (fun s hs => by rw [List.mem_singleton.mp hs]; trivial) v.disk
      refine consistent_inside fernet v _ n _ h (by rw [hcall]; rfl) hframe.1 hframe.2
        (by rw [hcall]; exact fun u hu => hu) (fun up hup => ?_)
        fun w hw => absurd hw List.not_mem_nil
      rw [hcall]
      simpa [CallState.snapshot] using hup
    | cons uuid todo =>
      simp only [rotateStep] at hstep
      cases hread : v.disk.enc.read uuid with
      | none =>
        simp only [hread] at hstep
        cases hstep
        exact hunlock inode (by rw [hcall]; rfl)
      | some blob =>
        simp only [hread] at hstep
        cases hstep
        exact consistent_inside fernet v v.disk n _ h (by rw [hcall]; rfl) rfl rfl
          (by rw [hcall]; exact fun u hu => hu) (by rw [hcall]; exact fun up hup => hup) trivial
  | rotateRead inode uuid todo snapshot key =>
    simp only [rotateStep] at hstep
    cases hread : (v.disk.enc.read uuid).bind (readBlob fernet key) with
    | none =>
      simp only [hread] at hstep
      cases hstep
      exact hunlock inode (by rw [hcall]; rfl)
    | some p =>
      simp only [hread] at hstep
      cases hstep
      exact consistent_read fernet v n inode uuid todo snapshot key p h hcall hread
  | rotateTmp inode newKey todo written =>
    rw [hcall] at hok
    cases todo with
    | nil =>
      cases hstep
      refine consistent_inside fernet v _ n _ h (by rw [hcall]; rfl) rfl rfl
        (by rw [hcall]; exact fun u hu => hu) (fun up hup => ?_) ⟨rfl, hok.blobs⟩
      rw [hcall]
      exact hup
    | cons up todo =>
      cases hstep
      refine consistent_inside fernet v _ n _ h (by rw [hcall]; rfl) rfl rfl
        (by rw [hcall]; exact fun u hu => hu) (fun vq hvq => ?_) fun w hw => ?_
      · rw [hcall]
        simp only [CallState.snapshot, List.map_append, List.map_cons, List.map_nil,
          List.mem_append, List.mem_cons, List.not_mem_nil, or_false] at hvq ⊢
        rcases hvq with hvq | hvq | hvq
        · exact Or.inl (Or.inr hvq)
        · exact Or.inr hvq
        · exact Or.inl (Or.inl hvq)
      · rcases List.mem_append.mp hw with hw | hw
        · exact hok.blobs w hw
        · rw [List.mem_singleton.mp hw]
          exact readBlob_rotated fernet seed newKey up.2
  | rotateKeyReplace inode newKey written =>
    rw [hcall] at hok
    simp only [rotateStep, hok.blobs.1, RotationStep.apply] at hstep
    cases hstep
    obtain ⟨hissued, hall⟩ := hkey inode newKey written rfl
    exact consistent_replaceKey fernet v n inode newKey now written h hcall hissued hall
  | rotateReplace inode newKey pending =>
    cases pending with
    | nil =>
      cases hstep
      have hframe := applySteps_harmless
        ((v.disk.backups.items.filter fun b => b.2.mtime < now - 7 * 86400000000).map fun b =>
          RotationStep.unlinkBackup (K := K) (T := T) b.1)
        (fun s hs => by obtain ⟨b, _, rfl⟩ := List.mem_map.mp hs; trivial) v.disk
      have hdone := consistent_inside fernet v _ n (.rotateReplace inode newKey []) h
        (by rw [hcall]; rfl) hframe.1 hframe.2 (by rw [hcall]; exact fun u hu => hu)
        (fun up hup => absurd hup List.not_mem_nil)
        ⟨(by rw [hcall] at hok; exact hframe.1.trans hok.blobs.1),
          fun w hw => absurd hw List.not_mem_nil⟩
      have hleave := consistent_leave fernet _ n (.rotateUnlock inode) hdone
        (by rw [setCall_self]; rfl) rfl (by simp [CallState.inside])
      simpa [setCall] using hleave
    | cons w pending =>
      have htmp := henc inode newKey w pending rfl
      simp only [rotateStep, htmp, RotationStep.apply] at hstep
      cases hstep
      exact consistent_replaceEnc fernet v n inode newKey w pending h hcall
  | _ => cases hstep

/-! ### Runs -/

theorem consistent_start (v v' : Vault K T) (n : ℕ) (c : CallState K T) (h : Consistent fernet v)
    (hsnapshot : c.snapshot = [])
    (hblobs : (∀ uuid p key blob, c ≠ .saveReplace uuid p key blob) ∧ c.inside = false)
    (hstep : v.start n c = some v') : Consistent fernet v' := by
  cases hcall : v.calls n with
  | idle =>
    simp only [start, hcall] at hstep
    cases hstep
    exact consistent_leave fernet v n c h (by rw [hcall]; rfl) hsnapshot hblobs
  | _ => simp [start, hcall] at hstep

theorem consistent_advance (v v' : Vault K T) (n : ℕ) (generated : K) (seed : S) (now : Instant)
    (h : Consistent fernet v)
    (hG : Undisturbed v (.advance (K := K) (S := S) n generated seed now))
    (hstep : v.advance fernet n generated seed now = some v') : Consistent fernet v' := by
  cases hcall : v.calls n with
  | idle => simp [advance, hcall] at hstep
  | keyExists next =>
    simp only [advance, hcall] at hstep
    exact consistent_keyStep fernet v v' n generated seed now _ hcall h (fun _ hc => by cases hc) hstep
  | keyRead next =>
    simp only [advance, hcall] at hstep
    exact consistent_keyStep fernet v v' n generated seed now _ hcall h (fun _ hc => by cases hc) hstep
  | keyCreate next =>
    simp only [advance, hcall] at hstep
    simp only [Undisturbed, hcall] at hG
    exact consistent_keyStep fernet v v' n generated seed now _ hcall h (fun _ _ => hG) hstep
  | saveTmp uuid p key =>
    simp only [advance, hcall] at hstep
    exact consistent_fileStep fernet v v' n seed _ hcall h (fun _ _ _ _ hc => by cases hc)
      (fun _ hc => by cases hc) hstep
  | saveReplace uuid p key blob =>
    simp only [advance, hcall] at hstep
    simp only [Undisturbed, hcall] at hG
    refine consistent_fileStep fernet v v' n seed _ hcall h (fun _ _ _ _ hc => ?_)
      (fun _ hc => by cases hc) hstep
    cases hc
    exact hG
  | deleteExists uuid =>
    simp only [advance, hcall] at hstep
    exact consistent_fileStep fernet v v' n seed _ hcall h (fun _ _ _ _ hc => by cases hc)
      (fun _ hc => by cases hc) hstep
  | deleteUnlink uuid =>
    simp only [advance, hcall] at hstep
    simp only [Undisturbed, hcall] at hG
    refine consistent_fileStep fernet v v' n seed _ hcall h (fun _ _ _ _ hc => by cases hc)
      (fun _ hc => ?_) hstep
    cases hc
    exact hG
  | rotateExists =>
    simp only [advance, hcall] at hstep
    exact consistent_lockStep fernet v v' n _ hcall h (fun _ hc => by cases hc) hstep
  | rotateOpen =>
    simp only [advance, hcall] at hstep
    exact consistent_lockStep fernet v v' n _ hcall h (fun _ hc => by cases hc) hstep
  | rotateFlock inode =>
    simp only [advance, hcall] at hstep
    simp only [Undisturbed, hcall] at hG
    refine consistent_lockStep fernet v v' n _ hcall h (fun _ hc => ?_) hstep
    cases hc
    exact hG
  | rotateUnlock inode =>
    simp only [advance, hcall] at hstep
    exact consistent_lockStep fernet v v' n _ hcall h (fun _ hc => by cases hc) hstep
  | rotateUnlink =>
    simp only [advance, hcall] at hstep
    exact consistent_lockStep fernet v v' n _ hcall h (fun _ hc => by cases hc) hstep
  | rotateKeyReplace inode newKey written =>
    simp only [advance, hcall] at hstep
    simp only [Undisturbed, hcall] at hG
    refine consistent_rotateStep fernet v v' n generated seed now _ hcall h (fun _ _ _ hc => ?_)
      (fun _ _ _ _ hc => by cases hc) hstep
    cases hc
    exact hG
  | rotateReplace inode newKey pending =>
    simp only [advance, hcall] at hstep
    simp only [Undisturbed, hcall] at hG
    refine consistent_rotateStep fernet v v' n generated seed now _ hcall h
      (fun _ _ _ hc => by cases hc) (fun _ _ _ _ hc => ?_) hstep
    cases hc
    exact hG
  | rotateList inode =>
    simp only [advance, hcall] at hstep
    exact consistent_rotateStep fernet v v' n generated seed now _ hcall h
      (fun _ _ _ hc => by cases hc) (fun _ _ _ _ hc => by cases hc) hstep
  | rotateGet inode todo snapshot =>
    simp only [advance, hcall] at hstep
    exact consistent_rotateStep fernet v v' n generated seed now _ hcall h
      (fun _ _ _ hc => by cases hc) (fun _ _ _ _ hc => by cases hc) hstep
  | rotateRead inode uuid todo snapshot key =>
    simp only [advance, hcall] at hstep
    exact consistent_rotateStep fernet v v' n generated seed now _ hcall h
      (fun _ _ _ hc => by cases hc) (fun _ _ _ _ hc => by cases hc) hstep
  | rotateTmp inode newKey todo written =>
    simp only [advance, hcall] at hstep
    exact consistent_rotateStep fernet v v' n generated seed now _ hcall h
      (fun _ _ _ hc => by cases hc) (fun _ _ _ _ hc => by cases hc) hstep

/-- Every step that disturbs no other call keeps the invariant. -/
theorem consistent_step (v : Vault K T) (l : VaultStep K S) (v' : Vault K T) (h : Consistent fernet v)
    (hG : Undisturbed v l) (hstep : v.step fernet l = some v') : Consistent fernet v' := by
  cases l with
  | startSave n uuid p =>
    exact consistent_start fernet v v' n _ h rfl (by simp [CallState.inside, Purpose.inside]) hstep
  | startDelete n uuid =>
    exact consistent_start fernet v v' n _ h rfl (by simp [CallState.inside]) hstep
  | startEncrypt n text =>
    exact consistent_start fernet v v' n _ h rfl (by simp [CallState.inside, Purpose.inside]) hstep
  | startRotate n =>
    have hstarted : Consistent fernet { v with rotationStarted := true } :=
      ⟨h.calls, h.exclusive, h.saved, h.deleted, h.tokens⟩
    exact consistent_start fernet _ v' n _ hstarted rfl (by simp [CallState.inside]) hstep
  | advance n generated seed now =>
    exact consistent_advance fernet v v' n generated seed now h hG hstep

theorem upToDate_of_consistent (v : Vault K T) (h : Consistent fernet v) (hdone : v.Finished) :
    UpToDate fernet v := by
  refine ⟨fun uuid p hp generated now => ?_, h.deleted, fun tm htm generated now => ?_⟩
  · obtain ⟨blob, hblob, ⟨key, hkey, hread⟩ | ⟨n, hn⟩⟩ := h.saved uuid p hp
    · simp only [getKeysByUuid, hblob, loadOrCreateUserKey, hkey]
      exact hread
    · rw [hdone n] at hn
      cases hn
  · obtain ⟨key, hkey, hdec⟩ := h.tokens tm htm
    simp only [decryptForUser, loadOrCreateUserKey, hkey, hdec, Option.bind_some, Plaintext.text?]

/-- When all calls of a run have finished that disturbed no other call, the
files are as the last completed operations say. -/
theorem upToDate_run (ls : List (VaultStep K S)) (v : Vault K T)
    (hG : Machine.Guarded (step fernet) Undisturbed {} ls)
    (hrun : Machine.run (step fernet) {} ls = some v) (hdone : v.Finished) : UpToDate fernet v := by
  have hinv := Machine.run_invariant (step fernet) (fun _ => True) Undisturbed (Consistent fernet)
    (fun v l v' _ => consistent_step fernet v l v') {} v ls (consistent_new fernet)
    (fun _ _ => trivial) hG hrun
  exact upToDate_of_consistent fernet v hinv hdone

/-- Two threads save a credential each; neither finds a key, and each creates one. -/
def firstUseRace : List (VaultStep ℕ Unit) :=
  [.startSave 0 "a" ⟨"key-a", "secret-a", ""⟩, .startSave 1 "b" ⟨"key-b", "secret-b", ""⟩,
    .advance 0 0 () 0, .advance 1 0 () 0, .advance 0 7 () 1, .advance 1 8 () 2,
    .advance 0 0 () 3, .advance 0 0 () 3, .advance 1 0 () 4, .advance 1 0 () 4]

/-- The first of the two credentials is lost. -/
theorem firstUse_loses_credential :
    ¬ ∀ (K S T : Type) (fernet : AuthCipher K S Plaintext T) (ls : List (VaultStep K S))
      (v : Vault K T), Machine.run (step fernet) {} ls = some v → v.Finished → UpToDate fernet v := by
  intro h
  have hend : ∃ v, Machine.run (step numbered) {} firstUseRace = some v ∧ v.Finished ∧
      v.last "a" = some (.saved ⟨"key-a", "secret-a", ""⟩) ∧
      (getKeysByUuid numbered 0 0 "a" v.disk).1 = none := by
    refine ⟨_, rfl, fun n => ?_, by decide +kernel, by decide +kernel⟩
    by_cases hzero : n = 0
    · subst hzero
      rfl
    · by_cases hone : n = 1
      · subst hone
        rfl
      · simp [complete, withKey, setCall, hzero, hone]
  obtain ⟨v, hrun, hdone, hlast, hlost⟩ := hend
  have hkept := (h ℕ Unit _ numbered firstUseRace v hrun hdone).1 "a" _ hlast 0 0
  rw [hlost] at hkept
  cases hkept

/-- A save, and a rotation after it. -/
def saveThenRotate : List (VaultStep ℕ Unit) :=
  [.startSave 0 "a" ⟨"key-a", "secret-a", ""⟩, .advance 0 0 () 0, .advance 0 7 () 0,
    .advance 0 0 () 0, .advance 0 0 () 0, .startRotate 1]
    ++ List.replicate 16 (.advance 1 8 () 1)

theorem saveThenRotate_upToDate :
    ∃ v, Machine.run (step numbered) {} saveThenRotate = some v ∧ UpToDate numbered v := by
  refine ⟨_, rfl, upToDate_run numbered saveThenRotate _ ?_ rfl fun n => ?_⟩
  · refine Machine.guarded_cons _ _ _ _ _ _ trivial rfl ?_
    refine Machine.guarded_cons _ _ _ _ _ _ trivial rfl ?_
    refine Machine.guarded_cons _ _ _ _ _ _ rfl rfl ?_
    refine Machine.guarded_cons _ _ _ _ _ _ trivial rfl ?_
    refine Machine.guarded_cons _ _ _ _ _ _ (Or.inr ⟨rfl, rfl, fun m => ?_⟩) rfl ?_
    · by_cases hzero : m = 0
      · subst hzero
        simp [setCall, withKey, CallState.snapshot]
      · simp [setCall, withKey, Function.update_of_ne, hzero, CallState.snapshot]
    refine Machine.guarded_cons _ _ _ _ _ _ trivial rfl ?_
    refine Machine.guarded_cons _ _ _ _ _ _ trivial rfl ?_
    refine Machine.guarded_cons _ _ _ _ _ _ trivial rfl ?_
    refine Machine.guarded_cons _ _ _ _ _ _ (Or.inr fun m => ?_) rfl ?_
    · by_cases hzero : m = 0
      · subst hzero
        simp [setCall, withKey, complete, CallState.inside]
      · by_cases hone : m = 1
        · subst hone
          simp [setCall, withKey, complete, CallState.inside]
        · simp [setCall, withKey, complete, Function.update_of_ne, hone, CallState.inside]
    refine Machine.guarded_cons _ _ _ _ _ _ trivial rfl ?_
    refine Machine.guarded_cons _ _ _ _ _ _ trivial rfl ?_
    refine Machine.guarded_cons _ _ _ _ _ _ trivial rfl ?_
    refine Machine.guarded_cons _ _ _ _ _ _ trivial rfl ?_
    refine Machine.guarded_cons _ _ _ _ _ _ trivial rfl ?_
    refine Machine.guarded_cons _ _ _ _ _ _ trivial rfl ?_
    refine Machine.guarded_cons _ _ _ _ _ _ trivial rfl ?_
    refine Machine.guarded_cons _ _ _ _ _ _ trivial rfl ?_
    refine Machine.guarded_cons _ _ _ _ _ _ ⟨rfl, fun uuid huuid => ?_⟩ rfl ?_
    · have hmem := (Files.mem_stems_iff _ uuid).mpr huuid
      exact hmem
    refine Machine.guarded_cons _ _ _ _ _ _ rfl rfl ?_
    refine Machine.guarded_cons _ _ _ _ _ _ trivial rfl ?_
    refine Machine.guarded_cons _ _ _ _ _ _ trivial rfl ?_
    refine Machine.guarded_cons _ _ _ _ _ _ trivial rfl ?_
    trivial
  · by_cases hzero : n = 0
    · subst hzero
      rfl
    · by_cases hone : n = 1
      · subst hone
        rfl
      · simp [complete, withKey, setCall]

end Vault

end FernetCredentialProvider

end Reverto
