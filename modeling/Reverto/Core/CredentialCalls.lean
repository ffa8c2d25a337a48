import Mathlib.Tactic
import Reverto.Core.Credentials
import Reverto.Lib.Machine

/-!
# Concurrent calls of the credential provider

The methods of `FernetCredentialProvider` for one user, each call in a thread of
its own that makes one file-system step at a time. Only rotations take the
advisory lock on `<user>.key.lock`.
-/

namespace Reverto

namespace FernetCredentialProvider

/-- A re-encrypted credential and the blob in its tmp file. -/
structure Reencrypted (T : Type) where
  uuid : String
  payload : Credentials
  blob : T
  deriving DecidableEq

/-- What a call wants the user key for. -/
inductive Purpose where
  | save (uuid : String) (p : Credentials)
  | encrypt (text : String)
  | rotate (inode : ℕ) (uuid : String) (todo : List String)
      (snapshot : List (String × Credentials))
  deriving DecidableEq

/-- Where a call is: its next file-system step. -/
inductive CallState (K T : Type) where
  | idle
  | keyExists (next : Purpose)
  | keyRead (next : Purpose)
  | keyCreate (next : Purpose)
  | saveTmp (uuid : String) (p : Credentials) (key : K)
  | saveReplace (uuid : String) (p : Credentials) (key : K) (blob : T)
  | deleteExists (uuid : String)
  | deleteUnlink (uuid : String)
  | rotateExists
  | rotateOpen
  | rotateFlock (inode : ℕ)
  | rotateList (inode : ℕ)
  | rotateGet (inode : ℕ) (todo : List String) (snapshot : List (String × Credentials))
  | rotateRead (inode : ℕ) (uuid : String) (todo : List String)
      (snapshot : List (String × Credentials)) (key : K)
  | rotateTmp (inode : ℕ) (newKey : K) (todo : List (String × Credentials))
      (written : List (Reencrypted T))
  | rotateKeyReplace (inode : ℕ) (newKey : K) (written : List (Reencrypted T))
  | rotateReplace (inode : ℕ) (newKey : K) (pending : List (Reencrypted T))
  | rotateUnlock (inode : ℕ)
  | rotateUnlink
  deriving DecidableEq

/-- The last completed operation on a uuid. -/
inductive LastOp where
  | saved (p : Credentials)
  | deleted
  deriving DecidableEq

/-- The files, the lock file and its holders, the calls, and what they have
completed: the last operation on each uuid and the tokens returned before any
rotation started. -/
structure Vault (K T : Type) where
  disk : Disk K T := {}
  lockFile : Option ℕ := none
  nextInode : ℕ := 0
  holder : ℕ → Option ℕ := fun _ => none
  calls : ℕ → CallState K T := fun _ => .idle
  rotationStarted : Bool := false
  last : String → Option LastOp := fun _ => none
  issued : List (T × String) := []

/-- A thread begins a call or makes the next file-system step of its call. What
the step generates or reads from the clock is in the label. -/
inductive VaultStep (K S : Type) where
  | startSave (thread : ℕ) (uuid : String) (p : Credentials)
  | startDelete (thread : ℕ) (uuid : String)
  | startEncrypt (thread : ℕ) (text : String)
  | startRotate (thread : ℕ)
  | advance (thread : ℕ) (generated : K) (seed : S) (now : Instant)

namespace Vault

variable {K S T : Type} (fernet : AuthCipher K S Plaintext T)

/-- A thread moves on. -/
def setCall (v : Vault K T) (n : ℕ) (c : CallState K T) : Vault K T :=
  { v with calls := Function.update v.calls n c }

/-- A call gives up: a rotation lets go of its lock, the others raise. -/
def abandon (v : Vault K T) (n : ℕ) : Purpose → Vault K T
  | .rotate inode _ _ _ => v.setCall n (.rotateUnlock inode)
  | _ => v.setCall n .idle

/-- A call has the user key. -/
def withKey (v : Vault K T) (n : ℕ) (key : K) (seed : S) : Purpose → Vault K T
  | .save uuid p => v.setCall n (.saveTmp uuid p key)
  | .encrypt text =>
    { v.setCall n .idle with
      issued :=
        if v.rotationStarted then v.issued
        else v.issued ++ [(fernet.encrypt key seed (.utf8 text), text)] }
  | .rotate inode uuid todo snapshot => v.setCall n (.rotateRead inode uuid todo snapshot key)

/-- An operation on a uuid is completed. -/
def complete (v : Vault K T) (n : ℕ) (uuid : String) (op : LastOp) : Vault K T :=
  { v.setCall n .idle with last := Function.update v.last uuid (some op) }

/-- The steps of `_load_or_create_user_key`. -/
def keyStep (v : Vault K T) (n : ℕ) (generated : K) (seed : S) (now : Instant) :
    CallState K T → Option (Vault K T)
  | .keyExists next =>
    some (v.setCall n (if v.disk.key.isSome then .keyRead next else .keyCreate next))
  | .keyRead next =>
    match v.disk.key with
    | none => some (v.abandon n next)
    | some key => some (v.withKey fernet n key seed next)
  | .keyCreate next =>
    some (Vault.withKey fernet
      { v with disk := { v.disk with key := some generated, keyMtime := now } } n generated seed next)
  | _ => none

/-- The steps of `save_keys_by_uuid` and `delete_keys_by_uuid`. -/
def fileStep (v : Vault K T) (n : ℕ) (seed : S) : CallState K T → Option (Vault K T)
  | .saveTmp uuid p key =>
    let blob := fernet.encrypt key seed p.saved
    some (Vault.setCall { v with disk := { v.disk with encTmp := v.disk.encTmp.write uuid blob } } n
      (.saveReplace uuid p key blob))
  | .saveReplace uuid p _ _ =>
    match v.disk.encTmp.read uuid with
    | none => some (v.setCall n .idle)
    | some blob =>
      some (Vault.complete
        { v with
          disk :=
            { v.disk with
              enc := v.disk.enc.write uuid blob
              encTmp := v.disk.encTmp.pop uuid } } n uuid (.saved p))
  | .deleteExists uuid =>
    match v.disk.enc.read uuid with
    | none => some (v.complete n uuid .deleted)
    | some _ => some (v.setCall n (.deleteUnlink uuid))
  | .deleteUnlink uuid =>
    -- a file that is gone by now makes `unlink` fail, and the call returns False
    some (Vault.complete { v with disk := { v.disk with enc := v.disk.enc.pop uuid } } n uuid
      .deleted)
  | _ => none

/-- The steps around the lock of a rotation. -/
def lockStep (v : Vault K T) (n : ℕ) : CallState K T → Option (Vault K T)
  | .rotateExists => some (v.setCall n (if v.disk.key.isSome then .rotateOpen else .idle))
  | .rotateOpen =>
    match v.lockFile with
    | some inode => some (v.setCall n (.rotateFlock inode))
    | none =>
      some (Vault.setCall { v with lockFile := some v.nextInode, nextInode := v.nextInode + 1 } n
        (.rotateFlock v.nextInode))
  | .rotateFlock inode =>
    match v.holder inode with
    | none =>
      some (Vault.setCall { v with holder := Function.update v.holder inode (some n) } n
        (.rotateList inode))
    | some _ => some (v.setCall n .rotateUnlink)
  | .rotateUnlock inode =>
    some (Vault.setCall { v with holder := Function.update v.holder inode none } n .rotateUnlink)
  | .rotateUnlink => some (Vault.setCall { v with lockFile := none } n .idle)
  | _ => none

/-- The steps of `rotate_user_key` under the lock. -/
def rotateStep (v : Vault K T) (n : ℕ) (generated : K) (seed : S) (now : Instant) :
    CallState K T → Option (Vault K T)
  | .rotateList inode => some (v.setCall n (.rotateGet inode (listUuidsWithKeys v.disk) []))
  | .rotateGet inode (uuid :: todo) snapshot =>
    match v.disk.enc.read uuid with
    | none => some (v.setCall n (.rotateUnlock inode))
    | some _ => some (v.setCall n (.keyExists (.rotate inode uuid todo snapshot)))
  | .rotateRead inode uuid todo snapshot key =>
    match (v.disk.enc.read uuid).bind (readBlob fernet key) with
    | none => some (v.setCall n (.rotateUnlock inode))
    | some p => some (v.setCall n (.rotateGet inode todo (snapshot ++ [(uuid, p)])))
  | .rotateGet inode [] snapshot =>
    some (Vault.setCall { v with disk := RotationStep.apply v.disk (.copyBackup (toString now)) } n
      (.rotateTmp inode generated snapshot []))
  | .rotateTmp inode newKey ((uuid, p) :: todo) written =>
    let blob := fernet.encrypt newKey seed p.rotated
    some (Vault.setCall { v with disk := RotationStep.apply v.disk (.writeTmp uuid blob) } n
      (.rotateTmp inode newKey todo (written ++ [⟨uuid, p, blob⟩])))
  | .rotateTmp inode newKey [] written =>
    some (Vault.setCall { v with disk := RotationStep.apply v.disk (.writeKeyTmp newKey) } n
      (.rotateKeyReplace inode newKey written))
  | .rotateKeyReplace inode newKey written =>
    match v.disk.keyTmp with
    | none => some (v.setCall n (.rotateUnlock inode))
    | some _ =>
      some (Vault.setCall { v with disk := RotationStep.apply v.disk (.replaceKey now) } n
        (.rotateReplace inode newKey written))
  | .rotateReplace inode newKey (w :: pending) =>
    match v.disk.encTmp.read w.uuid with
    | none => some (v.setCall n (.rotateUnlock inode))
    | some _ =>
      some (Vault.setCall { v with disk := RotationStep.apply v.disk (.replaceEnc w.uuid) } n
        (.rotateReplace inode newKey pending))
  | .rotateReplace inode _ [] =>
    -- `cleanup_old_backups` with the default retention
    let old := v.disk.backups.items.filter fun b => b.2.mtime < now - 7 * 86400000000
    some (Vault.setCall
      { v with disk := applySteps (old.map fun b => .unlinkBackup b.1) v.disk } n
      (.rotateUnlock inode))
  | _ => none

/-- The next file-system step of a call. -/
def advance (v : Vault K T) (n : ℕ) (generated : K) (seed : S) (now : Instant) :
    Option (Vault K T) :=
  match v.calls n with
  | .idle => none
  | c@(.keyExists _) | c@(.keyRead _) | c@(.keyCreate _) =>
    v.keyStep fernet n generated seed now c
  | c@(.saveTmp ..) | c@(.saveReplace ..) | c@(.deleteExists _) | c@(.deleteUnlink _) =>
    v.fileStep fernet n seed c
  | c@.rotateExists | c@.rotateOpen | c@(.rotateFlock _) | c@(.rotateUnlock _)
  | c@.rotateUnlink => v.lockStep n c
  | c => v.rotateStep fernet n generated seed now c

/-- A thread without a call begins one. -/
def start (v : Vault K T) (n : ℕ) (c : CallState K T) : Option (Vault K T) :=
  match v.calls n with
  | .idle => some (v.setCall n c)
  | _ => none

/-- One step of the system, if it is enabled. -/
def step (v : Vault K T) : VaultStep K S → Option (Vault K T)
  | .startSave n uuid p => v.start n (.keyExists (.save uuid p))
  | .startDelete n uuid => v.start n (.deleteExists uuid)
  | .startEncrypt n text => v.start n (.keyExists (.encrypt text))
  | .startRotate n => Vault.start { v with rotationStarted := true } n .rotateExists
  | .advance n generated seed now => v.advance fernet n generated seed now

/-- All calls have finished. -/
def Finished (v : Vault K T) : Prop := ∀ n, v.calls n = .idle

/-- Each uuid is as its last completed operation left it, and each token
returned before any rotation started decrypts. -/
def UpToDate (v : Vault K T) : Prop :=
  (∀ uuid p, v.last uuid = some (.saved p) → ∀ (generated : K) (now : Instant),
    (getKeysByUuid fernet generated now uuid v.disk).1 = some p) ∧
  (∀ uuid, v.last uuid = some .deleted → v.disk.enc.read uuid = none) ∧
  ∀ tm ∈ v.issued, ∀ (generated : K) (now : Instant),
    (decryptForUser fernet generated now tm.1 v.disk).1 = some tm.2

end Vault

end FernetCredentialProvider

end Reverto
