import Mathlib.Tactic
import Reverto.Lib.AuthCipher
import Reverto.Lib.KeyedDict
import Reverto.Paper.PaperState

/-!
# Credential storage (core/credentials.py)

The files of one user and the methods of `FernetCredentialProvider`, run one
after the other. Fernet is a correct authenticated cipher; `Fernet.generate_key`
and the random part of a token are inputs.
-/

namespace Reverto

/-- A plaintext: the bytes of `json.dumps` of a dict of strings, or a string. -/
inductive Plaintext where
  | json (fields : List (String × String))
  | utf8 (text : String)
  deriving DecidableEq, Repr

/-- `json.loads` where the result is a dict; `.enc` files hold nothing else. -/
def Plaintext.loads : Plaintext → Option (List (String × String))
  | .json fields => some fields
  | .utf8 _ => none

/-- The string a plaintext decodes to; tokens of `encrypt_for_user` hold nothing else. -/
def Plaintext.text? : Plaintext → Option String
  | .json _ => none
  | .utf8 text => some text

/-- The dict of `get_keys_by_uuid`. -/
structure Credentials where
  apiKey : String
  apiSecret : String
  passphrase : String := ""
  deriving DecidableEq, Repr

namespace Credentials

/-- `data.get(name, "")` -/
def field (fields : List (String × String)) (name : String) : String :=
  (fields.lookup name).getD ""

/-- The dict `save_keys_by_uuid` encrypts: an empty passphrase is left out. -/
def saved (p : Credentials) : Plaintext :=
  .json ([("api_key", p.apiKey), ("api_secret", p.apiSecret)] ++
    if p.passphrase ≠ "" then [("passphrase", p.passphrase)] else [])

/-- The dict `rotate_user_key` encrypts. -/
def rotated (p : Credentials) : Plaintext :=
  .json [("api_key", p.apiKey), ("api_secret", p.apiSecret), ("passphrase", p.passphrase)]

/-- What `get_keys_by_uuid` makes of a decrypted blob. -/
def ofPlaintext (m : Plaintext) : Option Credentials :=
  m.loads.map fun fields =>
    ⟨field fields "api_key", field fields "api_secret", field fields "passphrase"⟩

@[simp] theorem ofPlaintext_saved (p : Credentials) : ofPlaintext p.saved = some p := by
  obtain ⟨k, s, passphrase⟩ := p
  by_cases h : passphrase = ""
  · simp [ofPlaintext, saved, Plaintext.loads, field, h, List.lookup_cons]
  · simp [ofPlaintext, saved, Plaintext.loads, field, h, List.lookup_cons]

@[simp] theorem ofPlaintext_rotated (p : Credentials) : ofPlaintext p.rotated = some p := by
  simp [ofPlaintext, rotated, Plaintext.loads, field, List.lookup_cons]

end Credentials

/-- The files of a directory under their stems. -/
abbrev Files (α : Type) := KeyedDict (Prod.fst : String × α → String)

/-- A backup of a key, with the mtime `copy2` took over. -/
structure KeyBackup (K : Type) where
  key : K
  mtime : Instant
  deriving DecidableEq

/-- The files of one user: `keys/<user>.key` with its `.tmp` and `.bak.<ts>`
siblings, and `credentials/<user>/<uuid>.enc` with their `.tmp` siblings. -/
structure Disk (K T : Type) where
  key : Option K := none
  keyMtime : Instant := 0
  keyTmp : Option K := none
  backups : Files (KeyBackup K) := KeyedDict.empty
  enc : Files T := KeyedDict.empty
  encTmp : Files T := KeyedDict.empty

namespace Files

variable {α : Type}

/-- The content of a file. -/
def read (d : Files α) (name : String) : Option α := (d.get? name).map Prod.snd

/-- Write a file, whether it exists or not. -/
def write (d : Files α) (name : String) (content : α) : Files α := d.set (name, content)

@[simp] theorem read_empty (name : String) : read (KeyedDict.empty : Files α) name = none := rfl

@[simp] theorem read_write_self (d : Files α) (name : String) (a : α) :
    (d.write name a).read name = some a := by
  have hset := KeyedDict.get?_set_self d (name, a)
  simp only [read, write, hset, Option.map_some]

theorem read_write_of_ne (d : Files α) (name other : String) (a : α) (h : other ≠ name) :
    (d.write name a).read other = d.read other := by
  have hset := KeyedDict.get?_set_of_ne d (name, a) other h
  simp only [read, write, hset]

@[simp] theorem read_pop_self (d : Files α) (name : String) : read (d.pop name) name = none := by
  simp only [read, KeyedDict.get?_pop_self, Option.map_none]

theorem read_pop_of_ne (d : Files α) (name other : String) (h : other ≠ name) :
    read (d.pop name) other = d.read other := by
  simp only [read, KeyedDict.get?_pop_of_ne d name other h]

theorem mem_stems_iff (d : Files α) (name : String) :
    name ∈ d.items.map Prod.fst ↔ d.read name ≠ none := by
  rw [read, Ne, Option.map_eq_none_iff, KeyedDict.get?_eq_none_iff, not_not]

end Files

namespace FernetCredentialProvider

variable {K S T : Type} (fernet : AuthCipher K S Plaintext T)

/-- `_load_or_create_user_key` -/
def loadOrCreateUserKey (generated : K) (now : Instant) (d : Disk K T) : K × Disk K T :=
  match d.key with
  | some key => (key, d)
  | none => (generated, { d with key := some generated, keyMtime := now })

/-- `save_keys_by_uuid` -/
def saveKeysByUuid (generated : K) (seed : S) (now : Instant) (uuid : String) (p : Credentials)
    (d : Disk K T) : Disk K T :=
  let (key, d) := loadOrCreateUserKey generated now d
  { d with
    enc := d.enc.write uuid (fernet.encrypt key seed p.saved)
    encTmp := d.encTmp.pop uuid }

/-- A blob under a key, as `get_keys_by_uuid` reads it. -/
def readBlob (key : K) (blob : T) : Option Credentials :=
  (fernet.decrypt key blob).bind Credentials.ofPlaintext

/-- `get_keys_by_uuid` -/
def getKeysByUuid (generated : K) (now : Instant) (uuid : String) (d : Disk K T) :
    Option Credentials × Disk K T :=
  match d.enc.read uuid with
  | none => (none, d)
  | some blob =>
    let (key, d) := loadOrCreateUserKey generated now d
    (readBlob fernet key blob, d)

/-- `delete_keys_by_uuid` -/
def deleteKeysByUuid (uuid : String) (d : Disk K T) : Bool × Disk K T :=
  match d.enc.read uuid with
  | none => (false, d)
  | some _ => (true, { d with enc := d.enc.pop uuid })

/-- `encrypt_for_user` -/
def encryptForUser (generated : K) (seed : S) (now : Instant) (text : String) (d : Disk K T) :
    T × Disk K T :=
  let (key, d) := loadOrCreateUserKey generated now d
  (fernet.encrypt key seed (.utf8 text), d)

/-- `decrypt_for_user`; `none` is an `InvalidToken`. -/
def decryptForUser (generated : K) (now : Instant) (token : T) (d : Disk K T) :
    Option String × Disk K T :=
  let (key, d) := loadOrCreateUserKey generated now d
  ((fernet.decrypt key token).bind Plaintext.text?, d)

/-! ### Rotation -/

/-- Why `rotate_user_key` raises. -/
inductive RotationError where
  | noMasterKey
  | undecryptable (uuid : String)
  deriving DecidableEq, Repr

/-- What a rotation takes from its surroundings. -/
structure RotationInput (K S : Type) where
  newKey : K
  seed : String → S
  timestamp : String
  now : Instant
  retentionDays : ℤ := 7

/-- The elementary changes a rotation makes to the files. -/
inductive RotationStep (K T : Type) where
  | copyBackup (timestamp : String)
  | writeTmp (uuid : String) (blob : T)
  | writeKeyTmp (key : K)
  | replaceKey (now : Instant)
  | replaceEnc (uuid : String)
  | unlinkBackup (timestamp : String)

/-- One elementary change; `os.replace` moves a tmp file over its target. -/
def RotationStep.apply (d : Disk K T) : RotationStep K T → Disk K T
  | .copyBackup timestamp =>
    match d.key with
    | some key => { d with backups := d.backups.write timestamp ⟨key, d.keyMtime⟩ }
    | none => d
  | .writeTmp uuid blob => { d with encTmp := d.encTmp.write uuid blob }
  | .writeKeyTmp key => { d with keyTmp := some key }
  | .replaceKey now =>
    match d.keyTmp with
    | some key => { d with key := some key, keyMtime := now, keyTmp := none }
    | none => d
  | .replaceEnc uuid =>
    match d.encTmp.read uuid with
    | some blob => { d with enc := d.enc.write uuid blob, encTmp := d.encTmp.pop uuid }
    | none => d
  | .unlinkBackup timestamp => { d with backups := d.backups.pop timestamp }

/-- The elementary changes in turn. -/
def applySteps (steps : List (RotationStep K T)) (d : Disk K T) : Disk K T :=
  steps.foldl RotationStep.apply d

/-- `_list_uuids_with_keys` -/
def listUuidsWithKeys (d : Disk K T) : List String :=
  (d.enc.items.map Prod.fst).insertionSort (· ≤ ·)

/-- The loop that decrypts every stored credential under the current key. -/
def readAll (d : Disk K T) (key : K) : List String → Except String (List (String × Credentials))
  | [] => .ok []
  | uuid :: uuids =>
    match (d.enc.read uuid).bind (readBlob fernet key) with
    | none => .error uuid
    | some p => (readAll d key uuids).map fun rest => (uuid, p) :: rest

/-- The changes up to the replacement of the key. -/
def prepareSteps (inp : RotationInput K S) (plaintext : List (String × Credentials)) :
    List (RotationStep K T) :=
  .copyBackup inp.timestamp
    :: plaintext.map (fun up =>
      .writeTmp up.1 (fernet.encrypt inp.newKey (inp.seed up.1) up.2.rotated))
    ++ [.writeKeyTmp inp.newKey]

/-- The replacements, the key first. -/
def commitSteps (inp : RotationInput K S) (plaintext : List (String × Credentials)) :
    List (RotationStep K T) :=
  .replaceKey inp.now :: plaintext.map fun up => .replaceEnc up.1

/-- `cleanup_old_backups`: the names it removes. -/
def oldBackups (inp : RotationInput K S) (d : Disk K T) : List String :=
  (d.backups.items.filter fun b => b.2.mtime < inp.now - inp.retentionDays * 86400000000).map
    Prod.fst

/-- Every change of a rotation that decrypted the credentials. -/
def rotationSteps (inp : RotationInput K S) (plaintext : List (String × Credentials))
    (d : Disk K T) : List (RotationStep K T) :=
  let steps := prepareSteps fernet inp plaintext ++ commitSteps inp plaintext
  steps ++ (oldBackups inp (applySteps steps d)).map .unlinkBackup

/-- The dict of `rotate_user_key`. -/
structure RotationResult where
  backup : String
  keysRotated : List String
  backupsRemoved : List String
  deriving DecidableEq, Repr

/-- `rotate_user_key` -/
def rotateUserKey (inp : RotationInput K S) (d : Disk K T) :
    Except RotationError (RotationResult × Disk K T) :=
  match d.key with
  | none => .error .noMasterKey
  | some key =>
    match readAll fernet d key (listUuidsWithKeys d) with
    | .error uuid => .error (.undecryptable uuid)
    | .ok plaintext =>
      let steps := prepareSteps fernet inp plaintext ++ commitSteps inp plaintext
      .ok
        (⟨inp.timestamp, plaintext.map Prod.fst, oldBackups inp (applySteps steps d)⟩,
          applySteps (rotationSteps fernet inp plaintext d) d)

end FernetCredentialProvider

end Reverto
