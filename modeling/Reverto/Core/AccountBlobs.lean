import Mathlib.Tactic
import Reverto.Core.ExchangeAccountStore

/-!
# Rows, blobs and defaults of the exchange accounts (core/exchange_account_store.py)

A row is written after its blob and removed before it, so that a crash leaves at
most a blob without a row. The flag of a bucket's default is set and cleared in
one transaction.
-/

namespace Reverto

namespace ExchangeAccountStore

open FernetCredentialProvider

variable {K S T : Type} (fernet : AuthCipher K S Plaintext T)

/-! ### Blobs -/

/-- A blob opens to the keys under the user's key. -/
def Opens (d : Disk K T) (uuid : String) (p : Credentials) : Prop :=
  ∃ key blob, d.key = some key ∧ d.enc.read uuid = some blob ∧ readBlob fernet key blob = some p

/-- Every blob but one still opens. -/
def KeepsOthers (uuid : String) (d d' : Disk K T) : Prop :=
  ∀ other p, other ≠ uuid → Opens fernet d other p → Opens fernet d' other p

theorem getKeysByUuid_opens (d : Disk K T) (uuid : String) (p : Credentials)
    (h : Opens fernet d uuid p) (generated : K) (now : Instant) :
    (getKeysByUuid fernet generated now uuid d).1 = some p := by
  obtain ⟨key, blob, hkey, hread, hblob⟩ := h
  simp only [getKeysByUuid, hread, loadOrCreateUserKey, hkey]
  exact hblob

theorem loadOrCreateUserKey_key (generated : K) (now : Instant) (d : Disk K T) :
    (loadOrCreateUserKey generated now d).2.key =
      some (loadOrCreateUserKey generated now d).1 := by
  unfold loadOrCreateUserKey
  cases hkey : d.key with
  | none => rfl
  | some key => exact hkey

theorem keepsOthers_loadOrCreate (uuid : String) (generated : K) (now : Instant) (d : Disk K T) :
    KeepsOthers fernet uuid d (loadOrCreateUserKey generated now d).2 := by
  intro other p _ h
  obtain ⟨key, blob, hkey, hopens⟩ := h
  have hsame : loadOrCreateUserKey generated now d = (key, d) := by
    simp only [loadOrCreateUserKey, hkey]
  rw [hsame]
  exact ⟨key, blob, hkey, hopens⟩

theorem keepsOthers_writeTmp (uuid : String) (blob : T) (d : Disk K T) :
    KeepsOthers fernet uuid d (RotationStep.apply d (.writeTmp uuid blob)) :=
  fun _ _ _ h => h

theorem keepsOthers_replaceEnc (uuid : String) (d : Disk K T) :
    KeepsOthers fernet uuid d (RotationStep.apply d (.replaceEnc uuid)) := by
  intro other p hne h
  obtain ⟨key, blob, hkey, hread, hopens⟩ := h
  cases htmp : d.encTmp.read uuid with
  | none =>
    simp only [RotationStep.apply, htmp]
    exact ⟨key, blob, hkey, hread, hopens⟩
  | some written =>
    simp only [RotationStep.apply, htmp]
    have hother := Files.read_write_of_ne d.enc uuid other written hne
    exact ⟨key, blob, hkey, hother.trans hread, hopens⟩

theorem keepsOthers_delete (uuid : String) (d : Disk K T) :
    KeepsOthers fernet uuid d (deleteKeysByUuid uuid d).2 := by
  intro other p hne h
  obtain ⟨key, blob, hkey, hread, hopens⟩ := h
  cases henc : d.enc.read uuid with
  | none =>
    simp only [deleteKeysByUuid, henc]
    exact ⟨key, blob, hkey, hread, hopens⟩
  | some removed =>
    simp only [deleteKeysByUuid, henc]
    have hother := Files.read_pop_of_ne d.enc uuid other hne
    exact ⟨key, blob, hkey, hother.trans hread, hopens⟩

/-- The steps of a save, one after the other, are `save_keys_by_uuid`. -/
theorem saveSteps_disk (generated : K) (seed : S) (now : Instant) (uuid : String) (p : Credentials)
    (d : Disk K T) :
    RotationStep.apply (RotationStep.apply (loadOrCreateUserKey generated now d).2
      (.writeTmp uuid (fernet.encrypt (loadOrCreateUserKey generated now d).1 seed p.saved)))
        (.replaceEnc uuid) = saveKeysByUuid fernet generated seed now uuid p d := by
  have hpop : ∀ (files : Files T) (blob : T), (files.write uuid blob).pop uuid = files.pop uuid :=
    fun files blob => KeyedDict.pop_set_self files (uuid, blob)
  simp only [RotationStep.apply, Files.read_write_self, hpop, saveKeysByUuid]

/-! ### The rows -/

/-- Two defaults of one bucket are one account. -/
def OneDefault (rows : Accounts) : Prop :=
  ∀ a ∈ rows.items, ∀ b ∈ rows.items, a.userId = b.userId → a.exchangeType = b.exchangeType →
    a.isDefault = true → b.isDefault = true → a.id = b.id

/-- No row names the blob. -/
def Unused (rows : Accounts) (uuid : String) : Prop :=
  ∀ a ∈ rows.items, a.credentialsUuid ≠ uuid

/-- What holds of the table and the files between any two steps. -/
structure RowsOk (rows : Accounts) (lastId : ℕ) (disks : ℕ → Disk K T)
    (created : List (ℕ × Credentials)) : Prop where
  ids : ∀ a ∈ rows.items, a.id ≤ lastId
  createdIds : ∀ e ∈ created, e.1 ≤ lastId
  blobs : ∀ a ∈ rows.items, ∃ p, (∀ q, (a.id, q) ∈ created ↔ q = p) ∧
    Opens fernet (disks a.userId) a.credentialsUuid p
  uuids : (rows.items.map ExchangeAccount.credentialsUuid).Nodup

/-- What the call in progress relies on. -/
def CallOk (rows : Accounts) (disks : ℕ → Disk K T) : AccountCall K T → Prop
  | .idle => True
  | .saveKey _ uuid => Unused rows uuid
  | .saveTmp a uuid key => Unused rows uuid ∧ (disks a.userId).key = some key
  | .saveReplace a uuid => Unused rows uuid ∧ ∃ key blob, (disks a.userId).key = some key ∧
      (disks a.userId).encTmp.read uuid = some blob ∧ readBlob fernet key blob = some a.keys
  | .insert a uuid => Unused rows uuid ∧ Opens fernet (disks a.userId) uuid a.keys
  | .cleanUp _ uuid => Unused rows uuid
  | .updateRow id userId exchangeType _ _ => ∀ a ∈ rows.items, a.id = id →
      a.userId = userId ∧ a.exchangeType = exchangeType
  | .deleteRow id _ uuid => ∀ a ∈ rows.items, a.credentialsUuid = uuid → a.id = id
  | .deleteBlob _ uuid => Unused rows uuid

/-- A default of the new table was one before. -/
def WasDefault (rows : Accounts) (a' : ExchangeAccount) : Prop :=
  ∃ a ∈ rows.items, a.id = a'.id ∧ a.userId = a'.userId ∧ a.exchangeType = a'.exchangeType ∧
    a.isDefault = true

theorem oneDefault_of_was (rows rows' : Accounts) (h : OneDefault rows)
    (hwas : ∀ a' ∈ rows'.items, a'.isDefault = true → WasDefault rows a') : OneDefault rows' := by
  intro a' ha' b' hb' huser htype hda hdb
  obtain ⟨a, ha, haid, hauser, hatype, hadefault⟩ := hwas a' ha' hda
  obtain ⟨b, hb, hbid, hbuser, hbtype, hbdefault⟩ := hwas b' hb' hdb
  rw [← haid, ← hbid]
  exact h a ha b hb (by rw [hauser, hbuser, huser]) (by rw [hatype, hbtype, htype]) hadefault
    hbdefault

/-- One account of a bucket is made its default. -/
theorem oneDefault_of_elected (rows rows' : Accounts) (userId : ℕ) (exchangeType : String) (id : ℕ)
    (h : OneDefault rows)
    (helected : ∀ a' ∈ rows'.items, a'.userId = userId → a'.exchangeType = exchangeType →
      a'.isDefault = true → a'.id = id)
    (hwas : ∀ a' ∈ rows'.items, ¬ (a'.userId = userId ∧ a'.exchangeType = exchangeType) →
      a'.isDefault = true → WasDefault rows a') : OneDefault rows' := by
  intro a' ha' b' hb' huser htype hda hdb
  by_cases hbucket : a'.userId = userId ∧ a'.exchangeType = exchangeType
  · have haid := helected a' ha' hbucket.1 hbucket.2 hda
    have hbid := helected b' hb' (huser.symm.trans hbucket.1) (htype.symm.trans hbucket.2) hdb
    rw [haid, hbid]
  · have hbucket' : ¬ (b'.userId = userId ∧ b'.exchangeType = exchangeType) := by
      rw [← huser, ← htype]
      exact hbucket
    obtain ⟨a, ha, haid, hauser, hatype, hadefault⟩ := hwas a' ha' hbucket hda
    obtain ⟨b, hb, hbid, hbuser, hbtype, hbdefault⟩ := hwas b' hb' hbucket' hdb
    rw [← haid, ← hbid]
    exact h a ha b hb (by rw [hauser, hbuser, huser]) (by rw [hatype, hbtype, htype]) hadefault
      hbdefault

/-- A row after `unsetOthers`. -/
theorem mem_unsetOthers (userId : ℕ) (exchangeType : String) (id : ℕ) (rows : Accounts)
    (a' : ExchangeAccount) (h : a' ∈ (unsetOthers userId exchangeType id rows).items) :
    ∃ a ∈ rows.items, a'.id = a.id ∧ a'.userId = a.userId ∧ a'.exchangeType = a.exchangeType ∧
      (a'.isDefault = true → a.isDefault = true ∧
        (a.userId = userId → a.exchangeType = exchangeType → a.id = id)) := by
  obtain ⟨a, ha, rfl⟩ := List.mem_map.mp h
  refine ⟨a, ha, ?_⟩
  by_cases hother : a.userId = userId ∧ a.exchangeType = exchangeType ∧ a.id ≠ id
  · simp [hother]
  · rw [if_neg hother]
    refine ⟨rfl, rfl, rfl, fun hd => ⟨hd, fun huser htype => ?_⟩⟩
    by_contra hid
    exact hother ⟨huser, htype, hid⟩

variable {fernet}

section Rows

variable {rows : Accounts} {lastId : ℕ} {disks : ℕ → Disk K T} {created : List (ℕ × Credentials)}

theorem rowsOk_disk (h : RowsOk fernet rows lastId disks created) (userId : ℕ) (uuid : String)
    (d : Disk K T) (hunused : Unused rows uuid) (hkeeps : KeepsOthers fernet uuid (disks userId) d) :
    RowsOk fernet rows lastId (Function.update disks userId d) created := by
  refine ⟨h.ids, h.createdIds, fun a ha => ?_, h.uuids⟩
  obtain ⟨p, hcreated, hopens⟩ := h.blobs a ha
  refine ⟨p, hcreated, ?_⟩
  by_cases huser : a.userId = userId
  · rw [huser, Function.update_self]
    rw [huser] at hopens
    exact hkeeps _ _ (hunused a ha) hopens
  · rw [Function.update_of_ne huser]
    exact hopens

/-- Columns that no blob depends on are written. -/
theorem rowsOk_mapValues (h : RowsOk fernet rows lastId disks created)
    (f : ExchangeAccount → ExchangeAccount) (hid : ∀ a, (f a).id = a.id)
    (huser : ∀ a, (f a).userId = a.userId)
    (huuid : ∀ a, (f a).credentialsUuid = a.credentialsUuid) :
    RowsOk fernet (rows.mapValues f hid) lastId disks created := by
  refine ⟨fun a' ha' => ?_, h.createdIds, fun a' ha' => ?_, ?_⟩
  · obtain ⟨a, ha, rfl⟩ := List.mem_map.mp ha'
    rw [hid]
    exact h.ids a ha
  · obtain ⟨a, ha, rfl⟩ := List.mem_map.mp ha'
    rw [hid, huser, huuid]
    exact h.blobs a ha
  · rw [KeyedDict.mapValues_items, List.map_map]
    have hsame : ExchangeAccount.credentialsUuid ∘ f = ExchangeAccount.credentialsUuid :=
      funext huuid
    rw [hsame]
    exact h.uuids

theorem mem_pop (id : ℕ) (a : ExchangeAccount) (h : a ∈ (rows.pop id).items) :
    a ∈ rows.items ∧ a.id ≠ id := by
  rw [KeyedDict.pop_items, List.mem_filter, decide_eq_true_eq] at h
  exact h

theorem rowsOk_pop (h : RowsOk fernet rows lastId disks created) (id : ℕ) :
    RowsOk fernet (rows.pop id) lastId disks created := by
  refine ⟨fun a ha => h.ids a (mem_pop id a ha).1, h.createdIds,
    fun a ha => h.blobs a (mem_pop id a ha).1, ?_⟩
  rw [KeyedDict.pop_items]
  exact h.uuids.sublist (List.filter_sublist.map _)

theorem oneDefault_pop (h : OneDefault rows) (id : ℕ) : OneDefault (rows.pop id) := by
  intro a ha b hb
  exact h a (mem_pop id a ha).1 b (mem_pop id b hb).1

/-! ### The transactions -/

/-- The rows once one more is inserted under the next id. -/
theorem mem_insert (h : RowsOk fernet rows lastId disks created) (a : NewAccount) (uuid : String) :
    (rows.set (a.row (lastId + 1) uuid)).items = rows.items ++ [a.row (lastId + 1) uuid] := by
  refine KeyedDict.set_items_new rows (a.row (lastId + 1) uuid) ?_
  refine (KeyedDict.get?_eq_none_iff rows _).mpr fun hmem => ?_
  obtain ⟨b, hb, hid⟩ := List.mem_map.mp hmem
  have hle := h.ids b hb
  have hid' : b.id = lastId + 1 := hid
  omega

/-- A row is inserted under the next id, once its blob is in place. -/
theorem rowsOk_set (h : RowsOk fernet rows lastId disks created) (a : NewAccount) (uuid : String)
    (hunused : Unused rows uuid) (hopens : Opens fernet (disks a.userId) uuid a.keys) :
    RowsOk fernet (rows.set (a.row (lastId + 1) uuid)) (lastId + 1) disks
      (created ++ [(lastId + 1, a.keys)]) := by
  have hitems := mem_insert h a uuid
  have hrow : ∀ b ∈ (rows.set (a.row (lastId + 1) uuid)).items,
      b ∈ rows.items ∨ b = a.row (lastId + 1) uuid := by
    intro b hb
    rw [hitems] at hb
    exact (List.mem_append.mp hb).imp id List.mem_singleton.mp
  refine ⟨fun b hb => ?_, fun e he => ?_, fun b hb => ?_, ?_⟩
  · rcases hrow b hb with hb | rfl
    · have hle := h.ids b hb
      omega
    · exact le_rfl
  · rcases List.mem_append.mp he with he | he
    · have hle := h.createdIds e he
      omega
    · rw [List.mem_singleton.mp he]
  · rcases hrow b hb with hb | rfl
    · obtain ⟨p, hcreated, hblob⟩ := h.blobs b hb
      refine ⟨p, fun q => ?_, hblob⟩
      have hle := h.ids b hb
      have hne : ¬ b.id = lastId + 1 := by omega
      simp [hcreated, hne]
    · refine ⟨a.keys, fun q => ?_, hopens⟩
      have hfresh : (lastId + 1, q) ∉ created := by
        intro hmem
        have hle : lastId + 1 ≤ lastId := h.createdIds _ hmem
        omega
      simp [NewAccount.row, hfresh]
  · rw [hitems, List.map_append, List.nodup_append]
    refine ⟨h.uuids, List.nodup_singleton _, fun x hx y hy hxy => ?_⟩
    obtain ⟨b, hb, rfl⟩ := List.mem_map.mp hx
    rw [List.map_singleton, List.mem_singleton] at hy
    exact hunused b hb (hxy.trans hy)

theorem rowsOk_unset (h : RowsOk fernet rows lastId disks created) (id userId : ℕ)
    (exchangeType : String) :
    RowsOk fernet (unsetOthers userId exchangeType id rows) lastId disks created := by
  refine rowsOk_mapValues h _ _ (fun a => ?_) (fun a => ?_)
  · split
    · rfl
    · rfl
  · split
    · rfl
    · rfl

theorem rowsOk_modify (h : RowsOk fernet rows lastId disks created) (id : ℕ)
    (f : ExchangeAccount → ExchangeAccount) (hid : ∀ a, (f a).id = a.id)
    (huser : ∀ a, (f a).userId = a.userId)
    (huuid : ∀ a, (f a).credentialsUuid = a.credentialsUuid) :
    RowsOk fernet (rows.modify id f hid) lastId disks created := by
  refine rowsOk_mapValues h _ _ (fun a => ?_) (fun a => ?_)
  · split
    · exact huser a
    · rfl
  · split
    · exact huuid a
    · rfl

theorem rowsOk_insertAccount (h : RowsOk fernet rows lastId disks created) (a : NewAccount)
    (uuid : String) (refused : Bool) (rows' : Accounts) (hunused : Unused rows uuid)
    (hopens : Opens fernet (disks a.userId) uuid a.keys)
    (hinsert : insertAccount a (lastId + 1) uuid refused rows = some rows') :
    RowsOk fernet rows' (lastId + 1) disks (created ++ [(lastId + 1, a.keys)]) := by
  have hset := rowsOk_set h a uuid hunused hopens
  unfold insertAccount at hinsert
  split at hinsert
  · cases hinsert
  · cases hinsert
    split
    · exact rowsOk_unset hset _ _ _
    · exact hset

theorem oneDefault_insertAccount (h : RowsOk fernet rows lastId disks created)
    (hdefault : OneDefault rows) (a : NewAccount) (uuid : String) (refused : Bool)
    (rows' : Accounts) (hinsert : insertAccount a (lastId + 1) uuid refused rows = some rows') :
    OneDefault rows' := by
  have hitems := mem_insert h a uuid
  unfold insertAccount at hinsert
  split at hinsert
  · cases hinsert
  cases hinsert
  cases hflag : a.isDefault with
  | false =>
    refine oneDefault_of_was rows _ hdefault fun b hb hd => ?_
    have hb' : b ∈ (rows.set (a.row (lastId + 1) uuid)).items := hb
    rw [hitems] at hb'
    rcases List.mem_append.mp hb' with hb' | hb'
    · exact ⟨b, hb', rfl, rfl, rfl, hd⟩
    · rw [List.mem_singleton.mp hb'] at hd
      exact absurd (hflag.symm.trans hd) (by decide)
  | true =>
    refine oneDefault_of_elected rows _ a.userId a.exchangeType (lastId + 1) hdefault ?_ ?_
    · intro b' hb' huser htype hd
      obtain ⟨b, hb, hid, hbuser, hbtype, hwas⟩ := mem_unsetOthers _ _ _ _ b' hb'
      rw [hid]
      exact (hwas hd).2 (hbuser.symm.trans huser) (hbtype.symm.trans htype)
    · intro b' hb' hbucket hd
      obtain ⟨b, hb, hid, hbuser, hbtype, hwas⟩ := mem_unsetOthers _ _ _ _ b' hb'
      rw [hitems] at hb
      rcases List.mem_append.mp hb with hb | hb
      · exact ⟨b, hb, hid.symm, hbuser.symm, hbtype.symm, (hwas hd).1⟩
      · rw [List.mem_singleton.mp hb] at hbuser hbtype
        exact absurd ⟨hbuser, hbtype⟩ hbucket

/-! ### `update_account` -/

theorem mem_modify (id : ℕ) (f : ExchangeAccount → ExchangeAccount) (hid : ∀ a, (f a).id = a.id)
    (a' : ExchangeAccount) (h : a' ∈ (rows.modify id f hid).items) :
    ∃ a ∈ rows.items, a'.id = a.id ∧ (a.id = id ∧ a' = f a ∨ a.id ≠ id ∧ a' = a) := by
  obtain ⟨a, ha, rfl⟩ := List.mem_map.mp h
  by_cases haid : a.id = id
  · refine ⟨a, ha, ?_, Or.inl ⟨haid, if_pos haid⟩⟩
    rw [if_pos haid]
    exact hid a
  · refine ⟨a, ha, ?_, Or.inr ⟨haid, if_neg haid⟩⟩
    rw [if_neg haid]

theorem writeColumns_some (id : ℕ) (e : AccountEdit) (refused : Bool) (rows' : Accounts)
    (h : writeColumns id e refused rows = some rows') :
    rows' = rows ∨ rows' = rows.modify id e.apply fun _ => rfl := by
  unfold writeColumns at h
  split at h
  · cases h
    exact Or.inl rfl
  split at h
  · cases h
  · cases h
    exact Or.inr rfl

theorem rowsOk_updateRows (h : RowsOk fernet rows lastId disks created) (id userId : ℕ)
    (exchangeType : String) (e : AccountEdit) (isDefault : Option Bool) (refused : Bool)
    (rows' : Accounts)
    (hupdate : updateRows id userId exchangeType e isDefault refused rows = some rows') :
    RowsOk fernet rows' lastId disks created := by
  obtain ⟨written, hwritten, rfl⟩ := Option.map_eq_some_iff.mp hupdate
  have hcolumns : RowsOk fernet written lastId disks created := by
    rcases writeColumns_some id e refused written hwritten with rfl | rfl
    · exact h
    · exact rowsOk_modify h id _ _ (fun _ => rfl) fun _ => rfl
  cases isDefault with
  | none => exact hcolumns
  | some flag =>
    cases flag with
    | false => exact rowsOk_modify hcolumns id _ _ (fun _ => rfl) fun _ => rfl
    | true =>
      exact rowsOk_modify (rowsOk_unset hcolumns id userId exchangeType) id _ _ (fun _ => rfl)
        fun _ => rfl

theorem oneDefault_updateRows (hdefault : OneDefault rows) (id userId : ℕ) (exchangeType : String)
    (e : AccountEdit) (isDefault : Option Bool) (refused : Bool) (rows' : Accounts)
    (hbucket : ∀ a ∈ rows.items, a.id = id → a.userId = userId ∧ a.exchangeType = exchangeType)
    (hupdate : updateRows id userId exchangeType e isDefault refused rows = some rows') :
    OneDefault rows' := by
  obtain ⟨written, hwritten, rfl⟩ := Option.map_eq_some_iff.mp hupdate
  -- the columns of the edit leave the bucket and the flag of every row alone
  have hcolumns : ∀ a' ∈ written.items, ∃ a ∈ rows.items, a.id = a'.id ∧ a.userId = a'.userId ∧
      a.exchangeType = a'.exchangeType ∧ a.isDefault = a'.isDefault := by
    intro a' ha'
    rcases writeColumns_some id e refused written hwritten with rfl | rfl
    · exact ⟨a', ha', rfl, rfl, rfl, rfl⟩
    · obtain ⟨a, ha, _, ⟨_, rfl⟩ | ⟨_, rfl⟩⟩ := mem_modify id _ _ a' ha'
      · exact ⟨a, ha, rfl, rfl, rfl, rfl⟩
      · exact ⟨a', ha, rfl, rfl, rfl, rfl⟩
  have hone : OneDefault written := by
    refine oneDefault_of_was rows _ hdefault fun a' ha' hd => ?_
    obtain ⟨a, ha, hid, huser, htype, hflag⟩ := hcolumns a' ha'
    exact ⟨a, ha, hid, huser, htype, hflag.trans hd⟩
  cases isDefault with
  | none => exact hone
  | some flag =>
    cases flag with
    | false =>
      refine oneDefault_of_was written _ hone fun a' ha' hd => ?_
      obtain ⟨a, ha, _, ⟨_, rfl⟩ | ⟨_, rfl⟩⟩ := mem_modify id _ _ a' ha'
      · exact absurd hd Bool.false_ne_true
      · exact ⟨a', ha, rfl, rfl, rfl, hd⟩
    | true =>
      refine oneDefault_of_elected written _ userId exchangeType id hone ?_ ?_
      · intro a' ha' huser htype hd
        obtain ⟨b, hb, hbid, hcase⟩ := mem_modify id _ _ a' ha'
        rw [hbid]
        rcases hcase with ⟨hid, _⟩ | ⟨_, rfl⟩
        · exact hid
        · obtain ⟨a, _, haid, hauser, hatype, hwas⟩ := mem_unsetOthers _ _ _ _ _ hb
          rw [haid]
          exact (hwas hd).2 (hauser.symm.trans huser) (hatype.symm.trans htype)
      · intro a' ha' hother hd
        obtain ⟨b, hb, hbid, hcase⟩ := mem_modify id _ _ a' ha'
        obtain ⟨a, ha, haid, hauser, hatype, hwas⟩ := mem_unsetOthers _ _ _ _ _ hb
        rcases hcase with ⟨hid, rfl⟩ | ⟨_, rfl⟩
        · obtain ⟨c, hc, hcid, hcuser, hctype, _⟩ := hcolumns a ha
          have hin := hbucket c hc (hcid.trans (haid.symm.trans hid))
          refine absurd ⟨?_, ?_⟩ hother
          · exact hauser.trans (hcuser.symm.trans hin.1)
          · exact hatype.trans (hctype.symm.trans hin.2)
        · exact ⟨a, ha, haid.symm, hauser.symm, hatype.symm, (hwas hd).1⟩

end Rows

/-! ### Steps and runs -/

namespace AccountStore

variable (fernet)

/-- The invariant of the store. -/
structure StoreOk (s : AccountStore K T) : Prop where
  rows : RowsOk fernet s.accounts s.lastId s.disks s.created
  oneDefault : OneDefault s.accounts
  call : CallOk fernet s.accounts s.disks s.call

theorem storeOk_new (disks : ℕ → Disk K T) : StoreOk fernet { disks := disks } where
  rows := by
    refine ⟨fun a ha => ?_, fun e he => ?_, fun a ha => ?_, List.nodup_nil⟩
    · exact absurd ha List.not_mem_nil
    · exact absurd he List.not_mem_nil
    · exact absurd ha List.not_mem_nil
  oneDefault := fun a ha => absurd ha List.not_mem_nil
  call := trivial

variable {fernet}

theorem storeOk_finish (s : AccountStore K T) (answer : AccountAnswer)
    (h : RowsOk fernet s.accounts s.lastId s.disks s.created) (hdefault : OneDefault s.accounts) :
    StoreOk fernet (s.finish answer) := ⟨h, hdefault, trivial⟩

theorem storeOk_begin (s : AccountStore K T) (r : AccountRequest) (h : StoreOk fernet s)
    (hfresh : FreshUuid s (S := S) (.begin r)) : StoreOk fernet (s.begin r) := by
  have hends : ∀ answer, StoreOk fernet (s.finish answer) :=
    fun answer => storeOk_finish s answer h.rows h.oneDefault
  cases r with
  | create a uuid =>
    cases hvalid : validateInputs a with
    | some e =>
      simp only [begin, hvalid]
      exact hends _
    | none =>
      simp only [begin, hvalid]
      split
      · exact hends _
      · exact ⟨h.rows, h.oneDefault, hfresh⟩
  | update id e isDefault =>
    cases hget : s.accounts.get? id with
    | none =>
      simp only [begin, hget]
      exact hends _
    | some a =>
      have hbucket : ∀ b ∈ s.accounts.items, b.id = id →
          b.userId = a.userId ∧ b.exchangeType = a.exchangeType := by
        intro b hb hid
        have hb' := KeyedDict.get?_of_mem s.accounts b hb
        rw [hid, hget] at hb'
        cases hb'
        exact ⟨rfl, rfl⟩
      simp only [begin, hget]
      split
      · exact hends _
      split
      · exact hends _
      · exact ⟨h.rows, h.oneDefault, hbucket⟩
  | delete id =>
    cases hget : s.accounts.get? id with
    | none =>
      simp only [begin, hget]
      exact hends _
    | some a =>
      simp only [begin, hget]
      refine ⟨h.rows, h.oneDefault, fun b hb huuid => ?_⟩
      obtain ⟨ha, hid⟩ := KeyedDict.get?_mem s.accounts id a hget
      have hsame := List.inj_on_of_nodup_map h.rows.uuids hb ha huuid
      rw [hsame]
      exact hid

theorem storeOk_advance (s t : AccountStore K T) (generated : K) (seed : S) (now : Instant)
    (refused : Bool) (h : StoreOk fernet s)
    (hstep : s.advance fernet generated seed now refused = some t) : StoreOk fernet t := by
  obtain ⟨hrows, hdefault, hcall⟩ := h
  unfold advance at hstep
  cases hc : s.call with
  | idle =>
    rw [hc] at hstep
    cases hstep
  | saveKey a uuid =>
    rw [hc] at hstep hcall
    cases hstep
    refine ⟨?_, hdefault, hcall, ?_⟩
    · exact rowsOk_disk hrows a.userId uuid _ hcall (keepsOthers_loadOrCreate fernet uuid _ _ _)
    · show (Function.update s.disks a.userId _ a.userId).key = _
      rw [Function.update_self]
      exact loadOrCreateUserKey_key generated now (s.disks a.userId)
  | saveTmp a uuid key =>
    rw [hc] at hstep hcall
    cases hstep
    obtain ⟨hunused, hkey⟩ := hcall
    refine ⟨?_, hdefault, hunused, key, fernet.encrypt key seed a.keys.saved, ?_, ?_, ?_⟩
    · exact rowsOk_disk hrows a.userId uuid _ hunused (keepsOthers_writeTmp fernet uuid _ _)
    · show (Function.update s.disks a.userId _ a.userId).key = _
      rw [Function.update_self]
      exact hkey
    · show (Function.update s.disks a.userId _ a.userId).encTmp.read uuid = _
      rw [Function.update_self]
      exact Files.read_write_self _ _ _
    · rw [readBlob, fernet.decrypt_encrypt]
      exact Credentials.ofPlaintext_saved a.keys
  | saveReplace a uuid =>
    rw [hc] at hstep hcall
    cases hstep
    obtain ⟨hunused, key, blob, hkey, htmp, hblob⟩ := hcall
    refine ⟨?_, hdefault, hunused, key, blob, ?_, ?_, hblob⟩
    · exact rowsOk_disk hrows a.userId uuid _ hunused (keepsOthers_replaceEnc fernet uuid _)
    · show (Function.update s.disks a.userId _ a.userId).key = _
      rw [Function.update_self]
      simp only [RotationStep.apply, htmp]
      exact hkey
    · show (Function.update s.disks a.userId _ a.userId).enc.read uuid = _
      rw [Function.update_self]
      simp only [RotationStep.apply, htmp]
      exact Files.read_write_self _ _ _
  | insert a uuid =>
    rw [hc] at hstep hcall
    obtain ⟨hunused, hopens⟩ := hcall
    simp only at hstep
    cases hinsert : insertAccount a (s.lastId + 1) uuid refused s.accounts with
    | none =>
      rw [hinsert] at hstep
      cases hstep
      exact ⟨hrows, hdefault, hunused⟩
    | some rows =>
      rw [hinsert] at hstep
      cases hstep
      refine ⟨?_, ?_, trivial⟩
      · exact rowsOk_insertAccount hrows a uuid refused rows hunused hopens hinsert
      · exact oneDefault_insertAccount hrows hdefault a uuid refused rows hinsert
  | cleanUp a uuid =>
    rw [hc] at hstep hcall
    cases hstep
    refine ⟨?_, hdefault, trivial⟩
    exact rowsOk_disk hrows a.userId uuid _ hcall (keepsOthers_delete fernet uuid _)
  | updateRow id userId exchangeType e isDefault =>
    rw [hc] at hstep hcall
    simp only at hstep
    cases hupdate : updateRows id userId exchangeType e isDefault refused s.accounts with
    | none =>
      rw [hupdate] at hstep
      cases hstep
      exact storeOk_finish s _ hrows hdefault
    | some rows =>
      rw [hupdate] at hstep
      cases hstep
      refine ⟨?_, ?_, trivial⟩
      · exact rowsOk_updateRows hrows id userId exchangeType e isDefault refused rows hupdate
      · exact oneDefault_updateRows hdefault id userId exchangeType e isDefault refused rows hcall
          hupdate
  | deleteRow id userId uuid =>
    rw [hc] at hstep hcall
    cases hstep
    refine ⟨rowsOk_pop hrows id, oneDefault_pop hdefault id, fun a ha huuid => ?_⟩
    obtain ⟨hmem, hne⟩ := mem_pop id a ha
    exact hne (hcall a hmem huuid)
  | deleteBlob userId uuid =>
    rw [hc] at hstep hcall
    cases hstep
    refine ⟨?_, hdefault, trivial⟩
    exact rowsOk_disk hrows userId uuid _ hcall (keepsOthers_delete fernet uuid _)

theorem storeOk_step (s : AccountStore K T) (l : AccountStep K S) (t : AccountStore K T)
    (h : StoreOk fernet s) (hfresh : FreshUuid s l) (hstep : s.step fernet l = some t) :
    StoreOk fernet t := by
  cases l with
  | begin r =>
    unfold step at hstep
    cases hc : s.call with
    | idle =>
      rw [hc] at hstep
      cases hstep
      exact storeOk_begin s r h hfresh
    | _ =>
      rw [hc] at hstep
      cases hstep
  | advance generated seed now refused => exact storeOk_advance s t generated seed now refused h hstep
  | crash =>
    cases hstep
    exact ⟨h.rows, h.oneDefault, trivial⟩

theorem sound_of_storeOk (s : AccountStore K T) (h : StoreOk fernet s) : Sound fernet s where
  blobs := by
    intro a ha
    obtain ⟨p, hcreated, hopens⟩ := h.rows.blobs a ha
    exact ⟨p, hcreated, getKeysByUuid_opens fernet _ _ p hopens⟩
  uuids := h.rows.uuids
  oneDefault := by
    intro userId exchangeType
    have hnodup : (s.defaults userId exchangeType).Nodup :=
      (List.Nodup.of_map _ s.accounts.nodup).filter _
    have hmem : ∀ a ∈ s.defaults userId exchangeType, a ∈ s.accounts.items ∧
        a.userId = userId ∧ a.exchangeType = exchangeType ∧ a.isDefault = true := by
      intro a ha
      rw [defaults, List.mem_filter, decide_eq_true_eq] at ha
      exact ha
    cases hl : s.defaults userId exchangeType with
    | nil => exact Nat.zero_le 1
    | cons a l =>
      cases l with
      | nil => exact le_rfl
      | cons b l =>
        rw [hl] at hnodup hmem
        obtain ⟨ha, hauser, hatype, hadefault⟩ := hmem a (by simp)
        obtain ⟨hb, hbuser, hbtype, hbdefault⟩ := hmem b (by simp)
        have hid := h.oneDefault a ha b hb (hauser.trans hbuser.symm) (hatype.trans hbtype.symm)
          hadefault hbdefault
        have hsame := List.inj_on_of_nodup_map s.accounts.nodup ha hb hid
        simp [hsame] at hnodup

/-- In every state of the store, between any two steps, every row names a blob of its
own that opens to the keys its account was created with, and no bucket has two defaults. -/
theorem sound_run (disks : ℕ → Disk K T) (ls : List (AccountStep K S)) (s : AccountStore K T)
    (hfresh : Machine.Guarded (step fernet) FreshUuid { disks := disks } ls)
    (hrun : Machine.run (step fernet) { disks := disks } ls = some s) : Sound fernet s := by
  refine sound_of_storeOk s ?_
  exact Machine.run_invariant (step fernet) (fun _ => True) FreshUuid (StoreOk fernet)
    (fun s l t _ h hG hstep => storeOk_step s l t h hG hstep) _ s ls (storeOk_new fernet disks)
    (fun _ _ => trivial) hfresh hrun

instance (s : AccountStore K T) (l : AccountStep K S) : Decidable (FreshUuid s l) :=
  match l with
  | .begin (.create _ credentialsUuid) =>
    inferInstanceAs (Decidable (∀ a ∈ s.accounts.items, a.credentialsUuid ≠ credentialsUuid))
  | .begin (.update ..) => .isTrue trivial
  | .begin (.delete _) => .isTrue trivial
  | .advance .. => .isTrue trivial
  | .crash => .isTrue trivial

/-- The next step of a call whose environment is the given number. -/
def next (n : ℕ) : AccountStep ℕ ℕ := .advance n n n false

/-- Two accounts of one bucket are created as its default, the second at the second
attempt; the first gets the flag back and the second goes, both across a crash. -/
def twoDefaults : List (AccountStep ℕ ℕ) :=
  [.begin (.create ⟨1, "bitget", "coin_m", "first", ⟨"k1", "s1", "p1"⟩, true⟩ "a"), next 1, next 2,
    next 3, next 4,
    .begin (.create ⟨1, "bitget", "coin_m", "second", ⟨"k2", "s2", "p2"⟩, true⟩ "b"), next 5, next 6,
    .crash,
    .begin (.create ⟨1, "bitget", "coin_m", "second", ⟨"k2", "s2", "p2"⟩, true⟩ "c"), next 7, next 8,
    next 9, next 10,
    .begin (.update 1 { aliasName := some "second" } none), next 11,
    .begin (.setDefault 1), next 12,
    .begin (.delete 2), next 13, .crash]

theorem sound_twoDefaults : ∃ s, Machine.run (step (AuthCipher.envelope ℕ ℕ Plaintext)) {} twoDefaults =
    some s ∧ Sound (AuthCipher.envelope ℕ ℕ Plaintext) s := by
  obtain ⟨s, hs⟩ : ∃ s, Machine.run (step (AuthCipher.envelope ℕ ℕ Plaintext)) {} twoDefaults =
      some s := Option.isSome_iff_exists.mp (by decide +kernel)
  exact ⟨s, hs, sound_run (fun _ => {}) twoDefaults s (by decide +kernel) hs⟩

end AccountStore

end ExchangeAccountStore

end Reverto
