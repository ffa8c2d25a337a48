import Mathlib.Tactic
import Reverto.Core.Credentials

/-!
# Crashes of a key rotation

A rotation replaces the key file and then one credential file after the other;
a crash may come after every elementary change.
-/

namespace Reverto

namespace FernetCredentialProvider

variable {K S T : Type} (fernet : AuthCipher K S Plaintext T)

/-! ### Reading before the rotation -/

theorem readAll_ok (d : Disk K T) (key : K) (uuids : List String)
    (plaintext : List (String × Credentials)) (h : readAll fernet d key uuids = .ok plaintext) :
    plaintext.map Prod.fst = uuids ∧
      ∀ up ∈ plaintext, (d.enc.read up.1).bind (readBlob fernet key) = some up.2 := by
  induction uuids generalizing plaintext with
  | nil =>
    cases h
    exact ⟨rfl, fun up hup => by cases hup⟩
  | cons uuid uuids ih =>
    rw [readAll] at h
    cases hread : (d.enc.read uuid).bind (readBlob fernet key) with
    | none =>
      rw [hread] at h
      cases h
    | some p =>
      rw [hread] at h
      cases hrest : readAll fernet d key uuids with
      | error e =>
        rw [hrest] at h
        cases h
      | ok rest =>
        rw [hrest] at h
        cases h
        obtain ⟨hmap, hall⟩ := ih rest hrest
        refine ⟨by rw [List.map_cons, hmap], fun up hup => ?_⟩
        rcases List.mem_cons.mp hup with rfl | hup
        · exact hread
        · exact hall up hup

theorem mem_listUuids (d : Disk K T) (uuid : String) :
    uuid ∈ listUuidsWithKeys d ↔ d.enc.read uuid ≠ none := by
  rw [listUuidsWithKeys, List.mem_insertionSort, Files.mem_stems_iff]

theorem listUuids_nodup (d : Disk K T) : (listUuidsWithKeys d).Nodup :=
  (List.perm_insertionSort _ _).nodup_iff.mpr d.enc.nodup

/-! ### The elementary changes -/

theorem applySteps_append (steps more : List (RotationStep K T)) (d : Disk K T) :
    applySteps (steps ++ more) d = applySteps more (applySteps steps d) :=
  List.foldl_append

/-- The changes that touch neither the key nor a credential file. -/
def Harmless : RotationStep K T → Prop
  | .replaceKey _ | .replaceEnc _ => False
  | _ => True

theorem applySteps_harmless (steps : List (RotationStep K T)) (h : ∀ s ∈ steps, Harmless s)
    (d : Disk K T) : (applySteps steps d).key = d.key ∧ (applySteps steps d).enc = d.enc := by
  induction steps generalizing d with
  | nil => exact ⟨rfl, rfl⟩
  | cons s steps ih =>
    have hone : (s.apply d).key = d.key ∧ (s.apply d).enc = d.enc := by
      have hs := h s List.mem_cons_self
      cases s with
      | copyBackup timestamp =>
        simp only [RotationStep.apply]
        split <;> exact ⟨rfl, rfl⟩
      | replaceKey now => exact absurd hs id
      | replaceEnc uuid => exact absurd hs id
      | _ => exact ⟨rfl, rfl⟩
    obtain ⟨hkey, henc⟩ := ih (fun t ht => h t (List.mem_cons_of_mem s ht)) (s.apply d)
    exact ⟨hkey.trans hone.1, henc.trans hone.2⟩

theorem prepare_harmless (inp : RotationInput K S) (plaintext : List (String × Credentials)) :
    ∀ s ∈ prepareSteps fernet inp plaintext, Harmless s := by
  intro s hs
  simp only [prepareSteps, List.cons_append, List.mem_cons, List.mem_append, List.mem_map] at hs
  rcases hs with rfl | ⟨up, _, rfl⟩ | rfl | hs
  · trivial
  · trivial
  · trivial
  · cases hs

/-- The tmp files after all of them are written. -/
theorem writeTmps_read (inp : RotationInput K S) (plaintext : List (String × Credentials))
    (hnodup : (plaintext.map Prod.fst).Nodup) (d : Disk K T) :
    let d' := applySteps (plaintext.map fun up =>
      .writeTmp up.1 (fernet.encrypt inp.newKey (inp.seed up.1) up.2.rotated)) d
    (∀ up ∈ plaintext, d'.encTmp.read up.1
        = some (fernet.encrypt inp.newKey (inp.seed up.1) up.2.rotated)) ∧
      (∀ v, v ∉ plaintext.map Prod.fst → d'.encTmp.read v = d.encTmp.read v) ∧
      d'.backups = d.backups := by
  induction plaintext generalizing d with
  | nil =>
    refine ⟨fun up hup => ?_, fun v _ => rfl, rfl⟩
    cases hup
  | cons up plaintext ih =>
    rw [List.map_cons, List.nodup_cons] at hnodup
    obtain ⟨hwritten, hother, hbackups⟩ := ih hnodup.2
      (RotationStep.apply d (.writeTmp up.1
        (fernet.encrypt inp.newKey (inp.seed up.1) up.2.rotated)))
    refine ⟨fun vq hvq => ?_, fun v hv => ?_, hbackups⟩
    · rcases List.mem_cons.mp hvq with rfl | hvq
      · exact (hother vq.1 hnodup.1).trans (Files.read_write_self _ _ _)
      · exact hwritten vq hvq
    · rw [List.map_cons, List.mem_cons, not_or] at hv
      exact (hother v hv.2).trans (Files.read_write_of_ne _ _ _ _ hv.1)

/-- The files when everything is written and nothing replaced. -/
theorem prepared (inp : RotationInput K S) (plaintext : List (String × Credentials))
    (hnodup : (plaintext.map Prod.fst).Nodup) (d : Disk K T) (key : K) (hkey : d.key = some key) :
    let d' := applySteps (prepareSteps fernet inp plaintext) d
    d'.key = some key ∧ d'.enc = d.enc ∧ d'.keyTmp = some inp.newKey ∧
      d'.backups.read inp.timestamp = some ⟨key, d.keyMtime⟩ ∧
      ∀ up ∈ plaintext, d'.encTmp.read up.1
        = some (fernet.encrypt inp.newKey (inp.seed up.1) up.2.rotated) := by
  intro d'
  obtain ⟨hkey', henc'⟩ := applySteps_harmless _ (prepare_harmless fernet inp plaintext) d
  have hbackup : RotationStep.apply d (.copyBackup inp.timestamp)
      = { d with backups := d.backups.write inp.timestamp ⟨key, d.keyMtime⟩ } := by
    simp only [RotationStep.apply, hkey]
  have hsplit : d' = RotationStep.apply (applySteps (plaintext.map fun up =>
      .writeTmp up.1 (fernet.encrypt inp.newKey (inp.seed up.1) up.2.rotated))
      (RotationStep.apply d (.copyBackup inp.timestamp))) (.writeKeyTmp inp.newKey) := by
    simp only [d', prepareSteps, applySteps, List.foldl_append, List.foldl_cons, List.foldl_nil]
  obtain ⟨htmps, _, hbackups⟩ := writeTmps_read fernet inp plaintext hnodup
    (RotationStep.apply d (.copyBackup inp.timestamp))
  refine ⟨hkey'.trans hkey, henc', by rw [hsplit]; rfl, ?_, fun up hup => ?_⟩
  · rw [hsplit]
    have hsame := congrArg (fun b => Files.read b inp.timestamp) hbackups
    refine hsame.trans ?_
    rw [hbackup]
    exact Files.read_write_self _ _ _
  · rw [hsplit]
    exact htmps up hup

/-- The credential files after some of them are replaced. -/
theorem replaceEncs_read (uuids : List String) (hnodup : uuids.Nodup) (d : Disk K T)
    (htmp : ∀ u ∈ uuids, d.encTmp.read u ≠ none) :
    let d' := applySteps (uuids.map .replaceEnc) d
    (∀ v, d'.enc.read v = if v ∈ uuids then d.encTmp.read v else d.enc.read v) ∧
      d'.key = d.key ∧ d'.backups = d.backups := by
  induction uuids generalizing d with
  | nil => exact ⟨fun v => by simp [applySteps], rfl, rfl⟩
  | cons u uuids ih =>
    rw [List.nodup_cons] at hnodup
    obtain ⟨blob, hblob⟩ := Option.ne_none_iff_exists'.mp (htmp u List.mem_cons_self)
    have hone : RotationStep.apply d (.replaceEnc u)
        = { d with enc := d.enc.write u blob, encTmp := d.encTmp.pop u } := by
      simp only [RotationStep.apply, hblob]
    have hrest : ∀ v ∈ uuids, Files.read (d.encTmp.pop u) v = d.encTmp.read v := by
      intro v hv
      refine Files.read_pop_of_ne _ _ _ ?_
      rintro rfl
      exact hnodup.1 hv
    have htmp' : ∀ v ∈ uuids, (RotationStep.apply d (.replaceEnc u)).encTmp.read v ≠ none := by
      intro v hv
      rw [hone]
      refine ne_of_eq_of_ne (hrest v hv) (htmp v (List.mem_cons_of_mem u hv))
    obtain ⟨henc, hkey, hbackups⟩ := ih hnodup.2 (RotationStep.apply d (.replaceEnc u)) htmp'
    rw [hone] at henc hkey hbackups
    have hcons : applySteps ((u :: uuids).map .replaceEnc) d
        = applySteps (uuids.map .replaceEnc)
          { d with enc := d.enc.write u blob, encTmp := d.encTmp.pop u } := by
      rw [← hone]
      rfl
    rw [hcons]
    refine ⟨fun v => ?_, hkey, hbackups⟩
    rw [henc v]
    by_cases hv : v ∈ uuids
    · rw [if_pos hv, if_pos (List.mem_cons_of_mem u hv)]
      exact hrest v hv
    · rw [if_neg hv]
      by_cases hvu : v = u
      · subst hvu
        rw [if_pos List.mem_cons_self, hblob]
        exact Files.read_write_self _ _ _
      · rw [if_neg (by simp [hvu, hv])]
        exact Files.read_write_of_ne _ _ _ _ hvu

/-! ### The files after some of the replacements -/

section Rotation

variable (inp : RotationInput K S) (d : Disk K T) (key : K)
  (plaintext : List (String × Credentials))

/-- The rotation got to its first change: the key file holds `key` and every
stored credential was decrypted under it. -/
structure Started : Prop where
  hasKey : d.key = some key
  decrypted : readAll fernet d key (listUuidsWithKeys d) = .ok plaintext

variable {inp d key plaintext}

theorem Started.stems (h : Started fernet d key plaintext) :
    plaintext.map Prod.fst = listUuidsWithKeys d :=
  (readAll_ok fernet d key _ plaintext h.decrypted).1

theorem Started.nodup (h : Started fernet d key plaintext) : (plaintext.map Prod.fst).Nodup :=
  h.stems ▸ listUuids_nodup d

theorem Started.blob (h : Started fernet d key plaintext) (v : String) (blob : T)
    (hv : d.enc.read v = some blob) :
    ∃ p, (v, p) ∈ plaintext ∧ readBlob fernet key blob = some p := by
  have hmem : v ∈ plaintext.map Prod.fst := by
    rw [h.stems, mem_listUuids, hv]
    exact Option.some_ne_none blob
  obtain ⟨⟨u, p⟩, hup, rfl⟩ := List.mem_map.mp hmem
  have hread := (readAll_ok fernet d key _ plaintext h.decrypted).2 (u, p) hup
  simp only [hv, Option.bind_some] at hread
  exact ⟨p, hup, hread⟩

/-- The files when the key and the first `k` credentials are replaced. -/
theorem Started.replaced (inp : RotationInput K S) (h : Started fernet d key plaintext) (k : ℕ) :
    let d' := applySteps (prepareSteps fernet inp plaintext ++
      (commitSteps inp plaintext).take (k + 1)) d
    d'.key = some inp.newKey ∧ d'.backups.read inp.timestamp = some ⟨key, d.keyMtime⟩ ∧
      (∀ v, v ∉ (plaintext.take k).map Prod.fst → d'.enc.read v = d.enc.read v) ∧
      ∀ up ∈ plaintext.take k, d'.enc.read up.1
        = some (fernet.encrypt inp.newKey (inp.seed up.1) up.2.rotated) := by
  intro d'
  obtain ⟨_, henc, hkeyTmp, hbackup, htmps⟩ := prepared fernet inp plaintext h.nodup d key h.hasKey
  obtain ⟨dp, hdp⟩ : ∃ dp, dp = applySteps (prepareSteps fernet inp plaintext) d := ⟨_, rfl⟩
  rw [← hdp] at henc hkeyTmp hbackup htmps
  have hkeyed : RotationStep.apply dp (.replaceKey inp.now)
      = { dp with key := some inp.newKey, keyMtime := inp.now, keyTmp := none } := by
    simp only [RotationStep.apply, hkeyTmp]
  have hsplit : d' = applySteps (((plaintext.take k).map Prod.fst).map .replaceEnc)
      { dp with key := some inp.newKey, keyMtime := inp.now, keyTmp := none } := by
    simp only [d', applySteps_append, ← hdp, commitSteps, List.take_succ_cons, ← List.map_take,
      List.map_map]
    rw [← hkeyed]
    rfl
  have hsub : ∀ up ∈ plaintext.take k, up ∈ plaintext := fun up hup => List.mem_of_mem_take hup
  have hnodup : ((plaintext.take k).map Prod.fst).Nodup := by
    rw [List.map_take]
    exact h.nodup.sublist (List.take_sublist k _)
  have htmp : ∀ u ∈ (plaintext.take k).map Prod.fst, dp.encTmp.read u ≠ none := by
    intro u hu
    obtain ⟨up, hup, rfl⟩ := List.mem_map.mp hu
    rw [htmps up (hsub up hup)]
    exact Option.some_ne_none _
  obtain ⟨hread, hkey', hbackups'⟩ := replaceEncs_read _ hnodup
    { dp with key := some inp.newKey, keyMtime := inp.now, keyTmp := none } htmp
  rw [hsplit]
  refine ⟨hkey', ?_, fun v hv => ?_, fun up hup => ?_⟩
  · rw [hbackups']
    exact hbackup
  · rw [hread v, if_neg hv]
    exact congrArg (fun e => Files.read e v) henc
  · rw [hread up.1, if_pos (List.mem_map_of_mem hup)]
    exact htmps up (hsub up hup)

/-- The files when the rotation is done, or was cut short in its clean-up. -/
theorem Started.finished (inp : RotationInput K S) (h : Started fernet d key plaintext)
    (cleanup : List (RotationStep K T)) (hcleanup : ∀ s ∈ cleanup, Harmless s) :
    let d' := applySteps (prepareSteps fernet inp plaintext ++ commitSteps inp plaintext ++ cleanup) d
    d'.key = some inp.newKey ∧
      (∀ v, d.enc.read v = none → d'.enc.read v = none) ∧
      ∀ up ∈ plaintext, d'.enc.read up.1
        = some (fernet.encrypt inp.newKey (inp.seed up.1) up.2.rotated) := by
  intro d'
  have hall : (commitSteps (T := T) inp plaintext).take (plaintext.length + 1)
      = commitSteps inp plaintext := by
    refine List.take_of_length_le ?_
    simp [commitSteps]
  obtain ⟨hkey, _, hother, hread⟩ := h.replaced fernet inp plaintext.length
  rw [hall] at hkey hother hread
  obtain ⟨hkey', henc'⟩ := applySteps_harmless cleanup hcleanup
    (applySteps (prepareSteps fernet inp plaintext ++ commitSteps inp plaintext) d)
  have hsplit : d' = applySteps cleanup
      (applySteps (prepareSteps fernet inp plaintext ++ commitSteps inp plaintext) d) :=
    applySteps_append _ _ _
  rw [hsplit]
  refine ⟨hkey'.trans hkey, fun v hv => ?_, fun up hup => ?_⟩
  · rw [henc', hother v ?_, hv]
    intro hmem
    rw [List.take_length, h.stems, mem_listUuids] at hmem
    exact hmem hv
  · rw [henc']
    refine hread up ?_
    rwa [List.take_length]

end Rotation

/-! ### Crashes -/

section Crash

variable (inp : RotationInput K S) (d : Disk K T) (key : K)
  (plaintext : List (String × Credentials))

/-- One key, from the key file or the backup of this rotation, opens every
credential file to what it held before the rotation. -/
def Recoverable (crashed : Disk K T) : Prop :=
  ∃ k, (crashed.key = some k ∨ (crashed.backups.read inp.timestamp).map KeyBackup.key = some k) ∧
    ∀ v blob, crashed.enc.read v = some blob →
      ∃ p, (d.enc.read v).bind (readBlob fernet key) = some p ∧ readBlob fernet k blob = some p

/-- The files after a crash that lets `j` elementary changes through. -/
def crashAfter (j : ℕ) : Disk K T := applySteps ((rotationSteps fernet inp plaintext d).take j) d

variable {inp d key plaintext}

theorem readBlob_rotated (seed : S) (k : K) (p : Credentials) :
    readBlob fernet k (fernet.encrypt k seed p.rotated) = some p := by
  simp [readBlob, fernet.decrypt_encrypt]

theorem readBlob_other (k k' : K) (blob : T) (p : Credentials) (h : readBlob fernet k blob = some p)
    (hne : k' ≠ k) : readBlob fernet k' blob = none := by
  obtain ⟨m, hm, _⟩ := Option.bind_eq_some_iff.mp h
  rw [readBlob, fernet.decrypt_other k k' blob m hm hne, Option.bind_none]

/-- As long as the old key is there and no credential is replaced. -/
theorem Started.recoverable_old (inp : RotationInput K S) (h : Started fernet d key plaintext)
    (crashed : Disk K T)
    (hkey : crashed.key = some key ∨
      (crashed.backups.read inp.timestamp).map KeyBackup.key = some key)
    (henc : ∀ v, crashed.enc.read v = d.enc.read v) : Recoverable fernet inp d key crashed := by
  refine ⟨key, hkey, fun v blob hblob => ?_⟩
  rw [henc v] at hblob
  obtain ⟨p, _, hp⟩ := h.blob fernet v blob hblob
  exact ⟨p, by rw [hblob, Option.bind_some, hp], hp⟩

/-- As soon as every credential is replaced. -/
theorem Started.recoverable_new (h : Started fernet d key plaintext) (crashed : Disk K T)
    (hkey : crashed.key = some inp.newKey)
    (hnone : ∀ v, d.enc.read v = none → crashed.enc.read v = none)
    (henc : ∀ up ∈ plaintext, crashed.enc.read up.1
      = some (fernet.encrypt inp.newKey (inp.seed up.1) up.2.rotated)) :
    Recoverable fernet inp d key crashed := by
  refine ⟨inp.newKey, Or.inl hkey, fun v blob hblob => ?_⟩
  cases hv : d.enc.read v with
  | none =>
    rw [hnone v hv] at hblob
    cases hblob
  | some old =>
    obtain ⟨p, hp, hread⟩ := h.blob fernet v old hv
    have hnew := henc (v, p) hp
    rw [hblob] at hnew
    cases hnew
    exact ⟨p, by rw [Option.bind_some, hread], readBlob_rotated fernet _ _ _⟩

/-- Between the first and the last replacement no key opens all credentials. -/
theorem Started.not_recoverable (h : Started fernet d key plaintext) (hne : inp.newKey ≠ key)
    (k : ℕ) (hk : 0 < k) (hkn : k < plaintext.length) (crashed : Disk K T)
    (hkey : crashed.key = some inp.newKey)
    (hbackup : (crashed.backups.read inp.timestamp).map KeyBackup.key = some key)
    (hother : ∀ v, v ∉ (plaintext.take k).map Prod.fst → crashed.enc.read v = d.enc.read v)
    (henc : ∀ up ∈ plaintext.take k, crashed.enc.read up.1
      = some (fernet.encrypt inp.newKey (inp.seed up.1) up.2.rotated)) :
    ¬ Recoverable fernet inp d key crashed := by
  rintro ⟨c, hc, hopens⟩
  have hnewOrOld : c = inp.newKey ∨ c = key := by
    rcases hc with hc | hc
    · exact Or.inl (Option.some.inj (hc.symm.trans hkey))
    · exact Or.inr (Option.some.inj (hc.symm.trans hbackup))
  have hread := (readAll_ok fernet d key _ plaintext h.decrypted).2
  rcases hnewOrOld with rfl | rfl
  · -- the first credential that is not yet replaced
    have hlast : plaintext[k] ∈ plaintext := List.getElem_mem hkn
    have hfresh : plaintext[k].1 ∉ (plaintext.take k).map Prod.fst := by
      have hsplit := h.nodup
      rw [← List.take_append_drop k plaintext, List.map_append, List.nodup_append] at hsplit
      have hdrop : plaintext[k] ∈ plaintext.drop k := by
        rw [List.drop_eq_getElem_cons hkn]
        exact List.mem_cons_self
      exact fun hmem => hsplit.2.2 _ hmem _ (List.mem_map_of_mem hdrop) rfl
    obtain ⟨blob, hblob, hold⟩ := Option.bind_eq_some_iff.mp (hread _ hlast)
    obtain ⟨p, _, hp⟩ := hopens plaintext[k].1 blob (by rw [hother _ hfresh, hblob])
    rw [readBlob_other fernet key inp.newKey blob _ hold hne] at hp
    cases hp
  · -- the first credential that is replaced
    have hzero : 0 < plaintext.length := lt_trans hk hkn
    have hfirst : plaintext[0] ∈ plaintext.take k := by
      rw [List.mem_take_iff_getElem]
      exact ⟨0, by omega, rfl⟩
    obtain ⟨p, _, hp⟩ := hopens _ _ (henc _ hfirst)
    have hnew := readBlob_rotated fernet (inp.seed plaintext[0].1) inp.newKey plaintext[0].2
    rw [readBlob_other fernet inp.newKey c _ _ hnew hne.symm] at hp
    cases hp

theorem Started.length (h : Started fernet d key plaintext) :
    plaintext.length = d.enc.items.length := by
  have hlen := congrArg List.length h.stems
  rw [List.length_map, listUuidsWithKeys, List.length_insertionSort, List.length_map] at hlen
  exact hlen

/-- After a crash the credentials can be recovered exactly when it does not fall
between the first and the last replacement of a credential. -/
theorem crash_recoverable_iff (h : Started fernet d key plaintext) (hne : inp.newKey ≠ key)
    (j : ℕ) :
    Recoverable fernet inp d key (crashAfter fernet inp d plaintext j) ↔
      ¬ (d.enc.items.length + 3 < j ∧ j < 2 * d.enc.items.length + 3) := by
  rw [← h.length]
  have hprep : (prepareSteps fernet inp plaintext).length = plaintext.length + 2 := by
    simp [prepareSteps]
  have hcommit : (commitSteps (T := T) inp plaintext).length = plaintext.length + 1 := by
    simp [commitSteps]
  have hcleanup : ∀ (names : List String) (i : ℕ),
      ∀ s ∈ (names.map (RotationStep.unlinkBackup (K := K) (T := T))).take i, Harmless s := by
    intro names i s hs
    obtain ⟨name, _, rfl⟩ := List.mem_map.mp (List.mem_of_mem_take hs)
    trivial
  by_cases hearly : j ≤ plaintext.length + 2
  · have htake : (rotationSteps fernet inp plaintext d).take j
        = (prepareSteps fernet inp plaintext).take j := by
      simp only [rotationSteps, List.append_assoc]
      exact List.take_append_of_le_length (by omega)
    obtain ⟨hkey, henc⟩ := applySteps_harmless ((prepareSteps fernet inp plaintext).take j)
      (fun s hs => prepare_harmless fernet inp plaintext s (List.mem_of_mem_take hs)) d
    rw [crashAfter, htake]
    have hrec := h.recoverable_old fernet inp _ (Or.inl (hkey.trans h.hasKey))
      fun v => by rw [henc]
    exact ⟨fun _ => by omega, fun _ => hrec⟩
  · by_cases hlate : 2 * plaintext.length + 3 ≤ j
    · have htake : ∃ (names : List String) (i : ℕ), (rotationSteps fernet inp plaintext d).take j
          = prepareSteps fernet inp plaintext ++ commitSteps inp plaintext
            ++ (names.map RotationStep.unlinkBackup).take i := by
        refine ⟨oldBackups inp (applySteps
          (prepareSteps fernet inp plaintext ++ commitSteps inp plaintext) d),
          j - (2 * plaintext.length + 3), ?_⟩
        simp only [rotationSteps]
        rw [List.take_append, List.take_of_length_le (by rw [List.length_append]; omega)]
        congr 2
        rw [List.length_append]
        omega
      obtain ⟨names, i, htake⟩ := htake
      obtain ⟨hkey, hnone, henc⟩ := h.finished fernet inp _ (hcleanup names i)
      rw [crashAfter, htake]
      have hrec := h.recoverable_new fernet _ hkey hnone henc
      exact ⟨fun _ => by omega, fun _ => hrec⟩
    · obtain ⟨k, rfl⟩ : ∃ k, j = plaintext.length + 2 + (k + 1) :=
        ⟨j - (plaintext.length + 3), by omega⟩
      have htake : (rotationSteps fernet inp plaintext d).take (plaintext.length + 2 + (k + 1))
          = prepareSteps fernet inp plaintext ++ (commitSteps inp plaintext).take (k + 1) := by
        simp only [rotationSteps, List.append_assoc]
        rw [List.take_append, List.take_of_length_le (by omega), hprep,
          List.take_append_of_le_length (by omega)]
        congr 2
        omega
      obtain ⟨hkey, hbackup, hother, henc⟩ := h.replaced fernet inp k
      have hold : ((applySteps (prepareSteps fernet inp plaintext ++
          (commitSteps inp plaintext).take (k + 1)) d).backups.read inp.timestamp).map
          KeyBackup.key = some key := by
        rw [hbackup]
        rfl
      rw [crashAfter, htake]
      by_cases hk : k = 0
      · subst hk
        have hrec := h.recoverable_old fernet inp _ (Or.inr hold)
          fun v => hother v (by simp)
        exact ⟨fun _ => by omega, fun _ => hrec⟩
      · have hnot := h.not_recoverable fernet hne k (by omega) (by omega) _ hkey hold hother henc
        exact ⟨fun hrec => absurd hrec hnot, fun hn => absurd ⟨by omega, by omega⟩ hn⟩

end Crash

/-- A cipher over numbered keys. -/
def numbered : AuthCipher ℕ Unit Plaintext (ℕ × Unit × Plaintext) :=
  AuthCipher.envelope ℕ Unit Plaintext

/-- The files of a user with two credentials under the key 0. -/
def twoCredentials : Disk ℕ (ℕ × Unit × Plaintext) :=
  saveKeysByUuid numbered 0 () 0 "b" ⟨"key-b", "secret-b", ""⟩
    (saveKeysByUuid numbered 0 () 0 "a" ⟨"key-a", "secret-a", "phrase"⟩ {})

/-- A rotation to the key 1. -/
def toKeyOne : RotationInput ℕ Unit := { newKey := 1, seed := fun _ => (), timestamp := "t", now := 5 }

theorem twoCredentials_started :
    Started numbered twoCredentials 0
      [("a", ⟨"key-a", "secret-a", "phrase"⟩), ("b", ⟨"key-b", "secret-b", ""⟩)] where
  hasKey := rfl
  decrypted := by decide +kernel

/-- Two credentials, and a crash after the first of them is replaced. -/
theorem crash_between_replacements :
    ¬ ∀ (K S T : Type) (fernet : AuthCipher K S Plaintext T) (inp : RotationInput K S)
      (d : Disk K T) (key : K) (plaintext : List (String × Credentials)),
      Started fernet d key plaintext → inp.newKey ≠ key → ∀ j,
      Recoverable fernet inp d key (crashAfter fernet inp d plaintext j) := by
  intro h
  obtain ⟨k, hk, hopens⟩ := h ℕ Unit _ numbered toKeyOne twoCredentials 0 _
    twoCredentials_started (by decide) 6
  obtain ⟨p, _, hp⟩ := hopens "a" (1, (), Credentials.rotated ⟨"key-a", "secret-a", "phrase"⟩)
    (by decide +kernel)
  obtain ⟨q, _, hq⟩ := hopens "b" (0, (), Credentials.saved ⟨"key-b", "secret-b", ""⟩)
    (by decide +kernel)
  -- the first file opens under the key 1 only, the second under the key 0 only
  by_cases hone : k = 1
  · subst hone
    have hnone : readBlob numbered 1 (0, (), Credentials.saved ⟨"key-b", "secret-b", ""⟩) = none := by
      decide
    rw [hnone] at hq
    cases hq
  · have hnone : readBlob numbered k
        (1, (), Credentials.rotated ⟨"key-a", "secret-a", "phrase"⟩) = none := by
      simp [readBlob, numbered, AuthCipher.envelope, Ne.symm hone]
    rw [hnone] at hp
    cases hp

/-- A crash right after the key is replaced. -/
theorem crash_before_replacements :
    Recoverable numbered toKeyOne twoCredentials 0
      (crashAfter numbered toKeyOne twoCredentials
        [("a", ⟨"key-a", "secret-a", "phrase"⟩), ("b", ⟨"key-b", "secret-b", ""⟩)] 5) :=
  (crash_recoverable_iff numbered twoCredentials_started (by decide) 5).mpr (by decide +kernel)

end FernetCredentialProvider

end Reverto
