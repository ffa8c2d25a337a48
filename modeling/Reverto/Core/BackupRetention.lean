import Mathlib.Tactic
import Reverto.Core.RotatedSecrets
import Reverto.Lib.Timeline

/-!
# Retention of key backups (core/credentials.py)

A rotation copies the key it replaces with `copy2`, so the backup has the mtime of
the key file, and the sweep at its end compares that mtime with the clock.
-/

namespace Reverto

namespace FernetCredentialProvider

variable {K S T : Type} (fernet : AuthCipher K S Plaintext T)

/-- A rotation, and the mtime of the key file it meets. -/
structure KeyReplacement (K S : Type) where
  inp : RotationInput K S
  keyMtime : Instant

namespace KeyReplacement

/-- When the key is replaced. -/
def now (r : KeyReplacement K S) : Instant := r.inp.now

/-- The name of the backup. -/
def name (r : KeyReplacement K S) : String := r.inp.timestamp

/-- `cutoff` -/
def cutoff (r : KeyReplacement K S) : Instant := r.inp.now - r.inp.retentionDays * 86400000000

/-- `rotate_user_key` on a key file of that age. -/
def apply (r : KeyReplacement K S) (d : Disk K T) : Except RotationError (Disk K T) :=
  (rotateUserKey fernet r.inp { d with keyMtime := r.keyMtime }).map Prod.snd

end KeyReplacement

/-- The rotations in turn. -/
def replaceAll : List (KeyReplacement K S) → Disk K T → Except RotationError (Disk K T)
  | [], d => .ok d
  | r :: rs, d =>
    match r.apply fernet d with
    | .error e => .error e
    | .ok d => replaceAll rs d

/-- Successful rotations one after another. The name of a backup is the time to the
microsecond. -/
structure RotationRun (fernet : AuthCipher K S Plaintext T) where
  start : Disk K T
  replacements : List (KeyReplacement K S)
  days : ℤ
  finish : Disk K T
  ordered : Timeline.Increasing KeyReplacement.now replacements
  named : (replacements.map KeyReplacement.name).Nodup
  retention : ∀ r ∈ replacements, r.inp.retentionDays = days
  succeeded : replaceAll fernet replacements start = .ok finish

namespace RotationRun

variable {fernet}

/-- The files when the rotations before a time are done. -/
def diskBefore (run : RotationRun fernet) (t : Instant) : Except RotationError (Disk K T) :=
  replaceAll fernet (Timeline.before KeyReplacement.now t run.replacements) run.start

/-- The backup a rotation made is there. -/
def Present (run : RotationRun fernet) (r : KeyReplacement K S) (t : Instant) : Prop :=
  ∃ d, run.diskBefore t = .ok d ∧ d.backups.read r.name ≠ none

/-- Every backup stays for the retention time, and only a later rotation removes it. -/
structure Retained (run : RotationRun fernet) : Prop where
  kept : ∀ r ∈ run.replacements, ∀ t, r.now < t → t ≤ r.now + run.days * 86400000000 →
    run.Present r t
  swept_later : ∀ r ∈ run.replacements, run.Present r (r.now + 1)

/-- No rotation before the end of the retention time comes later than that time after the
key file was written. -/
def WrittenLately (run : RotationRun fernet) : Prop :=
  ∀ r ∈ run.replacements, ∀ r' ∈ run.replacements, r.now ≤ r'.now →
    (r'.now < r.now + run.days * 86400000000 ∨ r'.now = r.now) →
      r'.now ≤ r.keyMtime + run.days * 86400000000

end RotationRun

/-! ### One rotation -/

/-- The changes that touch no backup. -/
def SparesBackups : RotationStep K T → Prop
  | .copyBackup _ | .unlinkBackup _ => False
  | _ => True

theorem applySteps_backups (steps : List (RotationStep K T)) (h : ∀ s ∈ steps, SparesBackups s)
    (d : Disk K T) : (applySteps steps d).backups = d.backups := by
  induction steps generalizing d with
  | nil => rfl
  | cons s steps ih =>
    have hone : (s.apply d).backups = d.backups := by
      have hs := h s List.mem_cons_self
      cases s with
      | copyBackup timestamp => exact absurd hs id
      | unlinkBackup timestamp => exact absurd hs id
      | writeTmp uuid blob => rfl
      | writeKeyTmp key => rfl
      | replaceKey now =>
        simp only [RotationStep.apply]
        split
        · rfl
        · rfl
      | replaceEnc uuid =>
        simp only [RotationStep.apply]
        split
        · rfl
        · rfl
    have hrest := ih (fun t ht => h t (List.mem_cons_of_mem s ht)) (s.apply d)
    exact hrest.trans hone

theorem unlinkBackups_read (names : List String) (d : Disk K T) (n : String) :
    (applySteps (names.map .unlinkBackup) d).backups.read n =
      if n ∈ names then none else d.backups.read n := by
  induction names generalizing d with
  | nil => rfl
  | cons m names ih =>
    have hcons : applySteps ((m :: names).map .unlinkBackup) d =
        applySteps (names.map .unlinkBackup) { d with backups := d.backups.pop m } := rfl
    rw [hcons, ih]
    by_cases hmem : n ∈ names
    · rw [if_pos hmem, if_pos (List.mem_cons_of_mem m hmem)]
    · rw [if_neg hmem]
      by_cases hnm : n = m
      · subst hnm
        rw [if_pos List.mem_cons_self]
        exact Files.read_pop_self _ _
      · rw [if_neg (by simp [hnm, hmem])]
        exact Files.read_pop_of_ne _ _ _ hnm

/-- The sweep keeps what is not older than the cutoff. -/
theorem mem_oldBackups (inp : RotationInput K S) (d : Disk K T) (n : String) :
    n ∈ oldBackups inp d ↔
      ∃ b, d.backups.read n = some b ∧ b.mtime < inp.now - inp.retentionDays * 86400000000 := by
  simp only [oldBackups, List.mem_map, List.mem_filter, decide_eq_true_eq]
  constructor
  · intro h
    obtain ⟨⟨m, b⟩, ⟨hmem, hold⟩, rfl⟩ := h
    have hget := KeyedDict.get?_of_mem d.backups (m, b) hmem
    exact ⟨b, by rw [Files.read, hget]; rfl, hold⟩
  · intro h
    obtain ⟨b, hread, hold⟩ := h
    rw [Files.read, Option.map_eq_some_iff] at hread
    obtain ⟨⟨m, b'⟩, hget, rfl⟩ := hread
    obtain ⟨hmem, hkey⟩ := (KeyedDict.get?_eq_some_iff d.backups n (m, b')).mp hget
    exact ⟨(m, b'), ⟨hmem, hold⟩, hkey⟩

theorem sweep_read (inp : RotationInput K S) (d : Disk K T) (n : String) :
    (applySteps ((oldBackups inp d).map .unlinkBackup) d).backups.read n =
      (d.backups.read n).filter fun b =>
        decide (inp.now - inp.retentionDays * 86400000000 ≤ b.mtime) := by
  rw [unlinkBackups_read]
  cases hread : d.backups.read n with
  | none =>
    rw [if_neg]
    · rfl
    · rw [mem_oldBackups, hread]
      rintro ⟨b, hb, _⟩
      cases hb
  | some b =>
    by_cases hold : b.mtime < inp.now - inp.retentionDays * 86400000000
    · rw [if_pos ((mem_oldBackups inp d n).mpr ⟨b, hread, hold⟩), Option.filter_some,
        if_neg (by rw [decide_eq_true_eq]; exact not_le.mpr hold)]
    · rw [if_neg, Option.filter_some, if_pos (by rw [decide_eq_true_eq]; exact not_lt.mp hold)]
      rw [mem_oldBackups, hread]
      rintro ⟨b', hb', hold'⟩
      cases hb'
      exact hold hold'

theorem rotationSteps_backups (inp : RotationInput K S) (plaintext : List (String × Credentials))
    (d : Disk K T) (key : K) (hkey : d.key = some key) :
    (applySteps (prepareSteps fernet inp plaintext ++ commitSteps inp plaintext) d).backups =
      d.backups.write inp.timestamp ⟨key, d.keyMtime⟩ := by
  have hcopy : RotationStep.apply d (.copyBackup inp.timestamp) =
      { d with backups := d.backups.write inp.timestamp ⟨key, d.keyMtime⟩ } := by
    simp only [RotationStep.apply, hkey]
  have hsplit : prepareSteps fernet inp plaintext ++ commitSteps inp plaintext =
      .copyBackup inp.timestamp :: (plaintext.map (fun up =>
        .writeTmp up.1 (fernet.encrypt inp.newKey (inp.seed up.1) up.2.rotated)) ++
          .writeKeyTmp inp.newKey :: commitSteps inp plaintext) := by
    simp [prepareSteps]
  rw [hsplit]
  have hrest := applySteps_backups (plaintext.map (fun up =>
        .writeTmp up.1 (fernet.encrypt inp.newKey (inp.seed up.1) up.2.rotated)) ++
          .writeKeyTmp inp.newKey :: commitSteps inp plaintext) ?_
    (RotationStep.apply d (.copyBackup inp.timestamp))
  · refine hrest.trans ?_
    rw [hcopy]
  · intro s hs
    simp only [commitSteps, List.mem_append, List.mem_cons, List.mem_map] at hs
    rcases hs with ⟨up, _, rfl⟩ | rfl | rfl | ⟨up, _, rfl⟩
    · trivial
    · trivial
    · trivial
    · trivial

/-- The backups after a rotation: the old key under its name, and what the sweep keeps. -/
theorem apply_read (r : KeyReplacement K S) (d d' : Disk K T) (h : r.apply fernet d = .ok d') :
    ∃ key, ∀ n, d'.backups.read n =
      ((d.backups.write r.name ⟨key, r.keyMtime⟩).read n).filter fun b =>
        decide (r.cutoff ≤ b.mtime) := by
  unfold KeyReplacement.apply at h
  cases hrot : rotateUserKey fernet r.inp { d with keyMtime := r.keyMtime } with
  | error e =>
    rw [hrot] at h
    cases h
  | ok result =>
    rw [hrot] at h
    cases h
    obtain ⟨key, plaintext, hstart, hdisk⟩ := rotateUserKey_ok r.inp _ result.2 result.1 hrot
    refine ⟨key, fun n => ?_⟩
    have hbackups := rotationSteps_backups fernet r.inp plaintext { d with keyMtime := r.keyMtime }
      key hstart.hasKey
    rw [hdisk, rotationSteps, applySteps_append, sweep_read, hbackups]
    rfl

/-! ### A run of rotations -/

section Run

variable {fernet}

theorem replaceAll_cons (r : KeyReplacement K S) (rs : List (KeyReplacement K S)) (d d' : Disk K T)
    (h : replaceAll fernet (r :: rs) d = .ok d') :
    ∃ e, r.apply fernet d = .ok e ∧ replaceAll fernet rs e = .ok d' := by
  rw [replaceAll] at h
  cases hr : r.apply fernet d with
  | error e =>
    rw [hr] at h
    cases h
  | ok e =>
    rw [hr] at h
    exact ⟨e, rfl, h⟩

theorem replaceAll_append (rs rs' : List (KeyReplacement K S)) (d d' : Disk K T)
    (h : replaceAll fernet (rs ++ rs') d = .ok d') :
    ∃ e, replaceAll fernet rs d = .ok e ∧ replaceAll fernet rs' e = .ok d' := by
  induction rs generalizing d with
  | nil => exact ⟨d, rfl, h⟩
  | cons r rs ih =>
    obtain ⟨e, hr, hrest⟩ := replaceAll_cons r (rs ++ rs') d d' h
    obtain ⟨f, hf, hrs'⟩ := ih e hrest
    refine ⟨f, ?_, hrs'⟩
    rw [replaceAll, hr]
    exact hf

/-- A backup under a name that no rotation takes lasts as long as every sweep keeps it. -/
theorem replaceAll_read (rs : List (KeyReplacement K S)) (n : String)
    (hn : n ∉ rs.map KeyReplacement.name) (d d' : Disk K T) (h : replaceAll fernet rs d = .ok d') :
    d'.backups.read n =
      (d.backups.read n).filter fun b => rs.all fun r => decide (r.cutoff ≤ b.mtime) := by
  induction rs generalizing d with
  | nil =>
    cases h
    cases hd : d'.backups.read n with
    | none => rfl
    | some b => rfl
  | cons r rs ih =>
    rw [List.map_cons, List.mem_cons, not_or] at hn
    obtain ⟨e, hr, hrest⟩ := replaceAll_cons r rs d d' h
    obtain ⟨key, hread⟩ := apply_read fernet r d e hr
    rw [ih hn.2 e hrest, hread n, Files.read_write_of_ne _ _ _ _ hn.1, Option.filter_filter]
    simp

/-- The backup of the first rotation of a list after all of them. -/
theorem replaceAll_present_iff (r : KeyReplacement K S) (rs : List (KeyReplacement K S))
    (hn : r.name ∉ rs.map KeyReplacement.name) (d d' : Disk K T)
    (h : replaceAll fernet (r :: rs) d = .ok d') :
    d'.backups.read r.name ≠ none ↔ ∀ r' ∈ r :: rs, r'.cutoff ≤ r.keyMtime := by
  obtain ⟨e, hr, hrest⟩ := replaceAll_cons r rs d d' h
  obtain ⟨key, hread⟩ := apply_read fernet r d e hr
  rw [replaceAll_read rs r.name hn e d' hrest, hread r.name, Files.read_write_self,
    Option.filter_filter]
  have hsweeps : (decide (r.cutoff ≤ r.keyMtime) &&
      rs.all fun r' => decide (r'.cutoff ≤ r.keyMtime)) = true ↔
        ∀ r' ∈ r :: rs, r'.cutoff ≤ r.keyMtime := by
    rw [Bool.and_eq_true, List.all_eq_true, List.forall_mem_cons]
    simp only [decide_eq_true_eq]
  rw [Option.filter_some, ← hsweeps]
  split
  · rename_i hkeep
    exact iff_of_true (Option.some_ne_none _) hkeep
  · rename_i hdrop
    exact iff_of_false (fun h => h rfl) hdrop

namespace RotationRun

variable (run : RotationRun fernet) (r : KeyReplacement K S) (hr : r ∈ run.replacements)

include hr

theorem cutoff_eq : r.cutoff = r.now - run.days * 86400000000 := by
  rw [KeyReplacement.cutoff, KeyReplacement.now, run.retention r hr]

/-- The backup is there at a time when no sweep since it was made has taken it. -/
theorem present_iff (t : Instant) (ht : r.now < t) :
    run.Present r t ↔ ∀ r' ∈ run.replacements, r.now ≤ r'.now → r'.now < t →
      r'.cutoff ≤ r.keyMtime := by
  obtain ⟨l, l', hsplit⟩ := List.append_of_mem hr
  have hordered := run.ordered
  have hnamed := run.named
  rw [Timeline.Increasing, hsplit] at hordered
  rw [hsplit, List.map_append, List.map_cons] at hnamed
  obtain ⟨_, hafter, hcross⟩ := List.pairwise_append.mp hordered
  have hlater := (List.pairwise_cons.mp hafter).1
  have hbefore : Timeline.before KeyReplacement.now t run.replacements =
      l ++ r :: Timeline.before KeyReplacement.now t l' := by
    have hl : Timeline.before KeyReplacement.now t l = l := by
      rw [Timeline.before, List.filter_eq_self]
      intro a ha
      have hlt := hcross a ha r List.mem_cons_self
      rw [decide_eq_true_eq]
      exact hlt.trans ht
    rw [hsplit, Timeline.before, List.filter_append, List.filter_cons_of_pos (by simpa using ht)]
    exact congrArg (· ++ _) hl
  have hn : r.name ∉ (Timeline.before KeyReplacement.now t l').map KeyReplacement.name := by
    intro hmem
    obtain ⟨a, ha, hname⟩ := List.mem_map.mp hmem
    have hnodup := (List.nodup_cons.mp (List.nodup_append.mp hnamed).2.1).1
    rw [← hname] at hnodup
    exact hnodup (List.mem_map_of_mem (List.mem_of_mem_filter ha))
  have hwhole : run.replacements = (l ++ r :: Timeline.before KeyReplacement.now t l') ++
      run.replacements.dropWhile (fun a => decide (a.now < t)) := by
    rw [← hbefore, ← Timeline.takeWhile_eq_before KeyReplacement.now t _
      (Timeline.sorted_of_increasing _ _ run.ordered)]
    exact (List.takeWhile_append_dropWhile).symm
  have hsucceeded := run.succeeded
  rw [hwhole] at hsucceeded
  obtain ⟨d, hd, _⟩ := replaceAll_append _ _ run.start run.finish hsucceeded
  obtain ⟨e, _, hrest⟩ := replaceAll_append l _ run.start d hd
  have hdisk : run.diskBefore t = .ok d := by rw [diskBefore, hbefore, hd]
  have hpresent : run.Present r t ↔ d.backups.read r.name ≠ none := by
    constructor
    · intro h
      obtain ⟨d', hd', hread⟩ := h
      rw [hdisk] at hd'
      cases hd'
      exact hread
    · intro h
      exact ⟨d, hdisk, h⟩
  rw [hpresent, replaceAll_present_iff r _ hn e d hrest]
  constructor
  · intro h r' hr' hle hlt
    refine h r' ?_
    rw [hsplit] at hr'
    rcases List.mem_append.mp hr' with hearly | hr'
    · exact absurd (hcross r' hearly r List.mem_cons_self) (not_lt.mpr hle)
    · rcases List.mem_cons.mp hr' with rfl | hr'
      · exact List.mem_cons_self
      · exact List.mem_cons_of_mem r ((Timeline.mem_before _ t l' r').mpr ⟨hr', hlt⟩)
  · intro h r' hr'
    rcases List.mem_cons.mp hr' with rfl | hr'
    · exact h r' hr le_rfl ht
    · obtain ⟨hmem, hlt⟩ := (Timeline.mem_before _ t l' r').mp hr'
      refine h r' ?_ (hlater r' hmem).le hlt
      rw [hsplit]
      exact List.mem_append_right l (List.mem_cons_of_mem r hmem)

end RotationRun

/-- Backups are retained where the keys were young enough when they were replaced. -/
theorem RotationRun.retained_iff (run : RotationRun fernet) : run.Retained ↔ run.WrittenLately := by
  constructor
  · intro h r hr r' hr' hle hwhen
    have hcutoff : r'.cutoff ≤ r.keyMtime := by
      rcases hwhen with hwithin | hsame
      · refine (run.present_iff r hr (r'.now + 1) ?_).mp ?_ r' hr' hle (Int.lt_succ r'.now)
        · exact Int.lt_add_one_iff.mpr hle
        · exact h.kept r hr (r'.now + 1) (Int.lt_add_one_iff.mpr hle) hwithin
      · refine (run.present_iff r hr (r.now + 1) (Int.lt_succ r.now)).mp (h.swept_later r hr) r' hr'
          hle ?_
        rw [hsame]
        exact Int.lt_succ r.now
    rw [run.cutoff_eq r' hr'] at hcutoff
    exact sub_le_iff_le_add.mp hcutoff
  · intro h
    refine ⟨fun r hr t hlt hle => ?_, fun r hr => ?_⟩
    · refine (run.present_iff r hr t hlt).mpr fun r' hr' hfrom hto => ?_
      have hyoung := h r hr r' hr' hfrom (.inl (lt_of_lt_of_le hto hle))
      rw [run.cutoff_eq r' hr']
      exact sub_le_iff_le_add.mpr hyoung
    · refine (run.present_iff r hr (r.now + 1) (Int.lt_succ r.now)).mpr fun r' hr' hfrom hto => ?_
      have hsame : r'.now = r.now := le_antisymm (Int.lt_add_one_iff.mp hto) hfrom
      have hyoung := h r hr r' hr' hfrom (.inr hsame)
      rw [run.cutoff_eq r' hr']
      exact sub_le_iff_le_add.mpr hyoung

end Run

/-- A key that was written eight days before it is rotated for the first time. -/
def agedKey : KeyReplacement ℕ Unit := ⟨⟨1, fun _ => (), "t", 8 * 86400000000, 7⟩, 0⟩

/-- The rotation of that key. -/
def agedKeyRun : RotationRun numbered where
  start := { key := some 0 }
  replacements := [agedKey]
  days := 7
  finish := { key := some 1, keyMtime := 8 * 86400000000 }
  ordered := List.pairwise_singleton _ _
  named := List.nodup_singleton _
  retention := by
    intro r hr
    rw [List.mem_singleton.mp hr]
    rfl
  succeeded := rfl

/-- The rotation removes its own backup. -/
theorem not_retained_agedKey : ¬ agedKeyRun.Retained := by
  intro h
  obtain ⟨d, hd, hread⟩ := h.swept_later agedKey List.mem_cons_self
  cases hd
  exact hread rfl

end FernetCredentialProvider

end Reverto
