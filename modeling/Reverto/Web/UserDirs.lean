import Mathlib.Tactic
import Reverto.Web.BotSlugs

/-!
# The scan of the user directories (web/app.py)

`BotRegistry._scan_user_dirs` with the module state it keeps from scan to scan: the last set
of active users, the failed reads since, the time of the last successful one and the orphans
already logged.
-/

namespace Reverto

namespace UserDirs

/-- `_MAX_STALE_REFRESHES` -/
def maxStaleRefreshes : ℕ := 5

/-- `_CACHE_TTL_S` -/
def cacheTtlS : ℚ := 30

/-! ### The integer in a name -/

/-- The zeros of the decimal digits that Python reads; the other nine follow each. -/
def digitZeros : List ℕ :=
  [0x30, 0x660, 0x6f0, 0x7c0, 0x966, 0x9e6, 0xa66, 0xae6, 0xb66, 0xbe6, 0xc66, 0xce6, 0xd66,
    0xde6, 0xe50, 0xed0, 0xf20, 0x1040, 0x1090, 0x17e0, 0x1810, 0x1946, 0x19d0, 0x1a80, 0x1a90,
    0x1b50, 0x1bb0, 0x1c40, 0x1c50, 0xa620, 0xa8d0, 0xa900, 0xa9d0, 0xa9f0, 0xaa50, 0xabf0,
    0xff10, 0x104a0, 0x10d30, 0x11066, 0x110f0, 0x11136, 0x111d0, 0x112f0, 0x11450, 0x114d0,
    0x11650, 0x116c0, 0x11730, 0x118e0, 0x11950, 0x11c50, 0x11d50, 0x11da0, 0x16a60, 0x16ac0,
    0x16b50, 0x1d7ce, 0x1d7d8, 0x1d7e2, 0x1d7ec, 0x1d7f6, 0x1e140, 0x1e2f0, 0x1e950, 0x1fbf0]

def digitValue (c : Char) : Option ℕ :=
  (digitZeros.find? fun z => z ≤ c.toNat ∧ c.toNat < z + 10).map fun z => c.toNat - z

/-- The digits after the first, which single underscores may group. -/
def readDigits (acc : ℕ) : List Char → Option ℕ
  | [] => some acc
  | '_' :: c :: cs => (digitValue c).bind fun v => readDigits (10 * acc + v) cs
  | c :: cs => (digitValue c).bind fun v => readDigits (10 * acc + v) cs

/-- `int(child.name)`; `none` is the `ValueError`. -/
def intName (name : String) : Option ℤ :=
  match strip isSpace name.toList with
  | '-' :: c :: cs => ((digitValue c).bind fun v => readDigits v cs).map fun n => -(n : ℤ)
  | '+' :: c :: cs => ((digitValue c).bind fun v => readDigits v cs).map fun n => (n : ℤ)
  | c :: cs => ((digitValue c).bind fun v => readDigits v cs).map fun n => (n : ℤ)
  | [] => none

/-! ### The directory scan -/

/-- An entry of `CONFIG_DIR`. -/
structure Child where
  name : String
  isDir : Bool
  deriving DecidableEq, Repr

/-- The globals `_cached_active_users`, `_db_failure_count`, `_cache_last_refresh_ts` and
`_previously_logged_orphans`. -/
structure UserCache where
  cachedActiveUsers : Option (Finset ℤ) := none
  dbFailureCount : ℕ := 0
  cacheLastRefreshTs : ℚ := 0
  previouslyLoggedOrphans : Finset String := ∅

/-- The directories of a loop round: the users' and the orphans. -/
def sortChild (active : Finset ℤ) (acc : List (ℤ × String) × Finset String) (child : Child) :
    List (ℤ × String) × Finset String :=
  if !child.isDir then acc
  else
    match intName child.name with
    | none => acc
    | some uid =>
      if uid ∈ active then (acc.1 ++ [(uid, child.name)], acc.2)
      else (acc.1, insert child.name acc.2)

/-- `_scan_active_dirs`: the directories of active users; `none` is a `CONFIG_DIR` that does
not exist. -/
def scanActiveDirs (active : Finset ℤ) (configDir : Option (List Child)) (c : UserCache) :
    List (ℤ × String) × UserCache :=
  match configDir with
  | none => ([], { c with previouslyLoggedOrphans := ∅ })
  | some children =>
    let out := (children.insertionSort fun a b => a.name ≤ b.name).foldl (sortChild active) ([], ∅)
    (out.1, { c with previouslyLoggedOrphans := out.2 })

/-- One scan: its time, what the users table would answer (`none` raises), the directory. -/
structure Scan where
  now : ℚ
  users : Option (Finset ℤ)
  configDir : Option (List Child)

/-- What a scan leaves in the log: whether it asked the users table and what it returned. -/
structure ScanRecord where
  now : ℚ
  asked : Option (Option (Finset ℤ))
  dirs : List (ℤ × String)

/-- The users of the cache-hit path. -/
def cacheHit (c : UserCache) (now : ℚ) : Option (Finset ℤ) :=
  if now - c.cacheLastRefreshTs < cacheTtlS then c.cachedActiveUsers else none

/-- The cache-miss path up to the directory scan; `none` is the empty registry. -/
def refreshUsers (c : UserCache) (i : Scan) : Option (Finset ℤ) × UserCache :=
  match i.users with
  | some active => (some active,
      { c with
        cachedActiveUsers := some active
        dbFailureCount := 0
        cacheLastRefreshTs := i.now })
  | none =>
    let failed := { c with dbFailureCount := c.dbFailureCount + 1 }
    match c.cachedActiveUsers with
    | none => (none, { failed with previouslyLoggedOrphans := ∅ })
    | some cached =>
      if maxStaleRefreshes < failed.dbFailureCount then
        (none, { failed with previouslyLoggedOrphans := ∅ })
      else (some cached, failed)

/-- `_scan_user_dirs` -/
def scanUserDirs (c : UserCache) (i : Scan) : ScanRecord × UserCache :=
  match cacheHit c i.now with
  | some cached =>
    (⟨i.now, none, (scanActiveDirs cached i.configDir c).1⟩,
      (scanActiveDirs cached i.configDir c).2)
  | none =>
    match refreshUsers c i with
    | (none, c') => (⟨i.now, some i.users, []⟩, c')
    | (some active, c') =>
      (⟨i.now, some i.users, (scanActiveDirs active i.configDir c').1⟩,
        (scanActiveDirs active i.configDir c').2)

/-- The scans so far with their records, from the start of the portal. -/
def scans (ins : List Scan) : List ScanRecord × UserCache :=
  ins.foldl (fun acc i => (acc.1 ++ [(scanUserDirs acc.2 i).1], (scanUserDirs acc.2 i).2)) ([], {})

/-! ### What a scan returns -/

/-- The users table was asked and did not answer. -/
def failed (r : ScanRecord) : Bool := r.asked = some none

/-- A set that the users table answered, within the TTL or few failed reads ago. -/
def Backed (log : List ScanRecord) (now : ℚ) (users : Finset ℤ) : Prop :=
  ∃ earlier r later, log = earlier ++ r :: later ∧ r.asked = some (some users) ∧
    (now - r.now < cacheTtlS ∨ later.countP failed ≤ maxStaleRefreshes)

/-- The cached set is the last answer, with its time and the failures since. -/
def Known (log : List ScanRecord) (c : UserCache) : Prop :=
  ∀ users, c.cachedActiveUsers = some users → ∃ earlier r later, log = earlier ++ r :: later ∧
    r.asked = some (some users) ∧ r.now = c.cacheLastRefreshTs ∧
    later.countP failed = c.dbFailureCount

theorem sortChild_active (active : Finset ℤ) (children : List Child)
    (acc : List (ℤ × String) × Finset String) (h : ∀ x ∈ acc.1, x.1 ∈ active) :
    ∀ x ∈ (children.foldl (sortChild active) acc).1, x.1 ∈ active := by
  induction children generalizing acc with
  | nil => exact h
  | cons child children ih =>
    apply ih
    unfold sortChild
    split
    · exact h
    · split
      · exact h
      · split
        · rename_i uid _ hin
          intro x hx
          rcases List.mem_append.mp hx with hx | hx
          · exact h x hx
          · rw [List.mem_singleton.mp hx]
            exact hin
        · exact h

/-- Only directories of the given users are returned. -/
theorem scanActiveDirs_active (active : Finset ℤ) (configDir : Option (List Child))
    (c : UserCache) : ∀ x ∈ (scanActiveDirs active configDir c).1, x.1 ∈ active := by
  intro x hx
  cases configDir with
  | none => cases hx
  | some children =>
    exact sortChild_active active _ ([], ∅) (fun y hy => by cases hy) x hx

theorem known_scanActiveDirs (log : List ScanRecord) (active : Finset ℤ)
    (configDir : Option (List Child)) (c : UserCache) (h : Known log c) :
    Known log (scanActiveDirs active configDir c).2 := by
  cases configDir with
  | none => exact h
  | some children => exact h

/-- A scan that reads no set adds its failure to the count, if it has one. -/
theorem known_append (log : List ScanRecord) (c c' : UserCache) (r' : ScanRecord)
    (h : Known log c) (hcached : c'.cachedActiveUsers = c.cachedActiveUsers)
    (hts : c'.cacheLastRefreshTs = c.cacheLastRefreshTs)
    (hcount : c'.dbFailureCount = c.dbFailureCount + [r'].countP failed) :
    Known (log ++ [r']) c' := by
  intro users hsome
  rw [hcached] at hsome
  obtain ⟨earlier, r, later, hlog, hasked, hnow, hlater⟩ := h users hsome
  refine ⟨earlier, r, later ++ [r'], ?_, hasked, hnow.trans hts.symm, ?_⟩
  · rw [hlog, List.append_assoc, List.cons_append]
  · rw [List.countP_append, hlater, hcount]

theorem backed_hit (log : List ScanRecord) (c : UserCache) (now : ℚ) (users : Finset ℤ)
    (r' : ScanRecord) (h : Known log c) (hhit : cacheHit c now = some users) :
    Backed (log ++ [r']) now users := by
  unfold cacheHit at hhit
  split at hhit
  · rename_i hfresh
    obtain ⟨earlier, r, later, hlog, hasked, hnow, _⟩ := h users hhit
    refine ⟨earlier, r, later ++ [r'], ?_, hasked, .inl ?_⟩
    · rw [hlog, List.append_assoc, List.cons_append]
    · rw [hnow]
      exact hfresh
  · cases hhit

/-- A miss keeps what is known and gives back backed users or none. -/
theorem known_refresh (log : List ScanRecord) (c : UserCache) (i : Scan)
    (dirs : List (ℤ × String)) (h : Known log c) :
    Known (log ++ [⟨i.now, some i.users, dirs⟩]) (refreshUsers c i).2 ∧
      ∀ users, (refreshUsers c i).1 = some users →
        Backed (log ++ [⟨i.now, some i.users, dirs⟩]) i.now users := by
  unfold refreshUsers
  cases husers : i.users with
  | some active =>
    refine ⟨fun users hcached => ?_, fun users hsome => ?_⟩
    · cases hcached
      exact ⟨log, _, [], rfl, rfl, rfl, rfl⟩
    · cases hsome
      exact ⟨log, _, [], rfl, rfl, .inr (Nat.zero_le _)⟩
  | none =>
    have hkept : ∀ c' : UserCache, c'.cachedActiveUsers = c.cachedActiveUsers →
        c'.cacheLastRefreshTs = c.cacheLastRefreshTs →
        c'.dbFailureCount = c.dbFailureCount + 1 → Known (log ++ [⟨i.now, some none, dirs⟩]) c' :=
      fun c' => known_append log c c' ⟨i.now, some none, dirs⟩ h
    cases hcached : c.cachedActiveUsers with
    | none => exact ⟨hkept _ hcached.symm rfl rfl, fun users hsome => by cases hsome⟩
    | some cached =>
      have hmiss := hkept
        { c with cachedActiveUsers := some cached, dbFailureCount := c.dbFailureCount + 1 }
        hcached.symm rfl rfl
      dsimp only
      split
      · exact ⟨hmiss, fun users hsome => by cases hsome⟩
      · rename_i hfew
        refine ⟨hmiss, fun users hsome => ?_⟩
        cases hsome
        obtain ⟨earlier, r, later, hlog, hasked, _, hcount⟩ := hmiss cached rfl
        refine ⟨earlier, r, later, hlog, hasked, .inr ?_⟩
        rw [hcount]
        exact not_lt.mp hfew

/-- One scan. -/
theorem known_scan (log : List ScanRecord) (c : UserCache) (i : Scan) (h : Known log c) :
    Known (log ++ [(scanUserDirs c i).1]) (scanUserDirs c i).2 ∧
      ((scanUserDirs c i).1.dirs = [] ∨
        ∃ users, Backed (log ++ [(scanUserDirs c i).1]) i.now users ∧
          ∀ x ∈ (scanUserDirs c i).1.dirs, x.1 ∈ users) := by
  unfold scanUserDirs
  cases hhit : cacheHit c i.now with
  | some cached =>
    dsimp only
    refine ⟨known_scanActiveDirs _ cached i.configDir c ?_, .inr ?_⟩
    · exact known_append log c c _ h rfl rfl rfl
    · exact ⟨cached, backed_hit log c i.now cached _ h hhit,
        scanActiveDirs_active cached i.configDir c⟩
  | none =>
    dsimp only
    cases hrefresh : refreshUsers c i with
    | mk users c' =>
      cases users with
      | none =>
        have hmiss := known_refresh log c i [] h
        rw [hrefresh] at hmiss
        exact ⟨hmiss.1, .inl rfl⟩
      | some active =>
        have hmiss := known_refresh log c i (scanActiveDirs active i.configDir c').1 h
        rw [hrefresh] at hmiss
        refine ⟨known_scanActiveDirs _ active i.configDir c' hmiss.1, .inr ?_⟩
        exact ⟨active, hmiss.2 active rfl, scanActiveDirs_active active i.configDir c'⟩

theorem scans_append (ins : List Scan) (i : Scan) :
    scans (ins ++ [i]) =
      ((scans ins).1 ++ [(scanUserDirs (scans ins).2 i).1], (scanUserDirs (scans ins).2 i).2) := by
  unfold scans
  rw [List.foldl_append, List.foldl_cons, List.foldl_nil]

theorem known_scans (ins : List Scan) : Known (scans ins).1 (scans ins).2 := by
  induction ins using List.reverseRecOn with
  | nil =>
    intro users hcached
    cases hcached
  | append_singleton ins i ih =>
    rw [scans_append]
    exact (known_scan (scans ins).1 (scans ins).2 i ih).1

/-- Five failed reads are bridged, the sixth is not. -/
example :
    let up : Scan := ⟨0, some {1}, some [⟨"1", true⟩, ⟨"2", true⟩, ⟨"_backup", true⟩]⟩
    let down : Scan := ⟨30, none, some [⟨"1", true⟩, ⟨"2", true⟩, ⟨"_backup", true⟩]⟩
    (scans [up, down, down, down, down, down, down]).1.map (·.dirs) =
      [[(1, "1")], [(1, "1")], [(1, "1")], [(1, "1")], [(1, "1")], [(1, "1")], []] := by
  decide +kernel

end UserDirs

end Reverto
