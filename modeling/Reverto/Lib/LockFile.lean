import Mathlib.Tactic

/-!
# A lock file

A path that names an inode or none, and the advisory locks on inodes. Opening the path
creates the file where there is none; unlinking it takes the name away and leaves the
inode to those who have it open. A lock belongs to an inode, not to a name.
-/

/-- The name, the inodes used so far, and who holds the lock of which inode. -/
structure LockFile (W : Type) where
  linked : Option ℕ := none
  inodes : ℕ := 0
  owner : ℕ → Option W := fun _ => none

namespace LockFile

variable {W : Type}

/-- Open the path, or touch it: the inode it names, which is new where it named none. -/
def create (f : LockFile W) : ℕ × LockFile W :=
  match f.linked with
  | some inode => (inode, f)
  | none => (f.inodes, { f with linked := some f.inodes, inodes := f.inodes + 1 })

/-- `flock(LOCK_EX | LOCK_NB)`; `none` where another holds the lock. -/
def lock (f : LockFile W) (w : W) (inode : ℕ) : Option (LockFile W) :=
  match f.owner inode with
  | none => some { f with owner := Function.update f.owner inode (some w) }
  | some _ => none

/-- `flock(LOCK_UN)` -/
def unlock [DecidableEq W] (f : LockFile W) (w : W) (inode : ℕ) : LockFile W :=
  if f.owner inode = some w then { f with owner := Function.update f.owner inode none } else f

/-- `unlink`; a name that is gone is no error here. -/
def unlink (f : LockFile W) : LockFile W := { f with linked := none }

theorem create_linked (f : LockFile W) : f.create.2.linked = some f.create.1 := by
  unfold create
  cases h : f.linked with
  | none => rfl
  | some inode => exact h

theorem create_owner (f : LockFile W) : f.create.2.owner = f.owner := by
  unfold create
  cases f.linked with
  | none => rfl
  | some inode => rfl

/-- A name that is there is kept. -/
theorem create_of_linked (f : LockFile W) (inode : ℕ) (h : f.linked = some inode) :
    f.create = (inode, f) := by
  rw [create, h]

theorem lock_eq_some (f g : LockFile W) (w : W) (inode : ℕ) (h : f.lock w inode = some g) :
    f.owner inode = none ∧ g = { f with owner := Function.update f.owner inode (some w) } := by
  unfold lock at h
  cases ho : f.owner inode with
  | none =>
    rw [ho] at h
    cases h
    exact ⟨rfl, rfl⟩
  | some v =>
    rw [ho] at h
    cases h

theorem lock_linked (f g : LockFile W) (w : W) (inode : ℕ) (h : f.lock w inode = some g) :
    g.linked = f.linked := by
  rw [(lock_eq_some f g w inode h).2]

theorem lock_self (f g : LockFile W) (w : W) (inode : ℕ) (h : f.lock w inode = some g) :
    g.owner inode = some w := by
  rw [(lock_eq_some f g w inode h).2]
  exact Function.update_self inode (some w) f.owner

/-! ### Who has the file open -/

/-- Those who have the file open for the lock or with it have the one the path names, and
those inside have it locked. -/
structure Held (f : LockFile W) (opened inside : W → Option ℕ) : Prop where
  named : ∀ w inode, opened w = some inode → f.linked = some inode
  owned : ∀ w inode, inside w = some inode → opened w = some inode ∧ f.owner inode = some w

theorem held_initial (f : LockFile W) : Held f (fun _ => none) fun _ => none where
  named := fun w inode h => by cases h
  owned := fun w inode h => by cases h

/-- At most one is inside. -/
theorem Held.exclusive {f : LockFile W} {opened inside : W → Option ℕ} (h : Held f opened inside)
    (v w : W) (i j : ℕ) (hv : inside v = some i) (hw : inside w = some j) : v = w := by
  obtain ⟨hvi, hvo⟩ := h.owned v i hv
  obtain ⟨hwj, hwo⟩ := h.owned w j hw
  have hij : i = j := Option.some.inj ((h.named v i hvi).symm.trans (h.named w j hwj))
  rw [hij] at hvo
  exact Option.some.inj (hvo.symm.trans hwo)

/-- A step of one that leaves the name where others have the file open, and their locks. -/
theorem held_step (f g : LockFile W) (opened inside opened' inside' : W → Option ℕ) (w : W)
    (h : Held f opened inside)
    (hothers : ∀ v, v ≠ w → opened' v = opened v ∧ inside' v = inside v)
    (hname : ∀ v inode, v ≠ w → opened v = some inode → g.linked = some inode)
    (howner : ∀ v inode, v ≠ w → f.owner inode = some v → g.owner inode = some v)
    (hopened : ∀ inode, opened' w = some inode → g.linked = some inode)
    (hinside : ∀ inode, inside' w = some inode →
      opened' w = some inode ∧ g.owner inode = some w) : Held g opened' inside' := by
  refine ⟨fun v inode hv => ?_, fun v inode hv => ?_⟩
  · by_cases hvw : v = w
    · subst hvw
      exact hopened inode hv
    · rw [(hothers v hvw).1] at hv
      exact hname v inode hvw hv
  · by_cases hvw : v = w
    · subst hvw
      exact hinside inode hv
    · rw [(hothers v hvw).2] at hv
      obtain ⟨hopen, hown⟩ := h.owned v inode hv
      rw [(hothers v hvw).1]
      exact ⟨hopen, howner v inode hvw hown⟩

/-- Opening the file or touching it renames it for nobody who has it open. -/
theorem named_create (f : LockFile W) (inode : ℕ) (h : f.linked = some inode) :
    f.create.2.linked = some inode := by
  rw [create_of_linked f inode h]
  exact h

/-- Taking a free lock leaves the locks of others. -/
theorem lock_owner (f g : LockFile W) (w v : W) (inode other : ℕ) (h : f.lock w inode = some g)
    (hown : f.owner other = some v) : g.owner other = some v := by
  obtain ⟨hfree, rfl⟩ := lock_eq_some f g w inode h
  have hne : other ≠ inode := by
    intro heq
    rw [heq, hfree] at hown
    cases hown
  exact (Function.update_of_ne hne _ _).trans hown

/-! ### Giving a lock up -/

variable [DecidableEq W]

theorem unlock_linked (f : LockFile W) (w : W) (inode : ℕ) :
    (f.unlock w inode).linked = f.linked := by
  unfold unlock
  split
  · rfl
  · rfl

/-- Giving up a lock leaves the locks of others. -/
theorem unlock_owner (f : LockFile W) (w v : W) (inode other : ℕ) (h : f.owner other = some v)
    (hne : v ≠ w) : (f.unlock w inode).owner other = some v := by
  unfold unlock
  split
  · rename_i hown
    have hother : other ≠ inode := by
      intro heq
      rw [heq, hown] at h
      exact hne (Option.some.inj h).symm
    exact (Function.update_of_ne hother none f.owner).trans h
  · exact h

end LockFile
