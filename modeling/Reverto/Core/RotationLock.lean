import Mathlib.Tactic
import Reverto.Lib.LockFile
import Reverto.Lib.Machine

/-!
# The lock around a key rotation (core/credentials.py, _rotation_lock)

Any number of callers, one step at a time. Every caller unlinks the lock file on its way
out, the one that was refused the lock included.
-/

namespace Reverto

namespace RotationLock

/-- Where a caller stands, with the inode it has open. -/
inductive Phase where
  | outside
  | touched
  | opened (inode : ℕ)
  | inside (inode : ℕ)
  | refused (inode : ℕ)
  | released (inode : ℕ)
  | closed
  deriving DecidableEq, Repr

/-- The lock file of one key and the callers. -/
structure Lock where
  file : LockFile ℕ
  callers : ℕ → Phase

/-- The caller `n` moves on. -/
def Lock.put (s : Lock) (n : ℕ) (file : LockFile ℕ) (phase : Phase) : Lock :=
  ⟨file, Function.update s.callers n phase⟩

/-- The next step of a caller; the critical section ends with the release. -/
def advance (s : Lock) (n : ℕ) : Lock :=
  match s.callers n with
  | .outside => s.put n s.file.create.2 .touched
  | .touched => s.put n s.file.create.2 (.opened s.file.create.1)
  | .opened inode =>
    match s.file.lock n inode with
    | some file => s.put n file (.inside inode)
    | none => s.put n s.file (.refused inode)
  | .inside inode => s.put n (s.file.unlock n inode) (.released inode)
  | .refused inode => s.put n (s.file.unlock n inode) (.released inode)
  | .released _ => s.put n s.file .closed
  | .closed => s.put n s.file.unlink .outside

/-- A step is labelled with the caller that takes it. -/
def step (s : Lock) (n : ℕ) : Option Lock := some (advance s n)

/-- Nobody has entered; a rotation that was killed may have left the file. -/
def initial (left : Bool) : Lock :=
  ⟨if left then { linked := some 0, inodes := 1 } else {}, fun _ => .outside⟩

/-- The caller is inside the critical section. -/
def Inside (s : Lock) (n : ℕ) : Prop := ∃ inode, s.callers n = .inside inode

/-- At most one caller is inside the critical section. -/
def Exclusive (s : Lock) : Prop := ∀ m n, Inside s m → Inside s n → m = n

/-- The caller has the file open, for the lock or with it. -/
def Waits (s : Lock) (n inode : ℕ) : Prop :=
  s.callers n = .opened inode ∨ s.callers n = .inside inode

/-- A caller that unlinks the file leaves nobody behind who has it open. -/
def UnlinksUnused (s : Lock) (n : ℕ) : Prop :=
  s.callers n = .closed → ∀ m inode, ¬ Waits s m inode

/-- Those who have the file open have the one the path names, and the lock of who is inside
is theirs. -/
structure Linked (s : Lock) : Prop where
  waiting : ∀ n inode, Waits s n inode → s.file.linked = some inode
  owned : ∀ n inode, s.callers n = .inside inode → s.file.owner inode = some n

/-- The inode a caller has open for the lock or with it. -/
def Phase.awaited : Phase → Option ℕ
  | .opened inode => some inode
  | .inside inode => some inode
  | _ => none

/-- The inode a caller is inside with. -/
def Phase.locked : Phase → Option ℕ
  | .inside inode => some inode
  | _ => none

theorem waits_iff (s : Lock) (n inode : ℕ) :
    Waits s n inode ↔ (s.callers n).awaited = some inode := by
  unfold Waits
  cases s.callers n with
  | opened i => simp [Phase.awaited]
  | inside i => simp [Phase.awaited]
  | outside => simp [Phase.awaited]
  | touched => simp [Phase.awaited]
  | refused i => simp [Phase.awaited]
  | released i => simp [Phase.awaited]
  | closed => simp [Phase.awaited]

theorem inside_iff (s : Lock) (n inode : ℕ) :
    s.callers n = .inside inode ↔ (s.callers n).locked = some inode := by
  cases s.callers n with
  | inside i => simp [Phase.locked]
  | outside => simp [Phase.locked]
  | touched => simp [Phase.locked]
  | opened i => simp [Phase.locked]
  | refused i => simp [Phase.locked]
  | released i => simp [Phase.locked]
  | closed => simp [Phase.locked]

theorem linked_iff_held (s : Lock) :
    Linked s ↔
      LockFile.Held s.file (fun n => (s.callers n).awaited) fun n => (s.callers n).locked := by
  constructor
  · intro h
    refine ⟨fun n inode hw => h.waiting n inode ((waits_iff s n inode).mpr hw),
      fun n inode hin => ?_⟩
    have hinside := (inside_iff s n inode).mpr hin
    exact ⟨(waits_iff s n inode).mp (.inr hinside), h.owned n inode hinside⟩
  · intro h
    exact ⟨fun n inode hw => h.named n inode ((waits_iff s n inode).mp hw),
      fun n inode hin => (h.owned n inode ((inside_iff s n inode).mp hin)).2⟩

theorem linked_initial (left : Bool) : Linked (initial left) :=
  (linked_iff_held (initial left)).mpr (LockFile.held_initial _)

theorem exclusive_of_linked (s : Lock) (h : Linked s) : Exclusive s := by
  rintro m n ⟨i, hi⟩ ⟨j, hj⟩
  exact LockFile.Held.exclusive ((linked_iff_held s).mp h) m n i j ((inside_iff s m i).mp hi)
    ((inside_iff s n j).mp hj)

/-- A step that leaves the name where others have the file open, and their locks. -/
theorem linked_put (s : Lock) (h : Linked s) (n : ℕ) (file : LockFile ℕ) (phase : Phase)
    (hname : ∀ m inode, Waits s m inode → file.linked = some inode)
    (howner : ∀ m inode, m ≠ n → s.file.owner inode = some m → file.owner inode = some m)
    (hawaited : ∀ inode, phase.awaited = some inode → file.linked = some inode)
    (hlocked : ∀ inode, phase.locked = some inode →
      phase.awaited = some inode ∧ file.owner inode = some n) : Linked (s.put n file phase) := by
  rw [linked_iff_held] at h ⊢
  refine LockFile.held_step s.file file _ _ _ _ n h (fun m hm => ?_)
    (fun m inode _ hw => hname m inode ((waits_iff s m inode).mpr hw)) howner (fun inode hi => ?_)
    fun inode hi => ?_
  · simp only [Lock.put, Function.update_of_ne hm, and_self]
  · simp only [Lock.put, Function.update_self] at hi
    exact hawaited inode hi
  · simp only [Lock.put, Function.update_self] at hi ⊢
    exact hlocked inode hi

theorem linked_step (s t : Lock) (n : ℕ) (h : Linked s) (hunused : UnlinksUnused s n)
    (hstep : step s n = some t) : Linked t := by
  cases hstep
  have hcreate : ∀ m inode, Waits s m inode → s.file.create.2.linked = some inode :=
    fun m inode hw => LockFile.named_create s.file inode (h.waiting m inode hw)
  have hcreateOwner : ∀ m inode, m ≠ n → s.file.owner inode = some m →
      s.file.create.2.owner inode = some m := by
    intro m inode _ ho
    rw [LockFile.create_owner]
    exact ho
  have hunlock : ∀ i m inode, Waits s m inode → (s.file.unlock n i).linked = some inode := by
    intro i m inode hw
    rw [LockFile.unlock_linked]
    exact h.waiting m inode hw
  have hunlockOwner : ∀ i m inode, m ≠ n → s.file.owner inode = some m →
      (s.file.unlock n i).owner inode = some m :=
    fun i m inode hm ho => LockFile.unlock_owner s.file n m i inode ho hm
  unfold advance
  cases hphase : s.callers n with
  | outside =>
    dsimp only
    exact linked_put s h n _ _ hcreate hcreateOwner (fun _ he => by cases he) fun _ he => by cases he
  | touched =>
    dsimp only
    refine linked_put s h n _ _ hcreate hcreateOwner (fun inode he => ?_) fun _ he => by cases he
    cases he
    exact LockFile.create_linked s.file
  | opened i =>
    dsimp only
    have hnamed : s.file.linked = some i := h.waiting n i (.inl hphase)
    cases hlock : s.file.lock n i with
    | none =>
      dsimp only
      exact linked_put s h n _ _ h.waiting (fun _ _ _ ho => ho) (fun _ he => by cases he)
        fun _ he => by cases he
    | some file =>
      dsimp only
      have hlinked := LockFile.lock_linked s.file file n i hlock
      refine linked_put s h n _ _ (fun m inode hw => hlinked.trans (h.waiting m inode hw))
        (fun m inode _ ho => LockFile.lock_owner s.file file n m i inode hlock ho)
        (fun inode hi => ?_) fun inode hi => ?_
      · cases hi
        exact hlinked.trans hnamed
      · cases hi
        exact ⟨rfl, LockFile.lock_self s.file file n i hlock⟩
  | inside i =>
    dsimp only
    exact linked_put s h n _ _ (hunlock i) (hunlockOwner i) (fun _ he => by cases he)
      fun _ he => by cases he
  | refused i =>
    dsimp only
    exact linked_put s h n _ _ (hunlock i) (hunlockOwner i) (fun _ he => by cases he)
      fun _ he => by cases he
  | released i =>
    dsimp only
    exact linked_put s h n _ _ h.waiting (fun _ _ _ ho => ho) (fun _ he => by cases he)
      fun _ he => by cases he
  | closed =>
    dsimp only
    refine linked_put s h n _ _ (fun m inode hw => ?_) (fun _ _ _ ho => ho)
      (fun _ he => by cases he) fun _ he => by cases he
    exact absurd hw (hunused hphase m inode)

/-- In every run whose unlinks leave nobody behind, at most one caller is inside. -/
theorem exclusive_run (left : Bool) (ls : List ℕ) (u : Lock)
    (hunused : Machine.Guarded step UnlinksUnused (initial left) ls)
    (hrun : Machine.run step (initial left) ls = some u) : Exclusive u := by
  refine exclusive_of_linked u ?_
  exact Machine.run_invariant step (fun _ => True) UnlinksUnused Linked
    (fun s n t _ h hg hstep => linked_step s t n h hg hstep) (initial left) u ls
    (linked_initial left) (fun _ _ => trivial) hunused hrun

/-- The second caller opens the file when the first has unlinked it. -/
def inTurn : List ℕ := [0, 0, 0, 1, 0, 0, 0, 1, 1]

theorem unlinksUnused_inTurn : Machine.Guarded step UnlinksUnused (initial true) inTurn := by
  have hfree : ∀ s n, s.callers n ≠ .closed → UnlinksUnused s n := fun s n hne h => absurd h hne
  have hlast : UnlinksUnused ((((((initial true |> (advance · 0)) |> (advance · 0)) |> (advance · 0))
      |> (advance · 1)) |> (advance · 0)) |> (advance · 0)) 0 := by
    intro _ m inode hw
    rcases Nat.lt_or_ge m 2 with hm | hm
    · interval_cases m
      · rcases hw with hw | hw
        · cases hw
        · cases hw
      · rcases hw with hw | hw
        · cases hw
        · cases hw
    · have h0 : m ≠ 0 := by omega
      have h1 : m ≠ 1 := by omega
      rcases hw with hw | hw
      · simp [advance, initial, Lock.put, LockFile.create, LockFile.lock, Function.update, h0, h1] at hw
      · simp [advance, initial, Lock.put, LockFile.create, LockFile.lock, Function.update, h0, h1] at hw
  refine Machine.guarded_cons step _ _ _ _ _ (hfree _ _ (by decide)) rfl ?_
  refine Machine.guarded_cons step _ _ _ _ _ (hfree _ _ (by decide)) rfl ?_
  refine Machine.guarded_cons step _ _ _ _ _ (hfree _ _ (by decide)) rfl ?_
  refine Machine.guarded_cons step _ _ _ _ _ (hfree _ _ (by decide)) rfl ?_
  refine Machine.guarded_cons step _ _ _ _ _ (hfree _ _ (by decide)) rfl ?_
  refine Machine.guarded_cons step _ _ _ _ _ (hfree _ _ (by decide)) rfl ?_
  refine Machine.guarded_cons step _ _ _ _ _ hlast rfl ?_
  refine Machine.guarded_cons step _ _ _ _ _ (hfree _ _ (by decide)) rfl ?_
  exact Machine.guarded_cons step _ _ _ _ _ (hfree _ _ (by decide)) rfl trivial

theorem exclusive_inTurn : ∃ u, Machine.run step (initial true) inTurn = some u ∧ Exclusive u :=
  ⟨_, rfl, exclusive_run true inTurn _ unlinksUnused_inTurn rfl⟩

/-- The refused caller unlinks the file under the first, and a third locks a new one. -/
theorem not_exclusive_refused :
    ¬ ∀ (left : Bool) (ls : List ℕ) (u : Lock), Machine.run step (initial left) ls = some u →
      Exclusive u := by
  intro h
  have hone := h false [0, 0, 0, 1, 1, 1, 1, 1, 1, 2, 2, 2] _ rfl 0 2 ⟨0, rfl⟩ ⟨1, rfl⟩
  cases hone

end RotationLock

end Reverto
