import Mathlib.Tactic
import Reverto.Lib.LockFile
import Reverto.Lib.Machine

/-!
# The lock on a bot's state (core/file_lock.py, core/paths.py)

Any number of `exclusive_lock` calls on the lock path of a bot, one step at a time, and
`purge_bot`, which unlinks that path. An entry polls for the lock until its deadline.
-/

namespace Reverto

namespace FileLock

/-- Where an `exclusive_lock` stands, with the inode it has open. -/
inductive Phase where
  | outside
  | polling (inode : ℕ)
  | inside (inode : ℕ)
  | leaving (inode : ℕ)
  deriving DecidableEq, Repr

/-- The lock file of a bot and the processes that use it. -/
structure BotLock where
  file : LockFile ℕ
  processes : ℕ → Phase

/-- The process `n` moves on. -/
def BotLock.put (s : BotLock) (n : ℕ) (file : LockFile ℕ) (phase : Phase) : BotLock :=
  ⟨file, Function.update s.processes n phase⟩

/-- A process takes its next step, with its deadline passed or not; or the bot is purged. -/
inductive Label where
  | move (n : ℕ) (expired : Bool)
  | purge
  deriving DecidableEq, Repr

/-- The next step of `exclusive_lock`; the critical section ends with the release. -/
def advance (s : BotLock) (n : ℕ) (expired : Bool) : BotLock :=
  match s.processes n with
  | .outside => s.put n s.file.create.2 (.polling s.file.create.1)
  | .polling inode =>
    match s.file.lock n inode with
    | some file => s.put n file (.inside inode)
    | none => if expired then s.put n s.file (.leaving inode) else s
  | .inside inode => s.put n (s.file.unlock n inode) (.leaving inode)
  | .leaving _ => s.put n s.file .outside

def step (s : BotLock) : Label → Option BotLock
  | .move n expired => some (advance s n expired)
  | .purge => some { s with file := s.file.unlink }

/-- Nobody has the file open; an earlier process may have left it. -/
def initial (left : Bool) : BotLock :=
  ⟨if left then { linked := some 0, inodes := 1 } else {}, fun _ => .outside⟩

/-- The process is inside the critical section. -/
def Inside (s : BotLock) (n : ℕ) : Prop := ∃ inode, s.processes n = .inside inode

/-- At most one process is inside the critical section. -/
def Exclusive (s : BotLock) : Prop := ∀ m n, Inside s m → Inside s n → m = n

/-- The inode a process has open for the lock or with it. -/
def Phase.opened : Phase → Option ℕ
  | .polling inode => some inode
  | .inside inode => some inode
  | _ => none

/-- The inode a process is inside with. -/
def Phase.locked : Phase → Option ℕ
  | .inside inode => some inode
  | _ => none

/-- A purge finds nobody who waits for the lock or holds it. -/
def PurgesUnused (s : BotLock) : Label → Prop
  | .move _ _ => True
  | .purge => ∀ n, (s.processes n).opened = none

/-- All who wait or are inside have the inode that the path names. -/
def Held (s : BotLock) : Prop :=
  LockFile.Held s.file (fun n => (s.processes n).opened) fun n => (s.processes n).locked

theorem exclusive_of_held (s : BotLock) (h : Held s) : Exclusive s := by
  rintro m n ⟨i, hi⟩ ⟨j, hj⟩
  refine LockFile.Held.exclusive h m n i j ?_ ?_
  · rw [hi]
    rfl
  · rw [hj]
    rfl

theorem held_put (s : BotLock) (n : ℕ) (file : LockFile ℕ) (phase : Phase) (h : Held s)
    (hname : ∀ inode, s.file.linked = some inode → file.linked = some inode)
    (howner : ∀ m inode, m ≠ n → s.file.owner inode = some m → file.owner inode = some m)
    (hopened : ∀ inode, phase.opened = some inode → file.linked = some inode)
    (hlocked : ∀ inode, phase.locked = some inode →
      phase.opened = some inode ∧ file.owner inode = some n) : Held (s.put n file phase) := by
  refine LockFile.held_step s.file file _ _ _ _ n h (fun m hm => ?_)
    (fun m inode _ hm => hname inode (h.named m inode hm)) howner (fun inode hi => ?_)
    fun inode hi => ?_
  · simp only [BotLock.put, Function.update_of_ne hm, and_self]
  · simp only [BotLock.put, Function.update_self] at hi
    exact hopened inode hi
  · simp only [BotLock.put, Function.update_self] at hi ⊢
    exact hlocked inode hi

theorem held_advance (s : BotLock) (n : ℕ) (expired : Bool) (h : Held s) :
    Held (advance s n expired) := by
  unfold advance
  cases hphase : s.processes n with
  | outside =>
    dsimp only
    refine held_put s n _ _ h (LockFile.named_create s.file) (fun m inode _ ho => ?_)
      (fun inode hi => ?_) fun inode hi => by cases hi
    · rw [LockFile.create_owner]
      exact ho
    · cases hi
      exact LockFile.create_linked s.file
  | polling i =>
    dsimp only
    have hnamed : s.file.linked = some i := h.named n i (by rw [hphase]; rfl)
    cases hlock : s.file.lock n i with
    | none =>
      dsimp only
      split
      · exact held_put s n _ _ h (fun _ hi => hi) (fun _ _ _ ho => ho) (fun _ hi => by cases hi)
          fun _ hi => by cases hi
      · exact h
    | some file =>
      dsimp only
      have hlinked := LockFile.lock_linked s.file file n i hlock
      refine held_put s n _ _ h (fun inode hi => hlinked.trans hi)
        (fun m inode _ ho => LockFile.lock_owner s.file file n m i inode hlock ho)
        (fun inode hi => ?_) fun inode hi => ?_
      · cases hi
        exact hlinked.trans hnamed
      · cases hi
        exact ⟨rfl, LockFile.lock_self s.file file n i hlock⟩
  | inside i =>
    dsimp only
    refine held_put s n _ _ h (fun inode hi => ?_)
      (fun m inode hm ho => LockFile.unlock_owner s.file n m i inode ho hm)
      (fun _ hi => by cases hi) fun _ hi => by cases hi
    rw [LockFile.unlock_linked]
    exact hi
  | leaving i =>
    dsimp only
    exact held_put s n _ _ h (fun _ hi => hi) (fun _ _ _ ho => ho) (fun _ hi => by cases hi)
      fun _ hi => by cases hi

theorem held_step (s : BotLock) (l : Label) (t : BotLock) (h : Held s) (hunused : PurgesUnused s l)
    (hstep : step s l = some t) : Held t := by
  cases l with
  | move n expired =>
    cases hstep
    exact held_advance s n expired h
  | purge =>
    cases hstep
    refine ⟨fun n inode hn => ?_, h.owned⟩
    rw [hunused n] at hn
    cases hn

/-- In every run whose purges find nobody at the lock, at most one process is inside. -/
theorem exclusive_purged (left : Bool) (ls : List Label) (u : BotLock)
    (hunused : Machine.Guarded step PurgesUnused (initial left) ls)
    (hrun : Machine.run step (initial left) ls = some u) : Exclusive u := by
  refine exclusive_of_held u ?_
  exact Machine.run_invariant step (fun _ => True) PurgesUnused Held
    (fun s l t _ h hg hstep => held_step s l t h hg hstep) (initial left) u ls
    (LockFile.held_initial _) (fun _ _ => trivial) hunused hrun

/-- A bot that is purged after a process has left, and a process that comes later. -/
def purgedBetween : List Label :=
  [.move 0 false, .move 0 false, .move 0 false, .purge, .move 1 false, .move 1 false]

theorem purgesUnused_between : Machine.Guarded step PurgesUnused (initial false) purgedBetween := by
  have hmoved : PurgesUnused (advance (advance (advance (initial false) 0 false) 0 false) 0 false)
      .purge := by
    intro n
    by_cases hn : n = 0
    · subst hn
      rfl
    · simp [advance, initial, BotLock.put, LockFile.create, LockFile.lock, LockFile.unlock,
        Phase.opened, hn]
  refine Machine.guarded_cons step _ _ _ _ _ trivial rfl ?_
  refine Machine.guarded_cons step _ _ _ _ _ trivial rfl ?_
  refine Machine.guarded_cons step _ _ _ _ _ trivial rfl ?_
  refine Machine.guarded_cons step _ _ _ _ _ hmoved rfl ?_
  refine Machine.guarded_cons step _ _ _ _ _ trivial rfl ?_
  exact Machine.guarded_cons step _ _ _ _ _ trivial rfl trivial

theorem exclusive_purgedBetween :
    ∃ u, Machine.run step (initial false) purgedBetween = some u ∧ Exclusive u :=
  ⟨_, rfl, exclusive_purged false purgedBetween _ purgesUnused_between rfl⟩

/-- A purge under a holder lets the next process in beside it. -/
theorem not_exclusive_purged :
    ¬ ∀ (left : Bool) (ls : List Label) (u : BotLock), Machine.run step (initial left) ls = some u →
      Exclusive u := by
  intro h
  have hboth := h false
    [.move 0 false, .move 0 false, .purge, .move 1 false, .move 1 false] _ rfl 0 1
    ⟨0, rfl⟩ ⟨1, rfl⟩
  cases hboth

end FileLock

end Reverto
