import Mathlib.Tactic
import Reverto.Lib.TempRename
import Reverto.Paper.StateIO

/-!
# The writers of state.json (paper/state_io.py, web/app.py, web/routes/drawdown.py)

Every writer of a bot's state file writes its document to
`state_file.with_suffix(".tmp")` and then replaces the state file by it. The
temporary name is one for all of them, and the portal removes every `*.tmp` when
it starts (core/cleanup.py).
-/

namespace Reverto

/-- The writers of one bot's state file; a number is the thread of a request. -/
inductive StateWriter where
  | engineWrite
  | markStopped
  | closeOffline (thread : ℕ)
  | persistSilentExitReconcile (thread : ℕ)
  | persistStoppedReasonField (thread : ℕ)
  | apiDrawdownReset (thread : ℕ)
  deriving DecidableEq

/-- The directory of the state file. -/
abbrev StateDir := TempRename.Dir StateWriter StateDoc Char

/-- `open`, `write` and `rename` of a writer, the sweep, the death of a process. -/
abbrev StateDirStep := TempRename.Step StateWriter StateDoc

namespace StateDir

/-- `tmp.write_text(json.dumps(doc, indent=2))`, then `tmp.replace(state_file)`. -/
def writeDocument (w : StateWriter) (doc : StateDoc) : List StateDirStep :=
  [.open w doc, .write w, .rename w]

/-- `cleanup_orphaned_tmp_files` -/
def cleanupOrphanedTmpFiles : List StateDirStep := [.sweep]

variable (dumps : StateDoc → List Char)

/-- One elementary step; `dumps` is `json.dumps`. -/
def step (s : StateDir) (l : StateDirStep) : Option StateDir := TempRename.Dir.step dumps s l

/-- The directory of a bot whose state file, if any, holds this document. -/
def initial (file : Option StateDoc) : StateDir := TempRename.Dir.initial dumps file

/-- Every read returns a complete document of one writer, and no write was dropped
because its temporary file was gone. -/
def WritesKept (s : StateDir) : Prop := TempRename.Dir.Kept dumps s

/-- A writer opens the temporary file, and the portal sweeps, only while no writer
is between its `open` and its `rename`. -/
def WritersApart (s : StateDir) (l : StateDirStep) : Prop := TempRename.Dir.Apart s l

/-- Writes that follow each other are apart. -/
theorem writersApart_in_turn (writes : List (StateWriter × StateDoc)) (s : StateDir)
    (h : s.Quiet) :
    ∃ t, Machine.run (step dumps) s (writes.flatMap fun x => writeDocument x.1 x.2) = some t ∧
      Machine.Guarded (step dumps) WritersApart s
        (writes.flatMap fun x => writeDocument x.1 x.2) := by
  induction writes generalizing s with
  | nil => exact ⟨s, rfl, trivial⟩
  | cons x rest ih =>
    obtain ⟨w, doc⟩ := x
    obtain ⟨u, hu, hquiet, _⟩ := TempRename.Dir.run_alone dumps s w doc h
    obtain ⟨t, ht, hG⟩ := ih u hquiet
    refine ⟨t, ?_, ?_⟩
    · rw [List.flatMap_cons]
      exact (Machine.run_append_eq_some (step dumps) s t _ _).mpr ⟨u, hu, ht⟩
    · rw [List.flatMap_cons]
      have hfirst : Machine.Guarded (step dumps) WritersApart s (writeDocument w doc) :=
        ⟨h, fun _ _ => ⟨trivial, fun _ _ => ⟨trivial, fun _ _ => trivial⟩⟩⟩
      exact Machine.guarded_append (step dumps) WritersApart s u _ _ hu hfirst hG

/-- In every run whose writers are apart every write is kept; a run in which every
writer comes to its end keeps its writes only if its writers are apart. -/
theorem writesKept_run (file : Option StateDoc) (ls : List StateDirStep) (u : StateDir)
    (hrun : Machine.run (step dumps) (initial dumps file) ls = some u) :
    (Machine.Guarded (step dumps) WritersApart (initial dumps file) ls →
        Machine.Throughout (step dumps) (WritesKept dumps) (initial dumps file) ls) ∧
      ((∀ l ∈ ls, TempRename.Dir.Survives l) → u.Quiet →
        Machine.Throughout (step dumps) (WritesKept dumps) (initial dumps file) ls →
          Machine.Guarded (step dumps) WritersApart (initial dumps file) ls) := by
  constructor
  · exact TempRename.Dir.throughout_kept dumps _ u ls
      (TempRename.Dir.exclusive_initial dumps file) hrun
  · intro hsurvive hquiet
    exact (TempRename.Dir.throughout_kept_iff dumps file u ls hrun hsurvive hquiet).mp

/-- The engine's write and a mark of the portal, one after the other. -/
theorem writesKept_in_turn :
    ∃ u, Machine.run (step fun _ => ['{', '}']) (initial (fun _ => ['{', '}']) none)
        ([(.engineWrite, {}), (.persistSilentExitReconcile 0, {})].flatMap fun x =>
          writeDocument x.1 x.2) = some u ∧
      Machine.Throughout (step fun _ => ['{', '}']) (WritesKept fun _ => ['{', '}'])
        (initial (fun _ => ['{', '}']) none)
        ([(.engineWrite, {}), (.persistSilentExitReconcile 0, {})].flatMap fun x =>
          writeDocument x.1 x.2) := by
  obtain ⟨u, hu, hG⟩ := writersApart_in_turn (fun _ => ['{', '}'])
    [(.engineWrite, {}), (.persistSilentExitReconcile 0, {})]
    (initial (fun _ => ['{', '}']) none) fun _ => rfl
  exact ⟨u, hu, (writesKept_run (fun _ => ['{', '}']) none _ u hu).1 hG⟩

/-- The reset opens the file the engine has written and is about to rename. -/
def resetWithinWrite : List StateDirStep :=
  [.open .engineWrite {}, .write .engineWrite, .open (.apiDrawdownReset 0) {}, .rename .engineWrite,
    .write (.apiDrawdownReset 0), .rename (.apiDrawdownReset 0)]

/-- A reader finds the state file empty, and the rename of the reset fails. -/
theorem not_writesKept_reset :
    ¬ ∀ (dumps : StateDoc → List Char) (file : Option StateDoc) (ls : List StateDirStep)
        (u : StateDir), Machine.run (step dumps) (initial dumps file) ls = some u →
          Machine.Throughout (step dumps) (WritesKept dumps) (initial dumps file) ls := by
  intro h
  obtain ⟨u, hu⟩ : ∃ u, Machine.run (step fun _ => ['{', '}']) (initial (fun _ => ['{', '}']) none)
      resetWithinWrite = some u := ⟨_, rfl⟩
  have hkept := Machine.throughout_last (step fun _ => ['{', '}']) (WritesKept fun _ => ['{', '}'])
    (initial (fun _ => ['{', '}']) none) u resetWithinWrite hu
    (h (fun _ => ['{', '}']) none resetWithinWrite u hu)
  have hfailed : u.failed = true := by
    cases hu
    rfl
  rw [hkept.renamed] at hfailed
  cases hfailed

end StateDir

end Reverto
