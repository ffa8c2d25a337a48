import Mathlib.Tactic
import Reverto.Lib.Machine

/-!
# Replacing a file by renaming a temporary one over it

A directory with two names, the target and the temporary file, that point to
inodes. A writer opens the temporary file (which empties it), writes its document
from the start, and renames it over the target. Several writers share the one
temporary name, and a sweep may remove it.
-/

namespace TempRename

/-- A writer of a document between its steps; an open file is an inode, whatever its
name is by now. -/
inductive Phase (D : Type) where
  | idle
  | opened (inode : ℕ) (doc : D)
  | written (inode : ℕ) (doc : D)

/-- The directory, the contents of its inodes and the writers. `documents` are the
documents of all writes so far and the target's first, `failed` says that a rename
found no temporary file. -/
structure Dir (W D α : Type) where
  temp : Option ℕ
  target : Option ℕ
  contents : ℕ → List α
  fresh : ℕ
  writers : W → Phase D
  documents : List D
  failed : Bool

/-- The steps of the writers, a sweep, and the death of a writer. -/
inductive Step (W D : Type) where
  | open (w : W) (doc : D)
  | write (w : W)
  | rename (w : W)
  | sweep
  | crash (w : W)

variable {W D α : Type}

namespace Dir

section Steps

variable [DecidableEq W]

/-- A writer moves on. -/
def setWriter (s : Dir W D α) (w : W) (p : Phase D) : Dir W D α :=
  { s with writers := Function.update s.writers w p }

/-- The text over the first characters of the old contents. -/
def overlay (text old : List α) : List α := text ++ old.drop text.length

/-- One step; `render doc` is what the writer of `doc` writes. -/
def step (render : D → List α) (s : Dir W D α) : Step W D → Option (Dir W D α)
  | .open w doc =>
    match s.writers w with
    | .idle =>
      match s.temp with
      | some i =>
        some
          { s.setWriter w (.opened i doc) with
            contents := Function.update s.contents i []
            documents := s.documents ++ [doc] }
      | none =>
        some
          { s.setWriter w (.opened s.fresh doc) with
            temp := some s.fresh
            fresh := s.fresh + 1
            contents := Function.update s.contents s.fresh []
            documents := s.documents ++ [doc] }
    | _ => none
  | .write w =>
    match s.writers w with
    | .opened i doc =>
      some
        { s.setWriter w (.written i doc) with
          contents := Function.update s.contents i (overlay (render doc) (s.contents i)) }
    | _ => none
  | .rename w =>
    match s.writers w with
    | .written _ _ =>
      match s.temp with
      | some j => some { s.setWriter w .idle with target := some j, temp := none }
      | none => some { s.setWriter w .idle with failed := true }
    | _ => none
  | .sweep => some { s with temp := none }
  | .crash w => some (s.setWriter w .idle)

end Steps

/-- A directory whose target, if any, is this document. -/
def initial (render : D → List α) (target : Option D) : Dir W D α where
  temp := none
  target := target.map fun _ => 0
  contents := fun _ => (target.map render).getD []
  fresh := 1
  writers := fun _ => .idle
  documents := target.toList
  failed := false

/-- What a reader of the target gets. -/
def read (s : Dir W D α) : Option (List α) := s.target.map s.contents

variable (render : D → List α)

/-- The target is one document as a writer wrote it, and no rename has failed. -/
structure Kept (s : Dir W D α) : Prop where
  whole : ∀ text, s.read = some text → ∃ doc ∈ s.documents, text = render doc
  renamed : s.failed = false

/-- Nobody is between its open and its rename. -/
def Quiet (s : Dir W D α) : Prop := ∀ w, s.writers w = .idle

/-- A writer opens the temporary file, and a sweep removes it, only while nobody
is between its open and its rename. -/
def Apart (s : Dir W D α) : Step W D → Prop
  | .open _ _ => s.Quiet
  | .sweep => s.Quiet
  | _ => True

/-! ### Writers that are apart -/

/-- At most one writer is at work; the temporary file is its own, and not the target. -/
structure Exclusive (s : Dir W D α) : Prop where
  kept : Kept render s
  target_lt : ∀ i, s.target = some i → i < s.fresh
  temp_lt : ∀ i, s.temp = some i → i < s.fresh
  apart : s.target = none ∨ s.temp ≠ s.target
  alone : ∀ v w, s.writers v ≠ .idle → s.writers w ≠ .idle → v = w
  opened : ∀ w i doc, s.writers w = .opened i doc →
    s.temp = some i ∧ s.contents i = [] ∧ doc ∈ s.documents
  written : ∀ w i doc, s.writers w = .written i doc →
    s.temp = some i ∧ s.contents i = render doc ∧ doc ∈ s.documents

theorem exclusive_initial (target : Option D) :
    Exclusive render (initial render target : Dir W D α) := by
  refine ⟨⟨?_, rfl⟩, ?_, ?_, ?_, ?_, ?_, ?_⟩
  · intro text h
    cases target with
    | none => cases h
    | some old =>
      cases h
      exact ⟨old, List.mem_singleton_self old, rfl⟩
  · intro i h
    cases target with
    | none => cases h
    | some old =>
      cases h
      exact Nat.one_pos
  · intro i h
    cases h
  · cases target with
    | none => exact Or.inl rfl
    | some old => exact Or.inr (by simp [initial])
  · intro v w h
    exact absurd rfl h
  · intro w i doc h
    cases h
  · intro w i doc h
    cases h

/-- Contents of an inode that is not the target do not show. -/
theorem read_update (s t : Dir W D α) (i : ℕ) (text : List α) (htarget : t.target = s.target)
    (hcontents : t.contents = Function.update s.contents i text)
    (h : ∀ j, s.target = some j → j ≠ i) : t.read = s.read := by
  simp only [read, htarget]
  cases hj : s.target with
  | none => rfl
  | some j =>
    rw [Option.map_some, Option.map_some, hcontents, Function.update_of_ne (h j hj)]

theorem target_ne_temp (s : Dir W D α) (hI : Exclusive render s) (i j : ℕ) (hi : s.temp = some i)
    (hj : s.target = some j) : j ≠ i := by
  intro h
  rcases hI.apart with hnone | hne
  · rw [hnone] at hj
    cases hj
  · apply hne
    rw [hi, hj, h]

theorem others_idle (s : Dir W D α) (hI : Exclusive render s) (w : W) (hw : s.writers w ≠ .idle) :
    ∀ v, v ≠ w → s.writers v = .idle := by
  intro v hv
  by_contra h
  exact hv (hI.alone v w h hw)

theorem quiet_of_card (s : Dir W D α) (S : Finset W) (hS : ∀ v, v ∈ S ↔ s.writers v ≠ .idle)
    (h : S.card = 0) : s.Quiet := by
  intro w
  by_contra hw
  rw [Finset.card_eq_zero.mp h] at hS
  exact absurd ((hS w).mpr hw) (Finset.notMem_empty w)

/-- The target shows what it showed. -/
theorem kept_of_read (s t : Dir W D α) (h : Kept render s) (hread : t.read = s.read)
    (hdocuments : s.documents ⊆ t.documents) (hfailed : t.failed = s.failed) : Kept render t where
  whole := by
    intro text htext
    rw [hread] at htext
    obtain ⟨d, hd, heq⟩ := h.whole text htext
    exact ⟨d, hdocuments hd, heq⟩
  renamed := hfailed.trans h.renamed

section Apart

variable [DecidableEq W]

theorem setWriter_self (s : Dir W D α) (w : W) (p : Phase D) : (s.setWriter w p).writers w = p := by
  simp only [setWriter, Function.update_self]

theorem setWriter_of_ne (s : Dir W D α) (w v : W) (p : Phase D) (h : v ≠ w) :
    (s.setWriter w p).writers v = s.writers v := by
  simp only [setWriter, Function.update_of_ne h]

/-- Whoever is at work once `w` has moved on while nobody else was is `w`. -/
theorem eq_of_quiet (s : Dir W D α) (w v : W) (p : Phase D) (hothers : ∀ v, v ≠ w → s.writers v = .idle)
    (h : (s.setWriter w p).writers v ≠ .idle) : v = w := by
  by_contra hv
  rw [setWriter_of_ne s w v p hv] at h
  exact h (hothers v hv)

/-- What the directory has for a writer in this phase. -/
def InPhase (s : Dir W D α) : Phase D → Prop
  | .idle => True
  | .opened i doc => s.temp = some i ∧ s.contents i = [] ∧ doc ∈ s.documents
  | .written i doc => s.temp = some i ∧ s.contents i = render doc ∧ doc ∈ s.documents

/-- A writer that alone goes on to a phase. -/
theorem phases_alone (s t : Dir W D α) (w : W) (p : Phase D)
    (hothers : ∀ v, v ≠ w → s.writers v = .idle) (ht : t.writers = (s.setWriter w p).writers)
    (hp : t.InPhase render p) :
    (∀ u v, t.writers u ≠ .idle → t.writers v ≠ .idle → u = v) ∧
      (∀ v i doc, t.writers v = .opened i doc →
        t.temp = some i ∧ t.contents i = [] ∧ doc ∈ t.documents) ∧
      ∀ v i doc, t.writers v = .written i doc →
        t.temp = some i ∧ t.contents i = render doc ∧ doc ∈ t.documents := by
  have hone : ∀ v, t.writers v ≠ .idle → v = w := by
    intro v hv
    rw [ht] at hv
    exact eq_of_quiet s w v p hothers hv
  have hphase : t.writers w = p := by rw [ht, setWriter_self]
  refine ⟨?_, ?_, ?_⟩
  · intro u v hu hv
    rw [hone u hu, hone v hv]
  · intro v i doc h
    rw [hone v (by rw [h]; intro hc; cases hc), hphase] at h
    subst h
    exact hp
  · intro v i doc h
    rw [hone v (by rw [h]; intro hc; cases hc), hphase] at h
    subst h
    exact hp

theorem exclusive_open (s s' : Dir W D α) (w : W) (doc : D) (hI : Exclusive render s)
    (hquiet : s.Quiet) (hs : step render s (.open w doc) = some s') : Exclusive render s' := by
  have hothers : ∀ v, v ≠ w → s.writers v = .idle := fun v _ => hquiet v
  have hdocuments : s.documents ⊆ s.documents ++ [doc] := List.subset_append_left _ _
  have hdoc : doc ∈ s.documents ++ [doc] := List.mem_append_right _ (List.mem_singleton_self doc)
  simp only [step, hquiet w] at hs
  cases htemp : s.temp with
  | some i =>
    simp only [htemp, Option.some.injEq] at hs
    have hread := read_update s s' i [] (by rw [← hs]; rfl) (by rw [← hs])
      (fun j hj => target_ne_temp render s hI i j htemp hj)
    have hphase : s'.InPhase render (.opened i doc) := by
      rw [← hs]
      exact ⟨htemp, Function.update_self i [] s.contents, hdoc⟩
    obtain ⟨halone, hopened, hwritten⟩ := phases_alone render s s' w (.opened i doc) hothers
      (by rw [← hs]) hphase
    subst hs
    exact ⟨kept_of_read render s _ hI.kept hread hdocuments rfl, hI.target_lt, hI.temp_lt, hI.apart,
      halone, hopened, hwritten⟩
  | none =>
    simp only [htemp, Option.some.injEq] at hs
    have hread := read_update s s' s.fresh [] (by rw [← hs]; rfl) (by rw [← hs])
      (fun j hj => Nat.ne_of_lt (hI.target_lt j hj))
    have hphase : s'.InPhase render (.opened s.fresh doc) := by
      rw [← hs]
      exact ⟨rfl, Function.update_self s.fresh [] s.contents, hdoc⟩
    obtain ⟨halone, hopened, hwritten⟩ := phases_alone render s s' w (.opened s.fresh doc) hothers
      (by rw [← hs]) hphase
    subst hs
    refine ⟨kept_of_read render s _ hI.kept hread hdocuments rfl, ?_, ?_, ?_, halone, hopened, hwritten⟩
    · intro i hi
      exact Nat.lt_succ_of_lt (hI.target_lt i hi)
    · intro i hi
      cases hi
      exact Nat.lt_succ_self s.fresh
    · cases htarget : s.target with
      | none => exact Or.inl htarget
      | some j =>
        -- the target is older than the inode just made
        right
        intro h
        have hj : s.fresh = j := Option.some.inj (h.trans htarget)
        have hlt := hI.target_lt j htarget
        omega

theorem exclusive_write (s s' : Dir W D α) (w : W) (hI : Exclusive render s)
    (hs : step render s (.write w) = some s') : Exclusive render s' := by
  simp only [step] at hs
  cases hw : s.writers w with
  | idle =>
    rw [hw] at hs
    cases hs
  | written i doc =>
    rw [hw] at hs
    cases hs
  | opened i doc =>
    obtain ⟨htemp, hempty, hdoc⟩ := hI.opened w i doc hw
    have hothers := others_idle render s hI w (by rw [hw]; intro h; cases h)
    have hwhole : overlay (render doc) (s.contents i) = render doc := by
      rw [hempty, overlay, List.drop_nil, List.append_nil]
    simp only [hw, hwhole, Option.some.injEq] at hs
    have hread := read_update s s' i (render doc) (by rw [← hs]; rfl) (by rw [← hs])
      (fun j hj => target_ne_temp render s hI i j htemp hj)
    have hphase : s'.InPhase render (.written i doc) := by
      rw [← hs]
      exact ⟨htemp, Function.update_self i (render doc) s.contents, hdoc⟩
    obtain ⟨halone, hopened, hwritten⟩ := phases_alone render s s' w (.written i doc) hothers
      (by rw [← hs]) hphase
    subst hs
    exact ⟨kept_of_read render s _ hI.kept hread (fun _ h => h) rfl, hI.target_lt, hI.temp_lt, hI.apart,
      halone, hopened, hwritten⟩

theorem exclusive_rename (s s' : Dir W D α) (w : W) (hI : Exclusive render s)
    (hs : step render s (.rename w) = some s') : Exclusive render s' := by
  simp only [step] at hs
  cases hw : s.writers w with
  | idle =>
    rw [hw] at hs
    cases hs
  | opened i doc =>
    rw [hw] at hs
    cases hs
  | written i doc =>
    obtain ⟨htemp, hcontents, hdoc⟩ := hI.written w i doc hw
    have hothers := others_idle render s hI w (by rw [hw]; intro h; cases h)
    simp only [hw, htemp, Option.some.injEq] at hs
    obtain ⟨halone, hopened, hwritten⟩ := phases_alone render s s' w .idle hothers (by rw [← hs])
      trivial
    subst hs
    refine ⟨⟨?_, hI.kept.renamed⟩, ?_, ?_, ?_, halone, hopened, hwritten⟩
    · intro t ht
      have heq : s.contents i = t := Option.some.inj ht
      exact ⟨doc, hdoc, by rw [← heq, hcontents]⟩
    · intro j hj
      cases hj
      exact hI.temp_lt i htemp
    · intro j hj
      cases hj
    · right
      intro h
      cases h

theorem exclusive_sweep (s s' : Dir W D α) (hI : Exclusive render s) (hquiet : s.Quiet)
    (hs : step render s .sweep = some s') : Exclusive render s' := by
  simp only [step, Option.some.injEq] at hs
  subst hs
  refine ⟨⟨hI.kept.whole, hI.kept.renamed⟩, hI.target_lt, ?_, ?_, hI.alone, ?_, ?_⟩
  · intro i hi
    cases hi
  · cases htarget : s.target with
    | none => exact Or.inl rfl
    | some j =>
      right
      intro h
      cases h
  · intro w i doc h
    rw [hquiet w] at h
    cases h
  · intro w i doc h
    rw [hquiet w] at h
    cases h

theorem exclusive_crash (s s' : Dir W D α) (w : W) (hI : Exclusive render s)
    (hs : step render s (.crash w) = some s') : Exclusive render s' := by
  simp only [step, Option.some.injEq] at hs
  subst hs
  have hkeep : ∀ v p, (s.setWriter w .idle).writers v = p → p ≠ .idle → s.writers v = p := by
    intro v p h hp
    by_cases hv : v = w
    · rw [hv, setWriter_self] at h
      exact absurd h.symm hp
    · rw [setWriter_of_ne s w v .idle hv] at h
      exact h
  refine ⟨⟨hI.kept.whole, hI.kept.renamed⟩, hI.target_lt, hI.temp_lt, hI.apart, ?_, ?_, ?_⟩
  · intro u v hu hv
    have hu' := hkeep u _ rfl hu
    have hv' := hkeep v _ rfl hv
    exact hI.alone u v (by rw [hu']; exact hu) (by rw [hv']; exact hv)
  · intro v i doc h
    exact hI.opened v i doc (hkeep v _ h (by intro hc; cases hc))
  · intro v i doc h
    exact hI.written v i doc (hkeep v _ h (by intro hc; cases hc))

theorem exclusive_step (s s' : Dir W D α) (l : Step W D) (hI : Exclusive render s) (hG : s.Apart l)
    (hs : step render s l = some s') : Exclusive render s' := by
  cases l with
  | «open» w doc => exact exclusive_open render s s' w doc hI hG hs
  | write w => exact exclusive_write render s s' w hI hs
  | rename w => exact exclusive_rename render s s' w hI hs
  | sweep => exact exclusive_sweep render s s' hI hG hs
  | crash w => exact exclusive_crash render s s' w hI hs

/-- In a run whose writers are apart the target is whole and no rename fails. -/
theorem throughout_kept (s u : Dir W D α) (ls : List (Step W D)) (hI : Exclusive render s)
    (hrun : Machine.run (step render) s ls = some u) (hG : Machine.Guarded (step render) Apart s ls) :
    Machine.Throughout (step render) (Kept render) s ls := by
  induction ls generalizing s with
  | nil => exact hI.kept
  | cons l ls ih =>
    obtain ⟨t, ht, hrest⟩ := (Machine.run_cons_eq_some (step render) s u l ls).mp hrun
    refine ⟨hI.kept, fun s' hs' => ?_⟩
    rw [ht] at hs'
    cases hs'
    exact ih t (exclusive_step render s t l hI hG.1 ht) hrest (hG.2 t ht)

/-- A write that meets no other takes effect. -/
theorem run_alone (s : Dir W D α) (w : W) (doc : D) (h : s.Quiet) :
    ∃ t, Machine.run (step render) s [.open w doc, .write w, .rename w] = some t ∧ t.Quiet ∧
      t.read = some (render doc) := by
  obtain ⟨t, i, ht, hwriters, htemp, hcontents⟩ : ∃ t i, step render s (.open w doc) = some t ∧
      t.writers = (s.setWriter w (.opened i doc)).writers ∧ t.temp = some i ∧
      t.contents i = [] := by
    simp only [step, h w]
    cases hs : s.temp with
    | some i => exact ⟨_, i, rfl, rfl, hs, Function.update_self i [] s.contents⟩
    | none => exact ⟨_, s.fresh, rfl, rfl, rfl, Function.update_self s.fresh [] s.contents⟩
  have hopened : t.writers w = .opened i doc := by
    rw [hwriters, setWriter_self]
  obtain ⟨u, hu⟩ : ∃ u, u = { t.setWriter w (.written i doc) with
      contents := Function.update t.contents i (overlay (render doc) (t.contents i)) } := ⟨_, rfl⟩
  have hwrite : step render t (.write w) = some u := by
    simp only [step, hopened, hu]
  have hwritten : u.writers w = .written i doc := by
    rw [hu]
    exact setWriter_self t w _
  have hrename : step render u (.rename w) =
      some { u.setWriter w .idle with target := some i, temp := none } := by
    have hut : u.temp = some i := by
      rw [hu]
      exact htemp
    simp only [step, hwritten, hut]
  refine ⟨{ u.setWriter w .idle with target := some i, temp := none }, ?_, ?_, ?_⟩
  · simp only [Machine.run, ht, hwrite, hrename, Option.bind_some]
  · intro v
    by_cases hv : v = w
    · rw [hv]
      exact setWriter_self u w .idle
    · have h1 : (u.setWriter w .idle).writers v = u.writers v := setWriter_of_ne u w v .idle hv
      have h2 : u.writers v = t.writers v := by
        rw [hu]
        exact setWriter_of_ne t w v _ hv
      have h3 : t.writers v = s.writers v := by
        rw [hwriters, setWriter_of_ne s w v _ hv]
      exact h1.trans (h2.trans (h3.trans (h v)))
  · have hfinal : u.contents i = render doc := by
      have hover : overlay (render doc) (t.contents i) = render doc := by
        rw [hcontents, overlay, List.drop_nil, List.append_nil]
      rw [hu]
      exact (Function.update_self i _ t.contents).trans hover
    exact congrArg some hfinal

/-! ### Writers that are not -/

/-- A step that is no death of a writer. -/
def Survives : Step W D → Prop
  | .crash _ => False
  | _ => True

/-- The temporary files there are: one or none. -/
def temps (s : Dir W D α) : ℕ := s.temp.toList.length

theorem mem_insert_active (s t : Dir W D α) (S : Finset W) (w : W) (p : Phase D) (hp : p ≠ .idle)
    (hS : ∀ v, v ∈ S ↔ s.writers v ≠ .idle) (ht : t.writers = (s.setWriter w p).writers) :
    ∀ v, v ∈ insert w S ↔ t.writers v ≠ .idle := by
  intro v
  rw [Finset.mem_insert, ht]
  by_cases hv : v = w
  · rw [hv, setWriter_self]
    exact ⟨fun _ => hp, fun _ => Or.inl rfl⟩
  · rw [setWriter_of_ne s w v p hv, ← hS v]
    exact ⟨fun h => h.resolve_left hv, Or.inr⟩

theorem mem_erase_active (s t : Dir W D α) (S : Finset W) (w : W)
    (hS : ∀ v, v ∈ S ↔ s.writers v ≠ .idle) (ht : t.writers = (s.setWriter w .idle).writers) :
    ∀ v, v ∈ S.erase w ↔ t.writers v ≠ .idle := by
  intro v
  rw [Finset.mem_erase, ht]
  by_cases hv : v = w
  · rw [hv, setWriter_self]
    exact ⟨fun h => absurd rfl h.1, fun h => absurd rfl h⟩
  · rw [setWriter_of_ne s w v .idle hv, ← hS v]
    exact ⟨fun h => h.2, fun h => ⟨hv, h⟩⟩

/-- The writers of `S` can all rename: each rename uses up one temporary file, and none
has failed. -/
structure Enough (s : Dir W D α) (S : Finset W) : Prop where
  card : S.card ≤ s.temps
  renamed : s.failed = false

theorem enough_sweep (s t : Dir W D α) (S : Finset W) (hS : ∀ v, v ∈ S ↔ s.writers v ≠ .idle)
    (ht : step render s .sweep = some t) :
    ∃ T : Finset W, (∀ v, v ∈ T ↔ t.writers v ≠ .idle) ∧
      (t.Enough T → s.Apart (.sweep : Step W D) ∧ s.Enough S) := by
  simp only [step, Option.some.injEq] at ht
  refine ⟨S, by rw [← ht]; exact hS, fun h => ?_⟩
  rw [← ht] at h
  have hzero : S.card = 0 := Nat.le_zero.mp h.card
  refine ⟨quiet_of_card s S hS hzero, ?_, h.renamed⟩
  rw [hzero]
  exact Nat.zero_le _

theorem enough_open (s t : Dir W D α) (S : Finset W) (w : W) (doc : D)
    (hS : ∀ v, v ∈ S ↔ s.writers v ≠ .idle) (ht : step render s (.open w doc) = some t) :
    ∃ T : Finset W, (∀ v, v ∈ T ↔ t.writers v ≠ .idle) ∧
      (t.Enough T → s.Apart (.open w doc) ∧ s.Enough S) := by
  simp only [step] at ht
  split at ht
  · rename_i hw
    have hnot : w ∉ S := fun h => (hS w).mp h hw
    obtain ⟨i, hwriters, htemp, hsame⟩ : ∃ i, t.writers = (s.setWriter w (.opened i doc)).writers ∧
        t.temp = some i ∧ t.failed = s.failed := by
      split at ht
      · rename_i i htemp
        cases ht
        exact ⟨i, rfl, htemp, rfl⟩
      · cases ht
        exact ⟨s.fresh, rfl, rfl, rfl⟩
    refine ⟨insert w S, mem_insert_active s t S w (.opened i doc) (by intro h; cases h) hS hwriters,
      fun h => ?_⟩
    -- the one temporary file is the opened one, so nobody else was at work
    have hzero : S.card = 0 := by
      have hcard := h.card
      rw [Finset.card_insert_of_notMem hnot, temps, htemp] at hcard
      exact Nat.le_zero.mp (Nat.le_of_succ_le_succ hcard)
    refine ⟨quiet_of_card s S hS hzero, ?_, ?_⟩
    · rw [hzero]
      exact Nat.zero_le _
    · rw [← hsame]
      exact h.renamed
  · cases ht

theorem enough_write (s t : Dir W D α) (S : Finset W) (w : W)
    (hS : ∀ v, v ∈ S ↔ s.writers v ≠ .idle) (ht : step render s (.write w) = some t) :
    ∃ T : Finset W, (∀ v, v ∈ T ↔ t.writers v ≠ .idle) ∧
      (t.Enough T → s.Apart (.write w : Step W D) ∧ s.Enough S) := by
  simp only [step] at ht
  split at ht
  · rename_i i doc hw
    simp only [Option.some.injEq] at ht
    have hin : insert w S = S := Finset.insert_eq_of_mem ((hS w).mpr (by rw [hw]; intro h; cases h))
    have hT := mem_insert_active s t S w (.written i doc) (by intro h; cases h) hS (by rw [← ht])
    rw [hin] at hT
    refine ⟨S, hT, fun h => ?_⟩
    rw [← ht] at h
    exact ⟨trivial, h.card, h.renamed⟩
  · cases ht

theorem enough_rename (s t : Dir W D α) (S : Finset W) (w : W)
    (hS : ∀ v, v ∈ S ↔ s.writers v ≠ .idle) (ht : step render s (.rename w) = some t) :
    ∃ T : Finset W, (∀ v, v ∈ T ↔ t.writers v ≠ .idle) ∧
      (t.Enough T → s.Apart (.rename w : Step W D) ∧ s.Enough S) := by
  simp only [step] at ht
  split at ht
  · rename_i i doc hw
    have hin : w ∈ S := (hS w).mpr (by rw [hw]; intro h; cases h)
    split at ht
    · rename_i j htemp
      simp only [Option.some.injEq] at ht
      refine ⟨S.erase w, mem_erase_active s t S w hS (by rw [← ht]), fun h => ?_⟩
      rw [← ht] at h
      refine ⟨trivial, ?_, h.renamed⟩
      have hzero : (S.erase w).card = 0 := Nat.le_zero.mp h.card
      have hone : (S.erase w).card + 1 = S.card := Finset.card_erase_add_one hin
      have htemps : s.temps = 1 := by
        rw [temps, htemp]
        rfl
      omega
    · simp only [Option.some.injEq] at ht
      refine ⟨S.erase w, mem_erase_active s t S w hS (by rw [← ht]), fun h => ?_⟩
      have hfailed := h.renamed
      rw [← ht] at hfailed
      cases hfailed
  · cases ht

/-- Enough temporary files after a step are enough before it, and the step kept apart. -/
theorem enough_step (s t : Dir W D α) (S : Finset W) (l : Step W D)
    (hS : ∀ v, v ∈ S ↔ s.writers v ≠ .idle) (hl : Survives l) (ht : step render s l = some t) :
    ∃ T : Finset W, (∀ v, v ∈ T ↔ t.writers v ≠ .idle) ∧ (t.Enough T → s.Apart l ∧ s.Enough S) := by
  cases l with
  | «open» w doc => exact enough_open render s t S w doc hS ht
  | write w => exact enough_write render s t S w hS ht
  | rename w => exact enough_rename render s t S w hS ht
  | sweep => exact enough_sweep render s t S hS ht
  | crash w => exact absurd hl id

/-- Of the writers at work only as many can get by without a failed rename as there
are temporary files: each rename uses up one, and an open makes at most the first. -/
theorem apart_of_renamed (s u : Dir W D α) (ls : List (Step W D)) (S : Finset W)
    (hS : ∀ v, v ∈ S ↔ s.writers v ≠ .idle) (hrun : Machine.run (step render) s ls = some u)
    (hsurvive : ∀ l ∈ ls, Survives l) (hquiet : u.Quiet) (hu : u.failed = false) :
    Machine.Guarded (step render) Apart s ls ∧ s.Enough S := by
  induction ls generalizing s S with
  | nil =>
    cases hrun
    have hempty : S.card = 0 := by
      rw [Finset.card_eq_zero, Finset.eq_empty_iff_forall_notMem]
      intro w hw
      exact (hS w).mp hw (hquiet w)
    refine ⟨trivial, ?_, hu⟩
    rw [hempty]
    exact Nat.zero_le _
  | cons l ls ih =>
    obtain ⟨t, ht, hrest⟩ := (Machine.run_cons_eq_some (step render) s u l ls).mp hrun
    obtain ⟨T, hT, hback⟩ := enough_step render s t S l hS (hsurvive l List.mem_cons_self) ht
    obtain ⟨hG, henough⟩ := ih t T hT hrest (fun m hm => hsurvive m (List.mem_cons_of_mem l hm))
    obtain ⟨hapart, hbefore⟩ := hback henough
    exact ⟨Machine.guarded_cons (step render) Apart s t l ls hapart ht hG, hbefore⟩

/-- A run nobody dies in, from one quiet state to another, keeps every write
exactly when its writers are apart. -/
theorem throughout_kept_iff (target : Option D) (u : Dir W D α) (ls : List (Step W D))
    (hrun : Machine.run (step render) (initial render target) ls = some u) (hsurvive : ∀ l ∈ ls, Survives l)
    (hquiet : u.Quiet) :
    Machine.Throughout (step render) (Kept render) (initial render target) ls ↔
      Machine.Guarded (step render) Apart (initial render target) ls := by
  constructor
  · intro h
    have hu := Machine.throughout_last (step render) (Kept render) (initial render target) u ls hrun h
    refine (apart_of_renamed render (initial render target) u ls ∅ ?_ hrun hsurvive hquiet hu.renamed).1
    intro v
    exact ⟨fun hv => absurd hv (Finset.notMem_empty v), fun hv => absurd rfl hv⟩
  · exact throughout_kept render (initial render target) u ls (exclusive_initial render target) hrun

end Apart

end Dir

end TempRename
