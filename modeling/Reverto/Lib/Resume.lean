import Mathlib.Tactic
import Reverto.Lib.Program

/-!
# Programs that are cut and started again

Some events of a program leave a state behind that a later start finds: `land`.
A program may be cut after any event. A goal is a function of the state that no
event moves and that a complete run reaches; then it does not matter how often
the program was cut before it came to its end.
-/

namespace Resume

variable {ε ω σ τ η α : Type} (land : ω → Option σ)

/-- What is on disk after the events, from `s` on. -/
def lastLanded (s : σ) (l : List ω) : σ := ((l.filterMap land).getLast?).getD s

theorem lastLanded_mem (s : σ) (l : List ω) :
    lastLanded land s l = s ∨ ∃ w ∈ l, land w = some (lastLanded land s l) := by
  unfold lastLanded
  cases h : (l.filterMap land).getLast? with
  | none => exact Or.inl rfl
  | some t =>
    right
    obtain ⟨w, hw, hland⟩ := List.mem_filterMap.mp (List.mem_of_getLast? h)
    exact ⟨w, hw, hland⟩

/-- What a run that was cut after `k` events left on disk. -/
def cutAt (m : Program ε ω σ α) (s : σ) (k : ℕ) : σ := lastLanded land s ((m s).log.take k)

/-- From a state with the invariant, the invariant and the goal hold on of the last
state and of every state left behind on the way. -/
def Toward (I : σ → Prop) (goal : σ → τ) : σ → List ω → σ → Prop := fun s l s' =>
  I s → (I s' ∧ goal s' = goal s) ∧ ∀ w ∈ l, ∀ t, land w = some t → I t ∧ goal t = goal s

section Toward

variable (I : σ → Prop) (goal : σ → τ)

theorem traceRel_toward : Program.TraceRel (Toward land I goal) where
  nil _ hI := ⟨⟨hI, rfl⟩, fun _ hw => absurd hw List.not_mem_nil⟩
  append := by
    intro s l t l' u h h' hI
    obtain ⟨⟨hIt, hgoal⟩, hon⟩ := h hI
    obtain ⟨⟨hIu, hgoal'⟩, hon'⟩ := h' hIt
    refine ⟨⟨hIu, hgoal'.trans hgoal⟩, fun w hw v hv => ?_⟩
    rcases List.mem_append.mp hw with hw | hw
    · exact hon w hw v hv
    · obtain ⟨hIv, hgoalv⟩ := hon' w hw v hv
      exact ⟨hIv, hgoalv.trans hgoal⟩

theorem cutAt_toward (m : Program ε ω σ α) (h : Program.Respects (Toward land I goal) m) (s : σ)
    (k : ℕ) (hI : I s) : I (cutAt land m s k) ∧ goal (cutAt land m s k) = goal s := by
  rcases lastLanded_mem land s ((m s).log.take k) with hsame | ⟨w, hw, hland⟩
  · rw [cutAt, hsame]
    exact ⟨hI, rfl⟩
  · exact (h s hI).2 w (List.mem_of_mem_take hw) _ hland

end Toward

/-- The relation holds from the first state to the last and to every state left behind. -/
def Along (R : σ → σ → Prop) : σ → List ω → σ → Prop := fun s l s' =>
  R s s' ∧ ∀ w ∈ l, ∀ t, land w = some t → R s t

theorem traceRel_along (R : σ → σ → Prop) (hrefl : ∀ s, R s s)
    (htrans : ∀ s t u, R s t → R t u → R s u) : Program.TraceRel (Along land R) where
  nil s := ⟨hrefl s, fun _ hw => absurd hw List.not_mem_nil⟩
  append := by
    intro s l t l' u h h'
    refine ⟨htrans s t u h.1 h'.1, fun w hw v hv => ?_⟩
    rcases List.mem_append.mp hw with hw | hw
    · exact h.2 w hw v hv
    · exact htrans s t v h.1 (h'.2 w hw v hv)

/-- Starts of the program, each in its own circumstances and each cut after some events. -/
inductive Attempts (M : η → Program ε ω σ α) (s : σ) : σ → Prop
  | start : Attempts M s s
  | cut (e : η) (k : ℕ) (t : σ) (h : Attempts M s t) : Attempts M s (cutAt land (M e) t k)

/-- Any number of attempts keeps the invariant and the goal. -/
theorem attempts_toward (I : σ → Prop) (goal : σ → τ) (M : η → Program ε ω σ α)
    (h : ∀ e, Program.Respects (Toward land I goal) (M e)) (s t : σ) (hs : I s)
    (hattempts : Attempts land M s t) : I t ∧ goal t = goal s := by
  induction hattempts with
  | start => exact ⟨hs, rfl⟩
  | cut e k t _ ih =>
    obtain ⟨hI, hgoal⟩ := ih
    obtain ⟨hI', hgoal'⟩ := cutAt_toward land I goal (M e) (h e) t k hI
    exact ⟨hI', hgoal'.trans hgoal⟩

end Resume
