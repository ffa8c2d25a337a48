import Mathlib.Tactic

/-!
# Labelled partial steps and their runs

A system whose next state is determined by a label; a step that is not enabled
has no next state. Processes that interleave are one system whose labels say
who moves.
-/

namespace Machine

variable {σ L : Type} (step : σ → L → Option σ)

/-- The state after the steps with the given labels, if all are enabled. -/
def run : σ → List L → Option σ
  | s, [] => some s
  | s, l :: ls => (step s l).bind fun s' => run s' ls

/-- Every step of the run meets `G` in the state it is taken in. -/
def Guarded (G : σ → L → Prop) : σ → List L → Prop
  | _, [] => True
  | s, l :: ls => G s l ∧ ∀ s', step s l = some s' → Guarded G s' ls

/-- A guarded run, one enabled step at a time. -/
theorem guarded_cons (G : σ → L → Prop) (s t : σ) (l : L) (ls : List L) (hl : G s l)
    (hstep : step s l = some t) (h : Guarded step G t ls) : Guarded step G s (l :: ls) := by
  refine ⟨hl, fun u hu => ?_⟩
  rw [hstep] at hu
  cases hu
  exact h

/-- A guard that reads the labels alone. -/
theorem guarded_of_labels (Q : L → Prop) (s : σ) (ls : List L) (h : ∀ l ∈ ls, Q l) :
    Guarded step (fun _ => Q) s ls := by
  induction ls generalizing s with
  | nil => trivial
  | cons l ls ih =>
    refine ⟨h l List.mem_cons_self, fun s' _ => ?_⟩
    exact ih s' fun m hm => h m (List.mem_cons_of_mem l hm)

/-- Guards that can be evaluated can be evaluated along a run. -/
instance decidableGuarded (G : σ → L → Prop) [hG : ∀ s l, Decidable (G s l)] :
    ∀ (s : σ) (ls : List L), Decidable (Guarded step G s ls)
  | _, [] => .isTrue trivial
  | s, l :: ls =>
    match hG s l, h : step s l with
    | .isFalse hn, _ => .isFalse fun hg => hn hg.1
    | .isTrue hl, none => .isTrue ⟨hl, fun t ht => by rw [h] at ht; cases ht⟩
    | .isTrue hl, some t =>
      match decidableGuarded G t ls with
      | .isTrue hls => .isTrue ⟨hl, fun u hu => by rw [h] at hu; cases hu; exact hls⟩
      | .isFalse hn => .isFalse fun hg => hn (hg.2 t h)

@[simp] theorem run_nil (s : σ) : run step s [] = some s := rfl

theorem run_cons_eq_some (s u : σ) (l : L) (ls : List L) :
    run step s (l :: ls) = some u ↔ ∃ t, step s l = some t ∧ run step t ls = some u := by
  simp only [run, Option.bind_eq_some_iff]

theorem run_append_eq_some (s u : σ) (ls ls' : List L) :
    run step s (ls ++ ls') = some u ↔ ∃ t, run step s ls = some t ∧ run step t ls' = some u := by
  induction ls generalizing s with
  | nil => simp
  | cons l ls ih =>
    simp only [List.cons_append, run_cons_eq_some, ih]
    constructor
    · rintro ⟨v, hv, t, ht, hu⟩
      exact ⟨t, ⟨v, hv, ht⟩, hu⟩
    · rintro ⟨t, ⟨v, hv, ht⟩, hu⟩
      exact ⟨v, hv, t, ht, hu⟩

theorem guarded_append (G : σ → L → Prop) (s t : σ) (ls ls' : List L)
    (hrun : run step s ls = some t) (h : Guarded step G s ls) (h' : Guarded step G t ls') :
    Guarded step G s (ls ++ ls') := by
  induction ls generalizing s with
  | nil =>
    cases hrun
    exact h'
  | cons l ls ih =>
    obtain ⟨u, hu, hrest⟩ := (run_cons_eq_some step s t l ls).mp hrun
    exact guarded_cons step G s u l (ls ++ ls') h.1 hu (ih u hrest (h.2 u hu))

/-- What every guarded step with a label in `Q` keeps holds after every such run. -/
theorem run_invariant (Q : L → Prop) (G : σ → L → Prop) (I : σ → Prop)
    (hstep : ∀ s l s', Q l → I s → G s l → step s l = some s' → I s') (s u : σ) (ls : List L)
    (h : I s) (hQ : ∀ l ∈ ls, Q l) (hG : Guarded step G s ls) (hrun : run step s ls = some u) :
    I u := by
  induction ls generalizing s with
  | nil =>
    cases hrun
    exact h
  | cons l ls ih =>
    obtain ⟨t, ht, hrest⟩ := (run_cons_eq_some step s u l ls).mp hrun
    have hI := hstep s l t (hQ l List.mem_cons_self) h hG.1 ht
    exact ih t hI (fun m hm => hQ m (List.mem_cons_of_mem l hm)) (hG.2 t ht) hrest

/-- What every step keeps holds after every run. -/
theorem run_keeps (I : σ → Prop) (hstep : ∀ s l s', I s → step s l = some s' → I s') (s u : σ)
    (ls : List L) (h : I s) (hrun : run step s ls = some u) : I u := by
  induction ls generalizing s with
  | nil =>
    cases hrun
    exact h
  | cons l ls ih =>
    obtain ⟨t, ht, hrest⟩ := (run_cons_eq_some step s u l ls).mp hrun
    exact ih t (hstep s l t h ht) hrest

/-- `P` holds in every state the run reaches. -/
def Throughout (P : σ → Prop) : σ → List L → Prop
  | s, [] => P s
  | s, l :: ls => P s ∧ ∀ s', step s l = some s' → Throughout P s' ls

theorem throughout_last (P : σ → Prop) (s u : σ) (ls : List L) (hrun : run step s ls = some u)
    (h : Throughout step P s ls) : P u := by
  induction ls generalizing s with
  | nil =>
    cases hrun
    exact h
  | cons l ls ih =>
    obtain ⟨t, ht, hrest⟩ := (run_cons_eq_some step s u l ls).mp hrun
    exact ih t hrest (h.2 t ht)

/-- A property that no step repairs holds throughout a run that ends with it. -/
theorem throughout_of_last (P : σ → Prop) (hback : ∀ s l s', step s l = some s' → P s' → P s)
    (s u : σ) (ls : List L) (hrun : run step s ls = some u) (h : P u) : Throughout step P s ls := by
  induction ls generalizing s with
  | nil =>
    cases hrun
    exact h
  | cons l ls ih =>
    obtain ⟨t, ht, hrest⟩ := (run_cons_eq_some step s u l ls).mp hrun
    have htail := ih t hrest
    have hPt : P t := by
      cases ls with
      | nil => exact htail
      | cons _ _ => exact htail.1
    refine ⟨hback s l t ht hPt, fun t' ht' => ?_⟩
    rw [ht] at ht'
    cases ht'
    exact htail

/-- A guard that keeps an invariant and whose first failure breaks `P` holds of
exactly the runs that have `P` throughout. -/
theorem guarded_iff_throughout (Q : L → Prop) (G : σ → L → Prop) (I P : σ → Prop)
    (hstep : ∀ s l s', Q l → I s → G s l → step s l = some s' → I s') (hP : ∀ s, I s → P s)
    (hexact : ∀ s l s', Q l → I s → ¬ G s l → step s l = some s' → ¬ P s')
    (s u : σ) (ls : List L) (h : I s) (hQ : ∀ l ∈ ls, Q l) (hrun : run step s ls = some u) :
    Guarded step G s ls ↔ Throughout step P s ls := by
  induction ls generalizing s with
  | nil => exact ⟨fun _ => hP s h, fun _ => trivial⟩
  | cons l ls ih =>
    obtain ⟨t, ht, hrest⟩ := (run_cons_eq_some step s u l ls).mp hrun
    have hQl := hQ l List.mem_cons_self
    have hQls : ∀ m ∈ ls, Q m := fun m hm => hQ m (List.mem_cons_of_mem l hm)
    constructor
    · intro hG
      refine ⟨hP s h, fun t' ht' => ?_⟩
      rw [ht] at ht'
      cases ht'
      exact (ih t (hstep s l t hQl h hG.1 ht) hQls hrest).mp (hG.2 t ht)
    · intro hall
      have hl : G s l := by
        by_contra hn
        have hPt : P t := by
          have htail := hall.2 t ht
          cases ls with
          | nil => exact htail
          | cons _ _ => exact htail.1
        exact hexact s l t hQl h hn ht hPt
      refine ⟨hl, fun t' ht' => ?_⟩
      rw [ht] at ht'
      cases ht'
      exact (ih t (hstep s l t hQl h hl ht) hQls hrest).mpr (hall.2 t ht)

end Machine
