import Mathlib.Tactic
import Reverto.Lib.Program

/-!
# Events judged by the events before them

`Lawful P l`: every event of the log satisfies `P` of the events before it. An invariant
of the whole log and the state is kept by a program that keeps it behind every log.
-/

namespace Program

variable {ε ω σ α β : Type}

/-- Every event satisfies `P` of the events before it. -/
def Lawful (P : List ω → ω → Prop) (l : List ω) : Prop := ∀ l₁ e l₂, l = l₁ ++ e :: l₂ → P l₁ e

theorem lawful_nil (P : List ω → ω → Prop) : Lawful P [] := by
  intro l₁ e l₂ h
  cases l₁ with
  | nil => cases h
  | cons a l₁ => cases h

theorem lawful_snoc (P : List ω → ω → Prop) (l : List ω) (e : ω) (h : Lawful P l) (he : P l e) :
    Lawful P (l ++ [e]) := by
  intro l₁ a l₂ heq
  rcases List.eq_nil_or_concat l₂ with rfl | ⟨l₂', b, rfl⟩
  · obtain ⟨rfl, hea⟩ := List.append_inj' heq rfl
    cases hea
    exact he
  · rw [List.concat_eq_append, ← List.cons_append, ← List.append_assoc] at heq
    obtain ⟨hl, _⟩ := List.append_inj' heq rfl
    exact h l₁ a l₂' hl

theorem lawful_prior (P : List ω → ω → Prop) (l l' : List ω) (h : Lawful P (l ++ l')) :
    Lawful P l := by
  intro l₁ e l₂ heq
  refine h l₁ e (l₂ ++ l') ?_
  rw [heq, List.append_assoc, List.cons_append]

/-- Events that are lawful behind every log and the events before them. -/
theorem lawful_append (P : List ω → ω → Prop) (l l' : List ω) (h : Lawful P l)
    (h' : ∀ l₁ e l₂, l' = l₁ ++ e :: l₂ → P (l ++ l₁) e) : Lawful P (l ++ l') := by
  induction l' using List.reverseRecOn with
  | nil => rwa [List.append_nil]
  | append_singleton l' e ih =>
    rw [← List.append_assoc]
    refine lawful_snoc P (l ++ l') e (ih fun l₁ a l₂ heq => h' l₁ a (l₂ ++ [e]) ?_) (h' l' e [] rfl)
    rw [heq, List.append_assoc, List.cons_append]

/-- A law that more events before do not break holds of logs one after the other. -/
theorem lawful_concat (P : List ω → ω → Prop) (hP : ∀ l l₁ e, P l₁ e → P (l ++ l₁) e)
    (l l' : List ω) (h : Lawful P l) (h' : Lawful P l') : Lawful P (l ++ l') :=
  lawful_append P l l' h fun l₁ e l₂ heq => hP l l₁ e (h' l₁ e l₂ heq)

/-- A law of some of the events, read off the whole log. -/
theorem lawful_filterMap {π : Type} (f : ω → Option π) (P : List π → π → Prop) (l : List ω)
    (h : Lawful P (l.filterMap f)) :
    Lawful (fun before e => ∀ p, f e = some p → P (before.filterMap f) p) l := by
  intro l₁ e l₂ heq p hp
  refine h (l₁.filterMap f) p (l₂.filterMap f) ?_
  rw [heq, List.filterMap_append, List.filterMap_cons_some hp]

/-- The program keeps an invariant of the log and the state. -/
def KeepsHistory (I : List ω → σ → Prop) (m : Program ε ω σ α) : Prop :=
  Respects (fun s l s' => ∀ before, I before s → I (before ++ l) s') m

theorem traceRel_history (I : List ω → σ → Prop) :
    TraceRel (fun (s : σ) (l : List ω) (s' : σ) => ∀ before, I before s → I (before ++ l) s') where
  nil s before h := by
    rw [List.append_nil]
    exact h
  append s l t l' u h h' before hI := by
    rw [← List.append_assoc]
    exact h' _ (h before hI)

/-- `try: m except: pass` -/
theorem ignore_run (m : Program ε ω σ α) (s : σ) :
    handle (m >>= fun _ => pure ()) (fun _ => pure ()) s = ⟨.ok (), (m s).log, (m s).state⟩ := by
  cases hr : (m s).result with
  | ok a =>
    have hbind := bind_ok m (fun _ => (pure () : Program ε ω σ Unit)) s a hr
    rw [handle_ok _ _ s () (by rw [hbind]; rfl), hbind]
    simp only [pure_run, List.append_nil]
  | error e =>
    have hbind := bind_error m (fun _ => (pure () : Program ε ω σ Unit)) s e hr
    rw [handle_error _ _ s e (by rw [hbind]), hbind]
    simp only [pure_run, List.append_nil]

/-! ### The last event -/

/-- A run that returns `a` ends with the event `e a`. -/
def EndsWith (e : α → ω) (m : Program ε ω σ α) : Prop :=
  ∀ s a, (m s).result = .ok a → (m s).log.getLast? = some (e a)

theorem endsWith_raise (e : α → ω) (x : ε) : EndsWith e (raise x : Program ε ω σ α) := by
  intro s a h
  cases h

theorem endsWith_bind (e : β → ω) (m : Program ε ω σ α) (f : α → Program ε ω σ β)
    (h : ∀ a, EndsWith e (f a)) : EndsWith e (m >>= f) := by
  intro s b hb
  cases hr : (m s).result with
  | error x =>
    rw [bind_error m f s x hr] at hb
    cases hb
  | ok a =>
    rw [bind_ok m f s a hr] at hb ⊢
    rw [List.getLast?_append, h a _ b hb]
    rfl

/-! ### Some of the events, in order -/

section Yields

variable {π : Type} (g : ω → Option π)

/-- What `g` reads of the events of any run is a part of `k`, in order. -/
def Yields (k : List π) (m : Program ε ω σ α) : Prop := ∀ s, ((m s).log.filterMap g).Sublist k

theorem yields_quiet (k : List π) (m : Program ε ω σ α) (h : ∀ s, (m s).log = []) :
    Yields g k m := by
  intro s
  rw [h s]
  exact List.nil_sublist k

theorem yields_emit (w : ω) : Yields g (g w).toList (emit w : Program ε ω σ Unit) := by
  intro s
  cases hw : g w with
  | none => exact (List.filterMap_cons_none hw).symm ▸ List.Sublist.refl _
  | some p => exact (List.filterMap_cons_some hw).symm ▸ List.Sublist.refl _

theorem yields_bind (k k' : List π) (m : Program ε ω σ α) (f : α → Program ε ω σ β)
    (hm : Yields g k m) (hf : ∀ a, Yields g k' (f a)) : Yields g (k ++ k') (m >>= f) := by
  intro s
  cases hr : (m s).result with
  | error e =>
    rw [bind_error m f s e hr]
    exact (hm s).trans (List.sublist_append_left k k')
  | ok a =>
    rw [bind_ok m f s a hr, List.filterMap_append]
    exact (hm s).append (hf a _)

theorem yields_forEach (k : α → List π) (f : α → Program ε ω σ Unit) (h : ∀ a, Yields g (k a) (f a))
    (xs : List α) : Yields g (xs.flatMap k) (forEach f xs) := by
  induction xs with
  | nil => exact yields_quiet g [] _ fun _ => rfl
  | cons x xs ih => exact yields_bind g (k x) _ (f x) _ (h x) fun _ => ih

end Yields

end Program
