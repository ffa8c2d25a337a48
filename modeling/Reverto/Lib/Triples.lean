import Mathlib.Tactic
import Reverto.Lib.Program

/-!
# Triples

`Triple P m Q`: started in a state with `P`, the program, if it returns, returns a
value and leaves a state with `Q`. A run that raises promises nothing.
-/

namespace Program

variable {ε ω σ α β : Type}

def Triple (P : σ → Prop) (m : Program ε ω σ α) (Q : α → σ → Prop) : Prop :=
  ∀ s, P s → ∀ a, (m s).result = .ok a → Q a (m s).state

variable {P : σ → Prop}

theorem triple_weaken (m : Program ε ω σ α) (P' : σ → Prop) (Q Q' : α → σ → Prop)
    (h : Triple P m Q) (hP : ∀ s, P' s → P s) (hQ : ∀ a s, Q a s → Q' a s) : Triple P' m Q' :=
  fun s hs a ha => hQ a _ (h s (hP s hs) a ha)

theorem triple_pure (a : α) (Q : α → σ → Prop) (h : ∀ s, P s → Q a s) :
    Triple P (pure a : Program ε ω σ α) Q := by
  intro s hs b hb
  cases hb
  exact h s hs

theorem triple_raise (e : ε) (Q : α → σ → Prop) :
    Triple P (raise e : Program ε ω σ α) Q := by
  intro s _ a ha
  cases ha

theorem triple_modify (f : σ → σ) (Q : Unit → σ → Prop) (h : ∀ s, P s → Q () (f s)) :
    Triple P (modify f : Program ε ω σ Unit) Q := fun s hs _ _ => h s hs

theorem triple_emit (w : ω) (Q : Unit → σ → Prop) (h : ∀ s, P s → Q () s) :
    Triple P (emit w : Program ε ω σ Unit) Q := fun s hs _ _ => h s hs

theorem triple_get_bind (f : σ → Program ε ω σ β) (Q : β → σ → Prop)
    (h : ∀ s, P s → Triple (fun t => t = s) (f s) Q) : Triple P (get >>= f) Q :=
  fun s hs b hb => h s hs s rfl b hb

theorem triple_bind (m : Program ε ω σ α) (f : α → Program ε ω σ β) (Q : α → σ → Prop)
    (R : β → σ → Prop) (hm : Triple P m Q) (hf : ∀ a, Triple (Q a) (f a) R) :
    Triple P (m >>= f) R := by
  intro s hs b hb
  cases hr : (m s).result with
  | error e =>
    rw [bind_error m f s e hr] at hb
    cases hb
  | ok a =>
    rw [bind_ok m f s a hr] at hb ⊢
    exact hf a _ (hm s hs a hr) b hb

theorem triple_ite (c : Prop) [Decidable c] (m m' : Program ε ω σ α) (Q : α → σ → Prop)
    (h : c → Triple P m Q) (h' : ¬ c → Triple P m' Q) : Triple P (if c then m else m') Q := by
  split
  · rename_i hc
    exact h hc
  · rename_i hc
    exact h' hc

/-- A loop, by an invariant that knows what is left of the list. -/
theorem triple_forEach (f : α → Program ε ω σ Unit) (I : List α → σ → Prop)
    (h : ∀ x l, Triple (I (x :: l)) (f x) fun _ => I l) (l : List α) :
    Triple (I l) (forEach f l) fun _ => I [] := by
  induction l with
  | nil => exact triple_pure () _ fun s hs => hs
  | cons x l ih => exact triple_bind _ _ _ _ (h x l) fun _ => ih

end Program
