import Mathlib.Tactic

/-!
# A source and a copy of its view

Steps change a source; some of them then try to write a view of it to a copy, and the write may
come through or not. Where a step that does not try leaves the view alone, the copy is the view
whenever the last try came through.
-/

namespace Mirror

variable {σ L ν : Type} (step : σ → L → σ) (view : σ → ν) (attempt : σ → L → Option Bool)

/-- The source after the steps. -/
def source (s : σ) (l : List L) : σ := l.foldl step s

/-- The copy after the steps. -/
def copy : σ → ν → List L → ν
  | _, c, [] => c
  | s, c, x :: l => copy (step s x) (if attempt s x = some true then view (step s x) else c) l

/-- Whether the last try of the steps came through. -/
def lastAttempt : σ → List L → Option Bool
  | _, [] => none
  | s, x :: l => (lastAttempt (step s x) l).or (attempt s x)

variable (hquiet : ∀ s x, attempt s x = none → view (step s x) = view s)
include hquiet

/-- A copy whose last try came through is the view. -/
theorem copy_fresh (l : List L) (s : σ) (c : ν)
    (h : lastAttempt step attempt s l = some true ∨ (lastAttempt step attempt s l = none ∧ c = view s)) :
    copy step view attempt s c l = view (source step s l) := by
  induction l generalizing s c with
  | nil =>
    rcases h with h | ⟨-, h⟩
    · cases h
    · exact h
  | cons x l ih =>
    apply ih
    rw [lastAttempt] at h
    cases hrest : lastAttempt step attempt (step s x) l with
    | some b =>
      rw [hrest, Option.some_or] at h
      rcases h with h | ⟨h, -⟩
      · exact .inl h
      · cases h
    | none =>
      rw [hrest, Option.none_or] at h
      right
      refine ⟨rfl, ?_⟩
      rcases h with h | ⟨h, hc⟩
      · rw [if_pos h]
      · rw [if_neg (by rw [h]; exact fun hn => by cases hn), hc, hquiet s x h]

omit hquiet in
/-- A copy is what it was at first, or the view after some of the steps. -/
theorem copy_seen (l : List L) (s : σ) (c : ν) :
    copy step view attempt s c l = c ∨
      ∃ before after, l = before ++ after ∧ copy step view attempt s c l = view (source step s before) := by
  induction l generalizing s c with
  | nil => exact .inl rfl
  | cons x l ih =>
    rw [copy]
    rcases ih (step s x) (if attempt s x = some true then view (step s x) else c) with h | ⟨before, after, rfl, h⟩
    · rw [h]
      split
      · exact .inr ⟨[x], l, rfl, rfl⟩
      · exact .inl rfl
    · exact .inr ⟨x :: before, after, rfl, h⟩

end Mirror
