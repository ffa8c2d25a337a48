import Mathlib.Tactic

/-!
# Scans over the indices of a series

A loop `for i in range(n)` that carries a state and reads a series by index is
a scan: `scan step init n` is the state after the rounds `0 .. n-1`. What such a
loop knows after `n` rounds is what its rounds read.
-/

namespace IndexScan

variable {σ τ : Type}

/-- The state after the rounds `0 .. n-1`. -/
def scan (step : ℕ → σ → σ) (init : σ) : ℕ → σ
  | 0 => init
  | n + 1 => step n (scan step init n)

@[simp] theorem scan_zero (step : ℕ → σ → σ) (init : σ) : scan step init 0 = init := rfl

theorem scan_succ (step : ℕ → σ → σ) (init : σ) (n : ℕ) :
    scan step init (n + 1) = step n (scan step init n) := rfl

/-- Two loops side by side. -/
theorem scan_rel (R : σ → τ → Prop) (step : ℕ → σ → σ) (step' : ℕ → τ → τ) (init : σ)
    (init' : τ) (n : ℕ) (hinit : R init init')
    (hstep : ∀ k < n, ∀ s t, R s t → R (step k s) (step' k t)) :
    R (scan step init n) (scan step' init' n) := by
  induction n with
  | zero => exact hinit
  | succ n ih =>
    have hprev := ih fun k hk => hstep k (Nat.lt_succ_of_lt hk)
    exact hstep n (Nat.lt_succ_self n) _ _ hprev

/-- Loops whose rounds agree reach the same state. -/
theorem scan_congr (step step' : ℕ → σ → σ) (init : σ) (n : ℕ)
    (hstep : ∀ k < n, ∀ s, step k s = step' k s) : scan step init n = scan step' init n := by
  refine scan_rel (· = ·) step step' init init n rfl fun k hk s t hst => ?_
  rw [hst]
  exact hstep k hk t

/-- What every round keeps. -/
theorem scan_invariant (I : σ → Prop) (step : ℕ → σ → σ) (init : σ) (n : ℕ) (hinit : I init)
    (hstep : ∀ k < n, ∀ s, I s → I (step k s)) : I (scan step init n) :=
  scan_rel (fun s _ => I s) step step init init n hinit fun k hk s _ hs => hstep k hk s hs

end IndexScan
