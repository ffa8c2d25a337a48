import Mathlib.Tactic

/-!
# Counting events in a sliding window

A counter that starts again when its last event lies further back than the
window. It bounds how many events fall into a window when every event passes a
gate that reads the counter, also where events are recorded some time after they
happen.
-/

namespace SlidingWindow

section Since

variable {τ : Type} [LinearOrder τ]

/-- The events at `t` or later. -/
def since (t : τ) (times : List τ) : List τ := times.filter fun u => decide (t ≤ u)

theorem since_eq_nil (t now : τ) (times : List τ) (hle : ∀ u ∈ times, u ≤ now) (ht : now < t) :
    since t times = [] := by
  rw [since, List.filter_eq_nil_iff]
  intro u hu
  have h : u < t := lt_of_le_of_lt (hle u hu) ht
  simpa using h

theorem length_since_append (t now : τ) (times : List τ) :
    (since t (times ++ [now])).length ≤ (since t times).length + 1 := by
  rw [since, List.filter_append, List.length_append]
  have hlast : ([now].filter fun u => decide (t ≤ u)).length ≤ 1 := List.length_filter_le _ _
  exact Nat.add_le_add_left hlast _

/-- In a list in order of time, the events from the `i`-th on are not before it. -/
theorem length_le_since (times : List τ) (hsorted : times.Pairwise (· ≤ ·)) (i : ℕ) (x : τ)
    (hx : times[i]? = some x) : times.length - i ≤ (since x times).length := by
  obtain ⟨hi, hget⟩ := List.getElem?_eq_some_iff.mp hx
  have hdrop : ∀ u ∈ times.drop i, x ≤ u := by
    intro u hu
    obtain ⟨k, hk, hku⟩ := List.mem_iff_getElem.mp hu
    rw [List.getElem_drop] at hku
    rw [List.length_drop] at hk
    rw [← hku, ← hget]
    cases k with
    | zero => exact le_refl _
    | succ k => exact List.pairwise_iff_getElem.mp hsorted i (i + (k + 1)) hi (by omega) (by omega)
  have hall : since x (times.drop i) = times.drop i := by
    rw [since, List.filter_eq_self]
    intro u hu
    simpa using hdrop u hu
  have hsub : ((times.drop i).filter fun u => decide (x ≤ u)).length ≤ (since x times).length :=
    ((List.drop_sublist i times).filter _).length_le
  rw [← since, hall, List.length_drop] at hsub
  exact hsub

end Since

variable {τ : Type} [AddCommGroup τ] [LinearOrder τ]

/-- Any `n + 1` of the events, in order, span at least `W`. -/
def Spread (n : ℕ) (W : τ) (times : List τ) : Prop :=
  ∀ (i j : ℕ) (x y : τ), i + n ≤ j → times[i]? = some x → times[j]? = some y → x + W ≤ y

theorem spread_nil (n : ℕ) (W : τ) : Spread n W ([] : List τ) := by
  intro i j x y _ hx
  simp at hx

theorem spread_of_append (n : ℕ) (W : τ) (earlier times : List τ)
    (h : Spread n W (earlier ++ times)) : Spread n W times := by
  intro i j x y hij hx hy
  refine h (earlier.length + i) (earlier.length + j) x y (by omega) ?_ ?_
  · rw [List.getElem?_append_right (by omega), Nat.add_sub_cancel_left]
    exact hx
  · rw [List.getElem?_append_right (by omega), Nat.add_sub_cancel_left]
    exact hy

theorem spread_append (n : ℕ) (W now : τ) (times : List τ) (h : Spread n W times)
    (hsorted : times.Pairwise (· ≤ ·))
    (hrecent : ∀ t, now < t + W → (since t times).length < n) :
    Spread n W (times ++ [now]) := by
  intro i j x y hij hx hy
  by_cases hj : j < times.length
  · rw [List.getElem?_append_left hj] at hy
    rw [List.getElem?_append_left (by omega)] at hx
    exact h i j x y hij hx hy
  · have hlen : j < times.length + 1 := by
      have hlt := (List.getElem?_eq_some_iff.mp hy).1
      simpa using hlt
    have hjeq : j = times.length := by omega
    have hynow : y = now := by
      rw [hjeq, List.getElem?_concat_length] at hy
      exact (Option.some.inj hy).symm
    rw [hynow]
    by_contra hn
    have hfew := hrecent x (not_le.mp hn)
    by_cases hi : i < times.length
    · rw [List.getElem?_append_left hi] at hx
      have hmany := length_le_since times hsorted i x hx
      omega
    · omega

/-! ### The counter -/

/-- The number of events recorded and the time of the last one. -/
structure Counter (τ : Type) where
  count : ℕ
  last : Option τ

namespace Counter

/-- Record an event now; after a pause longer than the window the count starts again. -/
def record (W now : τ) (c : Counter τ) : Counter τ where
  count := match c.last with
    | none => 1
    | some l => if W < now - l then 1 else c.count + 1
  last := some now

/-- The count as long as the last event is in the window. -/
def recent (W now : τ) (c : Counter τ) : ℕ :=
  match c.last with
  | none => 0
  | some l => if W ≤ now - l then 0 else c.count

/-- The events recorded since `t`, as far as the counter knows. -/
def known (t : τ) (c : Counter τ) : ℕ :=
  match c.last with
  | none => 0
  | some l => if t ≤ l then c.count else 0

end Counter

variable (W now : τ) (c : Counter τ) (pending : ℕ) (times : List τ)

/-- The counter and `pending` events not yet recorded account for every event of
the window that ends now. -/
def Covers : Prop :=
  ∀ t, now < t + W → (since t times).length ≤ c.known t + pending

theorem covers_nil : Covers W now c pending [] := fun _ _ => Nat.zero_le _

theorem covers_later (now' : τ) (hle : now ≤ now') (h : Covers W now c pending times) :
    Covers W now' c pending times := fun t ht => h t (lt_of_le_of_lt hle ht)

/-- An event that is not recorded yet. -/
theorem covers_append (h : Covers W now c pending times) :
    Covers W now c (pending + 1) (times ++ [now]) := by
  intro t ht
  have hlen := length_since_append t now times
  have hold := h t ht
  omega

section Gate

variable [IsOrderedAddMonoid τ]

theorem known_le_recent (t : τ) (ht : now < t + W) : c.known t ≤ c.recent W now := by
  unfold Counter.known Counter.recent
  cases c.last with
  | none => exact le_refl 0
  | some l =>
    by_cases htl : t ≤ l
    · have hin : ¬ W ≤ now - l := by
        rw [not_le, sub_lt_iff_lt_add']
        exact lt_of_lt_of_le ht (add_le_add_left htl W)
      simp only [if_pos htl, if_neg hin, le_refl]
    · simp only [if_neg htl, Nat.zero_le]

theorem known_record (t : τ) (ht : now < t + W) (hnow : t ≤ now) :
    c.known t + 1 ≤ (c.record W now).known t := by
  unfold Counter.known Counter.record
  simp only [if_pos hnow]
  cases c.last with
  | none => exact le_refl 1
  | some l =>
    by_cases hstale : W < now - l
    · have htl : ¬ t ≤ l := by
        intro htl
        have hlt : now - l < W := by
          rw [sub_lt_iff_lt_add']
          exact lt_of_lt_of_le ht (add_le_add_left htl W)
        exact absurd hstale (not_lt.mpr hlt.le)
      simp only [if_neg htl, if_pos hstale, le_refl]
    · by_cases htl : t ≤ l
      · simp only [if_pos htl, if_neg hstale, le_refl]
      · simp only [if_neg htl, if_neg hstale]
        omega

/-- One of the pending events is recorded. -/
theorem covers_record (hle : ∀ u ∈ times, u ≤ now) (h : Covers W now c (pending + 1) times) :
    Covers W now (c.record W now) pending times := by
  intro t ht
  by_cases hnow : t ≤ now
  · have hknown := known_record W now c t ht hnow
    have hold := h t ht
    omega
  · rw [since_eq_nil t now times hle (not_le.mp hnow)]
    exact Nat.zero_le _

/-- An event that passes the gate keeps the events spread. -/
theorem spread_of_covers (n : ℕ) (hspread : Spread n W times)
    (hsorted : times.Pairwise (· ≤ ·)) (h : Covers W now c pending times)
    (hgate : c.recent W now + pending < n) : Spread n W (times ++ [now]) := by
  apply spread_append n W now times hspread hsorted
  intro t ht
  have hcover := h t ht
  have hknown := known_le_recent W now c t ht
  omega

end Gate

/-! ### A log with resets -/

section Streak

variable {T ω : Type} (at? : ω → Option T) (resets : ω → Bool)

/-- The times of the events after the last reset. -/
def streak (log : List ω) : List T :=
  log.foldl (fun acc e => if resets e then [] else acc ++ (at? e).toList) []

theorem streak_one (log : List ω) (e : ω) (h : resets e = false) :
    streak at? resets (log ++ [e]) = streak at? resets log ++ (at? e).toList := by
  simp [streak, h]

theorem streak_reset (log : List ω) (e : ω) (h : resets e = true) :
    streak at? resets (log ++ [e]) = [] := by
  simp [streak, h]

theorem streak_append (log log' : List ω) (h : ∀ e ∈ log', resets e = false) :
    streak at? resets (log ++ log') = streak at? resets log ++ log'.filterMap at? := by
  induction log' using List.reverseRecOn with
  | nil => simp
  | append_singleton log' e ih =>
    have hlog' : ∀ e ∈ log', resets e = false :=
      fun e' he' => h e' (List.mem_append_left _ he')
    have he : resets e = false := h e (List.mem_append_right _ List.mem_cons_self)
    rw [← List.append_assoc, streak_one at? resets _ e he, ih hlog', List.append_assoc]
    cases hat : at? e with
    | none => simp [hat]
    | some t => simp [hat]

end Streak

section Log

variable {ω : Type} (at? : ω → Option τ) (resets : ω → Bool) (n : ℕ) (log : List ω) (e : ω)

/-- Any `n + 1` events with no reset between them span at least `W`. -/
def SpreadBetween : Prop :=
  ∀ before seg after, log = before ++ seg ++ after → (∀ e ∈ seg, resets e = false) →
    Spread n W (seg.filterMap at?)

theorem spreadBetween_append (h : SpreadBetween W at? resets n log)
    (hlast : Spread n W (streak at? resets (log ++ [e]))) :
    SpreadBetween W at? resets n (log ++ [e]) := by
  intro before seg after hlog hseg
  cases after using List.reverseRecOn with
  | nil =>
    rw [List.append_nil] at hlog
    rw [hlog, streak_append at? resets before seg hseg] at hlast
    exact spread_of_append n W _ _ hlast
  | append_singleton after e' =>
    rw [← List.append_assoc] at hlog
    have hinit := List.append_inj_left' hlog rfl
    exact h before seg after hinit hseg

/-- A log whose events are spread between resets, and a counter that accounts for
those since the last one. -/
structure Guarded : Prop where
  between : SpreadBetween W at? resets n log
  current : Spread n W (streak at? resets log)
  sorted : (streak at? resets log).Pairwise (· ≤ ·)
  past : ∀ u ∈ streak at? resets log, u ≤ now
  covers : Covers W now c pending (streak at? resets log)

variable {W now c pending at? resets n log}

theorem guarded_nil : Guarded W now c pending at? resets n [] where
  between := by
    intro before seg after hlog _
    have hseg : seg = [] := by
      simp only [List.nil_eq, List.append_eq_nil_iff] at hlog
      exact hlog.1.2
    rw [hseg]
    exact spread_nil n W
  current := spread_nil n W
  sorted := List.Pairwise.nil
  past := fun u hu => by simp [streak] at hu
  covers := covers_nil W now c pending

theorem guarded_later (now' : τ) (hle : now ≤ now')
    (h : Guarded W now c pending at? resets n log) :
    Guarded W now' c pending at? resets n log :=
  { h with
    past := fun u hu => (h.past u hu).trans hle
    covers := covers_later W now c pending _ now' hle h.covers }

/-- An entry of the log that is no event. -/
theorem guarded_other (hat : at? e = none) (he : resets e = false)
    (h : Guarded W now c pending at? resets n log) :
    Guarded W now c pending at? resets n (log ++ [e]) := by
  have hstreak : streak at? resets (log ++ [e]) = streak at? resets log := by
    rw [streak_one at? resets log e he, hat, Option.toList_none, List.append_nil]
  constructor
  · apply spreadBetween_append W at? resets n log e h.between
    rw [hstreak]
    exact h.current
  all_goals rw [hstreak]
  · exact h.current
  · exact h.sorted
  · exact h.past
  · exact h.covers

/-- After a reset a new count starts, with anything pending. -/
theorem guarded_reset (c' : Counter τ) (pending' : ℕ) (he : resets e = true)
    (h : Guarded W now c pending at? resets n log) :
    Guarded W now c' pending' at? resets n (log ++ [e]) := by
  have hstreak : streak at? resets (log ++ [e]) = [] := streak_reset at? resets log e he
  constructor
  · apply spreadBetween_append W at? resets n log e h.between
    rw [hstreak]
    exact spread_nil n W
  all_goals rw [hstreak]
  · exact spread_nil n W
  · exact List.Pairwise.nil
  · intro u hu
    cases hu
  · exact covers_nil W now c' pending'

variable [IsOrderedAddMonoid τ]

/-- An event that passes the gate and is not recorded yet. -/
theorem guarded_event (hat : at? e = some now) (he : resets e = false)
    (hgate : c.recent W now + pending < n) (h : Guarded W now c pending at? resets n log) :
    Guarded W now c (pending + 1) at? resets n (log ++ [e]) := by
  have hstreak : streak at? resets (log ++ [e]) = streak at? resets log ++ [now] := by
    rw [streak_one at? resets log e he, hat, Option.toList_some]
  have hspread := spread_of_covers W now c pending _ n h.current h.sorted h.covers hgate
  constructor
  · apply spreadBetween_append W at? resets n log e h.between
    rw [hstreak]
    exact hspread
  all_goals rw [hstreak]
  · exact hspread
  · rw [List.pairwise_append]
    refine ⟨h.sorted, List.pairwise_singleton _ _, fun u hu v hv => ?_⟩
    rw [List.mem_singleton.mp hv]
    exact h.past u hu
  · intro u hu
    rcases List.mem_append.mp hu with hu | hu
    · exact h.past u hu
    · exact le_of_eq (List.mem_singleton.mp hu)
  · exact covers_append W now c pending _ h.covers

theorem guarded_record (h : Guarded W now c (pending + 1) at? resets n log) :
    Guarded W now (c.record W now) pending at? resets n log :=
  { h with covers := covers_record W now c pending _ h.past h.covers }

end Log

end SlidingWindow
