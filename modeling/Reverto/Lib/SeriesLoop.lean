import Mathlib.Tactic

/-!
# Loops over a series

A loop `for i in range(start, start + count)` whose rounds may raise, the
windows of a series such a loop looks at, and the latest index below a bound
that has a property.
-/

namespace SeriesLoop

section Rounds

variable {ε σ : Type}

/-- The rounds `start .. start + count - 1`, up to the first that raises. -/
def forRange (start count : ℕ) (step : ℕ → σ → Except ε σ) (s : σ) : Except ε σ :=
  (List.range' start count).foldlM (fun s i => step i s) s

@[simp] theorem forRange_zero (start : ℕ) (step : ℕ → σ → Except ε σ) (s : σ) :
    forRange start 0 step s = .ok s := rfl

theorem forRange_succ (start count : ℕ) (step : ℕ → σ → Except ε σ) (s : σ) :
    forRange start (count + 1) step s =
      forRange start count step s >>= fun t => step (start + count) t := by
  rw [forRange, List.range'_concat, List.foldlM_append, one_mul]
  simp only [List.foldlM_cons, List.foldlM_nil, bind_pure]
  rfl

/-- An invariant that every round keeps without raising. -/
theorem forRange_spec (I : ℕ → σ → Prop) (start count : ℕ) (step : ℕ → σ → Except ε σ) (s : σ)
    (hinit : I start s)
    (hstep : ∀ i < start + count, start ≤ i → ∀ s, I i s → ∃ t, step i s = .ok t ∧ I (i + 1) t) :
    ∃ t, forRange start count step s = .ok t ∧ I (start + count) t := by
  induction count with
  | zero => exact ⟨s, rfl, hinit⟩
  | succ count ih =>
    obtain ⟨t, ht, hI⟩ := ih fun i hi => hstep i (by omega)
    obtain ⟨u, hu, hnext⟩ := hstep (start + count) (by omega) (by omega) t hI
    refine ⟨u, ?_, hnext⟩
    rw [forRange_succ, ht]
    exact hu

end Rounds

section Windows

variable {α : Type}

theorem getElem?_map_range (f : ℕ → α) (n i : ℕ) (h : i < n) :
    ((List.range n).map f)[i]? = some (f i) := by
  rw [List.getElem?_map, List.getElem?_range h]
  rfl

/-- The last two entries. -/
theorem reverse_map_range (f : ℕ → α) (n : ℕ) :
    ((List.range (n + 2)).map f).reverse = f (n + 1) :: f n :: ((List.range n).map f).reverse := by
  rw [List.range_succ, List.range_succ, List.map_append, List.map_append, List.reverse_append,
    List.reverse_append]
  rfl

/-- `xs[i:j]` -/
def slice (xs : List α) (i j : ℕ) : List α := (xs.take j).drop i

theorem mem_slice (xs : List α) (i j : ℕ) (x : α) :
    x ∈ slice xs i j ↔ ∃ k, i ≤ k ∧ k < j ∧ xs[k]? = some x := by
  rw [slice, List.mem_iff_getElem?]
  constructor
  · rintro ⟨k, hk⟩
    rw [List.getElem?_drop] at hk
    have hlt : i + k < j := by
      by_contra hge
      rw [List.getElem?_take_eq_none (not_lt.mp hge)] at hk
      cases hk
    rw [List.getElem?_take_of_lt hlt] at hk
    exact ⟨i + k, Nat.le_add_right i k, hlt, hk⟩
  · rintro ⟨k, hi, hj, hk⟩
    refine ⟨k - i, ?_⟩
    rw [List.getElem?_drop, Nat.add_sub_cancel' hi, List.getElem?_take_of_lt hj]
    exact hk

theorem slice_ne_nil (xs : List α) (i j : ℕ) (hij : i < j) (hj : j ≤ xs.length) :
    slice xs i j ≠ [] := by
  have hi : i < xs.length := hij.trans_le hj
  refine List.ne_nil_of_mem ((mem_slice xs i j xs[i]).mpr ⟨i, le_rfl, hij, ?_⟩)
  exact List.getElem?_eq_getElem hi

/-- A window does not see what is appended behind it. -/
theorem slice_append (xs ys : List α) (i j : ℕ) (hj : j ≤ xs.length) :
    slice (xs ++ ys) i j = slice xs i j := by
  rw [slice, List.take_append_of_le_length hj, slice]

theorem getD_append_left (xs ys : List α) (i : ℕ) (d : α) (hi : i < xs.length) :
    (xs ++ ys).getD i d = xs.getD i d := by
  rw [List.getD_eq_getElem?_getD, List.getD_eq_getElem?_getD, List.getElem?_append_left hi]

theorem mem_slice_getD (xs : List α) (d : α) (i j : ℕ) (hj : j ≤ xs.length) (x : α) :
    x ∈ slice xs i j ↔ ∃ k, i ≤ k ∧ k < j ∧ xs.getD k d = x := by
  rw [mem_slice]
  refine exists_congr fun k => and_congr_right fun _ => and_congr_right fun hk => ?_
  rw [List.getD_eq_getElem?_getD, List.getElem?_eq_getElem (hk.trans_le hj), Option.getD_some,
    Option.some_inj]

variable [LinearOrder α]

theorem max_slice (xs : List α) (d : α) (i j : ℕ) (hj : j ≤ xs.length) (m : α) :
    (slice xs i j).max? = some m ↔
      (∃ k, i ≤ k ∧ k < j ∧ xs.getD k d = m) ∧ ∀ k, i ≤ k → k < j → xs.getD k d ≤ m := by
  rw [List.max?_eq_some_iff, mem_slice_getD xs d i j hj]
  refine and_congr_right fun _ => ⟨fun h k hi hk => ?_, fun h x hx => ?_⟩
  · exact h _ ((mem_slice_getD xs d i j hj _).mpr ⟨k, hi, hk, rfl⟩)
  · obtain ⟨k, hi, hk, rfl⟩ := (mem_slice_getD xs d i j hj x).mp hx
    exact h k hi hk

theorem min_slice (xs : List α) (d : α) (i j : ℕ) (hj : j ≤ xs.length) (m : α) :
    (slice xs i j).min? = some m ↔
      (∃ k, i ≤ k ∧ k < j ∧ xs.getD k d = m) ∧ ∀ k, i ≤ k → k < j → m ≤ xs.getD k d := by
  rw [List.min?_eq_some_iff, mem_slice_getD xs d i j hj]
  refine and_congr_right fun _ => ⟨fun h k hi hk => ?_, fun h x hx => ?_⟩
  · exact h _ ((mem_slice_getD xs d i j hj _).mpr ⟨k, hi, hk, rfl⟩)
  · obtain ⟨k, hi, hk, rfl⟩ := (mem_slice_getD xs d i j hj x).mp hx
    exact h k hi hk

/-- A window that is not empty has a maximum and a minimum. -/
theorem exists_max_slice (xs : List α) (i j : ℕ) (hij : i < j) (hj : j ≤ xs.length) :
    ∃ m, (slice xs i j).max? = some m := by
  cases hm : (slice xs i j).max? with
  | none => exact absurd (List.max?_eq_none_iff.mp hm) (slice_ne_nil xs i j hij hj)
  | some m => exact ⟨m, rfl⟩

theorem exists_min_slice (xs : List α) (i j : ℕ) (hij : i < j) (hj : j ≤ xs.length) :
    ∃ m, (slice xs i j).min? = some m := by
  cases hm : (slice xs i j).min? with
  | none => exact absurd (List.min?_eq_none_iff.mp hm) (slice_ne_nil xs i j hij hj)
  | some m => exact ⟨m, rfl⟩

end Windows

section Latest

variable (P : ℕ → Bool)

/-- The greatest index below `n` with the property. -/
def latest : ℕ → Option ℕ
  | 0 => none
  | n + 1 => if P n then some n else latest n

theorem latest_eq_none (n : ℕ) : latest P n = none ↔ ∀ k < n, P k = false := by
  induction n with
  | zero => simp [latest]
  | succ n ih =>
    rw [latest]
    cases hn : P n with
    | true =>
      simp only [if_true, reduceCtorEq, false_iff, not_forall]
      exact ⟨n, Nat.lt_succ_self n, by simp [hn]⟩
    | false =>
      rw [if_neg Bool.false_ne_true, ih]
      constructor
      · intro h k hk
        rcases Nat.lt_succ_iff_lt_or_eq.mp hk with hlt | rfl
        · exact h k hlt
        · exact hn
      · exact fun h k hk => h k (hk.trans (Nat.lt_succ_self n))

theorem latest_eq_some (n i : ℕ) :
    latest P n = some i ↔ i < n ∧ P i = true ∧ ∀ k < n, i < k → P k = false := by
  induction n with
  | zero => simp [latest]
  | succ n ih =>
    rw [latest]
    cases hn : P n with
    | true =>
      rw [if_pos rfl]
      constructor
      · rintro h
        cases h
        exact ⟨Nat.lt_succ_self _, hn, fun k hk hlt => by omega⟩
      · rintro ⟨hi, -, hlater⟩
        rcases Nat.lt_succ_iff_lt_or_eq.mp hi with hlt | rfl
        · rw [hlater n (Nat.lt_succ_self n) hlt] at hn
          cases hn
        · rfl
    | false =>
      rw [if_neg Bool.false_ne_true, ih]
      constructor
      · rintro ⟨hi, hP, hlater⟩
        refine ⟨hi.trans (Nat.lt_succ_self n), hP, fun k hk hik => ?_⟩
        rcases Nat.lt_succ_iff_lt_or_eq.mp hk with hlt | rfl
        · exact hlater k hlt hik
        · exact hn
      · rintro ⟨hi, hP, hlater⟩
        rcases Nat.lt_succ_iff_lt_or_eq.mp hi with hlt | rfl
        · exact ⟨hlt, hP, fun k hk => hlater k (hk.trans (Nat.lt_succ_self n))⟩
        · rw [hn] at hP
          cases hP

theorem latest_congr (Q : ℕ → Bool) (n : ℕ) (h : ∀ k < n, P k = Q k) : latest P n = latest Q n := by
  induction n with
  | zero => rfl
  | succ n ih =>
    rw [latest, latest, h n (Nat.lt_succ_self n), ih fun k hk => h k (hk.trans (Nat.lt_succ_self n))]

end Latest

end SeriesLoop
