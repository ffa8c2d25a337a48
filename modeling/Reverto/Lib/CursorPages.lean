import Mathlib.Tactic

/-!
# Reading a spaced list in pages

A list whose keys lie at least a gap apart is read from the front, page by page. The next page
starts at a cursor: a gap behind the last key that was read.
-/

namespace CursorPages

variable {α : Type} (key : α → ℤ)

/-- Consecutive keys are at least `gap` apart. -/
def Spaced (gap : ℤ) (l : List α) : Prop := l.Pairwise fun a b => key a + gap ≤ key b

/-- What a reader at the cursor has before it. -/
def ahead (l : List α) (cursor : ℤ) : List α := l.filter fun a => cursor ≤ key a

/-- The cursor behind the items read, or where the reader started. -/
def behind (gap start : ℤ) (l : List α) : ℤ :=
  match l.getLast? with
  | none => start
  | some a => key a + gap

variable {key}

theorem Spaced.sublist {gap : ℤ} {l m : List α} (h : Spaced key gap m) (hl : l.Sublist m) :
    Spaced key gap l := List.Pairwise.sublist hl h

theorem Spaced.sorted {gap : ℤ} (hgap : 0 < gap) {l : List α} (h : Spaced key gap l) :
    l.Pairwise fun a b => key a < key b := by
  refine List.Pairwise.imp ?_ h
  intro a b hab
  omega

theorem Spaced.nodup {gap : ℤ} (hgap : 0 < gap) {l : List α} (h : Spaced key gap l) :
    (l.map key).Nodup := by
  rw [List.nodup_iff_pairwise_ne, List.pairwise_map]
  refine List.Pairwise.imp ?_ h
  intro a b hab
  omega

/-- An item in front of another is at least a gap below it. -/
theorem Spaced.lt_append {gap : ℤ} {r s : List α} (h : Spaced key gap (r ++ s)) (a b : α)
    (ha : a ∈ r) (hb : b ∈ s) : key a + gap ≤ key b :=
  (List.pairwise_append.mp h).2.2 a ha b hb

theorem behind_nil (gap start : ℤ) : behind key gap start [] = start := rfl

theorem behind_concat (gap start : ℤ) (l : List α) (a : α) :
    behind key gap start (l ++ [a]) = key a + gap := by
  rw [behind, List.getLast?_concat]

/-- The items read are below the cursor behind them. -/
theorem lt_behind {gap : ℤ} (start : ℤ) (hgap : 0 < gap) {l : List α} (h : Spaced key gap l) (a : α)
    (ha : a ∈ l) : key a < behind key gap start l := by
  obtain ⟨init, last, rfl⟩ : ∃ init last, l = init ++ [last] :=
    ⟨l.dropLast, l.getLast (List.ne_nil_of_mem ha), (List.dropLast_append_getLast _).symm⟩
  rw [behind_concat]
  rcases List.mem_append.mp ha with hinit | hlast
  · have hle := h.lt_append a last hinit (List.mem_singleton_self last)
    omega
  · rw [List.mem_singleton.mp hlast]
    omega

/-- The items not read are at the cursor or beyond it. -/
theorem behind_le {gap : ℤ} (start : ℤ) {r s : List α} (h : Spaced key gap (r ++ s))
    (hstart : ∀ a ∈ r ++ s, start ≤ key a) (b : α) (hb : b ∈ s) : behind key gap start r ≤ key b := by
  cases hlast : r.getLast? with
  | none =>
    rw [behind, hlast]
    exact hstart b (List.mem_append_right _ hb)
  | some a =>
    rw [behind, hlast]
    exact h.lt_append a b (List.mem_of_getLast? hlast) hb

/-- From any cursor between the items read and the others the reader has the others before it. -/
theorem ahead_append {gap start cursor : ℤ} (hgap : 0 < gap) {r s : List α}
    (h : Spaced key gap (r ++ s)) (hcursor : behind key gap start r ≤ cursor)
    (hs : ∀ b ∈ s, cursor ≤ key b) : ahead key (r ++ s) cursor = s := by
  have hread : r.filter (fun a => decide (cursor ≤ key a)) = [] := by
    refine List.filter_eq_nil_iff.mpr fun a ha => ?_
    have hlt := lt_behind start hgap (h.sublist (List.sublist_append_left r s)) a ha
    simp only [decide_eq_true_eq]
    omega
  have hunread : s.filter (fun a => decide (cursor ≤ key a)) = s :=
    List.filter_eq_self.mpr fun b hb => by simpa using hs b hb
  rw [ahead, List.filter_append, hread, hunread, List.nil_append]

/-- A beginning of a sorted list has what is below one of its items. -/
theorem mem_of_isPrefix {l m : List α} (hl : l <+: m) (hm : m.Pairwise fun a b => key a < key b) (a b : α)
    (hb : b ∈ l) (ha : a ∈ m) (hab : key a < key b) : a ∈ l := by
  obtain ⟨rest, rfl⟩ := hl
  rcases List.mem_append.mp ha with ha | ha
  · exact ha
  · have hlt := (List.pairwise_append.mp hm).2.2 b hb a ha
    omega

/-- The next page. -/
theorem take_page (l : List α) (n k : ℕ) :
    l.take (n * (k + 1)) = l.take (n * k) ++ (l.drop (n * k)).take n := by
  rw [Nat.mul_succ, List.take_add]

end CursorPages
