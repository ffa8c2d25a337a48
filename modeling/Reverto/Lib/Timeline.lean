import Mathlib.Tactic

/-!
# Records in the order of their times

Lists whose times never go back: what lies before a time is an initial segment, and
a pointer that walks forward over it counts it.
-/

namespace Timeline

variable {α τ : Type} [LinearOrder τ] (time : α → τ)

/-- The times increase. -/
def Increasing (l : List α) : Prop := l.Pairwise fun a b => time a < time b

/-- The times never go back. -/
def Sorted (l : List α) : Prop := l.Pairwise fun a b => time a ≤ time b

theorem sorted_of_increasing (l : List α) (h : Increasing time l) : Sorted time l :=
  h.imp fun hlt => hlt.le

/-- The records before a time. -/
def before (t : τ) (l : List α) : List α := l.filter fun a => decide (time a < t)

theorem mem_before (t : τ) (l : List α) (a : α) : a ∈ before time t l ↔ a ∈ l ∧ time a < t := by
  simp [before]

theorem takeWhile_eq_before (t : τ) (l : List α) (h : Sorted time l) :
    (l.takeWhile fun a => decide (time a < t)) = before time t l := by
  induction l with
  | nil => rfl
  | cons a l ih =>
    obtain ⟨hhead, htail⟩ := List.pairwise_cons.mp h
    by_cases ha : time a < t
    · rw [List.takeWhile_cons_of_pos (by simpa using ha), ih htail]
      simp only [before, List.filter_cons, ha, decide_true, if_true]
    · have hnone : ∀ b ∈ l, ¬ time b < t := fun b hb hbt => ha ((hhead b hb).trans_lt hbt)
      rw [List.takeWhile_cons_of_neg (by simpa using ha)]
      symm
      rw [before, List.filter_eq_nil_iff]
      intro b hb
      rcases List.mem_cons.mp hb with rfl | hb
      · simpa using ha
      · simpa using hnone b hb

theorem take_before (t : τ) (l : List α) (h : Sorted time l) :
    l.take (before time t l).length = before time t l := by
  rw [← takeWhile_eq_before time t l h]
  exact (List.prefix_iff_eq_take.mp (List.takeWhile_prefix _)).symm

/-- A pointer that has only passed records before a time walks to the end of them. -/
theorem walk (t : τ) (l : List α) (n : ℕ) (h : Sorted time l) (hn : n ≤ l.length)
    (hpassed : ∀ a ∈ l.take n, time a < t) :
    n + ((l.drop n).takeWhile fun a => decide (time a < t)).length = (before time t l).length := by
  have hsplit : (l.takeWhile fun a => decide (time a < t)) =
      l.take n ++ (l.drop n).takeWhile fun a => decide (time a < t) := by
    conv_lhs => rw [← List.take_append_drop n l]
    exact List.takeWhile_append_of_pos fun a ha => by simpa using hpassed a ha
  rw [← takeWhile_eq_before time t l h, hsplit, List.length_append, List.length_take_of_le hn]

/-- A record that is not the first has one before it. -/
theorem before_ne_nil (l : List α) (i : ℕ) (a : α) (h : Increasing time l) (ha : l[i]? = some a)
    (hi : 0 < i) : before time (time a) l ≠ [] := by
  cases l with
  | nil => cases ha
  | cons b l =>
    obtain ⟨j, rfl⟩ := Nat.exists_eq_succ_of_ne_zero hi.ne'
    have hmem : a ∈ l := List.mem_of_getElem? (by simpa using ha)
    have hb : time b < time a := (List.pairwise_cons.mp h).1 a hmem
    exact List.ne_nil_of_mem ((mem_before time (time a) (b :: l) b).mpr ⟨List.mem_cons_self, hb⟩)

theorem getLast?_iff (l : List α) (a : α) (h : Increasing time l) :
    l.getLast? = some a ↔ a ∈ l ∧ ∀ b ∈ l, time b ≤ time a := by
  rcases List.eq_nil_or_concat l with rfl | ⟨earlier, last, rfl⟩
  · simp
  · rw [List.concat_eq_append] at h ⊢
    rw [List.getLast?_concat]
    have hlt : ∀ b ∈ earlier, time b < time last := fun b hb =>
      (List.pairwise_append.mp h).2.2 b hb last List.mem_cons_self
    constructor
    · intro heq
      obtain rfl := Option.some.inj heq
      refine ⟨(by simp), fun b hb => ?_⟩
      rcases List.mem_append.mp hb with hb | hb
      · exact (hlt b hb).le
      · rw [List.mem_singleton.mp hb]
    · intro ⟨hmem, hmax⟩
      rcases List.mem_append.mp hmem with hmem | hmem
      · exact absurd (hlt a hmem) (not_lt.mpr (hmax last (by simp)))
      · rw [List.mem_singleton.mp hmem]

/-- The latest of the records with a property. -/
theorem getLast?_filter_iff (l : List α) (p : α → Bool) (a : α) (h : Increasing time l) :
    (l.filter p).getLast? = some a ↔ (a ∈ l ∧ p a = true) ∧ ∀ b ∈ l, p b = true → time b ≤ time a := by
  have hfilter : Increasing time (l.filter p) := List.Pairwise.filter p h
  rw [getLast?_iff time _ a hfilter, List.mem_filter]
  simp only [List.mem_filter, and_imp]

/-- The records up to the one with a given index. -/
theorem filter_le_getElem (l : List α) (i : ℕ) (a : α) (h : Increasing time l)
    (ha : l[i]? = some a) : (l.filter fun b => decide (time b ≤ time a)) = l.take (i + 1) := by
  induction l generalizing i with
  | nil => cases ha
  | cons b l ih =>
    obtain ⟨hhead, htail⟩ := List.pairwise_cons.mp h
    cases i with
    | zero =>
      obtain rfl : b = a := by simpa using ha
      have hnone : (l.filter fun x => decide (time x ≤ time b)) = [] := by
        rw [List.filter_eq_nil_iff]
        intro x hx
        simpa using hhead x hx
      simp [hnone]
    | succ i =>
      have hmem : l[i]? = some a := by simpa using ha
      have hb : time b ≤ time a := (hhead a (List.mem_of_getElem? hmem)).le
      rw [List.filter_cons, if_pos (by simpa using hb), ih i htail hmem, List.take_succ_cons]

/-- Lists with the same records up to one of them have the same initial segment. -/
theorem take_eq_of_filter_eq (l l' : List α) (i : ℕ) (a : α) (h : Increasing time l)
    (h' : Increasing time l') (ha : l[i]? = some a)
    (hsame : (l.filter fun b => decide (time b ≤ time a)) =
      l'.filter fun b => decide (time b ≤ time a)) : l'.take (i + 1) = l.take (i + 1) := by
  have hlen : (l.take (i + 1)).length = i + 1 := by
    have hi := (List.getElem?_eq_some_iff.mp ha).1
    rw [List.length_take]
    omega
  have hmem : a ∈ l'.filter fun b => decide (time b ≤ time a) := by
    rw [← hsame]
    simpa using List.mem_of_getElem? ha
  obtain ⟨j, hj, haj⟩ := List.getElem_of_mem (List.mem_filter.mp hmem).1
  have hle' := filter_le_getElem time l' j a h' (by rw [List.getElem?_eq_getElem hj, haj])
  have heq : l.take (i + 1) = l'.take (j + 1) := by
    rw [← filter_le_getElem time l i a h ha, hsame, hle']
  have hij : i = j := by
    have hlen' := congrArg List.length heq
    rw [hlen, List.length_take_of_le hj] at hlen'
    omega
  rw [heq, hij]

end Timeline
