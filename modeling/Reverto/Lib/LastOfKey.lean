import Mathlib.Tactic
import Reverto.Lib.KeyedDict

/-!
# The last element of each key

A list whose elements have keys: the last element of every key, which is what a
dictionary filled in the order of the list ends with, and those that a later one of
their key replaces.
-/

namespace LastOfKey

variable {α κ : Type} [DecidableEq κ] (key : α → κ)

/-- The last element of each key. -/
def lasts : List α → List α
  | [] => []
  | a :: l => if key a ∈ l.map key then lasts l else a :: lasts l

/-- The elements that are not the last of their key. -/
def replaced : List α → List α
  | [] => []
  | a :: l => if key a ∈ l.map key then a :: replaced l else replaced l

theorem perm_lasts (l : List α) : l.Perm (replaced key l ++ lasts key l) := by
  induction l with
  | nil => exact List.Perm.refl _
  | cons a l ih =>
    rw [replaced, lasts]
    split
    · exact ih.cons a
    · exact (ih.cons a).trans List.perm_middle.symm

theorem mem_map_lasts (l : List α) (k : κ) : k ∈ (lasts key l).map key ↔ k ∈ l.map key := by
  induction l with
  | nil => exact Iff.rfl
  | cons a l ih =>
    rw [lasts]
    split
    · rename_i hlater
      rw [ih, List.map_cons, List.mem_cons]
      constructor
      · exact Or.inr
      · intro h
        rcases h with rfl | h
        · exact hlater
        · exact h
    · rw [List.map_cons, List.map_cons, List.mem_cons, List.mem_cons, ih]

theorem lasts_nodup (l : List α) : ((lasts key l).map key).Nodup := by
  induction l with
  | nil => exact List.nodup_nil
  | cons a l ih =>
    rw [lasts]
    split
    · exact ih
    · rename_i hlast
      rw [List.map_cons, List.nodup_cons, mem_map_lasts]
      exact ⟨hlast, ih⟩

theorem lasts_sublist (l : List α) : (lasts key l).Sublist l := by
  induction l with
  | nil => exact List.Sublist.refl _
  | cons a l ih =>
    rw [lasts]
    split
    · exact ih.cons a
    · exact ih.cons_cons a

/-- What follows a list replaces the keys it has. -/
theorem lasts_append (l l' : List α) :
    lasts key (l ++ l') = ((lasts key l).filter fun a => decide (key a ∉ l'.map key)) ++ lasts key l' := by
  induction l with
  | nil => rfl
  | cons a l ih =>
    rw [List.cons_append, lasts, lasts, List.map_append]
    by_cases hl : key a ∈ l.map key
    · rw [if_pos (List.mem_append_left _ hl), if_pos hl, ih]
    · rw [if_neg hl]
      by_cases hl' : key a ∈ l'.map key
      · rw [if_pos (List.mem_append_right _ hl'), List.filter_cons_of_neg (by simpa using hl'), ih]
      · have hboth : key a ∉ l.map key ++ l'.map key := by
          rw [List.mem_append, not_or]
          exact ⟨hl, hl'⟩
        rw [if_neg hboth, List.filter_cons_of_pos (by simpa using hl'), ih, List.cons_append]

/-- The elements of the key of a last element end with it. -/
theorem getLast?_of_mem_lasts (l : List α) (a : α) (h : a ∈ lasts key l) :
    (l.filter fun b => decide (key b = key a)).getLast? = some a := by
  induction l with
  | nil => cases h
  | cons b l ih =>
    rw [lasts] at h
    have hnone : key b ∉ l.map key → (l.filter fun c => decide (key c = key b)) = [] := by
      intro hb
      rw [List.filter_eq_nil_iff]
      intro c hc hkey
      exact hb (List.mem_map.mpr ⟨c, hc, by simpa using hkey⟩)
    split at h
    · have htail := ih h
      by_cases hb : key b = key a
      · rw [List.filter_cons_of_pos (by simpa using hb), List.getLast?_cons, htail]
        rfl
      · rw [List.filter_cons_of_neg (by simpa using hb), htail]
    · rename_i hb
      rcases List.mem_cons.mp h with rfl | h
      · rw [List.filter_cons_of_pos (by simp), hnone hb]
        rfl
      · have hne : key b ≠ key a := by
          intro hkey
          rw [hkey, ← mem_map_lasts] at hb
          exact hb (List.mem_map_of_mem h)
        rw [List.filter_cons_of_neg (by simpa using hne), ih h]

/-- Assigning a key moves nothing else. -/
theorem set_perm (d : KeyedDict key) (a : α) :
    (d.set a).items.Perm ((d.items.filter fun b => decide (key b ≠ key a)) ++ [a]) := by
  have hpop := congrArg KeyedDict.items (KeyedDict.pop_set_self d a)
  rw [KeyedDict.pop_items, KeyedDict.pop_items] at hpop
  have hone : ((d.set a).items.filter fun b => !decide (key b ≠ key a)).Perm [a] := by
    have hnodup := List.Nodup.of_map key (d.set a).nodup
    rw [List.perm_ext_iff_of_nodup (hnodup.filter _) (List.nodup_singleton a)]
    intro b
    obtain ⟨hmem, _⟩ := (KeyedDict.get?_eq_some_iff (d.set a) (key a) a).mp (KeyedDict.get?_set_self d a)
    simp only [List.mem_filter, List.mem_singleton, Bool.not_eq_true', decide_eq_false_iff_not, not_not]
    constructor
    · intro h
      exact List.inj_on_of_nodup_map (d.set a).nodup h.1 hmem h.2
    · intro h
      rw [h]
      exact ⟨hmem, rfl⟩
  rw [← hpop]
  refine List.Perm.trans ?_ (hone.append_left _)
  exact (List.filter_append_perm _ _).symm

/-- A dictionary filled in the order of a list ends with the last element of each key. -/
theorem ofList_perm (l : List α) : (KeyedDict.ofList l : KeyedDict key).items.Perm (lasts key l) := by
  induction l using List.reverseRecOn with
  | nil => exact List.Perm.refl _
  | append_singleton l a ih =>
    have hset : (KeyedDict.ofList (l ++ [a]) : KeyedDict key) =
        (KeyedDict.ofList l : KeyedDict key).set a := by
      simp [KeyedDict.ofList]
    have hsingle : lasts key [a] = [a] := rfl
    rw [hset, lasts_append, hsingle]
    have hothers : ∀ b : α, decide (key b ∉ [a].map key) = decide (key b ≠ key a) := by
      intro b
      simp
    simp only [hothers]
    exact (set_perm key _ a).trans ((ih.filter _).append_right [a])

end LastOfKey
