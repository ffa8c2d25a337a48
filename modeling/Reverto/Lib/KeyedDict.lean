import Mathlib.Tactic

/-!
# Insertion-ordered dictionaries of values that carry their key

The dictionary of a program that stores every value under a key computed from
it (`table[row.id] = row`). Assigning to a present key keeps its place,
assigning to a new key appends, and two values never share a key.
-/

/-- Values in insertion order, no two with one key. -/
structure KeyedDict {α κ : Type} (key : α → κ) where
  items : List α
  nodup : (items.map key).Nodup

namespace KeyedDict

variable {α κ : Type} {key : α → κ}

@[ext] theorem ext (d e : KeyedDict key) (h : d.items = e.items) : d = e := by
  cases d
  cases e
  cases h
  rfl

instance [DecidableEq α] : DecidableEq (KeyedDict key) := fun d e =>
  decidable_of_iff (d.items = e.items) ⟨ext d e, fun h => h ▸ rfl⟩

/-- `{}` -/
def empty : KeyedDict key := ⟨[], List.nodup_nil⟩

@[simp] theorem empty_items : (empty : KeyedDict key).items = [] := rfl

theorem map_key_map (f : α → α) (hf : ∀ a, key (f a) = key a) (l : List α) :
    (l.map f).map key = l.map key := by
  rw [List.map_map]
  exact List.map_congr_left fun a _ => hf a

/-- Update every value in place. -/
def mapValues (d : KeyedDict key) (f : α → α) (hf : ∀ a, key (f a) = key a) : KeyedDict key where
  items := d.items.map f
  nodup := by
    rw [map_key_map f hf]
    exact d.nodup

@[simp] theorem mapValues_items (d : KeyedDict key) (f : α → α) (hf : ∀ a, key (f a) = key a) :
    (d.mapValues f hf).items = d.items.map f := rfl

theorem nodup_append_new (l : List α) (a : α) (hn : (l.map key).Nodup)
    (h : key a ∉ l.map key) : ((l ++ [a]).map key).Nodup := by
  rw [List.map_append, List.nodup_append]
  refine ⟨hn, List.nodup_singleton _, ?_⟩
  intro x hx y hy hxy
  rw [List.map_singleton, List.mem_singleton] at hy
  exact h (hy ▸ hxy ▸ hx)

/-- The dictionary with one more value under a new key. -/
def append (d : KeyedDict key) (a : α) (h : key a ∉ d.items.map key) : KeyedDict key :=
  ⟨d.items ++ [a], nodup_append_new d.items a d.nodup h⟩

@[simp] theorem append_items (d : KeyedDict key) (a : α) (h : key a ∉ d.items.map key) :
    (d.append a h).items = d.items ++ [a] := rfl

/-- The values that satisfy a test, in order. -/
def filter (d : KeyedDict key) (p : α → Bool) : KeyedDict key where
  items := d.items.filter p
  nodup := d.nodup.sublist ((List.filter_sublist (l := d.items)).map key)

@[simp] theorem filter_items (d : KeyedDict key) (p : α → Bool) :
    (d.filter p).items = d.items.filter p := rfl

/-- Updates that commute may be made in either order. -/
theorem mapValues_comm (d : KeyedDict key) (f g : α → α) (hf : ∀ a, key (f a) = key a)
    (hg : ∀ a, key (g a) = key a) (hcomm : ∀ a, f (g a) = g (f a)) :
    (d.mapValues g hg).mapValues f hf = (d.mapValues f hf).mapValues g hg := by
  apply ext
  simp only [mapValues_items, List.map_map, Function.comp_def, hcomm]

variable [DecidableEq κ]

/-- `d.get(k)` -/
def get? (d : KeyedDict key) (k : κ) : Option α := d.items.find? fun a => key a = k

/-- `d.pop(k, None)`, the dictionary left. -/
def pop (d : KeyedDict key) (k : κ) : KeyedDict key where
  items := d.items.filter fun a => key a ≠ k
  nodup := d.nodup.sublist ((List.filter_sublist (l := d.items)).map key)

/-- Update the value under `k` in place, as through a shared reference. -/
def modify (d : KeyedDict key) (k : κ) (f : α → α) (hf : ∀ a, key (f a) = key a) :
    KeyedDict key :=
  d.mapValues (fun a => if key a = k then f a else a) fun a => by
    split
    · exact hf a
    · rfl

/-- `d[key(a)] = a` -/
def set (d : KeyedDict key) (a : α) : KeyedDict key :=
  if h : key a ∈ d.items.map key then
    ⟨d.items.map fun b => if key b = key a then a else b, by
      have hk : (d.items.map fun b => if key b = key a then a else b).map key
          = d.items.map key := by
        rw [List.map_map]
        refine List.map_congr_left fun b _ => ?_
        simp only [Function.comp]
        split
        · rename_i hb
          exact hb.symm
        · rfl
      rw [hk]
      exact d.nodup⟩
  else ⟨d.items ++ [a], nodup_append_new d.items a d.nodup h⟩

/-- Successive assignments from the empty dictionary. -/
def ofList (l : List α) : KeyedDict key := l.foldl set empty

/-! ### Looking up -/

theorem get?_mem (d : KeyedDict key) (k : κ) (a : α) (h : d.get? k = some a) :
    a ∈ d.items ∧ key a = k := by
  have hk := List.find?_some h
  exact ⟨List.mem_of_find?_eq_some h, by simpa using hk⟩

theorem get?_of_mem (d : KeyedDict key) (a : α) (h : a ∈ d.items) : d.get? (key a) = some a := by
  cases hg : d.get? (key a) with
  | none =>
    have hn := List.find?_eq_none.mp hg a h
    simp at hn
  | some b =>
    obtain ⟨hb, hkb⟩ := get?_mem d _ b hg
    rw [List.inj_on_of_nodup_map d.nodup hb h hkb]

theorem get?_eq_some_iff (d : KeyedDict key) (k : κ) (a : α) :
    d.get? k = some a ↔ a ∈ d.items ∧ key a = k := by
  constructor
  · exact get?_mem d k a
  · rintro ⟨h, rfl⟩
    exact get?_of_mem d a h

theorem get?_eq_none_iff (d : KeyedDict key) (k : κ) :
    d.get? k = none ↔ k ∉ d.items.map key := by
  simp [get?, List.find?_eq_none]

/-! ### Frames of the updates -/

@[simp] theorem pop_items (d : KeyedDict key) (k : κ) :
    (d.pop k).items = d.items.filter fun a => key a ≠ k := rfl

theorem get?_pop_self (d : KeyedDict key) (k : κ) : (d.pop k).get? k = none := by
  rw [get?_eq_none_iff, pop_items]
  intro h
  obtain ⟨a, ha, hk⟩ := List.mem_map.mp h
  simp only [List.mem_filter, decide_eq_true_eq] at ha
  exact ha.2 hk

theorem pop_of_none (d : KeyedDict key) (k : κ) (h : d.get? k = none) : d.pop k = d := by
  apply ext
  rw [pop_items, List.filter_eq_self]
  intro a ha
  have hk := (get?_eq_none_iff d k).mp h
  simp only [decide_eq_true_eq]
  intro hak
  exact hk (hak ▸ List.mem_map_of_mem ha)

theorem get?_pop_of_ne (d : KeyedDict key) (k k' : κ) (h : k' ≠ k) :
    (d.pop k).get? k' = d.get? k' := by
  ext a
  simp only [get?_eq_some_iff, pop_items, List.mem_filter, decide_eq_true_eq]
  constructor
  · rintro ⟨⟨hm, _⟩, hk⟩
    exact ⟨hm, hk⟩
  · rintro ⟨hm, hk⟩
    exact ⟨⟨hm, hk ▸ h⟩, hk⟩

/-- A filter by key keeps the values under the keys it accepts. -/
theorem get?_filter_of_pos (d : KeyedDict key) (p : κ → Bool) (k : κ) (h : p k = true) :
    (d.filter fun a => p (key a)).get? k = d.get? k := by
  ext a
  simp only [get?_eq_some_iff, filter_items, List.mem_filter]
  constructor
  · rintro ⟨⟨hm, _⟩, hk⟩
    exact ⟨hm, hk⟩
  · rintro ⟨hm, hk⟩
    refine ⟨⟨hm, ?_⟩, hk⟩
    rw [hk]
    exact h

theorem get?_mapValues (d : KeyedDict key) (f : α → α) (hf : ∀ a, key (f a) = key a) (k : κ) :
    (d.mapValues f hf).get? k = (d.get? k).map f := by
  simp only [get?, mapValues_items, List.find?_map, Function.comp_def, hf]

theorem get?_modify_self (d : KeyedDict key) (k : κ) (f : α → α)
    (hf : ∀ a, key (f a) = key a) : (d.modify k f hf).get? k = (d.get? k).map f := by
  rw [modify, get?_mapValues]
  cases h : d.get? k with
  | none => rfl
  | some a =>
    have hk := (get?_mem d k a h).2
    simp [hk]

theorem get?_modify_of_ne (d : KeyedDict key) (k k' : κ) (f : α → α)
    (hf : ∀ a, key (f a) = key a) (h : k' ≠ k) : (d.modify k f hf).get? k' = d.get? k' := by
  rw [modify, get?_mapValues]
  cases hg : d.get? k' with
  | none => rfl
  | some a =>
    have hk := (get?_mem d k' a hg).2
    have hne : key a ≠ k := by
      rw [hk]
      exact h
    simp [hne]

/-- An update that leaves the value under its key alone. -/
theorem modify_eq_self (d : KeyedDict key) (k : κ) (f : α → α) (hf : ∀ a, key (f a) = key a)
    (h : ∀ a, d.get? k = some a → f a = a) : d.modify k f hf = d := by
  apply ext
  simp only [modify, mapValues_items]
  refine (List.map_congr_left fun a ha => ?_).trans (List.map_id _)
  simp only [id]
  split
  · rename_i hk
    exact h a (hk ▸ get?_of_mem d a ha)
  · rfl

/-- An update that makes no value satisfy a test makes no more values satisfy it. -/
theorem countP_modify_le (d : KeyedDict key) (k : κ) (f : α → α) (hf : ∀ a, key (f a) = key a)
    (p : α → Bool) (h : ∀ a, d.get? k = some a → p (f a) = true → p a = true) :
    (d.modify k f hf).items.countP p ≤ d.items.countP p := by
  rw [modify, mapValues_items, List.countP_map]
  refine List.countP_mono_left fun a ha hp => ?_
  simp only [Function.comp] at hp
  split at hp
  · rename_i hk
    exact h a (hk ▸ get?_of_mem d a ha) hp
  · exact hp

/-- Popping forgets an update of the popped value. -/
theorem pop_modify_self (d : KeyedDict key) (k : κ) (f : α → α) (hf : ∀ a, key (f a) = key a) :
    (d.modify k f hf).pop k = d.pop k := by
  apply ext
  have hkey : ((fun a => decide (key a ≠ k)) ∘ fun a => if key a = k then f a else a)
      = fun a => decide (key a ≠ k) := by
    funext a
    simp only [Function.comp]
    split
    · rw [hf a]
    · rfl
  simp only [modify, pop_items, mapValues_items, List.filter_map]
  rw [hkey]
  have hid : ∀ a ∈ d.items.filter (fun a => decide (key a ≠ k)),
      (if key a = k then f a else a) = a := by
    intro a ha
    have hne : key a ≠ k := by simpa using (List.mem_filter.mp ha).2
    rw [if_neg hne]
  rw [List.map_congr_left hid, List.map_id']

theorem set_items_new (d : KeyedDict key) (a : α) (h : d.get? (key a) = none) :
    (d.set a).items = d.items ++ [a] := by
  have hn := (get?_eq_none_iff d (key a)).mp h
  simp only [set, dif_neg hn]

theorem set_items_present (d : KeyedDict key) (a : α) (h : key a ∈ d.items.map key) :
    (d.set a).items = d.items.map fun b => if key b = key a then a else b := by
  rw [set, dif_pos h]

theorem get?_set_self (d : KeyedDict key) (a : α) : (d.set a).get? (key a) = some a := by
  rw [get?_eq_some_iff]
  refine ⟨?_, rfl⟩
  by_cases h : key a ∈ d.items.map key
  · obtain ⟨b, hb, hk⟩ := List.mem_map.mp h
    rw [set_items_present d a h, List.mem_map]
    exact ⟨b, hb, by simp [hk]⟩
  · rw [set_items_new d a ((get?_eq_none_iff d _).mpr h)]
    exact List.mem_append_right _ (List.mem_singleton_self a)

theorem get?_set_of_ne (d : KeyedDict key) (a : α) (k : κ) (h : k ≠ key a) :
    (d.set a).get? k = d.get? k := by
  ext b
  simp only [get?_eq_some_iff]
  by_cases hp : key a ∈ d.items.map key
  · rw [set_items_present d a hp, List.mem_map]
    constructor
    · rintro ⟨⟨c, hc, hcb⟩, hk⟩
      split at hcb
      · exact absurd (hcb ▸ hk).symm h
      · exact ⟨hcb ▸ hc, hk⟩
    · rintro ⟨hm, hk⟩
      refine ⟨⟨b, hm, ?_⟩, hk⟩
      have hne : key b ≠ key a := by
        rw [hk]
        exact h
      simp [hne]
  · rw [set_items_new d a ((get?_eq_none_iff d _).mpr hp), List.mem_append, List.mem_singleton]
    constructor
    · rintro ⟨hm | rfl, hk⟩
      · exact ⟨hm, hk⟩
      · exact absurd hk.symm h
    · rintro ⟨hm, hk⟩
      exact ⟨Or.inl hm, hk⟩

theorem pop_set_self (d : KeyedDict key) (a : α) : (d.set a).pop (key a) = d.pop (key a) := by
  apply ext
  by_cases hp : key a ∈ d.items.map key
  · rw [pop_items, pop_items, set_items_present d a hp, List.filter_map]
    have hkey : ((fun b => decide (key b ≠ key a)) ∘ fun b => if key b = key a then a else b) =
        fun b => decide (key b ≠ key a) := by
      funext b
      by_cases hb : key b = key a
      · simp [hb]
      · simp [hb]
    rw [hkey]
    refine (List.map_congr_left fun b hb => ?_).trans (List.map_id _)
    have hne : key b ≠ key a := by simpa using (List.mem_filter.mp hb).2
    exact if_neg hne
  · rw [pop_items, pop_items, set_items_new d a ((get?_eq_none_iff d _).mpr hp), List.filter_append]
    simp

/-! ### Sums over the values -/

section Sums

variable {M : Type} [AddCommMonoid M] (g : α → M)

theorem sum_filter_ne (l : List α) (a : α) (hn : (l.map key).Nodup) (ha : a ∈ l) :
    ((l.filter fun b => key b ≠ key a).map g).sum + g a = (l.map g).sum := by
  induction l with
  | nil => cases ha
  | cons b l ih =>
    rw [List.map_cons, List.nodup_cons] at hn
    obtain ⟨hb, hl⟩ := hn
    rcases List.mem_cons.mp ha with rfl | hmem
    · have hrest : (l.filter fun b => key b ≠ key a) = l := by
        refine List.filter_eq_self.mpr fun c hc => ?_
        simp only [ne_eq, decide_not, Bool.not_eq_true', decide_eq_false_iff_not]
        intro hkey
        exact hb (hkey ▸ List.mem_map_of_mem hc)
      rw [List.filter_cons_of_neg (by simp), hrest, List.map_cons, List.sum_cons, add_comm]
    · have hne : key b ≠ key a := fun hkey => hb (hkey ▸ List.mem_map_of_mem hmem)
      rw [List.filter_cons_of_pos (by simpa using hne), List.map_cons, List.map_cons, List.sum_cons,
        List.sum_cons, add_assoc, ih hl hmem]

/-- Popping takes the value's part out of a sum. -/
theorem sum_pop (d : KeyedDict key) (k : κ) (a : α) (h : d.get? k = some a) :
    ((d.pop k).items.map g).sum + g a = (d.items.map g).sum := by
  obtain ⟨ha, rfl⟩ := get?_mem d k a h
  exact sum_filter_ne g d.items a d.nodup ha

/-- An update replaces the value's part of a sum. -/
theorem sum_modify (d : KeyedDict key) (k : κ) (f : α → α) (hf : ∀ a, key (f a) = key a) (a : α)
    (h : d.get? k = some a) :
    ((d.modify k f hf).items.map g).sum + g a = (d.items.map g).sum + g (f a) := by
  have hafter : (d.modify k f hf).get? k = some (f a) := by
    rw [get?_modify_self, h, Option.map_some]
  have hnew := sum_pop g (d.modify k f hf) k (f a) hafter
  have hold := sum_pop g d k a h
  rw [pop_modify_self] at hnew
  rw [← hnew, ← hold, add_right_comm]

end Sums

/-! ### Updates of every value -/

theorem mapValues_pop (d : KeyedDict key) (f : α → α) (hf : ∀ a, key (f a) = key a) (k : κ) :
    (d.pop k).mapValues f hf = (d.mapValues f hf).pop k := by
  apply ext
  simp only [mapValues_items, pop_items, List.filter_map, Function.comp_def, hf]

theorem mapValues_modify (d : KeyedDict key) (f g : α → α) (hf : ∀ a, key (f a) = key a)
    (hg : ∀ a, key (g a) = key a) (hcomm : ∀ a, f (g a) = g (f a)) (k : κ) :
    (d.modify k g hg).mapValues f hf = (d.mapValues f hf).modify k g hg := by
  refine mapValues_comm d f _ hf _ fun a => ?_
  by_cases hk : key a = k
  · rw [if_pos hk, if_pos ((hf a).trans hk), hcomm a]
  · rw [if_neg hk, if_neg fun h => hk ((hf a).symm.trans h)]

theorem mapValues_set (d : KeyedDict key) (f : α → α) (hf : ∀ a, key (f a) = key a) (a : α) :
    (d.set a).mapValues f hf = (d.mapValues f hf).set (f a) := by
  apply ext
  have hkeys : (d.mapValues f hf).items.map key = d.items.map key := map_key_map f hf d.items
  by_cases h : key a ∈ d.items.map key
  · have h' : key (f a) ∈ (d.mapValues f hf).items.map key := by
      rw [hkeys, hf]
      exact h
    rw [mapValues_items, set_items_present d a h, set_items_present _ (f a) h', mapValues_items,
      List.map_map, List.map_map]
    refine List.map_congr_left fun b _ => ?_
    simp only [Function.comp, hf]
    split
    · rfl
    · rfl
  · have h' : key (f a) ∉ (d.mapValues f hf).items.map key := by
      rw [hkeys, hf]
      exact h
    rw [mapValues_items, set_items_new d a ((get?_eq_none_iff d _).mpr h),
      set_items_new _ (f a) ((get?_eq_none_iff _ _).mpr h'), mapValues_items, List.map_append,
      List.map_singleton]

/-- Assigning values whose keys are all new and distinct lists them in order. -/
theorem ofList_items (l : List α) (h : (l.map key).Nodup) : (ofList l : KeyedDict key).items = l := by
  have key_fold : ∀ (l : List α) (d : KeyedDict key), ((d.items ++ l).map key).Nodup →
      (l.foldl set d).items = d.items ++ l := by
    intro l
    induction l with
    | nil => intro d _; simp
    | cons a l ih =>
      intro d hd
      have hnew : d.get? (key a) = none := by
        rw [get?_eq_none_iff]
        intro hm
        rw [List.map_append, List.nodup_append] at hd
        exact hd.2.2 _ hm _ (List.mem_cons_self ..) rfl
      have hi := set_items_new d a hnew
      rw [List.foldl_cons, ih (d.set a) (by rw [hi, List.append_assoc]; exact hd), hi]
      simp
  exact key_fold l empty (by simpa using h)

/-- Only the keys of the listed values are assigned. -/
theorem get?_ofList_eq_none_iff (l : List α) (k : κ) :
    (ofList l : KeyedDict key).get? k = none ↔ k ∉ l.map key := by
  have key_fold : ∀ (l : List α) (d : KeyedDict key),
      (l.foldl set d).get? k = none ↔ d.get? k = none ∧ k ∉ l.map key := by
    intro l
    induction l with
    | nil => intro d; simp
    | cons a l ih =>
      intro d
      rw [List.foldl_cons, ih (d.set a)]
      by_cases hk : k = key a
      · subst hk
        simp [get?_set_self]
      · simp [get?_set_of_ne d a k hk, hk]
  have hempty : (empty : KeyedDict key).get? k = none := rfl
  simp only [ofList, key_fold, hempty, true_and]

end KeyedDict
