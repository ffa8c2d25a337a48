import Mathlib.Tactic

/-!
# Numbers, arrays and maps of a script

The parts of the language a browser script computes with. The numbers are a type
with arithmetic and an order and no laws; exact rationals are one. An element read
outside of an array counts as not a number.
-/

namespace Script

/-- What the numbers offer beside arithmetic and order. -/
class ScriptNumber (ν : Type) where
  ofRat : ℚ → ν
  nan : ν
  isFinite : ν → Bool
  abs : ν → ν
  pow : ν → ℕ → ν

export ScriptNumber (ofRat nan)

/-- Exact arithmetic. -/
instance : ScriptNumber ℚ where
  ofRat q := q
  nan := 0
  isFinite _ := true
  abs q := |q|
  pow q n := q ^ n

@[simp] theorem ofRat_rat (q : ℚ) : (ofRat q : ℚ) = q := rfl

@[simp] theorem abs_rat (q : ℚ) : ScriptNumber.abs q = |q| := rfl

@[simp] theorem pow_rat (q : ℚ) (n : ℕ) : ScriptNumber.pow q n = q ^ n := rfl

variable {α ν : Type}

/-- `x || d` for a number that may be missing. -/
def truthyOr [Zero α] [DecidableEq α] (x : Option α) (d : α) : α :=
  match x with
  | none => d
  | some a => if a = 0 then d else a

/-- `s || d` for a text that may be missing. -/
def textOr (s : Option String) (d : String) : String :=
  match s with
  | none => d
  | some t => if t = "" then d else t

theorem truthyOr_some [Zero α] [DecidableEq α] (a d : α) (h : a ≠ 0) : truthyOr (some a) d = a :=
  if_neg h

/-- A second default of the same value changes nothing. -/
theorem truthyOr_twice [Zero α] [DecidableEq α] (x : Option α) (d : α) (hd : d ≠ 0) :
    truthyOr (some (truthyOr x d)) d = truthyOr x d := by
  refine truthyOr_some _ d ?_
  unfold truthyOr
  split
  · exact hd
  · split
    · exact hd
    · assumption

/-! ### Reading arrays -/

/-- `xs[i]` as a number. -/
def read [ScriptNumber ν] (xs : List ν) (i : ℤ) : ν :=
  if 0 ≤ i then xs.getD i.toNat nan else nan

/-- Where `slice` puts an index; a negative one counts from the end. -/
def clip (n : ℕ) (i : ℤ) : ℕ := if i < 0 then (n + i).toNat else i.toNat

/-- `xs.slice(s, e)` -/
def slice (xs : List α) (s e : ℤ) : List α := (xs.take (clip xs.length e)).drop (clip xs.length s)

/-- The elements a loop `for (k = s; k < e; k++)` finds at `xs[k]`. -/
def between (xs : List α) (s e : ℤ) : List α := (xs.take e.toNat).drop s.toNat

/-- `new Map(entries).get(key)`: the last entry of a key wins. -/
def mapGet (entries : List (ℤ × α)) (key : ℤ) : Option α := entries.reverse.lookup key

/-! ### Extremes -/

section Extremes

variable [LT ν] [DecidableLT ν]

/-- `x > m` for an `m` that may be minus infinity. -/
def exceeds (x : ν) : Option ν → Bool
  | none => true
  | some m => decide (m < x)

/-- `x < m` for an `m` that may be infinity. -/
def undercuts (x : ν) : Option ν → Bool
  | none => true
  | some m => decide (x < m)

/-- `for x of xs: if (x > m) m = x` from minus infinity. -/
def largest (xs : List ν) : Option ν :=
  xs.foldl (fun m x => if exceeds x m then some x else m) none

/-- `for x of xs: if (x < m) m = x` from infinity. -/
def smallest (xs : List ν) : Option ν :=
  xs.foldl (fun m x => if undercuts x m then some x else m) none

end Extremes

/-- In a linear order the loops compute the maximum and the minimum. -/
theorem largest_eq_max? [LinearOrder ν] (xs : List ν) : largest xs = xs.max? := by
  have hfrom : ∀ (xs : List ν) (m : ν),
      xs.foldl (fun m x => if exceeds x m then some x else m) (some m) = some (xs.foldl max m) := by
    intro xs
    induction xs with
    | nil => exact fun _ => rfl
    | cons x xs ih =>
      intro m
      rw [List.foldl_cons, List.foldl_cons]
      by_cases h : m < x
      · have hx : exceeds x (some m) = true := decide_eq_true h
        rw [if_pos hx, ih, max_eq_right h.le]
      · rw [if_neg (by simpa [exceeds] using h), ih, max_eq_left (not_lt.mp h)]
  cases xs with
  | nil => rfl
  | cons x xs =>
    rw [List.max?_cons', ← hfrom xs x]
    rfl

theorem smallest_eq_min? [LinearOrder ν] (xs : List ν) : smallest xs = xs.min? := by
  have hfrom : ∀ (xs : List ν) (m : ν),
      xs.foldl (fun m x => if undercuts x m then some x else m) (some m) = some (xs.foldl min m) := by
    intro xs
    induction xs with
    | nil => exact fun _ => rfl
    | cons x xs ih =>
      intro m
      rw [List.foldl_cons, List.foldl_cons]
      by_cases h : x < m
      · have hx : undercuts x (some m) = true := decide_eq_true h
        rw [if_pos hx, ih, min_eq_right h.le]
      · rw [if_neg (by simpa [undercuts] using h), ih, min_eq_left (not_lt.mp h)]
  cases xs with
  | nil => rfl
  | cons x xs =>
    rw [List.min?_cons', ← hfrom xs x]
    rfl

/-! ### Arrays with the same first elements -/

/-- The elements below an index are the same. -/
def AgreeBelow (m : ℕ) (xs ys : List α) : Prop := xs.take m = ys.take m

theorem AgreeBelow.mono {m k : ℕ} {xs ys : List α} (h : AgreeBelow m xs ys) (hk : k ≤ m) :
    AgreeBelow k xs ys := by
  have hxs : xs.take k = (xs.take m).take k := by rw [List.take_take, min_eq_left hk]
  have hys : ys.take k = (ys.take m).take k := by rw [List.take_take, min_eq_left hk]
  rw [AgreeBelow, hxs, hys, h]

theorem AgreeBelow.map {β : Type} {m : ℕ} {xs ys : List α} (h : AgreeBelow m xs ys) (f : α → β) :
    AgreeBelow m (xs.map f) (ys.map f) := by
  rw [AgreeBelow, ← List.map_take, ← List.map_take, h]

theorem AgreeBelow.getElem? {m : ℕ} {xs ys : List α} (h : AgreeBelow m xs ys) (i : ℕ)
    (hi : i < m) : xs[i]? = ys[i]? := by
  have hxs : (xs.take m)[i]? = xs[i]? := List.getElem?_take_of_lt hi
  have hys : (ys.take m)[i]? = ys[i]? := List.getElem?_take_of_lt hi
  rw [← hxs, ← hys, h]

theorem AgreeBelow.lt_length {m : ℕ} {xs ys : List α} (h : AgreeBelow m xs ys) (i : ℕ)
    (hi : i < m) : i < xs.length ↔ i < ys.length := by
  rw [← not_iff_not, not_lt, not_lt, ← List.getElem?_eq_none_iff, ← List.getElem?_eq_none_iff,
    h.getElem? i hi]

theorem AgreeBelow.read [ScriptNumber ν] {m : ℕ} {xs ys : List ν} (h : AgreeBelow m xs ys) (i : ℤ)
    (hi : i < m) : read xs i = read ys i := by
  unfold Script.read
  split
  · rename_i hnonneg
    have hget := h.getElem? i.toNat (by omega)
    rw [List.getD_eq_getElem?_getD, List.getD_eq_getElem?_getD, hget]
  · rfl

theorem AgreeBelow.between {m : ℕ} {xs ys : List α} (h : AgreeBelow m xs ys) (s e : ℤ)
    (he : e ≤ m) : between xs s e = between ys s e := by
  have htake := h.mono (show e.toNat ≤ m by omega)
  rw [Script.between, Script.between, htake]

/-- A slice that does not count from the end reads between its indices. -/
theorem slice_eq_between (xs : List α) (s e : ℤ) (hs : 0 ≤ s) (he : 0 ≤ e) :
    slice xs s e = between xs s e := by
  have hs' : clip xs.length s = s.toNat := if_neg (not_lt.mpr hs)
  have he' : clip xs.length e = e.toNat := if_neg (not_lt.mpr he)
  rw [slice, between, hs', he']

/-! ### Maps in which a key occurs once -/

/-- The only element with a property is the one that is found. -/
theorem find?_unique (l : List α) (p : α → Bool) (a : α) (ha : a ∈ l) (hp : p a = true)
    (honly : ∀ b ∈ l, p b = true → b = a) : l.find? p = some a := by
  obtain ⟨b, hb⟩ := Option.isSome_iff_exists.mp (List.find?_isSome.mpr ⟨a, ha, hp⟩)
  rw [hb, honly b (List.mem_of_find?_eq_some hb) (List.find?_some hb)]

theorem lookup_eq_find? (l : List (ℤ × α)) (key : ℤ) :
    l.lookup key = (l.find? fun e => decide (e.1 = key)).map Prod.snd := by
  induction l with
  | nil => rfl
  | cons e l ih =>
    by_cases h : e.1 = key
    · rw [List.find?_cons_of_pos (by simpa using h), ← h, List.lookup_cons_self]
      rfl
    · rw [List.find?_cons_of_neg (by simpa using h), ← ih, List.lookup_cons, beq_false_of_ne (Ne.symm h)]

theorem mapGet_none (entries : List (ℤ × α)) (key : ℤ) (h : ∀ e ∈ entries, e.1 ≠ key) :
    mapGet entries key = none := by
  rw [mapGet, List.lookup_eq_none_iff]
  intro e he
  have hne := h e (List.mem_reverse.mp he)
  simpa using hne.symm

/-- The entry of a key that occurs once. -/
theorem mapGet_some (entries : List (ℤ × α)) (key : ℤ) (a : α) (hmem : (key, a) ∈ entries)
    (honly : ∀ e ∈ entries, e.1 = key → e = (key, a)) : mapGet entries key = some a := by
  rw [mapGet, lookup_eq_find?, find?_unique entries.reverse _ (key, a) (List.mem_reverse.mpr hmem)
    (by simp) fun e he hkey => honly e (List.mem_reverse.mp he) (by simpa using hkey)]
  rfl

end Script
