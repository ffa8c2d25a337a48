import Mathlib.Tactic
import Reverto.Lib.KeyedDict

/-!
# Caches whose entries expire

A dictionary of fetched values with the instants they were fetched at. `serve` returns a
value younger than `ttl`; where it returns none the caller fetches and stores. The cache
is described by the list of all fetches, oldest first.
-/

/-- A value fetched for a key. -/
structure CacheEntry (κ ν : Type) where
  key : κ
  value : ν
  fetchedAt : ℤ
  deriving DecidableEq, Repr

namespace TtlCache

variable {κ ν : Type}

/-- Fetches of one key are `ttl` apart. -/
def Spaced (ttl : ℤ) (l : List (CacheEntry κ ν)) : Prop :=
  l.Pairwise fun a b => a.key = b.key → ttl ≤ b.fetchedAt - a.fetchedAt

theorem spaced_nil (ttl : ℤ) : Spaced ttl ([] : List (CacheEntry κ ν)) := List.Pairwise.nil

theorem spaced_snoc (ttl : ℤ) (l : List (CacheEntry κ ν)) (e : CacheEntry κ ν) (h : Spaced ttl l)
    (hold : ∀ a ∈ l, a.key = e.key → ttl ≤ e.fetchedAt - a.fetchedAt) : Spaced ttl (l ++ [e]) := by
  refine List.pairwise_append.mpr ⟨h, List.pairwise_singleton _ _, fun a ha b hb hk => ?_⟩
  rw [List.mem_singleton] at hb
  subst hb
  exact hold a ha hk

variable [DecidableEq κ]

abbrev Cache (κ ν : Type) := KeyedDict (CacheEntry.key : CacheEntry κ ν → κ)

/-- The value under a key, if its entry has not expired. -/
def serve (ttl : ℤ) (c : Cache κ ν) (k : κ) (now : ℤ) : Option ν :=
  match c.get? k with
  | none => none
  | some e => if ttl ≤ now - e.fetchedAt then none else some e.value

/-- The last fetch of a key. -/
def lastOf (l : List (CacheEntry κ ν)) (k : κ) : Option (CacheEntry κ ν) :=
  (l.filter fun e => e.key = k).getLast?

/-- The cache holds the last fetch of every key. -/
def Written (l : List (CacheEntry κ ν)) (c : Cache κ ν) : Prop := ∀ k, c.get? k = lastOf l k

/-! ### The last fetch -/

theorem lastOf_snoc_self (l : List (CacheEntry κ ν)) (e : CacheEntry κ ν) :
    lastOf (l ++ [e]) e.key = some e := by
  rw [lastOf, List.filter_append]
  simp

theorem lastOf_snoc_of_ne (l : List (CacheEntry κ ν)) (e : CacheEntry κ ν) (k : κ) (h : k ≠ e.key) :
    lastOf (l ++ [e]) k = lastOf l k := by
  have hnone : [e].filter (fun e => decide (e.key = k)) = [] := by
    simpa using fun hk => h hk.symm
  rw [lastOf, List.filter_append, hnone, List.append_nil]
  rfl

theorem lastOf_mem (l : List (CacheEntry κ ν)) (k : κ) (e : CacheEntry κ ν) (h : lastOf l k = some e) :
    e ∈ l ∧ e.key = k := by
  have hmem := List.mem_of_getLast? h
  obtain ⟨hl, hk⟩ := List.mem_filter.mp hmem
  exact ⟨hl, by simpa using hk⟩

/-- Where the instants of the fetches never go back, no fetch of a key is later than its last. -/
theorem le_lastOf (l : List (CacheEntry κ ν)) (k : κ) (e : CacheEntry κ ν)
    (hl : l.Pairwise fun a b => a.fetchedAt ≤ b.fetchedAt) (h : lastOf l k = some e) :
    ∀ a ∈ l, a.key = k → a.fetchedAt ≤ e.fetchedAt := by
  intro a ha hk
  have hfiltered := hl.filter fun e => decide (e.key = k)
  have hmem : a ∈ l.filter fun e => decide (e.key = k) := List.mem_filter.mpr ⟨ha, by simpa using hk⟩
  rw [lastOf] at h
  obtain ⟨init, hinit⟩ := List.getLast?_eq_some_iff.mp h
  rw [hinit] at hfiltered hmem
  rcases List.mem_append.mp hmem with hearlier | hlast
  · exact (List.pairwise_append.mp hfiltered).2.2 a hearlier e (List.mem_singleton_self e)
  · rw [List.mem_singleton.mp hlast]

theorem lastOf_eq_none (l : List (CacheEntry κ ν)) (k : κ) (h : lastOf l k = none) :
    ∀ e ∈ l, e.key ≠ k := by
  intro e he hk
  have hempty := List.getLast?_eq_none_iff.mp h
  have hmem : e ∈ l.filter fun e => decide (e.key = k) := List.mem_filter.mpr ⟨he, by simpa using hk⟩
  rw [hempty] at hmem
  cases hmem

/-! ### Storing and serving -/

theorem written_empty : Written ([] : List (CacheEntry κ ν)) KeyedDict.empty := fun _ => rfl

theorem written_set (l : List (CacheEntry κ ν)) (c : Cache κ ν) (e : CacheEntry κ ν)
    (h : Written l c) : Written (l ++ [e]) (c.set e) := by
  intro k
  by_cases hk : k = e.key
  · rw [hk, lastOf_snoc_self]
    exact KeyedDict.get?_set_self c e
  · rw [lastOf_snoc_of_ne l e k hk, KeyedDict.get?_set_of_ne c e k hk]
    exact h k

/-- What is served was fetched last, less than `ttl` before. -/
theorem serve_some (ttl : ℤ) (l : List (CacheEntry κ ν)) (c : Cache κ ν) (k : κ) (now : ℤ) (v : ν)
    (h : Written l c) (hserve : serve ttl c k now = some v) :
    ∃ e, lastOf l k = some e ∧ e.value = v ∧ now - e.fetchedAt < ttl := by
  rw [serve, h k] at hserve
  cases hlast : lastOf l k with
  | none =>
    rw [hlast] at hserve
    cases hserve
  | some e =>
    rw [hlast] at hserve
    obtain ⟨hfresh, hvalue⟩ := Option.ite_none_left_eq_some.mp hserve
    exact ⟨e, rfl, Option.some.inj hvalue, not_le.mp hfresh⟩

/-- Where nothing is served, every fetch of the key is `ttl` old. -/
theorem serve_none (ttl : ℤ) (l : List (CacheEntry κ ν)) (c : Cache κ ν) (k : κ) (now : ℤ)
    (h : Written l c) (hl : l.Pairwise fun a b => a.fetchedAt ≤ b.fetchedAt)
    (hserve : serve ttl c k now = none) : ∀ e ∈ l, e.key = k → ttl ≤ now - e.fetchedAt := by
  intro a ha hk
  rw [serve, h k] at hserve
  cases hlast : lastOf l k with
  | none => exact absurd hk (lastOf_eq_none l k hlast a ha)
  | some e =>
    rw [hlast] at hserve
    have hle := le_lastOf l k e hl hlast a ha hk
    have hold : ttl ≤ now - e.fetchedAt := by
      by_contra hfresh
      have hserved := hserve
      simp only [hfresh, if_false] at hserved
      cases hserved
    omega

end TtlCache
