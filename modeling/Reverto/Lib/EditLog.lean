import Mathlib.Tactic
import Reverto.Lib.KeyedDict

/-!
# Tables that are a record of their changes

Rows are inserted under a new key, edited and deleted. The row under a key is then a function of
the changes alone: the row as it was inserted, and the edits since. A field that every edit may
overwrite is what the last of them wrote; a field that is written once is what the first wrote.
-/

namespace EditLog

variable {κ ρ ε α : Type} [DecidableEq κ] {key : ρ → κ} (edit : ε → ρ → ρ)
  (hedit : ∀ e r, key (edit e r) = key r)

/-- One change of the table. -/
inductive Change (κ ρ ε : Type) where
  | insert (r : ρ)
  | edit (k : κ) (e : ε)
  | delete (k : κ)

/-- The table after a change; an insertion under a present key is ignored. -/
def apply (d : KeyedDict key) : Change κ ρ ε → KeyedDict key
  | .insert r => if (d.get? (key r)).isSome then d else d.set r
  | .edit k e => d.modify k (edit e) (hedit e)
  | .delete k => d.pop k

/-- The table after the changes. -/
def table (d : KeyedDict key) (l : List (Change κ ρ ε)) : KeyedDict key := l.foldl (apply edit hedit) d

/-- What a change adds to the story of a key. -/
def tell (key : ρ → κ) (k : κ) (s : Option (ρ × List ε)) : Change κ ρ ε → Option (ρ × List ε)
  | .insert r => if key r = k then some (s.getD (r, [])) else s
  | .edit k' e => if k' = k then s.map fun p => (p.1, p.2 ++ [e]) else s
  | .delete k' => if k' = k then none else s

/-- The row under a key as it was inserted, and the edits since. -/
def story (key : ρ → κ) (k : κ) (l : List (Change κ ρ ε)) : Option (ρ × List ε) := l.foldl (tell key k) none

/-- The row after its edits. -/
def edited (p : ρ × List ε) : ρ := p.2.foldl (fun r e => edit e r) p.1

theorem edited_snoc (p : ρ × List ε) (e : ε) : edited edit (p.1, p.2 ++ [e]) = edit e (edited edit p) := by
  rw [edited, List.foldl_append]
  rfl

theorem get?_apply (d : KeyedDict key) (c : Change κ ρ ε) (k : κ) (s : Option (ρ × List ε))
    (h : d.get? k = s.map (edited edit)) :
    (apply edit hedit d c).get? k = (tell key k s c).map (edited edit) := by
  cases c with
  | insert r =>
    rw [apply, tell]
    by_cases hk : key r = k
    · subst hk
      rw [if_pos rfl]
      cases s with
      | none =>
        have hnew : (d.get? (key r)).isSome = false := by rw [h]; rfl
        rw [hnew, if_neg Bool.false_ne_true, KeyedDict.get?_set_self]
        rfl
      | some p =>
        have hold : (d.get? (key r)).isSome = true := by rw [h]; rfl
        rw [if_pos hold]
        exact h
    · rw [if_neg hk, ← h]
      split
      · rfl
      · exact KeyedDict.get?_set_of_ne d r k (Ne.symm hk)
  | edit k' e =>
    rw [apply, tell]
    by_cases hk : k' = k
    · subst hk
      rw [if_pos rfl, KeyedDict.get?_modify_self, h, Option.map_map, Option.map_map]
      cases s with
      | none => rfl
      | some p => exact congrArg some (edited_snoc edit p e).symm
    · rw [if_neg hk, ← h]
      exact KeyedDict.get?_modify_of_ne d k' k (edit e) (hedit e) (Ne.symm hk)
  | delete k' =>
    rw [apply, tell]
    by_cases hk : k' = k
    · subst hk
      rw [if_pos rfl]
      exact KeyedDict.get?_pop_self d k'
    · rw [if_neg hk, ← h]
      exact KeyedDict.get?_pop_of_ne d k' k (Ne.symm hk)

/-- The row under a key is what its story tells. -/
theorem get?_table (l : List (Change κ ρ ε)) (k : κ) :
    (table edit hedit KeyedDict.empty l).get? k = (story key k l).map (edited edit) := by
  have hrun : ∀ (l : List (Change κ ρ ε)) (d : KeyedDict key) (s : Option (ρ × List ε)),
      d.get? k = s.map (edited edit) →
      (table edit hedit d l).get? k = (l.foldl (tell key k) s).map (edited edit) := by
    intro l
    induction l with
    | nil => exact fun _ _ h => h
    | cons c l ih => exact fun d s h => ih _ _ (get?_apply edit hedit d c k s h)
  exact hrun l KeyedDict.empty none rfl

/-! ### Fields -/

theorem edited_induction (I : ρ → List ε → Prop) (r : ρ) (h : I r [])
    (hstep : ∀ r' es e, I r' es → I (edit e r') (es ++ [e])) (es : List ε) : I (edited edit (r, es)) es := by
  induction es using List.reverseRecOn with
  | nil => exact h
  | append_singleton es e ih =>
    rw [edited_snoc edit (r, es) e]
    exact hstep _ es e ih

/-- A field that no edit touches. -/
theorem edited_kept (f : ρ → α) (hf : ∀ e r, f (edit e r) = f r) (p : ρ × List ε) :
    f (edited edit p) = f p.1 :=
  edited_induction edit (fun r _ => f r = f p.1) p.1 rfl (fun r' _ e h => (hf e r').trans h) p.2

/-- A field that an edit may overwrite is what the last such edit wrote. -/
theorem edited_last (f : ρ → α) (g : ε → Option α) (hf : ∀ e r, f (edit e r) = (g e).getD (f r))
    (p : ρ × List ε) : f (edited edit p) = ((p.2.filterMap g).getLast?).getD (f p.1) := by
  refine edited_induction edit (fun r es => f r = ((es.filterMap g).getLast?).getD (f p.1)) p.1 rfl
    (fun r es e h => ?_) p.2
  rw [hf, h, List.filterMap_append]
  cases hg : g e with
  | none => simp [hg]
  | some a => simp [hg]

/-- A field that is written once is what the first edit wrote. -/
theorem edited_first (f : ρ → Option α) (g : ε → Option α) (hf : ∀ e r, f (edit e r) = (f r).or (g e))
    (p : ρ × List ε) : f (edited edit p) = (f p.1).or (p.2.filterMap g).head? := by
  refine edited_induction edit (fun r es => f r = (f p.1).or (es.filterMap g).head?) p.1 ?_
    (fun r es e h => ?_) p.2
  · exact (Option.or_none).symm
  · rw [hf, h, List.filterMap_append, List.head?_append, ← Option.or_assoc]
    cases hg : g e with
    | none => simp [hg]
    | some a => simp [hg]

/-! ### Keys -/

theorem tell_key (k : κ) (s : Option (ρ × List ε)) (c : Change κ ρ ε) (h : ∀ p, s = some p → key p.1 = k)
    (p : ρ × List ε) (hp : tell key k s c = some p) : key p.1 = k := by
  cases c with
  | insert r =>
    rw [tell] at hp
    split at hp
    · rename_i hk
      cases s with
      | none => cases hp; exact hk
      | some q => cases hp; exact h q rfl
    · exact h p hp
  | edit k' e =>
    rw [tell] at hp
    split at hp
    · obtain ⟨q, hq, rfl⟩ := Option.map_eq_some_iff.mp hp
      exact h q hq
    · exact h p hp
  | delete k' =>
    rw [tell] at hp
    split at hp
    · cases hp
    · exact h p hp

end EditLog
