import Mathlib.Tactic

/-!
# Values renewed when their stamp is old

A value carries a stamp and is renewed at the times an interval after it; a
renewal leaves a stamp of its own. Which times renew is a function of the times
alone, and the run of the value is read off the last renewal.
-/

namespace RenewalTimes

variable {τ σ : Type} [Sub τ] [LT τ] [DecidableLT τ] (interval : τ) (stampOf : τ → τ)

/-- The times that renew a value with this stamp. -/
def timesFrom (stamp : τ) : List τ → List τ
  | [] => []
  | now :: times =>
    if now - stamp < interval then timesFrom stamp times
    else now :: timesFrom (stampOf now) times

/-- The stamp after a list of renewals. -/
def lastStamp (stamp : τ) (made : List τ) : τ := (made.getLast?.map stampOf).getD stamp

omit [Sub τ] [LT τ] [DecidableLT τ] in
theorem lastStamp_cons (stamp now : τ) (made : List τ) :
    lastStamp stampOf stamp (now :: made) = lastStamp stampOf (stampOf now) made := by
  rw [lastStamp, lastStamp, List.getLast?_cons]
  cases made.getLast? with
  | none => rfl
  | some renewal => rfl

omit [Sub τ] [LT τ] [DecidableLT τ] in
theorem lastStamp_concat (stamp now : τ) (made : List τ) :
    lastStamp stampOf stamp (made ++ [now]) = stampOf now := by
  rw [lastStamp, List.getLast?_concat]
  rfl

theorem timesFrom_concat (stamp : τ) (times : List τ) (now : τ) :
    timesFrom interval stampOf stamp (times ++ [now]) =
      if now - lastStamp stampOf stamp (timesFrom interval stampOf stamp times) < interval then
        timesFrom interval stampOf stamp times
      else timesFrom interval stampOf stamp times ++ [now] := by
  induction times generalizing stamp with
  | nil => rfl
  | cons first times ih =>
    rw [List.cons_append, timesFrom, timesFrom]
    by_cases hkept : first - stamp < interval
    · rw [if_pos hkept, if_pos hkept]
      exact ih stamp
    · rw [if_neg hkept, if_neg hkept, lastStamp_cons, ih]
      split
      · rfl
      · rfl

theorem mem_of_timesFrom (stamp : τ) (times : List τ) (renewal : τ)
    (h : renewal ∈ timesFrom interval stampOf stamp times) : renewal ∈ times := by
  induction times generalizing stamp with
  | nil => cases h
  | cons now times ih =>
    rw [timesFrom] at h
    split at h
    · exact List.mem_cons_of_mem now (ih _ h)
    · rcases List.mem_cons.mp h with rfl | h
      · exact List.mem_cons_self
      · exact List.mem_cons_of_mem now (ih _ h)

/-- A value stepped at each time: kept while its stamp is young, renewed otherwise. Its stamp
is that of the last renewal, and what a renewal establishes holds of it. -/
theorem run_invariant (step : σ → τ → σ) (stamp : σ → τ) (R : τ → τ → Prop)
    (P : Option τ → σ → Prop)
    (hkept : ∀ s now, now - stamp s < interval → step s now = s)
    (hrenewed : ∀ s now, ¬ now - stamp s < interval → stamp (step s now) = stampOf now)
    (hstep : ∀ s last now, (∀ renewal ∈ last, R renewal now) → ¬ now - stamp s < interval →
      P last s → P (some now) (step s now))
    (start : σ) (hstart : P none start) (times : List τ) (htimes : times.Pairwise R) :
    stamp (times.foldl step start) =
        lastStamp stampOf (stamp start) (timesFrom interval stampOf (stamp start) times) ∧
      P (timesFrom interval stampOf (stamp start) times).getLast? (times.foldl step start) := by
  induction times using List.reverseRecOn with
  | nil => exact ⟨rfl, hstart⟩
  | append_singleton times now ih =>
    obtain ⟨hearlier, -, hnow⟩ := List.pairwise_append.mp htimes
    obtain ⟨hstamp, hholds⟩ := ih hearlier
    rw [List.foldl_concat, timesFrom_concat, ← hstamp]
    by_cases hyoung : now - stamp (times.foldl step start) < interval
    · rw [if_pos hyoung, hkept _ now hyoung]
      exact ⟨hstamp, hholds⟩
    · rw [if_neg hyoung, lastStamp_concat, List.getLast?_concat]
      refine ⟨hrenewed _ now hyoung, hstep _ _ now (fun renewal hlast => ?_) hyoung hholds⟩
      have hmem := mem_of_timesFrom interval stampOf _ times renewal (List.mem_of_getLast? hlast)
      exact hnow renewal hmem now List.mem_cons_self

end RenewalTimes
