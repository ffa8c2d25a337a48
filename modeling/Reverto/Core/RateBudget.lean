import Mathlib.Tactic
import Reverto.Lib.Program
import Reverto.Lib.TokenBucket

/-!
# The cost budget (core/rate_budget.py)

A token bucket for each key. The law of the bucket is about every sequence of calls
whose clock readings do not decrease, over exact numbers.
-/

namespace Reverto

/-- `CostBudget`: its parameters. -/
structure CostBudget where
  budget : ℚ
  refillRate : ℚ

/-- `_state`: the stamp and the remaining budget of the keys that were used. -/
abbrev BudgetState := String → Option (TokenBucket.Bucket ℚ)

/-- A call with its clock reading. -/
inductive BudgetCall where
  | consume (key : String) (cost : ℚ) (now : ℚ)
  | peek (key : String) (now : ℚ)

namespace BudgetCall

/-- The key of a call. -/
def key : BudgetCall → String
  | .consume key _ _ => key
  | .peek key _ => key

/-- The clock reading of a call. -/
def now : BudgetCall → ℚ
  | .consume _ _ now => now
  | .peek _ now => now

end BudgetCall

/-- The answer to a `consume`. -/
structure BudgetDecision where
  key : String
  cost : ℚ
  now : ℚ
  granted : Bool
  deriving DecidableEq

namespace CostBudget

open TokenBucket

variable (c : CostBudget)

/-- `consume` -/
def consume (key : String) (cost now : ℚ) (state : BudgetState) : Bool × BudgetState :=
  if cost ≤ 0 then (true, state)
  else
    let b := (state key).getD ⟨now, c.budget⟩
    let elapsed := max 0 (now - b.stamp)
    let remaining := min c.budget (b.remaining + elapsed * c.refillRate)
    if remaining < cost then (false, Function.update state key (some ⟨now, remaining⟩))
    else (true, Function.update state key (some ⟨now, remaining - cost⟩))

/-- `peek` -/
def peek (key : String) (now : ℚ) (state : BudgetState) : ℚ :=
  let b := (state key).getD ⟨now, c.budget⟩
  let elapsed := max 0 (now - b.stamp)
  min c.budget (b.remaining + elapsed * c.refillRate)

/-- A call and what it answers; a `peek` decides nothing. -/
def program : BudgetCall → Program Empty BudgetDecision BudgetState Unit
  | .consume key cost now => fun state =>
    ⟨.ok (), [⟨key, cost, now, (c.consume key cost now state).1⟩], (c.consume key cost now state).2⟩
  | .peek _ _ => pure ()

/-- The decisions of a sequence of calls on a new budget. -/
def decisions (calls : List BudgetCall) : List BudgetDecision :=
  (Program.runAll c.program calls fun _ => none).1

/-- The cost granted to a key from `t₀` to `t₁`. -/
def grantedCost (key : String) (t₀ t₁ : ℚ) (ds : List BudgetDecision) : ℚ :=
  (ds.map fun d =>
    if d.key = key ∧ d.granted = true ∧ t₀ ≤ d.now ∧ d.now ≤ t₁ then d.cost else 0).sum

/-- The law of the token bucket. -/
structure BucketLaw (calls : List BudgetCall) : Prop where
  /-- no interval grants a key more than the budget and its refill -/
  bounded : ∀ key t₀ t₁, t₀ ≤ t₁ →
    grantedCost key t₀ t₁ (c.decisions calls) ≤ c.budget + c.refillRate * (t₁ - t₀)
  /-- a key is granted what it is granted without the calls for others -/
  keyed : ∀ key, (c.decisions calls).filter (fun d => d.key = key) =
    c.decisions (calls.filter fun call => call.key = key)
  /-- a refused call may be left out -/
  refusal : ∀ before key cost now after rest, calls = before ++ .consume key cost now :: after →
    c.decisions calls = c.decisions before ++ ⟨key, cost, now, false⟩ :: rest →
    c.decisions (before ++ after) = c.decisions before ++ rest

/-! ### One call -/

theorem consume_free (key : String) (cost now : ℚ) (state : BudgetState) (h : cost ≤ 0) :
    c.consume key cost now state = (true, state) := by
  rw [consume, if_pos h]

/-- A positive cost is taken from the bucket of the key, which starts full. -/
theorem consume_take (key : String) (cost now : ℚ) (state : BudgetState) (h : ¬ cost ≤ 0) :
    c.consume key cost now state =
      ((take c.budget c.refillRate ((state key).getD ⟨now, c.budget⟩) now cost).1,
        Function.update state key
          (some (take c.budget c.refillRate ((state key).getD ⟨now, c.budget⟩) now cost).2)) := by
  rw [consume, if_neg h]
  unfold take level
  dsimp only
  split
  · rfl
  · rfl

theorem consume_other (key key' : String) (cost now : ℚ) (state : BudgetState) (h : key' ≠ key) :
    (c.consume key cost now state).2 key' = state key' := by
  by_cases hcost : cost ≤ 0
  · rw [consume_free c key cost now state hcost]
  · rw [consume_take c key cost now state hcost]
    exact Function.update_of_ne h _ _

theorem runAll_consume (key : String) (cost now : ℚ) (calls : List BudgetCall) (state : BudgetState) :
    Program.runAll c.program (.consume key cost now :: calls) state =
      (⟨key, cost, now, (c.consume key cost now state).1⟩ ::
          (Program.runAll c.program calls (c.consume key cost now state).2).1,
        (Program.runAll c.program calls (c.consume key cost now state).2).2) := rfl

theorem runAll_peek (key : String) (now : ℚ) (calls : List BudgetCall) (state : BudgetState) :
    Program.runAll c.program (.peek key now :: calls) state = Program.runAll c.program calls state := rfl

/-- No stamp lies after a time, and no bucket is overdrawn. -/
def KeptBy (now : ℚ) (state : BudgetState) : Prop :=
  ∀ key b, state key = some b → b.stamp ≤ now ∧ 0 ≤ b.remaining

theorem keptBy_none (now : ℚ) : KeptBy now fun _ => none := by
  intro key b h
  cases h

theorem keptBy_mono (now later : ℚ) (state : BudgetState) (h : KeptBy now state) (hle : now ≤ later) :
    KeptBy later state :=
  fun key b hb => ⟨(h key b hb).1.trans hle, (h key b hb).2⟩

/-- The clock readings do not decrease. -/
def Timed (calls : List BudgetCall) : Prop := calls.Pairwise fun a b => a.now ≤ b.now

section Refill

variable (hbudget : 0 ≤ c.budget) (hrate : 0 ≤ c.refillRate)
include hbudget hrate

theorem keptBy_consume (key : String) (cost now : ℚ) (state : BudgetState) (h : KeptBy now state) :
    KeptBy now (c.consume key cost now state).2 := by
  by_cases hcost : cost ≤ 0
  · rw [consume_free c key cost now state hcost]
    exact h
  · rw [consume_take c key cost now state hcost]
    intro key' b hb
    by_cases hkey : key' = key
    · subst hkey
      dsimp only at hb
      rw [Function.update_self] at hb
      cases hb
      refine ⟨le_of_eq (take_stamp _ _ _ _ _), take_remaining_nonneg _ _ hbudget hrate _ ?_ _ _⟩
      cases hs : state key' with
      | none => exact hbudget
      | some b => exact (h key' b hs).2
    · dsimp only at hb
      rw [Function.update_of_ne hkey] at hb
      exact h key' b hb

theorem keptBy_runAll (calls : List BudgetCall) (now : ℚ) (state : BudgetState) (h : KeptBy now state)
    (htimed : Timed calls) (hnow : ∀ call ∈ calls, now ≤ call.now) (later : ℚ) (hlater : now ≤ later)
    (hcalls : ∀ call ∈ calls, call.now ≤ later) :
    KeptBy later (Program.runAll c.program calls state).2 := by
  induction calls generalizing now state with
  | nil => exact keptBy_mono now later state h hlater
  | cons call calls ih =>
    obtain ⟨hhead, htail⟩ := List.pairwise_cons.mp htimed
    have hkept := keptBy_mono now call.now state h (hnow call (List.mem_cons_self ..))
    have hrest : ∀ call ∈ calls, call.now ≤ later := fun d hd => hcalls d (List.mem_cons_of_mem _ hd)
    cases call with
    | consume key cost at' =>
      rw [runAll_consume]
      exact ih at' _ (keptBy_consume c hbudget hrate key cost at' state hkept) htail hhead
        (hcalls _ (List.mem_cons_self ..)) hrest
    | peek key at' =>
      rw [runAll_peek]
      exact ih at' state hkept htail hhead (hcalls _ (List.mem_cons_self ..)) hrest

/-! ### The bound -/

omit hbudget hrate in
theorem grantedCost_cons (key : String) (t₀ t₁ : ℚ) (d : BudgetDecision) (ds : List BudgetDecision) :
    grantedCost key t₀ t₁ (d :: ds) =
      (if d.key = key ∧ d.granted = true ∧ t₀ ≤ d.now ∧ d.now ≤ t₁ then d.cost else 0) +
        grantedCost key t₀ t₁ ds := by
  rw [grantedCost, List.map_cons, List.sum_cons]
  rfl

omit hbudget hrate in
/-- After the interval nothing counts. -/
theorem grantedCost_late (key : String) (t₀ t₁ : ℚ) (calls : List BudgetCall)
    (h : ∀ call ∈ calls, t₁ < call.now) (state : BudgetState) :
    grantedCost key t₀ t₁ (Program.runAll c.program calls state).1 = 0 := by
  induction calls generalizing state with
  | nil => rfl
  | cons call calls ih =>
    have hrest := fun state => ih (fun d hd => h d (List.mem_cons_of_mem _ hd)) state
    cases call with
    | consume key' cost now =>
      have hlate : t₁ < now := h _ (List.mem_cons_self ..)
      rw [runAll_consume, grantedCost_cons, hrest,
        if_neg fun hin => absurd hin.2.2.2 (not_le.mpr hlate), add_zero]
    | peek key' now =>
      rw [runAll_peek]
      exact hrest state

/-- What is left of the interval's allowance for a key. -/
def allowanceOf (t₀ t₁ : ℚ) : Option (Bucket ℚ) → ℚ
  | none => c.budget + c.refillRate * (t₁ - t₀)
  | some b => allowance c.budget c.refillRate t₀ t₁ b

omit hbudget in
/-- What a call in the interval takes comes out of the key's allowance. -/
theorem allowanceOf_take (t₀ t₁ now cost : ℚ) (o : Option (Bucket ℚ))
    (h : ∀ b, o = some b → b.stamp ≤ now) :
    (if (take c.budget c.refillRate (o.getD ⟨now, c.budget⟩) now cost).1 = true ∧ t₀ ≤ now then cost
        else 0) +
        allowance c.budget c.refillRate t₀ t₁
          (take c.budget c.refillRate (o.getD ⟨now, c.budget⟩) now cost).2 ≤
      allowanceOf c t₀ t₁ o := by
  by_cases hbefore : now < t₀
  · rw [if_neg fun hin => absurd hin.2 (not_le.mpr hbefore), zero_add]
    cases o with
    | none =>
      rw [Option.getD_none, allowance_before t₀ t₁ now cost _ (le_refl _) hbefore, allowance, if_pos hbefore]
      exact le_refl _
    | some b =>
      rw [Option.getD_some, allowance_before t₀ t₁ now cost b (h b rfl) hbefore]
      exact le_refl _
  · have hin : t₀ ≤ now := not_lt.mp hbefore
    simp only [hin, and_true]
    cases o with
    | none =>
      refine (allowance_take hrate t₀ t₁ now cost _ (le_refl _) hin).trans ?_
      rw [Option.getD_none, allowance, if_neg hbefore]
      exact allowance_stamped hrate t₀ t₁ now _ hin (le_refl _)
    | some b => exact allowance_take hrate t₀ t₁ now cost b (h b rfl) hin

theorem grantedCost_le (key : String) (t₀ t₁ : ℚ) (ht : t₀ ≤ t₁) (calls : List BudgetCall)
    (htimed : Timed calls) (state : BudgetState) (hkept : ∀ call ∈ calls, KeptBy call.now state)
    (hbefore : KeptBy t₁ state) :
    grantedCost key t₀ t₁ (Program.runAll c.program calls state).1 ≤ allowanceOf c t₀ t₁ (state key) := by
  induction calls generalizing state with
  | nil =>
    show (0 : ℚ) ≤ _
    cases hs : state key with
    | none => exact add_nonneg hbudget (mul_nonneg hrate (sub_nonneg.mpr ht))
    | some b => exact allowance_nonneg hbudget hrate t₀ t₁ ht b (hbefore key b hs).2 (hbefore key b hs).1
  | cons call calls ih =>
    obtain ⟨hhead, htail⟩ := List.pairwise_cons.mp htimed
    have hkeptHere := hkept call (List.mem_cons_self ..)
    have hkeptRest : ∀ d ∈ calls, KeptBy d.now state := fun d hd => hkept d (List.mem_cons_of_mem _ hd)
    by_cases hlate : t₁ < call.now
    · rw [grantedCost_late c key t₀ t₁ _ ?_ state]
      · cases hs : state key with
        | none => exact add_nonneg hbudget (mul_nonneg hrate (sub_nonneg.mpr ht))
        | some b =>
          exact allowance_nonneg hbudget hrate t₀ t₁ ht b (hbefore key b hs).2 (hbefore key b hs).1
      · intro d hd
        rcases List.mem_cons.mp hd with rfl | hd
        · exact hlate
        · exact lt_of_lt_of_le hlate (hhead d hd)
    cases call with
    | peek key' now =>
      rw [runAll_peek]
      exact ih htail state hkeptRest hbefore
    | consume key' cost now =>
      have hnow : now ≤ t₁ := not_lt.mp hlate
      have hkeptNext := keptBy_consume c hbudget hrate key' cost now state hkeptHere
      have hrest := ih htail _ (fun d hd => keptBy_mono now d.now _ hkeptNext (hhead d hd))
        (keptBy_mono now t₁ _ hkeptNext hnow)
      rw [runAll_consume, grantedCost_cons]
      by_cases hkey : key' = key
      · subst hkey
        by_cases hcost : cost ≤ 0
        · rw [consume_free c key' cost now state hcost] at hrest ⊢
          have hfree : (if key' = key' ∧ true = true ∧ t₀ ≤ now ∧ now ≤ t₁ then cost else 0) ≤ 0 := by
            split
            · exact hcost
            · exact le_refl _
          exact (add_le_add hfree hrest).trans (le_of_eq (zero_add _))
        · rw [consume_take c key' cost now state hcost] at hrest ⊢
          dsimp only at hrest ⊢
          rw [Function.update_self] at hrest
          have hstep := allowanceOf_take c hrate t₀ t₁ now cost (state key')
            fun b hb => (hkeptHere key' b hb).1
          simp only [true_and, hnow, and_true]
          exact (add_le_add_right hrest _).trans hstep
      · rw [consume_other c key' key cost now state (Ne.symm hkey)] at hrest
        rw [if_neg fun hin => hkey hin.1, zero_add]
        exact hrest

/-! ### A refused call -/

omit hbudget hrate in
/-- From a time on the buckets of two states hold the same. -/
def Agree (t : ℚ) (state state' : BudgetState) : Prop :=
  ∀ key u, t ≤ u → level c.budget c.refillRate ((state key).getD ⟨u, c.budget⟩) u =
    level c.budget c.refillRate ((state' key).getD ⟨u, c.budget⟩) u

omit hbudget hrate in
theorem agree_consume (key : String) (cost now : ℚ) (state state' : BudgetState)
    (h : Agree c now state state') :
    (c.consume key cost now state).1 = (c.consume key cost now state').1 ∧
      Agree c now (c.consume key cost now state).2 (c.consume key cost now state').2 := by
  by_cases hcost : cost ≤ 0
  · rw [consume_free c key cost now state hcost, consume_free c key cost now state' hcost]
    exact ⟨rfl, h⟩
  · have htake := take_congr c.budget c.refillRate _ _ now cost (h key now (le_refl now))
    rw [consume_take c key cost now state hcost, consume_take c key cost now state' hcost, htake]
    refine ⟨rfl, fun key' u hu => ?_⟩
    by_cases hkey : key' = key
    · subst hkey
      simp only [Function.update_self]
    · simp only [Function.update_of_ne hkey]
      exact h key' u hu

omit hbudget hrate in
theorem agree_mono (t u : ℚ) (state state' : BudgetState) (h : Agree c t state state') (hle : t ≤ u) :
    Agree c u state state' := fun key v hv => h key v (hle.trans hv)

omit hbudget hrate in
theorem agree_decisions (calls : List BudgetCall) (htimed : Timed calls) (state state' : BudgetState)
    (h : ∀ call ∈ calls, Agree c call.now state state') :
    (Program.runAll c.program calls state).1 = (Program.runAll c.program calls state').1 := by
  induction calls generalizing state state' with
  | nil => rfl
  | cons call calls ih =>
    obtain ⟨hhead, htail⟩ := List.pairwise_cons.mp htimed
    cases call with
    | peek key now =>
      rw [runAll_peek, runAll_peek]
      exact ih htail state state' fun d hd => h d (List.mem_cons_of_mem _ hd)
    | consume key cost now =>
      obtain ⟨hsame, hnext⟩ := agree_consume c key cost now state state' (h _ (List.mem_cons_self ..))
      have hrest := ih htail _ _ fun d hd => agree_mono c now d.now _ _ hnext (hhead d hd)
      rw [runAll_consume, runAll_consume, hsame, hrest]

omit hbudget in
/-- A refused call moves a stamp and changes no later level. -/
theorem agree_refused (key : String) (cost now : ℚ) (state : BudgetState) (hkept : KeptBy now state)
    (h : (c.consume key cost now state).1 = false) :
    Agree c now state (c.consume key cost now state).2 := by
  by_cases hcost : cost ≤ 0
  · rw [consume_free c key cost now state hcost] at h
    cases h
  rw [consume_take c key cost now state hcost] at h ⊢
  intro key' u hu
  dsimp only at h ⊢
  by_cases hkey : key' = key
  · subst hkey
    rw [Function.update_self]
    unfold take at h ⊢
    split at h
    · rename_i hrefused
      rw [if_pos hrefused, Option.getD_some]
      cases hs : state key' with
      | none =>
        simp only [Option.getD_none]
        rw [level_full _ _ hrate, level_full _ _ hrate, level_full _ _ hrate]
      | some b =>
        simp only [Option.getD_some]
        exact (level_level _ _ hrate b now u (hkept key' b hs).1 hu).symm
    · cases h
  · rw [Function.update_of_ne hkey]

end Refill

/-! ### Calls for other keys -/

/-- The decisions for a key depend on its own bucket and its own calls. -/
theorem decisions_keyed (key : String) (calls : List BudgetCall) (state state' : BudgetState)
    (h : state key = state' key) :
    (Program.runAll c.program calls state).1.filter (fun d => d.key = key) =
      (Program.runAll c.program (calls.filter fun call => call.key = key) state').1 := by
  induction calls generalizing state state' with
  | nil => rfl
  | cons call calls ih =>
    cases call with
    | peek key' now =>
      rw [runAll_peek]
      by_cases hkey : key' = key
      · have hcall : (BudgetCall.peek key' now).key = key := hkey
        rw [List.filter_cons_of_pos (by rw [decide_eq_true hcall]), runAll_peek]
        exact ih state state' h
      · have hcall : ¬ (BudgetCall.peek key' now).key = key := hkey
        rw [List.filter_cons_of_neg (by rw [decide_eq_false hcall]; exact Bool.false_ne_true)]
        exact ih state state' h
    | consume key' cost now =>
      rw [runAll_consume]
      by_cases hkey : key' = key
      · subst hkey
        have hsame : (c.consume key' cost now state).1 = (c.consume key' cost now state').1 ∧
            (c.consume key' cost now state).2 key' = (c.consume key' cost now state').2 key' := by
          by_cases hcost : cost ≤ 0
          · rw [consume_free c key' cost now state hcost, consume_free c key' cost now state' hcost]
            exact ⟨rfl, h⟩
          · rw [consume_take c key' cost now state hcost, consume_take c key' cost now state' hcost, h]
            simp only [Function.update_self, and_self]
        rw [List.filter_cons_of_pos (by simp), List.filter_cons_of_pos (by simp [BudgetCall.key]),
          runAll_consume, hsame.1, ih _ _ hsame.2]
      · have hcall : ¬ (BudgetCall.consume key' cost now).key = key := hkey
        rw [List.filter_cons_of_neg (by simpa using hkey),
          List.filter_cons_of_neg (by rw [decide_eq_false hcall]; exact Bool.false_ne_true)]
        refine ih _ state' ?_
        rw [consume_other c key' key cost now state (Ne.symm hkey)]
        exact h

/-! ### The law -/

/-- The token bucket law, for a budget and a refill that are not negative. -/
theorem bucketLaw (hbudget : 0 ≤ c.budget) (hrate : 0 ≤ c.refillRate) (calls : List BudgetCall)
    (htimed : Timed calls) : BucketLaw c calls where
  bounded key t₀ t₁ ht :=
    grantedCost_le c hbudget hrate key t₀ t₁ ht calls htimed _ (fun _ _ => keptBy_none _) (keptBy_none t₁)
  keyed key := decisions_keyed c key calls _ _ rfl
  refusal := by
    intro before key cost now after rest hcalls hdecisions
    subst hcalls
    unfold decisions at hdecisions ⊢
    rw [Program.runAll_append] at hdecisions ⊢
    obtain ⟨hbefore, hafter, hcross⟩ := List.pairwise_append.mp htimed
    obtain ⟨hhead, htail⟩ := List.pairwise_cons.mp hafter
    have hrest := List.append_cancel_left hdecisions
    rw [runAll_consume] at hrest
    obtain ⟨hrefused, hrest⟩ := List.cons.inj hrest
    have hkept : KeptBy now (Program.runAll c.program before fun _ => none).2 := by
      cases before with
      | nil => exact keptBy_none now
      | cons first more =>
        refine keptBy_runAll c hbudget hrate _ first.now _ (keptBy_none _) hbefore ?_ now ?_ ?_
        · intro call hcall
          rcases List.mem_cons.mp hcall with rfl | hcall
          · exact le_refl _
          · exact (List.pairwise_cons.mp hbefore).1 call hcall
        · exact hcross first (List.mem_cons_self ..) _ (List.mem_cons_self ..)
        · intro call hcall
          exact hcross call hcall _ (List.mem_cons_self ..)
    have hagree := agree_refused c hrate key cost now _ hkept (congrArg BudgetDecision.granted hrefused)
    have hsame := agree_decisions c after htail _ _ fun call hcall =>
      agree_mono c now call.now _ _ hagree (hhead call hcall)
    dsimp only
    rw [hsame, hrest]

/-- `_candles_cost_budget` (web/routes/chart.py) -/
def candles : CostBudget := ⟨10000, 100⟩

/-- Two large requests, a refused one and a small one later. -/
def chartCalls : List BudgetCall :=
  [.consume "user:1" 5000 0, .consume "user:1" 5000 0, .consume "user:2" 100 1,
    .consume "user:1" 5000 10, .peek "user:1" 11, .consume "user:1" 1000 12]

theorem bucketLaw_chartCalls : BucketLaw candles chartCalls :=
  bucketLaw candles (by decide +kernel) (by decide +kernel) chartCalls
    (by unfold Timed chartCalls; decide +kernel)

end CostBudget

end Reverto
