import Mathlib.Tactic

/-!
# Programs with state, exceptions and an event log

A program keeps the state changes it made before it raised (as an object
mutated by a method does), and it logs events. A relation between the state
before, the events and the state after is proved of a program from the same
relation of its parts: `Respects`. Operations that are given by their programs
can be run in any order: `runAll`.
-/

namespace Program

/-- What a program leaves behind: a result or an exception, the events in
order, and the state. -/
structure Outcome (ε ω σ α : Type) where
  result : Except ε α
  log : List ω
  state : σ

end Program

/-- A program over states `σ` that logs `ω`, may raise `ε` and returns `α`. -/
def Program (ε ω σ α : Type) : Type := σ → Program.Outcome ε ω σ α

namespace Program

variable {ε ω σ α β : Type}

/-- Sequencing; an exception skips the rest and keeps the state reached. -/
def andThen (m : Program ε ω σ α) (f : α → Program ε ω σ β) : Program ε ω σ β := fun s =>
  match (m s).result with
  | .error e => ⟨.error e, (m s).log, (m s).state⟩
  | .ok a => ⟨(f a (m s).state).result, (m s).log ++ (f a (m s).state).log, (f a (m s).state).state⟩

instance : Monad (Program ε ω σ) where
  pure a := fun s => ⟨.ok a, [], s⟩
  bind := andThen

/-- Read the state. -/
def get : Program ε ω σ σ := fun s => ⟨.ok s, [], s⟩

/-- Update the state. -/
def modify (f : σ → σ) : Program ε ω σ Unit := fun s => ⟨.ok (), [], f s⟩

/-- Log one event. -/
def emit (w : ω) : Program ε ω σ Unit := fun s => ⟨.ok (), [w], s⟩

/-- Raise. -/
def raise (e : ε) : Program ε ω σ α := fun s => ⟨.error e, [], s⟩

/-- The value of a pure computation that may raise. -/
def lift : Except ε α → Program ε ω σ α
  | .ok a => pure a
  | .error e => raise e

/-- `for x in xs: f(x)`. -/
def forEach (f : α → Program ε ω σ Unit) : List α → Program ε ω σ Unit
  | [] => pure ()
  | x :: xs => f x >>= fun _ => forEach f xs

/-- `try: m except e: h(e)`. -/
def handle (m : Program ε ω σ α) (h : ε → Program ε ω σ α) : Program ε ω σ α := fun s =>
  match (m s).result with
  | .ok a => ⟨.ok a, (m s).log, (m s).state⟩
  | .error e => ⟨(h e (m s).state).result, (m s).log ++ (h e (m s).state).log, (h e (m s).state).state⟩

/-! ### What a program leaves behind -/

@[simp] theorem pure_run (a : α) (s : σ) :
    (pure a : Program ε ω σ α) s = ⟨.ok a, [], s⟩ := rfl

@[simp] theorem get_run (s : σ) : (get : Program ε ω σ σ) s = ⟨.ok s, [], s⟩ := rfl

@[simp] theorem modify_run (f : σ → σ) (s : σ) :
    (modify f : Program ε ω σ Unit) s = ⟨.ok (), [], f s⟩ := rfl

@[simp] theorem emit_run (w : ω) (s : σ) :
    (emit w : Program ε ω σ Unit) s = ⟨.ok (), [w], s⟩ := rfl

@[simp] theorem raise_run (e : ε) (s : σ) :
    (raise e : Program ε ω σ α) s = ⟨.error e, [], s⟩ := rfl

@[simp] theorem lift_ok (a : α) : (lift (.ok a) : Program ε ω σ α) = pure a := rfl

@[simp] theorem lift_error (e : ε) : (lift (.error e) : Program ε ω σ α) = raise e := rfl

theorem bind_run (m : Program ε ω σ α) (f : α → Program ε ω σ β) (s : σ) :
    (m >>= f) s = match (m s).result with
      | .error e => ⟨.error e, (m s).log, (m s).state⟩
      | .ok a => ⟨(f a (m s).state).result, (m s).log ++ (f a (m s).state).log,
          (f a (m s).state).state⟩ := rfl

theorem bind_ok (m : Program ε ω σ α) (f : α → Program ε ω σ β) (s : σ) (a : α)
    (h : (m s).result = .ok a) :
    (m >>= f) s = ⟨(f a (m s).state).result, (m s).log ++ (f a (m s).state).log,
      (f a (m s).state).state⟩ := by
  rw [bind_run, h]

theorem bind_error (m : Program ε ω σ α) (f : α → Program ε ω σ β) (s : σ) (e : ε)
    (h : (m s).result = .error e) :
    (m >>= f) s = ⟨.error e, (m s).log, (m s).state⟩ := by
  rw [bind_run, h]

theorem pure_bind (a : α) (f : α → Program ε ω σ β) : (pure a >>= f) = f a := rfl

theorem handle_ok (m : Program ε ω σ α) (h : ε → Program ε ω σ α) (s : σ) (a : α)
    (hm : (m s).result = .ok a) : handle m h s = m s := by
  cases hms : m s with
  | mk result log state =>
    rw [hms] at hm
    cases hm
    simp only [handle, hms]

theorem handle_error (m : Program ε ω σ α) (h : ε → Program ε ω σ α) (s : σ) (e : ε)
    (hm : (m s).result = .error e) :
    handle m h s = ⟨(h e (m s).state).result, (m s).log ++ (h e (m s).state).log,
      (h e (m s).state).state⟩ := by
  simp only [handle, hm]

theorem bind_assoc (m : Program ε ω σ α) (f : α → Program ε ω σ β) {γ : Type}
    (g : β → Program ε ω σ γ) : (m >>= f) >>= g = m >>= fun a => f a >>= g := by
  funext s
  cases hm : (m s).result with
  | error e =>
    have hmf := bind_error m f s e hm
    rw [bind_error m _ s e hm, bind_error (m >>= f) g s e (by rw [hmf]), hmf]
  | ok a =>
    have hmf := bind_ok m f s a hm
    rw [bind_ok m _ s a hm]
    cases hf : (f a (m s).state).result with
    | error e =>
      rw [bind_error (m >>= f) g s e (by rw [hmf, hf]), bind_error (f a) g _ e hf, hmf]
    | ok b =>
      rw [bind_ok (m >>= f) g s b (by rw [hmf, hf]), bind_ok (f a) g _ b hf, hmf]
      simp only [List.append_assoc]

/-- A program that first updates the state. -/
theorem modify_bind_run (f : σ → σ) (m : Unit → Program ε ω σ β) (s : σ) :
    (modify f >>= m) s = m () (f s) := rfl

/-- A program that first records an event. -/
theorem emit_bind_run (w : ω) (m : Unit → Program ε ω σ β) (s : σ) :
    (emit w >>= m) s = ⟨(m () s).result, w :: (m () s).log, (m () s).state⟩ := rfl

/-- A program that first reads the state. -/
theorem get_bind_run (m : σ → Program ε ω σ β) (s : σ) : (get >>= m) s = m s s := rfl

/-- Two loops whose bodies agree in the states that an invariant allows. -/
theorem forEach_congr (f g : α → Program ε ω σ Unit) (I : List α → σ → Prop)
    (hagree : ∀ a l s, I (a :: l) s → f a s = g a s)
    (hnext : ∀ a l s, I (a :: l) s → I l (f a s).state) (l : List α) (s : σ) (h : I l s) :
    forEach f l s = forEach g l s := by
  induction l generalizing s with
  | nil => rfl
  | cons a l ih =>
    have hrest := ih (f a s).state (hnext a l s h)
    rw [forEach, forEach, bind_run, bind_run, ← hagree a l s h, hrest]

/-- A loop over indexed values passes over the first ones where its body does nothing. -/
theorem forEach_zipIdx_skips (f : α × ℕ → Program ε ω σ Unit) (n : ℕ) (s : σ)
    (hskip : ∀ a k, k < n → f (a, k) s = ⟨.ok (), [], s⟩) (l : List α) (k : ℕ) :
    forEach f (l.zipIdx k) s = forEach f ((l.drop (n - k)).zipIdx (max k n)) s := by
  induction l generalizing k with
  | nil => simp only [List.drop_nil, List.zipIdx_nil]
  | cons a l ih =>
    by_cases hk : k < n
    · have hstep := hskip a k hk
      have hdrop : n - k = (n - (k + 1)) + 1 := by omega
      have hmax : max k n = max (k + 1) n := by omega
      rw [hdrop, hmax, List.drop_succ_cons, ← ih (k + 1), List.zipIdx_cons, forEach,
        bind_ok _ _ _ () (by rw [hstep]), hstep]
      rfl
    · have hdrop : n - k = 0 := by omega
      have hmax : max k n = k := by omega
      rw [hdrop, hmax, List.drop_zero]

/-- A loop over two lists one after the other. -/
theorem forEach_append (f : α → Program ε ω σ Unit) (l l' : List α) (s : σ) :
    forEach f (l ++ l') s = (forEach f l >>= fun _ => forEach f l') s := by
  induction l generalizing s with
  | nil => rfl
  | cons a l ih =>
    rw [List.cons_append, forEach, forEach, bind_run, bind_run]
    cases h : (f a s).result with
    | error e => simp only [bind_run, h]
    | ok r =>
      simp only [bind_run, h, ih]
      cases (forEach f l (f a s).state).result with
      | error e => rfl
      | ok r => simp only [List.append_assoc]

/-! ### Programs with other labels on their events -/

/-- The same program with every event relabelled. -/
def relabel {ω' : Type} (g : ω → ω') (m : Program ε ω σ α) : Program ε ω' σ α := fun s =>
  ⟨(m s).result, (m s).log.map g, (m s).state⟩

theorem relabel_relabel {ω' ω'' : Type} (g : ω → ω') (g' : ω' → ω'') (m : Program ε ω σ α) :
    relabel g' (relabel g m) = relabel (g' ∘ g) m := by
  funext s
  simp only [relabel, List.map_map]

/-- Labels change neither the number of the events nor where a loop ends. -/
theorem forEach_relabel {ω' : Type} (g : α → ω → ω') (f : α → Program ε ω σ Unit) (l : List α)
    (s : σ) :
    (forEach (fun a => relabel (g a) (f a)) l s).log.length = (forEach f l s).log.length ∧
      (forEach (fun a => relabel (g a) (f a)) l s).result = (forEach f l s).result ∧
      (forEach (fun a => relabel (g a) (f a)) l s).state = (forEach f l s).state := by
  induction l generalizing s with
  | nil => exact ⟨rfl, rfl, rfl⟩
  | cons a l ih =>
    have hsame : (relabel (g a) (f a) s).result = (f a s).result := rfl
    cases hresult : (f a s).result with
    | error e =>
      rw [forEach, forEach, bind_error _ _ _ e hresult, bind_error _ _ _ e (hsame.trans hresult)]
      exact ⟨List.length_map _, rfl, rfl⟩
    | ok r =>
      obtain ⟨hlog, hend, hstate⟩ := ih (f a s).state
      rw [forEach, forEach, bind_ok _ _ _ r hresult, bind_ok _ _ _ r (hsame.trans hresult)]
      refine ⟨?_, hend, hstate⟩
      rw [List.length_append, List.length_append, ← hlog]
      exact congrArg (· + _) (List.length_map _)

/-- A loop whose rounds put their label on their events. -/
theorem forEach_labels (f : α → Program ε ω σ Unit) (label : α → ℕ) (l : List α) (s : σ) :
    ∀ e ∈ (forEach (fun a => relabel (fun w => (label a, w)) (f a)) l s).log,
      ∃ a ∈ l, e.1 = label a := by
  induction l generalizing s with
  | nil => exact fun e he => absurd he List.not_mem_nil
  | cons a l ih =>
    intro e he
    have hhead : ∀ e ∈ (relabel (fun w => (label a, w)) (f a) s).log, e.1 = label a := by
      intro e he
      obtain ⟨w, _, rfl⟩ := List.mem_map.mp he
      rfl
    cases hresult : (relabel (fun w => (label a, w)) (f a) s).result with
    | error err =>
      rw [forEach, bind_error _ _ _ err hresult] at he
      exact ⟨a, List.mem_cons_self, hhead e he⟩
    | ok r =>
      rw [forEach, bind_ok _ _ _ r hresult] at he
      rcases List.mem_append.mp he with he | he
      · exact ⟨a, List.mem_cons_self, hhead e he⟩
      · obtain ⟨b, hb, hlabel⟩ := ih _ e he
        exact ⟨b, List.mem_cons_of_mem a hb, hlabel⟩

/-- Logs that begin with the events of one label and go on with later labels. -/
theorem labelled_append_inj (n : ℕ) (a b : List ω) (r t : List (ℕ × ω)) (hr : ∀ e ∈ r, n < e.1)
    (ht : ∀ e ∈ t, n < e.1)
    (h : a.map (fun w => (n, w)) ++ r = b.map (fun w => (n, w)) ++ t) : a = b ∧ r = t := by
  have hfirst : ∀ (x : List ω) (y : List (ℕ × ω)), (∀ e ∈ y, n < e.1) →
      (x.map (fun w => (n, w)) ++ y).filter (fun e => decide (e.1 = n)) =
        x.map fun w => (n, w) := by
    intro x y hy
    have hnone : y.filter (fun e => decide (e.1 = n)) = [] :=
      List.filter_eq_nil_iff.mpr fun e he => by simpa using (hy e he).ne'
    rw [List.filter_append, hnone, List.append_nil, List.filter_eq_self]
    intro e he
    obtain ⟨w, _, rfl⟩ := List.mem_map.mp he
    exact decide_eq_true rfl
  have hsame : a.map (fun w => (n, w)) = b.map fun w => (n, w) := by
    rw [← hfirst a r hr, ← hfirst b t ht, h]
  have hab : a = b := List.map_injective_iff.mpr (fun x y hxy => (Prod.mk.inj hxy).2) hsame
  refine ⟨hab, ?_⟩
  rw [hab] at h
  exact List.append_cancel_left h

/-! ### Programs on a part of a larger state -/

/-- Run a program on the part of a larger state that `view` reads and `put` replaces. -/
def zoom {τ : Type} (view : τ → σ) (put : σ → τ → τ) (m : Program ε ω σ α) : Program ε ω τ α :=
  fun t => ⟨(m (view t)).result, (m (view t)).log, put (m (view t)).state t⟩

theorem zoom_bind {τ : Type} (view : τ → σ) (put : σ → τ → τ)
    (hview : ∀ s t, view (put s t) = s) (hput : ∀ s s' t, put s' (put s t) = put s' t)
    (m : Program ε ω σ α) (f : α → Program ε ω σ β) :
    zoom view put (m >>= f) = zoom view put m >>= fun a => zoom view put (f a) := by
  funext t
  cases h : (m (view t)).result with
  | error e =>
    have hz : (zoom view put m t).result = .error e := h
    rw [bind_error _ _ t e hz]
    simp only [zoom, bind_error m f (view t) e h]
  | ok a =>
    have hz : (zoom view put m t).result = .ok a := h
    rw [bind_ok _ _ t a hz]
    simp only [zoom, bind_ok m f (view t) a h, hview, hput]

/-! ### Programs that never raise -/

/-- Every run of the program returns. -/
def Returns (m : Program ε ω σ α) : Prop := ∀ s, ∃ a, (m s).result = .ok a

/-- There is nothing to raise. -/
theorem returns_empty (m : Program Empty ω σ α) : Returns m := by
  intro s
  cases (m s).result with
  | error e => exact e.elim
  | ok a => exact ⟨a, rfl⟩

theorem returns_pure (a : α) : Returns (pure a : Program ε ω σ α) := fun _ => ⟨a, rfl⟩

theorem returns_modify (f : σ → σ) : Returns (modify f : Program ε ω σ Unit) := fun _ => ⟨(), rfl⟩

theorem returns_bind (m : Program ε ω σ α) (f : α → Program ε ω σ β) (hm : Returns m)
    (hf : ∀ a, Returns (f a)) : Returns (m >>= f) := by
  intro s
  obtain ⟨a, ha⟩ := hm s
  obtain ⟨b, hb⟩ := hf a (m s).state
  rw [bind_ok m f s a ha]
  exact ⟨b, hb⟩

/-- Behind a program that never raises, the next one ends the run. -/
theorem bind_ends (m : Program ε ω σ α) (f : α → Program ε ω σ β) (hm : Returns m) (s : σ) :
    ∃ a t, ((m >>= f) s).state = (f a t).state := by
  obtain ⟨a, ha⟩ := hm s
  rw [bind_ok m f s a ha]
  exact ⟨a, (m s).state, rfl⟩

theorem returns_get_bind (f : σ → Program ε ω σ β) (hf : ∀ s, Returns (f s)) :
    Returns (get >>= f) := fun s => hf s s

theorem returns_ite (c : Prop) [Decidable c] (m m' : Program ε ω σ α) (h : Returns m)
    (h' : Returns m') : Returns (if c then m else m') := by
  split
  · exact h
  · exact h'

theorem returns_forEach (f : α → Program ε ω σ Unit) (xs : List α) (hf : ∀ x, Returns (f x)) :
    Returns (forEach f xs) := by
  induction xs with
  | nil => exact returns_pure ()
  | cons x xs ih => exact returns_bind (f x) _ (hf x) fun _ => ih

/-! ### Relations between state, events and state -/

/-- `R s l s'`: from `s` the events `l` may lead to `s'`. Such a relation
composes when it holds of no events and of one list after another. -/
structure TraceRel (R : σ → List ω → σ → Prop) : Prop where
  nil : ∀ s, R s [] s
  append : ∀ s l t l' u, R s l t → R t l' u → R s (l ++ l') u

/-- Every run of the program is related by `R`, whether it returns or raises. -/
def Respects (R : σ → List ω → σ → Prop) (m : Program ε ω σ α) : Prop :=
  ∀ s, R s (m s).log (m s).state

section Rules

variable {R : σ → List ω → σ → Prop} (hR : TraceRel R)
include hR

theorem respects_pure (a : α) : Respects R (pure a : Program ε ω σ α) := fun s => hR.nil s

theorem respects_get : Respects R (get : Program ε ω σ σ) := fun s => hR.nil s

theorem respects_raise (e : ε) : Respects R (raise e : Program ε ω σ α) := fun s => hR.nil s

theorem respects_lift (x : Except ε α) : Respects R (lift x : Program ε ω σ α) := by
  cases x with
  | ok a => exact respects_pure hR a
  | error e => exact respects_raise hR e

theorem respects_bind (m : Program ε ω σ α) (f : α → Program ε ω σ β)
    (hm : Respects R m) (hf : ∀ a, Respects R (f a)) : Respects R (m >>= f) := by
  intro s
  have h := hm s
  cases hr : (m s).result with
  | error e =>
    rw [bind_error m f s e hr]
    exact h
  | ok a =>
    rw [bind_ok m f s a hr]
    exact hR.append _ _ _ _ _ h (hf a (m s).state)

theorem respects_forEach (f : α → Program ε ω σ Unit) (xs : List α)
    (hf : ∀ x ∈ xs, Respects R (f x)) : Respects R (forEach f xs) := by
  induction xs with
  | nil => exact respects_pure hR ()
  | cons x xs ih =>
    refine respects_bind hR _ _ (hf x (List.mem_cons_self ..)) fun _ => ?_
    exact ih fun y hy => hf y (List.mem_cons_of_mem _ hy)

theorem respects_handle (m : Program ε ω σ α) (h : ε → Program ε ω σ α)
    (hm : Respects R m) (hh : ∀ e, Respects R (h e)) : Respects R (handle m h) := by
  intro s
  have hs := hm s
  unfold handle
  cases hr : (m s).result with
  | ok a => exact hs
  | error e => exact hR.append _ _ _ _ _ hs (hh e (m s).state)

end Rules

theorem respects_ite {R : σ → List ω → σ → Prop} (c : Prop) [Decidable c]
    (m m' : Program ε ω σ α) (h : Respects R m) (h' : Respects R m') :
    Respects R (if c then m else m') := by
  split
  · exact h
  · exact h'

/-- A program that reads the state first may be checked state by state. -/
theorem respects_get_bind {R : σ → List ω → σ → Prop} (f : σ → Program ε ω σ β)
    (hf : ∀ s, R s (f s s).log (f s s).state) : Respects R (get >>= f) := by
  intro s
  exact hf s

/-- What a program does is not changed by a pure function of its result. -/
theorem map_run (m : Program ε ω σ α) (g : α → β) (s : σ) :
    ((m >>= fun a => pure (g a)) s).log = (m s).log ∧
      ((m >>= fun a => pure (g a)) s).state = (m s).state := by
  cases h : (m s).result with
  | error e =>
    rw [bind_error m _ s e h]
    exact ⟨rfl, rfl⟩
  | ok a =>
    rw [bind_ok m _ s a h]
    exact ⟨List.append_nil _, rfl⟩

/-- An invariant is the relation that ignores the events. -/
theorem traceRel_invariant (I : σ → Prop) :
    TraceRel (fun (s : σ) (_ : List ω) (s' : σ) => I s → I s') where
  nil _ h := h
  append _ _ _ _ _ h h' hs := h' (h hs)

/-- A function of the state that no event moves. -/
theorem traceRel_frame {γ : Type} (f : σ → γ) :
    TraceRel (fun (s : σ) (_ : List ω) (s' : σ) => f s' = f s) where
  nil _ := rfl
  append _ _ _ _ _ h h' := h'.trans h

/-- A property of every event. -/
theorem traceRel_forall (P : ω → Prop) :
    TraceRel (fun (_ : σ) (l : List ω) (_ : σ) => ∀ e ∈ l, P e) where
  nil _ e he := absurd he List.not_mem_nil
  append := by
    intro _ l _ l' _ h h' e he
    rcases List.mem_append.mp he with he | he
    · exact h e he
    · exact h' e he

theorem traceRel_and {R Q : σ → List ω → σ → Prop} (hR : TraceRel R) (hQ : TraceRel Q) :
    TraceRel (fun s l s' => R s l s' ∧ Q s l s') where
  nil s := ⟨hR.nil s, hQ.nil s⟩
  append _ _ _ _ _ h h' := ⟨hR.append _ _ _ _ _ h.1 h'.1, hQ.append _ _ _ _ _ h.2 h'.2⟩

/-! ### Returning with an invariant -/

/-- Where the invariant holds the program returns, and the invariant holds again. -/
def Keeps (I : σ → Prop) (m : Program ε ω σ α) : Prop :=
  ∀ s, I s → (∃ a, (m s).result = .ok a) ∧ I (m s).state

section Keeps

variable {I : σ → Prop}

theorem keeps_pure (a : α) : Keeps I (pure a : Program ε ω σ α) := fun _ h => ⟨⟨a, rfl⟩, h⟩

theorem keeps_modify (f : σ → σ) (hf : ∀ s, I s → I (f s)) :
    Keeps I (modify f : Program ε ω σ Unit) := fun s h => ⟨⟨(), rfl⟩, hf s h⟩

theorem keeps_lift (x : Except ε α) (hx : ∃ a, x = .ok a) : Keeps I (lift x : Program ε ω σ α) := by
  obtain ⟨a, rfl⟩ := hx
  exact keeps_pure a

theorem keeps_bind (m : Program ε ω σ α) (f : α → Program ε ω σ β) (hm : Keeps I m)
    (hf : ∀ a, Keeps I (f a)) : Keeps I (m >>= f) := by
  intro s hs
  obtain ⟨⟨a, ha⟩, hnext⟩ := hm s hs
  obtain ⟨⟨b, hb⟩, hlast⟩ := hf a _ hnext
  rw [bind_ok m f s a ha]
  exact ⟨⟨b, hb⟩, hlast⟩

/-- A program that reads the state first may be checked state by state. -/
theorem keeps_get_bind (f : σ → Program ε ω σ β)
    (hf : ∀ s, I s → (∃ b, (f s s).result = .ok b) ∧ I (f s s).state) : Keeps I (get >>= f) :=
  fun s hs => hf s hs

theorem keeps_ite (c : Prop) [Decidable c] (m m' : Program ε ω σ α) (h : Keeps I m)
    (h' : Keeps I m') : Keeps I (if c then m else m') := by
  split
  · exact h
  · exact h'

theorem keeps_forEach (f : α → Program ε ω σ Unit) (xs : List α) (hf : ∀ x ∈ xs, Keeps I (f x)) :
    Keeps I (forEach f xs) := by
  induction xs with
  | nil => exact keeps_pure ()
  | cons x xs ih =>
    refine keeps_bind _ _ (hf x (List.mem_cons_self ..)) fun _ => ?_
    exact ih fun y hy => hf y (List.mem_cons_of_mem _ hy)

end Keeps

/-! ### Two programs side by side -/

section Twins

variable {τ : Type} (P : ω → Prop) (p : ω → Bool) (R : σ → τ → Prop)

/-- From `s` and `t`, where all their events satisfy `P`, two programs return the same, record
the same events among those with `p`, and lead to states related by `R`. -/
def TwinsAt (s : σ) (t : τ) (m : Program ε ω σ α) (m' : Program ε ω τ α) : Prop :=
  (∀ e ∈ (m s).log, P e) → (∀ e ∈ (m' t).log, P e) →
    (m s).result = (m' t).result ∧ (m s).log.filter p = (m' t).log.filter p ∧
      R (m s).state (m' t).state

theorem twinsAt_pure (s : σ) (t : τ) (h : R s t) (a : α) :
    TwinsAt P p R s t (pure a : Program ε ω σ α) (pure a) := fun _ _ => ⟨rfl, rfl, h⟩

theorem twinsAt_modify (s : σ) (t : τ) (f : σ → σ) (f' : τ → τ) (h : R (f s) (f' t)) :
    TwinsAt P p R s t (modify f : Program ε ω σ Unit) (modify f') := fun _ _ => ⟨rfl, rfl, h⟩

theorem twinsAt_get_bind (s : σ) (t : τ) (f : σ → Program ε ω σ β) (f' : τ → Program ε ω τ β)
    (h : TwinsAt P p R s t (f s) (f' t)) : TwinsAt P p R s t (get >>= f) (get >>= f') := h

theorem twinsAt_bind (s : σ) (t : τ) (m : Program ε ω σ α) (m' : Program ε ω τ α)
    (f : α → Program ε ω σ β) (f' : α → Program ε ω τ β) (h : TwinsAt P p R s t m m')
    (hf : ∀ a s' t', R s' t' → TwinsAt P p R s' t' (f a) (f' a)) :
    TwinsAt P p R s t (m >>= f) (m' >>= f') := by
  intro hlog hlog'
  cases hr : (m s).result with
  | error e =>
    have hms := bind_error m f s e hr
    rw [hms] at hlog ⊢
    have hm := h hlog
    cases hr' : (m' t).result with
    | error e' =>
      have hms' := bind_error m' f' t e' hr'
      rw [hms'] at hlog' ⊢
      obtain ⟨hres, hsame, hR⟩ := hm hlog'
      rw [hr, hr'] at hres
      cases hres
      exact ⟨rfl, hsame, hR⟩
    | ok a =>
      rw [bind_ok m' f' t a hr'] at hlog'
      obtain ⟨hres, _, _⟩ := hm fun e he => hlog' e (List.mem_append_left _ he)
      rw [hr, hr'] at hres
      cases hres
  | ok a =>
    rw [bind_ok m f s a hr] at hlog ⊢
    have hm := h fun e he => hlog e (List.mem_append_left _ he)
    cases hr' : (m' t).result with
    | error e' =>
      rw [bind_error m' f' t e' hr'] at hlog'
      obtain ⟨hres, _, _⟩ := hm hlog'
      rw [hr, hr'] at hres
      cases hres
    | ok a' =>
      rw [bind_ok m' f' t a' hr'] at hlog' ⊢
      obtain ⟨hres, hsame, hR⟩ := hm fun e he => hlog' e (List.mem_append_left _ he)
      rw [hr, hr'] at hres
      cases hres
      obtain ⟨hres', hsame', hR'⟩ := hf a _ _ hR
        (fun e he => hlog e (List.mem_append_right _ he))
        (fun e he => hlog' e (List.mem_append_right _ he))
      refine ⟨hres', ?_, hR'⟩
      rw [List.filter_append, List.filter_append, hsame, hsame']

theorem twinsAt_forEach (f : α → Program ε ω σ Unit) (f' : α → Program ε ω τ Unit)
    (hf : ∀ a s t, R s t → TwinsAt P p R s t (f a) (f' a)) (xs : List α) (s : σ) (t : τ)
    (h : R s t) : TwinsAt P p R s t (forEach f xs) (forEach f' xs) := by
  induction xs generalizing s t with
  | nil => exact twinsAt_pure P p R s t h ()
  | cons x xs ih => exact twinsAt_bind P p R s t _ _ _ _ (hf x s t h) fun _ s' t' h' => ih s' t' h'

end Twins

/-! ### Runs of operations -/

section Runs

variable {Op : Type} (exec : Op → Program ε ω σ Unit)

/-- The events and the state after operations run in order; an exception ends
its own operation only. -/
def runAll : List Op → σ → List ω × σ
  | [], s => ([], s)
  | op :: ops, s =>
    ((exec op s).log ++ (runAll ops (exec op s).state).1, (runAll ops (exec op s).state).2)

/-- Operations that satisfy `P` lead from `s` to `s'` with the events `l`. -/
def RunsAs (P : Op → Prop) (s : σ) (l : List ω) (s' : σ) : Prop :=
  ∃ ops : List Op, (∀ op ∈ ops, P op) ∧ runAll exec ops s = (l, s')

/-- Every operation of a run satisfies `P` in the state it meets. -/
def EachStep (P : σ → Op → Prop) : List Op → σ → Prop
  | [], _ => True
  | op :: ops, s => P s op ∧ EachStep P ops (exec op s).state

instance decidableEachStep (P : σ → Op → Prop) [hP : ∀ s op, Decidable (P s op)] :
    ∀ (ops : List Op) (s : σ), Decidable (EachStep exec P ops s)
  | [], _ => .isTrue trivial
  | op :: ops, s =>
    have := decidableEachStep P ops (exec op s).state
    inferInstanceAs (Decidable (P s op ∧ EachStep exec P ops (exec op s).state))

theorem eachStep_true (ops : List Op) (s : σ) : EachStep exec (fun _ _ => True) ops s ↔ True := by
  induction ops generalizing s with
  | nil => exact Iff.rfl
  | cons op ops ih => rw [EachStep, ih, and_self]

theorem eachStep_congr (P Q : σ → Op → Prop) (h : ∀ s op, P s op ↔ Q s op) (ops : List Op)
    (s : σ) : EachStep exec P ops s ↔ EachStep exec Q ops s := by
  induction ops generalizing s with
  | nil => exact Iff.rfl
  | cons op ops ih => rw [EachStep, EachStep, h, ih]

theorem eachStep_append (P : σ → Op → Prop) (ops ops' : List Op) (s : σ) :
    EachStep exec P (ops ++ ops') s ↔
      EachStep exec P ops s ∧ EachStep exec P ops' (runAll exec ops s).2 := by
  induction ops generalizing s with
  | nil => exact (true_and _).to_iff.symm
  | cons op ops ih => rw [List.cons_append, EachStep, EachStep, ih, and_assoc, runAll]

/-- Every operation of a run satisfies `P` of the events before it and the state it meets. -/
def EachTraced (P : List ω → σ → Op → Prop) : List Op → List ω → σ → Prop
  | [], _, _ => True
  | op :: ops, l, s => P l s op ∧ EachTraced P ops (l ++ (exec op s).log) (exec op s).state

theorem eachTraced_of_eachStep (P : σ → Op → Prop) (ops : List Op) (l : List ω) (s : σ)
    (h : EachStep exec P ops s) : EachTraced exec (fun _ => P) ops l s := by
  induction ops generalizing l s with
  | nil => trivial
  | cons op ops ih => exact ⟨h.1, ih _ _ h.2⟩

/-- What every step keeps of the events and the state holds after a run. -/
theorem traced_invariant (P : List ω → σ → Op → Prop) (I : List ω → σ → Prop)
    (hstep : ∀ l s op, I l s → P l s op → I (l ++ (exec op s).log) (exec op s).state)
    (ops : List Op) (l : List ω) (s : σ) (h : I l s) (hP : EachTraced exec P ops l s) :
    I (l ++ (runAll exec ops s).1) (runAll exec ops s).2 := by
  induction ops generalizing l s with
  | nil => simpa only [runAll, List.append_nil] using h
  | cons op ops ih =>
    have hnext := ih _ _ (hstep l s op h hP.1) hP.2
    simpa only [runAll, List.append_assoc] using hnext

/-- Two systems that record the same events at every operation, from related states
to related states, record the same events in every run. -/
theorem runAll_simulates {ε' τ : Type} (spec : Op → Program ε' ω τ Unit) (P : τ → Op → Prop)
    (R : σ → τ → Prop)
    (hstep : ∀ op s t, R s t → P t op →
      (exec op s).log = (spec op t).log ∧ R (exec op s).state (spec op t).state)
    (ops : List Op) (s : σ) (t : τ) (h : R s t) (hP : EachStep spec P ops t) :
    (runAll exec ops s).1 = (runAll spec ops t).1 ∧
      R (runAll exec ops s).2 (runAll spec ops t).2 := by
  induction ops generalizing s t with
  | nil => exact ⟨rfl, h⟩
  | cons op ops ih =>
    obtain ⟨hlog, hnext⟩ := hstep op s t h hP.1
    obtain ⟨hlogs, hlast⟩ := ih _ _ hnext hP.2
    refine ⟨?_, hlast⟩
    rw [runAll, runAll, hlog, hlogs]

theorem runAll_append (ops ops' : List Op) (s : σ) :
    runAll exec (ops ++ ops') s =
      ((runAll exec ops s).1 ++ (runAll exec ops' (runAll exec ops s).2).1,
        (runAll exec ops' (runAll exec ops s).2).2) := by
  induction ops generalizing s with
  | nil => rfl
  | cons op ops ih => simp only [List.cons_append, runAll, ih, List.append_assoc]

theorem runsAs_traceRel (P : Op → Prop) : TraceRel (RunsAs exec P) where
  nil s := ⟨[], by simp, rfl⟩
  append := by
    rintro s l t l' u ⟨ops, hops, h⟩ ⟨ops', hops', h'⟩
    refine ⟨ops ++ ops', ?_, ?_⟩
    · intro op hop
      rcases List.mem_append.mp hop with hm | hm
      · exact hops op hm
      · exact hops' op hm
    · rw [runAll_append, h, h']

theorem runsAs_mono (P Q : Op → Prop) (h : ∀ op, P op → Q op) (s s' : σ) (l : List ω)
    (hrun : RunsAs exec P s l s') : RunsAs exec Q s l s' := by
  obtain ⟨ops, hops, hrun⟩ := hrun
  exact ⟨ops, fun op hop => h op (hops op hop), hrun⟩

/-- An operation is a run of itself. -/
theorem respects_one (P : Op → Prop) (op : Op) (h : P op) : Respects (RunsAs exec P) (exec op) := by
  intro s
  refine ⟨[op], by simpa using h, ?_⟩
  simp only [runAll, List.append_nil]

/-- A relation that composes and that every operation respects holds of runs. -/
theorem runsAs_rel (P : Op → Prop) (R : σ → List ω → σ → Prop) (hR : TraceRel R)
    (hop : ∀ op, P op → Respects R (exec op)) (s s' : σ) (l : List ω)
    (h : RunsAs exec P s l s') : R s l s' := by
  obtain ⟨ops, hops, h⟩ := h
  induction ops generalizing s l with
  | nil =>
    cases h
    exact hR.nil _
  | cons op ops ih =>
    simp only [runAll, Prod.mk.injEq] at h
    obtain ⟨rfl, rfl⟩ := h
    have hhead := hop op (hops op (List.mem_cons_self ..)) s
    have htail := ih (exec op s).state (runAll exec ops (exec op s).state).1
      (fun o ho => hops o (List.mem_cons_of_mem _ ho)) rfl
    exact hR.append _ _ _ _ _ hhead htail

end Runs

end Program
