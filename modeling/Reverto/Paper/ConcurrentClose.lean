import Mathlib.Tactic
import Reverto.Lib.Machine
import Reverto.Paper.CloseHandler

/-!
# Two closes of one deal (paper/close_handler.py, close_deal)

Two callers close a deal by hand on one `PaperState`. A step ends where a caller takes or gives
back the lock of the state, or touches the ledger or the file; what a caller read is kept
in its phase.
-/

namespace Reverto

namespace ConcurrentClose

/-- The handler, the deal and the price of each caller. -/
structure Setup where
  takerFee : ℚ
  botName : String
  botSlug : Option String
  dealId : String
  price : Bool → ℚ

/-- How far a caller is in `_close`. -/
inductive Stage where
  | accepted
  | computed
  | closed
  | charged
  | recorded
  deriving DecidableEq, Repr

/-- A caller before, in and after `close_deal`; in it with the deal as it was looked up. -/
inductive Phase where
  | start
  | busy (stage : Stage) (deal : PaperDeal)
  | done (outcome : Except CloseError CloseResult)
  deriving DecidableEq

/-- What the two callers share, and where they stand. -/
structure Race where
  state : PaperState
  file : Option StateDoc
  ledger : List LedgerCall
  callers : Bool → Phase

/-- The caller moves on. -/
def Race.to (s : Race) (x : Bool) (phase : Phase) : Race :=
  { s with callers := Function.update s.callers x phase }

/-- The object of a deal that was closed. -/
def closedObject (s : PaperState) (d : PaperDeal) : PaperDeal :=
  (s.closedDeals.reverse.find? fun e => e.id = d.id).getD d

/-- The dict that `_close` returns. -/
def closeResult (cfg : Setup) (s : PaperState) (d : PaperDeal) (price : ℚ) : CloseResult :=
  ⟨.close, d.id, price, (d.calculatePnl price).1, (d.calculatePnl price).2,
    d.totalSize * cfg.takerFee, dealToDict (closedObject s d) price⟩

/-- `deal.exit_trigger = {"type": "manual"}` -/
def markManual (e : PaperDeal) : PaperDeal := { e with exitTrigger := some .manual }

theorem markManual_id (e : PaperDeal) : (markManual e).id = e.id := rfl

/-- The next step of a caller in `_close`. -/
def busyStep (cfg : Setup) (s : Race) (x : Bool) (now : Instant) (d : PaperDeal) : Stage → Race
  | .accepted =>
    { s with state := s.state.updateDeal d.id markManual markManual_id }.to x (.busy .computed d)
  | .computed =>
    { s with state := s.state.closeDeal d.id (cfg.price x) .manual now }.to x (.busy .closed d)
  | .closed =>
    { s with
      state := { s.state with
        balanceBtc := s.state.balanceBtc - d.totalSize * cfg.takerFee } }.to x (.busy .charged d)
  | .charged =>
    { s with
      ledger := s.ledger ++
        if cfg.botSlug.isSome then [DealCloseHandler.ledgerCall d (cfg.price x) now .close]
        else [] }.to x (.busy .recorded d)
  | .recorded =>
    { s with file := some (DealCloseHandler.persistState cfg.botName s.state s.file) }.to x
      (.done (.ok (closeResult cfg s.state d (cfg.price x))))

/-- A step is labelled with the caller that takes it and the time. -/
def step (cfg : Setup) (s : Race) (l : Bool × Instant) : Option Race :=
  match s.callers l.1 with
  | .start =>
    match DealCloseHandler.accept s.state cfg.dealId (cfg.price l.1) with
    | .error e => some (s.to l.1 (.done (.error e)))
    | .ok d => some (s.to l.1 (.busy .accepted d))
  | .busy stage d => some (busyStep cfg s l.1 l.2 d stage)
  | .done _ => none

/-- Both callers are about to call. -/
def initial (s : PaperState) (file : Option StateDoc) (ledger : List LedgerCall) : Race :=
  ⟨s, file, ledger, fun _ => .start⟩

/-- Both calls have returned. -/
def Finished (s : Race) : Prop := ∀ x, ∃ outcome, s.callers x = .done outcome

/-- One caller closed the deal as if it were alone and the other was told that it is not open. -/
def ClosedOnce (cfg : Setup) (s : PaperState) (d : PaperDeal) (u : Race) : Prop :=
  ∃ x now,
    u.callers x = .done (.ok
      (DealCloseHandler.result cfg.takerFee d (cfg.price x) now .close)) ∧
    u.callers (!x) = .done (.error (.dealNotFound cfg.dealId)) ∧
    u.state = DealCloseHandler.closeState cfg.takerFee s d (cfg.price x) now

/-- A caller with a positive price has finished the state close before the other one starts. -/
def ClosesFirst (cfg : Setup) (ls : List (Bool × Instant)) : Prop :=
  ∃ x t₁ t₂ t₃ rest, ls = (x, t₁) :: (x, t₂) :: (x, t₃) :: rest ∧ 0 < cfg.price x

/-! ### Steps -/

theorem to_self (s : Race) (x : Bool) (phase : Phase) : (s.to x phase).callers x = phase := by
  simp only [Race.to, Function.update_self]

theorem to_other (s : Race) (x y : Bool) (phase : Phase) (h : y ≠ x) :
    (s.to x phase).callers y = s.callers y := by
  simp only [Race.to, Function.update_of_ne h]

/-- A step leaves the phase of the other caller. -/
theorem step_other (cfg : Setup) (s t : Race) (l : Bool × Instant) (y : Bool) (h : y ≠ l.1)
    (hstep : step cfg s l = some t) : t.callers y = s.callers y := by
  unfold step at hstep
  split at hstep
  · split at hstep
    · cases hstep
      exact to_other s l.1 y _ h
    · cases hstep
      exact to_other s l.1 y _ h
  · rename_i stage d _
    cases hstep
    cases stage with
    | accepted => exact to_other _ l.1 y _ h
    | computed => exact to_other _ l.1 y _ h
    | closed => exact to_other _ l.1 y _ h
    | charged => exact to_other _ l.1 y _ h
    | recorded => exact to_other _ l.1 y _ h
  · cases hstep

/-- A caller that starts a step is not done. -/
theorem step_not_done (cfg : Setup) (s t : Race) (l : Bool × Instant)
    (outcome : Except CloseError CloseResult) (hstep : step cfg s l = some t) :
    s.callers l.1 ≠ .done outcome := by
  intro hdone
  unfold step at hstep
  rw [hdone] at hstep
  cases hstep

/-! ### Both callers look the deal up -/

/-- The caller was given the deal. -/
def Took : Phase → Prop
  | .busy _ _ => True
  | .done (.ok _) => True
  | _ => False

/-- A caller was refused for its price, or both were given the deal. -/
def Doomed (s : Race) : Prop :=
  (∃ x, s.callers x = .done (.error .priceNotPositive)) ∨ ∀ x, Took (s.callers x)

theorem step_done (cfg : Setup) (s t : Race) (l : Bool × Instant) (x : Bool)
    (outcome : Except CloseError CloseResult) (hdone : s.callers x = .done outcome)
    (hstep : step cfg s l = some t) : t.callers x = .done outcome := by
  have hne : x ≠ l.1 := by
    intro hx
    rw [hx] at hdone
    exact step_not_done cfg s t l outcome hstep hdone
  rw [step_other cfg s t l x hne hstep]
  exact hdone

theorem took_step (cfg : Setup) (s t : Race) (l : Bool × Instant) (x : Bool)
    (htook : Took (s.callers x)) (hstep : step cfg s l = some t) : Took (t.callers x) := by
  by_cases hx : x = l.1
  · subst hx
    unfold step at hstep
    split at hstep
    · rename_i hstart
      rw [hstart] at htook
      exact htook.elim
    · cases hstep
      rename_i stage d _
      cases stage with
      | accepted => rw [busyStep, to_self]; trivial
      | computed => rw [busyStep, to_self]; trivial
      | closed => rw [busyStep, to_self]; trivial
      | charged => rw [busyStep, to_self]; trivial
      | recorded => rw [busyStep, to_self]; trivial
    · cases hstep
  · rw [step_other cfg s t l x hx hstep]
    exact htook

theorem doomed_step (cfg : Setup) (s : Race) (l : Bool × Instant) (t : Race) (h : Doomed s)
    (hstep : step cfg s l = some t) : Doomed t := by
  rcases h with ⟨x, hx⟩ | hboth
  · exact .inl ⟨x, step_done cfg s t l x _ hx hstep⟩
  · exact .inr fun x => took_step cfg s t l x (hboth x) hstep

theorem not_closedOnce_of_doomed (cfg : Setup) (s : PaperState) (d : PaperDeal) (u : Race)
    (h : Doomed u) : ¬ ClosedOnce cfg s d u := by
  rintro ⟨x, now, hmine, hother, _⟩
  rcases h with ⟨y, hy⟩ | hboth
  · rcases Bool.eq_or_eq_not y x with rfl | rfl
    · rw [hmine] at hy
      cases hy
    · rw [hother] at hy
      cases hy
  · have htook := hboth (!x)
    rw [hother] at htook
    exact htook

/-- A lookup that finds the deal: the price decides. -/
theorem step_lookup (cfg : Setup) (s t : Race) (x : Bool) (now : Instant) (d : PaperDeal)
    (hstart : s.callers x = .start) (hopen : s.state.openDeals.get? cfg.dealId = some d)
    (hstep : step cfg s (x, now) = some t) :
    (¬ 0 < cfg.price x ∧ t = s.to x (.done (.error .priceNotPositive))) ∨
      (0 < cfg.price x ∧ t = s.to x (.busy .accepted d)) := by
  unfold step at hstep
  simp only [hstart, DealCloseHandler.accept, hopen] at hstep
  by_cases hprice : cfg.price x ≤ 0
  · rw [if_pos hprice] at hstep
    cases hstep
    exact .inl ⟨not_lt.mpr hprice, rfl⟩
  · rw [if_neg hprice] at hstep
    cases hstep
    exact .inr ⟨not_le.mp hprice, rfl⟩

/-- The second caller finds the deal that the first was given. -/
theorem doomed_lookup (cfg : Setup) (s t : Race) (x : Bool) (now : Instant) (d : PaperDeal)
    (hstart : s.callers x = .start) (hopen : s.state.openDeals.get? cfg.dealId = some d)
    (hother : Took (s.callers (!x))) (hstep : step cfg s (x, now) = some t) : Doomed t := by
  rcases step_lookup cfg s t x now d hstart hopen hstep with ⟨_, rfl⟩ | ⟨_, rfl⟩
  · exact .inl ⟨x, to_self s x _⟩
  · refine .inr fun y => ?_
    rcases Bool.eq_or_eq_not y x with rfl | rfl
    · rw [to_self]
      trivial
    · rw [to_other s x (!x) _ (Bool.not_ne_self x)]
      exact hother

theorem doomed_run (cfg : Setup) (r u : Race) (ls : List (Bool × Instant)) (h : Doomed r)
    (hrun : Machine.run (step cfg) r ls = some u) : Doomed u :=
  Machine.run_keeps (step cfg) Doomed (doomed_step cfg) r u ls h hrun

/-- One caller was given the deal, which is still open, and the other has not started. -/
structure Ahead (cfg : Setup) (r : Race) (x : Bool) : Prop where
  took : Took (r.callers x)
  start : r.callers (!x) = .start
  isOpen : ∃ d, r.state.openDeals.get? cfg.dealId = some d

/-- The caller that is ahead takes the next step, or both are given the deal. -/
theorem next_of_ahead (cfg : Setup) (r u : Race) (x : Bool) (ls : List (Bool × Instant))
    (h : Ahead cfg r x) (hrun : Machine.run (step cfg) r ls = some u) (hfinished : Finished u)
    (hnot : ¬ Doomed u) :
    ∃ t rest r', ls = (x, t) :: rest ∧ step cfg r (x, t) = some r' ∧
      Machine.run (step cfg) r' rest = some u := by
  cases ls with
  | nil =>
    cases hrun
    obtain ⟨outcome, hdone⟩ := hfinished (!x)
    rw [h.start] at hdone
    cases hdone
  | cons l rest =>
    obtain ⟨y, t⟩ := l
    obtain ⟨r', hstep, hrest⟩ := (Machine.run_cons_eq_some _ _ _ _ _).mp hrun
    by_cases hy : y = x
    · subst hy
      exact ⟨t, rest, r', rfl, hstep, hrest⟩
    · have hyx : y = !x := (Bool.eq_not_iff).mpr hy
      subst hyx
      obtain ⟨d, hd⟩ := h.isOpen
      have hother : Took (r.callers (!!x)) := by
        rw [Bool.not_not]
        exact h.took
      have hdoomed := doomed_lookup cfg r r' (!x) t d h.start hd hother hstep
      exact absurd (doomed_run cfg r' u rest hdoomed hrest) hnot

/-- Of a finished run that closed the deal once, the first three steps are one caller's. -/
theorem closesFirst_of_closedOnce (cfg : Setup) (s : PaperState) (file : Option StateDoc)
    (ledger : List LedgerCall) (d : PaperDeal) (ls : List (Bool × Instant)) (u : Race)
    (hopen : s.openDeals.get? cfg.dealId = some d)
    (hrun : Machine.run (step cfg) (initial s file ledger) ls = some u) (hfinished : Finished u)
    (honce : ClosedOnce cfg s d u) : ClosesFirst cfg ls := by
  have hid : d.id = cfg.dealId := (KeyedDict.get?_mem _ _ _ hopen).2
  have hnot : ¬ Doomed u := fun hu => not_closedOnce_of_doomed cfg s d u hu honce
  cases ls with
  | nil =>
    cases hrun
    obtain ⟨outcome, hdone⟩ := hfinished true
    cases hdone
  | cons l ls =>
    obtain ⟨x, t₁⟩ := l
    obtain ⟨s₁, hs₁, hrun₁⟩ := (Machine.run_cons_eq_some _ _ _ _ _).mp hrun
    rcases step_lookup cfg _ s₁ x t₁ d rfl hopen hs₁ with ⟨_, rfl⟩ | ⟨hprice, rfl⟩
    · exact absurd (doomed_run cfg _ u ls (.inl ⟨x, to_self _ x _⟩) hrun₁) hnot
    · have hlooked : Ahead cfg ((initial s file ledger).to x (.busy .accepted d)) x := by
        refine ⟨?_, to_other _ x (!x) _ (Bool.not_ne_self x), d, hopen⟩
        rw [to_self]
        trivial
      obtain ⟨t₂, ls₂, s₂, rfl, hs₂, hrun₂⟩ :=
        next_of_ahead cfg _ u x ls hlooked hrun₁ hfinished hnot
      simp only [step, to_self, Option.some.injEq] at hs₂
      subst hs₂
      have hmarked : Ahead cfg (busyStep cfg ((initial s file ledger).to x (.busy .accepted d)) x t₂ d
          .accepted) x := by
        refine ⟨?_, ?_, markManual d, ?_⟩
        · rw [busyStep, to_self]
          trivial
        · rw [busyStep, to_other _ x (!x) _ (Bool.not_ne_self x)]
          exact to_other _ x (!x) _ (Bool.not_ne_self x)
        · rw [← hid] at hopen ⊢
          simp only [busyStep, Race.to, initial, PaperState.updateDeal, KeyedDict.get?_modify_self,
            hopen, Option.map_some]
      obtain ⟨t₃, ls₃, s₃, rfl, _, _⟩ :=
        next_of_ahead cfg _ u x ls₂ hmarked hrun₂ hfinished hnot
      exact ⟨x, t₁, t₂, t₃, ls₃, rfl, hprice⟩

/-! ### The second caller comes late -/

/-- The state after the first caller's state close. -/
def booked (s : PaperState) (d : PaperDeal) (price : ℚ) (now : Instant) : PaperState :=
  (s.updateDeal d.id markManual markManual_id).closeDeal d.id price .manual now

/-- The first caller from its state close on: the PnL is booked, then the fee is deducted. -/
def Booked (cfg : Setup) (s : PaperState) (d : PaperDeal) (x : Bool) (now : Instant) :
    Phase → PaperState → Prop
  | .busy .closed d', st => d' = d ∧ st = booked s d (cfg.price x) now
  | .busy .charged d', st =>
    d' = d ∧ st = DealCloseHandler.closeState cfg.takerFee s d (cfg.price x) now
  | .busy .recorded d', st =>
    d' = d ∧ st = DealCloseHandler.closeState cfg.takerFee s d (cfg.price x) now
  | .done outcome, st =>
    outcome = .ok (DealCloseHandler.result cfg.takerFee d (cfg.price x) now .close) ∧
      st = DealCloseHandler.closeState cfg.takerFee s d (cfg.price x) now
  | _, _ => False

/-- The first caller is past its state close, the second finds nothing. -/
structure Alone (cfg : Setup) (s : PaperState) (d : PaperDeal) (x : Bool) (now : Instant)
    (r : Race) : Prop where
  mine : Booked cfg s d x now (r.callers x) r.state
  other : r.callers (!x) = .start ∨ r.callers (!x) = .done (.error (.dealNotFound cfg.dealId))

section Alone

variable (cfg : Setup) (s : PaperState) (d : PaperDeal) (x : Bool) (now : Instant)
  (hopen : s.openDeals.get? d.id = some d)

theorem booked_get? (price : ℚ) : (booked s d price now).openDeals.get? d.id = none := by
  rw [booked, PaperState.closeDeal_openDeals]
  exact KeyedDict.get?_pop_self _ d.id

theorem closeState_get? (takerFee price : ℚ) :
    (DealCloseHandler.closeState takerFee s d price now).openDeals.get? d.id = none :=
  booked_get? s d now price

/-- The deal is gone once the first caller has closed it in the state. -/
theorem booked_gone (phase : Phase) (st : PaperState) (h : Booked cfg s d x now phase st) :
    st.openDeals.get? d.id = none := by
  unfold Booked at h
  split at h
  · rw [h.2]
    exact booked_get? s d now _
  · rw [h.2]
    exact closeState_get? s d now _ _
  · rw [h.2]
    exact closeState_get? s d now _ _
  · rw [h.2]
    exact closeState_get? s d now _ _
  · exact h.elim

include hopen in
/-- The first caller returns what it returns when it is alone. -/
theorem closeResult_closeState :
    closeResult cfg (DealCloseHandler.closeState cfg.takerFee s d (cfg.price x) now) d
        (cfg.price x) =
      DealCloseHandler.result cfg.takerFee d (cfg.price x) now .close := by
  have hstate := DealCloseHandler.actState_eq cfg.takerFee s d (cfg.price x) now .close hopen
  simp only [DealCloseHandler.actState] at hstate
  have hobject : closedObject (DealCloseHandler.closeState cfg.takerFee s d (cfg.price x) now) d =
      DealCloseHandler.closedDeal d (cfg.price x) now .close := by
    rw [closedObject, hstate]
    dsimp only
    rw [List.reverse_append, List.reverse_singleton, List.singleton_append,
      List.find?_cons_of_pos, Option.getD_some]
    exact decide_eq_true rfl
  rw [closeResult, hobject]
  rfl

include hopen in
theorem alone_step (hid : d.id = cfg.dealId) (r : Race) (l : Bool × Instant) (t : Race)
    (h : Alone cfg s d x now r) (hstep : step cfg r l = some t) : Alone cfg s d x now t := by
  obtain ⟨y, now'⟩ := l
  obtain ⟨hmine, hother⟩ := h
  rcases Bool.eq_or_eq_not y x with rfl | rfl
  · have hkept : t.callers (!y) = r.callers (!y) :=
      step_other cfg r t (y, now') (!y) (Bool.not_ne_self y) hstep
    refine ⟨?_, by rw [hkept]; exact hother⟩
    cases hphase : r.callers y with
    | start =>
      rw [hphase] at hmine
      exact hmine.elim
    | busy stage d' =>
      rw [hphase] at hmine
      simp only [step, hphase, Option.some.injEq] at hstep
      rw [← hstep]
      cases stage with
      | accepted => exact hmine.elim
      | computed => exact hmine.elim
      | closed =>
        obtain ⟨rfl, hstate⟩ := hmine
        rw [busyStep, to_self]
        refine ⟨rfl, ?_⟩
        simp only [Race.to, hstate]
        rfl
      | charged =>
        rw [busyStep, to_self]
        exact hmine
      | recorded =>
        obtain ⟨rfl, hstate⟩ := hmine
        rw [busyStep, to_self]
        refine ⟨?_, hstate⟩
        rw [hstate, closeResult_closeState cfg s d' y now hopen]
    | done outcome => exact absurd hphase (step_not_done cfg r t (y, now') outcome hstep)
  · rcases hother with hstart | hdone
    · have hgone := booked_gone cfg s d x now _ _ hmine
      rw [hid] at hgone
      simp only [step, hstart, DealCloseHandler.accept, hgone, Option.some.injEq] at hstep
      rw [← hstep]
      refine ⟨?_, .inr (to_self r (!x) _)⟩
      rw [to_other r (!x) x _ (Bool.self_ne_not x)]
      exact hmine
    · exact absurd hdone (step_not_done cfg r t (!x, now') _ hstep)

end Alone

/-- A caller that closes the deal in the state before the other starts closes it alone. -/
theorem closedOnce_of_closesFirst (cfg : Setup) (s : PaperState) (file : Option StateDoc)
    (ledger : List LedgerCall) (d : PaperDeal) (ls : List (Bool × Instant)) (u : Race)
    (hopen : s.openDeals.get? cfg.dealId = some d)
    (hrun : Machine.run (step cfg) (initial s file ledger) ls = some u) (hfinished : Finished u)
    (hfirst : ClosesFirst cfg ls) : ClosedOnce cfg s d u := by
  have hid : d.id = cfg.dealId := (KeyedDict.get?_mem _ _ _ hopen).2
  have hopen' : s.openDeals.get? d.id = some d := by
    rw [hid]
    exact hopen
  obtain ⟨x, t₁, t₂, t₃, rest, rfl, hprice⟩ := hfirst
  obtain ⟨s₁, hs₁, hrun₁⟩ := (Machine.run_cons_eq_some _ _ _ _ _).mp hrun
  obtain ⟨s₂, hs₂, hrun₂⟩ := (Machine.run_cons_eq_some _ _ _ _ _).mp hrun₁
  obtain ⟨s₃, hs₃, hrun₃⟩ := (Machine.run_cons_eq_some _ _ _ _ _).mp hrun₂
  rcases step_lookup cfg _ s₁ x t₁ d rfl hopen hs₁ with ⟨hnot, _⟩ | ⟨_, rfl⟩
  · exact absurd hprice hnot
  · simp only [step, to_self, Option.some.injEq] at hs₂
    subst hs₂
    simp only [step, busyStep, to_self, Option.some.injEq] at hs₃
    have halone : Alone cfg s d x t₃ s₃ := by
      rw [← hs₃]
      refine ⟨?_, .inl ?_⟩
      · rw [to_self]
        exact ⟨rfl, rfl⟩
      · rw [to_other _ x (!x) _ (Bool.not_ne_self x)]
        simp only [Race.to, Function.update_of_ne (Bool.not_ne_self x)]
        rfl
    have hlast := Machine.run_keeps (step cfg) (Alone cfg s d x t₃)
      (alone_step cfg s d x t₃ hopen' hid) _ u rest halone hrun₃
    obtain ⟨outcome, hdone⟩ := hfinished x
    have hmine := hlast.mine
    rw [hdone] at hmine
    obtain ⟨rfl, hstate⟩ := hmine
    refine ⟨x, t₃, hdone, ?_, hstate⟩
    rcases hlast.other with hstart | hother
    · obtain ⟨outcome', hdone'⟩ := hfinished (!x)
      rw [hstart] at hdone'
      cases hdone'
    · exact hother

/-- Two calls that both return close an open deal once exactly when one with a positive price
has closed it in the state before the other looks it up. -/
theorem closedOnce_iff_closesFirst (cfg : Setup) (s : PaperState) (file : Option StateDoc)
    (ledger : List LedgerCall) (d : PaperDeal) (ls : List (Bool × Instant)) (u : Race)
    (hopen : s.openDeals.get? cfg.dealId = some d)
    (hrun : Machine.run (step cfg) (initial s file ledger) ls = some u) (hfinished : Finished u) :
    ClosedOnce cfg s d u ↔ ClosesFirst cfg ls :=
  ⟨closesFirst_of_closedOnce cfg s file ledger d ls u hopen hrun hfinished,
    closedOnce_of_closesFirst cfg s file ledger d ls u hopen hrun hfinished⟩

/-- A long deal of a tenth, opened at 50000. -/
def longDeal : PaperDeal where
  id := "202601010000-0001"
  botName := "bot"
  symbol := "BTC/USD"
  side := .long
  leverage := 1
  orders := [⟨1, 50000, 1 / 10, 0, .base⟩]
  openedAt := 0

def oneOpen : PaperState := (PaperState.init 1).openDeal longDeal

/-- Both callers close it at 60000. -/
def bothAt60000 : Setup := ⟨1 / 1000, "bot", some "bot", "202601010000-0001", fun _ => 60000⟩

/-- The outcome of a caller that closes the deal. -/
def closedOutcome : Phase :=
  .done (.ok (DealCloseHandler.result (1 / 1000) longDeal 60000 5 .close))

/-- One caller after the other. -/
def oneAfterTheOther : List (Bool × Instant) :=
  [(true, 5), (true, 5), (true, 5), (true, 5), (true, 5), (true, 5), (false, 6)]

/-- The other caller looks the deal up before it is closed. -/
def lookedUpTogether : List (Bool × Instant) :=
  [(true, 5), (false, 5), (true, 5), (true, 5), (true, 5), (true, 5), (true, 5),
    (false, 6), (false, 6), (false, 6), (false, 6), (false, 6)]

theorem finished_of_callers (u : Race) (o o' : Except CloseError CloseResult)
    (h : (u.callers true, u.callers false) = (.done o, .done o')) : Finished u := by
  obtain ⟨htrue, hfalse⟩ := Prod.mk.inj h
  intro x
  cases x with
  | true => exact ⟨o, htrue⟩
  | false => exact ⟨o', hfalse⟩

theorem closedOnce_oneAfterTheOther :
    ∃ u, Machine.run (step bothAt60000) (initial oneOpen none []) oneAfterTheOther = some u ∧
      (ClosedOnce bothAt60000 oneOpen longDeal u ↔ ClosesFirst bothAt60000 oneAfterTheOther) := by
  have hlast : (Machine.run (step bothAt60000) (initial oneOpen none []) oneAfterTheOther).map
      (fun u => (u.callers true, u.callers false)) =
        some (closedOutcome, .done (.error (.dealNotFound "202601010000-0001"))) := by
    decide +kernel
  obtain ⟨u, hrun, hu⟩ := Option.map_eq_some_iff.mp hlast
  exact ⟨u, hrun, closedOnce_iff_closesFirst bothAt60000 oneOpen none [] longDeal oneAfterTheOther u
    (by decide +kernel) hrun (finished_of_callers u _ _ hu)⟩

/-- Two callers that look the deal up before either closes it both succeed. -/
theorem not_closedOnce_lookedUpTogether :
    ¬ ∀ (cfg : Setup) (s : PaperState) (file : Option StateDoc) (ledger : List LedgerCall)
      (d : PaperDeal) (ls : List (Bool × Instant)) (u : Race),
      s.openDeals.get? cfg.dealId = some d →
      Machine.run (step cfg) (initial s file ledger) ls = some u → Finished u →
      ClosedOnce cfg s d u := by
  intro h
  have hlast : (Machine.run (step bothAt60000) (initial oneOpen none []) lookedUpTogether).map
      (fun u => (u.callers true, u.callers false)) = some (closedOutcome, closedOutcome) := by
    decide +kernel
  obtain ⟨u, hrun, hu⟩ := Option.map_eq_some_iff.mp hlast
  obtain ⟨htrue, hfalse⟩ := Prod.mk.inj hu
  obtain ⟨x, now, _, hother, _⟩ := h bothAt60000 oneOpen none [] longDeal lookedUpTogether u
    (by decide +kernel) hrun (finished_of_callers u _ _ hu)
  cases x with
  | true => cases hfalse.symm.trans hother
  | false => cases htrue.symm.trans hother

end ConcurrentClose

end Reverto
