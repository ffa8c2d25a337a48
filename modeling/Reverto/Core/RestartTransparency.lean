import Mathlib.Tactic
import Reverto.Core.EngineLife
import Reverto.Core.EngineTwins

/-!
# A run with restarts and the run without (core/trading_engine.py, paper/state_io.py)

`_write_state` followed by `_load_state` between two ticks keeps every deal but for
the PnL it shows, and rounds the balance to eight decimals.
-/

namespace Reverto

/-- A tick, or a save and a fresh load between two ticks. -/
inductive RestartStep where
  | tick (inp : TickInput)
  | saveLoad (price : ℚ) (isOpen : Bool) (now : Instant) (initialBalanceBtc : ℚ)

/-- No fee was refused for an insufficient balance. -/
def EngineEvent.paid : EngineEvent → Bool
  | .fee _ deducted => deducted
  | _ => true

/-- Half a unit of the last decimal that a written balance has. -/
def restartError : ℚ := 1 / 2 / 10 ^ 8

namespace RestartStep

variable (cfg : BotConfig) (sig : Signals)

/-- The step as it is. -/
def program : RestartStep → EngineM Unit
  | .tick inp => TradingEngine.tick cfg sig inp
  | .saveLoad price isOpen now initialBalanceBtc => do
    TradingEngine.writeState cfg now price isOpen
    Program.modify fun w => { w with engine := bootEngine initialBalanceBtc w.file }

/-- The step without the restart. -/
def uninterrupted : RestartStep → EngineM Unit
  | .tick inp => TradingEngine.tick cfg sig inp
  | .saveLoad .. => pure ()

/-- The step is a restart. -/
def isRestart : RestartStep → Bool
  | .saveLoad .. => true
  | .tick _ => false

/-- A tick of the step has a positive price. -/
def PricePos : RestartStep → Prop
  | .tick inp => ∀ t, inp.ticker = .ok t → 0 < t.tickPrice
  | .saveLoad .. => True

/-- How many restarts the steps contain. -/
def restarts (steps : List RestartStep) : ℕ := steps.countP isRestart

/-- The run with restarts trades as the run without, and its balance is as close as the
roundings are. -/
def Transparent (steps : List RestartStep) (w : World) : Prop :=
  (Program.runAll (program cfg sig) steps w).1.filter EngineEvent.isTrade =
      (Program.runAll (uninterrupted cfg sig) steps w).1.filter EngineEvent.isTrade ∧
    |(Program.runAll (program cfg sig) steps w).2.engine.state.balanceBtc -
        (Program.runAll (uninterrupted cfg sig) steps w).2.engine.state.balanceBtc| ≤
      restarts steps * restartError

/-! ### One restart -/

/-- A loaded engine has the deals that were saved, but for the PnL they show. -/
theorem loadOpenDeals_unshown (deals : OpenDeals) (price : ℚ) (doc : StateDoc)
    (h : doc.openDeals = deals.items.map fun d => dealToDict d price) :
    OpenDeals.unshown doc.loadOpenDeals = OpenDeals.unshown deals := by
  have hitems : doc.loadOpenDeals.items = doc.openDeals.map dictToDeal := by
    refine KeyedDict.ofList_items _ ?_
    rw [h, List.map_map, List.map_map]
    exact deals.nodup
  apply KeyedDict.ext
  simp only [OpenDeals.unshown, KeyedDict.mapValues_items]
  rw [hitems, h, List.map_map, List.map_map]
  rfl

theorem alike_saveLoad {δ : ℚ} {w v : World} (h : Alike δ w v) (hrunning : v.engine.running = true)
    (price : ℚ) (isOpen : Bool) (now : Instant) (initialBalanceBtc : ℚ) :
    Alike (δ + restartError)
      (program cfg sig (.saveLoad price isOpen now initialBalanceBtc) w).state v := by
  refine ⟨?_, ?_, h.paused, hrunning.symm⟩
  · exact (loadOpenDeals_unshown w.engine.state.openDeals price
      (writeStateDoc cfg w.engine price isOpen now) rfl).trans h.deals
  · have hround := Decimal.roundTo_near 8 w.engine.state.balanceBtc
    show |Decimal.roundTo 8 w.engine.state.balanceBtc - v.engine.state.balanceBtc| ≤ δ + restartError
    calc |Decimal.roundTo 8 w.engine.state.balanceBtc - v.engine.state.balanceBtc|
        ≤ |Decimal.roundTo 8 w.engine.state.balanceBtc - w.engine.state.balanceBtc| +
            |w.engine.state.balanceBtc - v.engine.state.balanceBtc| := abs_sub_le _ _ _
      _ ≤ restartError + δ := add_le_add hround h.balance
      _ = δ + restartError := add_comm _ _

/-! ### The run -/

section Disabled

variable (hguard : cfg.drawdownGuard.enabled = false)
include hguard

theorem drawdownStep_disabled (price : ℚ) (e : EngineState) :
    TradingEngine.drawdownStep cfg price e = e := by
  simp [TradingEngine.drawdownStep, hguard]

/-- Without the guard nothing stops the loop. -/
theorem tick_running (inp : TickInput) (w : World) :
    (TradingEngine.tick cfg sig inp w).state.engine.running = w.engine.running := by
  have hframe := Program.traceRel_frame (ω := EngineEvent) fun w : World => w.engine.running
  refine TradingEngine.tick_respects cfg sig _ hframe inp ?_ (fun _ _ => rfl) ?_ (fun _ _ => rfl) ?_ w
  · intro v
    exact TradingEngine.hooked_running inp v
  · intro price op hop v
    by_cases hdrawdown : ∃ p, op = .drawdown p
    · obtain ⟨p, rfl⟩ := hdrawdown
      show (TradingEngine.drawdownStep cfg p v.engine).running = v.engine.running
      rw [drawdownStep_disabled cfg hguard]
    · obtain ⟨s, fees, p, hop'⟩ := TradingEngine.accountOnly_op cfg sig op
        (fun p hp => hdrawdown ⟨p, hp⟩) (fun inp hp => by subst hp; cases hop)
        (fun hp => by subst hp; cases hop) v
      show (op.program cfg sig v).state.engine.running = v.engine.running
      rw [hop']
  · intro v
    exact (TradingEngine.postTick_running v).1

/-- Side by side, step by step. -/
theorem transparent_steps (steps : List RestartStep) (δ : ℚ) (w v : World) (h : Alike δ w v)
    (hrunning : v.engine.running = true)
    (hw : ∀ e ∈ (Program.runAll (program cfg sig) steps w).1, e.paid = true)
    (hv : ∀ e ∈ (Program.runAll (uninterrupted cfg sig) steps v).1, e.paid = true) :
    (Program.runAll (program cfg sig) steps w).1.filter EngineEvent.isTrade =
        (Program.runAll (uninterrupted cfg sig) steps v).1.filter EngineEvent.isTrade ∧
      Alike (δ + restarts steps * restartError) (Program.runAll (program cfg sig) steps w).2
        (Program.runAll (uninterrupted cfg sig) steps v).2 := by
  induction steps generalizing δ w v with
  | nil =>
    refine ⟨rfl, ?_⟩
    show Alike (δ + ((0 : ℕ) : ℚ) * restartError) w v
    rw [Nat.cast_zero, zero_mul, add_zero]
    exact h
  | cons step steps ih =>
    cases step with
    | tick inp =>
      have hpaid : δ = 0 ∨ ∀ fee, ¬ (EngineEvent.fee fee false).paid = true :=
        Or.inr fun fee hfee => by cases hfee
      obtain ⟨htrades, halike⟩ := TradingEngine.tick_twins cfg sig (Q := fun e => e.paid = true) hpaid h
        inp (fun _ _ _ hloop => by
          unfold LiveEngine.atTrigger
          rw [drawdownStep_disabled cfg hguard, drawdownStep_disabled cfg hguard]
          exact hloop)
        (fun e he => hw e (List.mem_append_left _ he)) (fun e he => hv e (List.mem_append_left _ he))
      have hnext := ih δ _ _ halike
        ((tick_running cfg sig hguard inp v).trans hrunning)
        (fun e he => hw e (List.mem_append_right _ he)) (fun e he => hv e (List.mem_append_right _ he))
      have hboth : ((TradingEngine.tick cfg sig inp w).log ++
            (Program.runAll (program cfg sig) steps (TradingEngine.tick cfg sig inp w).state).1).filter
              EngineEvent.isTrade =
          ((TradingEngine.tick cfg sig inp v).log ++
            (Program.runAll (uninterrupted cfg sig) steps
              (TradingEngine.tick cfg sig inp v).state).1).filter EngineEvent.isTrade := by
        rw [List.filter_append, List.filter_append, htrades, hnext.1]
      exact ⟨hboth, hnext.2⟩
    | saveLoad price isOpen now initialBalanceBtc =>
      have halike := alike_saveLoad cfg sig h hrunning price isOpen now initialBalanceBtc
      have hnext := ih (δ + restartError) _ v halike hrunning hw hv
      refine ⟨hnext.1, ?_⟩
      have hsum : δ + restarts (.saveLoad price isOpen now initialBalanceBtc :: steps) * restartError =
          δ + restartError + restarts steps * restartError := by
        simp only [restarts, List.countP_cons, isRestart, if_true]
        push_cast
        ring
      rw [hsum]
      exact hnext.2

/-- With the guard disabled restarts between ticks are transparent, provided neither run
has a fee refused. -/
theorem transparent_of_paid (w : World) (hrunning : w.engine.running = true)
    (steps : List RestartStep)
    (hpaid : ∀ e ∈ (Program.runAll (uninterrupted cfg sig) steps w).1, e.paid = true)
    (hpaid' : ∀ e ∈ (Program.runAll (program cfg sig) steps w).1, e.paid = true) :
    Transparent cfg sig steps w := by
  have hself : Alike 0 w w := ⟨rfl, by rw [sub_self, abs_zero], rfl, rfl⟩
  obtain ⟨htrades, halike⟩ :=
    transparent_steps cfg sig hguard steps 0 w w hself hrunning hpaid' hpaid
  refine ⟨htrades, ?_⟩
  have hclose := halike.balance
  rw [zero_add] at hclose
  exact hclose

end Disabled

/-! ### A restart between two ticks -/

/-- A tick that opens a deal by hand where none is open. -/
def openAt (price : ℚ) : RestartStep := .tick { TickInput.atPrice price with manualTrigger := true }

/-- A restart between two ticks at a price. -/
def restartBetween (price : ℚ) : List RestartStep :=
  [openAt price, .saveLoad price true 0 (1 / 10), openAt price]

theorem transparent_restartBetween :
    Transparent (.small "grid") .silent (restartBetween 100) (freshWorld (1 / 10)) :=
  transparent_of_paid (.small "grid") .silent rfl (freshWorld (1 / 10)) rfl (restartBetween 100)
    (by decide +kernel) (by decide +kernel)

/-- A base order whose fee has ten decimals. -/
def oddFeeBot : BotConfig := .ofBaseOrder "grid" (100005 / 10000000) (by norm_num)

/-- The balance covers the fee exactly until it is rounded. -/
theorem not_transparent_oddFee :
    ¬ ∀ (cfg : BotConfig) (sig : Signals) (w : World) (steps : List RestartStep),
      cfg.drawdownGuard.enabled = false → w.engine.running = true →
      (∀ s ∈ steps, s.PricePos) →
      (∀ e ∈ (Program.runAll (uninterrupted cfg sig) steps w).1, e.paid = true) →
        Transparent cfg sig steps w := by
  intro h
  have hbalance := (h oddFeeBot .silent (freshWorld (oddFeeBot.dca.baseOrderSize * oddFeeBot.dca.takerFee))
    [.saveLoad 100 true 0 (1 / 10), openAt 100] rfl rfl ?_ (by decide +kernel)).2
  · revert hbalance
    decide +kernel
  · intro s hs
    rcases List.mem_pair.mp hs with rfl | rfl
    · trivial
    · intro t ht
      cases ht
      decide +kernel

end RestartStep

end Reverto
