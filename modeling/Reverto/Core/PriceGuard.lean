import Mathlib.Tactic
import Reverto.Core.EngineSteps

/-!
# Ticks at a price that is not positive (core/trading_engine.py)

The adapter hands out 0 for a missing price. The close handler rejects such a
price; the monitoring loop, the entry and the manual trigger act on it. This
module says when a tick meets no fill at a price that is not positive.
-/

namespace Reverto

namespace PriceGuard

open TradingEngine

variable (cfg : BotConfig) (sig : Signals) (c : Candles) (price : ℚ)

/-! ### The round of one deal -/

/-- How the round of the monitoring loop on a deal ends. -/
inductive RoundEnd where
  | aborts
  | closes (fillPrice : ℚ)
  | fills
  | rests
  deriving DecidableEq, Repr

/-- The DCA check of a round in which `n` rungs were filled before. -/
def dcaEnd (n : ℕ) (d : PaperDeal) : RoundEnd :=
  if maxDcaPerTick ≤ n then .rests
  else match dcaVerdict cfg d price with
    | .error _ => .aborts
    | .ok true => .fills
    | .ok false => .rests

/-- Stop loss and DCA check of a round. -/
def tailEnd (n : ℕ) (d : PaperDeal) : RoundEnd :=
  match (slSettings cfg d).map (slVerdict cfg d price) with
  | some (.error _) => .aborts
  | some (.ok true) => .closes price
  | _ => dcaEnd cfg price n d

/-- The round of a deal. -/
def roundEnd (n : ℕ) (d : PaperDeal) : RoundEnd :=
  match tpVerdict cfg sig c d price with
  | .error _ => .aborts
  | .ok (.priceFill f) => .closes f
  | .ok (.indicatorFill _) => .closes price
  | .ok _ => tailEnd cfg price n d

/-- The stop loss of the round moves the trailing peak. -/
def peakMoves (d : PaperDeal) : Bool :=
  match slSettings cfg d with
  | some (.trailing, _) => decide (newPeak cfg d price ≠ d.peakPrice)
  | _ => false

/-- The take profit leaves the deal to the stop loss. -/
def tpPasses (d : PaperDeal) : Bool :=
  decide (tpVerdict cfg sig c d price = .ok .idle ∨ tpVerdict cfg sig c d price = .ok .held)

/-! ### The fills of a log -/

/-- The price of an opening, a DCA fill, or a close by take profit or stop loss. -/
def fillPrice : EngineEvent → Option ℚ
  | .opened _ p => some p
  | .dcaFilled _ p => some p
  | .tpClosed _ p _ => some p
  | .slClosed _ p => some p
  | _ => none

/-- The fill prices of a log. -/
def fillPrices (l : List EngineEvent) : List ℚ := l.filterMap fillPrice

@[simp] theorem fillPrices_append (l l' : List EngineEvent) :
    fillPrices (l ++ l') = fillPrices l ++ fillPrices l' := List.filterMap_append

@[simp] theorem fillPrices_closeLog (now : Instant) (d : PaperDeal) (f : ℚ) (r : CloseReason)
    (t : ExitTrigger) (w : World) : fillPrices (closeLog cfg now d f r t w) = [] := rfl

/-! ### What a round does -/

/-- The number of closed deals. -/
def closedCount (w : World) : ℕ := w.engine.state.closedDeals.length

theorem afterClose_deal? (now : Instant) (d : PaperDeal) (f : ℚ) (r : CloseReason)
    (t : ExitTrigger) (w : World) : (afterClose cfg now d f r t w).deal? d.id = none := by
  have hopen : (afterClose cfg now d f r t w).engine.state.openDeals
      = w.engine.state.openDeals.pop d.id := booked_openDeals now d f r t w
  simp only [World.deal?, hopen]
  exact KeyedDict.get?_pop_self _ _

theorem afterClose_closedCount (now : Instant) (d e : PaperDeal) (f : ℚ) (r : CloseReason)
    (t : ExitTrigger) (w : World) (h : w.deal? d.id = some e) :
    closedCount (afterClose cfg now d f r t w) = closedCount w + 1 := by
  have hclosed := booked_closedDeals now d e f r t w h
  have hafter : (afterClose cfg now d f r t w).engine.state.closedDeals =
      (booked now d f r t w).engine.state.closedDeals := rfl
  rw [closedCount, hafter, hclosed, List.length_append, List.length_singleton, closedCount]

/-- The deal in the world once its trailing peak is updated. -/
theorem peaked_spec (d : PaperDeal) (t : SlType) (w : World) (h : w.deal? d.id = some d) :
    ∃ e, (peaked cfg d price t w).deal? d.id = some e ∧ e.orders = d.orders ∧
      e.side = d.side ∧ e.dcaEnabled = d.dcaEnabled ∧
      (t = .trailing → e.peakPrice = newPeak cfg d price) ∧
      (t ≠ .trailing ∨ newPeak cfg d price = d.peakPrice → peaked cfg d price t w = w) ∧
      closedCount (peaked cfg d price t w) = closedCount w := by
  have hw : w.engine.state.openDeals.get? d.id = some d := h
  by_cases ht : t = .trailing
  · have hp : peaked cfg d price t w =
        World.onDeal d.id (fun e => { e with peakPrice := newPeak cfg d price })
          (fun _ => rfl) w := if_pos ht
    rw [hp]
    refine ⟨{ d with peakPrice := newPeak cfg d price }, ?_, rfl, rfl, rfl, fun _ => rfl,
      ?_, rfl⟩
    · simp only [World.onDeal, World.deal?, World.onState_state, PaperState.updateDeal,
        KeyedDict.get?_modify_self, hw, Option.map_some]
    · rintro (hne | hpeak)
      · exact absurd ht hne
      · have hsame := KeyedDict.modify_eq_self w.engine.state.openDeals d.id
          (fun e => { e with peakPrice := newPeak cfg d price }) (fun _ => rfl) fun a ha => by
            have had := Option.some.inj (ha.symm.trans hw)
            rw [had, hpeak]
        simp only [World.onDeal, World.onState, PaperState.updateDeal, hsame]
  · have hp : peaked cfg d price t w = w := if_neg ht
    rw [hp]
    exact ⟨d, h, rfl, rfl, rfl, fun h' => absurd h' ht, fun _ => rfl, rfl⟩

theorem dcaVerdict_congr (d e : PaperDeal) (ho : e.orders = d.orders) (hs : e.side = d.side)
    (he : e.dcaEnabled = d.dcaEnabled) : dcaVerdict cfg e price = dcaVerdict cfg d price := by
  have hcount : e.dcaCount = d.dcaCount := by simp only [PaperDeal.dcaCount, ho]
  simp only [dcaVerdict, dcaAllowed, dcaTriggered, dcaStep, hcount, ho, hs, he]
  rfl

/-- What the DCA check of a round does. -/
def dcaRound (now : Instant) (n : ℕ) (dealId : String) : EngineM ℕ :=
  whileOpen dealId n fun d =>
    if maxDcaPerTick ≤ n then pure n
    else do
      let placed ← checkDca cfg now d price
      pure (if placed then n + 1 else n)

/-- The deal is open with another peak. -/
def PeakMoved (d : PaperDeal) (w : World) : Prop :=
  ∃ e, w.deal? d.id = some e ∧ e.peakPrice ≠ d.peakPrice

/-- A round without a fill leaves the world as it was, unless the peak moved. -/
def Settled (d : PaperDeal) (w : World) (still : Bool) (w' : World) : Prop :=
  (still = true → w' = w) ∧ (still = false → PeakMoved d w')

/-- The outcome of a round on `d` from `w`, `n` rungs filled before, that ends in
the given way. `still` says that the trailing peak stays where it is. -/
def EndsAs (n : ℕ) (d : PaperDeal) (w : World) (still : Bool)
    (o : Program.Outcome PyError EngineEvent World ℕ) : RoundEnd → Prop
  | .aborts =>
    (∃ x, o.result = .error x) ∧ fillPrices o.log = [] ∧ Settled d w still o.state
  | .closes f =>
    o.result = .ok n ∧ fillPrices o.log = [f] ∧ closedCount o.state = closedCount w + 1
  | .fills => o.result = .ok (n + 1) ∧ fillPrices o.log = [price]
  | .rests => o.result = .ok n ∧ fillPrices o.log = [] ∧ Settled d w still o.state

theorem settled_still (d : PaperDeal) (w w' : World) (h : w' = w) : Settled d w true w' :=
  ⟨fun _ => h, fun hf => by cases hf⟩

theorem dcaRound_spec (now : Instant) (n : ℕ) (d e : PaperDeal) (w : World)
    (h : w.deal? d.id = some e) (ho : e.orders = d.orders) (hs : e.side = d.side)
    (he : e.dcaEnabled = d.dcaEnabled) :
    EndsAs price n d w true (dcaRound cfg price now n d.id w) (dcaEnd cfg price n d) ∧
      ∀ f, dcaEnd cfg price n d ≠ .closes f := by
  have hv := dcaVerdict_congr cfg price d e ho hs he
  simp only [dcaRound, whileOpen_run, h, dcaEnd]
  split_ifs with hn
  · exact ⟨⟨rfl, rfl, settled_still d w w rfl⟩, fun f => by simp⟩
  · cases hd : dcaVerdict cfg d price with
    | error x =>
      rw [hd] at hv
      have hrun : checkDca cfg now e price w = ⟨.error x, [], w⟩ := by rw [checkDca_run, hv]
      rw [Program.bind_error _ _ _ x (by rw [hrun]), hrun]
      exact ⟨⟨⟨x, rfl⟩, rfl, settled_still d w w rfl⟩, fun f => by simp⟩
    | ok b =>
      rw [hd] at hv
      cases b with
      | false =>
        have hrun : checkDca cfg now e price w = ⟨.ok false, [], w⟩ := by rw [checkDca_run, hv]
        rw [Program.bind_ok _ _ _ false (by rw [hrun]), hrun]
        exact ⟨⟨rfl, rfl, settled_still d w w rfl⟩, fun f => by simp⟩
      | true =>
        have hrun : checkDca cfg now e price w =
            ⟨.ok true, dcaLog cfg now e price w, afterDca cfg now e price w⟩ := by
          rw [checkDca_run, hv]
        rw [Program.bind_ok _ _ _ true (by rw [hrun]), hrun]
        exact ⟨⟨rfl, rfl⟩, fun f => by simp⟩

/-- A deal that was closed in the round is left alone by its DCA check. -/
theorem dcaRound_closed (now : Instant) (n : ℕ) (i : String) (w : World) (h : w.deal? i = none) :
    dcaRound cfg price now n i w = ⟨.ok n, [], w⟩ := by
  simp only [dcaRound, whileOpen_run, h]

/-- The stop loss of a round. -/
def slRound (now : Instant) (dealId : String) : EngineM Unit :=
  whileOpen dealId () fun d => checkSl cfg now d price

theorem monitorTail_eq (inp : TickInput) (n : ℕ) (i : String) :
    monitorTail cfg inp price n i =
      slRound cfg price inp.now i >>= fun _ => dcaRound cfg price inp.now n i := rfl

/-- Stop loss and DCA of a round, by how it ends. -/
theorem monitorTail_spec (inp : TickInput) (n : ℕ) (d : PaperDeal) (w : World)
    (h : w.deal? d.id = some d) :
    EndsAs price n d w (!peakMoves cfg price d) (monitorTail cfg inp price n d.id w)
      (tailEnd cfg price n d) := by
  rw [monitorTail_eq]
  -- after a stop loss that did not close, the DCA check sees the same ladder
  have hkeep : ∀ (v : World) (e : PaperDeal),
      slRound cfg price inp.now d.id w = ⟨.ok (), [], v⟩ → v.deal? d.id = some e →
      e.orders = d.orders → e.side = d.side → e.dcaEnabled = d.dcaEnabled →
      Settled d w (!peakMoves cfg price d) v →
      EndsAs price n d w (!peakMoves cfg price d)
        ((slRound cfg price inp.now d.id >>= fun _ => dcaRound cfg price inp.now n d.id) w)
        (dcaEnd cfg price n d) := by
    intro v e hrun he ho hs hd hpeak
    obtain ⟨hspec, hclose⟩ := dcaRound_spec cfg price inp.now n d e v he ho hs hd
    rw [Program.bind_ok _ _ _ () (by rw [hrun]), hrun]
    simp only [List.nil_append]
    cases hend : dcaEnd cfg price n d with
    | closes f => exact absurd hend (hclose f)
    | aborts =>
      rw [hend] at hspec
      refine ⟨hspec.1, hspec.2.1, ?_⟩
      simp only [hspec.2.2.1 rfl]
      exact hpeak
    | fills =>
      rw [hend] at hspec
      exact hspec
    | rests =>
      rw [hend] at hspec
      refine ⟨hspec.1, hspec.2.1, ?_⟩
      simp only [hspec.2.2.1 rfl]
      exact hpeak
  unfold tailEnd
  cases hsl : slSettings cfg d with
  | none =>
    have hrun : slRound cfg price inp.now d.id w = ⟨.ok (), [], w⟩ := by
      simp only [slRound, whileOpen_run, h, checkSl_run, hsl]
    have hstill : peakMoves cfg price d = false := by simp [peakMoves, hsl]
    refine hkeep w d hrun h rfl rfl rfl ?_
    rw [hstill]
    exact settled_still d w w rfl
  | some s =>
    obtain ⟨e, he, ho, hs, hd, hpeak, hsame, hcount⟩ := peaked_spec cfg price d s.1 w h
    have hmoves : Settled d w (!peakMoves cfg price d) (peaked cfg d price s.1 w) := by
      by_cases ht : s.1 = .trailing
      · have hs' : s = (.trailing, s.2) := Prod.ext ht rfl
        have hdef : peakMoves cfg price d = decide (newPeak cfg d price ≠ d.peakPrice) := by
          rw [peakMoves, hsl, hs']
        rw [hdef]
        constructor
        · intro hp
          exact hsame (Or.inr (by simpa using hp))
        · intro hp
          refine ⟨e, he, ?_⟩
          rw [hpeak ht]
          simpa using hp
      · have hdef : peakMoves cfg price d = false := by
          rw [peakMoves, hsl]
          split
          · rename_i h'
            cases h'
            exact absurd rfl ht
          · rfl
        rw [hdef]
        exact settled_still d w _ (hsame (Or.inl ht))
    simp only [Option.map_some]
    cases hv : slVerdict cfg d price s with
    | error x =>
      have hrun : slRound cfg price inp.now d.id w =
          ⟨.error x, [], peaked cfg d price s.1 w⟩ := by
        simp only [slRound, whileOpen_run, h, checkSl_run, hsl, hv]
      rw [Program.bind_error _ _ _ x (by rw [hrun]), hrun]
      exact ⟨⟨x, rfl⟩, rfl, hmoves⟩
    | ok hit =>
      cases hit with
      | false =>
        have hrun : slRound cfg price inp.now d.id w =
            ⟨.ok (), [], peaked cfg d price s.1 w⟩ := by
          simp only [slRound, whileOpen_run, h, checkSl_run, hsl, hv]
        exact hkeep _ e hrun he ho hs hd hmoves
      | true =>
        have hrun : slRound cfg price inp.now d.id w =
            ⟨.ok (), closeLog cfg inp.now d price .sl (slTrigger s.1) (peaked cfg d price s.1 w) ++
              [.slClosed d.id price],
              afterClose cfg inp.now d price .sl (slTrigger s.1) (peaked cfg d price s.1 w)⟩ := by
          simp only [slRound, whileOpen_run, h, checkSl_run, hsl, hv]
        have hgone := afterClose_deal? cfg inp.now d price .sl (slTrigger s.1)
          (peaked cfg d price s.1 w)
        have hclosed := afterClose_closedCount cfg inp.now d e price .sl (slTrigger s.1)
          (peaked cfg d price s.1 w) he
        rw [Program.bind_ok _ _ _ () (by rw [hrun]), hrun]
        simp only [dcaRound_closed cfg price inp.now n d.id _ hgone]
        exact ⟨rfl, rfl, hclosed.trans (congrArg (· + 1) hcount)⟩

/-- A round of a tick, by how it ends. -/
theorem monitorDeal_spec (inp : TickInput) (n : ℕ) (d : PaperDeal) (w : World)
    (h : w.deal? d.id = some d) :
    EndsAs price n d w (!(tpPasses cfg sig inp.candles price d && peakMoves cfg price d))
      (monitorDeal cfg sig inp.candles inp.now price n d.id w)
      (roundEnd cfg sig inp.candles price n d) := by
  have htail := monitorTail_spec cfg price inp n d w h
  -- a round whose take profit filled at `f`
  have hclose : ∀ f t still,
      EngineOp.program cfg sig (.takeProfit inp.candles inp.now price d.id) w =
        ⟨.ok (), closeLog cfg inp.now d f .tp t w ++ [.tpClosed d.id f t],
          afterClose cfg inp.now d f .tp t w⟩ →
      EndsAs price n d w still (monitorDeal cfg sig inp.candles inp.now price n d.id w)
        (.closes f) := by
    intro f t still hrun
    have hgone := afterClose_deal? cfg inp.now d f .tp t w
    have hcount := afterClose_closedCount cfg inp.now d d f .tp t w h
    have hsl : slRound cfg price inp.now d.id (afterClose cfg inp.now d f .tp t w) =
        ⟨.ok (), [], afterClose cfg inp.now d f .tp t w⟩ := by
      simp only [slRound, whileOpen_run, hgone]
    have hrest : monitorTail cfg inp price n d.id (afterClose cfg inp.now d f .tp t w) =
        ⟨.ok n, [], afterClose cfg inp.now d f .tp t w⟩ := by
      rw [monitorTail_eq, Program.bind_ok _ _ _ () (by rw [hsl]), hsl,
        dcaRound_closed cfg price inp.now n d.id _ hgone]
      rfl
    rw [monitorDeal_eq, Program.bind_ok _ _ _ () (by rw [hrun]), hrun, hrest]
    exact ⟨rfl, rfl, hcount⟩
  have hprog : EngineOp.program cfg sig (.takeProfit inp.candles inp.now price d.id) w =
      checkTp cfg sig inp.candles inp.now d price w := by
    simp only [EngineOp.program, whileOpen_run, h]
  rw [checkTp_run] at hprog
  unfold roundEnd
  cases hv : tpVerdict cfg sig inp.candles d price with
  | error x =>
    rw [hv] at hprog
    have hpass : tpPasses cfg sig inp.candles price d = false := by simp [tpPasses, hv]
    rw [monitorDeal_eq, Program.bind_error _ _ _ x (by rw [hprog]), hprog, hpass, Bool.false_and]
    exact ⟨⟨x, rfl⟩, rfl, settled_still d w w rfl⟩
  | ok v =>
    rw [hv] at hprog
    cases v with
    | priceFill f => exact hclose f .priceTp _ hprog
    | indicatorFill info => exact hclose price _ _ hprog
    | idle =>
      have hpass : tpPasses cfg sig inp.candles price d = true := by simp [tpPasses, hv]
      rw [monitorDeal_eq, Program.bind_ok _ _ _ () (by rw [hprog]), hprog, hpass, Bool.true_and]
      exact htail
    | held =>
      have hpass : tpPasses cfg sig inp.candles price d = true := by simp [tpPasses, hv]
      rw [monitorDeal_eq, Program.bind_ok _ _ _ () (by rw [hprog]), hprog, hpass, Bool.true_and]
      cases hend : tailEnd cfg price n d with
      | aborts =>
        rw [hend] at htail
        exact htail
      | closes f =>
        rw [hend] at htail
        exact htail
      | fills =>
        rw [hend] at htail
        exact htail
      | rests =>
        rw [hend] at htail
        exact htail

/-! ### The monitoring loop -/

/-- No round of the loop fills at a price that is not positive, the price of
the tick being positive. -/
def FillsPositive : ℕ → List PaperDeal → Prop
  | _, [] => True
  | n, d :: ds =>
    match roundEnd cfg sig c price n d with
    | .aborts => True
    | .closes f => 0 < f ∧ FillsPositive n ds
    | .fills => FillsPositive (n + 1) ds
    | .rests => FillsPositive n ds

/-- How the loop ends as long as nothing is filled. -/
inductive LoopEnd where
  | acts
  | aborts
  | rests
  deriving DecidableEq, Repr

/-- The loop over deals, up to the first fill or moved peak. -/
def loopEnd : List PaperDeal → LoopEnd
  | [] => .rests
  | d :: ds =>
    if tpPasses cfg sig c price d && peakMoves cfg price d then .acts
    else match roundEnd cfg sig c price 0 d with
      | .aborts => .aborts
      | .closes _ => .acts
      | .fills => .acts
      | .rests => loopEnd ds

/-- The loop meets the deals as they were before it. -/
def Meets (w : World) (ds : List PaperDeal) : Prop :=
  (ds.map PaperDeal.id).Nodup ∧ ∀ d ∈ ds, w.deal? d.id = some d

theorem meets_tail (inp : TickInput) (n : ℕ) (d : PaperDeal) (ds : List PaperDeal) (w : World)
    (h : Meets w (d :: ds)) :
    Meets (monitorDeal cfg sig inp.candles inp.now price n d.id w).state ds := by
  obtain ⟨hnodup, hmeet⟩ := h
  rw [List.map_cons, List.nodup_cons] at hnodup
  refine ⟨hnodup.2, fun e he => ?_⟩
  have hne : e.id ≠ d.id := fun hed => hnodup.1 (hed ▸ List.mem_map_of_mem he)
  rw [monitorDeal_other cfg sig inp price n d.id e.id hne w]
  exact hmeet e (List.mem_cons_of_mem _ he)

theorem monitorDeals_cons (inp : TickInput) (n : ℕ) (i : String) (ids : List String) :
    monitorDeals cfg sig inp.candles inp.now price n (i :: ids) =
      monitorDeal cfg sig inp.candles inp.now price n i >>= fun m =>
        monitorDeals cfg sig inp.candles inp.now price m ids := rfl

/-- At a positive price the loop fills at positive prices exactly when no take
profit of a round has a target that is not positive. -/
theorem monitorDeals_positive_iff (hp : 0 < price) (inp : TickInput) (ds : List PaperDeal) (n : ℕ)
    (w : World) (h : Meets w ds) :
    (∀ q ∈ fillPrices (monitorDeals cfg sig inp.candles inp.now price n
        (ds.map PaperDeal.id) w).log, 0 < q) ↔ FillsPositive cfg sig inp.candles price n ds := by
  induction ds generalizing n w with
  | nil => exact ⟨fun _ => trivial, fun _ q hq => by cases hq⟩
  | cons d ds ih =>
    have hspec := monitorDeal_spec cfg sig price inp n d w (h.2 d (List.mem_cons_self ..))
    have htail := meets_tail cfg sig price inp n d ds w h
    rw [List.map_cons, monitorDeals_cons, FillsPositive]
    cases hend : roundEnd cfg sig inp.candles price n d with
    | aborts =>
      rw [hend] at hspec
      obtain ⟨⟨x, hx⟩, hfill, _⟩ := hspec
      rw [Program.bind_error _ _ _ x hx]
      simp [hfill]
    | closes f =>
      rw [hend] at hspec
      obtain ⟨hx, hfill, _⟩ := hspec
      rw [Program.bind_ok _ _ _ n hx]
      simp only [fillPrices_append, hfill, List.singleton_append, List.forall_mem_cons]
      rw [ih n _ htail]
    | fills =>
      rw [hend] at hspec
      obtain ⟨hx, hfill⟩ := hspec
      rw [Program.bind_ok _ _ _ (n + 1) hx]
      simp only [fillPrices_append, hfill, List.singleton_append, List.forall_mem_cons]
      rw [ih (n + 1) _ htail]
      exact and_iff_right hp
    | rests =>
      rw [hend] at hspec
      obtain ⟨hx, hfill, _⟩ := hspec
      rw [Program.bind_ok _ _ _ n hx]
      simp only [fillPrices_append, hfill, List.nil_append]
      exact ih n _ htail

/-- What can be seen of a loop that acted. -/
def Acted (ds : List PaperDeal) (w : World) (l : List EngineEvent) (w' : World) : Prop :=
  price ∈ fillPrices l ∨ closedCount w < closedCount w' ∨ ∃ d ∈ ds, PeakMoved d w'

theorem closedCount_mono (w w' : World) (h : HistoryGrows w w') : closedCount w ≤ closedCount w' := by
  obtain ⟨ds, hds, _⟩ := h
  unfold closedCount
  rw [hds, List.length_append]
  omega

theorem monitorDeals_history (inp : TickInput) (n : ℕ) (ids : List String) (w : World) :
    HistoryGrows w (monitorDeals cfg sig inp.candles inp.now price n ids w).state :=
  Program.runsAs_rel _ _ _ historyGrows_traceRel (fun op _ => historyGrows_op cfg sig op) _ _ _
    (monitorDeals_runs cfg sig inp price ids n w)

theorem monitorDeals_other (inp : TickInput) (ids : List String) (n : ℕ) (j : String)
    (h : j ∉ ids) (w : World) :
    (monitorDeals cfg sig inp.candles inp.now price n ids w).state.deal? j = w.deal? j := by
  induction ids generalizing n w with
  | nil => rfl
  | cons i ids ih =>
    have hne : j ≠ i := fun hji => h (hji ▸ List.mem_cons_self ..)
    have hmem : j ∉ ids := fun hj => h (List.mem_cons_of_mem _ hj)
    have hhead := monitorDeal_other cfg sig inp price n i j hne w
    rw [monitorDeals_cons, Program.bind_run]
    split
    · exact hhead
    · exact (ih _ hmem _).trans hhead

/-- How the loop over deals ends, nothing filled before, from `w`. -/
def LoopEndsAs (ds : List PaperDeal) (w : World)
    (o : Program.Outcome PyError EngineEvent World Unit) : LoopEnd → Prop
  | .rests => o.result = .ok () ∧ fillPrices o.log = [] ∧ o.state = w
  | .aborts => (∃ x, o.result = .error x) ∧ fillPrices o.log = [] ∧ o.state = w
  | .acts =>
    price ∈ fillPrices o.log ∨ closedCount w < closedCount o.state ∨ ∃ d ∈ ds, PeakMoved d o.state

/-- What a round did is still seen after the rest of the loop. -/
theorem acted_cons (inp : TickInput) (d : PaperDeal) (ds : List PaperDeal) (w : World)
    (h : Meets w (d :: ds)) (o : Program.Outcome PyError EngineEvent World ℕ)
    (ho : o = monitorDeal cfg sig inp.candles inp.now price 0 d.id w)
    (hacted : price ∈ fillPrices o.log ∨ closedCount w < closedCount o.state ∨
      PeakMoved d o.state) :
    LoopEndsAs price (d :: ds) w
      (monitorDeals cfg sig inp.candles inp.now price 0 (d.id :: ds.map PaperDeal.id) w)
      .acts := by
  have hnot : d.id ∉ ds.map PaperDeal.id := (List.nodup_cons.mp h.1).1
  rw [monitorDeals_cons, Program.bind_run, ← ho]
  split
  · rcases hacted with hfill | hcount | hpeak
    · exact Or.inl hfill
    · exact Or.inr (Or.inl hcount)
    · exact Or.inr (Or.inr ⟨d, List.mem_cons_self .., hpeak⟩)
  · rename_i m _
    rcases hacted with hfill | hcount | ⟨e, he, hpeak⟩
    · left
      rw [fillPrices_append]
      exact List.mem_append_left _ hfill
    · right
      left
      exact hcount.trans_le (closedCount_mono _ _
        (monitorDeals_history cfg sig price inp m (ds.map PaperDeal.id) o.state))
    · right
      right
      refine ⟨d, List.mem_cons_self .., e, ?_, hpeak⟩
      rw [monitorDeals_other cfg sig price inp _ m d.id hnot o.state]
      exact he

/-- Without a fill and without a moved peak the loop leaves the world alone. -/
theorem monitorDeals_quiet (inp : TickInput) (ds : List PaperDeal) (w : World) (h : Meets w ds) :
    LoopEndsAs price ds w
      (monitorDeals cfg sig inp.candles inp.now price 0 (ds.map PaperDeal.id) w)
      (loopEnd cfg sig inp.candles price ds) := by
  induction ds generalizing w with
  | nil => exact ⟨rfl, rfl, rfl⟩
  | cons d ds ih =>
    have hspec := monitorDeal_spec cfg sig price inp 0 d w (h.2 d (List.mem_cons_self ..))
    have hacted := acted_cons cfg sig price inp d ds w h _ rfl
    rw [List.map_cons, loopEnd]
    cases hmove : tpPasses cfg sig inp.candles price d && peakMoves cfg price d with
    | true =>
      rw [hmove] at hspec
      refine hacted ?_
      cases hend : roundEnd cfg sig inp.candles price 0 d with
      | aborts =>
        rw [hend] at hspec
        exact Or.inr (Or.inr (hspec.2.2.2 rfl))
      | closes f =>
        rw [hend] at hspec
        have hcount := hspec.2.2
        exact Or.inr (Or.inl (by omega))
      | fills =>
        rw [hend] at hspec
        exact Or.inl (by rw [hspec.2]; exact List.mem_singleton_self _)
      | rests =>
        rw [hend] at hspec
        exact Or.inr (Or.inr (hspec.2.2.2 rfl))
    | false =>
      rw [hmove] at hspec
      simp only [Bool.false_eq_true, if_false]
      cases hend : roundEnd cfg sig inp.candles price 0 d with
      | aborts =>
        rw [hend] at hspec
        obtain ⟨⟨x, hx⟩, hfill, hstate⟩ := hspec
        rw [monitorDeals_cons, Program.bind_error _ _ _ x hx]
        exact ⟨⟨x, rfl⟩, hfill, hstate.1 rfl⟩
      | closes f =>
        rw [hend] at hspec
        have hcount := hspec.2.2
        exact hacted (Or.inr (Or.inl (by omega)))
      | fills =>
        rw [hend] at hspec
        exact hacted (Or.inl (by rw [hspec.2]; exact List.mem_singleton_self _))
      | rests =>
        rw [hend] at hspec
        obtain ⟨hx, hfill, hstate⟩ := hspec
        have hsame := hstate.1 rfl
        have htail := meets_tail cfg sig price inp 0 d ds w h
        have hrest := ih _ htail
        rw [hsame] at hrest
        rw [monitorDeals_cons, Program.bind_ok _ _ _ 0 hx, hsame]
        cases hloop : loopEnd cfg sig inp.candles price ds with
        | rests =>
          rw [hloop] at hrest
          exact ⟨hrest.1, by rw [fillPrices_append, hfill, hrest.2.1]; rfl, hrest.2.2⟩
        | aborts =>
          rw [hloop] at hrest
          exact ⟨hrest.1, by rw [fillPrices_append, hfill, hrest.2.1]; rfl, hrest.2.2⟩
        | acts =>
          rw [hloop] at hrest
          rcases hrest with hq | hcount | ⟨e, he, hpeak⟩
          · left
            rw [fillPrices_append]
            exact List.mem_append_right _ hq
          · exact Or.inr (Or.inl hcount)
          · exact Or.inr (Or.inr ⟨e, List.mem_cons_of_mem _ he, hpeak⟩)

/-! ### Manual trigger, sentinels and entry -/

/-- The manual trigger opens a deal. -/
def manualOpens (inp : TickInput) (s : PaperState) : Bool :=
  inp.manualTrigger && decide (s.openDeals.items = []) && manualTriggerLiqSafe cfg price &&
    (createWithRetry inp.manualOpen).isSome

/-- The entry opens a deal. -/
def entryOpens (inp : TickInput) (s : PaperState) (paused : Bool) : Bool :=
  inp.isOpen && !paused && decide (s.openDeals.items = []) &&
    decide (inp.candles.closesPerTf cfg.timeframe ≠ []) &&
    (IndicatorEngine.checkEntrySignal cfg sig inp.candles).1 &&
    (createWithRetry inp.entryOpen).isSome

/-- What a sentinel does to the open deals at a price that is not positive. -/
def editOne (ds : OpenDeals) : Sentinel → OpenDeals
  | .edit dealId settings => ds.modify dealId (applySettings settings) (applySettings_id settings)
  | _ => ds

/-- What the sentinels of a tick do. -/
def editAll (sentinels : List Sentinel) (ds : OpenDeals) : OpenDeals := sentinels.foldl editOne ds

/-- The world with other open deals. -/
def withOpenDeals (ds : OpenDeals) (w : World) : World :=
  World.onState (fun s => { s with openDeals := ds }) w

theorem openDeal_fills (now : Instant) (inp : OpenInput) (t : Option GroupTrigger) (w : World)
    (h : (createWithRetry inp).isSome = true) :
    price ∈ fillPrices (openDeal cfg now inp price t w).log := by
  obtain ⟨i, hi⟩ := Option.isSome_iff_exists.mp h
  rw [openDeal_run, hi]
  simp [fillPrices, openLog, fillPrice]

theorem openDeal_refused (now : Instant) (inp : OpenInput) (t : Option GroupTrigger) (w : World)
    (h : (createWithRetry inp).isSome = false) :
    openDeal cfg now inp price t w = ⟨.ok (), [], w⟩ := by
  rw [Option.isSome_eq_false_iff, Option.isNone_iff_eq_none] at h
  rw [openDeal_run, h]

theorem checkManualTrigger_spec (inp : TickInput) (w : World) :
    (manualOpens cfg price inp w.engine.state = true →
      price ∈ fillPrices (checkManualTrigger cfg inp.now inp price w).log) ∧
    (manualOpens cfg price inp w.engine.state = false →
      checkManualTrigger cfg inp.now inp price w = ⟨.ok (), [], w⟩) := by
  have hrun : checkManualTrigger cfg inp.now inp price w =
      (if inp.manualTrigger = true ∧ w.engine.state.openDeals.items = [] ∧
        manualTriggerLiqSafe cfg price = true then openDeal cfg inp.now inp.manualOpen price none
      else pure ()) w := rfl
  rw [hrun]
  constructor
  · intro h
    simp only [manualOpens, Bool.and_eq_true, decide_eq_true_eq] at h
    rw [if_pos ⟨h.1.1.1, h.1.1.2, h.1.2⟩]
    exact openDeal_fills cfg price inp.now inp.manualOpen none w h.2
  · intro h
    split
    · rename_i hcond
      refine openDeal_refused cfg price inp.now inp.manualOpen none w ?_
      simpa [manualOpens, hcond.1, hcond.2.1, hcond.2.2] using h
    · rfl

/-- No entry while a deal is open or no candles have arrived. -/
theorem checkEntry_blocked (inp : TickInput) (w : World)
    (h : ¬ (w.engine.state.openDeals.items = [] ∧ inp.candles.closesPerTf cfg.timeframe ≠ [])) :
    checkEntry cfg sig inp.candles inp.now inp price w = ⟨.ok (), [], w⟩ := by
  simp only [checkEntry, Program.get_bind_run, if_neg h]
  rfl

theorem checkEntry_signal (inp : TickInput) (w : World) (trigger : Option GroupTrigger)
    (h : w.engine.state.openDeals.items = [] ∧ inp.candles.closesPerTf cfg.timeframe ≠ [])
    (hs : IndicatorEngine.checkEntrySignal cfg sig inp.candles = (true, trigger)) :
    checkEntry cfg sig inp.candles inp.now inp price w =
      openDeal cfg inp.now inp.entryOpen price trigger w := by
  simp only [checkEntry, Program.get_bind_run, if_pos h, hs]

theorem checkEntry_no_signal (inp : TickInput) (w : World) (trigger : Option GroupTrigger)
    (h : w.engine.state.openDeals.items = [] ∧ inp.candles.closesPerTf cfg.timeframe ≠ [])
    (hs : IndicatorEngine.checkEntrySignal cfg sig inp.candles = (false, trigger)) :
    checkEntry cfg sig inp.candles inp.now inp price w = ⟨.ok (), [], w⟩ := by
  simp only [checkEntry, Program.get_bind_run, if_pos h, hs]
  rfl

theorem entryStep_spec (inp : TickInput) (w : World) :
    (entryOpens cfg sig inp w.engine.state w.engine.pausedByDrawdown = true →
      price ∈ fillPrices (entryStep cfg sig inp price w).log) ∧
    (entryOpens cfg sig inp w.engine.state w.engine.pausedByDrawdown = false →
      entryStep cfg sig inp price w = ⟨.ok (), [], w⟩) := by
  have hrun : entryStep cfg sig inp price w =
      (if inp.isOpen = true ∧ w.engine.pausedByDrawdown = false then
        checkEntry cfg sig inp.candles inp.now inp price else pure ()) w := rfl
  rw [hrun]
  constructor
  · intro h
    simp only [entryOpens, Bool.and_eq_true, decide_eq_true_eq, Bool.not_eq_true'] at h
    obtain ⟨⟨⟨⟨⟨hopen, hpaused⟩, hempty⟩, hcloses⟩, hsignal⟩, hcreate⟩ := h
    rw [if_pos ⟨hopen, hpaused⟩]
    cases hs : IndicatorEngine.checkEntrySignal cfg sig inp.candles with
    | mk triggered trigger =>
      rw [hs] at hsignal
      cases triggered with
      | true =>
        rw [checkEntry_signal cfg sig price inp w trigger ⟨hempty, hcloses⟩ hs]
        exact openDeal_fills cfg price inp.now inp.entryOpen trigger w hcreate
      | false => cases hsignal
  · intro h
    split
    · rename_i hopen
      by_cases hempty :
          w.engine.state.openDeals.items = [] ∧ inp.candles.closesPerTf cfg.timeframe ≠ []
      · cases hs : IndicatorEngine.checkEntrySignal cfg sig inp.candles with
        | mk triggered trigger =>
          cases triggered with
          | true =>
            rw [checkEntry_signal cfg sig price inp w trigger hempty hs]
            refine openDeal_refused cfg price inp.now inp.entryOpen trigger w ?_
            simpa [entryOpens, hopen.1, hopen.2, hempty.1, hempty.2, hs] using h
          | false => exact checkEntry_no_signal cfg sig price inp w trigger hempty hs
      · exact checkEntry_blocked cfg sig price inp w hempty
    · rfl

theorem consumeSentinel_nonpos (hp : price ≤ 0) (now : Instant) (s : Sentinel) (w : World) :
    (consumeSentinel cfg now price s w).result = .ok () ∧
      fillPrices (consumeSentinel cfg now price s w).log = [] ∧
      (consumeSentinel cfg now price s w).state =
        withOpenDeals (editOne w.engine.state.openDeals s) w := by
  have hsame : withOpenDeals w.engine.state.openDeals w = w := rfl
  simp only [consumeSentinel_run]
  cases s with
  | unknown i => exact ⟨rfl, rfl, hsame.symm⟩
  | edit i settings =>
    simp only [editOne]
    cases h : w.deal? i with
    | none =>
      have hnone : w.engine.state.openDeals.get? i = none := h
      have hmod := KeyedDict.modify_eq_self w.engine.state.openDeals i (applySettings settings)
        (fun _ => rfl) fun a ha => by
          rw [hnone] at ha
          cases ha
      refine ⟨rfl, rfl, ?_⟩
      rw [hmod]
      rfl
    | some d => exact ⟨rfl, rfl, rfl⟩
  | act i action =>
    simp only [editOne]
    cases w.deal? i with
    | none => exact ⟨rfl, rfl, hsame.symm⟩
    | some d =>
      dsimp only
      rw [if_pos hp]
      exact ⟨rfl, rfl, hsame.symm⟩

theorem checkDealSentinels_nonpos (hp : price ≤ 0) (now : Instant) (l : List Sentinel)
    (w : World) :
    (Program.forEach (consumeSentinel cfg now price) l w).result = .ok () ∧
      fillPrices (Program.forEach (consumeSentinel cfg now price) l w).log = [] ∧
      (Program.forEach (consumeSentinel cfg now price) l w).state =
        withOpenDeals (editAll l w.engine.state.openDeals) w := by
  induction l generalizing w with
  | nil => exact ⟨rfl, rfl, rfl⟩
  | cons s l ih =>
    obtain ⟨hres, hfill, hstate⟩ := consumeSentinel_nonpos cfg price hp now s w
    obtain ⟨hres', hfill', hstate'⟩ := ih (withOpenDeals (editOne w.engine.state.openDeals s) w)
    rw [Program.forEach, Program.bind_ok _ _ _ () hres, hstate]
    refine ⟨hres', ?_, hstate'⟩
    rw [fillPrices_append, hfill, hfill']
    rfl

theorem editAll_items_eq_nil (l : List Sentinel) (ds : OpenDeals) :
    (editAll l ds).items = [] ↔ ds.items = [] := by
  induction l generalizing ds with
  | nil => exact Iff.rfl
  | cons s l ih =>
    have hone : (editOne ds s).items = [] ↔ ds.items = [] := by
      cases s with
      | edit i settings => simp [editOne, KeyedDict.modify]
      | act i action => exact Iff.rfl
      | unknown i => exact Iff.rfl
    exact (ih (editOne ds s)).trans hone

/-- What follows the monitoring loop opens a deal. -/
def lateOpens (inp : TickInput) (e : EngineState) : Bool :=
  manualOpens cfg price inp e.state ||
    entryOpens cfg sig inp e.state (drawdownStep cfg price e).pausedByDrawdown

theorem afterMonitoring_spec (hp : price ≤ 0) (inp : TickInput) (w : World) :
    (lateOpens cfg sig price inp w.engine = true →
      price ∈ fillPrices (afterMonitoring cfg sig inp price w).log) ∧
    (lateOpens cfg sig price inp w.engine = false →
      (afterMonitoring cfg sig inp price w).result = .ok () ∧
        fillPrices (afterMonitoring cfg sig inp price w).log = [] ∧
        (afterMonitoring cfg sig inp price w).state.engine.state =
          { w.engine.state with
            openDeals := editAll inp.sentinels w.engine.state.openDeals }) := by
  obtain ⟨v, hv⟩ : ∃ v : World, v = { w with engine := drawdownStep cfg price w.engine } :=
    ⟨_, rfl⟩
  have hstate : v.engine.state = w.engine.state := by
    rw [hv]
    exact (drawdownStep_account cfg price w.engine).1
  have hpaused : v.engine.pausedByDrawdown
      = (drawdownStep cfg price w.engine).pausedByDrawdown := by rw [hv]
  have hrun : afterMonitoring cfg sig inp price w =
      (checkManualTrigger cfg inp.now inp price >>= fun _ =>
        checkDealSentinels cfg inp.now inp price >>= fun _ =>
          entryStep cfg sig inp price >>= fun _ =>
            writeState cfg inp.now price inp.isOpen) v := by
    rw [hv]
    rfl
  obtain ⟨hmanual, hnomanual⟩ := checkManualTrigger_spec cfg price inp v
  obtain ⟨hres, hfill, hsent⟩ :=
    checkDealSentinels_nonpos cfg price hp inp.now inp.sentinels v
  obtain ⟨u, hu⟩ : ∃ u, u = withOpenDeals (editAll inp.sentinels v.engine.state.openDeals) v :=
    ⟨_, rfl⟩
  rw [← hu] at hsent
  obtain ⟨hentry, hnoentry⟩ := entryStep_spec cfg sig price inp u
  have hentryEq : entryOpens cfg sig inp u.engine.state u.engine.pausedByDrawdown =
      entryOpens cfg sig inp w.engine.state (drawdownStep cfg price w.engine).pausedByDrawdown := by
    have hempty : decide (u.engine.state.openDeals.items = []) =
        decide (w.engine.state.openDeals.items = []) := by
      rw [hu, decide_eq_decide, ← hstate]
      exact editAll_items_eq_nil _ _
    have hup : u.engine.pausedByDrawdown = v.engine.pausedByDrawdown := by rw [hu]; rfl
    simp only [entryOpens, hempty, hup, hpaused]
  rw [hstate] at hmanual hnomanual
  rw [hentryEq] at hentry hnoentry
  rw [hrun, lateOpens]
  cases hm : manualOpens cfg price inp w.engine.state with
  | true =>
    refine ⟨fun _ => ?_, fun h => by cases h⟩
    rw [Program.bind_run]
    split
    · exact hmanual hm
    · rw [fillPrices_append]
      exact List.mem_append_left _ (hmanual hm)
  | false =>
    have hskip := hnomanual hm
    rw [Program.bind_ok _ _ _ () (by rw [hskip]), hskip,
      Program.bind_ok (checkDealSentinels cfg inp.now inp price) _ v () hres]
    simp only [checkDealSentinels, hsent, fillPrices_append, hfill, List.nil_append,
      Bool.false_or]
    constructor
    · intro he
      rw [Program.bind_run]
      split
      · exact hentry he
      · rw [fillPrices_append]
        exact List.mem_append_left _ (hentry he)
    · intro he
      have hskip' := hnoentry he
      rw [Program.bind_ok _ _ _ () (by rw [hskip']), hskip']
      refine ⟨rfl, rfl, ?_⟩
      simp only [writeState, Program.modify_run, hu, withOpenDeals, World.onState_state, hstate]

/-! ### What stays visible to the end of a tick -/

/-- Everything filled after the monitoring loop is filled at the price of the tick. -/
theorem late_fills (inp : TickInput) (w : World) :
    ∀ q ∈ fillPrices (afterMonitoring cfg sig inp price w).log, q = price := by
  have hR : Program.TraceRel (fun (_ : World) (l : List EngineEvent) (_ : World) =>
      ∀ q ∈ fillPrices l, q = price) :=
    { nil := fun _ q hq => by cases hq
      append := by
        intro _ l _ l' _ h h' q hq
        rw [fillPrices_append, List.mem_append] at hq
        exact hq.elim (h q) (h' q) }
  refine Program.runsAs_rel _ _ _ hR ?_ _ _ _ (afterMonitoring_runs cfg sig inp price w)
  intro op hop v q hq
  obtain ⟨e, he, hfill⟩ := List.mem_filterMap.mp hq
  have hlogged := loggedBy_op cfg sig op v e he
  cases e with
  | opened i p =>
    obtain ⟨now, inp', t, rfl⟩ := hlogged
    cases hfill
    cases hop with
    | manualOpen => rfl
    | entryOpen => rfl
  | dcaFilled i p =>
    obtain ⟨now, rfl⟩ := hlogged
    cases hop
  | tpClosed i p t =>
    obtain ⟨c, now, p', rfl⟩ := hlogged
    cases hop
  | slClosed i p =>
    obtain ⟨now, p', rfl⟩ := hlogged
    cases hop
  | _ => cases hfill

/-- A deal is opened at the price of the tick only. -/
theorem opened_price (inp : TickInput) (op : EngineOp) (hop : EngineOp.During inp price op)
    (w : World) (i : String) (q : ℚ) (h : .opened i q ∈ (op.program cfg sig w).log) :
    q = price := by
  obtain ⟨now, inp', t, rfl⟩ := loggedBy_op cfg sig op w _ h
  cases hop with
  | manualOpen => rfl
  | entryOpen => rfl

/-- A deal open afterwards has what `g` reads from before, unless a deal was
opened at the price of the tick. -/
def KeepsField {β : Type} (g : PaperDeal → β) (i : String) (w : World) (l : List EngineEvent)
    (w' : World) : Prop :=
  ∀ d', w'.deal? i = some d' → price ∈ fillPrices l ∨ ∃ e, w.deal? i = some e ∧ g e = g d'

theorem keepsField_traceRel {β : Type} (g : PaperDeal → β) (i : String) :
    Program.TraceRel (KeepsField price g i) where
  nil w d' hd' := Or.inr ⟨d', hd', rfl⟩
  append := by
    intro w l v l' u h h' d' hd'
    rw [fillPrices_append, List.mem_append]
    rcases h' d' hd' with hq | ⟨e, he, hge⟩
    · exact Or.inl (Or.inr hq)
    · rcases h e he with hq | ⟨e', he', hge'⟩
      · exact Or.inl (Or.inl hq)
      · exact Or.inr ⟨e', he', hge'.trans hge⟩

theorem keepsField_op {β : Type} (g : PaperDeal → β) (i : String) (inp : TickInput)
    (op : EngineOp) (hop : EngineOp.During inp price op)
    (hg : ∀ l d d', DealStep cfg op l d d' → g d' = g d) :
    Program.Respects (KeepsField price g i) (op.program cfg sig) := by
  intro w d' hd'
  obtain ⟨hmem, hid⟩ := KeyedDict.get?_mem _ _ _ hd'
  have hcont := continues_op cfg sig op (EngineOp.During.ne_trackWicks inp price op hop) w d' hmem
  rcases hcont with ⟨d, hd, hstep⟩ | ⟨now, q, t, _, hopened⟩
  · right
    have hdid : d.id = i := (DealStep.id_eq cfg _ _ _ _ hstep).symm.trans hid
    refine ⟨d, ?_, (hg _ _ _ hstep).symm⟩
    rw [← hdid]
    exact KeyedDict.get?_of_mem _ d hd
  · left
    have hq := opened_price cfg sig price inp op hop w _ q hopened
    subst hq
    exact List.mem_filterMap.mpr ⟨_, hopened, rfl⟩

/-! ### The whole tick -/

/-- Open deals, closed deals and balance are as before. -/
def SameAccount (s s' : PaperState) : Prop :=
  s'.openDeals = s.openDeals ∧ s'.closedDeals = s.closedDeals ∧ s'.balanceBtc = s.balanceBtc

/-- A tick fills at positive prices only, and at a price that is not positive it
leaves the account as it was. -/
def PriceSafe (inp : TickInput) (w : World) : Prop :=
  (∀ q ∈ fillPrices (tick cfg sig inp w).log, 0 < q) ∧
    (price ≤ 0 → SameAccount w.engine.state (tick cfg sig inp w).state.engine.state)

/-- Nothing of the account reacts to the price. -/
def Inert (inp : TickInput) (w : World) : Prop :=
  (∀ d ∈ w.engine.state.openDeals.items, trackWick price d = d) ∧
    (loopEnd cfg sig inp.candles price w.engine.state.openDeals.items = .aborts ∨
      (loopEnd cfg sig inp.candles price w.engine.state.openDeals.items = .rests ∧
        lateOpens cfg sig price inp (tracked price (hooked inp w)).engine = false ∧
        editAll inp.sentinels w.engine.state.openDeals = w.engine.state.openDeals))

theorem meets_items (w : World) : Meets w w.engine.state.openDeals.items :=
  ⟨w.engine.state.openDeals.nodup, fun d hd => KeyedDict.get?_of_mem _ d hd⟩

/-- The body of a tick is its monitoring loop, followed by the rest unless the
loop raised. -/
theorem bodyAt_split (inp : TickInput) (w : World) :
    ∃ l, RunsLate cfg sig inp price
        (monitorDeals cfg sig inp.candles inp.now price 0
          ((tracked price (hooked inp w)).engine.state.openDeals.items.map PaperDeal.id)
          (tracked price (hooked inp w))).state l (bodyAt cfg sig inp price w).state ∧
      (bodyAt cfg sig inp price w).log =
        (monitorDeals cfg sig inp.candles inp.now price 0
          ((tracked price (hooked inp w)).engine.state.openDeals.items.map PaperDeal.id)
          (tracked price (hooked inp w))).log ++ l ∧
      ∀ q ∈ fillPrices l, q = price := by
  have hR := Program.runsAs_traceRel (EngineOp.program cfg sig) (EngineOp.Late inp price)
  rw [bodyAt, afterTracking_run, Program.bind_run]
  split
  · exact ⟨[], hR.nil _, (List.append_nil _).symm, fun q hq => by cases hq⟩
  · exact ⟨_, afterMonitoring_runs cfg sig inp price _, rfl, late_fills cfg sig price inp _⟩

theorem tracked_eq (w : World) (h : ∀ d ∈ w.engine.state.openDeals.items, trackWick price d = d) :
    (tracked price w).engine.state = w.engine.state := by
  have hmap : w.engine.state.openDeals.mapValues (trackWick price) (fun _ => rfl)
      = w.engine.state.openDeals := by
    apply KeyedDict.ext
    exact (List.map_congr_left h).trans (List.map_id _)
  simp only [tracked, World.onState_state, hmap]

/-- An inert tick is safe. -/
theorem safe_of_inert (hp : price ≤ 0) (inp : TickInput) (w : World)
    (h : Inert cfg sig price inp w) :
    fillPrices (bodyAt cfg sig inp price w).log = [] ∧
      SameAccount w.engine.state (bodyAt cfg sig inp price w).state.engine.state := by
  obtain ⟨htrack, hloop⟩ := h
  have hhook := (preTickHook_account inp w).1
  have htracked : (tracked price (hooked inp w)).engine.state = w.engine.state := by
    rw [tracked_eq price (hooked inp w) (by rw [hooked, hhook]; exact htrack)]
    exact hhook
  have hquiet := monitorDeals_quiet cfg sig price inp _ _ (meets_items (tracked price (hooked inp w)))
  rw [htracked] at hquiet
  rw [bodyAt, afterTracking_run, htracked]
  rcases hloop with hab | ⟨hrest, hlate, hedit⟩
  · rw [hab] at hquiet
    obtain ⟨⟨x, hx⟩, hfill, hstate⟩ := hquiet
    rw [Program.bind_error _ _ _ x hx]
    exact ⟨hfill, by simp only [hstate, htracked]; exact ⟨rfl, rfl, rfl⟩⟩
  · rw [hrest] at hquiet
    obtain ⟨hx, hfill, hstate⟩ := hquiet
    rw [Program.bind_ok _ _ _ () hx, hstate]
    have hspec := (afterMonitoring_spec cfg sig price hp inp (tracked price (hooked inp w))).2 hlate
    rw [htracked, hedit] at hspec
    exact ⟨by rw [fillPrices_append, hfill, hspec.2.1]; rfl, by rw [hspec.2.2]; exact ⟨rfl, rfl, rfl⟩⟩

/-- Trackers that are not the same afterwards as before never come back. -/
theorem enclosed_of_safe (inp : TickInput) (w : World)
    (hno : price ∉ fillPrices (bodyAt cfg sig inp price w).log)
    (hsame : SameAccount w.engine.state (bodyAt cfg sig inp price w).state.engine.state) :
    ∀ d ∈ w.engine.state.openDeals.items, trackWick price d = d := by
  intro d hd
  have hget : w.deal? d.id = some d := KeyedDict.get?_of_mem _ d hd
  have hfinal : (bodyAt cfg sig inp price w).state.deal? d.id = some d := by
    rw [World.deal?, hsame.1]
    exact hget
  have hkeep := Program.runsAs_rel _ _
    (KeepsField price (fun d => (d.wickHighSinceOpen, d.wickLowSinceOpen)) d.id)
    (keepsField_traceRel price _ d.id)
    (fun op hop => keepsField_op cfg sig price _ d.id inp op hop (by
      intro l e e' hstep
      cases hstep <;> rfl)) _ _ _
    (afterTracking_runs cfg sig inp price (tracked price (hooked inp w)))
  rcases hkeep d hfinal with hq | ⟨e, he, hwick⟩
  · exact absurd hq hno
  · have htracked : (tracked price (hooked inp w)).deal? d.id = some (trackWick price d) := by
      have hhooked : (hooked inp w).deal? d.id = some d := by
        rw [World.deal?, hooked, (preTickHook_account inp w).1]
        exact hget
      have hmap := KeyedDict.get?_mapValues (hooked inp w).engine.state.openDeals
        (trackWick price) (fun _ => rfl) d.id
      exact hmap.trans (congrArg (Option.map (trackWick price)) hhooked)
    have hed : e = trackWick price d := Option.some.inj (he.symm.trans htracked)
    rw [hed, Prod.mk.injEq] at hwick
    have hdef : trackWick price d =
        { d with
          wickHighSinceOpen := (trackWick price d).wickHighSinceOpen
          wickLowSinceOpen := (trackWick price d).wickLowSinceOpen } := rfl
    rw [hdef, hwick.1, hwick.2]

/-- A safe tick at a price that is not positive is inert. -/
theorem inert_of_safe (hp : price ≤ 0) (inp : TickInput) (w : World)
    (hno : price ∉ fillPrices (bodyAt cfg sig inp price w).log)
    (hsame : SameAccount w.engine.state (bodyAt cfg sig inp price w).state.engine.state) :
    Inert cfg sig price inp w := by
  have henclosed := enclosed_of_safe cfg sig price inp w hno hsame
  have hhook := (preTickHook_account inp w).1
  have htracked : (tracked price (hooked inp w)).engine.state = w.engine.state := by
    rw [tracked_eq price (hooked inp w) (by rw [hooked, hhook]; exact henclosed)]
    exact hhook
  have hquiet := monitorDeals_quiet cfg sig price inp _ _
    (meets_items (tracked price (hooked inp w)))
  obtain ⟨l, hlate, hlog, _⟩ := bodyAt_split cfg sig price inp w
  rw [htracked] at hquiet hlate hlog
  refine ⟨henclosed, ?_⟩
  cases hloop : loopEnd cfg sig inp.candles price w.engine.state.openDeals.items with
  | aborts => exact Or.inl rfl
  | acts =>
    exfalso
    rw [hloop] at hquiet
    rcases hquiet with hq | hcount | ⟨d, hd, e, he, hpeak⟩
    · refine hno ?_
      rw [hlog, fillPrices_append]
      exact List.mem_append_left _ hq
    · have hmono := closedCount_mono _ _ (Program.runsAs_rel _ _ _ historyGrows_traceRel
        (fun op _ => historyGrows_op cfg sig op) _ _ _ hlate)
      have hend : closedCount (bodyAt cfg sig inp price w).state = closedCount w := by
        rw [closedCount, hsame.2.1]
        rfl
      have hstart : closedCount (tracked price (hooked inp w)) = closedCount w := by
        rw [closedCount, htracked]
        rfl
      omega
    · have hfinal : (bodyAt cfg sig inp price w).state.deal? d.id = some d := by
        rw [World.deal?, hsame.1]
        exact KeyedDict.get?_of_mem _ d hd
      have hkeep := Program.runsAs_rel _ _ (KeepsField price PaperDeal.peakPrice d.id)
        (keepsField_traceRel price _ d.id)
        (fun op hop => keepsField_op cfg sig price _ d.id inp op (hop.during) (by
          intro l e e' hstep
          cases hstep with
          | same => rfl
          | peak now q h =>
            subst h
            cases hop
          | order now q h => rfl
          | settings s h => rfl)) _ _ _ hlate
      rcases hkeep d hfinal with hq | ⟨e', he', hpeak'⟩
      · refine hno ?_
        rw [hlog, fillPrices_append]
        exact List.mem_append_right _ hq
      · have hee : e' = e := Option.some.inj (he'.symm.trans he)
        exact hpeak (hee ▸ hpeak')
  | rests =>
    right
    rw [hloop] at hquiet
    obtain ⟨hx, hfill, hstate⟩ := hquiet
    obtain ⟨hopens, hstays⟩ :=
      afterMonitoring_spec cfg sig price hp inp (tracked price (hooked inp w))
    have hbody : bodyAt cfg sig inp price w =
        ⟨(afterMonitoring cfg sig inp price (tracked price (hooked inp w))).result,
          (monitorDeals cfg sig inp.candles inp.now price 0
            (w.engine.state.openDeals.items.map PaperDeal.id)
            (tracked price (hooked inp w))).log ++
          (afterMonitoring cfg sig inp price (tracked price (hooked inp w))).log,
          (afterMonitoring cfg sig inp price (tracked price (hooked inp w))).state⟩ := by
      rw [bodyAt, afterTracking_run, htracked, Program.bind_ok _ _ _ () hx, hstate]
    rw [hbody] at hno hsame
    cases hl : lateOpens cfg sig price inp (tracked price (hooked inp w)).engine with
    | true =>
      refine absurd ?_ hno
      rw [fillPrices_append]
      exact List.mem_append_right _ (hopens hl)
    | false =>
      obtain ⟨_, _, hfinal⟩ := hstays hl
      have hedit := hsame.1
      rw [hfinal, htracked] at hedit
      exact ⟨rfl, rfl, hedit⟩

/-- When a tick whose ticker arrived is safe. -/
theorem priceSafe_iff (inp : TickInput) (t : Ticker) (ht : inp.ticker = .ok t) (w : World) :
    PriceSafe cfg sig t.tickPrice inp w ↔
      (0 < t.tickPrice ∧ FillsPositive cfg sig inp.candles t.tickPrice 0
        (tracked t.tickPrice (hooked inp w)).engine.state.openDeals.items) ∨
      (t.tickPrice ≤ 0 ∧ Inert cfg sig t.tickPrice inp w) := by
  obtain ⟨hlog, hstate⟩ := tick_run_ok cfg sig inp t ht w
  have hfills : fillPrices (tick cfg sig inp w).log =
      fillPrices (bodyAt cfg sig inp t.tickPrice w).log := by
    rw [hlog, fillPrices_append]
    cases (bodyAt cfg sig inp t.tickPrice w).result with
    | ok _ => exact List.append_nil _
    | error e => exact List.append_nil _
  have haccount : (tick cfg sig inp w).state.engine.state =
      (bodyAt cfg sig inp t.tickPrice w).state.engine.state := by
    rw [hstate]
    exact (postTickHook_account _).1
  rw [PriceSafe, hfills, haccount]
  rcases lt_or_ge 0 t.tickPrice with hp | hp
  · obtain ⟨l, _, hsplit, hlate⟩ := bodyAt_split cfg sig t.tickPrice inp w
    have hiff := monitorDeals_positive_iff cfg sig t.tickPrice hp inp _ 0 _
      (meets_items (tracked t.tickPrice (hooked inp w)))
    rw [hsplit, fillPrices_append]
    constructor
    · rintro ⟨h, _⟩
      exact Or.inl ⟨hp, hiff.mp fun q hq => h q (List.mem_append_left _ hq)⟩
    · rintro (⟨_, h⟩ | ⟨hle, _⟩)
      · refine ⟨fun q hq => ?_, fun hle => absurd hp (not_lt.mpr hle)⟩
        rcases List.mem_append.mp hq with hq | hq
        · exact hiff.mpr h q hq
        · rw [hlate q hq]
          exact hp
      · exact absurd hp (not_lt.mpr hle)
  · constructor
    · rintro ⟨h, hsame⟩
      refine Or.inr ⟨hp, inert_of_safe cfg sig t.tickPrice hp inp w ?_ (hsame hp)⟩
      exact fun hq => absurd (h _ hq) (not_lt.mpr hp)
    · rintro (⟨hlt, _⟩ | ⟨_, hinert⟩)
      · exact absurd hlt (not_lt.mpr hp)
      · obtain ⟨hnone, hsame⟩ := safe_of_inert cfg sig t.tickPrice hp inp w hinert
        refine ⟨fun q hq => ?_, fun _ => hsame⟩
        rw [hnone] at hq
        cases hq

/-- A long bot with an immediate entry. -/
def entryBot : BotConfig := .small "entry"

/-- A tick in an open schedule with candles, on which the ledger accepts every deal. -/
def openTick : TickInput :=
  { ticker := .error .exchangeError
    isOpen := true
    candles := ⟨fun _ => [100], fun _ => none, fun _ => none⟩
    manualTrigger := false
    manualOpen := .accepted "202501010000-0001"
    sentinels := []
    entryOpen := .accepted "202501010000-0001"
    clockOk := true
    now := 0 }

end PriceGuard

end Reverto
