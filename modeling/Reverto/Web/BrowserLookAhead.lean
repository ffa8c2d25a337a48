import Mathlib.Tactic
import Reverto.Web.RevertoBacktest
import Reverto.Web.SignalPrefix

/-!
# No look-ahead in the browser backtest (web/static/app.js, class RevertoBacktest)

The run on two candle lists with the same first candles. A candle takes the signals of
the one before it, so what the arrays read decides what the run can know.
-/

namespace Reverto

open Script RevertoBacktest SignalPrefix

namespace BrowserLookAhead

section Events

variable {ν : Type}

/-- The opens, fills and closes through a candle. -/
def eventsThrough (i : ℕ) (o : Program.Outcome Empty (ℕ × BrowserEvent ν) (BrowserState ν) Unit) :
    List (ℕ × BrowserEvent ν) :=
  o.log.filter fun e => decide (e.1 ≤ i)

/-- The events through a candle come from the loop over the candles up to it. -/
theorem eventsThrough_loop (f : JsCandle ν × ℕ → BrowserM ν Unit) (cs : List (JsCandle ν)) (i : ℕ)
    (s : BrowserState ν) :
    eventsThrough i (Program.forEach (fun p => Program.relabel (fun e => (p.2, e)) (f p)) cs.zipIdx
        s) =
      (Program.forEach (fun p => Program.relabel (fun e => (p.2, e)) (f p)) (cs.take (i + 1)).zipIdx
        s).log := by
  have hsplit : cs.zipIdx = (cs.take (i + 1)).zipIdx ++
      (cs.drop (i + 1)).zipIdx (cs.take (i + 1)).length := by
    conv_lhs => rw [← List.take_append_drop (i + 1) cs]
    rw [List.zipIdx_append, Nat.zero_add]
  obtain ⟨a, ha⟩ := Program.returns_empty (Program.forEach (fun p =>
    Program.relabel (fun e => (p.2, e)) (f p)) (cs.take (i + 1)).zipIdx) s
  have hearly : ∀ e ∈ (Program.forEach (fun p => Program.relabel (fun e => (p.2, e)) (f p))
      (cs.take (i + 1)).zipIdx s).log, decide (e.1 ≤ i) = true := by
    intro e he
    obtain ⟨p, hp, hlabel⟩ := Program.forEach_labels f Prod.snd _ s e he
    have hlt := List.snd_lt_of_mem_zipIdx hp
    rw [List.length_take] at hlt
    rw [hlabel]
    exact decide_eq_true (by omega)
  have hlate : ∀ t, ∀ e ∈ (Program.forEach (fun p => Program.relabel (fun e => (p.2, e)) (f p))
      ((cs.drop (i + 1)).zipIdx (cs.take (i + 1)).length) t).log, ¬ decide (e.1 ≤ i) = true := by
    intro t e he
    obtain ⟨p, hp, hlabel⟩ := Program.forEach_labels f Prod.snd _ t e he
    have hle := List.le_snd_of_mem_zipIdx hp
    have hlt := List.snd_lt_add_of_mem_zipIdx hp
    rw [List.length_take] at hle hlt
    rw [List.length_drop] at hlt
    rw [hlabel, decide_eq_true_eq]
    omega
  rw [eventsThrough, hsplit, Program.forEach_append, Program.bind_ok _ _ _ a ha, List.filter_append,
    List.filter_eq_self.mpr hearly, List.filter_eq_nil_iff.mpr (hlate _), List.append_nil]

end Events

section Runs

variable {ν : Type} [Add ν] [Sub ν] [Mul ν] [Div ν] [Neg ν] [Min ν] [Max ν] [LT ν] [LE ν]
  [DecidableLT ν] [DecidableLE ν] [DecidableEq ν] [ScriptNumber ν]

/-- The triggers an entry records are the same where the arrays are. -/
theorem entryTrigger_congr (i : ℕ) (s t : EntrySignals) (h : SignalsAgree i s t) (j : ℕ)
    (hj : j < i) : entryTrigger s j = entryTrigger t j := by
  have hfind : (s.groups.find? fun g => g.1 j).map Prod.snd =
      (t.groups.find? fun g => g.1 j).map Prod.snd := by
    have hgroups := h.groups
    generalize s.groups = ps at hgroups ⊢
    generalize t.groups = qs at hgroups ⊢
    induction hgroups with
    | nil => rfl
    | cons hpq _ ih =>
      obtain ⟨hagree, hname⟩ := hpq
      rw [List.find?_cons, List.find?_cons, hagree j hj]
      split
      · rw [Option.map_some, Option.map_some, hname]
      · exact ih
  rw [entryTrigger, entryTrigger, hfind]

section Steps

variable (st : Settings ν) (b d : ChartBars ν) (i : ℕ) (h : AgreeBelow (i + 1) b.bars d.bars)
include h

theorem monitorDeal_congr (candle : JsCandle ν) (j : ℕ) (hj : j ≤ i) :
    monitorDeal st b.bars candle j = monitorDeal st d.bars candle j := by
  have hgroups : tpGroupHit st b.bars j = tpGroupHit st d.bars j := by
    simp only [tpGroupHit, fun ind => evalTpIndicator_congr b d i h ind j hj]
  have hcheck : ∀ deal, checkTp st b.bars deal candle j = checkTp st d.bars deal candle j := by
    intro deal
    rw [checkTp, checkTp, hgroups]
  simp only [monitorDeal, hcheck]

theorem candleStep_congr (localParts : ℤ → ℕ × ℕ) (config : BrowserConfig) (warmup : ℕ)
    (s t : EntrySignals) (hst : SignalsAgree i s t) (p : JsCandle ν × ℕ) (hp : p.2 ≤ i) :
    candleStep st localParts config warmup s b.bars p =
      candleStep st localParts config warmup t d.bars p := by
  have hentry : checkEntry st localParts config warmup s p.1 p.2 =
      checkEntry st localParts config warmup t p.1 p.2 := by
    by_cases hfirst : 1 ≤ p.2
    · simp only [checkEntry, hst.combined (p.2 - 1) (by omega),
        entryTrigger_congr i s t hst (p.2 - 1) (by omega)]
    · simp only [checkEntry, hfirst, false_and, and_false, if_false]
  rw [candleStep, candleStep, monitorDeal_congr st b d i h p.1 p.2 hp, hentry]

end Steps

theorem run_events (sqrt : ν → ν) (localParts : ℤ → ℕ × ℕ) (config : BrowserConfig)
    (cs : List (JsCandle ν)) (initialBalance : ν) (i : ℕ) :
    (run sqrt localParts config cs initialBalance).map (eventsThrough i) =
      (precomputeSignalArrays sqrt cs config.entry).map fun signals =>
        (Program.forEach (fun p => Program.relabel (fun e => (p.2, e))
          (candleStep (settings config) localParts config (warmupOf cs.length) signals cs p))
          (cs.take (i + 1)).zipIdx (init initialBalance)).log := by
  have hall : cs.zipIdx.take cs.length = cs.zipIdx :=
    List.take_of_length_le (by rw [List.length_zipIdx])
  rw [run, runThrough, hall, Option.map_map]
  refine congrArg (Option.map · _) (funext fun signals => ?_)
  exact eventsThrough_loop _ cs i _

/-- The run knows nothing behind a candle if no entry indicator looks behind it. -/
theorem run_sees_no_later (sqrt : ν → ν) (localParts : ℤ → ℕ × ℕ) (config : BrowserConfig)
    (b d : ChartBars ν) (initialBalance : ν) (i : ℕ) (hagree : AgreeBelow (i + 1) b.bars d.bars)
    (hinds : ∀ g ∈ allGroups config.entry, ∀ ind ∈ g.indicators, SeesNoLater b d i ind) :
    (run sqrt localParts config b.bars initialBalance).map (eventsThrough i) =
      (run sqrt localParts config d.bars initialBalance).map (eventsThrough i) := by
  have hwarmup : warmupOf b.bars.length = warmupOf d.bars.length := by
    have hb := b.enough
    have hd := d.enough
    rw [warmupOf, warmupOf]
    omega
  have hsame : b.bars.take (i + 1) = d.bars.take (i + 1) := hagree
  have hsignals := precompute_agree b d i hagree sqrt config.entry hinds
  rw [run_events, run_events, hwarmup, hsame]
  generalize precomputeSignalArrays sqrt b.bars config.entry = x at hsignals ⊢
  generalize precomputeSignalArrays sqrt d.bars config.entry = y at hsignals ⊢
  cases hsignals with
  | none => rw [Option.map_none, Option.map_none]
  | some hst =>
    rw [Option.map_some, Option.map_some]
    refine congrArg (fun o => some (Program.Outcome.log o)) ?_
    refine Program.forEach_congr _ _ (fun l _ => ∀ p ∈ l, p.2 ≤ i) ?_ ?_ _ _ ?_
    · intro p l s' hl
      rw [candleStep_congr (settings config) b d i hagree localParts config _ _ _ hst p
        (hl p List.mem_cons_self)]
    · exact fun p l s' hl q hq => hl q (List.mem_cons_of_mem p hq)
    · intro p hp
      have hlt := List.snd_lt_of_mem_zipIdx hp
      rw [List.length_take] at hlt
      omega

omit [Min ν] [Max ν] in
/-- The first candle behind the warm-up reads one index of the arrays. -/
theorem candleStep_first (st : Settings ν) (localParts : ℤ → ℕ × ℕ) (config : BrowserConfig)
    (candles : List (JsCandle ν)) (s t : EntrySignals) (hcombined : s.combined 77 = t.combined 77)
    (htrigger : entryTrigger s 77 = entryTrigger t 77) (p : JsCandle ν × ℕ) (hp : p.2 ≤ 78) :
    candleStep st localParts config 78 s candles p =
      candleStep st localParts config 78 t candles p := by
  have hentry : checkEntry st localParts config 78 s p.1 p.2 =
      checkEntry st localParts config 78 t p.1 p.2 := by
    by_cases hfirst : 78 ≤ p.2
    · have hindex : p.2 - 1 = 77 := by omega
      simp only [checkEntry, hindex, hcombined, htrigger]
    · simp only [checkEntry, hfirst, false_and, if_false]
  rw [candleStep, candleStep, hentry]

end Runs

/-! ### A swing that is confirmed later -/

/-- Closes with a swing at 70 and one at 76 that the close at 79 confirms or not. -/
def swingClose (last : ℚ) (k : ℕ) : ℚ :=
  if k = 70 then 103 else if k = 76 then 110 else if k = 77 then 105 else if k = 79 then last else 100

/-- The hourly candle with such a close. -/
def swingCandle (last : ℚ) (k : ℕ) : JsCandle ℚ :=
  ⟨3600 * k, swingClose last k, swingClose last k, swingClose last k, swingClose last k, 1⟩

/-- The candles with these closes. -/
def swings (last : ℚ) : ChartBars ℚ where
  bars := (List.range 312).map (swingCandle last)
  increasing := by
    refine List.pairwise_map.mpr (List.pairwise_lt_range.imp fun hlt => ?_)
    simp only [swingCandle]
    omega
  enough := by rw [List.length_map, List.length_range]

theorem swings_agree (last last' : ℚ) : AgreeBelow 79 (swings last).bars (swings last').bars := by
  have htake : ∀ last, (swings last).bars.take 79 = (List.range 79).map (swingCandle last) := by
    intro last
    rw [swings, ← List.map_take, List.take_range]
    rfl
  rw [AgreeBelow, htake, htake]
  refine List.map_congr_left fun k hk => ?_
  have hne : k ≠ 79 := (List.mem_range.mp hk).ne
  simp only [swingCandle, swingClose, hne, if_false]

/-- A bot that enters on one indicator with its defaults. -/
def enteringOn (type : String) : BrowserConfig :=
  { entry := { indicators := [.ofType type none] } }

/-- The array of the indicator with its defaults. -/
def structureArray (last : ℚ) : ℕ → Bool :=
  marketStructureSignals (swings last).bars (.ofType "MARKET_STRUCTURE" none)

theorem structureArray_eq (last : ℚ) (i : ℕ) :
    structureArray last i =
      structureHit "bullish_bos" (read ((swings last).bars.map JsCandle.close) i)
        ((((swingIndices 312 3).filter fun s : ℤ => decide (s < i)).filter
          (isSwingHigh ((swings last).bars.map JsCandle.close) 3)).reverse.map
            (read ((swings last).bars.map JsCandle.close)))
        ((((swingIndices 312 3).filter fun s : ℤ => decide (s < i)).filter
          (isSwingLow ((swings last).bars.map JsCandle.close) 3)).reverse.map
            (read ((swings last).bars.map JsCandle.close))) := by
  have hbefore : ∀ swing, swingsBefore swing 312 3 i =
      (((swingIndices 312 3).filter fun s : ℤ => decide (s < i)).filter swing).reverse := by
    intro swing
    rw [swingsBefore, List.filter_comm]
  have hlength : (swings last).bars.length = 312 := by
    rw [swings, List.length_map, List.length_range]
  rw [← hbefore, ← hbefore, ← hlength]
  rfl

/-- The signals of the bot, given its array. -/
def structureSignals (array : ℕ → Bool) : EntrySignals where
  combined i := [fun i => [array].all fun a => a i].any fun g => g i
  groups := [(fun i => [array].all fun a => a i, ⟨"Group 1", ["MARKET_STRUCTURE"]⟩)]

/-- What the run shows through the candle 78 depends on the array at 77. -/
theorem run_structure (last : ℚ) (v : Bool) (hv : structureArray last 77 = v) :
    (run id (fun _ => (0, 0)) (enteringOn "MARKET_STRUCTURE") (swings last).bars 1).map
        (eventsThrough 78) =
      some (Program.forEach (fun p => Program.relabel (fun e => (p.2, e))
        (candleStep (settings (enteringOn "MARKET_STRUCTURE")) (fun _ => (0, 0))
          (enteringOn "MARKET_STRUCTURE") 78 (structureSignals fun _ => v) (swings last).bars p))
          ((swings last).bars.take 79).zipIdx (init 1)).log := by
  have hsignals : precomputeSignalArrays id (swings last).bars (enteringOn "MARKET_STRUCTURE").entry =
      some (structureSignals (structureArray last)) := rfl
  have hlength : (swings last).bars.length = 312 := by
    rw [swings, List.length_map, List.length_range]
  have hwarmup : warmupOf (swings last).bars.length = 78 := by
    rw [hlength]
    rfl
  rw [run_events, hsignals, hwarmup, Option.map_some]
  refine congrArg (fun o => some (Program.Outcome.log o)) ?_
  refine Program.forEach_congr _ _ (fun l _ => ∀ p ∈ l, p.2 ≤ 78) ?_ ?_ _ _ ?_
  · intro p l s hl
    rw [candleStep_first (settings (enteringOn "MARKET_STRUCTURE")) _ _ _
      (structureSignals (structureArray last)) (structureSignals fun _ => v)
      (by simp only [structureSignals, List.any_cons, List.all_cons, hv])
      (by cases v <;> simp [entryTrigger, structureSignals, hv])
      p (hl p List.mem_cons_self)]
  · exact fun p l s hl q hq => hl q (List.mem_cons_of_mem p hq)
  · intro p hp
    have hlt := List.snd_lt_of_mem_zipIdx hp
    rw [List.length_take] at hlt
    omega

/-- Whether the swing at 76 counts at 77 depends on the close at 79. -/
theorem run_sees_a_swing :
    ¬ ∀ (sqrt : ℚ → ℚ) (localParts : ℤ → ℕ × ℕ) (config : BrowserConfig) (b d : ChartBars ℚ)
      (initialBalance : ℚ) (i : ℕ), AgreeBelow (i + 1) b.bars d.bars →
        (run sqrt localParts config b.bars initialBalance).map (eventsThrough i) =
          (run sqrt localParts config d.bars initialBalance).map (eventsThrough i) := by
  intro h
  have hsame := h id (fun _ => (0, 0)) (enteringOn "MARKET_STRUCTURE") (swings 100) (swings 115) 1 78
    (swings_agree 100 115)
  rw [run_structure 100 false (by rw [structureArray_eq]; decide +kernel),
    run_structure 115 true (by rw [structureArray_eq]; decide +kernel)] at hsame
  revert hsame
  decide +kernel

/-- The same candles and a bot that enters on the histogram. -/
theorem run_sees_no_later_histogram :
    (run id (fun _ => (0, 0)) (enteringOn "MACD") (swings 100).bars 1).map (eventsThrough 78) =
      (run id (fun _ => (0, 0)) (enteringOn "MACD") (swings 115).bars 1).map (eventsThrough 78) := by
  refine run_sees_no_later id (fun _ => (0, 0)) (enteringOn "MACD") (swings 100) (swings 115) 1 78
    (swings_agree 100 115) fun g hg ind hind => ?_
  have htype : ind.type = "MACD" := by
    have hone : allGroups (enteringOn "MACD").entry =
        [{ id := 1, name := "Group 1", indicators := [.ofType "MACD" none] }] := by decide
    rw [hone, List.mem_singleton] at hg
    rw [hg, List.mem_singleton] at hind
    rw [hind]
    rfl
  refine ⟨fun hother => ?_, fun hother => ?_, fun hother => ?_⟩
  · rw [htype] at hother
    exact absurd hother (by decide)
  · rw [htype] at hother
    exact absurd hother (by decide)
  · rw [htype] at hother
    exact absurd hother (by decide)

end BrowserLookAhead

end Reverto
