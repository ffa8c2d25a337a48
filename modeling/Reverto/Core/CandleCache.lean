import Mathlib.Tactic
import Reverto.Config.Models
import Reverto.Lib.RenewalTimes
import Reverto.Lib.Timeline

/-!
# Candle cache (`_fetch_closes_if_needed` of core/trading_engine.py)

The series the indicators of a paper or live bot read, refetched when the last
fetch is an interval old. The ticks at which a timeframe is fetched are a function
of the tick times and of the candles of its history.
-/

namespace Reverto

/-- A row of `get_ohlcv`: the opening time in milliseconds and the prices the cache keeps. -/
structure OhlcvCandle where
  timestamp : ℚ
  high : ℚ
  low : ℚ
  close : ℚ
  deriving DecidableEq, Repr

/-- What `get_ohlcv` does at a moment. -/
abbrev OhlcvSource := ℚ → Timeframe → Except String (List OhlcvCandle)

/-- The entries of one timeframe: `_closes_fetched_at`, and the candles whose columns
are `_closes_per_tf`, `_highs_per_tf` and `_lows_per_tf`. -/
structure TfCache where
  fetchedAt : ℚ := 0
  series : Option (List OhlcvCandle) := none
  deriving DecidableEq, Repr

namespace CandleCache

/-- `_TF_SECONDS` -/
def tfSeconds : Timeframe → Option ℚ
  | .m15 => some (15 * 60)
  | .h1 => some (60 * 60)
  | .h4 => some (4 * 60 * 60)
  | .d1 => some (24 * 60 * 60)
  | .m30 | .h2 | .h12 => none

/-- `completed` -/
def completedOf (interval now : ℚ) (candles : List OhlcvCandle) : List OhlcvCandle :=
  candles.filter fun c => decide (c.timestamp + interval * 1000 < now * 1000)

/-- The stamp after a fetch that left no candles: retry in 100s. -/
def retryStamp (interval now : ℚ) : ℚ := now - max (interval - 100) 0

/-- The loop body of `_fetch_closes_if_needed`. -/
def fetchTimeframe (answer : Except String (List OhlcvCandle)) (now : ℚ) (tf : Timeframe)
    (cache : TfCache) : TfCache :=
  match tfSeconds tf with
  | none => cache
  | some interval =>
    if now - cache.fetchedAt < interval then cache
    else
      match answer with
      | .error _ => { cache with fetchedAt := retryStamp interval now }
      | .ok candles =>
        if completedOf interval now candles = [] then
          { cache with fetchedAt := retryStamp interval now }
        else { fetchedAt := now, series := some (completedOf interval now candles) }

/-- `_fetch_closes_if_needed` -/
def fetchClosesIfNeeded (source : OhlcvSource) (required : List Timeframe) (now : ℚ)
    (caches : Timeframe → TfCache) : Timeframe → TfCache :=
  required.dedup.foldl
    (fun caches tf => Function.update caches tf (fetchTimeframe (source now tf) now tf (caches tf)))
    caches

/-- A new engine's cache after a sequence of ticks. -/
def fetches (source : OhlcvSource) (required : List Timeframe) (ticks : List ℚ) :
    Timeframe → TfCache :=
  ticks.foldl (fun caches now => fetchClosesIfNeeded source required now caches) fun _ => {}

/-! ### Fresh series -/

/-- The length of a timeframe's candles in seconds. -/
def candleSeconds : Timeframe → ℚ
  | .m15 => 900
  | .m30 => 1800
  | .h1 => 3600
  | .h2 => 7200
  | .h4 => 14400
  | .h12 => 43200
  | .d1 => 86400

/-- The time a candle of a timeframe completes, in milliseconds. -/
def closeMs (tf : Timeframe) (c : OhlcvCandle) : ℚ := c.timestamp + candleSeconds tf * 1000

/-- The candles of a history completed by a time. -/
def completedBy (tf : Timeframe) (now : ℚ) (history : List OhlcvCandle) : List OhlcvCandle :=
  history.filter fun c => decide (closeMs tf c ≤ now * 1000)

/-- An exchange that answers every call with candles of the history, the last hundred
completed ones among them. -/
def Answers (source : OhlcvSource) (tf : Timeframe) (history : List OhlcvCandle) : Prop :=
  ∀ now, ∃ candles, source now tf = .ok candles ∧
    (∀ c ∈ candles, closeMs tf c ≤ now * 1000 → c ∈ history) ∧
    ∀ c ∈ (completedBy tf now history).reverse.take 100, c ∈ candles

/-- The series contains the most recent candle completed at a time. -/
def Fresh (tf : Timeframe) (history : List OhlcvCandle) (now : ℚ) (cache : TfCache) : Prop :=
  ∀ c, (completedBy tf now history).getLast? = some c →
    ∃ series, cache.series = some series ∧ c ∈ series

/-- The series of a timeframe is fresh after every tick. -/
def KeepsFresh (source : OhlcvSource) (required : List Timeframe) (tf : Timeframe)
    (history : List OhlcvCandle) (ticks : List ℚ) : Prop :=
  ∀ earlier now, earlier ++ [now] <+: ticks →
    Fresh tf history now (fetches source required (earlier ++ [now]) tf)

/-! ### The fetches among the ticks -/

/-- The stamp a fetch leaves: its own time once a candle of the history has completed before it. -/
def stampOf (interval : ℚ) (tf : Timeframe) (history : List OhlcvCandle) (fetch : ℚ) : ℚ :=
  if ∃ c ∈ history, closeMs tf c < fetch * 1000 then fetch else retryStamp interval fetch

/-- The ticks at which a timeframe is fetched. -/
def fetchTimes (tf : Timeframe) (history : List OhlcvCandle) (ticks : List ℚ) : List ℚ :=
  match tfSeconds tf with
  | none => []
  | some interval => RenewalTimes.timesFrom interval (stampOf interval tf history) 0 ticks

/-- At every tick each candle of the history completed by then has completed before
the last fetch. -/
def NoneLandedSince (tf : Timeframe) (history : List OhlcvCandle) (ticks : List ℚ) : Prop :=
  ∀ earlier now, earlier ++ [now] <+: ticks → ∀ c ∈ history, closeMs tf c ≤ now * 1000 →
    ∃ fetch, (fetchTimes tf history (earlier ++ [now])).getLast? = some fetch ∧
      closeMs tf c < fetch * 1000

/-! ### One timeframe of the cache -/

section Loop

variable (source : OhlcvSource) (now : ℚ)

/-- The loop of `_fetch_closes_if_needed` over some timeframes. -/
def loop (tfs : List Timeframe) (caches : Timeframe → TfCache) : Timeframe → TfCache :=
  tfs.foldl
    (fun caches tf => Function.update caches tf (fetchTimeframe (source now tf) now tf (caches tf)))
    caches

theorem loop_cons (tf : Timeframe) (tfs : List Timeframe) (caches : Timeframe → TfCache) :
    loop source now (tf :: tfs) caches =
      loop source now tfs
        (Function.update caches tf (fetchTimeframe (source now tf) now tf (caches tf))) := rfl

theorem loop_of_notMem (tf : Timeframe) (tfs : List Timeframe) (caches : Timeframe → TfCache)
    (h : tf ∉ tfs) : loop source now tfs caches tf = caches tf := by
  induction tfs generalizing caches with
  | nil => rfl
  | cons first tfs ih =>
    obtain ⟨hfirst, hrest⟩ := not_or.mp (mt List.mem_cons.mpr h)
    rw [loop_cons, ih _ hrest, Function.update_of_ne hfirst]

theorem loop_of_mem (tf : Timeframe) (tfs : List Timeframe) (caches : Timeframe → TfCache)
    (hnodup : tfs.Nodup) (h : tf ∈ tfs) :
    loop source now tfs caches tf = fetchTimeframe (source now tf) now tf (caches tf) := by
  induction tfs generalizing caches with
  | nil => cases h
  | cons first tfs ih =>
    obtain ⟨hfirst, hrest⟩ := List.nodup_cons.mp hnodup
    rw [loop_cons]
    rcases List.mem_cons.mp h with rfl | htail
    · rw [loop_of_notMem source now tf tfs _ hfirst, Function.update_self]
    · have hne : tf ≠ first := fun heq => hfirst (heq ▸ htail)
      rw [ih _ hrest htail, Function.update_of_ne hne]

end Loop

/-- The cache of one timeframe after a sequence of ticks. -/
def fetched (source : OhlcvSource) (tf : Timeframe) (ticks : List ℚ) : TfCache :=
  ticks.foldl (fun cache now => fetchTimeframe (source now tf) now tf cache) {}

theorem fetched_concat (source : OhlcvSource) (tf : Timeframe) (ticks : List ℚ) (now : ℚ) :
    fetched source tf (ticks ++ [now]) =
      fetchTimeframe (source now tf) now tf (fetched source tf ticks) := by
  simp [fetched]

theorem fetches_required (source : OhlcvSource) (required : List Timeframe) (tf : Timeframe)
    (h : tf ∈ required) (ticks : List ℚ) :
    fetches source required ticks tf = fetched source tf ticks := by
  induction ticks using List.reverseRecOn with
  | nil => rfl
  | append_singleton ticks now ih =>
    have hstep : fetches source required (ticks ++ [now]) =
        loop source now required.dedup (fetches source required ticks) := by
      simp [fetches, fetchClosesIfNeeded, loop]
    rw [hstep, loop_of_mem source now tf _ _ required.nodup_dedup (List.mem_dedup.mpr h), ih,
      fetched_concat]

/-! ### What one tick does to a timeframe -/

theorem tfSeconds_eq (tf : Timeframe) (interval : ℚ) (h : tfSeconds tf = some interval) :
    interval = candleSeconds tf := by
  cases tf with
  | m15 | h1 | h4 | d1 =>
    cases h
    norm_num [candleSeconds]
  | m30 | h2 | h12 => cases h

theorem fetchTimeframe_unknown (answer : Except String (List OhlcvCandle)) (now : ℚ)
    (tf : Timeframe) (cache : TfCache) (h : tfSeconds tf = none) :
    fetchTimeframe answer now tf cache = cache := by
  rw [fetchTimeframe, h]

theorem fetchTimeframe_cached (answer : Except String (List OhlcvCandle)) (now : ℚ)
    (tf : Timeframe) (interval : ℚ) (cache : TfCache) (h : tfSeconds tf = some interval)
    (hcached : now - cache.fetchedAt < interval) :
    fetchTimeframe answer now tf cache = cache := by
  rw [fetchTimeframe, h]
  exact if_pos hcached

theorem mem_completedOf (tf : Timeframe) (interval now : ℚ) (candles : List OhlcvCandle)
    (h : tfSeconds tf = some interval) (c : OhlcvCandle) :
    c ∈ completedOf interval now candles ↔ c ∈ candles ∧ closeMs tf c < now * 1000 := by
  rw [tfSeconds_eq tf interval h]
  simp [completedOf, closeMs]

theorem mem_completedBy (tf : Timeframe) (now : ℚ) (history : List OhlcvCandle) (c : OhlcvCandle) :
    c ∈ completedBy tf now history ↔ c ∈ history ∧ closeMs tf c ≤ now * 1000 := by
  simp [completedBy]

/-- The candles of a history completed before a time. -/
def completedBefore (tf : Timeframe) (now : ℚ) (history : List OhlcvCandle) : List OhlcvCandle :=
  Timeline.before (closeMs tf) (now * 1000) history

theorem mem_completedBefore (tf : Timeframe) (now : ℚ) (history : List OhlcvCandle)
    (c : OhlcvCandle) :
    c ∈ completedBefore tf now history ↔ c ∈ history ∧ closeMs tf c < now * 1000 :=
  Timeline.mem_before (closeMs tf) (now * 1000) history c

section Answer

variable {tf : Timeframe} {history : List OhlcvCandle}

theorem increasing_closeMs (hinc : Timeline.Increasing OhlcvCandle.timestamp history) :
    Timeline.Increasing (closeMs tf) history :=
  hinc.imp fun h => by simpa [closeMs] using h

/-- The last candle completed before a time is the last or the last but one completed by it. -/
theorem lastBefore_answered (hinc : Timeline.Increasing OhlcvCandle.timestamp history)
    (candles : List OhlcvCandle) (now : ℚ) (c : OhlcvCandle)
    (hrecent : ∀ c ∈ (completedBy tf now history).reverse.take 100, c ∈ candles)
    (hlast : (completedBefore tf now history).getLast? = some c) : c ∈ candles := by
  obtain ⟨⟨hmem, hbefore⟩, hmax⟩ :=
    (Timeline.getLast?_filter_iff (closeMs tf) history _ c (increasing_closeMs hinc)).mp hlast
  have hbefore : closeMs tf c < now * 1000 := of_decide_eq_true hbefore
  have hdecreasing : (completedBy tf now history).reverse.Pairwise fun a b =>
      closeMs tf b < closeMs tf a :=
    List.pairwise_reverse.mpr (List.Pairwise.filter _ (increasing_closeMs hinc))
  have hby : c ∈ (completedBy tf now history).reverse :=
    List.mem_reverse.mpr ((mem_completedBy tf now history c).mpr ⟨hmem, hbefore.le⟩)
  apply hrecent
  cases hreverse : (completedBy tf now history).reverse with
  | nil => rw [hreverse] at hby; cases hby
  | cons newest older =>
    rw [hreverse] at hby hdecreasing
    obtain ⟨hnewest, holder⟩ := List.pairwise_cons.mp hdecreasing
    rcases List.mem_cons.mp hby with rfl | hin
    · exact List.mem_cons_self
    · cases older with
      | nil => cases hin
      | cons second rest =>
        rcases List.mem_cons.mp hin with rfl | hin
        · exact List.mem_cons_of_mem newest List.mem_cons_self
        · have hc := (List.pairwise_cons.mp holder).1 c hin
          have hsecond : second ∈ (completedBy tf now history).reverse := by rw [hreverse]; simp
          have hnew : newest ∈ (completedBy tf now history).reverse := by rw [hreverse]; simp
          obtain ⟨hsecondMem, -⟩ :=
            (mem_completedBy tf now history second).mp (List.mem_reverse.mp hsecond)
          obtain ⟨-, hnewBy⟩ := (mem_completedBy tf now history newest).mp (List.mem_reverse.mp hnew)
          have hlt := (hnewest second List.mem_cons_self).trans_le hnewBy
          have hle := hmax second hsecondMem (decide_eq_true hlt)
          exact absurd hc (not_lt.mpr hle)

variable {interval : ℚ} (hinterval : tfSeconds tf = some interval)
include hinterval

theorem completedOf_eq_nil_iff (hinc : Timeline.Increasing OhlcvCandle.timestamp history)
    (candles : List OhlcvCandle) (now : ℚ)
    (hmem : ∀ c ∈ candles, closeMs tf c ≤ now * 1000 → c ∈ history)
    (hrecent : ∀ c ∈ (completedBy tf now history).reverse.take 100, c ∈ candles) :
    completedOf interval now candles = [] ↔ ¬ ∃ c ∈ history, closeMs tf c < now * 1000 := by
  constructor
  · intro hnil ⟨c, hc, hlt⟩
    have hne : completedBefore tf now history ≠ [] :=
      List.ne_nil_of_mem ((mem_completedBefore tf now history c).mpr ⟨hc, hlt⟩)
    have hlast := List.getLast?_eq_some_getLast hne
    have hanswer := lastBefore_answered hinc candles now _ hrecent hlast
    have hcompleted := (mem_completedBefore tf now history _).mp (List.getLast_mem hne)
    have hkept := (mem_completedOf tf interval now candles hinterval _).mpr
      ⟨hanswer, hcompleted.2⟩
    rw [hnil] at hkept
    cases hkept
  · intro hnone
    rw [List.eq_nil_iff_forall_not_mem]
    intro c hc
    obtain ⟨hcandle, hlt⟩ := (mem_completedOf tf interval now candles hinterval c).mp hc
    exact hnone ⟨c, hmem c hcandle hlt.le, hlt⟩

/-- What a tick that fetches does to the cache. -/
theorem fetchTimeframe_fetch (hinc : Timeline.Increasing OhlcvCandle.timestamp history)
    (source : OhlcvSource) (hans : Answers source tf history) (now : ℚ) (cache : TfCache)
    (hdue : ¬ now - cache.fetchedAt < interval) :
    (fetchTimeframe (source now tf) now tf cache).fetchedAt = stampOf interval tf history now ∧
      (∀ c, (completedBefore tf now history).getLast? = some c →
        ∃ series, (fetchTimeframe (source now tf) now tf cache).series = some series ∧
          c ∈ series) ∧
      ∀ series, (fetchTimeframe (source now tf) now tf cache).series = some series →
        cache.series = some series ∨ ∀ c ∈ series, closeMs tf c < now * 1000 := by
  obtain ⟨candles, hok, hmem, hrecent⟩ := hans now
  have hempty := completedOf_eq_nil_iff hinterval hinc candles now hmem hrecent
  rw [fetchTimeframe, hinterval, hok]
  simp only [if_neg hdue]
  by_cases hnil : completedOf interval now candles = []
  · have hnone := hempty.mp hnil
    rw [if_pos hnil, stampOf, if_neg hnone]
    refine ⟨rfl, fun c hc => ?_, fun series hseries => Or.inl hseries⟩
    have hcompleted := (mem_completedBefore tf now history c).mp (List.mem_of_getLast? hc)
    exact absurd ⟨c, hcompleted⟩ hnone
  · have hsome := not_not.mp (mt hempty.mpr hnil)
    rw [if_neg hnil, stampOf, if_pos hsome]
    refine ⟨rfl, fun c hc => ?_, fun series hseries => Or.inr fun c hc => ?_⟩
    · have hcompleted := (mem_completedBefore tf now history c).mp (List.mem_of_getLast? hc)
      have hanswer := lastBefore_answered hinc candles now c hrecent hc
      exact ⟨_, rfl, (mem_completedOf tf interval now candles hinterval c).mpr
        ⟨hanswer, hcompleted.2⟩⟩
    · rw [← Option.some.inj hseries] at hc
      exact ((mem_completedOf tf interval now candles hinterval c).mp hc).2

end Answer

/-! ### The cache in terms of the fetches -/

section Run

variable {tf : Timeframe} {interval : ℚ} {history : List OhlcvCandle}

/-- The series holds the last candle completed before the last fetch, and no candle completed
since. -/
structure Holds (tf : Timeframe) (history : List OhlcvCandle) (last : Option ℚ)
    (cache : TfCache) : Prop where
  latest : ∀ fetch, last = some fetch →
    ∀ c, (completedBefore tf fetch history).getLast? = some c →
      ∃ series, cache.series = some series ∧ c ∈ series
  old : ∀ series, cache.series = some series →
    ∃ fetch, last = some fetch ∧ ∀ c ∈ series, closeMs tf c < fetch * 1000

theorem holds_fetch (hinterval : tfSeconds tf = some interval)
    (hinc : Timeline.Increasing OhlcvCandle.timestamp history) (source : OhlcvSource)
    (hans : Answers source tf history) (cache : TfCache) (last : Option ℚ) (now : ℚ)
    (hle : ∀ fetch ∈ last, fetch ≤ now) (hdue : ¬ now - cache.fetchedAt < interval)
    (h : Holds tf history last cache) :
    Holds tf history (some now) (fetchTimeframe (source now tf) now tf cache) := by
  obtain ⟨-, hlatest, hold⟩ := fetchTimeframe_fetch hinterval hinc source hans now cache hdue
  refine ⟨fun fetch hfetch => ?_, fun series hseries => ⟨now, rfl, ?_⟩⟩
  · rw [← Option.some.inj hfetch]
    exact hlatest
  · rcases hold series hseries with hkept | hnew
    · obtain ⟨fetch, hfetch, hbefore⟩ := h.old series hkept
      have hfetchLe := hle fetch hfetch
      intro c hc
      have hc := hbefore c hc
      linarith
    · exact hnew

theorem holds_fetched (hinterval : tfSeconds tf = some interval)
    (hinc : Timeline.Increasing OhlcvCandle.timestamp history) (source : OhlcvSource)
    (hans : Answers source tf history) (ticks : List ℚ) (hle : ticks.Pairwise (· ≤ ·)) :
    Holds tf history (fetchTimes tf history ticks).getLast? (fetched source tf ticks) := by
  have hstart : Holds tf history none {} := by
    refine ⟨fun fetch hfetch => ?_, fun series hseries => ?_⟩
    · cases hfetch
    · cases hseries
  have hrun := RenewalTimes.run_invariant interval (stampOf interval tf history)
    (fun cache now => fetchTimeframe (source now tf) now tf cache) TfCache.fetchedAt (· ≤ ·)
    (Holds tf history)
    (fun cache now hcached =>
      fetchTimeframe_cached (source now tf) now tf interval cache hinterval hcached)
    (fun cache now hdue => (fetchTimeframe_fetch hinterval hinc source hans now cache hdue).1)
    (fun cache last now hlast hdue h =>
      holds_fetch hinterval hinc source hans cache last now hlast hdue h)
    {} hstart ticks hle
  rw [fetchTimes, hinterval]
  exact hrun.2

theorem fetchTime_mem (ticks : List ℚ) (fetch : ℚ)
    (h : (fetchTimes tf history ticks).getLast? = some fetch) : fetch ∈ ticks := by
  have hmem := List.mem_of_getLast? h
  rw [fetchTimes] at hmem
  cases hinterval : tfSeconds tf with
  | none =>
    rw [hinterval] at hmem
    cases hmem
  | some interval =>
    rw [hinterval] at hmem
    exact RenewalTimes.mem_of_timesFrom interval _ 0 ticks fetch hmem

theorem fetched_unknown (hnone : tfSeconds tf = none) (source : OhlcvSource) (ticks : List ℚ) :
    fetched source tf ticks = {} := by
  induction ticks using List.reverseRecOn with
  | nil => rfl
  | append_singleton ticks now ih =>
    rw [fetched_concat, fetchTimeframe_unknown _ now tf _ hnone, ih]

end Run

/-! ### Freshness at a tick -/

section Tick

variable {tf : Timeframe} {history : List OhlcvCandle}

/-- The cache is fresh at a tick exactly when every completed candle completed before
the last fetch. -/
theorem fresh_iff (hinc : Timeline.Increasing OhlcvCandle.timestamp history)
    (source : OhlcvSource) (hans : Answers source tf history) (earlier : List ℚ) (now : ℚ)
    (hle : (earlier ++ [now]).Pairwise (· ≤ ·)) :
    Fresh tf history now (fetched source tf (earlier ++ [now])) ↔
      ∀ c ∈ history, closeMs tf c ≤ now * 1000 →
        ∃ fetch, (fetchTimes tf history (earlier ++ [now])).getLast? = some fetch ∧
          closeMs tf c < fetch * 1000 := by
  have hlastIff := fun c p =>
    Timeline.getLast?_filter_iff (closeMs tf) history p c (increasing_closeMs hinc)
  constructor
  · intro hfresh c hc hby
    have hne : completedBy tf now history ≠ [] :=
      List.ne_nil_of_mem ((mem_completedBy tf now history c).mpr ⟨hc, hby⟩)
    have hlast := List.getLast?_eq_some_getLast hne
    have hmax := ((hlastIff _ _).mp hlast).2 c hc (decide_eq_true hby)
    obtain ⟨series, hseries, hin⟩ := hfresh _ hlast
    cases hinterval : tfSeconds tf with
    | none =>
      rw [fetched_unknown hinterval] at hseries
      cases hseries
    | some interval =>
      have hholds := holds_fetched hinterval hinc source hans (earlier ++ [now]) hle
      obtain ⟨fetch, hfetch, hold⟩ := hholds.old series hseries
      exact ⟨fetch, hfetch, hmax.trans_lt (hold _ hin)⟩
  · intro h c hlast
    obtain ⟨⟨hc, hby⟩, hmax⟩ := (hlastIff c _).mp hlast
    obtain ⟨fetch, hfetch, hbefore⟩ := h c hc (of_decide_eq_true hby)
    cases hinterval : tfSeconds tf with
    | none =>
      rw [fetchTimes, hinterval] at hfetch
      cases hfetch
    | some interval =>
      have hholds := holds_fetched hinterval hinc source hans (earlier ++ [now]) hle
      apply hholds.latest fetch hfetch c
      have htick := fetchTime_mem _ fetch hfetch
      have hfetchLe : fetch ≤ now := by
        rcases List.mem_append.mp htick with htick | htick
        · exact (List.pairwise_append.mp hle).2.2 fetch htick now List.mem_cons_self
        · exact (List.mem_singleton.mp htick).le
      refine (hlastIff c _).mpr ⟨⟨hc, decide_eq_true hbefore⟩, fun other hother hlt => ?_⟩
      have hlt : closeMs tf other < fetch * 1000 := of_decide_eq_true hlt
      exact hmax other hother (decide_eq_true (by linarith))

end Tick

/-- The series of a timeframe is fresh after every tick exactly when no candle of it
completes between the last fetch and a tick. -/
theorem keepsFresh_iff (source : OhlcvSource) (required : List Timeframe) (tf : Timeframe)
    (hrequired : tf ∈ required) (history : List OhlcvCandle)
    (hinc : Timeline.Increasing OhlcvCandle.timestamp history)
    (hans : Answers source tf history) (ticks : List ℚ) (hle : ticks.Pairwise (· ≤ ·)) :
    KeepsFresh source required tf history ticks ↔ NoneLandedSince tf history ticks := by
  have htick : ∀ earlier now, earlier ++ [now] <+: ticks →
      (Fresh tf history now (fetches source required (earlier ++ [now]) tf) ↔
        ∀ c ∈ history, closeMs tf c ≤ now * 1000 →
          ∃ fetch, (fetchTimes tf history (earlier ++ [now])).getLast? = some fetch ∧
            closeMs tf c < fetch * 1000) := by
    intro earlier now hpre
    rw [fetches_required source required tf hrequired]
    exact fresh_iff hinc source hans earlier now (hle.sublist hpre.sublist)
  constructor
  · intro h earlier now hpre
    exact (htick earlier now hpre).mp (h earlier now hpre)
  · intro h earlier now hpre
    exact (htick earlier now hpre).mpr (h earlier now hpre)

/-- An exchange that answers with the candles opened by the call. -/
def opened (history : List OhlcvCandle) : OhlcvSource := fun now _ =>
  .ok (history.filter fun c => decide (c.timestamp ≤ now * 1000))

theorem answers_opened (tf : Timeframe) (history : List OhlcvCandle) :
    Answers (opened history) tf history := by
  intro now
  refine ⟨_, rfl, fun c hc _ => (List.mem_filter.mp hc).1, fun c hc => ?_⟩
  have hby := List.mem_reverse.mp (List.mem_of_mem_take hc)
  obtain ⟨hmem, hclose⟩ := (mem_completedBy tf now history c).mp hby
  have hseconds : 0 ≤ candleSeconds tf := by cases tf <;> norm_num [candleSeconds]
  rw [closeMs] at hclose
  exact List.mem_filter.mpr ⟨hmem, decide_eq_true (by linarith)⟩

/-- Two hourly candles, the second completed at 367200 s. -/
def hourly : List OhlcvCandle := [⟨360000000, 101, 99, 100⟩, ⟨363600000, 102, 100, 101⟩]

/-- A tick ten seconds before the second hour ends, and one ten seconds after. -/
def aroundTheHour : List ℚ := [367190, 367210]

theorem keepsFresh_iff_hourly :
    KeepsFresh (opened hourly) [.h1] .h1 hourly aroundTheHour ↔
      NoneLandedSince .h1 hourly aroundTheHour :=
  keepsFresh_iff (opened hourly) [.h1] .h1 (by decide) hourly
    (by norm_num [Timeline.Increasing, hourly]) (answers_opened .h1 hourly) aroundTheHour
    (by decide +kernel)

/-- The candle that completed between the ticks is not in the series. -/
theorem not_keepsFresh_hourly :
    ¬ ∀ (source : OhlcvSource) (required : List Timeframe) (tf : Timeframe) (history : List OhlcvCandle)
      (ticks : List ℚ), tf ∈ required → Timeline.Increasing OhlcvCandle.timestamp history →
        Answers source tf history → ticks.Pairwise (· ≤ ·) →
          KeepsFresh source required tf history ticks := by
  intro h
  obtain ⟨series, hseries, hin⟩ := h (opened hourly) [.h1] .h1 hourly aroundTheHour (by decide)
    (by norm_num [Timeline.Increasing, hourly]) (answers_opened .h1 hourly) (by decide +kernel)
    [367190] 367210 List.prefix_rfl ⟨363600000, 102, 100, 101⟩ (by decide +kernel)
  have hcached : (fetches (opened hourly) [.h1] ([367190] ++ [367210]) .h1).series =
      some [⟨360000000, 101, 99, 100⟩] := by decide +kernel
  rw [hcached] at hseries
  obtain rfl := Option.some.inj hseries
  revert hin
  decide +kernel

end CandleCache

end Reverto
