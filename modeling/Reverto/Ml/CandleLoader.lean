import Mathlib.Tactic
import Reverto.Lib.LastOfKey

/-!
# Loading the candles before a deal (ml/candle_loader.py)

`load_candles_for_deal` over the files of its cache and an exchange. The name of a file joins
the symbol, the timeframe and the UTC day, and the last two have no underscore, so the three
stand for the name. What `fromisoformat` reads from a text is part of the deal.
-/

namespace Reverto

namespace CandleLoader

/-- A candle as the loader returns it. -/
structure Bar where
  timestamp : ℤ
  openPrice : ℚ
  high : ℚ
  low : ℚ
  close : ℚ
  volume : ℚ
  deriving DecidableEq, Repr

/-- `deal.get("opened_at")`: a number, a text with the moment it reads as, or something else. -/
inductive OpenedAt where
  | missing
  | number (q : ℚ)
  | text (moment : Option ℚ)
  | other
  deriving DecidableEq, Repr

/-- `int` of a number. -/
def truncated (q : ℚ) : ℤ := if 0 ≤ q then q.floor else q.ceil

/-- `_to_epoch_seconds` -/
def toEpochSeconds : OpenedAt → Option ℤ
  | .missing => none
  | .number q => some (truncated q)
  | .text moment => moment.map truncated
  | .other => none

/-- `TIMEFRAME_SECONDS` -/
def timeframeSeconds : String → Option ℤ
  | "1m" => some 60
  | "5m" => some 300
  | "15m" => some 900
  | "30m" => some 1800
  | "1h" => some 3600
  | "4h" => some 14400
  | "1d" => some 86400
  | _ => none

/-- The arguments of a call. -/
structure Request where
  openedAt : OpenedAt
  symbol : String
  timeframe : String
  lookbackPeriods : ℕ
  deriving DecidableEq, Repr

/-- The symbol in a file name. -/
def safeSymbol (symbol : String) : String :=
  symbol.map fun c => if c = '/' ∨ c = ':' then '_' else c

/-- `_cache_path` -/
structure CachePath where
  symbol : String
  timeframe : String
  day : ℤ
  deriving DecidableEq, Repr

def cachePath (r : Request) (openedAt : ℤ) : CachePath :=
  ⟨safeSymbol r.symbol, r.timeframe, openedAt / 86400⟩

/-- The rows of the files that exist. -/
abbrev Files : Type := CachePath → Option (List Bar)

/-- `_fetch_candles_ccxt(symbol, timeframe, since_ms, limit)` -/
abbrev Exchange : Type := String → String → ℤ → ℕ → List Bar

/-- `candles[-n:]` -/
def lastOf {α : Type} (n : ℕ) (candles : List α) : List α :=
  if n = 0 then candles else candles.drop (candles.length - n)

/-- The rows between two times, both included. -/
def between (since untilTime : ℤ) (rows : List Bar) : List Bar :=
  rows.filter fun c => since ≤ c.timestamp ∧ c.timestamp ≤ untilTime

/-- `_load_from_cache` of a file that can be read. -/
def loadFromCache (rows : List Bar) (since untilTime : ℤ) : Option (List Bar) :=
  if (between since untilTime rows).isEmpty then none else some (between since untilTime rows)

/-- `_write_cache`: the last row of each timestamp, in order; a new file has the candles as
they came. -/
def writeCache (file : Option (List Bar)) (candles : List Bar) : List Bar :=
  match file with
  | none => candles
  | some old =>
    (LastOfKey.lasts Bar.timestamp (old ++ candles)).insertionSort
      fun a b => a.timestamp ≤ b.timestamp

/-- `since` -/
def sinceOf (r : Request) (openedAt tfS : ℤ) : ℤ := openedAt - r.lookbackPeriods * tfS

/-- The cached window, if it is there and large enough to serve the deal. -/
def servedWindow (files : Files) (r : Request) (openedAt tfS : ℤ) : Option (List Bar) :=
  match files (cachePath r openedAt) with
  | none => none
  | some rows =>
    match loadFromCache rows (sinceOf r openedAt tfS) openedAt with
    | none => none
    | some cached => if r.lookbackPeriods * 9 / 10 ≤ cached.length then some cached else none

/-- The candles of the exchange for a window. -/
def fetched (exchange : Exchange) (r : Request) (openedAt tfS : ℤ) : List Bar :=
  exchange r.symbol r.timeframe (sinceOf r openedAt tfS * 1000) (r.lookbackPeriods + 10)

/-- `load_candles_for_deal` once the time and the timeframe are known. -/
def loadWindow (exchange : Exchange) (useCache : Bool) (files : Files) (r : Request)
    (openedAt tfS : ℤ) : List Bar × Files :=
  match if useCache then servedWindow files r openedAt tfS else none with
  | some cached => (lastOf r.lookbackPeriods cached, files)
  | none =>
    let candles := fetched exchange r openedAt tfS
    if candles.isEmpty then ([], files)
    else
      (lastOf r.lookbackPeriods (candles.filter fun c => c.timestamp ≤ openedAt),
        if useCache then
          Function.update files (cachePath r openedAt)
            (some (writeCache (files (cachePath r openedAt)) candles))
        else files)

/-- `load_candles_for_deal` -/
def loadCandlesForDeal (exchange : Exchange) (useCache : Bool) (files : Files) (r : Request) :
    List Bar × Files :=
  match toEpochSeconds r.openedAt, timeframeSeconds r.timeframe with
  | some openedAt, some tfS => loadWindow exchange useCache files r openedAt tfS
  | _, _ => ([], files)

/-! ### The end of a list -/

theorem lastOf_nil {α : Type} (n : ℕ) : lastOf n ([] : List α) = [] := by
  unfold lastOf
  rw [List.drop_nil, ite_self]

theorem mem_of_mem_lastOf {α : Type} (n : ℕ) (l : List α) (a : α) (h : a ∈ lastOf n l) : a ∈ l := by
  unfold lastOf at h
  split at h
  · exact h
  · exact List.mem_of_mem_drop h

/-- The last element is kept. -/
theorem getLast_mem_lastOf {α : Type} (n : ℕ) (l : List α) (hl : l ≠ []) :
    l.getLast hl ∈ lastOf n l := by
  unfold lastOf
  split
  · exact List.getLast_mem hl
  · have hpos : 0 < l.length := List.length_pos_iff.mpr hl
    have hdrop : l.drop (l.length - n) ≠ [] := by
      intro hnil
      have hlen := List.drop_eq_nil_iff.mp hnil
      omega
    rw [← List.getLast_drop hdrop]
    exact List.getLast_mem hdrop

/-! ### Candles that are still forming -/

/-- The candles that the deal is served from: the cached window or what the exchange sends. -/
def source (exchange : Exchange) (useCache : Bool) (files : Files) (r : Request)
    (openedAt tfS : ℤ) : List Bar :=
  match if useCache then servedWindow files r openedAt tfS else none with
  | some cached => cached
  | none => fetched exchange r openedAt tfS

/-- The candle has closed when the deal opens. -/
def Closed (r : Request) (c : Bar) : Prop :=
  ∀ openedAt tfS, toEpochSeconds r.openedAt = some openedAt →
    timeframeSeconds r.timeframe = some tfS → c.timestamp + tfS ≤ openedAt

/-- Nothing the deal is served from is open when the deal opens. -/
def NoneForming (exchange : Exchange) (useCache : Bool) (files : Files) (r : Request) : Prop :=
  ∀ openedAt tfS, toEpochSeconds r.openedAt = some openedAt →
    timeframeSeconds r.timeframe = some tfS → ∀ c ∈ source exchange useCache files r openedAt tfS,
      ¬ (openedAt - tfS < c.timestamp ∧ c.timestamp ≤ openedAt)

/-- What the deal is served from is in the order of time. -/
def InTime (exchange : Exchange) (useCache : Bool) (files : Files) (r : Request) : Prop :=
  ∀ openedAt tfS, toEpochSeconds r.openedAt = some openedAt →
    timeframeSeconds r.timeframe = some tfS →
      (source exchange useCache files r openedAt tfS).Pairwise fun a b => a.timestamp ≤ b.timestamp

theorem servedWindow_between (files : Files) (r : Request) (openedAt tfS : ℤ) (cached : List Bar)
    (h : servedWindow files r openedAt tfS = some cached) :
    ∃ rows, files (cachePath r openedAt) = some rows ∧
      cached = between (sinceOf r openedAt tfS) openedAt rows := by
  unfold servedWindow at h
  cases hfile : files (cachePath r openedAt) with
  | none =>
    rw [hfile] at h
    cases h
  | some rows =>
    rw [hfile] at h
    dsimp only at h
    unfold loadFromCache at h
    split at h
    · cases h
    · rename_i cached' hload
      split at hload
      · cases hload
      · split at h
        · cases hload
          cases h
          exact ⟨rows, rfl, rfl⟩
        · cases h

/-- Either way the result is the end of what opened by then. -/
theorem loadWindow_source (exchange : Exchange) (useCache : Bool) (files : Files) (r : Request)
    (openedAt tfS : ℤ) :
    (loadWindow exchange useCache files r openedAt tfS).1 =
      lastOf r.lookbackPeriods
        ((source exchange useCache files r openedAt tfS).filter fun c => c.timestamp ≤ openedAt) := by
  unfold loadWindow source
  cases hserved : (if useCache then servedWindow files r openedAt tfS else none) with
  | some cached =>
    dsimp only
    have hall : (cached.filter fun c => c.timestamp ≤ openedAt) = cached := by
      rw [List.filter_eq_self]
      intro c hc
      cases useCache with
      | false => cases hserved
      | true =>
        obtain ⟨rows, _, rfl⟩ := servedWindow_between files r openedAt tfS cached hserved
        have hin := (List.mem_filter.mp hc).2
        rw [decide_eq_true_iff] at hin
        exact decide_eq_true hin.2
    rw [hall]
  | none =>
    dsimp only
    split
    · rename_i hnil
      rw [List.isEmpty_iff.mp hnil, List.filter_nil, lastOf_nil]
    · rfl

theorem loadCandlesForDeal_eq (exchange : Exchange) (useCache : Bool) (files : Files) (r : Request)
    (openedAt tfS : ℤ) (hopened : toEpochSeconds r.openedAt = some openedAt)
    (htf : timeframeSeconds r.timeframe = some tfS) :
    loadCandlesForDeal exchange useCache files r =
      loadWindow exchange useCache files r openedAt tfS := by
  unfold loadCandlesForDeal
  rw [hopened, htf]

/-- Without a time or a timeframe nothing is loaded. -/
theorem loadCandlesForDeal_none (exchange : Exchange) (useCache : Bool) (files : Files)
    (r : Request)
    (h : toEpochSeconds r.openedAt = none ∨ timeframeSeconds r.timeframe = none) :
    loadCandlesForDeal exchange useCache files r = ([], files) := by
  unfold loadCandlesForDeal
  rcases h with h | h
  · rw [h]
  · rw [h]
    cases toEpochSeconds r.openedAt with
    | none => rfl
    | some openedAt => rfl

/-- No candle that is still forming is returned when the deal is not served from one; with
candles in the order of time that is the only case. -/
theorem closed_iff_noneForming (exchange : Exchange) (useCache : Bool) (files : Files)
    (r : Request) :
    (NoneForming exchange useCache files r →
        ∀ c ∈ (loadCandlesForDeal exchange useCache files r).1, Closed r c) ∧
      (InTime exchange useCache files r →
        (∀ c ∈ (loadCandlesForDeal exchange useCache files r).1, Closed r c) →
          NoneForming exchange useCache files r) := by
  constructor
  · intro hnone c hc openedAt tfS hopened htf
    rw [loadCandlesForDeal_eq exchange useCache files r openedAt tfS hopened htf,
      loadWindow_source] at hc
    obtain ⟨hmem, hle⟩ := List.mem_filter.mp (mem_of_mem_lastOf _ _ c hc)
    have hnot := hnone openedAt tfS hopened htf c hmem
    rw [decide_eq_true_iff] at hle
    omega
  · intro hsorted hclosed openedAt tfS hopened htf c hc hforming
    have hall := hclosed
    rw [loadCandlesForDeal_eq exchange useCache files r openedAt tfS hopened htf,
      loadWindow_source] at hall
    generalize hl : (source exchange useCache files r openedAt tfS).filter
      (fun c => c.timestamp ≤ openedAt) = l at hall
    have hcl : c ∈ l := by
      rw [← hl]
      exact List.mem_filter.mpr ⟨hc, decide_eq_true hforming.2⟩
    have hne : l ≠ [] := List.ne_nil_of_mem hcl
    have hpair : l.Pairwise fun a b => a.timestamp ≤ b.timestamp := by
      rw [← hl]
      exact (hsorted openedAt tfS hopened htf).filter _
    -- The newest candle opened no earlier than the forming one and is always kept.
    have hnewest : c.timestamp ≤ (l.getLast hne).timestamp := by
      rcases List.mem_append.mp (List.dropLast_append_getLast hne ▸ hcl) with hin | hin
      · rw [← List.dropLast_append_getLast hne] at hpair
        exact (List.pairwise_append.mp hpair).2.2 c hin _ (List.mem_singleton_self _)
      · rw [List.mem_singleton.mp hin]
    have hlast := hall (l.getLast hne) (getLast_mem_lastOf _ l hne) openedAt tfS hopened htf
    omega

/-- The hour in which the deal opens. -/
def formingHour : Bar := ⟨3600, 60000, 60100, 59900, 60050, 1⟩

def halfPastOne : Request := ⟨.number 5400, "BTC/USD", "1h", 100⟩

/-- The hour before. -/
def closedHour : Bar := ⟨0, 59900, 60020, 59800, 60000, 1⟩

theorem closed_of_closedHour :
    ∀ c ∈ (loadCandlesForDeal (fun _ _ _ _ => [closedHour]) true (fun _ => none)
      halfPastOne).1, Closed halfPastOne c := by
  refine (closed_iff_noneForming (fun _ _ _ _ => [closedHour]) true (fun _ => none)
    halfPastOne).1 ?_
  intro openedAt tfS hopened htf c hc hforming
  have hnow : toEpochSeconds halfPastOne.openedAt = some 5400 := by decide +kernel
  rw [hnow] at hopened
  cases hopened
  cases htf
  rw [List.mem_singleton.mp hc] at hforming
  exact absurd hforming (by decide)

/-- A deal that opens at half past one is given the candle of one o'clock. -/
theorem not_closed_halfPastOne :
    ¬ ∀ (exchange : Exchange) (useCache : Bool) (files : Files) (r : Request),
      ∀ c ∈ (loadCandlesForDeal exchange useCache files r).1, Closed r c := by
  intro h
  have hloaded : (loadCandlesForDeal (fun _ _ _ _ => [formingHour]) true (fun _ => none)
      halfPastOne).1 = [formingHour] := by decide +kernel
  have hclosed := h (fun _ _ _ _ => [formingHour]) true (fun _ => none) halfPastOne formingHour
    (by rw [hloaded]; exact List.mem_singleton_self _) 5400 3600 (by decide +kernel) rfl
  exact absurd hclosed (by decide)

end CandleLoader

end Reverto
