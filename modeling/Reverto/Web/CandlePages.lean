import Mathlib.Tactic
import Reverto.Lib.CursorPages
import Reverto.Lib.KeyedDict

/-!
# The paginated candle fetch (web/app.py, _fetch_ohlcv_range)

Pages of 200 bars are read from a cursor until the range, the present, two empty pages or the
page budget ends the walk. The text of the log lines is left out.
-/

namespace Reverto

namespace CandlePages

/-- `_CHART_TIMEFRAMES` -/
inductive ChartTimeframe
  | m15
  | m30
  | h1
  | h2
  | h4
  | h12
  | d1
  | d3
  | w1
  deriving DecidableEq

/-- `_TF_SECONDS` -/
def ChartTimeframe.seconds : ChartTimeframe → ℤ
  | .m15 => 15 * 60
  | .m30 => 30 * 60
  | .h1 => 60 * 60
  | .h2 => 2 * 60 * 60
  | .h4 => 4 * 60 * 60
  | .h12 => 12 * 60 * 60
  | .d1 => 24 * 60 * 60
  | .d3 => 3 * 24 * 60 * 60
  | .w1 => 7 * 24 * 60 * 60

/-- `tf_ms` -/
def ChartTimeframe.ms (tf : ChartTimeframe) : ℤ := tf.seconds * 1000

theorem ChartTimeframe.ms_pos (tf : ChartTimeframe) : 0 < tf.ms := by
  cases tf <;> decide

/-- A row of ccxt: the timestamp and the values behind it. -/
structure OhlcvRow (ρ : Type) where
  ts : ℤ
  values : ρ
  deriving DecidableEq

variable {ρ : Type}

/-- The exchange client: what attempt `attempt` of page `page` with `since` and `limit` returns,
`none` for an exception. -/
abbrev Client (ρ : Type) := ℕ → ℕ → ℤ → ℕ → Option (List (OhlcvRow ρ))

/-- `_fetch_ohlcv_page_with_retry` -/
def fetchOhlcvPageWithRetry (client : Client ρ) (page : ℕ) (sinceMs : ℤ) (limit : ℕ) :
    List (OhlcvRow ρ) :=
  ((List.range 3).findSome? fun attempt => client page attempt sinceMs limit).getD []

/-- The variables of the loop of `_fetch_ohlcv_range`. -/
structure FetchState (ρ : Type) where
  since : ℤ
  emptyPages : ℕ := 0
  pagesFetched : ℕ := 0
  bars : KeyedDict (OhlcvRow.ts (ρ := ρ)) := .empty

section Code

variable (client : Client ρ) (clock : ℕ → ℤ) (timeframe : ChartTimeframe) (startMs endMs : ℤ)

/-- `page_max_ts` -/
def pageMaxTs (page : List (OhlcvRow ρ)) : ℤ :=
  page.foldl (fun latest row => if latest < row.ts then row.ts else latest) 0

/-- `bars[ts] = row` for the rows of the range -/
def collect (page : List (OhlcvRow ρ)) (bars : KeyedDict (OhlcvRow.ts (ρ := ρ))) :
    KeyedDict (OhlcvRow.ts (ρ := ρ)) :=
  page.foldl (fun bars row => if row.ts < startMs ∨ endMs < row.ts then bars else bars.set row) bars

/-- One round of the loop, `done` where it breaks. -/
def fetchRound (i : ℕ) (s : FetchState ρ) : ForInStep (FetchState ρ) :=
  if endMs ≤ s.since then .done s
  else if clock i - timeframe.ms ≤ s.since then .done s
  else
    let page := fetchOhlcvPageWithRetry client i s.since 200
    let fetched := s.pagesFetched + 1
    if page.isEmpty then
      if 2 ≤ s.emptyPages + 1 then
        .done { s with pagesFetched := fetched, emptyPages := s.emptyPages + 1 }
      else
        .yield { s with
          pagesFetched := fetched
          emptyPages := s.emptyPages + 1
          since := s.since + timeframe.ms * 200 }
    else
      let latest := pageMaxTs page
      .yield
        { pagesFetched := fetched
          emptyPages := 0
          bars := collect startMs endMs page s.bars
          since :=
            if s.since + timeframe.ms ≤ latest then latest + timeframe.ms
            else if 0 < latest then latest + timeframe.ms
            else s.since + timeframe.ms }

/-- The rounds from number `i` on, at most `n`. -/
def fetchRounds : ℕ → ℕ → FetchState ρ → FetchState ρ
  | 0, _, s => s
  | n + 1, i, s =>
    match fetchRound client clock timeframe startMs endMs i s with
    | .done s' => s'
    | .yield s' => fetchRounds n (i + 1) s'

/-- `_CANDLES_MAX_BARS` -/
def candlesMaxBars : ℕ := 300000

/-- `max_pages` -/
def maxPages : ℕ := candlesMaxBars / 200 + 16

/-- The loop of `_fetch_ohlcv_range`. -/
def fetchLoop : FetchState ρ :=
  fetchRounds client clock timeframe startMs endMs maxPages 0 { since := startMs }

/-- `_fetch_ohlcv_range` -/
def fetchOhlcvRange : List (OhlcvRow ρ) :=
  (fetchLoop client clock timeframe startMs endMs).bars.items.insertionSort fun a b => a.ts ≤ b.ts

theorem collect_items (page : List (OhlcvRow ρ)) (bars : KeyedDict (OhlcvRow.ts (ρ := ρ)))
    (hnodup : ((bars.items ++ page).map OhlcvRow.ts).Nodup) :
    (collect startMs endMs page bars).items =
      bars.items ++ page.filter fun row => startMs ≤ row.ts ∧ row.ts ≤ endMs := by
  induction page generalizing bars with
  | nil => simp [collect]
  | cons row page ih =>
    have hmoved : bars.items ++ row :: page = bars.items ++ [row] ++ page := by simp
    rw [hmoved] at hnodup
    have hcons : collect startMs endMs (row :: page) bars = collect startMs endMs page
        (if row.ts < startMs ∨ endMs < row.ts then bars else bars.set row) := rfl
    by_cases hout : row.ts < startMs ∨ endMs < row.ts
    · have hrow : ¬ (startMs ≤ row.ts ∧ row.ts ≤ endMs) := by omega
      have hsub : (bars.items ++ page).Sublist (bars.items ++ [row] ++ page) :=
        (List.sublist_append_left _ _).append_right page
      rw [hcons, if_pos hout, ih bars (hnodup.sublist (hsub.map _)),
        List.filter_cons_of_neg (by simpa using hrow)]
    · have hrow : startMs ≤ row.ts ∧ row.ts ≤ endMs := by omega
      have hnew : bars.get? row.ts = none := by
        rw [KeyedDict.get?_eq_none_iff]
        intro hmem
        rw [List.append_assoc, List.map_append, List.nodup_append] at hnodup
        exact hnodup.2.2 _ hmem row.ts (by simp) rfl
      have hset : (bars.set row).items = bars.items ++ [row] := KeyedDict.set_items_new bars row hnew
      rw [hcons, if_neg hout, ih (bars.set row) (by rw [hset]; exact hnodup), hset,
        List.filter_cons_of_pos (by simpa using hrow), List.append_assoc]
      rfl

theorem pageMaxTs_concat (page : List (OhlcvRow ρ)) (last : OhlcvRow ρ) (hlast : 0 < last.ts)
    (hbelow : ∀ row ∈ page, row.ts < last.ts) : pageMaxTs (page ++ [last]) = last.ts := by
  have hfold : ∀ (rows : List (OhlcvRow ρ)) (m : ℤ), m < last.ts → (∀ row ∈ rows, row.ts < last.ts) →
      rows.foldl (fun latest row => if latest < row.ts then row.ts else latest) m < last.ts := by
    intro rows
    induction rows with
    | nil =>
      intro m hm _
      exact hm
    | cons row rows ih =>
      intro m hm hrows
      refine ih _ ?_ fun r hr => hrows r (List.mem_cons_of_mem _ hr)
      dsimp only
      split
      · exact hrows row List.mem_cons_self
      · exact hm
  rw [pageMaxTs, List.foldl_append, List.foldl_cons, List.foldl_nil]
  exact if_pos (hfold page 0 hlast hbelow)

/-- Whatever a client answers, the bars are in order and no two have one timestamp. -/
theorem fetchOhlcvRange_sorted :
    (fetchOhlcvRange client clock timeframe startMs endMs).Pairwise fun a b => a.ts < b.ts := by
  obtain ⟨bars, hbars⟩ : ∃ bars, bars = (fetchLoop client clock timeframe startMs endMs).bars :=
    ⟨_, rfl⟩
  have hdef : fetchOhlcvRange client clock timeframe startMs endMs =
      bars.items.insertionSort fun a b => a.ts ≤ b.ts := by
    rw [hbars]
    rfl
  have htotal : ∀ a b : OhlcvRow ρ, a.ts ≤ b.ts ∨ b.ts ≤ a.ts := fun a b => le_total a.ts b.ts
  have hsorted : (bars.items.insertionSort fun a b => a.ts ≤ b.ts).Pairwise
      fun a b => a.ts ≤ b.ts := by
    have : Std.Total fun a b : OhlcvRow ρ => a.ts ≤ b.ts := ⟨htotal⟩
    have : IsTrans (OhlcvRow ρ) fun a b => a.ts ≤ b.ts := ⟨fun _ _ _ => le_trans⟩
    exact List.pairwise_insertionSort _ _
  have hperm := List.perm_insertionSort (fun a b : OhlcvRow ρ => a.ts ≤ b.ts) bars.items
  have hnodup : ((bars.items.insertionSort fun a b => a.ts ≤ b.ts).map OhlcvRow.ts).Nodup :=
    (hperm.map OhlcvRow.ts).nodup_iff.mpr bars.nodup
  rw [hdef]
  rw [List.nodup_iff_pairwise_ne, List.pairwise_map] at hnodup
  refine (List.Pairwise.and hsorted hnodup).imp ?_
  rintro a b ⟨hle, hne⟩
  exact lt_of_le_of_ne hle hne

end Code

end CandlePages

end Reverto
