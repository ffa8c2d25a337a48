import Mathlib.Tactic
import Reverto.Web.CandlePages

/-!
# What a paginated fetch returns (web/app.py, _fetch_ohlcv_range)

An exchange has a list of bars and answers a call with the next 200 from the cursor, or fails all
its attempts. A bar is completed where the engine takes it for completed (core/trading_engine.py,
_fetch_closes_if_needed): its interval is over before the clock.
-/

namespace Reverto

namespace CandlePages

open CursorPages

variable {ρ : Type}

/-- An exchange: the bars of one timeframe, and the attempts that raise, by page. -/
structure Exchange (ρ : Type) (timeframe : ChartTimeframe) where
  bars : List (OhlcvRow ρ)
  raises : ℕ → ℕ → Bool
  spaced : Spaced OhlcvRow.ts timeframe.ms bars
  positive : ∀ b ∈ bars, 0 < b.ts

section Exchange

variable {timeframe : ChartTimeframe} (x : Exchange ρ timeframe)

/-- The next `limit` bars at or after `since`. -/
def Exchange.client : Client ρ := fun page attempt since limit =>
  if x.raises page attempt then none else some ((ahead OhlcvRow.ts x.bars since).take limit)

/-- The call for a page fails after its retries. -/
def Exchange.fails (page : ℕ) : Bool := (List.range 3).all fun attempt => x.raises page attempt

theorem Exchange.page_eq (page : ℕ) (since : ℤ) (limit : ℕ) :
    fetchOhlcvPageWithRetry x.client page since limit =
      if x.fails page = true then [] else (ahead OhlcvRow.ts x.bars since).take limit := by
  have hrange : List.range 3 = [0, 1, 2] := rfl
  simp only [fetchOhlcvPageWithRetry, Exchange.client, Exchange.fails, hrange, List.findSome?_cons,
    List.findSome?_nil, List.all_cons, List.all_nil, Bool.and_true, Bool.and_eq_true]
  cases x.raises page 0 with
  | false => simp
  | true =>
    cases x.raises page 1 with
    | false => simp
    | true => cases x.raises page 2 <;> simp

end Exchange

/-- A call of `_fetch_ohlcv_range`: the range, the exchange, and the clock each round reads. -/
structure Fetch (ρ : Type) where
  timeframe : ChartTimeframe
  startMs : ℤ
  endMs : ℤ
  exchange : Exchange ρ timeframe
  clock : ℕ → ℤ
  start_lt : startMs < endMs
  clock_mono : Monotone clock

namespace Fetch

variable (x : Fetch ρ)

/-- The end of the loop. -/
def final : FetchState ρ := fetchLoop x.exchange.client x.clock x.timeframe x.startMs x.endMs

/-- The bars returned. -/
def result : List (OhlcvRow ρ) :=
  fetchOhlcvRange x.exchange.client x.clock x.timeframe x.startMs x.endMs

/-- The interval of the bar is over before the fetch starts. -/
def Complete (b : OhlcvRow ρ) : Prop := b.ts + x.timeframe.ms < x.clock 0

instance (b : OhlcvRow ρ) : Decidable (x.Complete b) :=
  inferInstanceAs (Decidable (b.ts + x.timeframe.ms < x.clock 0))

/-- The completed bars of the range. -/
def completed : List (OhlcvRow ρ) :=
  x.exchange.bars.filter fun b => x.startMs ≤ b.ts ∧ b.ts ≤ x.endMs ∧ x.Complete b

/-- The fetch is exact: all completed bars of the range where no call failed, else the first of
them. -/
structure Exact : Prop where
  sorted : x.result.Pairwise fun a b => a.ts < b.ts
  whole : (∀ i < x.final.pagesFetched, x.exchange.fails i = false) → x.result = x.completed
  part : (∃ i < x.final.pagesFetched, x.exchange.fails i = true) → x.result <+: x.completed

/-! ### The calls on the bars of the exchange -/

/-- The bars from the start of the range on. -/
def available : List (OhlcvRow ρ) := ahead OhlcvRow.ts x.exchange.bars x.startMs

/-- The calls below `i` that are answered. -/
def answered (i : ℕ) : ℕ := Nat.count (fun j => x.exchange.fails j = false) i

/-- The bars of the first pages, a page for each call answered. -/
def read (i : ℕ) : List (OhlcvRow ρ) := x.available.take (200 * x.answered i)

/-- The bars behind them. -/
def unread (i : ℕ) : List (OhlcvRow ρ) := x.available.drop (200 * x.answered i)

/-- Call `i` brings no bar. -/
def Empty (i : ℕ) : Prop := x.exchange.fails i = true ∨ x.unread i = []

instance (i : ℕ) : Decidable (x.Empty i) :=
  decidable_of_iff (x.exchange.fails i = true ∨ (x.unread i).isEmpty = true) (by
    rw [Empty, List.isEmpty_iff])

/-- A bar behind the last one read, and a page further where the last call brought none. -/
def cursor : ℕ → ℤ
  | 0 => x.startMs
  | i + 1 =>
    behind OhlcvRow.ts x.timeframe.ms x.startMs (x.read (i + 1)) +
      if x.Empty i then 200 * x.timeframe.ms else 0

/-- The cursor is inside the range and in the past. -/
def Open (i : ℕ) : Prop := x.cursor i < x.endMs ∧ x.cursor i < x.clock i - x.timeframe.ms

/-- Call `i` is the second in a row that brings no bar. -/
def Second : ℕ → Prop
  | 0 => False
  | i + 1 => x.Empty i ∧ x.Empty (i + 1)

/-- Call `i` fails, the loop goes on a page further, and bars of that page are left out. -/
def Skips (i : ℕ) : Prop :=
  x.exchange.fails i = true ∧ ¬ x.Second i ∧
    ∃ a ∈ x.unread i, a.ts < x.cursor i + 200 * x.timeframe.ms

/-- Behind call `i` the loop goes on and no bar was left out. -/
structure Going (i : ℕ) : Prop where
  enters : x.Open i
  notSecond : ¬ x.Second i
  notSkips : ¬ x.Skips i

/-- Call `i` is made and no bar was left out before it. -/
structure Made (i : ℕ) : Prop where
  budget : i < maxPages
  enters : x.Open i
  before : ∀ j < i, x.Going j

/-- The completed bars of the range fill at most `maxPages` pages, and none stands at the end of the
range right behind a page. -/
structure Fits : Prop where
  budget : x.completed.length ≤ 200 * maxPages
  boundary : ∀ (k : ℕ) (a b : OhlcvRow ρ), x.available[200 * k + 199]? = some a →
    x.available[200 * k + 200]? = some b → a.ts + x.timeframe.ms = x.endMs → x.Complete b →
      b.ts ≠ x.endMs

/-- No bar that is still forming is read, no page with bars of the range comes behind a page that
was left out, and without failures the range fits the loop. -/
structure Covers : Prop where
  formed : ∀ i, x.Made i → x.exchange.fails i = false →
    ∀ a ∈ (x.unread i).take 200, a.ts ≤ x.endMs → x.Complete a
  skipped : ∀ i, x.Made i → x.Skips i → i + 1 < maxPages → x.Open (i + 1) →
    x.exchange.fails (i + 1) = false → ∀ a ∈ x.available, x.cursor (i + 1) ≤ a.ts → x.endMs < a.ts
  whole : (∀ i, x.Made i → x.exchange.fails i = false) → x.Fits

/-! ### The loop while no bar is left out -/

theorem available_spaced : Spaced OhlcvRow.ts x.timeframe.ms x.available :=
  x.exchange.spaced.sublist List.filter_sublist

theorem available_sorted : x.available.Pairwise fun a b => a.ts < b.ts :=
  x.available_spaced.sorted x.timeframe.ms_pos

theorem mem_available (b : OhlcvRow ρ) :
    b ∈ x.available ↔ b ∈ x.exchange.bars ∧ x.startMs ≤ b.ts := by
  simp [available, ahead]

theorem read_append (i : ℕ) : x.read i ++ x.unread i = x.available := List.take_append_drop _ _

theorem answered_failed (i : ℕ) (h : x.exchange.fails i = true) :
    x.answered (i + 1) = x.answered i := by
  rw [answered, Nat.count_succ, if_neg (by simp [h])]
  rfl

theorem answered_succ (i : ℕ) (h : x.exchange.fails i = false) :
    x.answered (i + 1) = x.answered i + 1 := by
  rw [answered, Nat.count_succ, if_pos h]
  rfl

theorem read_succ (i : ℕ) (h : x.exchange.fails i = false) :
    x.read (i + 1) = x.read i ++ (x.unread i).take 200 := by
  rw [read, x.answered_succ i h, take_page]
  rfl

theorem unread_succ (i : ℕ) (h : x.exchange.fails i = false) :
    x.unread (i + 1) = (x.unread i).drop 200 := by
  rw [unread, x.answered_succ i h, Nat.mul_succ, ← List.drop_drop]
  rfl

/-- The bars read are those of the pages answered. -/
theorem mem_read (i : ℕ) (a : OhlcvRow ρ) :
    a ∈ x.read i ↔ ∃ j < i, x.exchange.fails j = false ∧ a ∈ (x.unread j).take 200 := by
  induction i with
  | zero => simp [read, answered]
  | succ i ih =>
    have hsplit : (∃ j < i + 1, x.exchange.fails j = false ∧ a ∈ (x.unread j).take 200) ↔
        (∃ j < i, x.exchange.fails j = false ∧ a ∈ (x.unread j).take 200) ∨
          (x.exchange.fails i = false ∧ a ∈ (x.unread i).take 200) := by
      constructor
      · rintro ⟨j, hj, hpage⟩
        rcases Nat.lt_succ_iff_lt_or_eq.mp hj with hlt | rfl
        · exact .inl ⟨j, hlt, hpage⟩
        · exact .inr hpage
      · rintro (⟨j, hj, hpage⟩ | hpage)
        · exact ⟨j, by omega, hpage⟩
        · exact ⟨i, by omega, hpage⟩
    rw [hsplit, ← ih]
    cases hfails : x.exchange.fails i with
    | true =>
      have hsame : x.read (i + 1) = x.read i := by rw [read, x.answered_failed i hfails, read]
      rw [hsame]
      simp
    | false =>
      rw [x.read_succ i hfails, List.mem_append]
      simp

/-- The bars read that are in the range. -/
def base (i : ℕ) : List (OhlcvRow ρ) := (x.read i).filter fun b => b.ts ≤ x.endMs

/-- The loop before round `i`. -/
structure At (i : ℕ) (s : FetchState ρ) : Prop where
  since : s.since = x.cursor i
  emptyPages : s.emptyPages = if 0 < i ∧ x.Empty (i - 1) then 1 else 0
  pagesFetched : s.pagesFetched = i
  bars : s.bars.items = x.base i

theorem at_start : x.At 0 { since := x.startMs } := by
  refine ⟨rfl, ?_, rfl, ?_⟩
  · rw [if_neg (by omega)]
  · simp [base, read, answered]

/-- The bars not read are at the cursor or beyond it. -/
theorem cursor_le (i : ℕ) (h : ∀ j < i, x.Going j) (b : OhlcvRow ρ) (hb : b ∈ x.unread i) :
    x.cursor i ≤ b.ts := by
  have hspaced : Spaced OhlcvRow.ts x.timeframe.ms (x.read i ++ x.unread i) := by
    rw [read_append]
    exact x.available_spaced
  have hstart : ∀ a ∈ x.read i ++ x.unread i, x.startMs ≤ a.ts := by
    rw [read_append]
    intro a ha
    exact ((x.mem_available a).mp ha).2
  have hbehind := behind_le x.startMs hspaced hstart b hb
  cases i with
  | zero => exact hstart b (List.mem_append_right _ hb)
  | succ i =>
    rw [cursor]
    by_cases hempty : x.Empty i
    · have hgoing := h i (Nat.lt_succ_self i)
      cases hfails : x.exchange.fails i with
      | false =>
        have hnone : x.unread i = [] := by
          rcases hempty with hf | hnone
          · rw [hfails] at hf
            cases hf
          · exact hnone
        rw [x.unread_succ i hfails, hnone] at hb
        cases hb
      | true =>
        -- the call failed on no bar of its page, so the next bar is a page further
        have hsame : x.answered (i + 1) = x.answered i := x.answered_failed i hfails
        have hb' : b ∈ x.unread i := by
          rw [unread, hsame] at hb
          exact hb
        have hfar : x.cursor i + 200 * x.timeframe.ms ≤ b.ts := by
          by_contra hnear
          exact hgoing.notSkips ⟨hfails, hgoing.notSecond, b, hb', not_le.mp hnear⟩
        have hread : x.read (i + 1) = x.read i := by rw [read, hsame, read]
        have hcursor : x.cursor i = behind OhlcvRow.ts x.timeframe.ms x.startMs (x.read i) := by
          cases i with
          | zero => simp [cursor, read, answered, behind_nil]
          | succ k =>
            have hfirst : ¬ x.Empty k := fun hk => hgoing.notSecond ⟨hk, hempty⟩
            rw [cursor, if_neg hfirst, add_zero]
        rw [if_pos hempty, hread, ← hcursor]
        exact hfar
    · rw [if_neg hempty, add_zero]
      exact hbehind

/-- What call `i` answers. -/
theorem page_at (i : ℕ) (h : ∀ j < i, x.Going j) :
    fetchOhlcvPageWithRetry x.exchange.client i (x.cursor i) 200 =
      if x.exchange.fails i = true then [] else (x.unread i).take 200 := by
  have hstart : x.startMs ≤ x.cursor i := by
    have htf := x.timeframe.ms_pos
    cases i with
    | zero => exact le_rfl
    | succ i =>
      have hbehind : x.startMs ≤ behind OhlcvRow.ts x.timeframe.ms x.startMs (x.read (i + 1)) := by
        cases hlast : (x.read (i + 1)).getLast? with
        | none => rw [behind, hlast]
        | some a =>
          have hmem : a ∈ x.available := List.mem_of_mem_take (List.mem_of_getLast? hlast)
          have hle := ((x.mem_available a).mp hmem).2
          rw [behind, hlast]
          show x.startMs ≤ a.ts + x.timeframe.ms
          omega
      rw [cursor]
      split <;> omega
  have hbehind : behind OhlcvRow.ts x.timeframe.ms x.startMs (x.read i) ≤ x.cursor i := by
    have htf := x.timeframe.ms_pos
    cases i with
    | zero => simp [cursor, read, answered, behind_nil]
    | succ i =>
      rw [cursor]
      split <;> omega
  have hfrom : ahead OhlcvRow.ts x.exchange.bars (x.cursor i) =
      ahead OhlcvRow.ts x.available (x.cursor i) := by
    rw [available, ahead, ahead, ahead, List.filter_filter]
    refine List.filter_congr fun b _ => ?_
    rw [Bool.eq_iff_iff]
    simp only [Bool.and_eq_true, decide_eq_true_eq]
    omega
  have hspaced : Spaced OhlcvRow.ts x.timeframe.ms (x.read i ++ x.unread i) := by
    rw [read_append]
    exact x.available_spaced
  have hunread := ahead_append x.timeframe.ms_pos hspaced hbehind (x.cursor_le i h)
  rw [read_append] at hunread
  rw [x.exchange.page_eq, hfrom, hunread]

/-- A round of the fetch. -/
def round (i : ℕ) (s : FetchState ρ) : ForInStep (FetchState ρ) :=
  fetchRound x.exchange.client x.clock x.timeframe x.startMs x.endMs i s

/-- The rounds of the fetch from `i` on. -/
def rounds (n i : ℕ) (s : FetchState ρ) : FetchState ρ :=
  fetchRounds x.exchange.client x.clock x.timeframe x.startMs x.endMs n i s

theorem rounds_done (n i : ℕ) (s s' : FetchState ρ) (h : x.round i s = .done s') :
    x.rounds (n + 1) i s = s' := by
  unfold round at h
  rw [rounds, fetchRounds, h]

theorem rounds_yield (n i : ℕ) (s s' : FetchState ρ) (h : x.round i s = .yield s') :
    x.rounds (n + 1) i s = x.rounds n (i + 1) s' := by
  unfold round at h
  rw [rounds, fetchRounds, h]
  rfl

/-- The page a round asks for. -/
def page (i : ℕ) (since : ℤ) : List (OhlcvRow ρ) :=
  fetchOhlcvPageWithRetry x.exchange.client i since 200

theorem round_closed (i : ℕ) (s : FetchState ρ)
    (h : ¬ (s.since < x.endMs ∧ s.since < x.clock i - x.timeframe.ms)) : x.round i s = .done s := by
  rw [round, fetchRound]
  by_cases hend : x.endMs ≤ s.since
  · rw [if_pos hend]
  · have hclock : x.clock i - x.timeframe.ms ≤ s.since := by
      by_contra hlt
      exact h ⟨not_le.mp hend, not_le.mp hlt⟩
    rw [if_neg hend, if_pos hclock]

section Enters

variable (i : ℕ) (s : FetchState ρ) (hend : s.since < x.endMs)
  (hclock : s.since < x.clock i - x.timeframe.ms)

include hend hclock

theorem round_second_empty (hpage : x.page i s.since = []) (hempty : 1 ≤ s.emptyPages) :
    x.round i s = .done { s with
      pagesFetched := s.pagesFetched + 1, emptyPages := s.emptyPages + 1 } := by
  unfold page at hpage
  have htwo : 2 ≤ s.emptyPages + 1 := by omega
  rw [round, fetchRound, if_neg (not_le.mpr hend), if_neg (not_le.mpr hclock), hpage]
  simp only [List.isEmpty_nil, if_true, if_pos htwo]

theorem round_first_empty (hpage : x.page i s.since = []) (hempty : s.emptyPages = 0) :
    x.round i s = .yield { s with
      pagesFetched := s.pagesFetched + 1
      emptyPages := 1
      since := s.since + x.timeframe.ms * 200 } := by
  unfold page at hpage
  rw [round, fetchRound, if_neg (not_le.mpr hend), if_neg (not_le.mpr hclock), hpage]
  simp [hempty]

theorem round_page (hpage : x.page i s.since ≠ []) :
    x.round i s = .yield
      { pagesFetched := s.pagesFetched + 1
        emptyPages := 0
        bars := collect x.startMs x.endMs (x.page i s.since) s.bars
        since :=
          if s.since + x.timeframe.ms ≤ pageMaxTs (x.page i s.since) then
            pageMaxTs (x.page i s.since) + x.timeframe.ms
          else if 0 < pageMaxTs (x.page i s.since) then
            pageMaxTs (x.page i s.since) + x.timeframe.ms
          else s.since + x.timeframe.ms } := by
  have hfull : (x.page i s.since).isEmpty = false := by
    rw [List.isEmpty_eq_false_iff]
    exact hpage
  unfold page at hfull ⊢
  rw [round, fetchRound, if_neg (not_le.mpr hend), if_neg (not_le.mpr hclock)]
  dsimp only
  rw [hfull, if_neg Bool.false_ne_true]

end Enters

theorem empty_iff (i : ℕ) (h : ∀ j < i, x.Going j) : x.page i (x.cursor i) = [] ↔ x.Empty i := by
  rw [page, x.page_at i h, Empty]
  cases x.exchange.fails i with
  | true => simp
  | false => simp [List.take_eq_nil_iff]

/-- A round that brings bars leaves the loop as `At` says. -/
theorem round_full (i : ℕ) (s : FetchState ρ) (hs : x.At i s) (hbefore : ∀ j < i, x.Going j)
    (hopen : x.Open i) (hfull : ¬ x.Empty i) : ∃ s', x.round i s = .yield s' ∧ x.At (i + 1) s' := by
  have hfails : x.exchange.fails i = false := by
    by_contra hf
    exact hfull (.inl (by simpa using hf))
  have hne : x.unread i ≠ [] := fun hnone => hfull (.inr hnone)
  have hpage : x.page i s.since = (x.unread i).take 200 := by
    rw [page, hs.since, x.page_at i hbefore, if_neg (by simp [hfails])]
  have hpage_ne : x.page i s.since ≠ [] := by
    rw [hpage]
    simp [List.take_eq_nil_iff, hne]
  rw [Open, ← hs.since] at hopen
  refine ⟨_, x.round_page i s hopen.1 hopen.2 hpage_ne, ?_⟩
  obtain ⟨pre, last, hlast⟩ : ∃ pre last, (x.unread i).take 200 = pre ++ [last] :=
    ⟨((x.unread i).take 200).dropLast, ((x.unread i).take 200).getLast (hpage ▸ hpage_ne),
      (List.dropLast_append_getLast _).symm⟩
  have hpage_mem : ∀ b ∈ (x.unread i).take 200, b ∈ x.available :=
    fun b hb => List.mem_of_mem_drop (List.mem_of_mem_take hb)
  have hmem : last ∈ (x.unread i).take 200 := by
    rw [hlast]
    exact List.mem_append_right _ (List.mem_singleton_self last)
  have hpos : 0 < last.ts :=
    x.exchange.positive last ((x.mem_available last).mp (hpage_mem last hmem)).1
  have hread : x.read (i + 1) = x.read i ++ (x.unread i).take 200 := x.read_succ i hfails
  have hsorted : (x.read (i + 1)).Pairwise fun a b => a.ts < b.ts :=
    x.available_sorted.sublist (List.take_sublist _ _)
  have hbelow : ∀ row ∈ pre, row.ts < last.ts := by
    rw [hread, hlast, ← List.append_assoc] at hsorted
    intro row hrow
    exact (List.pairwise_append.mp hsorted).2.2 row (List.mem_append_right _ hrow) last
      (List.mem_singleton_self last)
  have hmax : pageMaxTs (x.page i s.since) = last.ts := by
    rw [hpage, hlast]
    exact pageMaxTs_concat pre last hpos hbelow
  refine ⟨?_, ?_, ?_, ?_⟩
  · have hcursor : x.cursor (i + 1) = last.ts + x.timeframe.ms := by
      rw [cursor, if_neg hfull, add_zero, hread, hlast, ← List.append_assoc, behind_concat]
    simp only [hmax, hcursor, if_pos hpos, ite_self]
  · have hnot : ¬ (0 < i + 1 ∧ x.Empty (i + 1 - 1)) := fun h => hfull h.2
    rw [if_neg hnot]
  · show s.pagesFetched + 1 = i + 1
    rw [hs.pagesFetched]
  · have hnodup : ((s.bars.items ++ x.page i s.since).map OhlcvRow.ts).Nodup := by
      have hsub : (s.bars.items ++ x.page i s.since).Sublist (x.read (i + 1)) := by
        rw [hs.bars, hpage, hread]
        exact List.filter_sublist.append_right _
      have hall := (x.available_spaced.sublist (List.take_sublist (200 * x.answered (i + 1)) _)).nodup
        x.timeframe.ms_pos
      exact hall.sublist (hsub.map _)
    show (collect x.startMs x.endMs (x.page i s.since) s.bars).items = x.base (i + 1)
    rw [collect_items x.startMs x.endMs _ _ hnodup, hs.bars, hpage, base, base, hread,
      List.filter_append]
    congr 1
    refine List.filter_congr fun b hb => ?_
    have hstart := ((x.mem_available b).mp (hpage_mem b hb)).2
    simp [hstart]

/-- An empty round behind one that was not leaves the cursor a page further. -/
theorem round_empty (i : ℕ) (s : FetchState ρ) (hs : x.At i s) (hbefore : ∀ j < i, x.Going j)
    (hopen : x.Open i) (hempty : x.Empty i) (hfirst : ¬ x.Second i) :
    x.round i s = .yield { s with
      pagesFetched := i + 1, emptyPages := 1, since := x.cursor i + 200 * x.timeframe.ms } := by
  have hpage : x.page i s.since = [] := by
    rw [hs.since]
    exact (x.empty_iff i hbefore).mpr hempty
  have hcount : s.emptyPages = 0 := by
    rw [hs.emptyPages, if_neg]
    rintro ⟨hi, hprevious⟩
    obtain ⟨k, rfl⟩ : ∃ k, i = k + 1 := ⟨i - 1, by omega⟩
    exact hfirst ⟨hprevious, hempty⟩
  rw [Open, ← hs.since] at hopen
  rw [x.round_first_empty i s hopen.1 hopen.2 hpage hcount, hs.since, hs.pagesFetched, mul_comm]

/-- A round that leaves out no bar and does not end the loop. -/
theorem round_going (i : ℕ) (s : FetchState ρ) (hs : x.At i s) (hbefore : ∀ j < i, x.Going j)
    (h : x.Going i) : ∃ s', x.round i s = .yield s' ∧ x.At (i + 1) s' := by
  by_cases hempty : x.Empty i
  · refine ⟨_, x.round_empty i s hs hbefore h.enters hempty h.notSecond, ?_⟩
    have hread : x.read (i + 1) = x.read i ∨ (x.read i = x.available ∧ x.read (i + 1) = x.available) := by
      cases hfails : x.exchange.fails i with
      | true =>
        refine .inl ?_
        rw [read, x.answered_failed i hfails, read]
      | false =>
        have hnone : x.unread i = [] := by
          rcases hempty with hf | hnone
          · rw [hfails] at hf
            cases hf
          · exact hnone
        have hall := x.read_append i
        rw [hnone, List.append_nil] at hall
        refine .inr ⟨hall, ?_⟩
        rw [x.read_succ i hfails, hnone, hall]
        simp
    have hsame : x.read (i + 1) = x.read i := by
      rcases hread with hsame | ⟨hbefore, hafter⟩
      · exact hsame
      · rw [hbefore, hafter]
    refine ⟨?_, ?_, rfl, ?_⟩
    · show x.cursor i + 200 * x.timeframe.ms = x.cursor (i + 1)
      rw [cursor, if_pos hempty, hsame]
      cases i with
      | zero => simp [cursor, read, answered, behind_nil]
      | succ k =>
        have hfirst : ¬ x.Empty k := fun hk => h.notSecond ⟨hk, hempty⟩
        rw [cursor, if_neg hfirst, add_zero]
    · rw [if_pos ⟨Nat.succ_pos i, hempty⟩]
    · show s.bars.items = x.base (i + 1)
      rw [hs.bars, base, base, hsame]
  · exact x.round_full i s hs hbefore h.enters hempty

/-- The loop comes to every round behind rounds that go on. -/
theorem loop_at (i : ℕ) (hi : i ≤ maxPages) (h : ∀ j < i, x.Going j) :
    ∃ s, x.At i s ∧ x.final = x.rounds (maxPages - i) i s := by
  induction i with
  | zero => exact ⟨_, x.at_start, rfl⟩
  | succ i ih =>
    obtain ⟨s, hs, hfinal⟩ := ih (by omega) fun j hj => h j (by omega)
    obtain ⟨s', hround, hs'⟩ := x.round_going i s hs (fun j hj => h j (by omega)) (h i (by omega))
    have hleft : maxPages - i = (maxPages - (i + 1)) + 1 := by omega
    refine ⟨s', hs', ?_⟩
    rw [hfinal, hleft, x.rounds_yield _ i s s' hround]

end Fetch

end CandlePages

end Reverto
