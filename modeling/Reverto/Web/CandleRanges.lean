import Mathlib.Tactic
import Reverto.Web.CandleWalk

/-!
# When a paginated fetch is exact (web/app.py, _fetch_ohlcv_range)

The walk ends at a round that reads nothing more, or at a failed page that it leaves out.
-/

namespace Reverto

namespace CandlePages

open CursorPages

variable {ρ : Type}

namespace Fetch

variable (x : Fetch ρ)

/-! ### The bars read and the completed bars -/

/-- The bars of the range. -/
def inRange : List (OhlcvRow ρ) := x.available.filter fun b => b.ts ≤ x.endMs

theorem mem_completed (b : OhlcvRow ρ) :
    b ∈ x.completed ↔ b ∈ x.available ∧ b.ts ≤ x.endMs ∧ x.Complete b := by
  simp only [completed, List.mem_filter, decide_eq_true_eq, mem_available]
  tauto

theorem completed_eq : x.completed = x.inRange.filter fun b => decide (x.Complete b) := by
  rw [completed, inRange, available, ahead, List.filter_filter, List.filter_filter]
  refine List.filter_congr fun b _ => ?_
  rw [Bool.eq_iff_iff]
  simp only [Bool.and_eq_true, decide_eq_true_eq]
  tauto

theorem completed_sorted : x.completed.Pairwise fun a b => a.ts < b.ts := by
  rw [completed_eq, inRange]
  exact (x.available_sorted.sublist List.filter_sublist).sublist List.filter_sublist

theorem completed_nodup : x.completed.Nodup := by
  refine x.completed_sorted.imp ?_
  rintro a b hlt rfl
  exact lt_irrefl _ hlt

theorem mem_base (n : ℕ) (b : OhlcvRow ρ) : b ∈ x.base n ↔ b ∈ x.read n ∧ b.ts ≤ x.endMs := by
  simp [base]

theorem base_prefix_inRange (n : ℕ) : x.base n <+: x.inRange := (List.take_prefix _ _).filter _

/-- What is read is a beginning of the completed bars where it has no forming bar. -/
theorem base_prefix_completed (n : ℕ) :
    x.base n <+: x.completed ↔ ∀ a ∈ x.base n, x.Complete a := by
  constructor
  · intro hfirst a ha
    exact ((x.mem_completed a).mp (hfirst.subset ha)).2.2
  · intro h
    have hself : (x.base n).filter (fun b => decide (x.Complete b)) = x.base n :=
      List.filter_eq_self.mpr fun a ha => by simpa using h a ha
    have hfilter := (x.base_prefix_inRange n).filter fun b => decide (x.Complete b)
    rw [hself, ← completed_eq] at hfilter
    exact hfilter

theorem base_eq_completed (n : ℕ) :
    x.base n = x.completed ↔ (∀ a ∈ x.base n, x.Complete a) ∧ ∀ a ∈ x.completed, a ∈ x.base n := by
  constructor
  · intro heq
    refine ⟨(x.base_prefix_completed n).mp (heq ▸ List.prefix_rfl), fun a ha => ?_⟩
    rw [heq]
    exact ha
  · rintro ⟨hformed, hall⟩
    have hfirst := (x.base_prefix_completed n).mpr hformed
    exact hfirst.eq_of_length_le (List.subperm_of_subset x.completed_nodup hall).length_le

/-- The bars read are completed where those of every page are. -/
theorem formed_iff (n : ℕ) :
    (∀ a ∈ x.base n, x.Complete a) ↔ ∀ i < n, x.exchange.fails i = false →
      ∀ a ∈ (x.unread i).take 200, a.ts ≤ x.endMs → x.Complete a := by
  constructor
  · intro h i hi hfails a ha hend
    exact h a ((x.mem_base n a).mpr ⟨(x.mem_read n a).mpr ⟨i, hi, hfails, ha⟩, hend⟩)
  · intro h a ha
    obtain ⟨hread, hend⟩ := (x.mem_base n a).mp ha
    obtain ⟨i, hi, hfails, hpage⟩ := (x.mem_read n a).mp hread
    exact h i hi hfails a hpage hend

/-! ### Where a walk without failures ends -/

theorem answered_all (n : ℕ) (h : ∀ i < n, x.exchange.fails i = false) : x.answered n = n := by
  induction n with
  | zero => rfl
  | succ n ih =>
    rw [x.answered_succ n (h n (Nat.lt_succ_self n)), ih fun i hi => h i (by omega)]

/-- Behind a page that was read in full the cursor stands behind its last bar. -/
theorem cursor_full (k : ℕ) (hfails : ∀ i < k + 1, x.exchange.fails i = false) (a : OhlcvRow ρ)
    (ha : x.available[200 * k + 199]? = some a) : x.cursor (k + 1) = a.ts + x.timeframe.ms := by
  have hk : x.answered k = k := x.answered_all k fun i hi => hfails i (by omega)
  have hk1 : x.answered (k + 1) = k + 1 := x.answered_all (k + 1) hfails
  obtain ⟨hlength, _⟩ := List.getElem?_eq_some_iff.mp ha
  have hne : x.unread k ≠ [] := by
    rw [unread, hk, Ne, List.drop_eq_nil_iff]
    omega
  have hfull : ¬ x.Empty k := by
    rintro (hf | hnone)
    · rw [hfails k (Nat.lt_succ_self k)] at hf
      cases hf
    · exact hne hnone
  have hlast : (x.read (k + 1)).getLast? = some a := by
    have hindex : 200 * (k + 1) - 1 = 200 * k + 199 := by omega
    rw [read, hk1, List.getLast?_take, if_neg (by omega), hindex, ha]
    rfl
  rw [cursor, if_neg hfull, add_zero, behind, hlast]

section Unfailing

variable (n : ℕ) (hn : n ≤ maxPages) (hgoing : ∀ j < n, x.Going j)
  (hfails : ∀ i < n, x.exchange.fails i = false)

include hfails

theorem read_all : x.read n = x.available.take (200 * n) := by
  rw [read, x.answered_all n hfails]

theorem unread_all : x.unread n = x.available.drop (200 * n) := by
  rw [unread, x.answered_all n hfails]

include hn hgoing

/-- A walk that read all completed bars had room for them. -/
theorem fits_of_all (hall : ∀ a ∈ x.completed, a ∈ x.base n) : x.Fits := by
  have hread := x.read_all n hfails
  constructor
  · have hsub : x.completed ⊆ x.read n := fun a ha => ((x.mem_base n a).mp (hall a ha)).1
    have hle := (List.subperm_of_subset x.completed_nodup hsub).length_le
    rw [hread, List.length_take] at hle
    omega
  · intro k a b ha hb hcursor hcomplete hend
    have hmem : b ∈ x.available := List.mem_of_getElem? hb
    have hb_read : b ∈ x.read n :=
      ((x.mem_base n b).mp (hall b ((x.mem_completed b).mpr ⟨hmem, hend.le, hcomplete⟩))).1
    have hk : k + 1 < n := by
      by_contra hle
      have hfront : b ∈ x.available.take (200 * (k + 1)) := by
        rw [hread] at hb_read
        exact (List.take_subset_take_left x.available (by omega)) hb_read
      have hback : b ∈ x.available.drop (200 * (k + 1)) := by
        refine List.mem_of_getElem? (i := 0) ?_
        rw [List.getElem?_drop]
        exact hb
      have hsplit := x.available_sorted
      rw [← List.take_append_drop (200 * (k + 1)) x.available] at hsplit
      have hlt := (List.pairwise_append.mp hsplit).2.2 b hfront b hback
      omega
    have hopen := (hgoing (k + 1) hk).enters.1
    rw [x.cursor_full k (fun i hi => hfails i (by omega)) a ha] at hopen
    omega

section Missed

variable (a : OhlcvRow ρ) (ha : a ∈ x.completed) (ha_unread : a ∈ x.unread n)

include ha ha_unread

omit hn hgoing in
/-- The budget of pages ends no walk before a completed bar. -/
theorem missed_budget (hfits : x.Fits) : n ≠ maxPages := by
  intro hbudget
  obtain ⟨_, hend, hcomplete⟩ := (x.mem_completed a).mp ha
  have hsorted : (x.read n ++ x.unread n).Pairwise fun a b => a.ts < b.ts := by
    rw [read_append]
    exact x.available_sorted
  have hlong : 200 * n < x.available.length := by
    rw [x.unread_all n hfails] at ha_unread
    have hne := List.ne_nil_of_mem ha_unread
    rw [Ne, List.drop_eq_nil_iff] at hne
    omega
  have hsub : x.read n ++ [a] ⊆ x.completed := by
    intro b hb
    rcases List.mem_append.mp hb with hb | hb
    · have hlt := (List.pairwise_append.mp hsorted).2.2 b hb a ha_unread
      have hbefore : x.Complete b := by
        unfold Complete at hcomplete ⊢
        omega
      exact (x.mem_completed b).mpr ⟨List.mem_of_mem_take hb, by omega, hbefore⟩
    · rw [List.mem_singleton.mp hb]
      exact ha
  have hmore : (x.read n ++ [a]).Nodup := by
    have hpair : (x.read n ++ [a]).Pairwise fun a b => a.ts < b.ts :=
      hsorted.sublist ((List.singleton_sublist.mpr ha_unread).append_left _)
    refine hpair.imp ?_
    rintro b c hlt rfl
    exact lt_irrefl _ hlt
  have hle := (List.subperm_of_subset hmore hsub).length_le
  have hfit := hfits.budget
  rw [List.length_append, x.read_all n hfails, List.length_take, List.length_singleton] at hle
  omega

/-- The cursor at the end of the range ends no walk before a completed bar. -/
theorem missed_open (hfits : x.Fits) : x.Open n := by
  obtain ⟨_, hend, hcomplete⟩ := (x.mem_completed a).mp ha
  have hcursor := x.cursor_le n hgoing a ha_unread
  have hclock : x.cursor n < x.clock n - x.timeframe.ms := by
    have hmono := x.clock_mono (Nat.zero_le n)
    unfold Complete at hcomplete
    omega
  refine ⟨?_, hclock⟩
  by_contra hatEnd
  have hunread := x.unread_all n hfails
  have hlong : 200 * n < x.available.length := by
    rw [hunread] at ha_unread
    have hne := List.ne_nil_of_mem ha_unread
    rw [Ne, List.drop_eq_nil_iff] at hne
    omega
  cases n with
  | zero => exact hatEnd x.start_lt
  | succ k =>
    obtain ⟨last, hlast⟩ : ∃ last, x.available[200 * k + 199]? = some last :=
      ⟨_, List.getElem?_eq_getElem (by omega)⟩
    obtain ⟨b, hb⟩ : ∃ b, x.available[200 * k + 200]? = some b :=
      ⟨_, List.getElem?_eq_getElem (by omega)⟩
    have hfull := x.cursor_full k hfails last hlast
    have hnext : x.available.drop (200 * (k + 1)) = b :: x.available.drop (200 * (k + 1) + 1) := by
      obtain ⟨hindex, hget⟩ := List.getElem?_eq_some_iff.mp hb
      have hmul : 200 * (k + 1) = 200 * k + 200 := by omega
      rw [hmul, List.drop_eq_getElem_cons hindex, hget]
    have hb_mem : b ∈ x.unread (k + 1) := by
      rw [hunread, hnext]
      exact List.mem_cons_self
    have hb_cursor := x.cursor_le (k + 1) hgoing b hb_mem
    have hb_le : b.ts ≤ a.ts := by
      rw [hunread, hnext] at ha_unread
      rcases List.mem_cons.mp ha_unread with rfl | htail
      · exact le_rfl
      · have hsorted := x.available_sorted.sublist (List.drop_sublist (200 * (k + 1)) _)
        rw [hnext] at hsorted
        exact (List.rel_of_pairwise_cons hsorted htail).le
    have hb_complete : x.Complete b := by
      unfold Complete at hcomplete ⊢
      omega
    exact hfits.boundary k last b hlast hb (by omega) hb_complete (by omega)

end Missed

/-- A walk without failures reads all completed bars exactly where the range fits the loop. -/
theorem lost_iff (hstop : n = maxPages ∨ ¬ x.Open n ∨ x.unread n = []) :
    (∀ a ∈ x.completed, a ∈ x.base n) ↔ x.Fits := by
  constructor
  · exact x.fits_of_all n hn hgoing hfails
  · intro hfits a ha
    obtain ⟨havailable, hend, _⟩ := (x.mem_completed a).mp ha
    rw [← x.read_append n] at havailable
    rcases List.mem_append.mp havailable with hread | hunread
    · exact (x.mem_base n a).mpr ⟨hread, hend⟩
    · exfalso
      rcases hstop with hbudget | hclosed | hnone
      · exact x.missed_budget n hfails a ha hunread hfits hbudget
      · exact hclosed (x.missed_open n hn hgoing hfails a ha hunread hfits)
      · rw [hnone] at hunread
        cases hunread

end Unfailing

/-! ### What later rounds add -/

theorem le_pageMaxTs (page : List (OhlcvRow ρ)) (row : OhlcvRow ρ) (h : row ∈ page) :
    row.ts ≤ pageMaxTs page := by
  have hfold : ∀ (rows : List (OhlcvRow ρ)) (m : ℤ),
      m ≤ rows.foldl (fun latest row => if latest < row.ts then row.ts else latest) m ∧
        ∀ row ∈ rows, row.ts ≤
          rows.foldl (fun latest row => if latest < row.ts then row.ts else latest) m := by
    intro rows
    induction rows with
    | nil => simp
    | cons r rows ih =>
      intro m
      obtain ⟨hstart, hall⟩ := ih (if m < r.ts then r.ts else m)
      have hm : m ≤ if m < r.ts then r.ts else m := by split <;> omega
      have hr : r.ts ≤ if m < r.ts then r.ts else m := by split <;> omega
      refine ⟨hm.trans hstart, fun q hq => ?_⟩
      rcases List.mem_cons.mp hq with rfl | hq
      · exact hr.trans hstart
      · exact hall q hq
  exact (hfold page 0).2 row h

/-- The dictionary behind a page: nothing is lost, and what is new is of the page and in the range. -/
theorem collect_spec (startMs endMs : ℤ) (page : List (OhlcvRow ρ))
    (bars : KeyedDict (OhlcvRow.ts (ρ := ρ))) :
    (∀ row ∈ (collect startMs endMs page bars).items, row ∈ bars.items ∨
      (row ∈ page ∧ startMs ≤ row.ts ∧ row.ts ≤ endMs)) ∧
    (∀ ts ∈ bars.items.map OhlcvRow.ts, ts ∈ (collect startMs endMs page bars).items.map OhlcvRow.ts) ∧
    ∀ row ∈ page, startMs ≤ row.ts → row.ts ≤ endMs →
      row.ts ∈ (collect startMs endMs page bars).items.map OhlcvRow.ts := by
  induction page generalizing bars with
  | nil => exact ⟨fun row hrow => .inl hrow, fun ts hts => hts, fun row hrow => by cases hrow⟩
  | cons row page ih =>
    have hcons : collect startMs endMs (row :: page) bars = collect startMs endMs page
        (if row.ts < startMs ∨ endMs < row.ts then bars else bars.set row) := rfl
    rw [hcons]
    by_cases hout : row.ts < startMs ∨ endMs < row.ts
    · rw [if_pos hout]
      obtain ⟨hfrom, hkeeps, hgets⟩ := ih bars
      refine ⟨fun r hr => ?_, hkeeps, fun r hr hstart hend => ?_⟩
      · rcases hfrom r hr with hold | ⟨hpage, hrange⟩
        · exact .inl hold
        · exact .inr ⟨List.mem_cons_of_mem _ hpage, hrange⟩
      · rcases List.mem_cons.mp hr with rfl | hr
        · omega
        · exact hgets r hr hstart hend
    · rw [if_neg hout]
      obtain ⟨hfrom, hkeeps, hgets⟩ := ih (bars.set row)
      have hself : row.ts ∈ (bars.set row).items.map OhlcvRow.ts := by
        have hget := KeyedDict.get?_set_self bars row
        exact List.mem_map.mpr ⟨row, (KeyedDict.get?_mem _ _ _ hget).1, rfl⟩
      refine ⟨fun r hr => ?_, fun ts hts => hkeeps ts ?_, fun r hr hstart hend => ?_⟩
      · rcases hfrom r hr with hset | ⟨hpage, hrange⟩
        · by_cases hts : r.ts = row.ts
          · have hget := KeyedDict.get?_of_mem _ r hset
            rw [hts, KeyedDict.get?_set_self] at hget
            obtain rfl := Option.some.inj hget
            refine .inr ⟨List.mem_cons_self, ?_, ?_⟩ <;> omega
          · have hget := KeyedDict.get?_of_mem _ r hset
            rw [KeyedDict.get?_set_of_ne bars row r.ts hts] at hget
            exact .inl (KeyedDict.get?_mem _ _ _ hget).1
        · exact .inr ⟨List.mem_cons_of_mem _ hpage, hrange⟩
      · by_cases hsame : ts = row.ts
        · rw [hsame]
          exact hself
        · obtain ⟨r, hr, rfl⟩ := List.mem_map.mp hts
          have hget := KeyedDict.get?_of_mem bars r hr
          rw [← KeyedDict.get?_set_of_ne bars row r.ts hsame] at hget
          exact List.mem_map.mpr ⟨r, (KeyedDict.get?_mem _ _ _ hget).1, rfl⟩
      · rcases List.mem_cons.mp hr with rfl | hr
        · exact hkeeps _ hself
        · exact hgets r hr hstart hend

/-- What rounds do to the loop: calls are made, the cursor goes on, and bars of the range from the
cursor on are added. -/
structure Grows (s s' : FetchState ρ) : Prop where
  fetched : s.pagesFetched ≤ s'.pagesFetched
  since : s.since ≤ s'.since
  added : ∀ row ∈ s'.bars.items, row ∈ s.bars.items ∨
    (row ∈ x.exchange.bars ∧ s.since ≤ row.ts ∧ x.startMs ≤ row.ts ∧ row.ts ≤ x.endMs)
  keeps : ∀ ts ∈ s.bars.items.map OhlcvRow.ts, ts ∈ s'.bars.items.map OhlcvRow.ts

theorem grows_refl (s : FetchState ρ) : x.Grows s s :=
  ⟨le_rfl, le_rfl, fun _ h => .inl h, fun _ h => h⟩

theorem Grows.trans (s t u : FetchState ρ) (h : x.Grows s t) (h' : x.Grows t u) : x.Grows s u := by
  refine ⟨h.fetched.trans h'.fetched, h.since.trans h'.since, fun row hrow => ?_,
    fun ts hts => h'.keeps ts (h.keeps ts hts)⟩
  rcases h'.added row hrow with hold | ⟨hbar, hsince, hrange⟩
  · exact h.added row hold
  · exact .inr ⟨hbar, h.since.trans hsince, hrange⟩

theorem mem_page (i : ℕ) (since : ℤ) (row : OhlcvRow ρ) (h : row ∈ x.page i since) :
    row ∈ x.exchange.bars ∧ since ≤ row.ts := by
  rw [page, x.exchange.page_eq] at h
  split at h
  · cases h
  · simpa [ahead] using List.mem_of_mem_take h

/-- Every round goes on from the cursor, and adds to the bars those of its page. -/
theorem round_cases (i : ℕ) (s s' : FetchState ρ)
    (h : x.round i s = .done s' ∨ x.round i s = .yield s') :
    s.pagesFetched ≤ s'.pagesFetched ∧ s.since ≤ s'.since ∧
      (s'.bars = s.bars ∨ s'.bars = collect x.startMs x.endMs (x.page i s.since) s.bars) := by
  have htf := x.timeframe.ms_pos
  by_cases hopen : s.since < x.endMs ∧ s.since < x.clock i - x.timeframe.ms
  · by_cases hpage : x.page i s.since = []
    · by_cases hempty : 1 ≤ s.emptyPages
      · rw [x.round_second_empty i s hopen.1 hopen.2 hpage hempty] at h
        rcases h with h | h
        · rw [← ForInStep.done.inj h]
          exact ⟨Nat.le_succ _, le_rfl, .inl rfl⟩
        · cases h
      · rw [x.round_first_empty i s hopen.1 hopen.2 hpage (by omega)] at h
        rcases h with h | h
        · cases h
        · have hsince : s.since ≤ s.since + x.timeframe.ms * 200 := by omega
          rw [← ForInStep.yield.inj h]
          exact ⟨Nat.le_succ _, hsince, .inl rfl⟩
    · obtain ⟨row, hrow⟩ := List.exists_mem_of_ne_nil _ hpage
      have hlatest := le_pageMaxTs _ row hrow
      have hrow_since := (x.mem_page i s.since row hrow).2
      have hsince : ∀ latest : ℤ, row.ts ≤ latest →
          s.since ≤ if s.since + x.timeframe.ms ≤ latest then latest + x.timeframe.ms
            else if 0 < latest then latest + x.timeframe.ms else s.since + x.timeframe.ms := by
        intro latest hle
        split
        · omega
        · split <;> omega
      rw [x.round_page i s hopen.1 hopen.2 hpage] at h
      rcases h with h | h
      · cases h
      · rw [← ForInStep.yield.inj h]
        exact ⟨Nat.le_succ _, hsince _ hlatest, .inr rfl⟩
  · rw [x.round_closed i s hopen] at h
    rcases h with h | h
    · rw [← ForInStep.done.inj h]
      exact ⟨le_rfl, le_rfl, .inl rfl⟩
    · cases h

theorem round_grows (i : ℕ) (s s' : FetchState ρ)
    (h : x.round i s = .done s' ∨ x.round i s = .yield s') : x.Grows s s' := by
  obtain ⟨hfetched, hsince, hbars⟩ := x.round_cases i s s' h
  rcases hbars with hbars | hbars
  · refine ⟨hfetched, hsince, ?_, ?_⟩
    · rw [hbars]
      exact fun _ hr => .inl hr
    · rw [hbars]
      exact fun _ ht => ht
  · obtain ⟨hfrom, hkeeps, _⟩ := collect_spec x.startMs x.endMs (x.page i s.since) s.bars
    rw [← hbars] at hfrom hkeeps
    refine ⟨hfetched, hsince, fun r hr => ?_, hkeeps⟩
    rcases hfrom r hr with hold | ⟨hmem, hrange⟩
    · exact .inl hold
    · obtain ⟨hbar, hle⟩ := x.mem_page i s.since r hmem
      exact .inr ⟨hbar, hle, hrange⟩

theorem rounds_grows (n i : ℕ) (s : FetchState ρ) : x.Grows s (x.rounds n i s) := by
  induction n generalizing i s with
  | zero => exact x.grows_refl s
  | succ n ih =>
    cases hround : x.round i s with
    | done s' =>
      rw [x.rounds_done n i s s' hround]
      exact x.round_grows i s s' (.inl hround)
    | yield s' =>
      rw [x.rounds_yield n i s s' hround]
      exact (x.round_grows i s s' (.inr hround)).trans x s s' _ (ih (i + 1) s')

theorem collect_none (startMs endMs : ℤ) (page : List (OhlcvRow ρ))
    (bars : KeyedDict (OhlcvRow.ts (ρ := ρ)))
    (h : ∀ row ∈ page, row.ts < startMs ∨ endMs < row.ts) : collect startMs endMs page bars = bars := by
  induction page with
  | nil => rfl
  | cons row page ih =>
    have hcons : collect startMs endMs (row :: page) bars = collect startMs endMs page
        (if row.ts < startMs ∨ endMs < row.ts then bars else bars.set row) := rfl
    rw [hcons, if_pos (h row List.mem_cons_self)]
    exact ih fun r hr => h r (List.mem_cons_of_mem _ hr)

/-- From a cursor behind the last bar of the range on, no round adds a bar. -/
theorem rounds_beyond (n i : ℕ) (s : FetchState ρ)
    (h : ∀ row ∈ x.available, s.since ≤ row.ts → x.endMs < row.ts) :
    (x.rounds n i s).bars = s.bars := by
  induction n generalizing i s with
  | zero => rfl
  | succ n ih =>
    have hround_bars : ∀ s', x.round i s = .done s' ∨ x.round i s = .yield s' → s'.bars = s.bars := by
      intro s' hs'
      obtain ⟨_, _, hsame | hcollect⟩ := x.round_cases i s s' hs'
      · exact hsame
      · rw [hcollect]
        refine collect_none _ _ _ _ fun row hrow => ?_
        obtain ⟨hbar, hsince⟩ := x.mem_page i s.since row hrow
        by_cases hstart : x.startMs ≤ row.ts
        · exact .inr (h row ((x.mem_available row).mpr ⟨hbar, hstart⟩) hsince)
        · exact .inl (not_le.mp hstart)
    cases hround : x.round i s with
    | done s' =>
      rw [x.rounds_done n i s s' hround]
      exact hround_bars s' (.inl hround)
    | yield s' =>
      have hgrows := x.round_grows i s s' (.inr hround)
      rw [x.rounds_yield n i s s' hround, ih (i + 1) s' fun row hrow hle =>
        h row hrow (hgrows.since.trans hle)]
      exact hround_bars s' (.inr hround)

/-! ### Where the walk ends -/

theorem result_of_bars (n : ℕ) (h : x.final.bars.items = x.base n) : x.result = x.base n := by
  have hsorted : (x.base n).Pairwise fun a b => a.ts ≤ b.ts := by
    refine List.Pairwise.imp ?_
      ((x.available_sorted.sublist (List.take_sublist _ _)).sublist List.filter_sublist)
    intro a b hlt
    exact hlt.le
  show x.final.bars.items.insertionSort (fun a b => a.ts ≤ b.ts) = _
  rw [h]
  exact hsorted.insertionSort_eq

/-- The fetch is exact where its end leaves the bars read and every call made is one of `Made`. -/
theorem exact_iff_of_end (n m : ℕ) (hn : n ≤ maxPages) (hgoing : ∀ j < n, x.Going j)
    (hbars : x.final.bars.items = x.base n) (hfetched : x.final.pagesFetched = m)
    (hmade : ∀ i, x.Made i ↔ i < m) (hnm : n ≤ m) (hempty : ∀ i < m, n ≤ i → x.Empty i)
    (hskips : ∀ i < m, ¬ x.Skips i)
    (hstop : n = maxPages ∨ ¬ x.Open n ∨
      ((∀ i < m, x.exchange.fails i = false) → x.unread n = [])) : x.Exact ↔ x.Covers := by
  have hresult := x.result_of_bars n hbars
  have hsorted := fetchOhlcvRange_sorted x.exchange.client x.clock x.timeframe x.startMs x.endMs
  have hformed : (∀ a ∈ x.base n, x.Complete a) ↔ ∀ i, x.Made i → x.exchange.fails i = false →
      ∀ a ∈ (x.unread i).take 200, a.ts ≤ x.endMs → x.Complete a := by
    rw [x.formed_iff n]
    constructor
    · intro h i hi hfails a ha hend
      rcases Nat.lt_or_ge i n with hlt | hge
      · exact h i hlt hfails a ha hend
      · rcases hempty i ((hmade i).mp hi) hge with hf | hnone
        · rw [hfails] at hf
          cases hf
        · rw [hnone] at ha
          cases ha
    · intro h i hi hfails a ha hend
      exact h i ((hmade i).mpr (hi.trans_le hnm)) hfails a ha hend
  have hlost : (∀ i < m, x.exchange.fails i = false) →
      ((∀ a ∈ x.completed, a ∈ x.base n) ↔ x.Fits) := fun hfails =>
    x.lost_iff n hn hgoing (fun i hi => hfails i (hi.trans_le hnm))
      (hstop.imp id (Or.imp id fun hnone => hnone hfails))
  constructor
  · intro h
    have hcomplete : ∀ a ∈ x.base n, x.Complete a := by
      by_cases hfails : ∀ i < m, x.exchange.fails i = false
      · have hwhole := h.whole (hfetched ▸ hfails)
        rw [hresult] at hwhole
        exact ((x.base_eq_completed n).mp hwhole).1
      · have hpart := h.part (by simpa [hfetched] using hfails)
        rw [hresult] at hpart
        exact (x.base_prefix_completed n).mp hpart
    refine ⟨hformed.mp hcomplete, fun i hi hskip => absurd hskip (hskips i ((hmade i).mp hi)),
      fun hfails => ?_⟩
    have hall : ∀ i < m, x.exchange.fails i = false := fun i hi => hfails i ((hmade i).mpr hi)
    have hwhole := h.whole (hfetched ▸ hall)
    rw [hresult] at hwhole
    exact (hlost hall).mp ((x.base_eq_completed n).mp hwhole).2
  · intro h
    have hcomplete := hformed.mpr h.formed
    refine ⟨hsorted, fun hfails => ?_, fun _ => ?_⟩
    · rw [hfetched] at hfails
      rw [hresult]
      have hwhole := h.whole fun i hi => hfails i ((hmade i).mp hi)
      exact (x.base_eq_completed n).mpr ⟨hcomplete, (hlost hfails).mpr hwhole⟩
    · rw [hresult]
      exact (x.base_prefix_completed n).mpr hcomplete

/-- The loop behind a failed page with bars. -/
structure LeftOut (n : ℕ) (t : FetchState ρ) : Prop where
  budget : n < maxPages
  going : ∀ j < n, x.Going j
  enters : x.Open n
  skips : x.Skips n
  since : t.since = x.cursor (n + 1)
  emptyPages : t.emptyPages = 1
  pagesFetched : t.pagesFetched = n + 1
  bars : t.bars.items = x.base n
  final : x.final = x.rounds (maxPages - (n + 1)) (n + 1) t

theorem leftOut (n : ℕ) (hn : n < maxPages) (hgoing : ∀ j < n, x.Going j) (hopen : x.Open n)
    (hskips : x.Skips n) : ∃ t, x.LeftOut n t ∧ x.cursor (n + 1) = x.cursor n + 200 * x.timeframe.ms := by
  obtain ⟨s, hs, hfinal⟩ := x.loop_at n hn.le hgoing
  obtain ⟨hfails, hsecond, _⟩ := id hskips
  have hempty : x.Empty n := .inl hfails
  have hleft : maxPages - n = (maxPages - (n + 1)) + 1 := by omega
  have hread : x.read (n + 1) = x.read n := by rw [read, x.answered_failed n hfails, read]
  have hcursor : x.cursor (n + 1) = x.cursor n + 200 * x.timeframe.ms := by
    rw [cursor, if_pos hempty, hread]
    cases n with
    | zero => simp [cursor, read, answered, behind_nil]
    | succ k =>
      have hfirst : ¬ x.Empty k := fun hk => hsecond ⟨hk, hempty⟩
      rw [cursor, if_neg hfirst, add_zero]
  obtain ⟨t, ht⟩ : ∃ t : FetchState ρ, t = { s with
      pagesFetched := n + 1, emptyPages := 1, since := x.cursor n + 200 * x.timeframe.ms } := ⟨_, rfl⟩
  have hround := x.round_empty n s hs hgoing hopen hempty hsecond
  rw [← ht] at hround
  rw [hleft, x.rounds_yield _ n s t hround] at hfinal
  exact ⟨t, ⟨hn, hgoing, hopen, hskips, by rw [ht, hcursor], by rw [ht], by rw [ht],
    by rw [ht, ← hs.bars], hfinal⟩, hcursor⟩

section LeftOut

variable (n : ℕ) (t : FetchState ρ) (h : x.LeftOut n t)

include h

theorem LeftOut.fetched : n < x.final.pagesFetched := by
  have hle := (x.rounds_grows (maxPages - (n + 1)) (n + 1) t).fetched
  rw [← h.final, h.pagesFetched] at hle
  omega

theorem LeftOut.made_iff (i : ℕ) : x.Made i ↔ i < n + 1 := by
  constructor
  · intro hi
    by_contra hlt
    exact (hi.before n (by omega)).notSkips h.skips
  · intro hi
    rcases Nat.lt_succ_iff_lt_or_eq.mp hi with hlt | rfl
    · exact ⟨hlt.trans h.budget, (h.going i hlt).enters, fun j hj => h.going j (hj.trans hlt)⟩
    · exact ⟨h.budget, h.enters, h.going⟩

theorem LeftOut.formed_iff : (∀ b ∈ x.base n, x.Complete b) ↔
    ∀ i, x.Made i → x.exchange.fails i = false →
      ∀ b ∈ (x.unread i).take 200, b.ts ≤ x.endMs → x.Complete b := by
  rw [x.formed_iff n]
  constructor
  · intro hformed i hi hanswered
    rcases Nat.lt_succ_iff_lt_or_eq.mp ((h.made_iff x n t i).mp hi) with hlt | rfl
    · exact hformed i hlt hanswered
    · rw [h.skips.1] at hanswered
      cases hanswered
  · intro hformed i hi
    exact hformed i ((h.made_iff x n t i).mpr (by omega))

/-- No bar is added where nothing of the range comes behind the page. -/
theorem LeftOut.quiet (hquiet : n + 1 < maxPages → x.Open (n + 1) →
    x.exchange.fails (n + 1) = false → ∀ b ∈ x.available, x.cursor (n + 1) ≤ b.ts → x.endMs < b.ts) :
    x.final.bars.items = x.base n := by
  rw [← h.bars, h.final]
  by_cases hmore : n + 1 < maxPages
  · have hleft : maxPages - (n + 1) = (maxPages - (n + 2)) + 1 := by omega
    by_cases hopen : x.Open (n + 1)
    · cases hfails : x.exchange.fails (n + 1) with
      | false =>
        rw [x.rounds_beyond]
        intro row hrow hle
        rw [h.since] at hle
        exact hquiet hmore hopen hfails row hrow hle
      | true =>
        have hpage : x.page (n + 1) t.since = [] := by rw [page, x.exchange.page_eq, if_pos hfails]
        rw [Open, ← h.since] at hopen
        rw [hleft, x.rounds_done _ _ _ _
          (x.round_second_empty (n + 1) t hopen.1 hopen.2 hpage h.emptyPages.ge)]
    · rw [Open, ← h.since] at hopen
      rw [hleft, x.rounds_done _ _ _ _ (x.round_closed (n + 1) t hopen)]
  · have hzero : maxPages - (n + 1) = 0 := by omega
    rw [hzero]
    rfl

/-- A bar of the range that is read behind the page makes a hole. -/
theorem LeftOut.hole (hcursor : x.cursor (n + 1) = x.cursor n + 200 * x.timeframe.ms)
    (hmore : n + 1 < maxPages) (hopen : x.Open (n + 1)) (hfails : x.exchange.fails (n + 1) = false)
    (b : OhlcvRow ρ) (hb : b ∈ x.available) (hb_cursor : x.cursor (n + 1) ≤ b.ts)
    (hb_end : b.ts ≤ x.endMs) : ¬ x.result <+: x.completed := by
  intro hfirst
  obtain ⟨_, _, a, ha, hnear⟩ := h.skips
  rw [← hcursor] at hnear
  have ha_available : a ∈ x.available := List.mem_of_mem_drop ha
  have ha_start := ((x.mem_available a).mp ha_available).2
  have hleft : maxPages - (n + 1) = (maxPages - (n + 2)) + 1 := by omega
  have hmem_result : ∀ row, row ∈ x.result ↔ row ∈ x.final.bars.items := fun row =>
    (List.perm_insertionSort _ _).mem_iff
  obtain ⟨rest, hrest⟩ : ∃ rest, rest = ahead OhlcvRow.ts x.exchange.bars t.since := ⟨_, rfl⟩
  have hb_rest : b ∈ rest := by
    rw [hrest, ahead, List.mem_filter, decide_eq_true_eq, h.since]
    exact ⟨((x.mem_available b).mp hb).1, hb_cursor⟩
  have hpage : x.page (n + 1) t.since = rest.take 200 := by
    rw [page, x.exchange.page_eq, hfails, hrest, if_neg Bool.false_ne_true]
  -- the first bar behind the page is in the range
  obtain ⟨c, tail, hcons⟩ : ∃ c tail, rest = c :: tail :=
    List.exists_cons_of_ne_nil (List.ne_nil_of_mem hb_rest)
  have hc_page : c ∈ x.page (n + 1) t.since := by
    rw [hpage, hcons]
    exact List.mem_cons_self
  have hc_since := (x.mem_page (n + 1) t.since c hc_page).2
  have hc_le : c.ts ≤ b.ts := by
    have hsorted := (x.exchange.spaced.sorted x.timeframe.ms_pos).sublist
      (List.filter_sublist (p := fun row => decide (t.since ≤ row.ts)))
    have hsame : x.exchange.bars.filter (fun row => decide (t.since ≤ row.ts)) = c :: tail := by
      rw [← hcons, hrest]
      rfl
    rw [hsame] at hsorted
    rw [hcons] at hb_rest
    rcases List.mem_cons.mp hb_rest with rfl | hb_tail
    · exact le_rfl
    · exact (List.rel_of_pairwise_cons hsorted hb_tail).le
  rw [Open, ← h.since] at hopen
  rw [h.since] at hc_since
  obtain ⟨u, hround, hu⟩ : ∃ u, x.round (n + 1) t = .yield u ∧
      u.bars = collect x.startMs x.endMs (x.page (n + 1) t.since) t.bars :=
    ⟨_, x.round_page (n + 1) t hopen.1 hopen.2 (List.ne_nil_of_mem hc_page), rfl⟩
  have hafter := x.rounds_grows (maxPages - (n + 2)) (n + 2) u
  rw [← x.rounds_yield _ _ t u hround, ← hleft, ← h.final] at hafter
  have hc_collected := (collect_spec x.startMs x.endMs (x.page (n + 1) t.since) t.bars).2.2 c hc_page
    (by omega) (by omega)
  rw [← hu] at hc_collected
  have hc_final := hafter.keeps c.ts hc_collected
  obtain ⟨c', hc', hts⟩ := List.mem_map.mp hc_final
  have hc_result := (hmem_result c').mpr hc'
  have hc_complete := ((x.mem_completed c').mp (hfirst.subset hc_result)).2.2
  have ha_completed : a ∈ x.completed := by
    refine (x.mem_completed a).mpr ⟨ha_available, by omega, ?_⟩
    unfold Complete at hc_complete ⊢
    omega
  have ha_result := mem_of_isPrefix hfirst x.completed_sorted a c' hc_result ha_completed (by omega)
  have hgrows := x.rounds_grows (maxPages - (n + 1)) (n + 1) t
  rw [← h.final] at hgrows
  rcases hgrows.added a ((hmem_result a).mp ha_result) with hold | ⟨_, hlate, _⟩
  · rw [h.bars] at hold
    have hsplit := x.available_sorted
    rw [← x.read_append n] at hsplit
    have hlt := (List.pairwise_append.mp hsplit).2.2 a ((x.mem_base n a).mp hold).1 a ha
    omega
  · rw [h.since] at hlate
    omega

theorem LeftOut.covers_iff (hcursor : x.cursor (n + 1) = x.cursor n + 200 * x.timeframe.ms) :
    x.Exact ↔ x.Covers := by
  have hsorted := fetchOhlcvRange_sorted x.exchange.client x.clock x.timeframe x.startMs x.endMs
  have hfails := h.skips.1
  have hmade := (h.made_iff x n t n).mpr (Nat.lt_succ_self n)
  have hfetched := h.fetched x n t
  constructor
  · intro hexact
    have hpart := hexact.part ⟨n, hfetched, hfails⟩
    have hquiet : n + 1 < maxPages → x.Open (n + 1) → x.exchange.fails (n + 1) = false →
        ∀ b ∈ x.available, x.cursor (n + 1) ≤ b.ts → x.endMs < b.ts := by
      intro hmore hopen hanswered b hb hb_cursor
      by_contra hb_end
      exact h.hole x n t hcursor hmore hopen hanswered b hb hb_cursor (not_lt.mp hb_end) hpart
    rw [x.result_of_bars n (h.quiet x n t hquiet), x.base_prefix_completed n,
      h.formed_iff x n t] at hpart
    refine ⟨hpart, fun i hi hskip => ?_, fun hall => ?_⟩
    · rcases Nat.lt_succ_iff_lt_or_eq.mp ((h.made_iff x n t i).mp hi) with hlt | rfl
      · exact absurd hskip (h.going i hlt).notSkips
      · exact hquiet
    · have hanswered := hall n hmade
      rw [hfails] at hanswered
      cases hanswered
  · intro hcovers
    have hbars := h.quiet x n t (hcovers.skipped n hmade h.skips)
    refine ⟨hsorted, fun hall => ?_, fun _ => ?_⟩
    · have hanswered := hall n hfetched
      rw [hfails] at hanswered
      cases hanswered
    · rw [x.result_of_bars n hbars, x.base_prefix_completed n, h.formed_iff x n t]
      exact hcovers.formed

end LeftOut

/-- A paginated fetch is exact where it reads no forming bar, reads nothing of the range behind a
failed page with bars, and, without failures, comes to every completed bar. -/
theorem exact_iff_covers : x.Exact ↔ x.Covers := by
  classical
  have hends : ∃ n, n = maxPages ∨ ¬ x.Going n := ⟨maxPages, .inl rfl⟩
  obtain ⟨n, hn⟩ : ∃ n, n = Nat.find hends := ⟨_, rfl⟩
  have hend : n = maxPages ∨ ¬ x.Going n := hn ▸ Nat.find_spec hends
  have hbefore : ∀ j < n, ¬ (j = maxPages ∨ ¬ x.Going j) := fun j hj =>
    Nat.find_min hends (hn ▸ hj)
  have hbudget : n ≤ maxPages := hn ▸ Nat.find_min' hends (.inl rfl)
  have hgoing : ∀ j < n, x.Going j := fun j hj => not_not.mp fun hnot => hbefore j hj (.inr hnot)
  obtain ⟨s, hs, hfinal⟩ := x.loop_at n hbudget hgoing
  have hbelow : ∀ i < n, x.Made i := fun i hi =>
    ⟨hi.trans_le hbudget, (hgoing i hi).enters, fun j hj => hgoing j (hj.trans hi)⟩
  by_cases henters : n < maxPages ∧ x.Open n
  · obtain ⟨hmore, hopen⟩ := henters
    by_cases hskips : x.Skips n
    · obtain ⟨t, ht, hcursor⟩ := x.leftOut n hmore hgoing hopen hskips
      exact ht.covers_iff x n t hcursor
    · -- the second page in a row without a bar
      have hsecond : x.Second n := by
        by_contra hfirst
        rcases hend with rfl | hnot
        · exact lt_irrefl _ hmore
        · exact hnot ⟨hopen, hfirst, hskips⟩
      obtain ⟨k, rfl⟩ : ∃ k, n = k + 1 := by
        cases n with
        | zero => exact hsecond.elim
        | succ k => exact ⟨k, rfl⟩
      have hleft : maxPages - (k + 1) = (maxPages - (k + 2)) + 1 := by omega
      have hpage : x.page (k + 1) s.since = [] := by
        rw [hs.since]
        exact (x.empty_iff (k + 1) hgoing).mpr hsecond.2
      have hcount : 1 ≤ s.emptyPages := by
        rw [hs.emptyPages, if_pos ⟨Nat.succ_pos k, hsecond.1⟩]
      have hopen' := hopen
      rw [Open, ← hs.since] at hopen'
      rw [hleft, x.rounds_done _ _ _ _
        (x.round_second_empty (k + 1) s hopen'.1 hopen'.2 hpage hcount)] at hfinal
      have hmade : ∀ i, x.Made i ↔ i < k + 2 := by
        intro i
        constructor
        · intro hi
          by_contra hlt
          exact (hi.before (k + 1) (by omega)).notSecond hsecond
        · intro hi
          rcases Nat.lt_succ_iff_lt_or_eq.mp hi with hlt | rfl
          · exact hbelow i hlt
          · exact ⟨hmore, hopen, hgoing⟩
      refine x.exact_iff_of_end (k + 1) (k + 2) hbudget hgoing (by rw [hfinal]; exact hs.bars)
        (by rw [hfinal]; exact congrArg (· + 1) hs.pagesFetched) hmade (by omega) ?_ ?_ ?_
      · intro i hi hle
        obtain rfl : i = k + 1 := by omega
        exact hsecond.2
      · intro i hi hskip
        rcases Nat.lt_succ_iff_lt_or_eq.mp hi with hlt | rfl
        · exact (hgoing i hlt).notSkips hskip
        · exact hskips hskip
      · refine .inr (.inr fun hall => ?_)
        rcases hsecond.2 with hf | hnone
        · rw [hall (k + 1) (by omega)] at hf
          cases hf
        · exact hnone
  · have hclosed : x.final = s := by
      by_cases hmore : n < maxPages
      · have hopen : ¬ x.Open n := fun hopen => henters ⟨hmore, hopen⟩
        have hleft : maxPages - n = (maxPages - (n + 1)) + 1 := by omega
        rw [Open, ← hs.since] at hopen
        rw [hfinal, hleft, x.rounds_done _ _ _ _ (x.round_closed n s hopen)]
      · have hzero : maxPages - n = 0 := by omega
        rw [hfinal, hzero]
        rfl
    have hmade : ∀ i, x.Made i ↔ i < n := by
      intro i
      constructor
      · intro hi
        by_contra hge
        rcases Nat.lt_or_eq_of_le (not_lt.mp hge) with hlt | rfl
        · rcases hend with hmax | hnot
          · have := hi.budget
            omega
          · exact hnot (hi.before n hlt)
        · exact henters ⟨hi.budget, hi.enters⟩
      · exact hbelow i
    refine x.exact_iff_of_end n n hbudget hgoing (by rw [hclosed]; exact hs.bars)
      (by rw [hclosed]; exact hs.pagesFetched) hmade le_rfl ?_ ?_ ?_
    · intro i hi hle
      omega
    · intro i hi
      exact (hgoing i hi).notSkips
    · by_cases hmax : n = maxPages
      · exact .inl hmax
      · exact .inr (.inl fun hopen => henters ⟨by omega, hopen⟩)

/-- Over a range of the past, without failures, the page budget and the bar at the end decide. -/
theorem covers_past (hpast : x.endMs + x.timeframe.ms < x.clock 0)
    (hfails : ∀ i, x.exchange.fails i = false) :
    x.Covers ↔ x.Fits := by
  constructor
  · intro h
    exact h.whole fun i _ => hfails i
  · intro h
    refine ⟨fun i _ _ a _ hend => ?_, fun i _ hskip => ?_, fun _ => h⟩
    · unfold Complete
      omega
    · have hfailed := hskip.1
      rw [hfails i] at hfailed
      cases hfailed

end Fetch

/-- Two hourly bars, 200 hours apart, and a first page that fails. -/
def flakyExchange : Exchange Unit .h1 where
  bars := [⟨3600000, ()⟩, ⟨3600000 * 201, ()⟩]
  raises := fun page _ => page == 0
  spaced := by simp [Spaced, ChartTimeframe.ms, ChartTimeframe.seconds]
  positive := by simp

/-- The fetch of both bars. -/
def flakyFetch : Fetch Unit where
  timeframe := .h1
  startMs := 3600000
  endMs := 3600000 * 202
  exchange := flakyExchange
  clock := fun _ => 3600000 * 300
  start_lt := by norm_num
  clock_mono := monotone_const

/-- The bar of the failed page is left out, the one behind it is returned. -/
theorem not_exact_flaky : ¬ flakyFetch.Exact := by
  intro h
  have hpart := h.part ⟨0, by decide +kernel, by decide⟩
  revert hpart
  decide +kernel

end CandlePages

end Reverto
