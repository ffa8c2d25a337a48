import Mathlib.Tactic
import Reverto.Lib.Machine
import Reverto.Lib.Timeline
import Reverto.Ml.CandleLoader

/-!
# The day files of the candle loader (ml/candle_loader.py)

A sequence of deals loaded with the cache against the same deals loaded without it, over an
exchange whose history is complete.
-/

namespace Reverto

namespace CandleLoader

/-- The candles of every symbol and timeframe, an interval or more apart. -/
structure History where
  candles : String → String → List Bar
  spaced : ∀ symbol timeframe tfS, timeframeSeconds timeframe = some tfS →
    (candles symbol timeframe).Pairwise fun a b => a.timestamp + tfS ≤ b.timestamp

/-- The first candles from a time on, as `fetch_ohlcv` answers. -/
def History.fetch (h : History) : Exchange := fun symbol timeframe sinceMs limit =>
  ((h.candles symbol timeframe).filter fun c => sinceMs ≤ c.timestamp * 1000).take limit

/-- The windows of a sequence of deals. -/
def loads (exchange : Exchange) (useCache : Bool) (files : Files) : List Request → List (List Bar)
  | [] => []
  | r :: rs =>
    (loadCandlesForDeal exchange useCache files r).1 ::
      loads exchange useCache (loadCandlesForDeal exchange useCache files r).2 rs

def noFiles : Files := fun _ => none

/-- A load leaves the files for the next deal. -/
def loadStep (h : History) (files : Files) (r : Request) : Option Files :=
  some (loadCandlesForDeal h.fetch true files r).2

/-- The candles of the history that a deal asks for. -/
def asked (h : History) (r : Request) (openedAt tfS : ℤ) : List Bar :=
  lastOf r.lookbackPeriods
    (between (sinceOf r openedAt tfS) openedAt (h.candles r.symbol r.timeframe))

/-- A file that serves a deal has candles of its symbol in the window and all it asks for. -/
def Covered (h : History) (files : Files) (r : Request) : Prop :=
  ∀ openedAt tfS rows, toEpochSeconds r.openedAt = some openedAt →
    timeframeSeconds r.timeframe = some tfS → files (cachePath r openedAt) = some rows →
    (servedWindow files r openedAt tfS).isSome →
      (∀ c ∈ between (sinceOf r openedAt tfS) openedAt rows,
        c ∈ h.candles r.symbol r.timeframe) ∧
      ∀ c ∈ asked h r openedAt tfS, c ∈ rows

/-! ### The end of a sublist -/

/-- A sublist ends as the list does if it has what the list ends with. -/
theorem lastOf_sublist {α : Type} (n : ℕ) (l' l : List α) (hsub : l'.Sublist l) (hnodup : l.Nodup)
    (h : ∀ a ∈ lastOf n l, a ∈ l') : lastOf n l' = lastOf n l := by
  by_cases hn : n = 0
  · subst hn
    have hall : l ⊆ l' := fun a ha => h a ha
    have hlen : l.length ≤ l'.length := (List.subperm_of_subset hnodup hall).length_le
    rw [hsub.eq_of_length_le hlen]
  · have hlast : ∀ m : List α, lastOf n m = m.drop (m.length - n) := fun m => if_neg hn
    rw [hlast] at h
    rw [hlast, hlast]
    generalize hk : l.length - n = k at h
    have hsplit : l.take k ++ l.drop k = l := List.take_append_drop k l
    rw [← hsplit] at hsub
    obtain ⟨front, rest, rfl, hfront, hrest⟩ := List.sublist_append_iff.mp hsub
    rw [← hsplit] at hnodup
    have hsubset : l.drop k ⊆ rest := by
      intro a ha
      rcases List.mem_append.mp (h a ha) with hin | hin
      · exact absurd rfl ((List.nodup_append.mp hnodup).2.2 a (hfront.subset hin) a ha)
      · exact hin
    have hrestEq : rest = l.drop k := by
      refine hrest.eq_of_length_le ?_
      exact (List.subperm_of_subset (List.nodup_append.mp hnodup).2.1 hsubset).length_le
    have hfrontLen := hfront.length_le
    rw [List.length_take] at hfrontLen
    rw [hrestEq, List.length_append, List.length_drop]
    have hcount : front.length + (l.length - k) - n = front.length := by omega
    rw [hcount, List.drop_left]

/-! ### The exchange -/

theorem timeframeSeconds_pos (timeframe : String) (tfS : ℤ)
    (h : timeframeSeconds timeframe = some tfS) : 0 < tfS := by
  unfold timeframeSeconds at h
  split at h
  all_goals cases h
  all_goals decide

theorem increasing_candles (h : History) (symbol timeframe : String) (tfS : ℤ)
    (htf : timeframeSeconds timeframe = some tfS) :
    Timeline.Increasing Bar.timestamp (h.candles symbol timeframe) := by
  refine (h.spaced symbol timeframe tfS htf).imp fun hab => ?_
  have hpos := timeframeSeconds_pos timeframe tfS htf
  omega

/-- Candles an interval apart in a window of `n` intervals. -/
theorem length_le_of_spaced (tfS lo : ℤ) (n : ℕ) (l : List Bar) (hpos : 0 < tfS)
    (hspaced : l.Pairwise fun a b => a.timestamp + tfS ≤ b.timestamp)
    (hlo : ∀ c ∈ l, lo ≤ c.timestamp) (hhi : ∀ c ∈ l, c.timestamp ≤ lo + n * tfS) :
    l.length ≤ n + 1 := by
  induction l generalizing lo n with
  | nil => exact Nat.zero_le _
  | cons c l ih =>
    obtain ⟨hhead, htail⟩ := List.pairwise_cons.mp hspaced
    have hc := hlo c List.mem_cons_self
    cases n with
    | zero =>
      have hnil : l = [] := by
        rw [List.eq_nil_iff_forall_not_mem]
        intro d hd
        have hd' := hhi d (List.mem_cons_of_mem c hd)
        have hcd := hhead d hd
        rw [Nat.cast_zero, zero_mul] at hd'
        omega
      rw [hnil]
      exact le_refl 1
    | succ n =>
      have hrest := ih (lo + tfS) n htail (fun d hd => by
        have hcd := hhead d hd
        omega) fun d hd => by
          have hd' := hhi d (List.mem_cons_of_mem c hd)
          rw [Nat.cast_succ, add_mul, one_mul] at hd'
          omega
      rw [List.length_cons]
      omega

/-- A long enough initial segment has all that lies before a time. -/
theorem before_take (t : ℤ) (l : List Bar) (n : ℕ) (hl : Timeline.Increasing Bar.timestamp l)
    (hn : (Timeline.before Bar.timestamp t l).length ≤ n) :
    Timeline.before Bar.timestamp t (l.take n) = Timeline.before Bar.timestamp t l := by
  apply List.Sublist.antisymm
  · exact (List.take_sublist n l).filter _
  · have hsub : (Timeline.before Bar.timestamp t l).Sublist (l.take n) := by
      rw [← Timeline.take_before Bar.timestamp t l (Timeline.sorted_of_increasing _ l hl)]
      exact List.take_sublist_take_left hn
    have hself : Timeline.before Bar.timestamp t (Timeline.before Bar.timestamp t l) =
        Timeline.before Bar.timestamp t l := by
      unfold Timeline.before
      rw [List.filter_filter]
      simp only [Bool.and_self]
    rw [← hself]
    exact hsub.filter _

/-- The buffer of ten candles is enough for a complete history. -/
theorem fetched_between (h : History) (r : Request) (openedAt tfS : ℤ)
    (htf : timeframeSeconds r.timeframe = some tfS) :
    ((fetched h.fetch r openedAt tfS).filter fun c => c.timestamp ≤ openedAt) =
      between (sinceOf r openedAt tfS) openedAt (h.candles r.symbol r.timeframe) := by
  have hfrom : ((h.candles r.symbol r.timeframe).filter fun c =>
      sinceOf r openedAt tfS * 1000 ≤ c.timestamp * 1000) =
        (h.candles r.symbol r.timeframe).filter fun c => sinceOf r openedAt tfS ≤ c.timestamp := by
    apply List.filter_congr
    intro c _
    rw [decide_eq_decide]
    omega
  have hbefore : ∀ l : List Bar, (l.filter fun c => c.timestamp ≤ openedAt) =
      Timeline.before Bar.timestamp (openedAt + 1) l := by
    intro l
    apply List.filter_congr
    intro c _
    rw [decide_eq_decide]
    exact Int.lt_add_one_iff.symm
  have hwindow : Timeline.before Bar.timestamp (openedAt + 1) ((h.candles r.symbol r.timeframe).filter
      fun c => sinceOf r openedAt tfS ≤ c.timestamp) =
        between (sinceOf r openedAt tfS) openedAt (h.candles r.symbol r.timeframe) := by
    rw [← hbefore, List.filter_filter]
    apply List.filter_congr
    intro c _
    rw [← Bool.decide_and, decide_eq_decide]
    exact And.comm
  have hcount : (between (sinceOf r openedAt tfS) openedAt
      (h.candles r.symbol r.timeframe)).length ≤ r.lookbackPeriods + 1 := by
    apply length_le_of_spaced tfS (sinceOf r openedAt tfS) r.lookbackPeriods
    · exact timeframeSeconds_pos r.timeframe tfS htf
    · exact (h.spaced r.symbol r.timeframe tfS htf).filter _
    · intro c hc
      exact (of_decide_eq_true (List.mem_filter.mp hc).2).1
    · intro c hc
      have hle := (of_decide_eq_true (List.mem_filter.mp hc).2).2
      unfold sinceOf
      omega
  unfold fetched History.fetch
  rw [hfrom, hbefore, before_take, hwindow]
  · exact (increasing_candles h r.symbol r.timeframe tfS htf).filter _
  · rw [hwindow]
    omega

/-! ### The files -/

/-- The rows of every file are in the order of time, one a timestamp. -/
def Ascending (files : Files) : Prop :=
  ∀ path rows, files path = some rows → Timeline.Increasing Bar.timestamp rows

/-- The files of some symbols have candles of these symbols. -/
def Own (h : History) (symbols : String → Prop) (files : Files) : Prop :=
  ∀ symbol timeframe day rows, symbols symbol →
    files ⟨safeSymbol symbol, timeframe, day⟩ = some rows →
    ∀ c ∈ rows, c ∈ h.candles symbol timeframe

theorem increasing_sorted (l : List Bar) :
    Timeline.Increasing Bar.timestamp ((LastOfKey.lasts Bar.timestamp l).insertionSort
      fun a b => a.timestamp ≤ b.timestamp) := by
  have htotal : Std.Total fun a b : Bar => a.timestamp ≤ b.timestamp :=
    ⟨fun a b => le_total a.timestamp b.timestamp⟩
  have htrans : IsTrans Bar fun a b => a.timestamp ≤ b.timestamp := ⟨fun _ _ _ => le_trans⟩
  have hle := List.pairwise_insertionSort (fun a b : Bar => a.timestamp ≤ b.timestamp)
    (LastOfKey.lasts Bar.timestamp l)
  have hperm := List.perm_insertionSort (fun a b : Bar => a.timestamp ≤ b.timestamp)
    (LastOfKey.lasts Bar.timestamp l)
  have hkeys := (hperm.map Bar.timestamp).nodup_iff.mpr (LastOfKey.lasts_nodup Bar.timestamp l)
  have hne := List.pairwise_map.mp hkeys
  exact (hle.and hne).imp fun hboth => lt_of_le_of_ne hboth.1 hboth.2

theorem increasing_writeCache (file : Option (List Bar)) (candles : List Bar)
    (h : Timeline.Increasing Bar.timestamp candles) :
    Timeline.Increasing Bar.timestamp (writeCache file candles) := by
  cases file with
  | none => exact h
  | some old => exact increasing_sorted (old ++ candles)

theorem mem_writeCache (file : Option (List Bar)) (candles : List Bar) (c : Bar)
    (hc : c ∈ writeCache file candles) : (∃ old, file = some old ∧ c ∈ old) ∨ c ∈ candles := by
  cases file with
  | none => exact .inr hc
  | some old =>
    have hmem := (LastOfKey.lasts_sublist Bar.timestamp (old ++ candles)).subset
      ((List.mem_insertionSort _).mp hc)
    rcases List.mem_append.mp hmem with hold | hnew
    · exact .inl ⟨old, rfl, hold⟩
    · exact .inr hnew

theorem fetched_sublist (h : History) (r : Request) (openedAt tfS : ℤ) :
    (fetched h.fetch r openedAt tfS).Sublist (h.candles r.symbol r.timeframe) :=
  (List.take_sublist _ _).trans List.filter_sublist

/-- A load keeps the files or writes what it fetched to one of them. -/
theorem load_files (h : History) (files : Files) (r : Request) :
    (loadCandlesForDeal h.fetch true files r).2 = files ∨
      ∃ openedAt tfS, timeframeSeconds r.timeframe = some tfS ∧
        (loadCandlesForDeal h.fetch true files r).2 =
          Function.update files (cachePath r openedAt)
            (some (writeCache (files (cachePath r openedAt)) (fetched h.fetch r openedAt tfS))) := by
  cases hopened : toEpochSeconds r.openedAt with
  | none =>
    rw [loadCandlesForDeal_none h.fetch true files r (.inl hopened)]
    exact .inl rfl
  | some openedAt =>
    cases htf : timeframeSeconds r.timeframe with
    | none =>
      rw [loadCandlesForDeal_none h.fetch true files r (.inr htf)]
      exact .inl rfl
    | some tfS =>
      rw [loadCandlesForDeal_eq h.fetch true files r openedAt tfS hopened htf]
      unfold loadWindow
      split
      · exact .inl rfl
      · dsimp only
        split
        · exact .inl rfl
        · exact .inr ⟨openedAt, tfS, rfl, rfl⟩

theorem ascending_load (h : History) (files : Files) (r : Request) (hasc : Ascending files) :
    Ascending (loadCandlesForDeal h.fetch true files r).2 := by
  rcases load_files h files r with hsame | ⟨openedAt, tfS, htf, hwritten⟩
  · rw [hsame]
    exact hasc
  · rw [hwritten]
    intro path rows hrows
    by_cases hpath : path = cachePath r openedAt
    · rw [hpath, Function.update_self] at hrows
      cases hrows
      apply increasing_writeCache
      exact (increasing_candles h r.symbol r.timeframe tfS htf).sublist
        (fetched_sublist h r openedAt tfS)
    · rw [Function.update_of_ne hpath] at hrows
      exact hasc path rows hrows

/-- Symbols with different file names keep to their own files. -/
theorem own_load (h : History) (symbols : String → Prop) (files : Files) (r : Request)
    (hnames : ∀ s s', symbols s → symbols s' → safeSymbol s = safeSymbol s' → s = s')
    (hr : symbols r.symbol) (hown : Own h symbols files) :
    Own h symbols (loadCandlesForDeal h.fetch true files r).2 := by
  rcases load_files h files r with hsame | ⟨openedAt, tfS, _, hwritten⟩
  · rw [hsame]
    exact hown
  · rw [hwritten]
    intro symbol timeframe day rows hsymbol hrows c hc
    by_cases hpath : (⟨safeSymbol symbol, timeframe, day⟩ : CachePath) = cachePath r openedAt
    · rw [hpath, Function.update_self] at hrows
      cases hrows
      have hsame : symbol = r.symbol :=
        hnames symbol r.symbol hsymbol hr (congrArg CachePath.symbol hpath)
      have htimeframe : timeframe = r.timeframe := congrArg CachePath.timeframe hpath
      rcases mem_writeCache _ _ c hc with ⟨old, hold, hcold⟩ | hnew
      · rw [← hpath] at hold
        exact hown symbol timeframe day old hsymbol hold c hcold
      · rw [hsame, htimeframe]
        exact (fetched_sublist h r openedAt tfS).subset hnew
    · rw [Function.update_of_ne hpath] at hrows
      exact hown symbol timeframe day rows hsymbol hrows c hc

/-! ### One deal -/

/-- A load that asks the exchange returns what the deal asks for. -/
theorem loadWindow_fetch (h : History) (useCache : Bool) (files : Files) (r : Request)
    (openedAt tfS : ℤ) (htf : timeframeSeconds r.timeframe = some tfS)
    (hmiss : (if useCache then servedWindow files r openedAt tfS else none) = none) :
    (loadWindow h.fetch useCache files r openedAt tfS).1 = asked h r openedAt tfS := by
  have hsource : source h.fetch useCache files r openedAt tfS = fetched h.fetch r openedAt tfS := by
    unfold source
    rw [hmiss]
  rw [loadWindow_source, hsource, fetched_between h r openedAt tfS htf, asked]

/-- A file that serves a deal gives the end of its rows in the window. -/
theorem loadWindow_served (h : History) (files : Files) (r : Request) (openedAt tfS : ℤ)
    (rows : List Bar) (hrows : files (cachePath r openedAt) = some rows)
    (hserved : (servedWindow files r openedAt tfS).isSome) :
    (loadWindow h.fetch true files r openedAt tfS).1 =
      lastOf r.lookbackPeriods (between (sinceOf r openedAt tfS) openedAt rows) := by
  obtain ⟨cached, hcached⟩ := Option.isSome_iff_exists.mp hserved
  obtain ⟨rows', hrows', rfl⟩ := servedWindow_between files r openedAt tfS cached hcached
  rw [hrows] at hrows'
  cases hrows'
  unfold loadWindow
  rw [if_pos rfl, hcached]

/-- Rows in the order of time that the history has are a sublist of it. -/
theorem between_sublist (h : History) (r : Request) (openedAt tfS : ℤ) (rows : List Bar)
    (htf : timeframeSeconds r.timeframe = some tfS)
    (hasc : Timeline.Increasing Bar.timestamp rows)
    (hin : ∀ c ∈ between (sinceOf r openedAt tfS) openedAt rows,
      c ∈ h.candles r.symbol r.timeframe) :
    (between (sinceOf r openedAt tfS) openedAt rows).Sublist
      (between (sinceOf r openedAt tfS) openedAt (h.candles r.symbol r.timeframe)) := by
  have hstrict : Std.Antisymm fun a b : Bar => a.timestamp < b.timestamp :=
    ⟨fun a b hab hba => absurd hab (lt_asymm hba)⟩
  have hirrefl : Std.Irrefl fun a b : Bar => a.timestamp < b.timestamp :=
    ⟨fun a => lt_irrefl a.timestamp⟩
  have hrows : (between (sinceOf r openedAt tfS) openedAt rows).Pairwise
      fun a b => a.timestamp < b.timestamp := hasc.filter _
  have hcandles := (increasing_candles h r.symbol r.timeframe tfS htf).filter
    fun c => decide (sinceOf r openedAt tfS ≤ c.timestamp ∧ c.timestamp ≤ openedAt)
  refine List.sublist_of_subperm_of_pairwise (List.subperm_of_subset hrows.nodup fun c hc => ?_)
    hrows hcandles
  exact List.mem_filter.mpr ⟨hin c hc, (List.mem_filter.mp hc).2⟩

theorem nodup_between (h : History) (r : Request) (openedAt tfS : ℤ)
    (htf : timeframeSeconds r.timeframe = some tfS) :
    (between (sinceOf r openedAt tfS) openedAt (h.candles r.symbol r.timeframe)).Nodup := by
  have hinc := (increasing_candles h r.symbol r.timeframe tfS htf).filter
    fun c => decide (sinceOf r openedAt tfS ≤ c.timestamp ∧ c.timestamp ≤ openedAt)
  exact hinc.imp fun hab => ne_of_apply_ne Bar.timestamp (ne_of_lt hab)

/-- A covered deal is loaded as without the cache. -/
theorem load_covered (h : History) (files : Files) (r : Request) (hasc : Ascending files)
    (hcovered : Covered h files r) :
    (loadCandlesForDeal h.fetch true files r).1 =
      (loadCandlesForDeal h.fetch false noFiles r).1 := by
  cases hopened : toEpochSeconds r.openedAt with
  | none =>
    rw [loadCandlesForDeal_none _ _ _ r (.inl hopened), loadCandlesForDeal_none _ _ _ r (.inl hopened)]
  | some openedAt =>
    cases htf : timeframeSeconds r.timeframe with
    | none =>
      rw [loadCandlesForDeal_none _ _ _ r (.inr htf), loadCandlesForDeal_none _ _ _ r (.inr htf)]
    | some tfS =>
      rw [loadCandlesForDeal_eq _ _ _ r openedAt tfS hopened htf,
        loadCandlesForDeal_eq _ _ _ r openedAt tfS hopened htf,
        loadWindow_fetch h false noFiles r openedAt tfS htf rfl]
      cases hserved : servedWindow files r openedAt tfS with
      | none => exact loadWindow_fetch h true files r openedAt tfS htf hserved
      | some cached =>
        obtain ⟨rows, hrows, _⟩ := servedWindow_between files r openedAt tfS cached hserved
        have hsome : (servedWindow files r openedAt tfS).isSome := by rw [hserved]; rfl
        obtain ⟨hin, hall⟩ := hcovered openedAt tfS rows hopened htf hrows hsome
        rw [loadWindow_served h files r openedAt tfS rows hrows hsome]
        refine lastOf_sublist r.lookbackPeriods _ _
          (between_sublist h r openedAt tfS rows htf (hasc _ rows hrows) hin)
          (nodup_between h r openedAt tfS htf) fun c hc => ?_
        have hwindow := mem_of_mem_lastOf r.lookbackPeriods _ c hc
        exact List.mem_filter.mpr ⟨hall c hc, (List.mem_filter.mp hwindow).2⟩

/-- A deal whose file has candles of its symbol is loaded as without the cache only where it is
covered. -/
theorem covered_of_load (h : History) (symbols : String → Prop) (files : Files) (r : Request)
    (hr : symbols r.symbol) (hown : Own h symbols files)
    (heq : (loadCandlesForDeal h.fetch true files r).1 =
      (loadCandlesForDeal h.fetch false noFiles r).1) : Covered h files r := by
  intro openedAt tfS rows hopened htf hrows hserved
  rw [loadCandlesForDeal_eq _ _ _ r openedAt tfS hopened htf,
    loadCandlesForDeal_eq _ _ _ r openedAt tfS hopened htf,
    loadWindow_fetch h false noFiles r openedAt tfS htf rfl,
    loadWindow_served h files r openedAt tfS rows hrows hserved] at heq
  refine ⟨fun c hc => ?_, fun c hc => ?_⟩
  · exact hown r.symbol r.timeframe _ rows hr hrows c (List.mem_filter.mp hc).1
  · rw [← heq] at hc
    exact (List.mem_filter.mp (mem_of_mem_lastOf r.lookbackPeriods _ c hc)).1

/-! ### All deals -/

theorem load_uncached_files (exchange : Exchange) (files : Files) (r : Request) :
    (loadCandlesForDeal exchange false files r).2 = files := by
  unfold loadCandlesForDeal loadWindow
  split
  · dsimp only
    split
    · rfl
    · split
      · rfl
      · rfl
  · rfl

theorem loads_covered (h : History) (rs : List Request) (files : Files) (hasc : Ascending files)
    (hcovered : Machine.Guarded (loadStep h) (Covered h) files rs) :
    loads h.fetch true files rs = loads h.fetch false noFiles rs := by
  induction rs generalizing files with
  | nil => rfl
  | cons r rs ih =>
    rw [loads, loads, load_uncached_files, load_covered h files r hasc hcovered.1]
    rw [ih _ (ascending_load h files r hasc) (hcovered.2 _ rfl)]

theorem covered_of_loads (h : History) (symbols : String → Prop) (rs : List Request)
    (files : Files)
    (hnames : ∀ s s', symbols s → symbols s' → safeSymbol s = safeSymbol s' → s = s')
    (hrs : ∀ r ∈ rs, symbols r.symbol) (hown : Own h symbols files)
    (heq : loads h.fetch true files rs = loads h.fetch false noFiles rs) :
    Machine.Guarded (loadStep h) (Covered h) files rs := by
  induction rs generalizing files with
  | nil => trivial
  | cons r rs ih =>
    rw [loads, loads, load_uncached_files, List.cons.injEq] at heq
    have hr := hrs r List.mem_cons_self
    refine ⟨covered_of_load h symbols files r hr hown heq.1, fun files' hstep => ?_⟩
    cases hstep
    exact ih _ (fun r' hr' => hrs r' (List.mem_cons_of_mem r hr'))
      (own_load h symbols files r hnames hr hown) heq.2

/-- Deals whose files cover them are loaded as without the cache, in any order; where no two
of their symbols share a file name no others are. -/
theorem loads_covered_iff (h : History) (rs : List Request) :
    (Machine.Guarded (loadStep h) (Covered h) noFiles rs →
        loads h.fetch true noFiles rs = loads h.fetch false noFiles rs) ∧
      ((∀ r ∈ rs, ∀ r' ∈ rs, safeSymbol r.symbol = safeSymbol r'.symbol → r.symbol = r'.symbol) →
        loads h.fetch true noFiles rs = loads h.fetch false noFiles rs →
          Machine.Guarded (loadStep h) (Covered h) noFiles rs) := by
  constructor
  · intro hcovered
    exact loads_covered h rs noFiles (fun path rows hrows => by cases hrows) hcovered
  · intro hnames heq
    refine covered_of_loads h (fun s => ∃ r ∈ rs, r.symbol = s) rs noFiles ?_
      (fun r hr => ⟨r, hr, rfl⟩) (fun symbol timeframe day rows _ hrows => by cases hrows) heq
    rintro s s' ⟨r, hr, rfl⟩ ⟨r', hr', rfl⟩ hsame
    exact hnames r hr r' hr' hsame

/-- Twenty-one minutes. -/
def minutes : List Bar := (List.range 21).map fun i => ⟨60 * i, 60000, 60010, 59990, 60000, i⟩

theorem minutes_spaced : minutes.Pairwise fun a b => a.timestamp + 60 ≤ b.timestamp := by
  decide +kernel

def minuteHistory : History where
  candles := fun _ timeframe => if timeframe = "1m" then minutes else []
  spaced := by
    intro symbol timeframe tfS htf
    split
    · rename_i hminute
      rw [hminute] at htf
      cases htf
      exact minutes_spaced
    · exact List.Pairwise.nil

/-- A deal that opens so many minutes into the history. -/
def afterMinutes (n : ℕ) : Request := ⟨.number (60 * n), "BTC/USD", "1m", 10⟩

theorem covered_afterMinutes :
    Machine.Guarded (loadStep minuteHistory) (Covered minuteHistory) noFiles
      [afterMinutes 10, afterMinutes 19] := by
  refine (loads_covered_iff minuteHistory [afterMinutes 10, afterMinutes 19]).2 ?_ ?_
  · decide +kernel
  · decide +kernel

/-- Ten minutes later the file of the first deal has nine tenths of the window, and not the
newest candle. -/
theorem loads_differ_afterMinutes :
    ¬ ∀ (h : History) (rs : List Request),
      loads h.fetch true noFiles rs = loads h.fetch false noFiles rs := by
  intro hall
  have hlast := congrArg (List.map fun l => (l.getLast?.map Bar.timestamp))
    (hall minuteHistory [afterMinutes 10, afterMinutes 20])
  revert hlast
  decide +kernel

end CandleLoader

end Reverto
