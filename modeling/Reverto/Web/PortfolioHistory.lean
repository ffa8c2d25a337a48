import Mathlib.Data.String.Basic
import Mathlib.Tactic
import Reverto.Core.PortfolioStore
import Reverto.Lib.LastOfKey

/-!
# The portfolio chart (core/portfolio_store.py, web/routes/portfolio.py)

`history` and the points that `get_portfolio_history` groups its rows into. The rows of
`create_snapshot` all have the text of `datetime('now')`, so that the order of the texts
is the order of the instants.
-/

namespace Reverto

/-- An entry of `grouped`. -/
structure HistoryPoint where
  capturedAt : String
  totalUsd : ℚ
  perAccount : KeyedDict (Prod.fst : ℕ × ℚ → ℕ)

/-- A row added to an entry. -/
def HistoryPoint.add (p : HistoryPoint) (r : Snapshot) : HistoryPoint :=
  { p with
    totalUsd := p.totalUsd + r.balanceUsd
    perAccount := p.perAccount.set (r.exchangeAccountId, r.balanceUsd) }

namespace PortfolioHistory

/-- `ORDER BY captured_at ASC, exchange_account_id ASC` -/
abbrev InOrder (a b : Snapshot) : Prop :=
  a.capturedAt < b.capturedAt ∨
    (a.capturedAt = b.capturedAt ∧ a.exchangeAccountId ≤ b.exchangeAccountId)

instance : Std.Total InOrder where
  total a b := by
    rcases lt_trichotomy a.capturedAt b.capturedAt with hlt | heq | hgt
    · exact .inl (.inl hlt)
    · rcases le_total a.exchangeAccountId b.exchangeAccountId with hle | hge
      · exact .inl (.inr ⟨heq, hle⟩)
      · exact .inr (.inr ⟨heq.symm, hge⟩)
    · exact .inr (.inl hgt)

instance : IsTrans Snapshot InOrder where
  trans a b c hab hbc := by
    rcases hab with hlt | ⟨heq, hle⟩
    · rcases hbc with hlt' | ⟨heq', _⟩
      · exact .inl (hlt.trans hlt')
      · exact .inl (heq' ▸ hlt)
    · rcases hbc with hlt' | ⟨heq', hle'⟩
      · exact .inl (heq ▸ hlt')
      · exact .inr ⟨heq.trans heq', hle.trans hle'⟩

/-- `history`; `instant` is what `datetime()` makes of a text. -/
def history (instant : String → ℤ) (t : PortfolioTables) (userId : ℕ) (since till : ℤ) :
    List Snapshot :=
  (t.snapshots.items.filter fun s => decide (s.userId = userId) &&
    (decide (since ≤ instant s.capturedAt) && decide (instant s.capturedAt ≤ till))).insertionSort
      InOrder

/-- One round of the loop over the rows: `setdefault`, then the entry. -/
def addRow (grouped : KeyedDict HistoryPoint.capturedAt) (r : Snapshot) :
    KeyedDict HistoryPoint.capturedAt :=
  let entry := (grouped.get? r.capturedAt).getD ⟨r.capturedAt, 0, KeyedDict.empty⟩
  grouped.set (entry.add r)

/-- `grouped` -/
def grouped (rows : List Snapshot) : KeyedDict HistoryPoint.capturedAt :=
  rows.foldl addRow KeyedDict.empty

/-- `points` -/
def points (rows : List Snapshot) : List HistoryPoint :=
  (grouped rows).items.insertionSort fun p q => p.capturedAt ≤ q.capturedAt

/-! ### What a point holds -/

/-- The rows captured at an instant. -/
def rowsAt (rows : List Snapshot) (ts : String) : List Snapshot :=
  rows.filter fun r => decide (r.capturedAt = ts)

/-- The entry of an instant. -/
def pointAt (rows : List Snapshot) (ts : String) : HistoryPoint where
  capturedAt := ts
  totalUsd := ((rowsAt rows ts).map Snapshot.balanceUsd).sum
  perAccount := KeyedDict.ofList ((rowsAt rows ts).map fun r => (r.exchangeAccountId, r.balanceUsd))

theorem rowsAt_snoc_self (rows : List Snapshot) (r : Snapshot) :
    rowsAt (rows ++ [r]) r.capturedAt = rowsAt rows r.capturedAt ++ [r] := by
  simp [rowsAt, List.filter_append]

theorem rowsAt_snoc_of_ne (rows : List Snapshot) (r : Snapshot) (ts : String) (h : ts ≠ r.capturedAt) :
    rowsAt (rows ++ [r]) ts = rowsAt rows ts := by
  simp [rowsAt, List.filter_append, h.symm]

theorem pointAt_snoc (rows : List Snapshot) (r : Snapshot) :
    (pointAt rows r.capturedAt).add r = pointAt (rows ++ [r]) r.capturedAt := by
  simp [pointAt, HistoryPoint.add, rowsAt_snoc_self, KeyedDict.ofList]

theorem pointAt_new (rows : List Snapshot) (ts : String) (h : rowsAt rows ts = []) :
    pointAt rows ts = ⟨ts, 0, KeyedDict.empty⟩ := by
  rw [pointAt, h]
  rfl

theorem grouped_get? (rows : List Snapshot) (ts : String) :
    (grouped rows).get? ts = if rowsAt rows ts = [] then none else some (pointAt rows ts) := by
  induction rows using List.reverseRecOn generalizing ts with
  | nil => rfl
  | append_singleton rows r ih =>
    have hfold : grouped (rows ++ [r]) = addRow (grouped rows) r := by
      simp [grouped, List.foldl_append]
    have hentry : ((grouped rows).get? r.capturedAt).getD ⟨r.capturedAt, 0, KeyedDict.empty⟩ =
        pointAt rows r.capturedAt := by
      rw [ih]
      split
      · rename_i hnone
        exact (pointAt_new rows r.capturedAt hnone).symm
      · rfl
    rw [hfold, addRow, hentry, pointAt_snoc]
    by_cases hts : ts = r.capturedAt
    · subst hts
      rw [rowsAt_snoc_self, if_neg (by simp)]
      exact KeyedDict.get?_set_self _ (pointAt (rows ++ [r]) r.capturedAt)
    · rw [rowsAt_snoc_of_ne rows r ts hts]
      have hother := KeyedDict.get?_set_of_ne (grouped rows) (pointAt (rows ++ [r]) r.capturedAt) ts hts
      have hsame : pointAt (rows ++ [r]) ts = pointAt rows ts := by
        rw [pointAt, pointAt, rowsAt_snoc_of_ne rows r ts hts]
      rw [hsame]
      exact hother.trans (ih ts)

theorem mem_points (rows : List Snapshot) (p : HistoryPoint) :
    p ∈ points rows ↔ ∃ ts, rowsAt rows ts ≠ [] ∧ p = pointAt rows ts := by
  rw [points, List.mem_insertionSort]
  constructor
  · intro h
    have hget := KeyedDict.get?_of_mem (grouped rows) p h
    rw [grouped_get?] at hget
    obtain ⟨hne, hp⟩ := Option.ite_none_left_eq_some.mp hget
    exact ⟨p.capturedAt, hne, (Option.some.inj hp).symm⟩
  · intro h
    obtain ⟨ts, hne, rfl⟩ := h
    have hget := grouped_get? rows ts
    rw [if_neg hne] at hget
    exact ((KeyedDict.get?_eq_some_iff _ _ _).mp hget).1

/-! ### Totals -/

/-- The rows captured up to an instant. -/
def rowsUpTo (rows : List Snapshot) (ts : String) : List Snapshot :=
  rows.filter fun r => decide (r.capturedAt ≤ ts)

/-- The rows captured before an instant. -/
def rowsBefore (rows : List Snapshot) (ts : String) : List Snapshot :=
  rows.filter fun r => decide (r.capturedAt < ts)

/-- The most recent balance of an account at an instant; rows come oldest first. -/
def balanceAsOf (rows : List Snapshot) (ts : String) (accountId : ℕ) : ℚ :=
  ((((rowsUpTo rows ts).filter fun r => decide (r.exchangeAccountId = accountId)).getLast?).map
    Snapshot.balanceUsd).getD 0

/-- What the user's accounts are worth at an instant. -/
def totalAsOf (rows : List Snapshot) (ts : String) : ℚ :=
  ((rows.map Snapshot.exchangeAccountId).dedup.map (balanceAsOf rows ts)).sum

/-- Every point shows the total, and so do its parts. -/
def ShowsTotal (rows : List Snapshot) : Prop :=
  ∀ p ∈ points rows, p.totalUsd = totalAsOf rows p.capturedAt ∧
    p.totalUsd = (p.perAccount.items.map Prod.snd).sum

/-- The rows of an instant that a later one of the same account and instant replaces. -/
def repeatedRows (rows : List Snapshot) (ts : String) : List Snapshot :=
  LastOfKey.replaced Snapshot.exchangeAccountId (rowsAt rows ts)

/-- The last rows before an instant of the accounts that are not captured at it. -/
def absentRows (rows : List Snapshot) (ts : String) : List Snapshot :=
  (LastOfKey.lasts Snapshot.exchangeAccountId (rowsBefore rows ts)).filter fun r =>
    decide (r.exchangeAccountId ∉ (rowsAt rows ts).map Snapshot.exchangeAccountId)

/-- At every instant of a row, each account seen so far is captured once, or what is
repeated and what is absent is worth nothing. -/
def CapturedTogether (rows : List Snapshot) : Prop :=
  ∀ r ∈ rows, ((repeatedRows rows r.capturedAt).map Snapshot.balanceUsd).sum = 0 ∧
    ((absentRows rows r.capturedAt).map Snapshot.balanceUsd).sum = 0

theorem perAccount_sum (rows : List Snapshot) (ts : String) :
    ((pointAt rows ts).perAccount.items.map Prod.snd).sum =
      ((LastOfKey.lasts Snapshot.exchangeAccountId (rowsAt rows ts)).map Snapshot.balanceUsd).sum := by
  have hlasts : ∀ l : List Snapshot,
      LastOfKey.lasts Prod.fst (l.map fun r => (r.exchangeAccountId, r.balanceUsd)) =
        (LastOfKey.lasts Snapshot.exchangeAccountId l).map fun r => (r.exchangeAccountId, r.balanceUsd) := by
    intro l
    induction l with
    | nil => rfl
    | cons r l ih =>
      have hkeys : (l.map fun r => (r.exchangeAccountId, r.balanceUsd)).map Prod.fst =
          l.map Snapshot.exchangeAccountId := by
        rw [List.map_map]
        rfl
      rw [List.map_cons, LastOfKey.lasts, LastOfKey.lasts, hkeys, ih]
      split
      · rfl
      · rfl
  have hperm := LastOfKey.ofList_perm (Prod.fst : ℕ × ℚ → ℕ)
    ((rowsAt rows ts).map fun r => (r.exchangeAccountId, r.balanceUsd))
  rw [hlasts] at hperm
  have hsum := (hperm.map Prod.snd).sum_eq
  rw [List.map_map] at hsum
  exact hsum

theorem pointAt_total (rows : List Snapshot) (ts : String) :
    (pointAt rows ts).totalUsd = ((repeatedRows rows ts).map Snapshot.balanceUsd).sum +
      ((LastOfKey.lasts Snapshot.exchangeAccountId (rowsAt rows ts)).map Snapshot.balanceUsd).sum := by
  have hperm := (LastOfKey.perm_lasts Snapshot.exchangeAccountId (rowsAt rows ts)).map Snapshot.balanceUsd
  rw [List.map_append] at hperm
  rw [← List.sum_append]
  exact hperm.sum_eq

/-- The balances as of an instant are those of the last rows up to it. -/
theorem totalAsOf_eq (rows : List Snapshot) (ts : String) :
    totalAsOf rows ts =
      ((LastOfKey.lasts Snapshot.exchangeAccountId (rowsUpTo rows ts)).map Snapshot.balanceUsd).sum := by
  have hlast : ∀ r ∈ LastOfKey.lasts Snapshot.exchangeAccountId (rowsUpTo rows ts),
      balanceAsOf rows ts r.exchangeAccountId = r.balanceUsd := by
    intro r hr
    rw [balanceAsOf, LastOfKey.getLast?_of_mem_lasts Snapshot.exchangeAccountId _ r hr]
    rfl
  have hsub : ((LastOfKey.lasts Snapshot.exchangeAccountId (rowsUpTo rows ts)).map
      Snapshot.exchangeAccountId).toFinset ⊆ (rows.map Snapshot.exchangeAccountId).dedup.toFinset := by
    intro a ha
    rw [List.mem_toFinset, LastOfKey.mem_map_lasts] at ha
    rw [List.mem_toFinset, List.mem_dedup]
    obtain ⟨r, hr, rfl⟩ := List.mem_map.mp ha
    exact List.mem_map_of_mem (List.mem_of_mem_filter hr)
  have hrest : ∀ a ∈ (rows.map Snapshot.exchangeAccountId).dedup.toFinset,
      a ∉ ((LastOfKey.lasts Snapshot.exchangeAccountId (rowsUpTo rows ts)).map
        Snapshot.exchangeAccountId).toFinset → balanceAsOf rows ts a = 0 := by
    intro a _ ha
    rw [List.mem_toFinset, LastOfKey.mem_map_lasts] at ha
    have hnone : ((rowsUpTo rows ts).filter fun r => decide (r.exchangeAccountId = a)) = [] := by
      rw [List.filter_eq_nil_iff]
      intro r hr hacc
      exact ha (List.mem_map.mpr ⟨r, hr, by simpa using hacc⟩)
    rw [balanceAsOf, hnone]
    rfl
  rw [totalAsOf, ← List.sum_toFinset _ (List.nodup_dedup _), ← Finset.sum_subset hsub hrest,
    List.sum_toFinset _ (LastOfKey.lasts_nodup _ _), List.map_map]
  exact congrArg List.sum (List.map_congr_left hlast)

theorem lasts_upTo (rows : List Snapshot) (ts : String)
    (hsorted : rows.Pairwise fun r s => r.capturedAt ≤ s.capturedAt) :
    LastOfKey.lasts Snapshot.exchangeAccountId (rowsUpTo rows ts) =
      absentRows rows ts ++ LastOfKey.lasts Snapshot.exchangeAccountId (rowsAt rows ts) := by
  have hsplit : rowsUpTo rows ts = rowsBefore rows ts ++ rowsAt rows ts := by
    induction rows with
    | nil => rfl
    | cons r rows ih =>
      obtain ⟨hhead, htail⟩ := List.pairwise_cons.mp hsorted
      have hrest := ih htail
      unfold rowsUpTo rowsBefore rowsAt at hrest ⊢
      rcases lt_trichotomy r.capturedAt ts with hlt | heq | hgt
      · rw [List.filter_cons_of_pos (by simpa using hlt.le), List.filter_cons_of_pos (by simpa using hlt),
          List.filter_cons_of_neg (by simpa using hlt.ne), hrest, List.cons_append]
      · have hnone : (rows.filter fun s => decide (s.capturedAt < ts)) = [] := by
          rw [List.filter_eq_nil_iff]
          intro s hs
          rw [decide_eq_true_eq, ← heq]
          exact not_lt.mpr (hhead s hs)
        rw [List.filter_cons_of_pos (by simpa using heq.le), List.filter_cons_of_neg (by rw [decide_eq_true_eq]; exact not_lt.mpr heq.ge),
          List.filter_cons_of_pos (by simpa using heq), hrest, hnone]
        rfl
      · rw [List.filter_cons_of_neg (by simpa using hgt), List.filter_cons_of_neg (by rw [decide_eq_true_eq]; exact not_lt.mpr hgt.le),
          List.filter_cons_of_neg (by simpa using hgt.ne'), hrest]
  rw [hsplit, LastOfKey.lasts_append]
  rfl

theorem showsTotal_at (rows : List Snapshot) (ts : String)
    (hsorted : rows.Pairwise fun r s => r.capturedAt ≤ s.capturedAt) :
    ((pointAt rows ts).totalUsd = totalAsOf rows ts ∧
      (pointAt rows ts).totalUsd = ((pointAt rows ts).perAccount.items.map Prod.snd).sum) ↔
    ((repeatedRows rows ts).map Snapshot.balanceUsd).sum = 0 ∧
      ((absentRows rows ts).map Snapshot.balanceUsd).sum = 0 := by
  rw [perAccount_sum, pointAt_total, totalAsOf_eq, lasts_upTo rows ts hsorted, List.map_append,
    List.sum_append]
  constructor
  · intro h
    obtain ⟨htotal, hparts⟩ := h
    have hrepeated : ((repeatedRows rows ts).map Snapshot.balanceUsd).sum = 0 := by
      linarith only [hparts]
    rw [hrepeated] at htotal
    exact ⟨hrepeated, by linarith only [htotal]⟩
  · intro h
    rw [h.1, h.2]
    exact ⟨rfl, zero_add _⟩

theorem history_sorted (instant : String → ℤ) (t : PortfolioTables) (userId : ℕ) (since till : ℤ) :
    (history instant t userId since till).Pairwise fun r s => r.capturedAt ≤ s.capturedAt := by
  have hsorted := List.pairwise_insertionSort InOrder (t.snapshots.items.filter fun s =>
    decide (s.userId = userId) &&
      (decide (since ≤ instant s.capturedAt) && decide (instant s.capturedAt ≤ till)))
  refine hsorted.imp fun {r s} h => ?_
  rcases h with hlt | ⟨heq, _⟩
  · exact hlt.le
  · exact heq.le

/-- The points of a user show the total exactly where every account is captured once at every
instant of the query. -/
theorem showsTotal_iff (instant : String → ℤ) (t : PortfolioTables) (userId : ℕ) (since till : ℤ) :
    ShowsTotal (history instant t userId since till) ↔
      CapturedTogether (history instant t userId since till) := by
  have hsorted := history_sorted instant t userId since till
  constructor
  · intro h r hr
    have hmem : rowsAt (history instant t userId since till) r.capturedAt ≠ [] :=
      List.ne_nil_of_mem (List.mem_filter.mpr ⟨hr, by simp⟩)
    have hpoint := h _ ((mem_points _ _).mpr ⟨r.capturedAt, hmem, rfl⟩)
    exact (showsTotal_at _ r.capturedAt hsorted).mp hpoint
  · intro h p hp
    obtain ⟨ts, hne, rfl⟩ := (mem_points _ p).mp hp
    obtain ⟨r, hr⟩ := List.exists_mem_of_ne_nil _ hne
    obtain ⟨hmem, hts⟩ := List.mem_filter.mp hr
    have heq : r.capturedAt = ts := by simpa using hts
    have hrow := h r hmem
    rw [heq] at hrow
    exact (showsTotal_at _ ts hsorted).mpr hrow

/-- One pass of the scheduler over two accounts, the second captured a second later. -/
def onePass : PortfolioTables where
  snapshots := KeyedDict.ofList
    [⟨1, 1, 11, "2026-05-13 20:00:02", 1, "BTC", 10, 10, "coingecko", "auto"⟩,
      ⟨2, 1, 12, "2026-05-13 20:00:03", 1, "BTC", 15, 15, "coingecko", "auto"⟩]
  accounts := KeyedDict.empty

/-- The second point shows the second account alone. -/
theorem not_showsTotal_onePass :
    ¬ ∀ (instant : String → ℤ) (t : PortfolioTables) (userId : ℕ) (since till : ℤ),
      ShowsTotal (history instant t userId since till) := by
  intro h
  have hrows : history (fun _ => 0) onePass 1 0 0 = onePass.snapshots.items := by decide +kernel
  have hshows := h (fun _ => 0) onePass 1 0 0
  rw [hrows] at hshows
  have hpoint := hshows (pointAt onePass.snapshots.items "2026-05-13 20:00:03")
    ((mem_points _ _).mpr ⟨_, by decide +kernel, rfl⟩)
  have htotal := hpoint.1
  revert htotal
  decide +kernel

end PortfolioHistory

end Reverto
