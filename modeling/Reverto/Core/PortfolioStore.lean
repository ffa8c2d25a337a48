import Mathlib.Data.String.Basic
import Mathlib.Tactic
import Reverto.Core.ExchangeAccountStore

/-!
# Portfolio snapshots (core/portfolio_store.py)

The table `portfolio_snapshots`, `latest_per_account` and the totals that
`get_portfolio_latest` (web/routes/portfolio.py) makes of it. `captured_at` is a text
and is compared as one.
-/

namespace Reverto

/-- A row of `portfolio_snapshots`. -/
structure Snapshot where
  id : ℕ
  userId : ℕ
  exchangeAccountId : ℕ
  capturedAt : String
  balanceNative : ℚ
  currency : String
  balanceUsd : ℚ
  usdRate : ℚ
  rateSource : String
  source : String
  deriving DecidableEq, Repr

/-- The tables the store reads, by primary key. -/
structure PortfolioTables where
  snapshots : KeyedDict Snapshot.id
  accounts : KeyedDict ExchangeAccount.id

/-- A dict of `latest_per_account`. -/
structure LatestSnapshot where
  row : Snapshot
  aliasName : String
  exchangeType : String
  marketType : String
  deriving DecidableEq, Repr

/-- `totals` of `get_portfolio_latest`. -/
structure PortfolioTotals where
  balanceUsd : ℚ := 0
  byCurrency : KeyedDict (Prod.fst : String × ℚ → String) := KeyedDict.empty
  asOf : Option String := none

namespace PortfolioStore

variable (t : PortfolioTables) (userId : ℕ)

/-- The rows of an account, whoever they are of. -/
def snapshotsOf (accountId : ℕ) : List Snapshot :=
  t.snapshots.items.filter fun ps => ps.exchangeAccountId = accountId

/-- The subquery: `MAX(captured_at)` of an account. -/
def maxCapturedAt (accountId : ℕ) : Option String :=
  ((snapshotsOf t accountId).map Snapshot.capturedAt).max?

/-- The row of the query for a snapshot, where the join and the filter let it through. -/
def joined (ps : Snapshot) : Option LatestSnapshot :=
  match t.accounts.get? ps.exchangeAccountId with
  | none => none
  | some ea =>
    if ps.userId = userId ∧ some ps.capturedAt = maxCapturedAt t ps.exchangeAccountId then
      some ⟨ps, ea.aliasName, ea.exchangeType, ea.marketType⟩
    else none

/-- `ORDER BY ea.exchange_type ASC, ea.alias ASC` -/
abbrev InOrder (a b : LatestSnapshot) : Prop :=
  a.exchangeType < b.exchangeType ∨ (a.exchangeType = b.exchangeType ∧ a.aliasName ≤ b.aliasName)

/-- `latest_per_account` -/
def latestPerAccount : List LatestSnapshot :=
  (t.snapshots.items.filterMap (joined t userId)).insertionSort InOrder

/-- One round of the loop of `get_portfolio_latest`. -/
def addToTotals (totals : PortfolioTotals) (l : LatestSnapshot) : PortfolioTotals :=
  let ofCurrency := (totals.byCurrency.get? l.row.currency).map Prod.snd
  { balanceUsd := totals.balanceUsd + l.row.balanceUsd
    byCurrency := totals.byCurrency.set (l.row.currency, ofCurrency.getD 0 + l.row.balanceNative)
    asOf :=
      match totals.asOf with
      | none => some l.row.capturedAt
      | some asOf => if asOf < l.row.capturedAt then some l.row.capturedAt else some asOf }

/-- The totals of `get_portfolio_latest`. -/
def portfolioTotals (latest : List LatestSnapshot) : PortfolioTotals := latest.foldl addToTotals {}

/-! ### What the query returns -/

/-- No row of the account has a greater text. -/
def Top (ps : Snapshot) : Prop :=
  ∀ s ∈ t.snapshots.items, s.exchangeAccountId = ps.exchangeAccountId → s.capturedAt ≤ ps.capturedAt

theorem maxCapturedAt_eq_iff (ps : Snapshot) (hps : ps ∈ t.snapshots.items) :
    some ps.capturedAt = maxCapturedAt t ps.exchangeAccountId ↔ Top t ps := by
  have hown : ps ∈ snapshotsOf t ps.exchangeAccountId := List.mem_filter.mpr ⟨hps, by simp⟩
  rw [maxCapturedAt, eq_comm, List.max?_eq_some_iff]
  constructor
  · intro h s hs hacc
    refine h.2 s.capturedAt (List.mem_map_of_mem ?_)
    exact List.mem_filter.mpr ⟨hs, by simpa using hacc⟩
  · intro h
    refine ⟨List.mem_map_of_mem hown, fun text htext => ?_⟩
    obtain ⟨s, hs, rfl⟩ := List.mem_map.mp htext
    obtain ⟨hmem, hacc⟩ := List.mem_filter.mp hs
    exact h s hmem (by simpa using hacc)

/-- The snapshots that `latest_per_account` returns. -/
def latestRows : List Snapshot := (latestPerAccount t userId).map LatestSnapshot.row

theorem mem_latestRows (ps : Snapshot) :
    ps ∈ latestRows t userId ↔ ps ∈ t.snapshots.items ∧
      (∃ ea ∈ t.accounts.items, ea.id = ps.exchangeAccountId) ∧ ps.userId = userId ∧ Top t ps := by
  have hperm := List.perm_insertionSort InOrder (t.snapshots.items.filterMap (joined t userId))
  simp only [latestRows, latestPerAccount, List.mem_map, hperm.mem_iff, List.mem_filterMap]
  constructor
  · intro h
    obtain ⟨l, ⟨s, hs, hjoined⟩, rfl⟩ := h
    unfold joined at hjoined
    cases hea : t.accounts.get? s.exchangeAccountId with
    | none =>
      rw [hea] at hjoined
      cases hjoined
    | some ea =>
      rw [hea] at hjoined
      obtain ⟨⟨huser, hmax⟩, hrow⟩ := Option.ite_none_right_eq_some.mp hjoined
      cases hrow
      obtain ⟨hmem, hid⟩ := (KeyedDict.get?_eq_some_iff t.accounts _ ea).mp hea
      exact ⟨hs, ⟨ea, hmem, hid⟩, huser, (maxCapturedAt_eq_iff t s hs).mp hmax⟩
  · intro h
    obtain ⟨hs, ⟨ea, hmem, hid⟩, huser, htop⟩ := h
    have hea := (KeyedDict.get?_eq_some_iff t.accounts ps.exchangeAccountId ea).mpr ⟨hmem, hid⟩
    refine ⟨⟨ps, ea.aliasName, ea.exchangeType, ea.marketType⟩, ⟨ps, hs, ?_⟩, rfl⟩
    rw [joined, hea]
    exact if_pos ⟨huser, (maxCapturedAt_eq_iff t ps hs).mpr htop⟩

theorem joined_row (ps : Snapshot) (l : LatestSnapshot) (h : joined t userId ps = some l) :
    l.row = ps := by
  unfold joined at h
  split at h
  · cases h
  · obtain ⟨_, hrow⟩ := Option.ite_none_right_eq_some.mp h
    cases hrow
    rfl

theorem latestRows_nodup : (latestRows t userId).Nodup := by
  have hperm := List.perm_insertionSort InOrder (t.snapshots.items.filterMap (joined t userId))
  have hrows : (t.snapshots.items.filterMap (joined t userId)).map LatestSnapshot.row =
      t.snapshots.items.filter fun ps => (joined t userId ps).isSome := by
    induction t.snapshots.items with
    | nil => rfl
    | cons ps l ih =>
      cases hps : joined t userId ps with
      | none => simp [hps, ih]
      | some r => simp [hps, ih, joined_row t userId ps r hps]
  have hnodup : t.snapshots.items.Nodup := List.Nodup.of_map Snapshot.id t.snapshots.nodup
  rw [latestRows, latestPerAccount, (hperm.map LatestSnapshot.row).nodup_iff, hrows]
  exact hnodup.filter _

theorem portfolioTotals_balance (latest : List LatestSnapshot) :
    (portfolioTotals latest).balanceUsd = (latest.map fun l => l.row.balanceUsd).sum := by
  have hfold : ∀ (l : List LatestSnapshot) (totals : PortfolioTotals),
      (l.foldl addToTotals totals).balanceUsd =
        totals.balanceUsd + (l.map fun l => l.row.balanceUsd).sum := by
    intro l
    induction l with
    | nil => intro totals; simp
    | cons a l ih =>
      intro totals
      rw [List.foldl_cons, ih, List.map_cons, List.sum_cons, ← add_assoc]
      rfl
  rw [portfolioTotals, hfold]
  exact zero_add _

/-! ### One latest row for each account -/

/-- The accounts of the user that have a snapshot. -/
def capturedAccounts : List ℕ :=
  (t.accounts.items.filter fun ea =>
    decide (ea.userId = userId) && decide (snapshotsOf t ea.id ≠ [])).map ExchangeAccount.id

/-- The balance that the result lists first for an account. -/
def listedBalance (accountId : ℕ) : ℚ :=
  (((latestRows t userId).find? fun s => s.exchangeAccountId = accountId).map
    Snapshot.balanceUsd).getD 0

/-- The result has one row for each captured account, with the latest instant of its rows,
and the total counts each account once. -/
structure OneLatestEach (instant : String → ℤ) : Prop where
  each : ((latestRows t userId).map Snapshot.exchangeAccountId).Perm (capturedAccounts t userId)
  latest : ∀ r ∈ latestRows t userId, ∀ s ∈ t.snapshots.items,
    s.exchangeAccountId = r.exchangeAccountId → instant s.capturedAt ≤ instant r.capturedAt
  counted : (portfolioTotals (latestPerAccount t userId)).balanceUsd =
    ((capturedAccounts t userId).map (listedBalance t userId)).sum

/-- Among the rows of an account the greatest text is that of one row of the user, at the
latest instant, and the user has no such row on the account of another. -/
structure NewestAlone (instant : String → ℤ) : Prop where
  own : ∀ a ∈ capturedAccounts t userId, ∃ s ∈ snapshotsOf t a, s.userId = userId ∧
    ∀ s' ∈ snapshotsOf t a, s'.capturedAt ≤ s.capturedAt ∧
      instant s'.capturedAt ≤ instant s.capturedAt ∧
      (s'.userId = userId → s'.capturedAt = s.capturedAt → s' = s)
  foreign : ∀ ea ∈ t.accounts.items, ea.userId ≠ userId → ∀ s ∈ snapshotsOf t ea.id,
    s.userId = userId → ∃ s' ∈ snapshotsOf t ea.id, s.capturedAt < s'.capturedAt

theorem mem_snapshotsOf (a : ℕ) (s : Snapshot) :
    s ∈ snapshotsOf t a ↔ s ∈ t.snapshots.items ∧ s.exchangeAccountId = a := by
  rw [snapshotsOf, List.mem_filter, decide_eq_true_eq]

theorem mem_capturedAccounts (a : ℕ) :
    a ∈ capturedAccounts t userId ↔
      ∃ ea ∈ t.accounts.items, ea.id = a ∧ ea.userId = userId ∧ ∃ s, s ∈ snapshotsOf t a := by
  simp only [capturedAccounts, List.mem_map, List.mem_filter, Bool.and_eq_true, decide_eq_true_eq]
  constructor
  · intro h
    obtain ⟨ea, ⟨hmem, huser, hne⟩, rfl⟩ := h
    exact ⟨ea, hmem, rfl, huser, List.exists_mem_of_ne_nil _ hne⟩
  · intro h
    obtain ⟨ea, hmem, rfl, huser, s, hs⟩ := h
    exact ⟨ea, ⟨hmem, huser, List.ne_nil_of_mem hs⟩, rfl⟩

theorem capturedAccounts_nodup : (capturedAccounts t userId).Nodup := by
  have hsub := (List.filter_sublist (p := fun ea : ExchangeAccount =>
    decide (ea.userId = userId) && decide (snapshotsOf t ea.id ≠ [])) (l := t.accounts.items)).map
      ExchangeAccount.id
  exact hsub.nodup t.accounts.nodup

/-- The primary key of `exchange_accounts`. -/
theorem account_unique (ea ea' : ExchangeAccount) (h : ea ∈ t.accounts.items)
    (h' : ea' ∈ t.accounts.items) (hid : ea.id = ea'.id) : ea = ea' :=
  List.inj_on_of_nodup_map t.accounts.nodup h h' hid

theorem counted_of_each
    (h : ((latestRows t userId).map Snapshot.exchangeAccountId).Perm (capturedAccounts t userId)) :
    (portfolioTotals (latestPerAccount t userId)).balanceUsd =
      ((capturedAccounts t userId).map (listedBalance t userId)).sum := by
  have hnodup : ((latestRows t userId).map Snapshot.exchangeAccountId).Nodup :=
    h.nodup_iff.mpr (capturedAccounts_nodup t userId)
  have hlisted : ∀ s ∈ latestRows t userId,
      listedBalance t userId s.exchangeAccountId = s.balanceUsd := by
    intro s hs
    rw [listedBalance]
    cases hfind : (latestRows t userId).find? fun s' => s'.exchangeAccountId = s.exchangeAccountId with
    | none =>
      have hno := List.find?_eq_none.mp hfind s hs
      simp at hno
    | some s' =>
      have hacc := List.find?_some hfind
      have hmem := List.mem_of_find?_eq_some hfind
      have heq := List.inj_on_of_nodup_map hnodup hmem hs (by simpa using hacc)
      rw [heq]
      rfl
  rw [portfolioTotals_balance, ← (h.map (listedBalance t userId)).sum_eq, List.map_map]
  have hbalances : (latestPerAccount t userId).map (fun l => l.row.balanceUsd) =
      (latestRows t userId).map Snapshot.balanceUsd := by
    rw [latestRows, List.map_map]
    rfl
  rw [hbalances]
  refine congrArg List.sum (List.map_congr_left fun s hs => ?_)
  exact (hlisted s hs).symm

theorem newestAlone_of_each (instant : String → ℤ) (h : OneLatestEach t userId instant) :
    NewestAlone t userId instant := by
  have hnodup : ((latestRows t userId).map Snapshot.exchangeAccountId).Nodup :=
    h.each.nodup_iff.mpr (capturedAccounts_nodup t userId)
  refine ⟨fun a ha => ?_, fun ea hea hother s hs huser => ?_⟩
  · obtain ⟨r, hr, rfl⟩ := List.mem_map.mp (h.each.mem_iff.mpr ha)
    obtain ⟨hmem, hea, huser, htop⟩ := (mem_latestRows t userId r).mp hr
    refine ⟨r, (mem_snapshotsOf t _ r).mpr ⟨hmem, rfl⟩, huser, fun s' hs' => ?_⟩
    obtain ⟨hmem', hacc'⟩ := (mem_snapshotsOf t _ s').mp hs'
    refine ⟨htop s' hmem' hacc', h.latest r hr s' hmem' hacc', fun huser' htext => ?_⟩
    have htop' : Top t s' := by
      intro s'' hs'' hacc''
      rw [htext]
      exact htop s'' hs'' (hacc''.trans hacc')
    have hr' : s' ∈ latestRows t userId :=
      (mem_latestRows t userId s').mpr ⟨hmem', by rw [hacc']; exact hea, huser', htop'⟩
    exact List.inj_on_of_nodup_map hnodup hr' hr hacc'
  · by_contra hnone
    obtain ⟨hmem, hacc⟩ := (mem_snapshotsOf t ea.id s).mp hs
    have htop : Top t s := by
      intro s' hs' hacc'
      refine not_lt.mp fun hlt => hnone ⟨s', ?_, hlt⟩
      exact (mem_snapshotsOf t ea.id s').mpr ⟨hs', hacc'.trans hacc⟩
    have hr : s ∈ latestRows t userId :=
      (mem_latestRows t userId s).mpr ⟨hmem, ⟨ea, hea, hacc.symm⟩, huser, htop⟩
    have hcaptured := h.each.mem_iff.mp (List.mem_map_of_mem hr)
    obtain ⟨ea', hea', hid, howner, _⟩ := (mem_capturedAccounts t userId _).mp hcaptured
    have hsame := account_unique t ea' ea hea' hea (hid.trans hacc)
    rw [hsame] at howner
    exact hother howner

theorem each_of_newestAlone (instant : String → ℤ) (h : NewestAlone t userId instant) :
    OneLatestEach t userId instant := by
  have hcaptured : ∀ r ∈ latestRows t userId, r.exchangeAccountId ∈ capturedAccounts t userId := by
    intro r hr
    obtain ⟨hmem, ⟨ea, hea, hid⟩, huser, htop⟩ := (mem_latestRows t userId r).mp hr
    refine (mem_capturedAccounts t userId _).mpr ⟨ea, hea, hid, ?_, r, ?_⟩
    · by_contra hother
      have hrow := (mem_snapshotsOf t ea.id r).mpr ⟨hmem, hid.symm⟩
      obtain ⟨s', hs', hlt⟩ := h.foreign ea hea hother r hrow huser
      obtain ⟨hmem', hacc'⟩ := (mem_snapshotsOf t ea.id s').mp hs'
      exact absurd (htop s' hmem' (hacc'.trans hid)) (not_le.mpr hlt)
    · exact (mem_snapshotsOf t _ r).mpr ⟨hmem, rfl⟩
  -- the row that stands alone in its account is the one the query returns
  have halone : ∀ r ∈ latestRows t userId, ∃ s, s = r ∧
      ∀ s' ∈ snapshotsOf t r.exchangeAccountId, instant s'.capturedAt ≤ instant s.capturedAt := by
    intro r hr
    obtain ⟨hmem, _, huser, htop⟩ := (mem_latestRows t userId r).mp hr
    obtain ⟨s, hs, _, hall⟩ := h.own _ (hcaptured r hr)
    obtain ⟨hsmem, hsacc⟩ := (mem_snapshotsOf t _ s).mp hs
    have hrow := hall r ((mem_snapshotsOf t _ r).mpr ⟨hmem, rfl⟩)
    have htext : r.capturedAt = s.capturedAt := le_antisymm hrow.1 (htop s hsmem hsacc)
    exact ⟨s, (hrow.2.2 huser htext).symm, fun s' hs' => (hall s' hs').2.1⟩
  have heach : ((latestRows t userId).map Snapshot.exchangeAccountId).Perm
      (capturedAccounts t userId) := by
    rw [List.perm_ext_iff_of_nodup]
    · intro a
      constructor
      · intro ha
        obtain ⟨r, hr, rfl⟩ := List.mem_map.mp ha
        exact hcaptured r hr
      · intro ha
        obtain ⟨s, hs, huser, hall⟩ := h.own a ha
        obtain ⟨hmem, hacc⟩ := (mem_snapshotsOf t a s).mp hs
        obtain ⟨ea, hea, hid, _, _⟩ := (mem_capturedAccounts t userId a).mp ha
        refine List.mem_map.mpr ⟨s, (mem_latestRows t userId s).mpr ⟨hmem, ⟨ea, hea, ?_⟩, huser, ?_⟩, hacc⟩
        · exact hid.trans hacc.symm
        · intro s' hs' hacc'
          exact (hall s' ((mem_snapshotsOf t a s').mpr ⟨hs', hacc'.trans hacc⟩)).1
    · refine List.Nodup.map_on (fun r hr r' hr' hacc => ?_) (latestRows_nodup t userId)
      obtain ⟨hmem, _, huser, htop⟩ := (mem_latestRows t userId r).mp hr
      obtain ⟨hmem', _, huser', htop'⟩ := (mem_latestRows t userId r').mp hr'
      obtain ⟨s, hs, _, hall⟩ := h.own _ (hcaptured r hr)
      obtain ⟨hsmem, hsacc⟩ := (mem_snapshotsOf t _ s).mp hs
      have hrow := hall r ((mem_snapshotsOf t _ r).mpr ⟨hmem, rfl⟩)
      have hrow' := hall r' ((mem_snapshotsOf t _ r').mpr ⟨hmem', hacc.symm⟩)
      have htext : r.capturedAt = s.capturedAt := le_antisymm hrow.1 (htop s hsmem hsacc)
      have htext' : r'.capturedAt = s.capturedAt :=
        le_antisymm hrow'.1 (htop' s hsmem (hsacc.trans hacc))
      exact (hrow.2.2 huser htext).trans (hrow'.2.2 huser' htext').symm
    · exact capturedAccounts_nodup t userId
  refine ⟨heach, fun r hr s hs hacc => ?_, counted_of_each t userId heach⟩
  obtain ⟨s', rfl, hall⟩ := halone r hr
  exact hall s ((mem_snapshotsOf t _ s).mpr ⟨hs, hacc⟩)

/-- `latest_per_account` returns one latest row for each account where the greatest text of
an account stands alone. -/
theorem oneLatestEach_iff (instant : String → ℤ) :
    OneLatestEach t userId instant ↔ NewestAlone t userId instant :=
  ⟨newestAlone_of_each t userId instant, each_of_newestAlone t userId instant⟩

/-- The scheduler and the refresh button capture one account in the same second. -/
def sameSecond : PortfolioTables where
  snapshots := KeyedDict.ofList
    [⟨1, 1, 11, "2026-05-13 20:00:02", 1, "BTC", 10, 10, "coingecko", "auto"⟩,
      ⟨2, 1, 11, "2026-05-13 20:00:02", 1, "BTC", 10, 10, "coingecko", "manual"⟩]
  accounts := KeyedDict.ofList [⟨11, 1, "bitget", "coin_m", "main", "u", none, true⟩]

/-- The account is listed twice. -/
theorem not_oneLatestEach_sameSecond :
    ¬ ∃ instant : String → ℤ, OneLatestEach sameSecond 1 instant := by
  rintro ⟨instant, h⟩
  have hlength := h.each.length_eq
  have hrows : (latestRows sameSecond 1).length = 2 := by decide +kernel
  have haccounts : (capturedAccounts sameSecond 1).length = 1 := by decide +kernel
  rw [List.length_map, hrows, haccounts] at hlength
  cases hlength

end PortfolioStore

end Reverto
