import Mathlib.Tactic
import Reverto.Core.LedgerIsolation
import Reverto.Web.BotSlugs

/-!
# Purging a bot (core/paths.py)

`purge_bot` deletes the rows of a bot in one transaction and then its files one by one;
either part may fail without an exception.
-/

namespace Reverto

/-- The folders of a user. -/
inductive UserFolder where
  | logs (user : ℕ)
  | pids (user : ℕ)
  | ml (user : ℕ)
  | bots (user : ℕ)
  deriving DecidableEq

structure FilePath where
  folder : UserFolder
  name : List Char
  deriving DecidableEq

/-- A file on disk. -/
structure StoredFile where
  path : FilePath
  content : String
  deriving DecidableEq

abbrev FileTree := KeyedDict StoredFile.path

/-- The files the program keeps for a bot. -/
inductive BotFile where
  | config
  | state
  | stateTmp
  | stateLock
  | log (rotation : Option ℕ)
  | sentinel (request : BotRequest)
  | pid
  | mlResults
  deriving DecidableEq

namespace BotFile

variable (user : ℕ) (slug : BotSlug)

/-- What follows the slug and the dot in the name of a log. -/
def logMark : List Char := ['l', 'o', 'g']

/-- `.N` of a rotated log. -/
def rotationMark : Option ℕ → List Char
  | none => []
  | some n => '.' :: (toString n).toList

/-- The path helpers of core/paths.py; `state_file.with_suffix(".tmp")` of the state writer. -/
def path : BotFile → FilePath
  | .config => ⟨.bots user, slug.chars ++ '.' :: ['y', 'a', 'm', 'l']⟩
  | .state => ⟨.logs user, slug.chars ++ '.' :: ['s', 't', 'a', 't', 'e', '.', 'j', 's', 'o', 'n']⟩
  | .stateTmp => ⟨.logs user, slug.chars ++ '.' :: ['s', 't', 'a', 't', 'e', '.', 't', 'm', 'p']⟩
  | .stateLock =>
    ⟨.logs user, slug.chars ++ '.' :: ['s', 't', 'a', 't', 'e', '.', 'l', 'o', 'c', 'k']⟩
  | .log rotation => ⟨.logs user, slug.chars ++ '.' :: (logMark ++ rotationMark rotation)⟩
  | .sentinel request => ⟨.logs user, BotSlugs.sentinelFile slug request⟩
  | .pid => ⟨.pids user, slug.chars ++ '.' :: ['p', 'i', 'd']⟩
  | .mlResults =>
    ⟨.ml user, ['r', 'e', 's', 'u', 'l', 't', 's', '_'] ++
      (slug.chars ++ '.' :: ['j', 's', 'o', 'n'])⟩

end BotFile

/-- A row of `chart_annotations` or `backtest_runs`: the id and whose it is. -/
structure ScopedRow where
  id : ℕ
  userId : ℕ
  botSlug : String
  deriving DecidableEq

/-- The tables and files of the portal. -/
structure BotStore where
  ledger : LedgerDb
  chartAnnotations : List ScopedRow
  backtestRuns : List ScopedRow
  files : FileTree

/-- What fails during a purge: the database step after some statements, with the
text of the exception, and the files that cannot be unlinked. -/
structure PurgeFaults where
  db : Option (ℕ × String)
  unlink : FilePath → Bool

/-- The summary `purge_bot` returns. -/
structure PurgeSummary where
  filesRemoved : ℕ
  filesFailed : List FilePath
  dbRowsRemoved : List (String × ℕ)
  warnings : List String
  deriving DecidableEq

namespace LedgerDb

/-- `DELETE FROM orders WHERE ...` -/
def deleteOrders (db : LedgerDb) (p : OrderRow → Bool) : LedgerDb :=
  { db with
    orders := db.orders.filter fun r => !p r
    orderUser := fun r hr => db.orderUser r (List.mem_of_mem_filter hr)
    orderDeal := fun r hr => db.orderDeal r (List.mem_of_mem_filter hr) }

/-- `DELETE FROM deals WHERE ...`; a row that orders refer to stays, with an error. -/
def deleteDeals (db : LedgerDb) (p : DealRow → Bool) : Except IntegrityError LedgerDb :=
  if h : ∀ r ∈ db.orders.items, r.dealId ∈ (db.deals.filter fun d => !p d).items.map DealRow.id then
    .ok
      { db with
        deals := db.deals.filter fun d => !p d
        dealUser := fun r hr => db.dealUser r (List.mem_of_mem_filter hr)
        orderDeal := h }
  else .error .foreignKey

end LedgerDb

namespace BotStore

variable (user : ℕ) (slug : BotSlug)

/-- Whose rows are deleted. -/
def owner : LedgerOwner := ⟨user, String.ofList slug.chars, ""⟩

/-- `user_id = ? AND bot_slug = ?` -/
def Scoped (r : ScopedRow) : Prop := r.userId = user ∧ r.botSlug = String.ofList slug.chars

instance (r : ScopedRow) : Decidable (Scoped user slug r) := inferInstanceAs (Decidable (_ ∧ _))

/-- The ids the sub-select finds. -/
def ownDealIds (db : LedgerDb) : List String :=
  (db.deals.items.filter fun d => d.OwnedBy (owner user slug)).map DealRow.id

/-- `DELETE FROM orders WHERE deal_id IN (SELECT id FROM deals WHERE ...)` -/
def withoutOrders (db : LedgerDb) : LedgerDb :=
  db.deleteOrders fun r => decide (r.dealId ∈ ownDealIds user slug db)

/-- The row counts of the four statements. -/
def rowCounts (s : BotStore) : List (String × ℕ) :=
  [("orders", s.ledger.orders.items.countP fun r => r.dealId ∈ ownDealIds user slug s.ledger),
    ("deals", s.ledger.deals.items.countP fun d => d.OwnedBy (owner user slug)),
    ("chart_annotations", s.chartAnnotations.countP fun r => Scoped user slug r),
    ("backtest_runs", s.backtestRuns.countP fun r => Scoped user slug r)]

/-- The database step of `purge_bot`. -/
def purgeRows (fault : Option (ℕ × String)) (s : BotStore) : PurgeSummary × BotStore :=
  match fault with
  | some (statements, text) =>
    (⟨0, [], (rowCounts user slug s).take statements, ["db purge failed: " ++ text]⟩, s)
  | none =>
    match (withoutOrders user slug s.ledger).deleteDeals fun d => d.OwnedBy (owner user slug) with
    | .error _ =>
      (⟨0, [], (rowCounts user slug s).take 1, ["db purge failed: IntegrityError: FOREIGN KEY constraint failed"]⟩, s)
    | .ok ledger =>
      (⟨0, [], rowCounts user slug s, []⟩,
        { s with
          ledger := ledger
          chartAnnotations := s.chartAnnotations.filter fun r => ¬ Scoped user slug r
          backtestRuns := s.backtestRuns.filter fun r => ¬ Scoped user slug r })

/-- `logs_dir.glob(f"{slug}.{mark}*")` -/
def glob (mark : List Char) (files : FileTree) : List FilePath :=
  (files.items.map StoredFile.path).filter fun p =>
    p.folder = .logs user ∧ (slug.chars ++ '.' :: mark) <+: p.name

/-- `deal_{action}_` -/
def actionMark (action : DealAction) : List Char := BotSlugs.dealMark ++ (action.chars ++ ['_'])

/-- `candidates` -/
def candidates (files : FileTree) : List FilePath :=
  [BotFile.state, .stateLock, .sentinel .dealStart, .pid, .mlResults].map (BotFile.path user slug) ++
    glob user slug BotFile.logMark files ++
    [DealAction.edit, .close, .cancel].flatMap fun action => glob user slug (actionMark action) files

/-- The unlink loop. -/
def unlinkAll (fails : FilePath → Bool) : List FilePath → PurgeSummary × FileTree →
    PurgeSummary × FileTree
  | [], acc => acc
  | p :: rest, (summary, files) =>
    if (files.get? p).isSome then
      if fails p then
        unlinkAll fails rest ({ summary with filesFailed := summary.filesFailed ++ [p] }, files)
      else
        unlinkAll fails rest ({ summary with filesRemoved := summary.filesRemoved + 1 }, files.pop p)
    else unlinkAll fails rest (summary, files)

/-- `purge_bot` -/
def purgeBot (faults : PurgeFaults) (s : BotStore) : PurgeSummary × BotStore :=
  let rows := purgeRows user slug faults.db s
  let unlinked := unlinkAll faults.unlink (candidates user slug s.files).eraseDups (rows.1, s.files)
  (unlinked.1, { rows.2 with files := unlinked.2 })

end BotStore

/-! ### Whose file it is -/

/-- The path is one of the bot's. -/
def FilePath.Of (user : ℕ) (slug : BotSlug) (p : FilePath) : Prop :=
  (∃ rest, p = ⟨.logs user, slug.chars ++ '.' :: rest⟩) ∨
    (∃ rest, p = ⟨.pids user, slug.chars ++ '.' :: rest⟩) ∨
    (∃ rest, p = ⟨.bots user, slug.chars ++ '.' :: rest⟩) ∨
    ∃ rest, p = ⟨.ml user, ['r', 'e', 's', 'u', 'l', 't', 's', '_'] ++ (slug.chars ++ '.' :: rest)⟩

theorem BotFile.path_of (user : ℕ) (slug : BotSlug) (f : BotFile) : (f.path user slug).Of user slug := by
  cases f with
  | config => exact Or.inr (Or.inr (Or.inl ⟨_, rfl⟩))
  | state => exact Or.inl ⟨_, rfl⟩
  | stateTmp => exact Or.inl ⟨_, rfl⟩
  | stateLock => exact Or.inl ⟨_, rfl⟩
  | log rotation => exact Or.inl ⟨_, rfl⟩
  | sentinel request =>
    cases request with
    | deal action id => exact Or.inl ⟨_, rfl⟩
    | dealStart => exact Or.inl ⟨_, rfl⟩
  | pid => exact Or.inr (Or.inl ⟨_, rfl⟩)
  | mlResults => exact Or.inr (Or.inr (Or.inr ⟨_, rfl⟩))

theorem slug_eq_of_dot (slug slug' : BotSlug) (rest rest' : List Char)
    (h : slug.chars ++ '.' :: rest = slug'.chars ++ '.' :: rest') : slug = slug' :=
  BotSlug.ext (BotSlugs.before_dot _ _ _ _ (BotSlugs.slug_no_dot slug)
    (BotSlugs.slug_no_dot slug') h).1

/-- A path belongs to one bot only, also where one slug begins with the other. -/
theorem FilePath.of_unique (user user' : ℕ) (slug slug' : BotSlug) (p : FilePath)
    (h : p.Of user slug) (h' : p.Of user' slug') : user = user' ∧ slug = slug' := by
  rcases h with ⟨rest, rfl⟩ | ⟨rest, rfl⟩ | ⟨rest, rfl⟩ | ⟨rest, rfl⟩ <;>
    rcases h' with ⟨rest', h'⟩ | ⟨rest', h'⟩ | ⟨rest', h'⟩ | ⟨rest', h'⟩ <;>
    simp only [FilePath.mk.injEq, UserFolder.logs.injEq, UserFolder.pids.injEq,
      UserFolder.bots.injEq, UserFolder.ml.injEq, reduceCtorEq, false_and] at h'
  · exact ⟨h'.1, slug_eq_of_dot slug slug' rest rest' h'.2⟩
  · exact ⟨h'.1, slug_eq_of_dot slug slug' rest rest' h'.2⟩
  · exact ⟨h'.1, slug_eq_of_dot slug slug' rest rest' h'.2⟩
  · exact ⟨h'.1, slug_eq_of_dot slug slug' rest rest' (List.append_cancel_left h'.2)⟩

namespace BotStore

variable (user : ℕ) (slug : BotSlug)

theorem mem_glob (mark : List Char) (files : FileTree) (p : FilePath) :
    p ∈ glob user slug mark files ↔
      (files.get? p).isSome ∧ p.folder = .logs user ∧ (slug.chars ++ '.' :: mark) <+: p.name := by
  have hsome : (files.get? p).isSome ↔ p ∈ files.items.map StoredFile.path := by
    rw [← not_iff_not, Option.not_isSome_iff_eq_none, KeyedDict.get?_eq_none_iff]
  simp only [glob, List.mem_filter, decide_eq_true_eq, hsome]

/-- Every candidate is a path of the bot. -/
theorem candidates_of (files : FileTree) (p : FilePath) (h : p ∈ candidates user slug files) :
    p.Of user slug := by
  have hglob : ∀ mark, p ∈ glob user slug mark files → p.Of user slug := by
    intro mark hp
    obtain ⟨-, hfolder, rest, hname⟩ := (mem_glob user slug mark files p).mp hp
    refine Or.inl ⟨mark ++ rest, ?_⟩
    cases p
    cases hfolder
    cases hname
    simp
  simp only [candidates, List.mem_append, List.mem_map, List.mem_flatMap] at h
  rcases h with (⟨f, -, rfl⟩ | h) | ⟨action, -, h⟩
  · exact BotFile.path_of user slug f
  · exact hglob _ h
  · exact hglob _ h

/-- The runtime files a purge goes for: all but the temporary one. -/
theorem mem_candidates (files : FileTree) (f : BotFile) (hconfig : f ≠ .config)
    (htmp : f ≠ .stateTmp) (hsome : (files.get? (f.path user slug)).isSome) :
    f.path user slug ∈ candidates user slug files := by
  simp only [candidates, List.mem_append, List.mem_flatMap]
  cases f with
  | config => exact absurd rfl hconfig
  | stateTmp => exact absurd rfl htmp
  | state => exact Or.inl (Or.inl (by simp))
  | stateLock => exact Or.inl (Or.inl (by simp))
  | pid => exact Or.inl (Or.inl (by simp))
  | mlResults => exact Or.inl (Or.inl (by simp))
  | log rotation =>
    refine Or.inl (Or.inr ?_)
    rw [mem_glob]
    refine ⟨hsome, rfl, BotFile.rotationMark rotation, ?_⟩
    simp [BotFile.path]
  | sentinel request =>
    cases request with
    | dealStart => exact Or.inl (Or.inl (by simp))
    | deal action id =>
      refine Or.inr ⟨action, ?_, ?_⟩
      · cases action <;> simp
      · rw [mem_glob]
        refine ⟨hsome, rfl, id.chars, ?_⟩
        simp [BotFile.path, BotSlugs.sentinelFile, actionMark]

theorem tmp_notMem_candidates (files : FileTree) :
    BotFile.stateTmp.path user slug ∉ candidates user slug files := by
  have hglob : ∀ c mark, c ≠ 's' → BotFile.stateTmp.path user slug ∉
      glob user slug (c :: mark) files := by
    intro c mark hc hp
    obtain ⟨-, -, rest, hname⟩ := (mem_glob user slug _ files _).mp hp
    simp only [BotFile.path, List.append_assoc, List.cons_append] at hname
    have htail := List.append_cancel_left hname
    simp only [List.cons.injEq, true_and] at htail
    exact hc htail.1
  intro h
  simp only [candidates, List.mem_append, List.mem_map, List.mem_flatMap] at h
  rcases h with (⟨f, hf, hpath⟩ | h) | ⟨action, -, h⟩
  · simp only [List.mem_cons, List.not_mem_nil, or_false] at hf
    rcases hf with rfl | rfl | rfl | rfl | rfl
    · simp [BotFile.path] at hpath
    · simp [BotFile.path] at hpath
    · simp [BotFile.path, BotSlugs.sentinelFile, BotSlugs.triggerMark] at hpath
    · simp [BotFile.path] at hpath
    · simp [BotFile.path] at hpath
  · exact hglob 'l' _ (by decide) h
  · exact hglob 'd' _ (by decide) h

/-! ### The unlink loop -/

/-- The files after the loop: a candidate that could be unlinked is gone, all others are kept. -/
theorem get?_unlinkAll (fails : FilePath → Bool) (l : List FilePath) (summary : PurgeSummary)
    (files : FileTree) (p : FilePath) :
    (unlinkAll fails l (summary, files)).2.get? p =
      if p ∈ l ∧ fails p = false then none else files.get? p := by
  induction l generalizing summary files with
  | nil => simp [unlinkAll]
  | cons q rest ih =>
    have hne : q ≠ p → ((p ∈ q :: rest ∧ fails p = false) ↔ (p ∈ rest ∧ fails p = false)) := by
      intro hqp
      simp [List.mem_cons, Ne.symm hqp]
    rw [unlinkAll]
    by_cases hsome : (files.get? q).isSome = true
    · rw [if_pos hsome]
      cases hfails : fails q with
      | true =>
        rw [if_pos rfl, ih]
        by_cases hqp : q = p
        · subst hqp
          simp [hfails]
        · simp only [hne hqp]
      | false =>
        rw [if_neg Bool.false_ne_true, ih]
        by_cases hqp : q = p
        · subst hqp
          simp [hfails, KeyedDict.get?_pop_self]
        · simp only [hne hqp]
          rw [KeyedDict.get?_pop_of_ne files q p (Ne.symm hqp)]
    · rw [if_neg hsome, ih]
      by_cases hqp : q = p
      · subst hqp
        have hnone : files.get? q = none := by
          simpa using hsome
        simp [hnone]
      · simp only [hne hqp]

/-! ### What a purge is for -/

/-- No row of the bot is left, and the rows of all others are as before. -/
structure RowsPurged (before after : BotStore) : Prop where
  deals : ∀ d ∈ after.ledger.deals.items, ¬ d.OwnedBy (owner user slug)
  orders : ∀ r ∈ after.ledger.orders.items, ¬ r.OwnedBy (owner user slug)
  annotations : ∀ r ∈ after.chartAnnotations, ¬ Scoped user slug r
  backtests : ∀ r ∈ after.backtestRuns, ¬ Scoped user slug r
  otherDeals : after.ledger.othersDeals (owner user slug) = before.ledger.othersDeals (owner user slug)
  otherOrders :
    after.ledger.othersOrders (owner user slug) = before.ledger.othersOrders (owner user slug)
  otherAnnotations : (after.chartAnnotations.filter fun r => ¬ Scoped user slug r) =
    before.chartAnnotations.filter fun r => ¬ Scoped user slug r
  otherBacktests : (after.backtestRuns.filter fun r => ¬ Scoped user slug r) =
    before.backtestRuns.filter fun r => ¬ Scoped user slug r

/-- No runtime file of the bot is left, and the files of all others are as before. -/
structure FilesPurged (before after : BotStore) : Prop where
  files : ∀ f : BotFile, f ≠ .config → after.files.get? (f.path user slug) = none
  otherFiles : ∀ (user' : ℕ) (slug' : BotSlug) (f : BotFile), (user', slug') ≠ (user, slug) →
    after.files.get? (f.path user' slug') = before.files.get? (f.path user' slug')

theorem get?_purgeBot (faults : PurgeFaults) (s : BotStore) (p : FilePath) :
    (purgeBot user slug faults s).2.files.get? p =
      if p ∈ candidates user slug s.files ∧ faults.unlink p = false then none
      else s.files.get? p := by
  simp only [purgeBot]
  rw [get?_unlinkAll]
  simp only [List.mem_eraseDups]

/-- The files are purged exactly when there is no temporary state file and every other
runtime file can be unlinked. -/
theorem filesPurged_iff (faults : PurgeFaults) (s : BotStore) :
    FilesPurged user slug s (purgeBot user slug faults s).2 ↔
      ∀ f : BotFile, f ≠ .config → (s.files.get? (f.path user slug)).isSome →
        f ≠ .stateTmp ∧ faults.unlink (f.path user slug) = false := by
  constructor
  · intro h f hconfig hsome
    have hgone := h.files f hconfig
    rw [get?_purgeBot] at hgone
    by_cases hcand : f.path user slug ∈ candidates user slug s.files ∧
        faults.unlink (f.path user slug) = false
    · refine ⟨?_, hcand.2⟩
      rintro rfl
      exact tmp_notMem_candidates user slug s.files hcand.1
    · rw [if_neg hcand] at hgone
      rw [hgone] at hsome
      exact absurd hsome (by simp)
  · intro h
    refine ⟨?_, ?_⟩
    · intro f hconfig
      rw [get?_purgeBot]
      by_cases hsome : (s.files.get? (f.path user slug)).isSome = true
      · obtain ⟨htmp, hfails⟩ := h f hconfig hsome
        rw [if_pos ⟨mem_candidates user slug s.files f hconfig htmp hsome, hfails⟩]
      · have hnone : s.files.get? (f.path user slug) = none := by
          simpa using hsome
        rw [hnone, ite_self]
    · intro user' slug' f hother
      rw [get?_purgeBot, if_neg]
      rintro ⟨hcand, -⟩
      have hboth := FilePath.of_unique user' user slug' slug _ (BotFile.path_of user' slug' f)
        (candidates_of user slug s.files _ hcand)
      exact hother (Prod.ext hboth.1 hboth.2)

/-! ### The rows -/

theorem mem_ownDealIds (db : LedgerDb) (r : OrderRow) (h : r ∈ db.orders.items) :
    ∃ d ∈ db.deals.items, d.id = r.dealId ∧
      (r.dealId ∈ ownDealIds user slug db ↔ d.OwnedBy (owner user slug)) := by
  obtain ⟨d, hd, hid⟩ := List.mem_map.mp (db.orderDeal r h)
  refine ⟨d, hd, hid, ?_⟩
  simp only [ownDealIds, List.mem_map, List.mem_filter, decide_eq_true_eq]
  constructor
  · rintro ⟨e, ⟨he, hown⟩, heid⟩
    have heq : e = d := List.inj_on_of_nodup_map db.deals.nodup he hd (heid.trans hid.symm)
    exact heq ▸ hown
  · intro hown
    exact ⟨d, ⟨hd, hown⟩, hid⟩

/-- Once its orders are gone the deals of the bot can be deleted. -/
theorem deleteDeals_withoutOrders (db : LedgerDb) :
    ∃ db', (withoutOrders user slug db).deleteDeals (fun d => d.OwnedBy (owner user slug)) = .ok db' ∧
      db'.deals.items = db.deals.items.filter (fun d => !decide (d.OwnedBy (owner user slug))) ∧
      db'.orders.items = db.orders.items.filter
        fun r => !decide (r.dealId ∈ ownDealIds user slug db) := by
  have hrefs : ∀ r ∈ (withoutOrders user slug db).orders.items,
      r.dealId ∈ ((withoutOrders user slug db).deals.filter
        fun d => !decide (d.OwnedBy (owner user slug))).items.map DealRow.id := by
    intro r hr
    obtain ⟨hmem, hkept⟩ := List.mem_filter.mp hr
    obtain ⟨d, hd, hid, hown⟩ := mem_ownDealIds user slug db r hmem
    refine List.mem_map.mpr ⟨d, List.mem_filter.mpr ⟨hd, ?_⟩, hid⟩
    simpa [hown] using hkept
  exact ⟨_, dif_pos hrefs, rfl, rfl⟩

/-- Whose an order row is agrees with whose its deal is. -/
def OrdersUnderOwnDeals (db : LedgerDb) : Prop :=
  ∀ r ∈ db.orders.items, ∀ d ∈ db.deals.items, d.id = r.dealId →
    (r.OwnedBy (owner user slug) ↔ d.OwnedBy (owner user slug))

/-- The bot has no row. -/
structure NoRows (s : BotStore) : Prop where
  deals : ∀ d ∈ s.ledger.deals.items, ¬ d.OwnedBy (owner user slug)
  orders : ∀ r ∈ s.ledger.orders.items, ¬ r.OwnedBy (owner user slug)
  annotations : ∀ r ∈ s.chartAnnotations, ¬ Scoped user slug r
  backtests : ∀ r ∈ s.backtestRuns, ¬ Scoped user slug r

/-- The tables after a purge do not depend on the files. -/
theorem rowsPurged_files (s after : BotStore) (files : FileTree) :
    RowsPurged user slug s { after with files := files } ↔ RowsPurged user slug s after :=
  ⟨fun h => ⟨h.1, h.2, h.3, h.4, h.5, h.6, h.7, h.8⟩,
    fun h => ⟨h.1, h.2, h.3, h.4, h.5, h.6, h.7, h.8⟩⟩

/-- A failed database step is harmless only where there is nothing to delete. -/
theorem rowsPurged_self_iff (s : BotStore) : RowsPurged user slug s s ↔ NoRows user slug s :=
  ⟨fun h => ⟨h.deals, h.orders, h.annotations, h.backtests⟩,
    fun h => ⟨h.deals, h.orders, h.annotations, h.backtests, rfl, rfl, rfl, rfl⟩⟩

/-- The orders left are those of all others exactly when orders are under their own deals. -/
theorem orders_purged_iff (db db' : LedgerDb)
    (hdb' : db'.orders.items = db.orders.items.filter
      fun r => !decide (r.dealId ∈ ownDealIds user slug db)) :
    ((∀ r ∈ db'.orders.items, ¬ r.OwnedBy (owner user slug)) ∧
        db'.othersOrders (owner user slug) = db.othersOrders (owner user slug)) ↔
      OrdersUnderOwnDeals user slug db := by
  constructor
  · rintro ⟨hnone, hothers⟩ r hr d hd hid
    obtain ⟨e, he, heid, hown⟩ := mem_ownDealIds user slug db r hr
    have heq : e = d := List.inj_on_of_nodup_map db.deals.nodup he hd (heid.trans hid.symm)
    rw [heq] at hown
    rw [← hown]
    have hkept : r.dealId ∉ ownDealIds user slug db ↔ r ∈ db'.orders.items := by
      rw [hdb', List.mem_filter]
      simp [hr]
    constructor
    · intro hmine
      by_contra hforeign
      exact hnone r (hkept.mp hforeign) hmine
    · intro hdeleted
      by_contra hforeign
      have hmem : r ∈ db.othersOrders (owner user slug) :=
        List.mem_filter.mpr ⟨hr, by simpa using hforeign⟩
      rw [← hothers] at hmem
      exact hkept.mpr (List.mem_filter.mp hmem).1 hdeleted
  · intro h
    have howned : ∀ r ∈ db.orders.items,
        (r.dealId ∈ ownDealIds user slug db ↔ r.OwnedBy (owner user slug)) := by
      intro r hr
      obtain ⟨d, hd, hid, hown⟩ := mem_ownDealIds user slug db r hr
      exact hown.trans (h r hr d hd hid).symm
    have hfilter : db'.orders.items = db.othersOrders (owner user slug) := by
      rw [hdb', LedgerDb.othersOrders]
      refine List.filter_congr fun r hr => ?_
      simp only [howned r hr, decide_not]
    refine ⟨?_, ?_⟩
    · intro r hr
      rw [hfilter] at hr
      simpa using (List.mem_filter.mp hr).2
    · rw [LedgerDb.othersOrders, hfilter, LedgerDb.othersOrders, List.filter_filter]
      simp only [Bool.and_self]

theorem filter_others {α : Type} (p : α → Prop) [DecidablePred p] (l : List α) :
    (∀ x ∈ l.filter fun x => ¬ p x, ¬ p x) ∧
      ((l.filter fun x => ¬ p x).filter fun x => ¬ p x) = l.filter fun x => ¬ p x := by
  refine ⟨?_, ?_⟩
  · intro x hx
    simpa using (List.mem_filter.mp hx).2
  · rw [List.filter_filter]
    simp only [Bool.and_self]

/-- The rows are purged exactly when the database step goes through and every order row
stands under a deal of its own bot, or the step fails and the bot has no row. -/
theorem rowsPurged_iff (faults : PurgeFaults) (s : BotStore) :
    RowsPurged user slug s (purgeBot user slug faults s).2 ↔
      (faults.db = none ∧ OrdersUnderOwnDeals user slug s.ledger) ∨
        (faults.db ≠ none ∧ NoRows user slug s) := by
  simp only [purgeBot]
  rw [rowsPurged_files]
  cases hdb : faults.db with
  | some fault =>
    simp only [purgeRows, reduceCtorEq, false_and, false_or, ne_eq, not_false_eq_true, true_and]
    exact rowsPurged_self_iff user slug s
  | none =>
    obtain ⟨db', hdelete, hdeals, horders⟩ := deleteDeals_withoutOrders user slug s.ledger
    simp only [purgeRows, hdelete, true_and, ne_eq, not_true_eq_false, false_and, or_false]
    rw [← orders_purged_iff user slug s.ledger db' horders]
    have hkept := filter_others (fun d : DealRow => d.OwnedBy (owner user slug)) s.ledger.deals.items
    have hannotations := filter_others (Scoped user slug) s.chartAnnotations
    have hbacktests := filter_others (Scoped user slug) s.backtestRuns
    have hdeals' : db'.deals.items = s.ledger.othersDeals (owner user slug) := by
      rw [hdeals, LedgerDb.othersDeals]
      simp only [decide_not]
    constructor
    · intro h
      exact ⟨h.orders, h.otherOrders⟩
    · intro h
      refine ⟨?_, h.1, hannotations.1, hbacktests.1, ?_, h.2, hannotations.2, hbacktests.2⟩
      · show ∀ d ∈ db'.deals.items, _
        rw [hdeals']
        exact hkept.1
      · show db'.othersDeals _ = _
        rw [LedgerDb.othersDeals, hdeals', LedgerDb.othersDeals]
        exact hkept.2

/-- A purge leaves nothing of the bot and everything of all others. -/
structure Purged (before after : BotStore) : Prop where
  rows : RowsPurged user slug before after
  files : FilesPurged user slug before after

/-- What a purge needs of the store and of the faults it meets. -/
structure Purgeable (faults : PurgeFaults) (s : BotStore) : Prop where
  rows : (faults.db = none ∧ OrdersUnderOwnDeals user slug s.ledger) ∨
    (faults.db ≠ none ∧ NoRows user slug s)
  files : ∀ f : BotFile, f ≠ .config → (s.files.get? (f.path user slug)).isSome →
    f ≠ .stateTmp ∧ faults.unlink (f.path user slug) = false

theorem purged_iff (faults : PurgeFaults) (s : BotStore) :
    Purged user slug s (purgeBot user slug faults s).2 ↔ Purgeable user slug faults s :=
  ⟨fun h => ⟨(rowsPurged_iff user slug faults s).mp h.rows,
      (filesPurged_iff user slug faults s).mp h.files⟩,
    fun h => ⟨(rowsPurged_iff user slug faults s).mpr h.rows,
      (filesPurged_iff user slug faults s).mpr h.files⟩⟩

/-- The slug of a bot. -/
def alpha : BotSlug := ⟨['a', 'l', 'p', 'h', 'a'], by decide, by decide⟩

/-- The engine was killed between writing the temporary state file and renaming it. -/
def killedInWrite : BotStore where
  ledger := ⟨[1], KeyedDict.empty, KeyedDict.empty, by simp, by simp, by simp⟩
  chartAnnotations := []
  backtestRuns := []
  files := KeyedDict.ofList
    [⟨BotFile.state.path 1 alpha, "state"⟩, ⟨BotFile.stateTmp.path 1 alpha, "next state"⟩]

theorem not_purged_killedInWrite :
    ¬ ∀ (user : ℕ) (slug : BotSlug) (s : BotStore),
      Purged user slug s (purgeBot user slug ⟨none, fun _ => false⟩ s).2 := by
  intro h
  have hgone := (h 1 alpha killedInWrite).files.files .stateTmp (by decide)
  revert hgone
  decide +kernel

end BotStore

end Reverto
