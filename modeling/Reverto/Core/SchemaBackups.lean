import Mathlib.Tactic
import Reverto.Core.SchemaBoots
import Reverto.Lib.Machine

/-!
# Backups before a destructive upgrade (core/database.py)

An installation over its life: starts of processes, each cut anywhere or complete,
and writes of the application between them. The rows of the owned tables that a
start drops are in a backup file from then on.
-/

namespace Reverto

namespace Database

/-! ### What a start keeps of the owned tables -/

/-- The rows of a table. -/
def rowsOf (db : Database) (name : String) : List (List SqlValue) :=
  ((db.tables.get? name).map Table.rows).getD []

/-- Every row of an owned table is there, perhaps with the values of new columns. -/
def RowsKept (db db' : Database) : Prop :=
  ∀ n ∈ ownedTables, ∀ r ∈ rowsOf db n, ∃ q ∈ rowsOf db' n, r <+: q

theorem RowsKept.refl (db : Database) : RowsKept db db :=
  fun _ _ r hr => ⟨r, hr, List.prefix_rfl⟩

theorem RowsKept.trans (db db' db'' : Database) (h : RowsKept db db') (h' : RowsKept db' db'') :
    RowsKept db db'' := by
  intro n hn r hr
  obtain ⟨q, hq, hrq⟩ := h n hn r hr
  obtain ⟨p, hp, hqp⟩ := h' n hn q hq
  exact ⟨p, hp, hrq.trans hqp⟩

theorem traceRel_rowsKept : Program.TraceRel (Resume.Along DbEvent.land RowsKept) :=
  Resume.traceRel_along DbEvent.land RowsKept RowsKept.refl RowsKept.trans

/-- A table of the owned ones that an update leaves with all its rows. -/
theorem rowsKept_of_tables (db db' : Database)
    (h : ∀ n ∈ ownedTables, ∀ t, db.tables.get? n = some t →
      ∃ t', db'.tables.get? n = some t' ∧ ∀ r ∈ t.rows, ∃ q ∈ t'.rows, r <+: q) :
    RowsKept db db' := by
  intro n hn r hr
  cases ht : db.tables.get? n with
  | none =>
    rw [rowsOf, ht] at hr
    exact absurd hr List.not_mem_nil
  | some t =>
    rw [rowsOf, ht] at hr
    obtain ⟨t', ht', hall⟩ := h n hn t ht
    rw [rowsOf, ht']
    exact hall r hr

theorem along_autocommit (m : DbM Unit) (hquiet : ∀ db, (m db).log = [])
    (h : ∀ db, RowsKept db (m db).state) :
    Program.Respects (Resume.Along DbEvent.land RowsKept) (autocommit m) := by
  refine Program.respects_bind traceRel_rowsKept _ _ (fun db => ?_) fun _ => ?_
  · rw [hquiet]
    exact ⟨h db, fun _ hw => absurd hw List.not_mem_nil⟩
  · refine Program.respects_get_bind _ fun db => ⟨RowsKept.refl db, fun w hw t ht => ?_⟩
    change w ∈ [DbEvent.landed db] at hw
    rw [List.mem_singleton.mp hw] at ht
    cases ht
    exact RowsKept.refl db

theorem rowsKept_dropExchange (db : Database) :
    RowsKept db (dropTable "exchange_accounts" db).state := by
  rw [dropTable, Program.get_bind_run]
  split
  · exact RowsKept.refl db
  · split
    · exact RowsKept.refl db
    · refine rowsKept_of_tables _ _ fun n hn t ht => ⟨t, ?_, fun r hr => ⟨r, hr, List.prefix_rfl⟩⟩
      have hname := (KeyedDict.get?_mem _ _ _ ht).2
      have hother : ∀ n ∈ ownedTables, n ≠ "exchange_accounts" ∧
          n ∉ cascading "exchange_accounts" := by decide
      have hfree : t.name ∉ cascading "exchange_accounts" := by
        rw [hname]
        exact (hother n hn).2
      change ((db.tables.mapValues (cascade "exchange_accounts")
        (cascade_name "exchange_accounts")).pop "exchange_accounts").get? n = some t
      rw [KeyedDict.get?_pop_of_ne _ _ _ (hother n hn).1, KeyedDict.get?_mapValues, ht,
        Option.map_some, cascade, if_neg hfree]

theorem rowsKept_addColumn (cv : Column × SqlValue) (db : Database) :
    RowsKept db (setTables (db.tables.mapValues (addColumnIfMissing "users" cv.1 cv.2)
      (addColumnIfMissing_name "users" cv.1 cv.2)) db) := by
  refine rowsKept_of_tables _ _ fun n _ t ht => ⟨addColumnIfMissing "users" cv.1 cv.2 t, ?_, ?_⟩
  · change (db.tables.mapValues (addColumnIfMissing "users" cv.1 cv.2)
      (addColumnIfMissing_name "users" cv.1 cv.2)).get? n = _
    rw [KeyedDict.get?_mapValues, ht]
    rfl
  · intro r hr
    unfold addColumnIfMissing
    split
    · split
      · exact ⟨r, hr, List.prefix_rfl⟩
      · exact ⟨r ++ [cv.2], List.mem_map_of_mem hr, List.prefix_append r _⟩
    · exact ⟨r, hr, List.prefix_rfl⟩

theorem along_additions :
    Program.Respects (Resume.Along DbEvent.land RowsKept) applyColumnAdditions :=
  Program.respects_forEach traceRel_rowsKept _ _ fun cv _ =>
    along_autocommit _ (fun _ => rfl) (rowsKept_addColumn cv)

theorem along_recreates (env : BootEnv) (version : ℤ) :
    Program.Respects (Resume.Along DbEvent.land RowsKept)
      (applyDestructiveTableRecreates env version) := by
  have hR := traceRel_rowsKept
  have hunlink : ∀ a, Program.Respects (Resume.Along DbEvent.land RowsKept) (unlinkBlob env a) := by
    intro a
    unfold unlinkBlob
    refine Program.respects_ite _ _ _ (Program.respects_raise hR _) ?_
    refine Program.respects_ite _ _ _ (Program.respects_raise hR _) ?_
    refine Program.respects_ite _ _ _ (Program.respects_pure hR _) ?_
    exact along_autocommit _ (fun _ => rfl) fun db => RowsKept.refl db
  unfold applyDestructiveTableRecreates
  split
  · refine Program.respects_get_bind _ fun db => ?_
    cases db.tables.get? "exchange_accounts" with
    | none => exact Program.respects_pure hR () db
    | some t =>
      dsimp only
      split
      · refine Program.respects_bind hR _ _ ?_ (fun _ => ?_) db
        · exact Program.respects_forEach hR _ _ fun a _ => hunlink a
        · exact along_autocommit _ (dropTable_quiet "exchange_accounts") rowsKept_dropExchange
      · exact Program.respects_pure hR () db
  · exact Program.respects_pure hR ()

theorem rowsKept_execute (now : String) (s : SchemaStatement) (db : Database) :
    RowsKept db (execute now s db).state := by
  cases s with
  | createTable n columns =>
    have hrun : (execute now (.createTable n columns) db).state =
        if (db.tables.get? n).isSome then db
        else setTables (db.tables.set (Table.empty n columns)) db := rfl
    rw [hrun]
    split
    · exact RowsKept.refl db
    · rename_i hnone
      refine rowsKept_of_tables _ _ fun k _ t ht => ⟨t, ?_, fun r hr => ⟨r, hr, List.prefix_rfl⟩⟩
      change (db.tables.set (Table.empty n columns)).get? k = some t
      rw [get?_set_empty, if_neg, ht]
      rintro rfl
      rw [ht] at hnone
      exact hnone rfl
  | createIndex table columns =>
    have hstate : (execute now (.createIndex table columns) db).state = db :=
      (requireColumns_run table columns db).2
    rw [hstate]
    exact RowsKept.refl db
  | seedAdmin =>
    have hstate := (requireColumns_run "users" ["id", "username", "role"] db).2
    rw [execute]
    cases hr : (requireColumns "users" ["id", "username", "role"] db).result with
    | error e =>
      rw [Program.bind_error _ _ db e hr, hstate]
      exact RowsKept.refl db
    | ok b =>
      rw [Program.bind_ok _ _ db b hr, hstate]
      refine rowsKept_of_tables _ _ fun n _ t ht => ?_
      change ∃ t', (db.tables.modify "users" (seedAdmin now) (seedAdmin_name now)).get? n =
        some t' ∧ _
      by_cases hname : n = "users"
      · refine ⟨seedAdmin now t, ?_, fun r hr => ⟨r, ?_, List.prefix_rfl⟩⟩
        · rw [hname, KeyedDict.get?_modify_self, ← hname, ht]
          rfl
        · unfold seedAdmin
          split
          · exact hr
          · exact List.mem_append_left _ hr
      · refine ⟨t, ?_, fun r hr => ⟨r, hr, List.prefix_rfl⟩⟩
        rw [KeyedDict.get?_modify_of_ne _ _ _ _ _ hname, ht]

theorem rowsKept_statements (now : String) (l : List SchemaStatement) (db : Database) :
    RowsKept db (Program.forEach (execute now) l db).state := by
  have hR : Program.TraceRel fun (s : Database) (_ : List DbEvent) (s' : Database) =>
      RowsKept s s' := ⟨RowsKept.refl, fun s _ t _ u h h' => RowsKept.trans s t u h h'⟩
  exact Program.respects_forEach hR (execute now) l (fun s _ db => rowsKept_execute now s db) db

theorem along_commit (now : String) :
    Program.Respects (Resume.Along DbEvent.land RowsKept) (commitDb now) := by
  intro db
  unfold commitDb transact
  cases (Program.forEach (execute now) laterStatements db).result with
  | error e => exact ⟨RowsKept.refl db, fun _ hw => absurd hw List.not_mem_nil⟩
  | ok a =>
    have hkept := rowsKept_statements now laterStatements db
    refine ⟨hkept, fun w hw t ht => ?_⟩
    rw [List.mem_singleton.mp hw] at ht
    cases ht
    exact hkept

/-- The loop over `_SCHEMA_STATEMENTS`. -/
def finishDb (env : BootEnv) : DbM Unit := do
  autocommit (execute env.now (.createTable "users" usersColumns))
  commitDb env.now

theorem along_finish (env : BootEnv) :
    Program.Respects (Resume.Along DbEvent.land RowsKept) (finishDb env) :=
  Program.respects_bind traceRel_rowsKept _ _
    (along_autocommit _ (fun _ => rfl) (rowsKept_execute env.now _)) fun _ => along_commit env.now

theorem initDb_finish (env : BootEnv) :
    initDb env = migrateSchema env >>= fun _ => finishDb env := by
  simp only [initDb_eq, prepareDb, finishDb, Program.bind_assoc]

/-- From version 4 on, no start takes a row from an owned table, wherever it is cut. -/
theorem along_initDb (env : BootEnv) (db : Database)
    (hv : lastDestructiveVersion ≤ db.userVersion) :
    Resume.Along DbEvent.land RowsKept db (initDb env db).log (initDb env db).state := by
  have hR := traceRel_rowsKept
  have hmigrate : Resume.Along DbEvent.land RowsKept db (migrateSchema env db).log
      (migrateSchema env db).state := by
    by_cases hrefused : db.userVersion < 0 ∨ schemaVersion < db.userVersion
    · obtain ⟨e, he⟩ := migrateSchema_refused env db hrefused
      rw [he]
      exact hR.nil db
    have hmin : 0 ≤ db.userVersion := not_lt.mp (not_or.mp hrefused).1
    rcases eq_or_lt_of_le (not_lt.mp (not_or.mp hrefused).2) with hcurrent | hold
    · rw [migrateSchema_current env db hcurrent]
      exact hR.nil db
    · rw [migrateSchema_old env db hmin hold]
      refine Program.respects_bind hR _ _ ?_ (fun _ => ?_) db
      · refine Program.respects_bind hR _ _ ?_ fun _ => ?_
        · rw [destructivePath, if_neg (not_lt.mpr hv)]
          exact Program.respects_pure hR ()
        · exact Program.respects_bind hR _ _ along_additions fun _ =>
            along_recreates env db.userVersion
      · exact along_autocommit _ (fun _ => rfl) fun db => RowsKept.refl db
  rw [initDb_finish]
  cases hr : (migrateSchema env db).result with
  | error e =>
    rw [Program.bind_error _ _ db e hr]
    exact hmigrate
  | ok a =>
    rw [Program.bind_ok _ _ db a hr]
    exact hR.append _ _ _ _ _ hmigrate (along_finish env _)

/-! ### The events of a start -/

def Landing (w : DbEvent) : Prop := ∃ db, w = .landed db

theorem landing_autocommit (m : DbM Unit) (hquiet : ∀ db, (m db).log = []) :
    Program.Respects (fun (_ : Database) (l : List DbEvent) (_ : Database) => ∀ w ∈ l, Landing w)
      (autocommit m) := by
  refine Program.respects_bind (Program.traceRel_forall Landing) _ _ (fun db => ?_) fun _ => ?_
  · rw [hquiet]
    exact fun _ hw => absurd hw List.not_mem_nil
  · refine Program.respects_get_bind _ fun db w hw => ⟨db, ?_⟩
    exact List.mem_singleton.mp hw

theorem landing_recreates (env : BootEnv) (version : ℤ) :
    Program.Respects (fun (_ : Database) (l : List DbEvent) (_ : Database) => ∀ w ∈ l, Landing w)
      (applyDestructiveTableRecreates env version) := by
  have hR := Program.traceRel_forall (σ := Database) Landing
  have hunlink : ∀ a, Program.Respects
      (fun (_ : Database) (l : List DbEvent) (_ : Database) => ∀ w ∈ l, Landing w)
      (unlinkBlob env a) := by
    intro a
    unfold unlinkBlob
    refine Program.respects_ite _ _ _ (Program.respects_raise hR _) ?_
    refine Program.respects_ite _ _ _ (Program.respects_raise hR _) ?_
    refine Program.respects_ite _ _ _ (Program.respects_pure hR _) ?_
    exact landing_autocommit _ fun _ => rfl
  unfold applyDestructiveTableRecreates
  split
  · refine Program.respects_get_bind _ fun db => ?_
    cases db.tables.get? "exchange_accounts" with
    | none => exact Program.respects_pure hR () db
    | some t =>
      dsimp only
      split
      · refine Program.respects_bind hR _ _ ?_ (fun _ => ?_) db
        · exact Program.respects_forEach hR _ _ fun a _ => hunlink a
        · exact landing_autocommit _ (dropTable_quiet "exchange_accounts")
      · exact Program.respects_pure hR () db
  · exact Program.respects_pure hR ()

theorem landing_additions :
    Program.Respects (fun (_ : Database) (l : List DbEvent) (_ : Database) => ∀ w ∈ l, Landing w)
      applyColumnAdditions :=
  Program.respects_forEach (Program.traceRel_forall (σ := Database) Landing) _ _ fun _ _ =>
    landing_autocommit _ fun _ => rfl

theorem landing_commit (now : String) :
    Program.Respects (fun (_ : Database) (l : List DbEvent) (_ : Database) => ∀ w ∈ l, Landing w)
      (commitDb now) := by
  intro db
  unfold commitDb transact
  cases (Program.forEach (execute now) laterStatements db).result with
  | error e => exact fun _ hw => absurd hw List.not_mem_nil
  | ok a => exact fun w hw => ⟨_, List.mem_singleton.mp hw⟩

/-- The column additions and what follows them. -/
def afterDrops (env : BootEnv) (version : ℤ) : DbM Unit := do
  applyColumnAdditions
  applyDestructiveTableRecreates env version
  autocommit (Program.modify setVersion)
  finishDb env

theorem landing_afterDrops (env : BootEnv) (version : ℤ) :
    Program.Respects (fun (_ : Database) (l : List DbEvent) (_ : Database) => ∀ w ∈ l, Landing w)
      (afterDrops env version) := by
  have hR := Program.traceRel_forall (σ := Database) Landing
  refine Program.respects_bind hR _ _ landing_additions fun _ => ?_
  refine Program.respects_bind hR _ _ (landing_recreates env version) fun _ => ?_
  refine Program.respects_bind hR _ _ (landing_autocommit _ fun _ => rfl) fun _ => ?_
  refine Program.respects_bind hR _ _ (landing_autocommit _ fun _ => rfl) fun _ => ?_
  exact landing_commit env.now

/-- The backup of `env`'s second. -/
def backupName (env : BootEnv) : String := "pre-migration-backup-" ++ env.timestamp ++ ".db"

/-- A destructive start backs up first and only with consent; every other start from
below version 4 has no row of an owned table to lose. -/
theorem destructive_log (env : BootEnv) (db : Database)
    (hmin : 0 ≤ db.userVersion) (hv : db.userVersion < lastDestructiveVersion) :
    ((initDb env db).log = [] ∨ (∀ w ∈ (initDb env db).log, Landing w) ∧
        hasExistingOwnedData db = false) ∨
      env.optIn = true ∧ ∃ l, (∀ w ∈ l, Landing w) ∧ (initDb env db).log =
        .backupStarted (backupName env) :: .backupDone (backupName env) db :: l := by
  have hR := Program.traceRel_forall (σ := Database) Landing
  have hrun : initDb env db = (destructiveGuard env db.userVersion >>= fun _ => do
      Program.forEach (fun table => autocommit (dropTable table)) ownedTables
      afterDrops env db.userVersion) db := by
    have hmigrate := migrateSchema_old env db hmin (hv.trans (by decide))
    have hinit : initDb env db = ((upgradeBody db.userVersion env >>= fun _ =>
        autocommit (Program.modify setVersion)) >>= fun _ => finishDb env) db := by
      rw [initDb_finish, Program.bind_run, Program.bind_run _ (fun _ => finishDb env), hmigrate]
    rw [hinit]
    simp only [upgradeBody, destructivePath, if_pos hv, Program.bind_assoc]
    rfl
  have hrest : ∀ t, ∀ w ∈ ((do
      Program.forEach (fun table => autocommit (dropTable table)) ownedTables
      afterDrops env db.userVersion : DbM Unit) t).log, Landing w := by
    refine Program.respects_bind hR _ _ ?_ fun _ => landing_afterDrops env db.userVersion
    exact Program.respects_forEach hR _ _ fun n _ => landing_autocommit _ (dropTable_quiet n)
  have hguard : destructiveGuard env db.userVersion db =
      if hasExistingOwnedData db then
        if env.optIn then ⟨.ok (), [.backupStarted (backupName env),
          .backupDone (backupName env) db], db⟩
        else ⟨.error (.destructive db.userVersion), [], db⟩
      else ⟨.ok (), [], db⟩ := by
    rw [destructiveGuard, Program.get_bind_run]
    split
    · split
      · rfl
      · rfl
    · rfl
  rw [hrun]
  cases hdata : hasExistingOwnedData db with
  | false =>
    rw [hdata] at hguard
    refine Or.inl (Or.inr ⟨?_, rfl⟩)
    rw [Program.bind_ok _ _ db () (by rw [hguard]; rfl), hguard]
    exact hrest db
  | true =>
    rw [hdata] at hguard
    cases hopt : env.optIn with
    | false =>
      rw [hopt] at hguard
      rw [Program.bind_error _ _ db (.destructive db.userVersion) (by rw [hguard]; rfl), hguard]
      exact Or.inl (Or.inl rfl)
    | true =>
      rw [hopt] at hguard
      rw [Program.bind_ok _ _ db () (by rw [hguard]; rfl), hguard]
      exact Or.inr ⟨rfl, _, hrest db, rfl⟩

/-- From version 4 on a start makes no backup. -/
theorem additive_log (env : BootEnv) (db : Database)
    (hv : lastDestructiveVersion ≤ db.userVersion) : ∀ w ∈ (initDb env db).log, Landing w := by
  have hR := Program.traceRel_forall (σ := Database) Landing
  have hfinish : ∀ t, ∀ w ∈ (finishDb env t).log, Landing w := by
    refine Program.respects_bind hR _ _ (landing_autocommit _ fun _ => rfl) fun _ => ?_
    exact landing_commit env.now
  have hmigrate : ∀ w ∈ (migrateSchema env db).log, Landing w := by
    by_cases hrefused : db.userVersion < 0 ∨ schemaVersion < db.userVersion
    · obtain ⟨e, he⟩ := migrateSchema_refused env db hrefused
      rw [he]
      exact fun _ hw => absurd hw List.not_mem_nil
    have hmin : 0 ≤ db.userVersion := not_lt.mp (not_or.mp hrefused).1
    rcases eq_or_lt_of_le (not_lt.mp (not_or.mp hrefused).2) with hcurrent | hold
    · rw [migrateSchema_current env db hcurrent]
      exact fun _ hw => absurd hw List.not_mem_nil
    · rw [migrateSchema_old env db hmin hold]
      refine Program.respects_bind hR _ _ ?_ (fun _ => landing_autocommit _ fun _ => rfl) db
      refine Program.respects_bind hR _ _ ?_ fun _ => ?_
      · rw [destructivePath, if_neg (not_lt.mpr hv)]
        exact Program.respects_pure hR ()
      · exact Program.respects_bind hR _ _ landing_additions fun _ =>
          landing_recreates env db.userVersion
  rw [initDb_finish]
  cases hr : (migrateSchema env db).result with
  | error e =>
    rw [Program.bind_error _ _ db e hr]
    exact hmigrate
  | ok a =>
    rw [Program.bind_ok _ _ db a hr]
    exact hR.append db _ db _ db hmigrate (hfinish _)

/-! ### Installations -/

/-- A backup file; a partial one has no content that can be restored. -/
structure Backup where
  name : String
  content : Option Database

/-- The database, the backup files, and the rows that starts have taken from owned tables. -/
structure Install where
  db : Database
  backups : KeyedDict Backup.name
  lost : List (String × List SqlValue)

/-- A start of a process that is cut after some events (after all of them where there are
no more), or a write of the application that leaves a table with these rows. -/
inductive InstallStep where
  | boot (env : BootEnv) (cut : ℕ)
  | write (name : String) (rows : List (List SqlValue))

/-- The rows of owned tables that are in the first database and not in the second. -/
def lostRows (db db' : Database) : List (String × List SqlValue) :=
  ownedTables.flatMap fun n =>
    ((rowsOf db n).filter fun r => !(rowsOf db' n).any fun q => r.isPrefixOf q).map fun r => (n, r)

/-- The backup files after an event. -/
def fileEvent (backups : KeyedDict Backup.name) : DbEvent → KeyedDict Backup.name
  | .landed _ => backups
  | .backupStarted name => backups.set ⟨name, none⟩
  | .backupDone name db => backups.set ⟨name, some db⟩

theorem aligned_filter (columns : List Column) (rows : List (List SqlValue)) :
    ∀ r ∈ rows.filter (fun r => r.length = columns.length), r.length = columns.length := by
  intro r hr
  exact of_decide_eq_true (List.mem_filter.mp hr).2

/-- The table with other rows; a row of another width cannot be stored. -/
def Table.setRows (t : Table) (rows : List (List SqlValue)) : Table :=
  ⟨t.name, t.columns, rows.filter fun r => r.length = t.columns.length, aligned_filter t.columns rows⟩

theorem setRows_name (rows : List (List SqlValue)) (t : Table) : (t.setRows rows).name = t.name := rfl

/-- What happens of a start that is cut. -/
def bootEvents (env : BootEnv) (cut : ℕ) (db : Database) : List DbEvent :=
  (initDb env db).log.take cut

def bootedDb (env : BootEnv) (cut : ℕ) (db : Database) : Database :=
  Resume.lastLanded DbEvent.land db (bootEvents env cut db)

def bootedFiles (env : BootEnv) (cut : ℕ) (w : Install) : KeyedDict Backup.name :=
  (bootEvents env cut w.db).foldl fileEvent w.backups

def installStep (w : Install) : InstallStep → Option Install
  | .boot env cut =>
    some ⟨bootedDb env cut w.db, bootedFiles env cut w,
      w.lost ++ lostRows w.db (bootedDb env cut w.db)⟩
  | .write name rows =>
    some { w with
      db := setTables (w.db.tables.modify name (Table.setRows · rows) (setRows_name rows)) w.db }

/-- No two backups are made in one second. -/
def FreshSecond (w : Install) : InstallStep → Prop
  | .boot env _ => w.backups.get? (backupName env) = none
  | .write _ _ => True

/-- Every row a start has taken is in a backup that can be restored. -/
def BackedUp (w : Install) : Prop :=
  ∀ x ∈ w.lost, ∃ b t, w.backups.get? b = some ⟨b, some t⟩ ∧ x.2 ∈ rowsOf t x.1

theorem mem_lostRows (db db' : Database) (x : String × List SqlValue) (h : x ∈ lostRows db db') :
    x.1 ∈ ownedTables ∧ x.2 ∈ rowsOf db x.1 ∧ ¬ ∃ q ∈ rowsOf db' x.1, x.2 <+: q := by
  obtain ⟨n, hn, hx⟩ := List.mem_flatMap.mp h
  obtain ⟨r, hr, rfl⟩ := List.mem_map.mp hx
  obtain ⟨hmem, hgone⟩ := List.mem_filter.mp hr
  refine ⟨hn, hmem, ?_⟩
  rintro ⟨q, hq, hprefix⟩
  have hthere : (rowsOf db' n).any (fun q => r.isPrefixOf q) = true :=
    List.any_eq_true.mpr ⟨q, hq, List.isPrefixOf_iff_prefix.mpr hprefix⟩
  rw [hthere] at hgone
  cases hgone

theorem lostRows_of_kept (db db' : Database) (h : RowsKept db db') : lostRows db db' = [] := by
  refine List.eq_nil_iff_forall_not_mem.mpr fun x hx => ?_
  obtain ⟨hn, hr, hgone⟩ := mem_lostRows db db' x hx
  exact hgone (h x.1 hn x.2 hr)

theorem files_landing (l : List DbEvent) (h : ∀ w ∈ l, Landing w)
    (backups : KeyedDict Backup.name) : l.foldl fileEvent backups = backups := by
  induction l generalizing backups with
  | nil => rfl
  | cons w l ih =>
    obtain ⟨db, rfl⟩ := h w List.mem_cons_self
    exact ih (fun v hv => h v (List.mem_cons_of_mem _ hv)) backups

theorem bootedDb_nil (env : BootEnv) (cut : ℕ) (db : Database)
    (h : ∀ w ∈ bootEvents env cut db, DbEvent.land w = none) : bootedDb env cut db = db := by
  rcases Resume.lastLanded_mem DbEvent.land db (bootEvents env cut db) with hsame | ⟨w, hw, hland⟩
  · exact hsame
  · rw [h w hw] at hland
    cases hland

/-- Outside the destructive versions a start keeps the rows and makes no backup. -/
theorem boot_additive (env : BootEnv) (cut : ℕ) (w : Install)
    (h : ¬ (0 ≤ w.db.userVersion ∧ w.db.userVersion < lastDestructiveVersion)) :
    lostRows w.db (bootedDb env cut w.db) = [] ∧ bootedFiles env cut w = w.backups := by
  have hshape : RowsKept w.db (bootedDb env cut w.db) ∧
      ∀ e ∈ (initDb env w.db).log, Landing e := by
    by_cases hv : lastDestructiveVersion ≤ w.db.userVersion
    · refine ⟨?_, additive_log env w.db hv⟩
      rcases Resume.lastLanded_mem DbEvent.land w.db (bootEvents env cut w.db) with
        hsame | ⟨e, he, hland⟩
      · rw [bootedDb, hsame]
        exact RowsKept.refl w.db
      · exact (along_initDb env w.db hv).2 e (List.mem_of_mem_take he) _ hland
    · have hneg : w.db.userVersion < 0 := not_le.mp fun hmin => h ⟨hmin, not_le.mp hv⟩
      obtain ⟨e, he⟩ := migrateSchema_refused env w.db (Or.inl hneg)
      have hnil : (initDb env w.db).log = [] := by
        rw [initDb_finish, Program.bind_error _ _ w.db e (by rw [he]), he]
      have hsame := bootedDb_nil env cut w.db fun e he => by
        rw [bootEvents, hnil, List.take_nil] at he
        exact absurd he List.not_mem_nil
      rw [hsame, hnil]
      exact ⟨RowsKept.refl w.db, fun _ he => absurd he List.not_mem_nil⟩
  refine ⟨lostRows_of_kept _ _ hshape.1, ?_⟩
  exact files_landing _ (fun e he => hshape.2 e (List.mem_of_mem_take he)) w.backups

/-- A start without consent, or with nothing to lose, takes no row and makes no backup. -/
theorem lostRows_noData (db db' : Database) (h : hasExistingOwnedData db = false) :
    lostRows db db' = [] := by
  refine List.eq_nil_iff_forall_not_mem.mpr fun x hx => ?_
  obtain ⟨hn, hr, _⟩ := mem_lostRows db db' x hx
  have hempty := List.any_eq_false.mp h x.1 hn
  unfold hasRows at hempty
  unfold rowsOf at hr
  cases ht : db.tables.get? x.1 with
  | none =>
    rw [ht] at hr
    exact absurd hr List.not_mem_nil
  | some t =>
    rw [ht] at hr hempty
    have hrows : t.rows = [] := by simpa using hempty
    rw [Option.map_some, Option.getD_some, hrows] at hr
    exact absurd hr List.not_mem_nil

/-- A start takes no row of an owned table, and makes or begins no backup but its own; or
it had consent and its backup is whole. -/
theorem boot_cases (env : BootEnv) (cut : ℕ) (w : Install) :
    lostRows w.db (bootedDb env cut w.db) = [] ∧ (bootedFiles env cut w = w.backups ∨
        bootedFiles env cut w = w.backups.set ⟨backupName env, none⟩) ∨
      env.optIn = true ∧ bootedFiles env cut w =
        (w.backups.set ⟨backupName env, none⟩).set ⟨backupName env, some w.db⟩ := by
  have hsame : lostRows w.db w.db = [] := lostRows_of_kept _ _ (RowsKept.refl w.db)
  by_cases hold : 0 ≤ w.db.userVersion ∧ w.db.userVersion < lastDestructiveVersion
  · rcases destructive_log env w.db hold.1 hold.2 with
      (hnil | ⟨hland, hdata⟩) | ⟨hopt, l, hl, hlog⟩
    · have hevents : bootEvents env cut w.db = [] := by
        rw [bootEvents, hnil, List.take_nil]
      left
      rw [bootedDb, bootedFiles, hevents]
      exact ⟨hsame, Or.inl rfl⟩
    · left
      refine ⟨lostRows_noData _ _ hdata, Or.inl ?_⟩
      exact files_landing _ (fun e he => hland e (List.mem_of_mem_take he)) w.backups
    · rw [bootedDb, bootedFiles, bootEvents, hlog]
      match cut with
      | 0 => exact Or.inl ⟨hsame, Or.inl rfl⟩
      | 1 => exact Or.inl ⟨hsame, Or.inr rfl⟩
      | n + 2 =>
        right
        refine ⟨hopt, ?_⟩
        exact files_landing _ (fun e he => hl e (List.mem_of_mem_take he)) _
  · obtain ⟨hlost, hfiles⟩ := boot_additive env cut w hold
    exact Or.inl ⟨hlost, Or.inl hfiles⟩

/-- A backup under a new name leaves the others as they are. -/
theorem get?_set_whole (backups : KeyedDict Backup.name) (b : Backup) (n : String) (t : Database)
    (hfree : ∀ t', backups.get? b.name ≠ some ⟨b.name, some t'⟩)
    (h : backups.get? n = some ⟨n, some t⟩) : (backups.set b).get? n = some ⟨n, some t⟩ := by
  by_cases hn : n = b.name
  · rw [hn] at h
    exact absurd h (hfree t)
  · rw [KeyedDict.get?_set_of_ne _ _ _ hn, h]

theorem backedUp_step (w w' : Install) (s : InstallStep) (h : BackedUp w)
    (hfresh : FreshSecond w s) (hstep : installStep w s = some w') : BackedUp w' := by
  cases s with
  | write name rows =>
    cases hstep
    exact h
  | boot env cut =>
    cases hstep
    have hnew : ∀ n t, w.backups.get? n = some ⟨n, some t⟩ →
        (w.backups.set ⟨backupName env, none⟩).get? n = some ⟨n, some t⟩ := by
      intro n t
      refine get?_set_whole w.backups ⟨backupName env, none⟩ n t fun t' ht' => ?_
      rw [show w.backups.get? (backupName env) = none from hfresh] at ht'
      cases ht'
    intro x hx
    rcases boot_cases env cut w with ⟨hlost, hfiles⟩ | ⟨_, hfiles⟩
    · have hold : x ∈ w.lost := by
        have hx' : x ∈ w.lost ++ lostRows w.db (bootedDb env cut w.db) := hx
        rwa [hlost, List.append_nil] at hx'
      obtain ⟨n, t, hn, hrow⟩ := h x hold
      refine ⟨n, t, ?_, hrow⟩
      rcases hfiles with hfiles | hfiles
      · exact hfiles.symm ▸ hn
      · exact hfiles.symm ▸ hnew n t hn
    · have hpart : (w.backups.set ⟨backupName env, none⟩).get? (backupName env) =
          some ⟨backupName env, none⟩ :=
        KeyedDict.get?_set_self _ (⟨backupName env, none⟩ : Backup)
      rcases List.mem_append.mp hx with hx | hx
      · obtain ⟨n, t, hn, hrow⟩ := h x hx
        refine ⟨n, t, hfiles.symm ▸ ?_, hrow⟩
        refine get?_set_whole _ ⟨backupName env, some w.db⟩ n t (fun t' ht' => ?_) (hnew n t hn)
        rw [hpart] at ht'
        cases ht'
      · refine ⟨backupName env, w.db, hfiles.symm ▸ ?_, (mem_lostRows _ _ x hx).2.1⟩
        exact KeyedDict.get?_set_self _ (⟨backupName env, some w.db⟩ : Backup)

/-- The step starts a process whose operator consents to a destructive upgrade. -/
def InstallStep.consents : InstallStep → Bool
  | .boot env _ => env.optIn
  | .write _ _ => false

/-- Over the life of an installation, whatever is cut, the rows that starts take from the
deals, orders, annotations, backtests and users are in whole backups; where no operator
consented, none is ever taken. -/
theorem dropped_rows_backed_up (w u : Install) (ls : List InstallStep) (hnone : w.lost = [])
    (hfresh : Machine.Guarded installStep FreshSecond w ls)
    (hrun : Machine.run installStep w ls = some u) :
    BackedUp u ∧ ((∀ s ∈ ls, s.consents = false) → u.lost = []) := by
  constructor
  · refine Machine.run_invariant installStep (fun _ => True) FreshSecond BackedUp ?_ w u ls ?_
      (fun _ _ => trivial) hfresh hrun
    · exact fun s l s' _ h hG hstep => backedUp_step s s' l h hG hstep
    · intro x hx
      rw [hnone] at hx
      exact absurd hx List.not_mem_nil
  · intro hconsent
    refine Machine.run_invariant installStep (fun s => s.consents = false) (fun _ _ => True)
      (fun w => w.lost = []) ?_ w u ls hnone hconsent (Machine.guarded_of_labels _ _ _ _
        fun _ _ => trivial) hrun
    intro s l s' hQ hlost _ hstep
    cases l with
    | write name rows =>
      cases hstep
      exact hlost
    | boot env cut =>
      cases hstep
      rcases boot_cases env cut s with ⟨hkept, _⟩ | ⟨hopt, _⟩
      · change s.lost ++ lostRows _ _ = []
        rw [hlost, hkept]
        rfl
      · exact absurd hopt (by rw [show env.optIn = false from hQ]; exact Bool.false_ne_true)

/-- A first release is upgraded with consent, cut after four drops, and started again. -/
def firstUpgrade : List InstallStep :=
  [.boot (consenting "20250101-000000" "t0") 6, .boot (consenting "20250101-000001" "t1") 60]

theorem firstUpgrade_backed_up :
    ∃ u, Machine.run installStep ⟨firstRelease, .empty, []⟩ firstUpgrade = some u ∧ BackedUp u := by
  have hfresh : Machine.Guarded installStep FreshSecond ⟨firstRelease, .empty, []⟩ firstUpgrade := by
    refine ⟨rfl, fun w hw => ?_⟩
    cases hw
    exact ⟨rfl, fun _ _ => trivial⟩
  exact ⟨_, rfl, (dropped_rows_backed_up ⟨firstRelease, .empty, []⟩ _ firstUpgrade rfl hfresh rfl).1⟩

end Database

end Reverto
