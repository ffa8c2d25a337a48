import Mathlib.Tactic
import Reverto.Lib.KeyedDict
import Reverto.Lib.Resume

/-!
# The schema of the database (core/database.py)

`init_db` and what it calls, statement by statement. Outside a transaction every
statement of sqlite3 is on disk when it returns; the first INSERT opens the
transaction that `with conn` commits at the end.
-/

namespace Reverto

namespace Database

/-! ### Tables -/

/-- A value of a column. -/
inductive SqlValue where
  | null
  | int (n : ℤ)
  | real (q : ℚ)
  | text (s : String)
  deriving DecidableEq, Repr

/-- What a column of a new row holds when the INSERT does not give it. -/
inductive ColumnDefault where
  | value (v : SqlValue)
  | now
  deriving DecidableEq, Repr

structure Column where
  name : String
  default : ColumnDefault := .value .null
  deriving DecidableEq, Repr

/-- Every row has a value for every column. -/
structure Table where
  name : String
  columns : List Column
  rows : List (List SqlValue)
  aligned : ∀ r ∈ rows, r.length = columns.length
  deriving DecidableEq

/-- `name in` the columns of the table -/
def Table.hasColumn (t : Table) (name : String) : Bool := t.columns.any fun c => c.name = name

/-- `row[column]` -/
def Table.field (t : Table) (row : List SqlValue) (column : String) : Option SqlValue :=
  row[t.columns.findIdx fun c => c.name = column]?

theorem aligned_nil (columns : List Column) :
    ∀ r ∈ ([] : List (List SqlValue)), r.length = columns.length :=
  fun _ hr => absurd hr List.not_mem_nil

def Table.empty (name : String) (columns : List Column) : Table :=
  ⟨name, columns, [], aligned_nil columns⟩

/-- The table without its rows. -/
def Table.cleared (t : Table) : Table := ⟨t.name, t.columns, [], aligned_nil t.columns⟩

theorem aligned_widened (columns : List Column) (rows : List (List SqlValue)) (v : SqlValue)
    (c : Column) (h : ∀ r ∈ rows, r.length = columns.length) :
    ∀ r ∈ rows.map (· ++ [v]), r.length = (columns ++ [c]).length := by
  intro r hr
  obtain ⟨q, hq, rfl⟩ := List.mem_map.mp hr
  rw [List.length_append, List.length_append, h q hq]
  rfl

/-- `ALTER TABLE ... ADD COLUMN` with a constant default. -/
def Table.addColumn (t : Table) (c : Column) (v : SqlValue) : Table :=
  ⟨t.name, t.columns ++ [c], t.rows.map (· ++ [v]), aligned_widened t.columns t.rows v c t.aligned⟩

theorem aligned_insert (columns : List Column) (rows : List (List SqlValue)) (r : List SqlValue)
    (hr : r.length = columns.length) (h : ∀ r ∈ rows, r.length = columns.length) :
    ∀ q ∈ rows ++ [r], q.length = columns.length := by
  intro q hq
  rcases List.mem_append.mp hq with hq | hq
  · exact h q hq
  · rw [List.mem_singleton.mp hq]
    exact hr

theorem length_values (columns : List Column) (value : Column → SqlValue) :
    (columns.map value).length = columns.length := List.length_map _

/-- A row whose columns hold the values given for them. -/
def Table.insert (t : Table) (value : Column → SqlValue) : Table :=
  ⟨t.name, t.columns, t.rows ++ [t.columns.map value],
    aligned_insert t.columns t.rows _ (length_values t.columns value) t.aligned⟩

end Database

open Database

/-- `logs/reverto.db` and the encrypted blobs its `exchange_accounts` rows name. -/
structure Database where
  userVersion : ℤ
  tables : KeyedDict Table.name
  blobs : List (ℤ × String)

namespace Database

/-- `SchemaVersionError` and `DatabaseMigrationError`, and what SQLite or the paths raise. -/
inductive MigrationError where
  | belowMinimum (raw : ℤ)
  | aboveCap (raw : ℤ)
  | newer (raw : ℤ)
  | destructive (current : ℤ)
  | valueError (leaf : String)
  | runtimeError
  | foreignKey (table : String)
  | noSuchTable (table : String)
  | noSuchColumn (table column : String)
  deriving DecidableEq, Repr

/-- What a start of a process leaves behind: the database after a statement outside a
transaction or after a commit, and the backup file, first partial and then whole. -/
inductive DbEvent where
  | landed (db : Database)
  | backupStarted (name : String)
  | backupDone (name : String) (db : Database)

/-- What a later start finds of the database. -/
def DbEvent.land : DbEvent → Option Database
  | .landed db => some db
  | _ => none

abbrev DbM (α : Type) := Program MigrationError DbEvent Database α

/-- The circumstances of a start: the opt-in of the operator, the clock, and what
the credentials directory does. -/
structure BootEnv where
  optIn : Bool
  timestamp : String
  now : String
  credentialsSymlink : Bool
  unlinkFails : ℤ → String → Bool

/-! ### The schema -/

/-- `SCHEMA_VERSION` -/
def schemaVersion : ℤ := 14

/-- `_LAST_DESTRUCTIVE_VERSION` -/
def lastDestructiveVersion : ℤ := 4

/-- `_SCHEMA_VERSION_MIN` -/
def schemaVersionMin : ℤ := 0

/-- `_SCHEMA_VERSION_MAX` -/
def schemaVersionMax : ℤ := 999

/-- `_OWNED_TABLES` -/
def ownedTables : List String := ["orders", "chart_annotations", "backtest_runs", "deals", "users"]

/-- One of `_SCHEMA_STATEMENTS`. -/
inductive SchemaStatement where
  | createTable (name : String) (columns : List Column)
  | createIndex (table : String) (columns : List String)
  | seedAdmin
  deriving DecidableEq, Repr

/-- Columns without a default. -/
def plain (names : List String) : List Column := names.map fun n => { name := n }

def createdAt (name : String) : Column := ⟨name, .now⟩

def textColumn (name value : String) : Column := ⟨name, .value (.text value)⟩

def intColumn (name : String) (value : ℤ) : Column := ⟨name, .value (.int value)⟩

/-- The columns `_apply_column_additions` adds to `users`. -/
def addedColumns : List (Column × SqlValue) :=
  [(intColumn "failed_login_count" 0, .int 0), (⟨"last_failed_login_at", .value .null⟩, .null),
    (⟨"totp_seed_encrypted", .value .null⟩, .null)]

/-- The columns of `users` since version 4. -/
def usersBase : List Column :=
  plain ["id", "username", "password_hash"] ++
    [textColumn "role" "user", intColumn "session_epoch" 0, intColumn "active" 1,
      createdAt "created_at"]

def usersColumns : List Column := usersBase ++ addedColumns.map Prod.fst

def dealsColumns : List Column :=
  plain ["id", "user_id", "bot_slug", "bot_name"] ++ [textColumn "side" "long"] ++
    plain ["status", "close_reason", "opened_at", "closed_at", "initial_price", "avg_entry",
      "close_price", "total_size"] ++ [intColumn "leverage" 1] ++
    plain ["pnl_btc", "pnl_pct", "peak_price", "entry_trigger", "exit_trigger"] ++
    [createdAt "created_at"]

def ordersColumns : List Column :=
  plain ["id", "user_id", "deal_id", "bot_slug", "order_number", "order_type", "price", "size"] ++
    [⟨"fee_btc", .value (.real 0)⟩] ++ plain ["placed_at"] ++ [createdAt "created_at"]

def chartAnnotationsColumns : List Column :=
  plain ["id", "user_id", "bot_slug", "type", "timeframe", "x1", "y1", "x2", "y2", "label"] ++
    [textColumn "color" "#00d4aa", createdAt "created_at"]

def backtestRunsColumns : List Column :=
  plain ["id", "user_id", "bot_slug", "bot_name", "start_date", "end_date", "timeframe",
    "initial_balance_btc", "final_balance_btc", "total_pnl_btc", "total_pnl_pct", "total_deals",
    "winning_deals", "losing_deals", "win_rate", "avg_duration_hours", "max_duration_hours",
    "total_fees_btc", "max_drawdown_pct", "profit_factor", "sharpe_ratio", "sortino_ratio",
    "calmar_ratio", "recovery_factor", "expectancy_btc", "avg_win_loss_ratio", "omega_ratio",
    "buy_hold_pnl_pct", "max_consecutive_wins", "max_consecutive_losses"] ++
    [createdAt "created_at"]

def changelogEntriesColumns : List Column :=
  plain ["id", "title", "description", "category"] ++ [intColumn "is_published" 0,
    createdAt "created_at"] ++ plain ["published_at", "source_commit_sha"]

def roadmapPhasesColumns : List Column :=
  plain ["id", "phase_key", "display_name", "summary"] ++
    [textColumn "status" "pending", intColumn "sort_order" 0, textColumn "body_md" "",
      textColumn "effort_estimate" "", textColumn "in_progress_note" "",
      textColumn "audit_checkpoint" "", intColumn "is_published" 0, createdAt "created_at",
      createdAt "updated_at"] ++ plain ["published_at"]

def dashboardLayoutsColumns : List Column :=
  plain ["id", "user_id"] ++ [textColumn "name" "default"] ++ plain ["layout_json"] ++
    [createdAt "updated_at"]

def auditFindingsColumns : List Column :=
  plain ["id", "finding_id", "source_doc", "severity", "status", "title"] ++
    [textColumn "description" ""] ++ plain ["resolution_ref"] ++
    [textColumn "notes" "", createdAt "created_at", createdAt "updated_at"]

def exchangeAccountsColumns : List Column :=
  plain ["id", "user_id", "exchange_type", "market_type", "alias", "credentials_uuid"] ++
    [createdAt "created_at"] ++ plain ["last_tested_at"] ++ [intColumn "is_default" 0]

def portfolioSnapshotsColumns : List Column :=
  plain ["id", "user_id", "exchange_account_id"] ++ [createdAt "captured_at"] ++
    plain ["balance_native", "currency", "balance_usd", "usd_rate", "rate_source", "source"]

def telegramConfigsColumns : List Column :=
  plain ["user_id", "chat_id"] ++ [textColumn "notify_on" "[]", createdAt "connected_at"] ++
    plain ["last_message_at"]

def telegramLinkTokensColumns : List Column :=
  plain ["token", "user_id"] ++ [createdAt "created_at"] ++ plain ["expires_at", "used_at"]

/-- `_SCHEMA_STATEMENTS` after the first one. -/
def laterStatements : List SchemaStatement :=
  [.seedAdmin,
    .createTable "deals" dealsColumns,
    .createTable "orders" ordersColumns,
    .createTable "chart_annotations" chartAnnotationsColumns,
    .createTable "backtest_runs" backtestRunsColumns,
    .createIndex "deals" ["user_id"],
    .createIndex "deals" ["user_id", "bot_slug"],
    .createIndex "deals" ["status"],
    .createIndex "orders" ["user_id"],
    .createIndex "orders" ["deal_id"],
    .createIndex "chart_annotations" ["user_id"],
    .createIndex "chart_annotations" ["user_id", "bot_slug"],
    .createIndex "backtest_runs" ["user_id"],
    .createIndex "backtest_runs" ["user_id", "bot_slug"],
    .createIndex "backtest_runs" ["created_at"],
    .createTable "changelog_entries" changelogEntriesColumns,
    .createIndex "changelog_entries" ["is_published", "published_at"],
    .createTable "roadmap_phases" roadmapPhasesColumns,
    .createIndex "roadmap_phases" ["is_published", "sort_order"],
    .createIndex "roadmap_phases" ["status", "sort_order"],
    .createTable "dashboard_layouts" dashboardLayoutsColumns,
    .createIndex "dashboard_layouts" ["user_id"],
    .createTable "audit_findings" auditFindingsColumns,
    .createIndex "audit_findings" ["status", "severity"],
    .createIndex "audit_findings" ["source_doc"],
    .createTable "exchange_accounts" exchangeAccountsColumns,
    .createIndex "exchange_accounts" ["user_id", "exchange_type"],
    .createTable "portfolio_snapshots" portfolioSnapshotsColumns,
    .createIndex "portfolio_snapshots" ["user_id", "captured_at"],
    .createIndex "portfolio_snapshots" ["exchange_account_id", "captured_at"],
    .createTable "telegram_configs" telegramConfigsColumns,
    .createTable "telegram_link_tokens" telegramLinkTokensColumns,
    .createIndex "telegram_link_tokens" ["expires_at"]]

/-- `_SCHEMA_STATEMENTS` -/
def schemaStatements : List SchemaStatement := .createTable "users" usersColumns :: laterStatements

/-! ### Statements -/

def setTables (tables : KeyedDict Table.name) (db : Database) : Database := { db with tables := tables }

/-- The tables whose rows keep a parent row from being deleted. -/
def restricting : String → List String
  | "users" => ["deals", "orders", "chart_annotations", "backtest_runs"]
  | "deals" => ["orders"]
  | _ => []

/-- The tables whose rows are deleted with their parent row. -/
def cascading : String → List String
  | "users" => ["dashboard_layouts", "exchange_accounts", "portfolio_snapshots", "telegram_configs",
      "telegram_link_tokens"]
  | "exchange_accounts" => ["portfolio_snapshots"]
  | _ => []

/-- The table exists and has rows. -/
def hasRows (db : Database) (name : String) : Bool :=
  match db.tables.get? name with
  | none => false
  | some t => !t.rows.isEmpty

/-- Delete the rows of a table that follow their parent. -/
def cascade (parent : String) (t : Table) : Table :=
  if t.name ∈ cascading parent then t.cleared else t

theorem cascade_name (parent : String) (t : Table) : (cascade parent t).name = t.name := by
  unfold cascade
  split
  · rfl
  · rfl

/-- `DROP TABLE IF EXISTS`, with `PRAGMA foreign_keys=ON`. -/
def dropTable (name : String) : DbM Unit := do
  let db ← Program.get
  if (db.tables.get? name).isNone then pure ()
  else if (restricting name).any (hasRows db) then Program.raise (.foreignKey name)
  else
    Program.modify fun db =>
      setTables ((db.tables.mapValues (cascade name) (cascade_name name)).pop name) db

/-- The value a column gets where the INSERT leaves it out. -/
def defaultValue (now : String) : ColumnDefault → SqlValue
  | .value v => v
  | .now => .text now

/-- `INSERT OR IGNORE INTO users (id, username, role) VALUES (1, 'admin', 'admin')`, one value. -/
def adminValue (now : String) (c : Column) : SqlValue :=
  if c.name = "id" then .int 1
  else if c.name = "username" then .text "admin"
  else if c.name = "role" then .text "admin"
  else defaultValue now c.default

/-- A row that a UNIQUE constraint of `users` sets against the admin row. -/
def clashesWithAdmin (t : Table) (row : List SqlValue) : Bool :=
  t.field row "id" = some (.int 1) || t.field row "username" = some (.text "admin")

def seedAdmin (now : String) (t : Table) : Table :=
  if t.rows.any (clashesWithAdmin t) then t else t.insert (adminValue now)

theorem seedAdmin_name (now : String) (t : Table) : (seedAdmin now t).name = t.name := by
  unfold seedAdmin
  split
  · rfl
  · rfl

/-- The columns are there, or the statement fails. -/
def requireColumns (table : String) (columns : List String) : DbM Unit := do
  let db ← Program.get
  match db.tables.get? table with
  | none => Program.raise (.noSuchTable table)
  | some t =>
    match columns.find? fun c => !t.hasColumn c with
    | none => pure ()
    | some c => Program.raise (.noSuchColumn table c)

/-- One statement of the schema. -/
def execute (now : String) : SchemaStatement → DbM Unit
  | .createTable name columns => Program.modify fun db =>
    if (db.tables.get? name).isSome then db
    else setTables (db.tables.set (Table.empty name columns)) db
  | .createIndex table columns => requireColumns table columns
  | .seedAdmin => do
    requireColumns "users" ["id", "username", "role"]
    Program.modify fun db =>
      setTables (db.tables.modify "users" (seedAdmin now) (seedAdmin_name now)) db

/-- A statement outside a transaction. -/
def autocommit (m : DbM Unit) : DbM Unit := do
  m
  let db ← Program.get
  Program.emit (.landed db)

/-- Statements inside the transaction that `with conn` commits or rolls back. -/
def transact (m : DbM Unit) : DbM Unit := fun db =>
  match (m db).result with
  | .ok _ => ⟨.ok (), [.landed (m db).state], (m db).state⟩
  | .error e => ⟨.error e, [], db⟩

/-- The loop over `_SCHEMA_STATEMENTS`: the INSERT opens the transaction of the rest. -/
def runStatements (now : String) : List SchemaStatement → DbM Unit
  | [] => pure ()
  | .seedAdmin :: rest => transact (Program.forEach (execute now) (.seedAdmin :: rest))
  | s :: rest => do
    autocommit (execute now s)
    runStatements now rest

/-! ### Migrating -/

/-- `_read_schema_version` -/
def readSchemaVersion : DbM ℤ := do
  let db ← Program.get
  let raw := db.userVersion
  if raw < schemaVersionMin then Program.raise (.belowMinimum raw)
  else if schemaVersionMax < raw then Program.raise (.aboveCap raw)
  else if schemaVersion < raw then Program.raise (.newer raw)
  else pure raw

/-- `_has_existing_owned_data` -/
def hasExistingOwnedData (db : Database) : Bool := ownedTables.any (hasRows db)

/-- `_create_pre_migration_backup` -/
def createPreMigrationBackup (env : BootEnv) : DbM Unit := do
  let name := "pre-migration-backup-" ++ env.timestamp ++ ".db"
  Program.emit (.backupStarted name)
  let db ← Program.get
  Program.emit (.backupDone name db)

/-- `_add_column_if_missing` -/
def addColumnIfMissing (table : String) (c : Column) (v : SqlValue) (t : Table) : Table :=
  if t.name = table then if t.hasColumn c.name then t else t.addColumn c v else t

theorem addColumnIfMissing_name (table : String) (c : Column) (v : SqlValue) (t : Table) :
    (addColumnIfMissing table c v t).name = t.name := by
  unfold addColumnIfMissing
  split
  · split
    · rfl
    · rfl
  · rfl

/-- `_add_column_if_missing(conn, "users", …)`, which commits. -/
def addUsersColumn (cv : Column × SqlValue) : DbM Unit :=
  autocommit (Program.modify fun db =>
    setTables (db.tables.mapValues (addColumnIfMissing "users" cv.1 cv.2)
      (addColumnIfMissing_name "users" cv.1 cv.2)) db)

/-- `_apply_column_additions` -/
def applyColumnAdditions : DbM Unit :=
  Program.forEach addUsersColumn addedColumns

/-- `_validate_safe_leaf` -/
def isSafeLeaf (name : String) : Bool :=
  name ≠ "" && name.toList.all fun c => c.isAlphanum || c = '-' || c = '_'

/-- `uuid_creds_path(user_id, uuid).unlink()` where the blob is there. -/
def unlinkBlob (env : BootEnv) (account : ℤ × String) : DbM Unit := do
  if !isSafeLeaf account.2 then Program.raise (.valueError account.2)
  else if env.credentialsSymlink then Program.raise .runtimeError
  else if env.unlinkFails account.1 account.2 then pure ()
  else autocommit (Program.modify fun db => { db with blobs := db.blobs.erase account })

/-- The `user_id` and `credentials_uuid` of a row. -/
def accountOf (t : Table) (row : List SqlValue) : Option (ℤ × String) :=
  match t.field row "user_id", t.field row "credentials_uuid" with
  | some (.int userId), some (.text uuid) => some (userId, uuid)
  | _, _ => none

/-- `_apply_destructive_table_recreates` -/
def applyDestructiveTableRecreates (env : BootEnv) (current : ℤ) : DbM Unit := do
  if current < 12 then do
    let db ← Program.get
    match db.tables.get? "exchange_accounts" with
    | none => pure ()
    | some t =>
      if t.hasColumn "user_id" && t.hasColumn "credentials_uuid" then do
        Program.forEach (unlinkBlob env) (t.rows.filterMap (accountOf t))
        autocommit (dropTable "exchange_accounts")
      else pure ()
  else pure ()

/-- The guard of the destructive path of `_migrate_schema`. -/
def destructiveGuard (env : BootEnv) (current : ℤ) : DbM Unit := do
  let db ← Program.get
  if hasExistingOwnedData db then
    if env.optIn then createPreMigrationBackup env
    else Program.raise (.destructive current)
  else pure ()

/-- Path 1 of `_migrate_schema`. -/
def destructivePath (env : BootEnv) (current : ℤ) : DbM Unit :=
  if current < lastDestructiveVersion then do
    destructiveGuard env current
    Program.forEach (fun table => autocommit (dropTable table)) ownedTables
  else pure ()

/-- `_migrate_schema` -/
def migrateSchema (env : BootEnv) : DbM Unit := do
  let current ← readSchemaVersion
  if current = schemaVersion then pure ()
  else do
    destructivePath env current
    applyColumnAdditions
    applyDestructiveTableRecreates env current
    autocommit (Program.modify fun db => { db with userVersion := schemaVersion })

/-- `init_db` -/
def initDb (env : BootEnv) : DbM Unit := do
  migrateSchema env
  runStatements env.now schemaStatements

end Database

end Reverto
