import Mathlib.Tactic
import Reverto.Core.SchemaMigration

/-!
# Starts of the processes that open the database (core/database.py)

Every process runs `init_db` when it starts. A start that is cut before its commit,
or that raises, is followed by another one.
-/

namespace Reverto

namespace Database

/-! ### The statements of the schema -/

/-- What a statement makes of the table of a name. -/
def effect (now name : String) (table : Option Table) : SchemaStatement → Option Table
  | .createTable n columns =>
    if n = name then some (table.getD (Table.empty n columns)) else table
  | .createIndex _ _ => table
  | .seedAdmin => if name = "users" then table.map (seedAdmin now) else table

theorem seedAdmin_columns (now : String) (t : Table) : (seedAdmin now t).columns = t.columns := by
  unfold seedAdmin
  split
  · rfl
  · rfl

theorem requireColumns_run (table : String) (columns : List String) (db : Database) :
    (requireColumns table columns db).log = [] ∧ (requireColumns table columns db).state = db := by
  rw [requireColumns, Program.get_bind_run]
  cases db.tables.get? table with
  | none => exact ⟨rfl, rfl⟩
  | some t =>
    dsimp only
    cases columns.find? fun c => !t.hasColumn c with
    | none => exact ⟨rfl, rfl⟩
    | some c => exact ⟨rfl, rfl⟩

theorem get?_set_empty (tables : KeyedDict Table.name) (name : String) (columns : List Column)
    (k : String) :
    (tables.set (Table.empty name columns)).get? k =
      if k = name then some (Table.empty name columns) else tables.get? k := by
  by_cases hk : k = name
  · rw [if_pos hk, hk]
    exact KeyedDict.get?_set_self tables (Table.empty name columns)
  · rw [if_neg hk]
    exact KeyedDict.get?_set_of_ne tables (Table.empty name columns) k hk

/-- A statement that succeeds has its effect on every table. -/
theorem execute_find (now : String) (s : SchemaStatement) (db : Database) (a : Unit)
    (h : (execute now s db).result = .ok a) :
    (execute now s db).state.userVersion = db.userVersion ∧
      ∀ name, (execute now s db).state.tables.get? name =
        effect now name (db.tables.get? name) s := by
  cases s with
  | createTable n columns =>
    have hrun : (execute now (.createTable n columns) db).state =
        if (db.tables.get? n).isSome then db
        else setTables (db.tables.set (Table.empty n columns)) db := rfl
    rw [hrun]
    cases hn : db.tables.get? n with
    | none =>
      refine ⟨rfl, fun name => ?_⟩
      change (db.tables.set (Table.empty n columns)).get? name = _
      rw [get?_set_empty]
      by_cases hname : name = n
      · rw [if_pos hname, hname, hn, effect, if_pos rfl]
        rfl
      · rw [if_neg hname, effect, if_neg (Ne.symm hname)]
    | some t =>
      refine ⟨rfl, fun name => ?_⟩
      change db.tables.get? name = _
      by_cases hname : n = name
      · rw [effect, if_pos hname, ← hname, hn]
        rfl
      · rw [effect, if_neg hname]
  | createIndex table columns =>
    have hstate := (requireColumns_run table columns db).2
    have hrun : (execute now (.createIndex table columns) db).state = db := hstate
    rw [hrun]
    exact ⟨rfl, fun _ => rfl⟩
  | seedAdmin =>
    have hstate := (requireColumns_run "users" ["id", "username", "role"] db).2
    rw [execute] at h ⊢
    cases hr : (requireColumns "users" ["id", "username", "role"] db).result with
    | error e =>
      rw [Program.bind_error _ _ db e hr] at h
      cases h
    | ok b =>
      rw [Program.bind_ok _ _ db b hr, hstate]
      refine ⟨rfl, fun name => ?_⟩
      change (db.tables.modify "users" (seedAdmin now) (seedAdmin_name now)).get? name = _
      by_cases hname : name = "users"
      · rw [hname, KeyedDict.get?_modify_self, effect, if_pos rfl]
      · rw [KeyedDict.get?_modify_of_ne _ _ _ _ _ hname, effect, if_neg hname]

theorem statements_find (now : String) (l : List SchemaStatement) (db : Database) (a : Unit)
    (h : (Program.forEach (execute now) l db).result = .ok a) :
    (Program.forEach (execute now) l db).state.userVersion = db.userVersion ∧
      ∀ name, (Program.forEach (execute now) l db).state.tables.get? name =
        l.foldl (effect now name) (db.tables.get? name) := by
  induction l generalizing db with
  | nil => exact ⟨rfl, fun _ => rfl⟩
  | cons s l ih =>
    rw [Program.forEach] at h ⊢
    cases hr : (execute now s db).result with
    | error e =>
      rw [Program.bind_error _ _ db e hr] at h
      cases h
    | ok b =>
      rw [Program.bind_ok _ _ db b hr] at h ⊢
      obtain ⟨hversion, hfind⟩ := execute_find now s db b hr
      obtain ⟨hversion', hfind'⟩ := ih _ h
      refine ⟨hversion'.trans hversion, fun name => ?_⟩
      rw [List.foldl_cons, ← hfind name]
      exact hfind' name

/-- The statement says nothing about the table of the users. -/
def SchemaStatement.spares : SchemaStatement → Bool
  | .createTable n _ => n ≠ "users"
  | .createIndex _ _ => true
  | .seedAdmin => false

theorem effect_spares (now : String) (s : SchemaStatement) (h : s.spares = true)
    (table : Option Table) : effect now "users" table s = table := by
  cases s with
  | createTable n columns =>
    have hn : n ≠ "users" := by simpa [SchemaStatement.spares] using h
    rw [effect, if_neg hn]
  | createIndex _ _ => rfl
  | seedAdmin => cases h

theorem foldl_spares (now : String) (l : List SchemaStatement)
    (h : ∀ s ∈ l, s.spares = true) (table : Option Table) :
    l.foldl (effect now "users") table = table := by
  induction l generalizing table with
  | nil => rfl
  | cons s l ih =>
    rw [List.foldl_cons, effect_spares now s (h s List.mem_cons_self)]
    exact ih (fun r hr => h r (List.mem_cons_of_mem s hr)) table

/-- Away from the users, the first statement that creates the table counts, where it is missing. -/
theorem foldl_effect (now name : String) (hname : name ≠ "users") (l : List SchemaStatement)
    (table : Option Table) :
    l.foldl (effect now name) table = table.or (l.findSome? (SchemaStatement.creates name)) := by
  induction l generalizing table with
  | nil => exact (Option.or_none).symm
  | cons s l ih =>
    rw [List.foldl_cons, ih, List.findSome?_cons]
    cases s with
    | createTable n columns =>
      by_cases hn : n = name
      · simp only [effect, SchemaStatement.creates, if_pos hn]
        cases table with
        | none => rfl
        | some t => rfl
      · simp only [effect, SchemaStatement.creates, if_neg hn]
    | createIndex _ _ => rfl
    | seedAdmin => simp only [effect, if_neg hname, SchemaStatement.creates]

/-- The later statements on a database whose users are there. -/
theorem later_find (now name : String) (table : Option Table)
    (h : name = "users" → table.isSome = true) :
    laterStatements.foldl (effect now name) table =
      if name = "users" then (table.or (schemaTable name)).map (seedAdmin now)
      else table.or (schemaTable name) := by
  by_cases hname : name = "users"
  · subst hname
    have hrest : laterStatements = .seedAdmin :: laterStatements.tail := by rfl
    rw [if_pos rfl, hrest, List.foldl_cons, foldl_spares now _ (by decide)]
    obtain ⟨t, rfl⟩ := Option.isSome_iff_exists.mp (h rfl)
    rfl
  · rw [if_neg hname, foldl_effect now name hname]
    have hfirst : schemaTable name =
        laterStatements.findSome? (SchemaStatement.creates name) := by
      rw [schemaTable, schemaStatements, List.findSome?_cons]
      simp only [SchemaStatement.creates, if_neg (Ne.symm hname)]
    rw [hfirst]

/-! ### A start up to its commit -/

/-- `init_db` before the transaction of its INSERT. -/
def prepareDb (env : BootEnv) : DbM Unit := do
  migrateSchema env
  autocommit (execute env.now (.createTable "users" usersColumns))

/-- The transaction at the end of `init_db`. -/
def commitDb (now : String) : DbM Unit :=
  transact (Program.forEach (execute now) laterStatements)

theorem initDb_eq (env : BootEnv) : initDb env = prepareDb env >>= fun _ => commitDb env.now := by
  simp only [prepareDb, Program.bind_assoc]
  rfl

theorem releasedAt_create (find : String → Option Table) (name : String) (columns : List Column)
    (h : ReleasedAt schemaVersion find) (hintro : introducedIn name ≤ schemaVersion)
    (hcolumns : columnsAt schemaVersion name = columns) :
    ReleasedAt schemaVersion fun k =>
      if k = name then some ((find name).getD (Table.empty name columns)) else find k where
  introduced k t ht := by
    split at ht
    · rename_i hk
      rw [hk]
      exact hintro
    · exact h.introduced k t ht
  columns k t ht := by
    split at ht
    · rename_i hk
      rw [hk]
      cases hf : find name with
      | none =>
        rw [hf] at ht
        cases ht
        refine ⟨rfl, fun c hc => ?_⟩
        rw [hcolumns] at hc
        exact List.any_eq_true.mpr ⟨c, hc, decide_eq_true rfl⟩
      | some u =>
        rw [hf] at ht
        cases ht
        exact h.columns name u hf
    · exact h.columns k t ht

/-- Creating the users once the version is set. -/
theorem createUsers (now : String) (db : Database) (h : AtVersion schemaVersion db) :
    AtVersion schemaVersion (execute now (.createTable "users" usersColumns) db).state ∧
      outcome (execute now (.createTable "users" usersColumns) db).state = outcome db ∧
      ((execute now (.createTable "users" usersColumns) db).state.tables.get? "users").isSome =
        true := by
  obtain ⟨hversion, hfind⟩ := execute_find now (.createTable "users" usersColumns) db () rfl
  have hget : (execute now (.createTable "users" usersColumns) db).state.tables.get? =
      fun k => if k = "users" then
        some ((db.tables.get? "users").getD (Table.empty "users" usersColumns))
      else db.tables.get? k := by
    funext k
    rw [hfind k, effect]
    by_cases hk : k = "users"
    · subst hk
      rfl
    · rw [if_neg hk, if_neg (Ne.symm hk)]
  refine ⟨⟨hversion.trans h.1, ?_⟩, ?_, ?_⟩
  · rw [hget]
    exact releasedAt_create _ "users" usersColumns h.2 (by decide) (by decide)
  · funext t name
    rw [outcome, outcome, upgraded_eq t db _ h.1, upgraded_eq t _ _ (hversion.trans h.1)]
    simp only [keeps, keptTable_current, hget]
    by_cases hname : name = "users"
    · subst hname
      simp only [if_true]
      cases db.tables.get? "users" with
      | none => rfl
      | some t => rfl
    · simp only [if_neg hname]
  · rw [hget]
    rfl

theorem toward_prepareDb (env : BootEnv) :
    Program.Respects (Resume.Toward DbEvent.land Released outcome) (prepareDb env) := by
  intro db h
  have hmigrate := toward_migrateSchema env db h
  cases hr : (migrateSchema env db).result with
  | error e =>
    rw [prepareDb, Program.bind_error _ _ db e hr]
    exact hmigrate
  | ok a =>
    have hat := migrateSchema_reaches env db h a hr
    obtain ⟨hat', hgoal, _⟩ := createUsers env.now (migrateSchema env db).state hat
    have hlast := And.intro (released_of_atVersion _ _ hat') (hgoal.trans hmigrate.1.2)
    rw [prepareDb, Program.bind_ok _ _ db a hr, autocommit_state]
    refine ⟨hlast, fun w hw t ht => ?_⟩
    rcases List.mem_append.mp hw with hw | hw
    · exact hmigrate.2 w hw t ht
    · change w ∈ [DbEvent.landed _] at hw
      rw [List.mem_singleton.mp hw] at ht
      cases ht
      exact hlast

theorem prepareDb_reaches (env : BootEnv) :
    Program.Triple Released (prepareDb env) fun _ db =>
      AtVersion schemaVersion db ∧ (db.tables.get? "users").isSome = true := by
  refine Program.triple_bind _ _ _ _ (migrateSchema_reaches env) fun _ => ?_
  intro db h a ha
  rw [autocommit_state]
  obtain ⟨hat, _, husers⟩ := createUsers env.now db h
  exact ⟨hat, husers⟩

/-! ### Whole starts -/

theorem transact_ok (m : DbM Unit) (db : Database) (a : Unit)
    (h : (transact m db).result = .ok a) :
    (m db).result = .ok () ∧ (transact m db).state = (m db).state := by
  unfold transact at h ⊢
  cases hr : (m db).result with
  | ok b =>
    rw [hr] at h
    exact ⟨rfl, rfl⟩
  | error e =>
    rw [hr] at h
    cases h

/-- A start that returns has upgraded the database. -/
theorem initDb_reaches (env : BootEnv) (db : Database) (h : Released db) (a : Unit)
    (ha : (initDb env db).result = .ok a) :
    (initDb env db).state.userVersion = schemaVersion ∧
      ∀ name, (initDb env db).state.tables.get? name = upgraded env.now db name := by
  rw [initDb_eq] at ha ⊢
  cases hr : (prepareDb env db).result with
  | error e =>
    rw [Program.bind_error _ _ db e hr] at ha
    cases ha
  | ok b =>
    obtain ⟨hat, husers⟩ := prepareDb_reaches env db h b hr
    have hgoal := (toward_prepareDb env db h).1.2
    rw [Program.bind_ok _ _ db b hr] at ha ⊢
    obtain ⟨hok, hstate⟩ := transact_ok _ _ a ha
    obtain ⟨hversion, hfind⟩ := statements_find env.now laterStatements _ () hok
    change (commitDb env.now (prepareDb env db).state).state.userVersion = _ ∧ _
    rw [commitDb, hstate]
    refine ⟨hversion.trans hat.1, fun name => ?_⟩
    rw [hfind name, later_find env.now name _ fun hname => hname ▸ husers]
    have hthen := upgraded_eq env.now _ _ hat.1 name
    rw [keeps, keptTable_current] at hthen
    rw [← hthen]
    exact congrFun (congrFun hgoal env.now) name

/-! ### When a start returns -/

/-- The columns of the index are columns of the schema, and the table comes first. -/
def SchemaStatement.follows (made : List String) : SchemaStatement → Bool
  | .createTable n columns => introducedIn n ≤ schemaVersion && columnsAt schemaVersion n = columns
  | .createIndex table columns =>
    table ∈ made && columns.all fun c => c ∈ (columnsAt schemaVersion table).map Column.name
  | .seedAdmin => "users" ∈ made

/-- The tables there are after a statement. -/
def SchemaStatement.made (made : List String) : SchemaStatement → List String
  | .createTable n _ => n :: made
  | _ => made

/-- Each statement finds what it needs among the tables made before. -/
def inOrder : List String → List SchemaStatement → Bool
  | _, [] => true
  | made, s :: rest => s.follows made && inOrder (s.made made) rest

theorem laterStatements_inOrder : inOrder ["users"] laterStatements = true := by decide

/-- The named tables are there, at the current version. -/
def Made (made : List String) (db : Database) : Prop :=
  AtVersion schemaVersion db ∧ ∀ n ∈ made, (db.tables.get? n).isSome = true

theorem requireColumns_ok (table : String) (columns made : List String) (db : Database)
    (h : Made made db) (htable : table ∈ made)
    (hcolumns : ∀ c ∈ columns, c ∈ (columnsAt schemaVersion table).map Column.name) :
    (requireColumns table columns db).result = .ok () := by
  obtain ⟨t, ht⟩ := Option.isSome_iff_exists.mp (h.2 table htable)
  have hall : columns.find? (fun c => !t.hasColumn c) = none := by
    refine List.find?_eq_none.mpr fun c hc => ?_
    obtain ⟨col, hcol, rfl⟩ := List.mem_map.mp (hcolumns c hc)
    rw [(h.1.2.columns table t ht).2 col hcol]
    exact Bool.false_ne_true
  rw [requireColumns, Program.get_bind_run, ht]
  dsimp only
  rw [hall]
  rfl

theorem execute_made (now : String) (s : SchemaStatement) (made : List String) (db : Database)
    (h : Made made db) (hs : s.follows made = true) :
    (execute now s db).result = .ok () ∧ Made (s.made made) (execute now s db).state := by
  have hok : (execute now s db).result = .ok () := by
    cases s with
    | createTable n columns => rfl
    | createIndex table columns =>
      simp only [SchemaStatement.follows, Bool.and_eq_true, decide_eq_true_eq, List.all_eq_true] at hs
      exact requireColumns_ok table columns made db h hs.1 hs.2
    | seedAdmin =>
      have husers : "users" ∈ made := by simpa [SchemaStatement.follows] using hs
      have hcols : ∀ c ∈ ["id", "username", "role"],
          c ∈ (columnsAt schemaVersion "users").map Column.name := by decide
      rw [execute, Program.bind_ok _ _ db () (requireColumns_ok "users" _ made db h husers hcols)]
      rfl
  obtain ⟨hversion, hfind⟩ := execute_find now s db () hok
  refine ⟨hok, ?_⟩
  cases s with
  | createTable n columns =>
    simp only [SchemaStatement.follows, Bool.and_eq_true, decide_eq_true_eq] at hs
    have hget : (execute now (.createTable n columns) db).state.tables.get? = fun k =>
        if k = n then some ((db.tables.get? n).getD (Table.empty n columns))
        else db.tables.get? k := by
      funext k
      rw [hfind k, effect]
      by_cases hk : k = n
      · subst hk
        rfl
      · rw [if_neg hk, if_neg (Ne.symm hk)]
    refine ⟨⟨hversion.trans h.1.1, ?_⟩, fun k hk => ?_⟩
    · rw [hget]
      exact releasedAt_create _ n columns h.1.2 hs.1 hs.2
    · rw [hget]
      dsimp only
      split
      · rfl
      · rename_i hne
        exact h.2 k ((List.mem_cons.mp hk).resolve_left hne)
  | createIndex table columns =>
    have hstate : (execute now (.createIndex table columns) db).state = db :=
      (requireColumns_run table columns db).2
    rw [hstate]
    exact h
  | seedAdmin =>
    have hget : ∀ k, (execute now .seedAdmin db).state.tables.get? k =
        if k = "users" then (db.tables.get? k).map (seedAdmin now) else db.tables.get? k := hfind
    refine ⟨⟨hversion.trans h.1.1, ?_, ?_⟩, fun k hk => ?_⟩
    · intro k t ht
      rw [hget] at ht
      split at ht
      · obtain ⟨u, hu, rfl⟩ := Option.map_eq_some_iff.mp ht
        exact h.1.2.introduced k u hu
      · exact h.1.2.introduced k t ht
    · intro k t ht
      rw [hget] at ht
      split at ht
      · obtain ⟨u, hu, rfl⟩ := Option.map_eq_some_iff.mp ht
        obtain ⟨hname, hcols⟩ := h.1.2.columns k u hu
        refine ⟨(seedAdmin_name now u).trans hname, fun c hc => ?_⟩
        rw [Table.hasColumn, seedAdmin_columns]
        exact hcols c hc
      · exact h.1.2.columns k t ht
    · rw [hget]
      split
      · rw [Option.isSome_map]
        exact h.2 k hk
      · exact h.2 k hk

theorem statements_ok (now : String) (l : List SchemaStatement) (made : List String)
    (db : Database) (h : Made made db) (hl : inOrder made l = true) :
    (Program.forEach (execute now) l db).result = .ok () ∧
      AtVersion schemaVersion (Program.forEach (execute now) l db).state := by
  induction l generalizing made db with
  | nil => exact ⟨rfl, h.1⟩
  | cons s l ih =>
    rw [inOrder, Bool.and_eq_true] at hl
    obtain ⟨hok, hmade⟩ := execute_made now s made db h hl.1
    obtain ⟨hrest, hat⟩ := ih _ _ hmade hl.2
    rw [Program.forEach, Program.bind_ok _ _ db () hok]
    exact ⟨hrest, hat⟩

theorem commitDb_ok (now : String) (db : Database) (h : AtVersion schemaVersion db)
    (husers : (db.tables.get? "users").isSome = true) :
    (commitDb now db).result = .ok () ∧ AtVersion schemaVersion (commitDb now db).state := by
  have hmade : Made ["users"] db := by
    refine ⟨h, fun n hn => ?_⟩
    rw [List.mem_singleton.mp hn]
    exact husers
  obtain ⟨hok, hat⟩ := statements_ok now laterStatements ["users"] db hmade laterStatements_inOrder
  rw [commitDb, transact, hok]
  exact ⟨rfl, hat⟩

/-- A start returns when its migration does. -/
theorem initDb_ok_iff (env : BootEnv) (db : Database) (h : Released db) :
    (initDb env db).result = .ok () ↔ (migrateSchema env db).result = .ok () := by
  rw [initDb_eq]
  constructor
  · intro hok
    cases hr : (migrateSchema env db).result with
    | error e =>
      have hprep : (prepareDb env db).result = .error e := by
        rw [prepareDb, Program.bind_error _ _ db e hr]
      rw [Program.bind_error _ _ db e hprep] at hok
      cases hok
    | ok a => rfl
  · intro hok
    have hprep : (prepareDb env db).result = .ok () := by
      rw [prepareDb, Program.bind_ok _ _ db () hok]
      rfl
    obtain ⟨hat, husers⟩ := prepareDb_reaches env db h () hprep
    rw [Program.bind_ok _ _ db () hprep]
    exact (commitDb_ok env.now _ hat husers).1

theorem initDb_current (env : BootEnv) (db : Database) (h : Released db)
    (hok : (initDb env db).result = .ok ()) : AtVersion schemaVersion (initDb env db).state := by
  have hmigrate := (initDb_ok_iff env db h).mp hok
  have hprep : (prepareDb env db).result = .ok () := by
    rw [prepareDb, Program.bind_ok _ _ db () hmigrate]
    rfl
  obtain ⟨hat, husers⟩ := prepareDb_reaches env db h () hprep
  rw [initDb_eq, Program.bind_ok _ _ db () hprep]
  exact (commitDb_ok env.now _ hat husers).2

/-! ### Which migrations return -/

theorem dropTable_ok (name : String) (db : Database)
    (h : ∀ k ∈ restricting name, Absent k db) : (dropTable name db).result = .ok () := by
  have hfree : (restricting name).any (hasRows db) = false := by
    refine List.any_eq_false.mpr fun k hk => ?_
    have hnone : db.tables.get? k = none := h k hk
    simp only [hasRows, hnone, Bool.false_eq_true, not_false_eq_true]
  rw [dropTable, Program.get_bind_run]
  split
  · rfl
  · rw [hfree]
    rfl

theorem autocommit_result (m : DbM Unit) (db : Database) (h : (m db).result = .ok ()) :
    (autocommit m db).result = .ok () := by
  rw [autocommit, Program.bind_ok _ _ db () h]
  rfl

/-- No table comes before those whose rows refer to it. -/
def childrenFirst : List String → List String → Bool
  | _, [] => true
  | gone, name :: rest => (restricting name).all (· ∈ gone) && childrenFirst (name :: gone) rest

theorem drops_ok (version : ℤ) (l gone : List String) (hd : ∀ n ∈ l, Doomed version n)
    (hl : childrenFirst gone l = true) (db : Database) (h : AtVersion version db)
    (hgone : ∀ k ∈ gone, Absent k db) :
    (Program.forEach (fun table => autocommit (dropTable table)) l db).result = .ok () := by
  induction l generalizing gone db with
  | nil => rfl
  | cons name l ih =>
    rw [childrenFirst, Bool.and_eq_true, List.all_eq_true] at hl
    have hfree : ∀ k ∈ restricting name, Absent k db := fun k hk =>
      hgone k (of_decide_eq_true (hl.1 k hk))
    have hok := autocommit_result _ db (dropTable_ok name db hfree)
    obtain ⟨hat, habsent⟩ :=
      dropTable_gone version name (hd name List.mem_cons_self) db h () hok
    rw [Program.forEach, Program.bind_ok _ _ db () hok]
    refine ih (name :: gone) (fun n hn => hd n (List.mem_cons_of_mem name hn)) hl.2 _ hat ?_
    intro k hk
    rcases List.mem_cons.mp hk with rfl | hk
    · exact habsent
    · exact absent_dropTable version name k (hd name List.mem_cons_self) db ⟨h, hgone k hk⟩ () hok

/-- The accounts whose blobs the upgrade to version 12 removes. -/
def accounts (db : Database) : List (ℤ × String) :=
  match db.tables.get? "exchange_accounts" with
  | none => []
  | some t => t.rows.filterMap (accountOf t)

/-- A start that is let through: a version this code knows, the consent of the operator
where deals would be dropped, and blobs that can be named where accounts would be. -/
structure Admissible (env : BootEnv) (db : Database) : Prop where
  known : 0 ≤ db.userVersion ∧ db.userVersion ≤ schemaVersion
  consent : db.userVersion < lastDestructiveVersion → hasExistingOwnedData db = true →
    env.optIn = true
  blobs : db.userVersion < 12 → ∀ a ∈ accounts db,
    isSafeLeaf a.2 = true ∧ env.credentialsSymlink = false

theorem unlinkBlob_ok_iff (env : BootEnv) (a : ℤ × String) (db : Database) :
    (unlinkBlob env a db).result = .ok () ↔
      isSafeLeaf a.2 = true ∧ env.credentialsSymlink = false := by
  cases hleaf : isSafeLeaf a.2 with
  | false => simp [unlinkBlob, hleaf]
  | true =>
    cases hlink : env.credentialsSymlink with
    | true => simp [unlinkBlob, hleaf, hlink]
    | false =>
      have hrun : unlinkBlob env a = if env.unlinkFails a.1 a.2 then pure () else
          autocommit (Program.modify fun db => { db with blobs := db.blobs.erase a }) := by
        simp [unlinkBlob, hleaf, hlink]
      rw [hrun]
      split
      · exact ⟨fun _ => ⟨rfl, rfl⟩, fun _ => rfl⟩
      · exact ⟨fun _ => ⟨rfl, rfl⟩, fun _ => rfl⟩

theorem unlinks_ok_iff (env : BootEnv) (l : List (ℤ × String)) (db : Database) :
    (Program.forEach (unlinkBlob env) l db).result = .ok () ↔
      ∀ a ∈ l, isSafeLeaf a.2 = true ∧ env.credentialsSymlink = false := by
  induction l generalizing db with
  | nil => exact ⟨fun _ _ ha => absurd ha List.not_mem_nil, fun _ => rfl⟩
  | cons a l ih =>
    rw [Program.forEach, List.forall_mem_cons, ← unlinkBlob_ok_iff env a db]
    cases hr : (unlinkBlob env a db).result with
    | error e =>
      rw [Program.bind_error _ _ db e hr]
      constructor
      · intro h
        cases h
      · intro h
        cases h.1
    | ok b =>
      rw [Program.bind_ok _ _ db b hr]
      exact (ih _).trans ⟨fun h => ⟨rfl, h⟩, fun h => h.2⟩

theorem additions_exchange (db : Database) (version : ℤ) (h : AtVersion version db) :
    (applyColumnAdditions db).state.tables.get? "exchange_accounts" =
      db.tables.get? "exchange_accounts" := by
  rw [(applyColumnAdditions_run db).2.1]
  change (widenTables addedColumns db.tables).get? "exchange_accounts" = _
  rw [get?_widenTables]
  dsimp only
  cases ht : db.tables.get? "exchange_accounts" with
  | none => rfl
  | some t =>
    have hname := (h.2.columns _ t ht).1
    have hne : t.name ≠ "users" := by
      rw [hname]
      decide
    exact congrArg some (widen_of_ne t hne)

/-- The drop of the accounts succeeds when their blobs can be named. -/
theorem recreates_ok_iff (env : BootEnv) (version : ℤ) (db : Database) (h : AtVersion version db) :
    (applyDestructiveTableRecreates env version db).result = .ok () ↔
      (version < 12 → ∀ a ∈ accounts db, isSafeLeaf a.2 = true ∧ env.credentialsSymlink = false) := by
  unfold applyDestructiveTableRecreates accounts
  by_cases hv : version < 12
  · rw [if_pos hv, Program.get_bind_run]
    cases ht : db.tables.get? "exchange_accounts" with
    | none => exact ⟨fun _ _ _ ha => absurd ha List.not_mem_nil, fun _ => rfl⟩
    | some t =>
      have hcols := (h.2.columns _ t ht).2
      rw [columnsAt_exchange version hv] at hcols
      have huser : t.hasColumn "user_id" = true := hcols ⟨"user_id", .value .null⟩ (by decide)
      have huuid : t.hasColumn "credentials_uuid" = true :=
        hcols ⟨"credentials_uuid", .value .null⟩ (by decide)
      simp only [huser, huuid, Bool.and_self, if_true, hv, forall_const]
      rw [← unlinks_ok_iff env _ db]
      cases hr : (Program.forEach (unlinkBlob env) (t.rows.filterMap (accountOf t)) db).result with
      | error e => rw [Program.bind_error _ _ db e hr]
      | ok b =>
        rw [Program.bind_ok _ _ db b hr]
        refine ⟨fun _ => rfl, fun _ => ?_⟩
        refine autocommit_result _ _ (dropTable_ok _ _ fun k hk => ?_)
        exact absurd hk List.not_mem_nil
  · rw [if_neg hv]
    exact ⟨fun _ hc => absurd hc hv, fun _ => rfl⟩

theorem guard_ok_iff (env : BootEnv) (version : ℤ) (db : Database) :
    (destructiveGuard env version db).result = .ok () ↔
      (hasExistingOwnedData db = true → env.optIn = true) := by
  rw [destructiveGuard, Program.get_bind_run]
  cases hdata : hasExistingOwnedData db with
  | false => exact ⟨fun _ hc => (nomatch hc), fun _ => rfl⟩
  | true =>
    cases hopt : env.optIn with
    | false => exact ⟨fun h => (nomatch h), fun h => (nomatch h rfl)⟩
    | true => exact ⟨fun _ _ => rfl, fun _ => rfl⟩

theorem guard_state (env : BootEnv) (version : ℤ) (db : Database) :
    (destructiveGuard env version db).state = db := by
  rw [destructiveGuard, Program.get_bind_run]
  split
  · split
    · rfl
    · rfl
  · rfl

theorem destructivePath_ok_iff (env : BootEnv) (version : ℤ) (db : Database)
    (h : AtVersion version db) : (destructivePath env version db).result = .ok () ↔
      (version < lastDestructiveVersion → hasExistingOwnedData db = true → env.optIn = true) := by
  unfold destructivePath
  by_cases hv : version < lastDestructiveVersion
  · rw [if_pos hv]
    have hguard := guard_ok_iff env version db
    cases hr : (destructiveGuard env version db).result with
    | error e =>
      rw [hr] at hguard
      rw [Program.bind_error _ _ db e hr]
      exact ⟨fun h => (nomatch h), fun h => (nomatch hguard.mpr (h hv))⟩
    | ok a =>
      rw [hr] at hguard
      rw [Program.bind_ok _ _ db a hr, guard_state]
      refine ⟨fun _ _ => hguard.mp rfl, fun _ => ?_⟩
      exact drops_ok version ownedTables [] (fun n hn => Or.inl ⟨hv, hn⟩) (by decide) db h
        fun k hk => absurd hk List.not_mem_nil
  · rw [if_neg hv]
    exact ⟨fun _ hc => absurd hc hv, fun _ => rfl⟩

/-- Below the version that brought them there are no accounts. -/
theorem accounts_nil (db : Database) (h : Released db) (hv : db.userVersion < 11) :
    accounts db = [] := by
  unfold accounts
  cases ht : db.tables.get? "exchange_accounts" with
  | none => rfl
  | some t =>
    have hlater := h.introduced _ t ht
    have : introducedIn "exchange_accounts" = 11 := by decide
    omega

theorem accounts_congr (db db' : Database)
    (h : db'.tables.get? "exchange_accounts" = db.tables.get? "exchange_accounts") :
    accounts db' = accounts db := by
  unfold accounts
  rw [h]

theorem upgradeBody_ok_iff (env : BootEnv) (db : Database) (h : Released db) :
    (upgradeBody db.userVersion env db).result = .ok () ↔
      (db.userVersion < lastDestructiveVersion → hasExistingOwnedData db = true →
        env.optIn = true) ∧
      (db.userVersion < 12 → ∀ a ∈ accounts db,
        isSafeLeaf a.2 = true ∧ env.credentialsSymlink = false) := by
  have hat : AtVersion db.userVersion db := (released_iff db).mp h
  have hpath := destructivePath_ok_iff env db.userVersion db hat
  unfold upgradeBody
  cases hr : (destructivePath env db.userVersion db).result with
  | error e =>
    rw [hr] at hpath
    rw [Program.bind_error _ _ db e hr]
    exact ⟨fun h => (nomatch h), fun h => (nomatch hpath.mpr h.1)⟩
  | ok a =>
    rw [hr] at hpath
    have hat' : AtVersion db.userVersion (destructivePath env db.userVersion db).state :=
      (destructivePath_toward db.userVersion env db hat).1.1
    have hadd := applyColumnAdditions_run (destructivePath env db.userVersion db).state
    rw [Program.bind_ok _ _ db a hr]
    dsimp only
    rw [Program.bind_ok _ _ _ () hadd.1]
    have hat'' := atVersion_additions db.userVersion _ hat'
    have hexchange := additions_exchange _ _ hat'
    have hrecreates := recreates_ok_iff env db.userVersion _ hat''
    refine (hrecreates.trans ?_).trans ⟨fun h => ⟨hpath.mp rfl, h⟩, fun h => h.2⟩
    by_cases hold : db.userVersion < lastDestructiveVersion
    · have hnone : accounts db = [] := accounts_nil db h (by
        have : lastDestructiveVersion = 4 := rfl
        omega)
      have hnone' : accounts (applyColumnAdditions
          (destructivePath env db.userVersion db).state).state = [] := by
        refine accounts_nil _ (released_of_atVersion _ _ hat'') ?_
        rw [hat''.1]
        have : lastDestructiveVersion = 4 := rfl
        omega
      rw [hnone, hnone']
    · have hsame : (destructivePath env db.userVersion db).state = db := by
        rw [destructivePath, if_neg hold]
        rfl
      rw [accounts_congr _ _ hexchange, hsame]

/-- A start returns exactly when it is admissible. -/
theorem initDb_returns_iff (env : BootEnv) (db : Database) (h : Released db) :
    (initDb env db).result = .ok () ↔ Admissible env db := by
  rw [initDb_ok_iff env db h]
  by_cases hrefused : db.userVersion < 0 ∨ schemaVersion < db.userVersion
  · obtain ⟨e, he⟩ := migrateSchema_refused env db hrefused
    rw [he]
    refine ⟨fun hc => (nomatch hc), fun hc => ?_⟩
    rcases hrefused with hlow | hhigh
    · exact absurd hc.known.1 (not_le.mpr hlow)
    · exact absurd hc.known.2 (not_le.mpr hhigh)
  have hmin : 0 ≤ db.userVersion := not_lt.mp (not_or.mp hrefused).1
  have hmax : db.userVersion ≤ schemaVersion := not_lt.mp (not_or.mp hrefused).2
  rcases eq_or_lt_of_le hmax with hcurrent | hv
  · rw [migrateSchema_current env db hcurrent]
    refine ⟨fun _ => ⟨⟨hmin, hmax⟩, ?_, ?_⟩, fun _ => rfl⟩
    · intro hc
      rw [hcurrent] at hc
      exact absurd hc (by decide)
    · intro hc
      rw [hcurrent] at hc
      exact absurd hc (by decide)
  · rw [migrateSchema_old env db hmin hv]
    have hbody := upgradeBody_ok_iff env db h
    cases hr : (upgradeBody db.userVersion env db).result with
    | error e =>
      rw [hr] at hbody
      rw [Program.bind_error _ _ db e hr]
      exact ⟨fun hc => (nomatch hc), fun hc => (nomatch hbody.mpr ⟨hc.consent, hc.blobs⟩)⟩
    | ok a =>
      rw [hr] at hbody
      rw [Program.bind_ok _ _ db a hr]
      obtain ⟨hconsent, hblobs⟩ := hbody.mp rfl
      exact ⟨fun _ => ⟨⟨hmin, hmax⟩, hconsent, hblobs⟩, fun _ => rfl⟩

theorem hasColumn_iff (t : Table) (name : String) :
    t.hasColumn name = true ↔ ∃ c ∈ t.columns, c.name = name := by
  simp only [Table.hasColumn, List.any_eq_true, decide_eq_true_eq]

theorem field_inserted (t : Table) (value : Column → SqlValue) (name : String)
    (h : t.hasColumn name = true) :
    ∃ c, c.name = name ∧ t.field (t.columns.map value) name = some (value c) := by
  have hex : ∃ c ∈ t.columns, (decide (c.name = name)) = true := by
    obtain ⟨c, hc, hname⟩ := (hasColumn_iff t name).mp h
    exact ⟨c, hc, decide_eq_true hname⟩
  have hlt := List.findIdx_lt_length_of_exists hex
  refine ⟨t.columns[t.columns.findIdx fun c => decide (c.name = name)], ?_, ?_⟩
  · exact of_decide_eq_true (List.findIdx_getElem (w := hlt))
  · rw [Table.field, List.getElem?_map, List.getElem?_eq_getElem hlt]
    rfl

/-- A second start finds the admin there. -/
theorem seedAdmin_again (now now' : String) (t : Table) (h : t.hasColumn "id" = true) :
    seedAdmin now' (seedAdmin now t) = seedAdmin now t := by
  have hclash : (seedAdmin now t).rows.any (clashesWithAdmin (seedAdmin now t)) = true := by
    by_cases hthere : t.rows.any (clashesWithAdmin t) = true
    · rw [seedAdmin, if_pos hthere]
      exact hthere
    · rw [seedAdmin, if_neg hthere]
      obtain ⟨c, hname, hfield⟩ := field_inserted t (adminValue now) "id" h
      refine List.any_eq_true.mpr ⟨t.columns.map (adminValue now),
        List.mem_append_right _ (List.mem_singleton_self _), ?_⟩
      have hid : adminValue now c = .int 1 := by rw [adminValue, if_pos hname]
      have hsame : (t.insert (adminValue now)).field (t.columns.map (adminValue now)) "id" =
          some (.int 1) := hid ▸ hfield
      rw [clashesWithAdmin, hsame]
      rfl
  rw [seedAdmin, if_pos hclash]

/-- After a start that returned, further starts return and change no table. -/
theorem initDb_again (env : BootEnv) (db : Database) (h : Released db)
    (hok : (initDb env db).result = .ok ()) (env' : BootEnv) :
    (initDb env' (initDb env db).state).result = .ok () ∧
      ∀ name, (initDb env' (initDb env db).state).state.tables.get? name =
        (initDb env db).state.tables.get? name := by
  have hat := initDb_current env db h hok
  have hrel := released_of_atVersion _ _ hat
  have hadmissible : Admissible env' (initDb env db).state := by
    refine ⟨?_, fun hc => ?_, fun hc => ?_⟩
    · rw [hat.1]
      exact ⟨by decide, le_rfl⟩
    · rw [hat.1] at hc
      exact absurd hc (by decide)
    · rw [hat.1] at hc
      exact absurd hc (by decide)
  have hagain := (initDb_returns_iff env' _ hrel).mpr hadmissible
  refine ⟨hagain, fun name => ?_⟩
  rw [(initDb_reaches env' _ hrel () hagain).2 name, upgraded_eq _ _ _ hat.1, keeps,
    keptTable_current]
  have hfind := (initDb_reaches env db h () hok).2 name
  rw [upgraded_eq env.now db _ rfl name] at hfind
  by_cases hname : name = "users"
  · subst hname
    rw [if_pos rfl] at hfind ⊢
    obtain ⟨t, ht⟩ : ∃ t, (keeps db.userVersion db "users").or (schemaTable "users") = some t := by
      cases keeps db.userVersion db "users" with
      | none => exact ⟨_, rfl⟩
      | some t => exact ⟨t, rfl⟩
    rw [ht, Option.map_some] at hfind
    have hcols := (hat.2.columns _ _ hfind).2
    have hid : t.hasColumn "id" = true := by
      have hnew := hcols ⟨"id", .value .null⟩ (by decide)
      rw [Table.hasColumn, seedAdmin_columns] at hnew
      exact hnew
    rw [hfind, Option.some_or, Option.map_some, seedAdmin_again _ _ t hid]
  · rw [if_neg hname] at hfind ⊢
    rw [hfind]
    cases keeps db.userVersion db name with
    | none => exact Option.or_self
    | some t => rfl

/-- However often a start was cut before its commit: the start that returns leaves the
tables that an uninterrupted first one would have left, at the current version, and
later starts return and leave them alone. -/
theorem upgrade_survives_cuts (env : BootEnv) (db db' : Database) (h : Released db)
    (hcut : Resume.Attempts DbEvent.land prepareDb db db')
    (hok : (initDb env db').result = .ok ()) :
    (initDb env db').state.userVersion = schemaVersion ∧
      (∀ name, (initDb env db').state.tables.get? name = upgraded env.now db name) ∧
      ∀ env' : BootEnv, (initDb env' (initDb env db').state).result = .ok () ∧
        ∀ name, (initDb env' (initDb env db').state).state.tables.get? name =
          (initDb env db').state.tables.get? name := by
  obtain ⟨h', hgoal⟩ := Resume.attempts_toward DbEvent.land Released outcome prepareDb
    toward_prepareDb db db' h hcut
  obtain ⟨hversion, hfind⟩ := initDb_reaches env db' h' () hok
  refine ⟨hversion, fun name => ?_, initDb_again env db' h' hok⟩
  rw [hfind name]
  exact congrFun (congrFun hgoal env.now) name

/-- A start in the given second, with the operator's consent. -/
def consenting (timestamp now : String) : BootEnv := ⟨true, timestamp, now, false, fun _ _ => false⟩

/-- A first release with a deal in it. -/
def firstRelease : Database where
  userVersion := 1
  tables := ⟨[Table.empty "deals" (plain ["id"]) |>.insert fun _ => .text "d1"], by decide⟩
  blobs := []

theorem released_firstRelease : Released firstRelease := by
  have hall : ∀ t ∈ firstRelease.tables.items, introducedIn t.name ≤ 1 ∧
      columnsAt 1 t.name = [] := by decide
  refine ⟨fun name t ht => ?_, fun name t ht => ?_⟩
  · obtain ⟨hmem, rfl⟩ := KeyedDict.get?_mem _ _ _ ht
    exact (hall t hmem).1
  · obtain ⟨hmem, rfl⟩ := KeyedDict.get?_mem _ _ _ ht
    refine ⟨rfl, fun c hc => ?_⟩
    have hnone : columnsAt firstRelease.userVersion t.name = [] := (hall t hmem).2
    rw [hnone] at hc
    exact absurd hc List.not_mem_nil

/-- An upgrade that is cut after the backup and four drops. -/
theorem firstRelease_survives_cut :
    ((initDb (consenting "20250101-000001" "t1") (Resume.cutAt DbEvent.land
        (prepareDb (consenting "20250101-000000" "t0")) firstRelease 6)).state.tables.get?
          "deals") = some (Table.empty "deals" dealsColumns) := by
  have hcut : Resume.Attempts DbEvent.land prepareDb firstRelease (Resume.cutAt DbEvent.land
      (prepareDb (consenting "20250101-000000" "t0")) firstRelease 6) :=
    .cut (consenting "20250101-000000" "t0") 6 firstRelease .start
  have h' := (Resume.attempts_toward DbEvent.land Released outcome prepareDb toward_prepareDb
    _ _ released_firstRelease hcut).1
  have hok := (initDb_returns_iff (consenting "20250101-000001" "t1") _ h').mpr
    ⟨by decide, fun _ _ => rfl, fun _ => by decide⟩
  rw [(upgrade_survives_cuts (consenting "20250101-000001" "t1") _ _ released_firstRelease hcut
    hok).2.1 "deals"]
  rfl

end Database

end Reverto
