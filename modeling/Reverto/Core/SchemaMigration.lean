import Mathlib.Tactic
import Reverto.Core.Database
import Reverto.Lib.Triples

/-!
# What an upgrade of the database makes of its tables (core/database.py)

A start of a process may be cut before its commit and repeated, at any version.
The tables it has when it gets through are a function of the tables before the
first attempt.
-/

namespace Reverto

namespace Database

/-! ### The tables an upgrade leaves -/

/-- The version that brought a table. -/
def introducedIn : String → ℤ
  | "changelog_entries" => 5
  | "dashboard_layouts" => 7
  | "audit_findings" => 8
  | "roadmap_phases" => 10
  | "exchange_accounts" => 11
  | "portfolio_snapshots" => 13
  | "telegram_configs" => 14
  | "telegram_link_tokens" => 14
  | _ => 0

/-- The statement that creates the table. -/
def SchemaStatement.creates (name : String) : SchemaStatement → Option Table
  | .createTable n columns => if n = name then some (Table.empty n columns) else none
  | _ => none

/-- The table as `_SCHEMA_STATEMENTS` creates it. -/
def schemaTable (name : String) : Option Table :=
  schemaStatements.findSome? (SchemaStatement.creates name)

/-- The columns that a table of a release at this version has. -/
def columnsAt (version : ℤ) (name : String) : List Column :=
  if version < lastDestructiveVersion ∧ name ∈ ownedTables then []
  else if version < 12 ∧ name = "exchange_accounts" then
    exchangeAccountsColumns.filter fun c => c.name ≠ "market_type"
  else if version < schemaVersion ∧ name = "users" then usersBase
  else ((schemaTable name).map Table.columns).getD []

/-- A database as some release left it: no table of a later version, and every
column that its version has. -/
structure ReleasedAt (version : ℤ) (find : String → Option Table) : Prop where
  introduced : ∀ name t, find name = some t → introducedIn name ≤ version
  columns : ∀ name t, find name = some t → t.name = name ∧
    ∀ c ∈ columnsAt version name, t.hasColumn c.name = true

def Released (db : Database) : Prop := ReleasedAt db.userVersion db.tables.get?

/-- What an upgrade from the version drops. -/
def Doomed (version : ℤ) (name : String) : Prop :=
  version < lastDestructiveVersion ∧ name ∈ ownedTables ∨
    version < 12 ∧ name = "exchange_accounts"

instance (version : ℤ) (name : String) : Decidable (Doomed version name) :=
  inferInstanceAs (Decidable (_ ∨ _))

/-- A table after some column additions. -/
def widenBy (l : List (Column × SqlValue)) (t : Table) : Table :=
  l.foldl (fun t cv => addColumnIfMissing "users" cv.1 cv.2 t) t

/-- `users` with the columns of the later versions. -/
def widen (t : Table) : Table := widenBy addedColumns t

/-- The old table as an upgrade keeps it. -/
def keptTable (version : ℤ) (find : String → Option Table) (name : String) : Option Table :=
  if Doomed version name then none
  else if version < schemaVersion then (find name).map widen
  else find name

/-- The table after an upgrade: kept where there is one to keep, else new; the
table of the users has the admin. -/
def upgraded (now : String) (db : Database) (name : String) : Option Table :=
  let made := (keptTable db.userVersion db.tables.get? name).or (schemaTable name)
  if name = "users" then made.map (seedAdmin now) else made

/-! ### Columns -/

theorem hasColumn_addColumn (t : Table) (c : Column) (v : SqlValue) (name : String) :
    (t.addColumn c v).hasColumn name = (t.hasColumn name || decide (c.name = name)) := by
  simp only [Table.hasColumn, Table.addColumn, List.any_append, List.any_cons, List.any_nil,
    Bool.or_false]

theorem addColumnIfMissing_of_has (c : Column) (v : SqlValue) (t : Table)
    (h : t.name = "users" → t.hasColumn c.name = true) : addColumnIfMissing "users" c v t = t := by
  unfold addColumnIfMissing
  split
  · rename_i hname
    rw [if_pos (h hname)]
  · rfl

theorem addColumnIfMissing_mono (c : Column) (v : SqlValue) (t : Table) (name : String)
    (h : t.hasColumn name = true) : (addColumnIfMissing "users" c v t).hasColumn name = true := by
  unfold addColumnIfMissing
  split
  · split
    · exact h
    · rw [hasColumn_addColumn, h, Bool.true_or]
  · exact h

theorem addColumnIfMissing_self (c : Column) (v : SqlValue) (t : Table) (h : t.name = "users") :
    (addColumnIfMissing "users" c v t).hasColumn c.name = true := by
  unfold addColumnIfMissing
  rw [if_pos h]
  split
  · assumption
  · rw [hasColumn_addColumn, decide_eq_true rfl, Bool.or_true]

theorem widenBy_cons (cv : Column × SqlValue) (l : List (Column × SqlValue)) (t : Table) :
    widenBy (cv :: l) t = widenBy l (addColumnIfMissing "users" cv.1 cv.2 t) := rfl

theorem widenBy_append (l l' : List (Column × SqlValue)) (t : Table) :
    widenBy (l ++ l') t = widenBy l' (widenBy l t) := List.foldl_append

theorem widenBy_name (l : List (Column × SqlValue)) (t : Table) : (widenBy l t).name = t.name := by
  induction l generalizing t with
  | nil => rfl
  | cons cv l ih => rw [widenBy_cons, ih, addColumnIfMissing_name]

theorem widenBy_mono (l : List (Column × SqlValue)) (t : Table) (name : String)
    (h : t.hasColumn name = true) : (widenBy l t).hasColumn name = true := by
  induction l generalizing t with
  | nil => exact h
  | cons cv l ih =>
    rw [widenBy_cons]
    exact ih _ (addColumnIfMissing_mono cv.1 cv.2 t name h)

theorem widenBy_has (l : List (Column × SqlValue)) (t : Table) (h : t.name = "users") :
    ∀ cv ∈ l, (widenBy l t).hasColumn cv.1.name = true := by
  induction l generalizing t with
  | nil => exact fun cv hcv => absurd hcv List.not_mem_nil
  | cons dv l ih =>
    intro cv hcv
    rw [widenBy_cons]
    rcases List.mem_cons.mp hcv with rfl | hcv
    · exact widenBy_mono l _ _ (addColumnIfMissing_self cv.1 cv.2 t h)
    · exact ih _ ((addColumnIfMissing_name "users" dv.1 dv.2 t).trans h) cv hcv

theorem widenBy_of_has (l : List (Column × SqlValue)) (t : Table)
    (h : t.name = "users" → ∀ cv ∈ l, t.hasColumn cv.1.name = true) : widenBy l t = t := by
  induction l with
  | nil => rfl
  | cons cv l ih =>
    rw [widenBy_cons, addColumnIfMissing_of_has cv.1 cv.2 t fun hname =>
      h hname cv List.mem_cons_self]
    exact ih fun hname dv hdv => h hname dv (List.mem_cons_of_mem cv hdv)

/-- Additions that were cut after some columns go on where they stopped. -/
theorem widen_widenBy (l l' : List (Column × SqlValue)) (hl : l ++ l' = addedColumns) (t : Table) :
    widen (widenBy l t) = widen t := by
  have hdone : widenBy l (widenBy l t) = widenBy l t :=
    widenBy_of_has l _ fun hname => widenBy_has l t ((widenBy_name l t).symm.trans hname)
  rw [widen, widen, ← hl, widenBy_append, widenBy_append, hdone]

theorem widen_of_ne (t : Table) (h : t.name ≠ "users") : widen t = t :=
  widenBy_of_has addedColumns t fun hname => absurd hname h

/-! ### Tables that an upgrade keeps -/

theorem not_doomed_current (name : String) : ¬ Doomed schemaVersion name := by
  rintro (⟨h, _⟩ | ⟨h, _⟩)
  · exact absurd h (by decide)
  · exact absurd h (by decide)

theorem keptTable_current (find : String → Option Table) : keptTable schemaVersion find = find := by
  funext name
  simp only [keptTable, if_neg (not_doomed_current name), lt_irrefl, if_false]

/-- Nothing changes for an upgrade when a table it drops is gone already. -/
theorem keptTable_drop (version : ℤ) (find : String → Option Table) (gone : String → Prop)
    [DecidablePred gone] (h : ∀ name, gone name → Doomed version name) :
    keptTable version (fun k => if gone k then none else find k) = keptTable version find := by
  funext name
  unfold keptTable
  by_cases hd : Doomed version name
  · rw [if_pos hd, if_pos hd]
  · have hg : ¬ gone name := fun hg => hd (h name hg)
    simp only [if_neg hd, if_neg hg]

theorem keptTable_widenBy (version : ℤ) (find : String → Option Table)
    (l l' : List (Column × SqlValue)) (hl : l ++ l' = addedColumns) (hv : version < schemaVersion) :
    keptTable version (fun k => (find k).map (widenBy l)) = keptTable version find := by
  funext name
  simp only [keptTable, if_pos hv, Option.map_map]
  split
  · rfl
  · congr 1
    funext t
    exact widen_widenBy l l' hl t

/-! ### Releases -/

section ReleasedAt

variable (version : ℤ) (find : String → Option Table)

theorem ReleasedAt.drop (h : ReleasedAt version find) (gone : String → Prop)
    [DecidablePred gone] : ReleasedAt version fun k => if gone k then none else find k where
  introduced name t ht := by
    split at ht
    · cases ht
    · exact h.introduced name t ht
  columns name t ht := by
    split at ht
    · cases ht
    · exact h.columns name t ht

theorem ReleasedAt.widenBy (h : ReleasedAt version find) (l : List (Column × SqlValue)) :
    ReleasedAt version fun k => (find k).map (widenBy l) where
  introduced name t ht := by
    obtain ⟨u, hu, rfl⟩ := Option.map_eq_some_iff.mp ht
    exact h.introduced name u hu
  columns name t ht := by
    obtain ⟨u, hu, rfl⟩ := Option.map_eq_some_iff.mp ht
    obtain ⟨hname, hcols⟩ := h.columns name u hu
    exact ⟨(widenBy_name l u).trans hname, fun c hc => widenBy_mono l u c.name (hcols c hc)⟩

theorem columnsAt_kept (name : String) (hd : ¬ Doomed version name) :
    ∀ c ∈ columnsAt schemaVersion name, c ∈ columnsAt version name ∨
      version < schemaVersion ∧ name = "users" ∧ c ∈ addedColumns.map Prod.fst := by
  intro c hc
  have hnow : columnsAt schemaVersion name = ((schemaTable name).map Table.columns).getD [] := by
    simp [columnsAt, schemaVersion, lastDestructiveVersion]
  have hthen : columnsAt version name = if version < schemaVersion ∧ name = "users" then usersBase
      else ((schemaTable name).map Table.columns).getD [] := by
    unfold columnsAt
    rw [if_neg fun h => hd (Or.inl h), if_neg fun h => hd (Or.inr h)]
  rw [hthen]
  split
  · rename_i husers
    obtain ⟨hv, rfl⟩ := husers
    rw [hnow] at hc
    have hcolumns : ((schemaTable "users").map Table.columns).getD [] =
        usersBase ++ addedColumns.map Prod.fst := by decide
    rw [hcolumns, List.mem_append] at hc
    exact hc.imp id fun h => ⟨hv, rfl, h⟩
  · left
    rw [← hnow]
    exact hc

theorem ReleasedAt.upgrade (h : ReleasedAt version find) (hv : version ≤ schemaVersion) :
    ReleasedAt schemaVersion (keptTable version find) where
  introduced name t ht := by
    unfold keptTable at ht
    split at ht
    · cases ht
    · split at ht
      · obtain ⟨u, hu, rfl⟩ := Option.map_eq_some_iff.mp ht
        exact (h.introduced name u hu).trans hv
      · exact (h.introduced name t ht).trans hv
  columns name t ht := by
    unfold keptTable at ht
    split at ht
    · cases ht
    · rename_i hd
      have hcols := columnsAt_kept version name hd
      split at ht
      · obtain ⟨u, hu, rfl⟩ := Option.map_eq_some_iff.mp ht
        obtain ⟨hname, hold⟩ := h.columns name u hu
        refine ⟨(widenBy_name _ u).trans hname, fun c hc => ?_⟩
        rcases hcols c hc with hc | ⟨_, husers, hc⟩
        · exact widenBy_mono _ u c.name (hold c hc)
        · obtain ⟨cv, hcv, rfl⟩ := List.mem_map.mp hc
          exact widenBy_has addedColumns u (hname.trans husers) cv hcv
      · rename_i hnew
        obtain ⟨hname, hold⟩ := h.columns name t ht
        refine ⟨hname, fun c hc => ?_⟩
        rcases hcols c hc with hc | ⟨hold', _⟩
        · exact hold c hc
        · exact absurd hold' hnew

end ReleasedAt

/-! ### Statements on the way -/

/-- A database of this version, as a release left it. -/
def AtVersion (version : ℤ) (db : Database) : Prop :=
  db.userVersion = version ∧ ReleasedAt version db.tables.get?

/-- What an upgrade keeps of the tables. -/
def keeps (version : ℤ) (db : Database) : String → Option Table :=
  keptTable version db.tables.get?

section Stages

variable (version : ℤ)

theorem toward_autocommit (I : Database → Prop) (goal : Database → String → Option Table)
    (m : DbM Unit) (hquiet : ∀ db, (m db).log = [])
    (h : ∀ db, I db → I (m db).state ∧ goal (m db).state = goal db) :
    Program.Respects (Resume.Toward DbEvent.land I goal) (autocommit m) := by
  intro db hI
  cases hr : (m db).result with
  | error e =>
    rw [autocommit, Program.bind_error m _ db e hr, hquiet]
    exact ⟨h db hI, fun _ hw => absurd hw List.not_mem_nil⟩
  | ok a =>
    rw [autocommit, Program.bind_ok m _ db a hr, hquiet]
    refine ⟨h db hI, fun w hw t ht => ?_⟩
    rw [List.nil_append] at hw
    rw [List.mem_singleton.mp hw] at ht
    cases ht
    exact h db hI

/-- Where the rows that follow a table of this name are not yet known, a drop
takes that table alone. -/
theorem cascading_later (name : String) (h : Doomed version name) :
    ∀ k ∈ cascading name, version < introducedIn k := by
  intro k hk
  rcases h with ⟨hv, hname⟩ | ⟨hv, rfl⟩
  · have hv' : version < 4 := hv
    simp only [ownedTables, List.mem_cons, List.not_mem_nil, or_false] at hname
    rcases hname with rfl | rfl | rfl | rfl | rfl
    · cases hk
    · cases hk
    · cases hk
    · cases hk
    · have hlater : ∀ k ∈ cascading "users", (5 : ℤ) ≤ introducedIn k := by decide
      have := hlater k hk
      omega
  · have hlater : ∀ k ∈ cascading "exchange_accounts", (13 : ℤ) ≤ introducedIn k := by decide
    have := hlater k hk
    omega

theorem get?_dropped (name : String) (hd : Doomed version name) (tables : KeyedDict Table.name)
    (h : ReleasedAt version tables.get?) :
    ((tables.mapValues (cascade name) (cascade_name name)).pop name).get? =
      fun k => if k = name then none else tables.get? k := by
  funext k
  by_cases hk : k = name
  · rw [if_pos hk, hk, KeyedDict.get?_pop_self]
  · rw [if_neg hk, KeyedDict.get?_pop_of_ne _ _ _ hk, KeyedDict.get?_mapValues]
    cases ht : tables.get? k with
    | none => rfl
    | some t =>
      have hname := (h.columns k t ht).1
      have hfree : t.name ∉ cascading name := by
        intro hmem
        rw [hname] at hmem
        have hlater := cascading_later version name hd k hmem
        have := h.introduced k t ht
        omega
      simp only [Option.map_some, cascade, if_neg hfree]

/-- A drop fails and changes nothing, or the table is gone. -/
theorem dropTable_run (name : String) (hd : Doomed version name) (db : Database)
    (h : AtVersion version db) :
    (dropTable name db).log = [] ∧
      ((∃ e, (dropTable name db).result = .error e ∧ (dropTable name db).state = db) ∨
        (dropTable name db).result = .ok () ∧ (dropTable name db).state.userVersion = version ∧
          (dropTable name db).state.tables.get? =
            fun k => if k = name then none else db.tables.get? k) := by
  have hrun : dropTable name db = if (db.tables.get? name).isNone then ⟨.ok (), [], db⟩
      else if (restricting name).any (hasRows db) then ⟨.error (.foreignKey name), [], db⟩
      else ⟨.ok (), [], setTables
        ((db.tables.mapValues (cascade name) (cascade_name name)).pop name) db⟩ := by
    rw [dropTable, Program.get_bind_run]
    split
    · rfl
    · split
      · rfl
      · rfl
  rw [hrun]
  split
  · rename_i hnone
    refine ⟨rfl, Or.inr ⟨rfl, h.1, ?_⟩⟩
    funext k
    split
    · rename_i hk
      rw [hk]
      exact Option.isNone_iff_eq_none.mp hnone
    · rfl
  · split
    · exact ⟨rfl, Or.inl ⟨_, rfl, rfl⟩⟩
    · exact ⟨rfl, Or.inr ⟨rfl, h.1, get?_dropped version name hd db.tables h.2⟩⟩

theorem dropTable_quiet (name : String) (db : Database) : (dropTable name db).log = [] := by
  rw [dropTable, Program.get_bind_run]
  split
  · rfl
  · split
    · rfl
    · rfl

theorem toward_dropTable (name : String) (hd : Doomed version name) :
    Program.Respects (Resume.Toward DbEvent.land (AtVersion version) (keeps version))
      (autocommit (dropTable name)) := by
  refine toward_autocommit _ _ _ (dropTable_quiet name) fun db h => ?_
  obtain ⟨_, ⟨e, _, hstate⟩ | ⟨_, hversion, hfind⟩⟩ := dropTable_run version name hd db h
  · rw [hstate]
    exact ⟨h, rfl⟩
  · refine ⟨⟨hversion, ?_⟩, ?_⟩
    · rw [hfind]
      exact h.2.drop version _ (· = name)
    · rw [keeps, hfind]
      exact keptTable_drop version _ (· = name) fun k hk => hk ▸ hd

/-- The tables after the first column additions. -/
def widenTables (l : List (Column × SqlValue)) (tables : KeyedDict Table.name) :
    KeyedDict Table.name :=
  tables.mapValues (widenBy l) (widenBy_name l)

theorem get?_widenTables (l : List (Column × SqlValue)) (tables : KeyedDict Table.name) :
    (widenTables l tables).get? = fun k => (tables.get? k).map (widenBy l) := by
  funext k
  exact KeyedDict.get?_mapValues tables _ (widenBy_name l) k

/-- The loop of the column additions from some column on. -/
def additionsFrom (l : List (Column × SqlValue)) : DbM Unit :=
  Program.forEach addUsersColumn l

theorem additions_run (done l : List (Column × SqlValue)) (db : Database) :
    (additionsFrom l (setTables (widenTables done db.tables) db)).result = .ok () ∧
      (additionsFrom l (setTables (widenTables done db.tables) db)).state =
        setTables (widenTables (done ++ l) db.tables) db ∧
      ∀ w ∈ (additionsFrom l (setTables (widenTables done db.tables) db)).log,
        ∃ more rest, l = more ++ rest ∧
          w = .landed (setTables (widenTables (done ++ more) db.tables) db) := by
  induction l generalizing done with
  | nil =>
    rw [List.append_nil]
    exact ⟨rfl, rfl, fun _ hw => absurd hw List.not_mem_nil⟩
  | cons cv l ih =>
    have hstep : widenTables (done ++ [cv]) db.tables =
        (widenTables done db.tables).mapValues (addColumnIfMissing "users" cv.1 cv.2)
          (addColumnIfMissing_name "users" cv.1 cv.2) := by
      apply KeyedDict.ext
      simp only [widenTables, KeyedDict.mapValues_items, List.map_map]
      refine List.map_congr_left fun t _ => ?_
      rw [widenBy_append]
      rfl
    have hrun : additionsFrom (cv :: l) (setTables (widenTables done db.tables) db) =
        ⟨(additionsFrom l (setTables (widenTables (done ++ [cv]) db.tables) db)).result,
          .landed (setTables (widenTables (done ++ [cv]) db.tables) db) ::
            (additionsFrom l (setTables (widenTables (done ++ [cv]) db.tables) db)).log,
          (additionsFrom l (setTables (widenTables (done ++ [cv]) db.tables) db)).state⟩ := by
      rw [hstep]
      rfl
    obtain ⟨hresult, hstate, hlog⟩ := ih (done ++ [cv])
    rw [hrun]
    refine ⟨hresult, ?_, fun w hw => ?_⟩
    · rw [hstate, List.append_assoc]
      rfl
    · rcases List.mem_cons.mp hw with rfl | hw
      · exact ⟨[cv], l, rfl, rfl⟩
      · obtain ⟨more, rest, rfl, rfl⟩ := hlog w hw
        exact ⟨cv :: more, rest, rfl, by rw [List.append_assoc]; rfl⟩

theorem widenTables_nil (tables : KeyedDict Table.name) : widenTables [] tables = tables := by
  apply KeyedDict.ext
  exact List.map_id _

theorem applyColumnAdditions_run (db : Database) :
    (applyColumnAdditions db).result = .ok () ∧
      (applyColumnAdditions db).state = setTables (widenTables addedColumns db.tables) db ∧
      ∀ w ∈ (applyColumnAdditions db).log, ∃ more rest, addedColumns = more ++ rest ∧
        w = .landed (setTables (widenTables more db.tables) db) := by
  have h := additions_run [] addedColumns db
  rw [widenTables_nil] at h
  exact h

theorem atVersion_widened (db : Database) (h : AtVersion version db) (l : List (Column × SqlValue)) :
    AtVersion version (setTables (widenTables l db.tables) db) := by
  refine ⟨h.1, ?_⟩
  change ReleasedAt version (widenTables l db.tables).get?
  rw [get?_widenTables]
  exact h.2.widenBy version _ l

theorem atVersion_additions (db : Database) (h : AtVersion version db) :
    AtVersion version (applyColumnAdditions db).state := by
  rw [(applyColumnAdditions_run db).2.1]
  exact atVersion_widened version db h addedColumns

theorem toward_additions (hv : version < schemaVersion) :
    Program.Respects (Resume.Toward DbEvent.land (AtVersion version) (keeps version))
      applyColumnAdditions := by
  intro db h
  obtain ⟨_, hstate, hlog⟩ := applyColumnAdditions_run db
  have hpart : ∀ more rest, addedColumns = more ++ rest →
      AtVersion version (setTables (widenTables more db.tables) db) ∧
        keeps version (setTables (widenTables more db.tables) db) = keeps version db := by
    intro more rest hl
    refine ⟨atVersion_widened version db h more, ?_⟩
    change keptTable version (widenTables more db.tables).get? = _
    rw [get?_widenTables]
    exact keptTable_widenBy version _ more rest hl.symm hv
  rw [hstate]
  refine ⟨hpart addedColumns [] (List.append_nil _).symm, fun w hw t ht => ?_⟩
  obtain ⟨more, rest, hl, rfl⟩ := hlog w hw
  cases ht
  exact hpart more rest hl

theorem toward_unlinkBlob (env : BootEnv) (account : ℤ × String) :
    Program.Respects (Resume.Toward DbEvent.land (AtVersion version) (keeps version))
      (unlinkBlob env account) := by
  have hR := Resume.traceRel_toward DbEvent.land (AtVersion version) (keeps version)
  unfold unlinkBlob
  refine Program.respects_ite _ _ _ (Program.respects_raise hR _) ?_
  refine Program.respects_ite _ _ _ (Program.respects_raise hR _) ?_
  refine Program.respects_ite _ _ _ (Program.respects_pure hR _) ?_
  exact toward_autocommit _ _ _ (fun _ => rfl) fun db h => ⟨h, rfl⟩

theorem toward_recreates (env : BootEnv) :
    Program.Respects (Resume.Toward DbEvent.land (AtVersion version) (keeps version))
      (applyDestructiveTableRecreates env version) := by
  have hR := Resume.traceRel_toward DbEvent.land (AtVersion version) (keeps version)
  unfold applyDestructiveTableRecreates
  split
  · rename_i hv
    refine Program.respects_get_bind _ fun db => ?_
    have hdrop := toward_dropTable version "exchange_accounts" (Or.inr ⟨hv, rfl⟩)
    cases db.tables.get? "exchange_accounts" with
    | none => exact Program.respects_pure hR () db
    | some t =>
      dsimp only
      split
      · refine Program.respects_bind hR _ _ ?_ (fun _ => hdrop) db
        exact Program.respects_forEach hR _ _ fun a _ => toward_unlinkBlob version env a
      · exact Program.respects_pure hR () db
  · exact Program.respects_pure hR ()

theorem toward_guard (env : BootEnv) :
    Program.Respects (Resume.Toward DbEvent.land (AtVersion version) (keeps version))
      (destructiveGuard env version) := by
  have hR := Resume.traceRel_toward DbEvent.land (AtVersion version) (keeps version)
  refine Program.respects_get_bind _ fun db => ?_
  split
  · split
    · intro h
      refine ⟨⟨h, rfl⟩, fun w hw t ht => ?_⟩
      have hw' : w = .backupStarted ("pre-migration-backup-" ++ env.timestamp ++ ".db") ∨
          w = .backupDone ("pre-migration-backup-" ++ env.timestamp ++ ".db") db := by
        change w ∈ [_, _] at hw
        simpa using hw
      rcases hw' with rfl | rfl
      · cases ht
      · cases ht
    · exact Program.respects_raise hR _ db
  · exact Program.respects_pure hR () db

end Stages

/-! ### What the stages reach -/

section Reached

variable (version : ℤ)

theorem atVersion_triple {α : Type} (m : DbM α)
    (h : Program.Respects (Resume.Toward DbEvent.land (AtVersion version) (keeps version)) m) :
    Program.Triple (AtVersion version) m fun _ => AtVersion version :=
  fun db hdb _ _ => (h db hdb).1.1

theorem autocommit_state (m : DbM Unit) (db : Database) : (autocommit m db).state = (m db).state := by
  rw [autocommit, Program.bind_run]
  cases (m db).result with
  | error e => rfl
  | ok a => rfl

theorem autocommit_ok (m : DbM Unit) (db : Database) (a : Unit)
    (h : (autocommit m db).result = .ok a) : (m db).result = .ok () := by
  rw [autocommit, Program.bind_run] at h
  cases hr : (m db).result with
  | error e =>
    rw [hr] at h
    cases h
  | ok a => rfl

theorem dropTable_gone (name : String) (hd : Doomed version name) :
    Program.Triple (AtVersion version) (autocommit (dropTable name)) fun _ db =>
      AtVersion version db ∧ db.tables.get? name = none := by
  intro db hdb a ha
  have hat := atVersion_triple version _ (toward_dropTable version name hd) db hdb a ha
  refine ⟨hat, ?_⟩
  rw [autocommit_state]
  obtain ⟨_, ⟨e, herr, _⟩ | ⟨_, _, hfind⟩⟩ := dropTable_run version name hd db hdb
  · rw [autocommit_ok _ db a ha] at herr
    cases herr
  · rw [hfind]
    exact if_pos rfl

/-- The table stays missing. -/
def Absent (name : String) (db : Database) : Prop := db.tables.get? name = none

theorem absent_dropTable (name k : String) (hd : Doomed version name) :
    Program.Triple (fun db => AtVersion version db ∧ Absent k db) (autocommit (dropTable name))
      fun _ => Absent k := by
  intro db hdb a ha
  rw [autocommit_state]
  obtain ⟨_, ⟨e, herr, _⟩ | ⟨_, _, hfind⟩⟩ := dropTable_run version name hd db hdb.1
  · rw [autocommit_ok _ db a ha] at herr
    cases herr
  · rw [Absent, hfind]
    dsimp only
    split
    · rfl
    · exact hdb.2

theorem dropOwned_gone (hv : version < lastDestructiveVersion) :
    Program.Triple (AtVersion version)
      (Program.forEach (fun table => autocommit (dropTable table)) ownedTables)
      fun _ db => AtVersion version db ∧ ∀ k ∈ ownedTables, Absent k db := by
  have hloop := Program.triple_forEach (fun table => autocommit (dropTable table))
    (fun l db => AtVersion version db ∧ (∀ k ∈ l, k ∈ ownedTables) ∧
      ∀ k ∈ ownedTables, k ∈ l ∨ Absent k db) ?_ ownedTables
  · refine Program.triple_weaken _ _ _ _ hloop ?_ ?_
    · exact fun db hdb => ⟨hdb, fun k hk => hk, fun k hk => Or.inl hk⟩
    · exact fun _ db hdb => ⟨hdb.1, fun k hk => (hdb.2.2 k hk).resolve_left List.not_mem_nil⟩
  · intro name l db ⟨hat, hsub, hall⟩ a ha
    have hd : Doomed version name := Or.inl ⟨hv, hsub name List.mem_cons_self⟩
    obtain ⟨hat', hgone⟩ := dropTable_gone version name hd db hat a ha
    refine ⟨hat', fun k hk => hsub k (List.mem_cons_of_mem name hk), fun k hk => ?_⟩
    rcases hall k hk with hmem | habsent
    · rcases List.mem_cons.mp hmem with rfl | hmem
      · exact Or.inr hgone
      · exact Or.inl hmem
    · exact Or.inr (absent_dropTable version name k hd db ⟨hat, habsent⟩ a ha)

/-- `users`, where it is there, has the columns of the later versions. -/
def Widened (db : Database) : Prop :=
  ∀ t, db.tables.get? "users" = some t → widen t = t

theorem additions_absent (k : String) (db : Database) (h : Absent k db) :
    Absent k (applyColumnAdditions db).state := by
  rw [(applyColumnAdditions_run db).2.1]
  change (widenTables addedColumns db.tables).get? k = none
  rw [get?_widenTables]
  exact congrArg (Option.map _) h

theorem additions_widened (db : Database) : Widened (applyColumnAdditions db).state := by
  intro t ht
  rw [(applyColumnAdditions_run db).2.1] at ht
  change (widenTables addedColumns db.tables).get? "users" = some t at ht
  rw [get?_widenTables] at ht
  obtain ⟨u, _, rfl⟩ := Option.map_eq_some_iff.mp ht
  exact widen_widenBy addedColumns [] (List.append_nil _) u

/-- Removing blobs touches no table. -/
theorem unlink_frame (env : BootEnv) (l : List (ℤ × String)) (db : Database) :
    (Program.forEach (unlinkBlob env) l db).state.userVersion = db.userVersion ∧
      (Program.forEach (unlinkBlob env) l db).state.tables = db.tables := by
  have hR := Program.traceRel_frame (ω := DbEvent) fun db : Database => (db.userVersion, db.tables)
  have hone : ∀ account, Program.Respects
      (fun (s : Database) (_ : List DbEvent) (s' : Database) =>
        (s'.userVersion, s'.tables) = (s.userVersion, s.tables)) (unlinkBlob env account) := by
    intro account
    unfold unlinkBlob
    refine Program.respects_ite _ _ _ (Program.respects_raise hR _) ?_
    refine Program.respects_ite _ _ _ (Program.respects_raise hR _) ?_
    refine Program.respects_ite _ _ _ (Program.respects_pure hR _) ?_
    exact fun _ => rfl
  have hall := Program.respects_forEach hR (unlinkBlob env) l (fun a _ => hone a) db
  exact Prod.mk.inj hall

theorem columnsAt_exchange (hv : version < 12) : columnsAt version "exchange_accounts" =
    exchangeAccountsColumns.filter fun c => c.name ≠ "market_type" := by
  have hnot : ¬ (version < lastDestructiveVersion ∧ "exchange_accounts" ∈ ownedTables) :=
    fun hc => absurd hc.2 (by decide)
  rw [columnsAt, if_neg hnot, if_pos ⟨hv, rfl⟩]

theorem recreates_find (env : BootEnv) (db : Database) (h : AtVersion version db) (a : Unit)
    (ha : (applyDestructiveTableRecreates env version db).result = .ok a) :
    (applyDestructiveTableRecreates env version db).state.tables.get? =
      fun k => if version < 12 ∧ k = "exchange_accounts" then none else db.tables.get? k := by
  unfold applyDestructiveTableRecreates at ha ⊢
  by_cases hv : version < 12
  · rw [if_pos hv, Program.get_bind_run] at ha ⊢
    cases ht : db.tables.get? "exchange_accounts" with
    | none =>
      rw [ht] at ha
      funext k
      by_cases hk : k = "exchange_accounts"
      · rw [if_pos ⟨hv, hk⟩, hk]
        exact ht
      · rw [if_neg fun hc => hk hc.2]
        rfl
    | some t =>
      have hcols := (h.2.columns _ t ht).2
      rw [columnsAt_exchange version hv] at hcols
      have huser : t.hasColumn "user_id" = true := hcols ⟨"user_id", .value .null⟩ (by decide)
      have huuid : t.hasColumn "credentials_uuid" = true :=
        hcols ⟨"credentials_uuid", .value .null⟩ (by decide)
      rw [ht] at ha
      simp only [huser, huuid, Bool.and_self, if_true] at ha ⊢
      obtain ⟨hversion, htables⟩ := unlink_frame env (t.rows.filterMap (accountOf t)) db
      generalize Program.forEach (unlinkBlob env) (t.rows.filterMap (accountOf t)) = m at *
      cases hr : (m db).result with
      | error e =>
        rw [Program.bind_error m _ db e hr] at ha
        cases ha
      | ok b =>
        rw [Program.bind_ok m _ db b hr] at ha ⊢
        have hat : AtVersion version (m db).state := by
          refine ⟨hversion.trans h.1, ?_⟩
          rw [htables]
          exact h.2
        have hd : Doomed version "exchange_accounts" := Or.inr ⟨hv, rfl⟩
        change (autocommit (dropTable "exchange_accounts") (m db).state).state.tables.get? = _
        rw [autocommit_state]
        obtain ⟨_, ⟨e, herr, _⟩ | ⟨_, _, hfind⟩⟩ := dropTable_run version _ hd _ hat
        · rw [autocommit_ok _ _ a ha] at herr
          cases herr
        · rw [hfind, htables]
          funext k
          simp only [hv, true_and]
  · rw [if_neg hv]
    funext k
    rw [if_neg fun hc => hv hc.1]
    rfl

theorem keeps_of_reached (db : Database) (h : AtVersion version db)
    (howned : version < lastDestructiveVersion → ∀ k ∈ ownedTables, Absent k db)
    (hexchange : version < 12 → Absent "exchange_accounts" db)
    (hwide : version < schemaVersion → Widened db) : keeps version db = db.tables.get? := by
  funext name
  unfold keeps keptTable
  split
  · rename_i hd
    rcases hd with ⟨hv, hname⟩ | ⟨hv, rfl⟩
    · exact (howned hv name hname).symm
    · exact (hexchange hv).symm
  · split
    · rename_i hv
      cases ht : db.tables.get? name with
      | none => rfl
      | some t =>
        rw [Option.map_some]
        have hname := (h.2.columns name t ht).1
        by_cases husers : name = "users"
        · rw [hwide hv t (husers ▸ ht)]
        · rw [widen_of_ne t fun hc => husers (hname.symm.trans hc)]
    · rfl

/-- `_migrate_schema` of an older version, before it sets the new one. -/
def upgradeBody (env : BootEnv) : DbM Unit := do
  destructivePath env version
  applyColumnAdditions
  applyDestructiveTableRecreates env version

theorem destructivePath_toward (env : BootEnv) :
    Program.Respects (Resume.Toward DbEvent.land (AtVersion version) (keeps version))
      (destructivePath env version) := by
  have hR := Resume.traceRel_toward DbEvent.land (AtVersion version) (keeps version)
  unfold destructivePath
  split
  · rename_i hold
    refine Program.respects_bind hR _ _ (toward_guard version env) fun _ => ?_
    refine Program.respects_forEach hR _ _ fun name hname => ?_
    exact toward_dropTable version name (Or.inl ⟨hold, hname⟩)
  · exact Program.respects_pure hR ()

theorem toward_upgradeBody (env : BootEnv) (hv : version < schemaVersion) :
    Program.Respects (Resume.Toward DbEvent.land (AtVersion version) (keeps version))
      (upgradeBody version env) := by
  have hR := Resume.traceRel_toward DbEvent.land (AtVersion version) (keeps version)
  refine Program.respects_bind hR _ _ (destructivePath_toward version env) fun _ => ?_
  refine Program.respects_bind hR _ _ (toward_additions version hv) fun _ => ?_
  exact toward_recreates version env

theorem upgradeBody_reaches (env : BootEnv) :
    Program.Triple (AtVersion version) (upgradeBody version env) fun _ db =>
      keeps version db = db.tables.get? := by
  have hfirst : Program.Triple (AtVersion version) (destructivePath env version) fun _ db =>
      AtVersion version db ∧
        (version < lastDestructiveVersion → ∀ k ∈ ownedTables, Absent k db) := by
    refine Program.triple_ite _ _ _ _ (fun hold => ?_) fun hnew => ?_
    · refine Program.triple_bind _ _ _ _
        (atVersion_triple version _ (toward_guard version env)) fun _ => ?_
      exact Program.triple_weaken _ _ _ _ (dropOwned_gone version hold) (fun _ h => h)
        fun _ _ h => ⟨h.1, fun _ => h.2⟩
    · exact Program.triple_pure () _ fun db h => ⟨h, fun hc => absurd hc hnew⟩
  refine Program.triple_bind _ _ _ _ hfirst fun _ => ?_
  refine Program.triple_bind _ _ (fun _ db => AtVersion version db ∧ Widened db ∧
    (version < lastDestructiveVersion → ∀ k ∈ ownedTables, Absent k db)) _ ?_ fun _ => ?_
  · intro db ⟨hat, hgone⟩ a ha
    exact ⟨atVersion_additions version db hat, additions_widened db,
      fun hold k hk => additions_absent k db (hgone hold k hk)⟩
  · intro db ⟨hat, hwide, hgone⟩ a ha
    have hat' := atVersion_triple version _ (toward_recreates version env) db hat a ha
    have hfind := recreates_find version env db hat a ha
    refine keeps_of_reached version _ hat' ?_ ?_ fun _ => ?_
    · intro hold k hk
      rw [Absent, hfind]
      dsimp only
      split
      · rfl
      · exact hgone hold k hk
    · intro hv12
      rw [Absent, hfind]
      exact if_pos ⟨hv12, rfl⟩
    · intro t ht
      rw [hfind] at ht
      exact hwide t (by simpa using ht)

end Reached

/-! ### Migrating -/

theorem upgraded_eq (now : String) (db : Database) (version : ℤ) (h : db.userVersion = version)
    (name : String) : upgraded now db name =
      if name = "users" then ((keeps version db name).or (schemaTable name)).map (seedAdmin now)
      else (keeps version db name).or (schemaTable name) := by
  rw [← h]
  rfl

/-- The tables an upgrade would leave, at any time of its commit. -/
def outcome (db : Database) (now : String) (name : String) : Option Table := upgraded now db name

theorem outcome_congr (version version' : ℤ) (db db' : Database) (h : db.userVersion = version)
    (h' : db'.userVersion = version') (hkeeps : keeps version' db' = keeps version db) :
    outcome db' = outcome db := by
  funext now name
  rw [outcome, outcome, upgraded_eq now db version h, upgraded_eq now db' version' h', hkeeps]

def setVersion (db : Database) : Database := { db with userVersion := schemaVersion }

/-- An older version is upgraded, and then the new one is set. -/
theorem migrateSchema_old (env : BootEnv) (db : Database) (hmin : 0 ≤ db.userVersion)
    (hv : db.userVersion < schemaVersion) : migrateSchema env db =
      (upgradeBody db.userVersion env >>= fun _ => autocommit (Program.modify setVersion)) db := by
  have hv' : db.userVersion < 14 := hv
  have hread : readSchemaVersion db = ⟨.ok db.userVersion, [], db⟩ := by
    rw [readSchemaVersion, Program.get_bind_run]
    rw [if_neg (by simp only [schemaVersionMin]; omega),
      if_neg (by simp only [schemaVersionMax]; omega), if_neg (by simp only [schemaVersion]; omega)]
    rfl
  have hne : db.userVersion ≠ schemaVersion := ne_of_lt hv
  rw [migrateSchema, Program.bind_ok _ _ db _ (by rw [hread]), hread]
  simp only [if_neg hne, upgradeBody, Program.bind_assoc, List.nil_append]
  rfl

theorem migrateSchema_current (env : BootEnv) (db : Database)
    (hv : db.userVersion = schemaVersion) : migrateSchema env db = ⟨.ok (), [], db⟩ := by
  have hread : readSchemaVersion db = ⟨.ok schemaVersion, [], db⟩ := by
    rw [readSchemaVersion, Program.get_bind_run, hv]
    rfl
  rw [migrateSchema, Program.bind_ok _ _ db _ (by rw [hread]), hread]
  rfl

/-- Versions that no release of this code has are refused. -/
theorem migrateSchema_refused (env : BootEnv) (db : Database)
    (hv : db.userVersion < 0 ∨ schemaVersion < db.userVersion) :
    ∃ e, migrateSchema env db = ⟨.error e, [], db⟩ := by
  have hread : ∃ e, readSchemaVersion db = ⟨.error e, [], db⟩ := by
    rw [readSchemaVersion, Program.get_bind_run]
    split
    · exact ⟨_, rfl⟩
    · split
      · exact ⟨_, rfl⟩
      · split
        · exact ⟨_, rfl⟩
        · rename_i hmin _ hnew
          rcases hv with hv | hv
          · exact absurd hv hmin
          · exact absurd hv hnew
  obtain ⟨e, he⟩ := hread
  refine ⟨e, ?_⟩
  rw [migrateSchema, Program.bind_error _ _ db e (by rw [he]), he]

theorem released_iff (db : Database) : Released db ↔ AtVersion db.userVersion db := by
  simp only [Released, AtVersion, true_and]

theorem released_of_atVersion (version : ℤ) (db : Database) (h : AtVersion version db) :
    Released db := by
  obtain ⟨rfl, h⟩ := h
  exact h

/-- When the body is done, the new version may be set. -/
theorem setVersion_reached (version : ℤ) (db : Database) (h : AtVersion version db)
    (hv : version < schemaVersion) (hreached : keeps version db = db.tables.get?) :
    AtVersion schemaVersion (setVersion db) ∧ outcome (setVersion db) = outcome db := by
  have hup := h.2.upgrade version _ hv.le
  have hkept : keptTable version db.tables.get? = db.tables.get? := hreached
  rw [hkept] at hup
  refine ⟨⟨rfl, hup⟩, outcome_congr version schemaVersion db (setVersion db) h.1 rfl ?_⟩
  rw [hreached]
  exact keptTable_current _

theorem toward_migrateSchema (env : BootEnv) :
    Program.Respects (Resume.Toward DbEvent.land Released outcome) (migrateSchema env) := by
  intro db h
  by_cases hrefused : db.userVersion < 0 ∨ schemaVersion < db.userVersion
  · obtain ⟨e, he⟩ := migrateSchema_refused env db hrefused
    rw [he]
    exact ⟨⟨h, rfl⟩, fun _ hw => absurd hw List.not_mem_nil⟩
  by_cases hcurrent : db.userVersion = schemaVersion
  · rw [migrateSchema_current env db hcurrent]
    exact ⟨⟨h, rfl⟩, fun _ hw => absurd hw List.not_mem_nil⟩
  have hv : db.userVersion < schemaVersion := by
    have := not_or.mp hrefused
    omega
  have hmin : 0 ≤ db.userVersion := not_lt.mp (not_or.mp hrefused).1
  have hat : AtVersion db.userVersion db := (released_iff db).mp h
  obtain ⟨⟨hat', hkeeps⟩, hon⟩ := toward_upgradeBody db.userVersion env hv db hat
  have hlift : ∀ t, AtVersion db.userVersion t → keeps db.userVersion t = keeps db.userVersion db →
      Released t ∧ outcome t = outcome db := fun t ht hk =>
    ⟨released_of_atVersion _ t ht, outcome_congr _ _ db t rfl ht.1 hk⟩
  rw [migrateSchema_old env db hmin hv]
  cases hr : (upgradeBody db.userVersion env db).result with
  | error e =>
    rw [Program.bind_error _ _ db e hr]
    refine ⟨hlift _ hat' hkeeps, fun w hw t ht => ?_⟩
    obtain ⟨hIt, hgt⟩ := hon w hw t ht
    exact hlift t hIt hgt
  | ok a =>
    have hreached := upgradeBody_reaches db.userVersion env db hat a hr
    obtain ⟨hset, hgoal⟩ := setVersion_reached _ _ hat' hv hreached
    have hlast : Released (setVersion (upgradeBody db.userVersion env db).state) ∧
        outcome (setVersion (upgradeBody db.userVersion env db).state) = outcome db :=
      ⟨released_of_atVersion _ _ hset, hgoal.trans (hlift _ hat' hkeeps).2⟩
    rw [Program.bind_ok _ _ db a hr]
    refine ⟨hlast, fun w hw t ht => ?_⟩
    rcases List.mem_append.mp hw with hw | hw
    · obtain ⟨hIt, hgt⟩ := hon w hw t ht
      exact hlift t hIt hgt
    · change w ∈ [DbEvent.landed (setVersion (upgradeBody db.userVersion env db).state)] at hw
      rw [List.mem_singleton.mp hw] at ht
      cases ht
      exact hlast

theorem migrateSchema_reaches (env : BootEnv) :
    Program.Triple Released (migrateSchema env) fun _ => AtVersion schemaVersion := by
  intro db h a ha
  by_cases hrefused : db.userVersion < 0 ∨ schemaVersion < db.userVersion
  · obtain ⟨e, he⟩ := migrateSchema_refused env db hrefused
    rw [he] at ha
    cases ha
  by_cases hcurrent : db.userVersion = schemaVersion
  · rw [migrateSchema_current env db hcurrent]
    exact hcurrent ▸ (released_iff db).mp h
  have hv : db.userVersion < schemaVersion := by
    have := not_or.mp hrefused
    omega
  have hmin : 0 ≤ db.userVersion := not_lt.mp (not_or.mp hrefused).1
  have hat : AtVersion db.userVersion db := (released_iff db).mp h
  rw [migrateSchema_old env db hmin hv] at ha ⊢
  cases hr : (upgradeBody db.userVersion env db).result with
  | error e =>
    rw [Program.bind_error _ _ db e hr] at ha
    cases ha
  | ok b =>
    have hreached := upgradeBody_reaches db.userVersion env db hat b hr
    have hat' := (toward_upgradeBody db.userVersion env hv db hat).1.1
    rw [Program.bind_ok _ _ db b hr]
    exact (setVersion_reached _ _ hat' hv hreached).1

end Database

end Reverto
