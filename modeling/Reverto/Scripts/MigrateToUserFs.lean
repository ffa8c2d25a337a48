import Mathlib.Tactic
import Reverto.Lib.KeyedDict
import Reverto.Lib.Resume
import Reverto.Lib.Triples

/-!
# The filesystem migration (scripts/migrate_to_user_fs.py)

The bots are stopped, so that the script is the only writer. It moves a directory entry with one
rename and may be killed between two of them; a later start finds what is on disk. Symbolic links
and the counts it prints are left out.
-/

namespace Reverto

namespace MigrateToUserFs

/-- The directories the script reads and writes, under `BASE`, for `USER_ID = 1`. -/
inductive Dir where
  | configBots
  | userBots
  | logs
  | userLogs
  | pids
  | userPids
  deriving DecidableEq, Repr

/-- `is_file()`, and what is in the file or below the directory. -/
structure Node where
  isFile : Bool
  content : String
  deriving DecidableEq, Repr

/-- A name in a directory. -/
structure Entry where
  path : Dir × String
  node : Node
  deriving DecidableEq, Repr

/-- The entries of these directories, and whether `logs/pids` is there. -/
structure Layout where
  entries : KeyedDict Entry.path
  pidsDir : Bool
  deriving DecidableEq

/-- A script; each event is the layout that a change leaves on disk. -/
abbrev Script := Program Empty Layout Layout

def land (t : Layout) : Option Layout := some t

def systemLogFiles : List String :=
  ["reverto.db", "reverto.db-wal", "reverto.db-shm", "audit.log", "audit.log.1", "audit.log.2",
    "audit.log.3", "portal.log", ".api_key_ephemeral", ".credentials.key", "credentials.json",
    ".auth.json"]

def systemLogPrefixes : List String :=
  ["audit.log.", ".credentials.key.", "credentials.json.", "portal.log."]

/-- `_is_system_log_file` -/
def isSystemLogFile (name : String) : Bool :=
  systemLogFiles.contains name || systemLogPrefixes.any fun p => p.toList.isPrefixOf name.toList

/-- `name.endswith(suffix)` -/
def endsWith (name suffix : String) : Bool := suffix.toList.isSuffixOf name.toList

/-- The node at a path. -/
def Layout.at? (t : Layout) (path : Dir × String) : Option Node := (t.entries.get? path).map Entry.node

/-- `sorted(dir.iterdir())`, the names. -/
def Layout.names (t : Layout) (dir : Dir) : List String :=
  ((t.entries.items.filter fun e => e.path.1 = dir).map fun e => e.path.2).insertionSort (· ≤ ·)

/-- `shutil.move` to a path that is free. -/
def Layout.rename (t : Layout) (src dst : Dir × String) (node : Node) : Layout :=
  { t with entries := (t.entries.pop src).set ⟨dst, node⟩ }

/-- One change of what is on disk. -/
def put (t : Layout) : Script Unit := Program.modify (fun _ => t) >>= fun _ => Program.emit t

/-- `_move` -/
def move (src dst : Dir × String) : Script Unit :=
  Program.get >>= fun t =>
    match t.at? src with
    | none => pure ()
    | some node => if (t.at? dst).isSome then pure () else put (t.rename src dst node)

/-- What a loop of the script scans, what it moves and where to. -/
structure Rule where
  source : Dir
  target : Dir
  listed : String → Bool
  moves : String → Node → Bool

/-- The body of a loop. -/
def Rule.visit (r : Rule) (name : String) : Script Unit :=
  Program.get >>= fun t =>
    match t.at? (r.source, name) with
    | none => pure ()
    | some node => if r.moves name node then move (r.source, name) (r.target, name) else pure ()

def Rule.run (r : Rule) : Script Unit :=
  Program.get >>= fun t => Program.forEach r.visit ((t.names r.source).filter r.listed)

def botConfigs : Rule where
  source := .configBots
  target := .userBots
  listed name := endsWith name ".yaml"
  moves _ _ := true

def logsAndState : Rule where
  source := .logs
  target := .userLogs
  listed _ := true
  moves name node := node.isFile && !isSystemLogFile name &&
    [".state.json", ".log", ".manual_trigger"].any fun suffix => endsWith name suffix

def pidFiles : Rule where
  source := .pids
  target := .userPids
  listed name := endsWith name ".pid"
  moves _ _ := true

/-- `migrate_bot_configs` -/
def migrateBotConfigs : Script Unit := botConfigs.run

/-- `migrate_logs_and_state` -/
def migrateLogsAndState : Script Unit := logsAndState.run

/-- `migrate_pid_files`; the directory is removed when nothing is left in it. -/
def migratePidFiles : Script Unit :=
  Program.get >>= fun t =>
    if t.pidsDir then
      pidFiles.run >>= fun _ => Program.get >>= fun t =>
        if (t.names .pids).isEmpty then put { t with pidsDir := false } else pure ()
    else pure ()

/-- `main` -/
def main : Script Unit :=
  migrateBotConfigs >>= fun _ => migrateLogsAndState >>= fun _ => migratePidFiles

/-! ### Where everything belongs -/

def ruleOf : Dir → Option Rule
  | .configBots => some botConfigs
  | .logs => some logsAndState
  | .pids => some pidFiles
  | _ => none

def ruleTo : Dir → Option Rule
  | .userBots => some botConfigs
  | .userLogs => some logsAndState
  | .userPids => some pidFiles
  | _ => none

/-- The entries that a rule is about. -/
def Rule.takes (r : Rule) (name : String) (node : Node) : Bool := r.listed name && r.moves name node

/-- What belongs at a path: a bot's file in the user's directory, unless its name was taken there;
everything else where it is. -/
def migrated (t : Layout) (path : Dir × String) : Option Node :=
  match t.at? path with
  | some node =>
    match (ruleOf path.1).filter fun r => r.takes path.2 node with
    | none => some node
    | some r => if (t.at? (r.target, path.2)).isSome then some node else none
  | none => (ruleTo path.1).bind fun r => (t.at? (r.source, path.2)).filter (r.takes path.2)

/-- Entries of `logs/pids` are in a directory that is there. -/
def PidsThere (t : Layout) : Prop := ∀ name, (t.at? (.pids, name)).isSome → t.pidsDir = true

theorem ruleOf_cases (d : Dir) (r : Rule) (h : ruleOf d = some r) :
    r.source = d ∧ ruleTo d = none ∧ ruleOf r.target = none ∧ ruleTo r.target = some r := by
  cases d with
  | configBots => cases h; exact ⟨rfl, rfl, rfl, rfl⟩
  | logs => cases h; exact ⟨rfl, rfl, rfl, rfl⟩
  | pids => cases h; exact ⟨rfl, rfl, rfl, rfl⟩
  | userBots => cases h
  | userLogs => cases h
  | userPids => cases h

theorem ruleTo_cases (d : Dir) (r : Rule) (h : ruleTo d = some r) :
    r.target = d ∧ ruleOf r.source = some r := by
  cases d with
  | userBots => cases h; exact ⟨rfl, rfl⟩
  | userLogs => cases h; exact ⟨rfl, rfl⟩
  | userPids => cases h; exact ⟨rfl, rfl⟩
  | configBots => cases h
  | logs => cases h
  | pids => cases h

theorem at?_renamed (t : Layout) (src dst : Dir × String) (node : Node) :
    (t.rename src dst node).at? dst = some node :=
  congrArg (Option.map Entry.node) (KeyedDict.get?_set_self (t.entries.pop src) ⟨dst, node⟩)

theorem at?_rename_src (t : Layout) (src dst : Dir × String) (node : Node) (h : src ≠ dst) :
    (t.rename src dst node).at? src = none := by
  have hset := KeyedDict.get?_set_of_ne (t.entries.pop src) ⟨dst, node⟩ src h
  unfold Layout.at? Layout.rename
  rw [hset, KeyedDict.get?_pop_self]
  rfl

theorem at?_rename_of_ne (t : Layout) (src dst : Dir × String) (node : Node) (path : Dir × String)
    (hsrc : path ≠ src) (hdst : path ≠ dst) : (t.rename src dst node).at? path = t.at? path := by
  have hset := KeyedDict.get?_set_of_ne (t.entries.pop src) ⟨dst, node⟩ path hdst
  unfold Layout.at? Layout.rename
  rw [hset, KeyedDict.get?_pop_of_ne _ src path hsrc]

theorem mem_names (t : Layout) (d : Dir) (name : String) :
    name ∈ t.names d ↔ (t.at? (d, name)).isSome := by
  rw [Layout.names, List.mem_insertionSort, List.mem_map, Layout.at?, Option.isSome_map,
    Option.isSome_iff_exists]
  constructor
  · rintro ⟨e, he, rfl⟩
    obtain ⟨hmem, hdir⟩ := List.mem_filter.mp he
    have hd : e.path.1 = d := of_decide_eq_true hdir
    exact ⟨e, (KeyedDict.get?_eq_some_iff t.entries (d, e.path.2) e).mpr ⟨hmem, by rw [← hd]⟩⟩
  · rintro ⟨e, he⟩
    obtain ⟨hmem, hpath⟩ := (KeyedDict.get?_eq_some_iff t.entries (d, name) e).mp he
    refine ⟨e, List.mem_filter.mpr ⟨hmem, ?_⟩, by rw [hpath]⟩
    rw [hpath]
    exact decide_eq_true rfl

/-- The move of an entry that its rule takes to a free name. -/
structure Rule.Moves (r : Rule) (t : Layout) (name : String) (node : Node) : Prop where
  there : t.at? (r.source, name) = some node
  takes : r.takes name node = true
  free : t.at? (r.target, name) = none

/-- The layout after such a move. -/
def Rule.moved (r : Rule) (t : Layout) (name : String) (node : Node) : Layout :=
  t.rename (r.source, name) (r.target, name) node

theorem source_ne_target (d : Dir) (r : Rule) (hr : ruleOf d = some r) (name name' : String) :
    (r.source, name) ≠ (r.target, name') := by
  obtain ⟨hsource, hnotTo, _, hto⟩ := ruleOf_cases d r hr
  intro hsame
  rw [← (Prod.mk.inj hsame).1, hsource, hnotTo] at hto
  cases hto

/-- A move changes nothing about where everything belongs. -/
theorem migrated_moved (d : Dir) (r : Rule) (hr : ruleOf d = some r) (t : Layout) (name : String)
    (node : Node) (h : r.Moves t name node) : migrated (r.moved t name node) = migrated t := by
  obtain ⟨hsource, hnotTo, hnotOf, hto⟩ := ruleOf_cases d r hr
  have hne := source_ne_target d r hr name name
  funext path
  unfold migrated Rule.moved
  by_cases hdst : path = (r.target, name)
  · subst hdst
    have hcame : (t.at? (r.source, name)).filter (r.takes name) = some node :=
      Option.filter_eq_some_iff.mpr ⟨h.there, h.takes⟩
    rw [at?_renamed, h.free, hnotOf, hto]
    exact hcame.symm
  by_cases hsrc : path = (r.source, name)
  · subst hsrc
    have htaken : (some r).filter (fun r => r.takes name node) = some r :=
      Option.filter_eq_some_iff.mpr ⟨rfl, h.takes⟩
    rw [at?_rename_src _ _ _ _ hne, h.there, hsource, hnotTo, hr]
    dsimp only
    rw [htaken]
    dsimp only
    rw [h.free]
    rfl
  rw [at?_rename_of_ne _ _ _ _ _ hsrc hdst]
  cases hpath : t.at? path with
  | some node' =>
    dsimp only
    cases htaken : (ruleOf path.1).filter fun r => r.takes path.2 node' with
    | none => rfl
    | some r' =>
      -- another entry goes to another name, and not to where the moved entry was
      have hr' := (Option.filter_eq_some_iff.mp htaken).1
      obtain ⟨hsource', _, hnotOf', hto'⟩ := ruleOf_cases path.1 r' hr'
      have hat : (t.rename (r.source, name) (r.target, name) node).at? (r'.target, path.2) =
          t.at? (r'.target, path.2) := by
        apply at?_rename_of_ne
        · intro hsame
          rw [(Prod.mk.inj hsame).1, hsource, hr] at hnotOf'
          cases hnotOf'
        · intro hsame
          obtain ⟨hd, hname⟩ := Prod.mk.inj hsame
          rw [hd, hto] at hto'
          cases hto'
          exact hsrc (Prod.ext hsource'.symm hname)
      dsimp only
      rw [hat]
  | none =>
    dsimp only
    cases hr' : ruleTo path.1 with
    | none => rfl
    | some r' =>
      obtain ⟨htarget', hof'⟩ := ruleTo_cases path.1 r' hr'
      obtain ⟨_, hnotTo', _, _⟩ := ruleOf_cases r'.source r' hof'
      have hat : (t.rename (r.source, name) (r.target, name) node).at? (r'.source, path.2) =
          t.at? (r'.source, path.2) := by
        apply at?_rename_of_ne
        · intro hsame
          obtain ⟨hd, hname⟩ := Prod.mk.inj hsame
          rw [hd, hsource, hr] at hof'
          cases hof'
          exact hdst (Prod.ext htarget'.symm hname)
        · intro hsame
          rw [(Prod.mk.inj hsame).1, hto] at hnotTo'
          cases hnotTo'
      rw [Option.bind_some, Option.bind_some, hat]

theorem pidsThere_moved (d : Dir) (r : Rule) (hr : ruleOf d = some r) (t : Layout) (name : String)
    (node : Node) (h : PidsThere t) : PidsThere (r.moved t name node) := by
  intro name' hthere
  apply h name'
  by_cases hsrc : (Dir.pids, name') = (r.source, name)
  · rw [Rule.moved, hsrc, at?_rename_src _ _ _ _ (source_ne_target d r hr name name)] at hthere
    cases hthere
  · rwa [Rule.moved, at?_rename_of_ne _ _ _ _ _ hsrc] at hthere
    intro hdst
    have hto := (ruleOf_cases d r hr).2.2.2
    rw [← (Prod.mk.inj hdst).1] at hto
    cases hto

/-- What the body of a loop does. -/
theorem visit_cases (r : Rule) (t : Layout) (name : String) (hlisted : r.listed name = true) :
    (∃ node, r.Moves t name node ∧
      r.visit name t = ⟨.ok (), [r.moved t name node], r.moved t name node⟩) ∨
    (r.visit name t = ⟨.ok (), [], t⟩ ∧ ∀ node, t.at? (r.source, name) = some node →
      r.takes name node = true → (t.at? (r.target, name)).isSome) := by
  rw [Rule.visit, Program.get_bind_run]
  cases hthere : t.at? (r.source, name) with
  | none => exact .inr ⟨rfl, fun _ h => by cases h⟩
  | some node =>
    dsimp only
    cases hmoves : r.moves name node with
    | false =>
      refine .inr ⟨rfl, fun node' h htakes => ?_⟩
      cases h
      rw [Rule.takes, hmoves, Bool.and_false] at htakes
      cases htakes
    | true =>
      rw [if_pos rfl, move, Program.get_bind_run, hthere]
      dsimp only
      cases htarget : t.at? (r.target, name) with
      | some node' => exact .inr ⟨rfl, fun _ _ _ => rfl⟩
      | none =>
        refine .inl ⟨node, ⟨hthere, ?_, htarget⟩, rfl⟩
        rw [Rule.takes, hlisted, hmoves]
        rfl

/-! ### Cut runs -/

theorem toward_visit (d : Dir) (r : Rule) (hr : ruleOf d = some r) (name : String)
    (hlisted : r.listed name = true) :
    Program.Respects (Resume.Toward land PidsThere migrated) (r.visit name) := by
  intro t hthere
  rcases visit_cases r t name hlisted with ⟨node, hmoves, hrun⟩ | ⟨hrun, _⟩
  · have hlanded : PidsThere (r.moved t name node) ∧ migrated (r.moved t name node) = migrated t :=
      ⟨pidsThere_moved d r hr t name node hthere, migrated_moved d r hr t name node hmoves⟩
    rw [hrun]
    refine ⟨hlanded, fun w hw v hv => ?_⟩
    cases List.mem_singleton.mp hw
    cases hv
    exact hlanded
  · rw [hrun]
    exact ⟨⟨hthere, rfl⟩, fun _ hw => absurd hw List.not_mem_nil⟩

theorem toward_run (d : Dir) (r : Rule) (hr : ruleOf d = some r) :
    Program.Respects (Resume.Toward land PidsThere migrated) r.run := by
  have hR := Resume.traceRel_toward land PidsThere migrated
  refine Program.respects_get_bind _ fun t => ?_
  refine Program.respects_forEach hR _ _ (fun name hname => ?_) t
  exact toward_visit d r hr name (List.mem_filter.mp hname).2

theorem names_empty (t : Layout) (d : Dir) (h : (t.names d).isEmpty = true) (name : String) :
    t.at? (d, name) = none := by
  rw [List.isEmpty_iff] at h
  have hnot := (mem_names t d name).not.mp (h ▸ List.not_mem_nil)
  simpa using hnot

theorem toward_removal : Program.Respects (Resume.Toward land PidsThere migrated)
    (Program.get >>= fun t =>
      if (t.names .pids).isEmpty then put { t with pidsDir := false } else pure ()) := by
  refine Program.respects_get_bind _ fun t hthere => ?_
  split
  · rename_i hempty
    have hlanded : PidsThere { t with pidsDir := false } ∧
        migrated { t with pidsDir := false } = migrated t := by
      refine ⟨fun name hname => ?_, rfl⟩
      have hnone := names_empty t .pids hempty name
      rw [show Layout.at? { t with pidsDir := false } (.pids, name) = t.at? (.pids, name) from rfl,
        hnone] at hname
      cases hname
    refine ⟨hlanded, fun w hw v hv => ?_⟩
    cases List.mem_singleton.mp hw
    cases hv
    exact hlanded
  · exact ⟨⟨hthere, rfl⟩, fun _ hw => absurd hw List.not_mem_nil⟩

theorem toward_main : Program.Respects (Resume.Toward land PidsThere migrated) main := by
  have hR := Resume.traceRel_toward land PidsThere migrated
  refine Program.respects_bind hR _ _ (toward_run .configBots _ rfl) fun _ => ?_
  refine Program.respects_bind hR _ _ (toward_run .logs _ rfl) fun _ => ?_
  refine Program.respects_get_bind _ fun t => ?_
  split
  · exact Program.respects_bind hR _ _ (toward_run .pids _ rfl) (fun _ => toward_removal) t
  · exact hR.nil t

/-! ### Complete runs -/

/-- Nothing is left to move for a rule. -/
def Rule.Done (r : Rule) (t : Layout) : Prop :=
  ∀ name node, t.at? (r.source, name) = some node → r.takes name node = true →
    (t.at? (r.target, name)).isSome

/-- The moves of one rule are nothing to another. -/
theorem done_moved (d d' : Dir) (r r' : Rule) (hr : ruleOf d = some r) (hr' : ruleOf d' = some r')
    (hne : d ≠ d') (t : Layout) (name : String) (node : Node) (h : r'.Done t) :
    r'.Done (r.moved t name node) := by
  obtain ⟨hsource, hnotTo, hnotOf, hto⟩ := ruleOf_cases d r hr
  obtain ⟨hsource', hnotTo', hnotOf', hto'⟩ := ruleOf_cases d' r' hr'
  have hsame : ∀ name' : String, ∀ d'' : Dir, d'' = r'.source ∨ d'' = r'.target →
      (r.moved t name node).at? (d'', name') = t.at? (d'', name') := by
    intro name' d'' hd''
    apply at?_rename_of_ne
    · intro h
      obtain ⟨hd, -⟩ := Prod.mk.inj h
      rcases hd'' with rfl | rfl
      · exact hne (hsource.symm.trans (hd.symm.trans hsource'))
      · rw [hd, hsource, hr] at hnotOf'
        cases hnotOf'
    · intro h
      obtain ⟨hd, -⟩ := Prod.mk.inj h
      rcases hd'' with rfl | rfl
      · rw [← hsource', hd, hto] at hnotTo'
        cases hnotTo'
      · rw [hd, hto] at hto'
        cases hto'
        exact hne (hsource.symm.trans hsource')
  intro name' node' hthere htakes
  rw [hsame name' _ (.inl rfl)] at hthere
  rw [hsame name' _ (.inr rfl)]
  exact h name' node' hthere htakes

/-- A loop leaves nothing to move, and what its moves keep. -/
theorem run_reaches (d : Dir) (r : Rule) (hr : ruleOf d = some r) (K : Layout → Prop)
    (hK : ∀ t name node, K t → K (r.moved t name node)) :
    Program.Triple K r.run fun _ t => K t ∧ r.Done t := by
  have hne := source_ne_target d r hr
  -- what is left to move is still on the list
  let Left : List String → Layout → Prop := fun l t => (K t ∧ ∀ name ∈ l, r.listed name = true) ∧
    ∀ name node, t.at? (r.source, name) = some node → r.takes name node = true →
      (t.at? (r.target, name)).isSome ∨ name ∈ l
  have hloop := Program.triple_forEach r.visit Left (fun name l => by
    intro t ⟨⟨hKt, hlisted⟩, hleft⟩ u hu
    have hlisted' : ∀ name ∈ l, r.listed name = true := fun n hn => hlisted n (List.mem_cons_of_mem _ hn)
    rcases visit_cases r t name (hlisted name List.mem_cons_self) with ⟨node, hmoves, hrun⟩ | ⟨hrun, hdone⟩
    · rw [hrun]
      refine ⟨⟨hK t name node hKt, hlisted'⟩, fun name' node' hthere htakes => ?_⟩
      by_cases hname : name' = name
      · subst hname
        rw [Rule.moved, at?_rename_src _ _ _ _ (hne name' name')] at hthere
        cases hthere
      · have hpath : ∀ d d' : Dir, (d, name') ≠ (d', name) := fun _ _ h => hname (Prod.mk.inj h).2
        rw [Rule.moved, at?_rename_of_ne _ _ _ _ _ (hpath _ _) (hpath _ _)] at hthere ⊢
        exact (hleft name' node' hthere htakes).imp_right fun h =>
          (List.mem_cons.mp h).resolve_left hname
    · rw [hrun]
      refine ⟨⟨hKt, hlisted'⟩, fun name' node' hthere htakes => ?_⟩
      rcases hleft name' node' hthere htakes with htarget | hmem
      · exact .inl htarget
      · rcases List.mem_cons.mp hmem with rfl | hmem
        · exact .inl (hdone node' hthere htakes)
        · exact .inr hmem)
  intro t hKt u hu
  rw [Rule.run, Program.get_bind_run] at hu ⊢
  have hstart : Left ((t.names r.source).filter r.listed) t := by
    refine ⟨⟨hKt, fun name hname => (List.mem_filter.mp hname).2⟩, fun name node hthere htakes => ?_⟩
    refine .inr (List.mem_filter.mpr ⟨(mem_names t r.source name).mpr (by rw [hthere]; rfl), ?_⟩)
    exact (Bool.and_eq_true_iff.mp htakes).1
  obtain ⟨⟨hKu, _⟩, hleft⟩ := hloop _ t hstart u hu
  refine ⟨hKu, fun name node hthere htakes => ?_⟩
  exact (hleft name node hthere htakes).resolve_right List.not_mem_nil

/-- Nothing is left to move, and `logs/pids` is there when something is in it. -/
structure Settled (t : Layout) : Prop where
  done : ∀ d r, ruleOf d = some r → r.Done t
  pidsDir : t.pidsDir = true ↔ ∃ name, (t.at? (.pids, name)).isSome

theorem main_reaches : Program.Triple PidsThere main fun _ t => Settled t := by
  have hsettled : ∀ t, PidsThere t → botConfigs.Done t → logsAndState.Done t → pidFiles.Done t →
      (t.pidsDir = true → ∃ name, (t.at? (.pids, name)).isSome) → Settled t := by
    intro t hthere hbots hlogs hpids hdir
    refine ⟨fun d r hr => ?_, hdir, fun ⟨name, hname⟩ => hthere name hname⟩
    cases d with
    | configBots => cases hr; exact hbots
    | logs => cases hr; exact hlogs
    | pids => cases hr; exact hpids
    | userBots => cases hr
    | userLogs => cases hr
    | userPids => cases hr
  refine Program.triple_bind _ _ _ _ (run_reaches .configBots botConfigs rfl PidsThere
    fun t name node h => pidsThere_moved .configBots botConfigs rfl t name node h) fun _ => ?_
  refine Program.triple_bind _ _ _ _ (run_reaches .logs logsAndState rfl
    (fun t => PidsThere t ∧ botConfigs.Done t) fun t name node h =>
      ⟨pidsThere_moved .logs logsAndState rfl t name node h.1,
        done_moved .logs .configBots _ _ rfl rfl (by decide) t name node h.2⟩)
    fun _ => ?_
  refine Program.triple_get_bind _ _ fun t ht => ?_
  obtain ⟨⟨hthere, hbots⟩, hlogs⟩ := ht
  refine Program.triple_ite _ _ _ _ (fun hdir => ?_) fun hdir => ?_
  · let K : Layout → Prop := fun t =>
      PidsThere t ∧ botConfigs.Done t ∧ logsAndState.Done t ∧ t.pidsDir = true
    have hrun := run_reaches .pids pidFiles rfl K fun t name node h =>
      ⟨pidsThere_moved .pids pidFiles rfl t name node h.1,
        done_moved .pids .configBots _ _ rfl rfl (by decide) t name node h.2.1,
        done_moved .pids .logs _ _ rfl rfl (by decide) t name node h.2.2.1, h.2.2.2⟩
    refine Program.triple_bind _ _ _ _ (Program.triple_weaken _ _ _ _ hrun (fun s hs => ?_) fun _ _ h => h)
      fun _ => ?_
    · subst hs
      exact ⟨hthere, hbots, hlogs, hdir⟩
    · refine Program.triple_get_bind _ _ fun u hu => ?_
      obtain ⟨⟨hthere, hbots, hlogs, hdir⟩, hpids⟩ := hu
      refine Program.triple_ite _ _ _ _ (fun hempty => ?_) fun hsome => ?_
      · intro s hs _ _
        subst hs
        have hnone := names_empty s .pids hempty
        refine hsettled { s with pidsDir := false } (fun name hname => ?_) hbots hlogs hpids
          fun hfalse => by cases hfalse
        have hname' : (s.at? (.pids, name)).isSome := hname
        rw [hnone name] at hname'
        cases hname'
      · refine Program.triple_pure _ _ fun s hs => ?_
        subst hs
        refine hsettled s hthere hbots hlogs hpids fun _ => ?_
        obtain ⟨name, hname⟩ := List.exists_mem_of_ne_nil _ (List.isEmpty_iff.not.mp hsome)
        exact ⟨name, (mem_names s .pids name).mp hname⟩
  · refine Program.triple_pure _ _ fun s hs => ?_
    subst hs
    have hnone : ∀ name, s.at? (.pids, name) = none := by
      intro name
      by_contra hname
      exact hdir (hthere name (Option.isSome_iff_ne_none.mpr hname))
    refine hsettled s hthere hbots hlogs (fun name node h => ?_) fun h => absurd h hdir
    rw [show pidFiles.source = Dir.pids from rfl, hnone name] at h
    cases h

/-- Where nothing is left to move, everything is where it belongs. -/
theorem migrated_settled (t : Layout) (h : Settled t) : migrated t = Layout.at? t := by
  funext path
  unfold migrated
  cases hpath : t.at? path with
  | some node =>
    dsimp only
    cases htaken : (ruleOf path.1).filter fun r => r.takes path.2 node with
    | none => rfl
    | some r =>
      obtain ⟨hr, htakes⟩ := Option.filter_eq_some_iff.mp htaken
      have hsource := (ruleOf_cases path.1 r hr).1
      dsimp only
      rw [if_pos (h.done path.1 r hr path.2 node (by rw [hsource]; exact hpath) htakes)]
  | none =>
    dsimp only
    cases hr : ruleTo path.1 with
    | none => rfl
    | some r =>
      obtain ⟨htarget, hof⟩ := ruleTo_cases path.1 r hr
      cases hcame : (t.at? (r.source, path.2)).filter (r.takes path.2) with
      | none => exact hcame
      | some node =>
        obtain ⟨hthere, htakes⟩ := Option.filter_eq_some_iff.mp hcame
        have htarget' := h.done r.source r hof path.2 node hthere htakes
        rw [htarget, show (path.1, path.2) = path from rfl, hpath] at htarget'
        cases htarget'

theorem run_settled (r : Rule) (t : Layout) (h : r.Done t) : r.run t = ⟨.ok (), [], t⟩ := by
  have hloop : ∀ names : List String, (∀ name ∈ names, r.listed name = true) →
      Program.forEach r.visit names t = ⟨.ok (), [], t⟩ := by
    intro names hlisted
    induction names with
    | nil => rfl
    | cons name names ih =>
      rcases visit_cases r t name (hlisted name List.mem_cons_self) with ⟨node, hmoves, _⟩ | ⟨hrun, _⟩
      · have htarget := h name node hmoves.there hmoves.takes
        rw [hmoves.free] at htarget
        cases htarget
      · have hrest := ih fun n hn => hlisted n (List.mem_cons_of_mem _ hn)
        rw [Program.forEach, Program.bind_ok _ _ t () (by rw [hrun]), hrun, hrest]
        rfl
  rw [Rule.run, Program.get_bind_run]
  exact hloop _ fun name hname => (List.mem_filter.mp hname).2

theorem main_settled (t : Layout) (h : Settled t) : main t = ⟨.ok (), [], t⟩ := by
  have hbots : migrateBotConfigs t = ⟨.ok (), [], t⟩ := run_settled botConfigs t (h.done .configBots _ rfl)
  have hlogs : migrateLogsAndState t = ⟨.ok (), [], t⟩ := run_settled logsAndState t (h.done .logs _ rfl)
  have hpids := run_settled pidFiles t (h.done .pids _ rfl)
  have hrest : migratePidFiles t = ⟨.ok (), [], t⟩ := by
    rw [migratePidFiles, Program.get_bind_run]
    split
    · rename_i hdir
      obtain ⟨name, hname⟩ := h.pidsDir.mp hdir
      have hsome : (t.names .pids).isEmpty = false := by
        rw [List.isEmpty_eq_false_iff]
        exact List.ne_nil_of_mem ((mem_names t .pids name).mpr hname)
      rw [Program.bind_ok _ _ t () (by rw [hpids]), hpids]
      dsimp only
      rw [Program.get_bind_run, hsome]
      rfl
    · rfl
  rw [main, Program.bind_ok _ _ t () (by rw [hbots]), hbots]
  dsimp only
  rw [Program.bind_ok _ _ t () (by rw [hlogs]), hlogs]
  dsimp only
  rw [hrest]
  rfl

/-- A bot whose log was already started in the new place, and the audit log. -/
def flatLayout : Layout where
  entries := KeyedDict.ofList [⟨(.configBots, "btc.yaml"), ⟨true, "pair: BTC"⟩⟩,
    ⟨(.logs, "audit.log"), ⟨true, "login"⟩⟩, ⟨(.logs, "btc.log"), ⟨true, "old"⟩⟩,
    ⟨(.logs, "btc.state.json"), ⟨true, "balance"⟩⟩, ⟨(.userLogs, "btc.log"), ⟨true, "new"⟩⟩,
    ⟨(.pids, "btc.pid"), ⟨true, "417"⟩⟩]
  pidsDir := true

end MigrateToUserFs

end Reverto
