import Mathlib.Tactic
import Reverto.Lib.Machine
import Reverto.Web.AuthRoutes
import Reverto.Web.BotSlugs

/-!
# Creating, duplicating and importing bots (web/routes/bots.py, web/app.py)

The three endpoints that add a YAML file, for the requests of one user. A handler
runs up to its next `await` in one step: the registry refresh, the count of the
user's bots, the body of the request, and the invalidation of the registry.
-/

namespace Reverto

/-- What the YAML file of a bot loads as; the name aside, a config is its text. -/
inductive YamlDoc where
  | unparsable
  | notDict
  | bot (name : Option (List Char)) (rest : String)
  deriving DecidableEq

structure YamlFile where
  slug : BotSlug
  doc : YamlDoc
  deriving DecidableEq

/-- The files under `config/bots/<user_id>/`. -/
abbrev YamlFiles := KeyedDict YamlFile.slug

/-- A request, with its body as it will be read: an error of `_read_body_with_cap`, the
parser or `_validate_bot_payload`, or what the handler goes on with. -/
inductive CreateRequest where
  | create (body : Except HttpError (BotName × YamlDoc))
  | duplicate (source : BotSlug) (body : Except HttpError (List Char))
  | importBot (slug : List Char) (body : Except HttpError YamlDoc)
  deriving DecidableEq

/-- The `await` a request is at; `userBots` is the list it was counted against. -/
inductive CreateAwait where
  | refresh
  | count
  | body (userBots : List BotSlug)
  | invalidate (slug : BotSlug)
  deriving DecidableEq

structure CreateTask where
  request : CreateRequest
  point : CreateAwait
  deriving DecidableEq

/-- The user's files and requests, the registry's list of the user's bots, and the
files that a request wrote over another bot's. -/
structure BotQuota where
  files : YamlFiles
  registry : List BotSlug
  lastRefresh : Instant
  clock : Instant
  tasks : List CreateTask
  overwritten : List BotSlug
  answers : List (Except HttpError BotSlug)
  deriving DecidableEq

/-- What happens next; a scan of the registry sees the user's folder or not. -/
inductive BotQuotaStep where
  | elapse (d : ℕ)
  | arrive (request : CreateRequest)
  | resume (i : ℕ) (active : Bool)
  deriving DecidableEq

/-- `_DEFAULT_MAX_BOTS_PER_USER` -/
def DEFAULT_MAX_BOTS_PER_USER : ℕ := 10

/-- `_max_bots_per_user`; the variable is unset, no integer or an integer. -/
def maxBotsPerUser : Option (Option ℤ) → ℕ
  | none => DEFAULT_MAX_BOTS_PER_USER
  | some none => DEFAULT_MAX_BOTS_PER_USER
  | some (some value) => if value ≤ 0 then DEFAULT_MAX_BOTS_PER_USER else value.toNat

/-- `_BOT_SLUG_RE.match` -/
def parseSlug (l : List Char) : Option BotSlug :=
  if h : 1 ≤ l.length ∧ l.all isSlugChar = true then some ⟨l, h.1, h.2⟩ else none

/-- `inner["name"] = ...title()` where there is a name. -/
def YamlDoc.renamed (slug : BotSlug) : YamlDoc → YamlDoc
  | .bot name rest => .bot (name.map fun _ => BotSlugs.titleName slug) rest
  | doc => doc

namespace BotQuota

/-- `_REFRESH_TTL` -/
def REFRESH_TTL : Instant := 5 * second

/-- The slugs of the user's files. -/
def slugs (files : YamlFiles) : List BotSlug := files.items.map YamlFile.slug

/-- `registry.refresh` -/
def refresh (active : Bool) (s : BotQuota) : BotQuota :=
  if s.clock - s.lastRefresh ≤ REFRESH_TTL then s
  else { s with registry := if active then slugs s.files else [], lastRefresh := s.clock }

/-- The target of an import. -/
def importTarget (files : YamlFiles) (slug : List Char) : Except HttpError BotSlug :=
  match parseSlug (strip isSpace slug) with
  | none => .error ⟨400, "Query param 'slug' must match ^[A-Za-z0-9_\\-]+$", none⟩
  | some target =>
    if (files.get? target).isSome then
      .error ⟨409, "Bot with slug '" ++ String.ofList target.chars ++ "' already exists", none⟩
    else .ok target

/-- What a handler does between the count and the body: an import checks its target. -/
def beforeBody (files : YamlFiles) : CreateRequest → Except HttpError Unit
  | .importBot slug _ => (importTarget files slug).map fun _ => ()
  | _ => .ok ()

/-- `create_bot` once its body is there: the file to write. -/
def createFile (files : YamlFiles) (name : BotName) (doc : YamlDoc) : Except HttpError YamlFile :=
  match BotSlugs.slugify name with
  | none => .error ⟨400, "name '" ++ String.ofList name.chars ++ "' produces empty slug", none⟩
  | some slug =>
    if (files.get? slug).isSome then
      .error ⟨409, "Bot " ++ String.ofList slug.chars ++ " already exists", none⟩
    else .ok ⟨slug, doc⟩

/-- `duplicate_bot` once its body is there. -/
def duplicateFile (files : YamlFiles) (source : BotSlug) (newSlug : List Char) :
    Except HttpError YamlFile :=
  match parseSlug (strip isSpace newSlug) with
  | none => .error ⟨400, "Invalid slug. Must match ^[A-Za-z0-9_\\-]+$", none⟩
  | some target =>
    match files.get? source with
    | none => .error ⟨404, "Source bot not found", none⟩
    | some file =>
      if (files.get? target).isSome then
        .error ⟨409, "Bot with slug '" ++ String.ofList target.chars ++ "' already exists", none⟩
      else
        match file.doc with
        | .unparsable => .error ⟨500, "Failed to parse source bot config for duplication", none⟩
        | .notDict => .error ⟨500, "Source YAML is malformed", none⟩
        | .bot name rest => .ok ⟨target, YamlDoc.renamed target (.bot name rest)⟩

/-- `import_bot` once its body is there; the target was looked at before. -/
def importFile (slug : List Char) (doc : YamlDoc) : Except HttpError YamlFile :=
  match parseSlug (strip isSpace slug) with
  | none => .error ⟨400, "Query param 'slug' must match ^[A-Za-z0-9_\\-]+$", none⟩
  | some target => .ok ⟨target, doc.renamed target⟩

/-- The file a request writes once its body is there. -/
def outcome (files : YamlFiles) : CreateRequest → Except HttpError YamlFile
  | .create body => body.bind fun config => createFile files config.1 config.2
  | .duplicate source body => body.bind (duplicateFile files source)
  | .importBot slug body => body.bind (importFile slug)

/-- A request goes on to its next `await`. -/
def goOn (i : ℕ) (t : CreateTask) (s : BotQuota) : BotQuota := { s with tasks := s.tasks.set i t }

/-- A request is answered. -/
def answer (i : ℕ) (a : Except HttpError BotSlug) (s : BotQuota) : BotQuota :=
  { s with tasks := s.tasks.eraseIdx i, answers := s.answers ++ [a] }

/-- `path.write_text` -/
def write (f : YamlFile) (s : BotQuota) : BotQuota :=
  { s with
    files := s.files.set f
    overwritten :=
      if (s.files.get? f.slug).isSome then s.overwritten ++ [f.slug] else s.overwritten }

/-- The 429 of `_enforce_bot_quota`. -/
def quotaReached (current cap : ℕ) : HttpError :=
  ⟨429, "Bot limit reached. You have " ++ toString current ++ " bots; the maximum is " ++
    toString cap ++ ".", none⟩

/-- The rest of `_enforce_bot_quota` and the handler up to the body. -/
def enforceBotQuota (cap i : ℕ) (request : CreateRequest) (s : BotQuota) : BotQuota :=
  if cap ≤ s.registry.length then answer i (.error (quotaReached s.registry.length cap)) s
  else
    match beforeBody s.files request with
    | .error e => answer i (.error e) s
    | .ok _ => goOn i ⟨request, .body s.registry⟩ s

/-- The handler from the body on. -/
def finish (i : ℕ) (request : CreateRequest) (s : BotQuota) : BotQuota :=
  match outcome s.files request with
  | .error e => answer i (.error e) s
  | .ok f => goOn i ⟨request, .invalidate f.slug⟩ (write f s)

/-- One step. -/
def step (cap : ℕ) (s : BotQuota) : BotQuotaStep → Option BotQuota
  | .elapse d => some { s with clock := s.clock + d }
  | .arrive request => some { s with tasks := s.tasks ++ [⟨request, .refresh⟩] }
  | .resume i active =>
    match s.tasks[i]? with
    | none => none
    | some ⟨request, .refresh⟩ => some (goOn i ⟨request, .count⟩ (refresh active s))
    | some ⟨request, .count⟩ => some (enforceBotQuota cap i request s)
    | some ⟨request, .body _⟩ => some (finish i request s)
    | some ⟨_, .invalidate slug⟩ => some (answer i (.ok slug) { s with lastRefresh := 0 })

/-- The portal once it has started. -/
def boot (files : YamlFiles) (clock : Instant) : BotQuota := ⟨files, slugs files, clock, clock, [], [], []⟩

/-! ### The property -/

/-- The files are within the quota, and none was written over another bot's. -/
structure Kept (cap : ℕ) (s : BotQuota) : Prop where
  quota : s.files.items.length ≤ cap
  overwritten : s.overwritten = []

/-- The bots a request was counted against, with those whose files it was not, are
fewer than the quota, and there is still no file of the slug it writes. -/
def HasRoom (cap : ℕ) (s : BotQuota) (userBots : List BotSlug) : Except HttpError YamlFile → Prop
  | .ok f =>
    userBots.length + ((slugs s.files).filter fun slug => slug ∉ userBots).length < cap ∧
      s.files.get? f.slug = none
  | .error _ => True

instance (cap : ℕ) (s : BotQuota) (userBots : List BotSlug) :
    ∀ r, Decidable (HasRoom cap s userBots r)
  | .ok _ => inferInstanceAs (Decidable (_ ∧ _))
  | .error _ => .isTrue trivial

/-- A request that writes has room. -/
def TaskUndisturbed (cap : ℕ) (s : BotQuota) : CreateTask → Prop
  | ⟨request, .body userBots⟩ => HasRoom cap s userBots (outcome s.files request)
  | _ => True

instance (cap : ℕ) (s : BotQuota) : ∀ t, Decidable (TaskUndisturbed cap s t)
  | ⟨request, .body userBots⟩ =>
    inferInstanceAs (Decidable (HasRoom cap s userBots (outcome s.files request)))
  | ⟨_, .refresh⟩ => .isTrue trivial
  | ⟨_, .count⟩ => .isTrue trivial
  | ⟨_, .invalidate _⟩ => .isTrue trivial

/-- The request that goes on has room if it writes. -/
def Undisturbed (cap : ℕ) (s : BotQuota) : BotQuotaStep → Prop
  | .resume i _ => ∀ t ∈ s.tasks[i]?, TaskUndisturbed cap s t
  | _ => True

instance decidableUndisturbed (cap : ℕ) (s : BotQuota) : ∀ l, Decidable (Undisturbed cap s l)
  | .elapse _ => .isTrue trivial
  | .arrive _ => .isTrue trivial
  | .resume i _ => inferInstanceAs (Decidable (∀ t ∈ s.tasks[i]?, TaskUndisturbed cap s t))

/-- The property, and what the registry and the requests know of the files is true. -/
structure Sound (cap : ℕ) (s : BotQuota) : Prop where
  kept : Kept cap s
  nodup : s.registry.Nodup
  registry : s.registry ⊆ slugs s.files
  counted : ∀ request userBots, ⟨request, .body userBots⟩ ∈ s.tasks →
    userBots.Nodup ∧ userBots ⊆ slugs s.files

theorem slugs_nodup (files : YamlFiles) : (slugs files).Nodup := files.nodup

/-- The files are those counted and those not. -/
theorem length_counted (files : YamlFiles) (userBots : List BotSlug) (hnodup : userBots.Nodup)
    (hsub : userBots ⊆ slugs files) :
    userBots.length + ((slugs files).filter fun slug => slug ∉ userBots).length =
      files.items.length := by
  have hperm : ((slugs files).filter fun slug => slug ∈ userBots).Perm userBots := by
    rw [List.perm_ext_iff_of_nodup ((slugs_nodup files).filter _) hnodup]
    intro slug
    rw [List.mem_filter, decide_eq_true_eq]
    exact ⟨fun h => h.2, fun h => ⟨hsub h, h⟩⟩
  have htotal := List.length_eq_length_filter_add (l := slugs files) fun slug => decide (slug ∈ userBots)
  simp only [← decide_not] at htotal
  rw [hperm.length_eq, slugs, List.length_map] at htotal
  rw [slugs]
  exact htotal.symm

/-! ### What a step keeps -/

theorem mem_goOn (i : ℕ) (t t' : CreateTask) (s : BotQuota) (h : t' ∈ (goOn i t s).tasks) :
    t' = t ∨ t' ∈ s.tasks := by
  rcases List.mem_or_eq_of_mem_set h with h | h
  · exact Or.inr h
  · exact Or.inl h

theorem mem_answer (i : ℕ) (a : Except HttpError BotSlug) (t : CreateTask) (s : BotQuota)
    (h : t ∈ (answer i a s).tasks) : t ∈ s.tasks := List.mem_of_mem_eraseIdx h

theorem sound_answer (cap i : ℕ) (a : Except HttpError BotSlug) (s : BotQuota) (h : Sound cap s) :
    Sound cap (answer i a s) :=
  ⟨⟨h.kept.quota, h.kept.overwritten⟩, h.nodup, h.registry,
    fun request userBots hmem => h.counted request userBots (mem_answer i a _ s hmem)⟩

theorem sound_goOn (cap i : ℕ) (t : CreateTask) (s : BotQuota) (h : Sound cap s)
    (ht : ∀ userBots, t.point = .body userBots → userBots = s.registry) :
    Sound cap (goOn i t s) := by
  refine ⟨⟨h.kept.quota, h.kept.overwritten⟩, h.nodup, h.registry, ?_⟩
  intro request userBots hmem
  rcases mem_goOn i t _ s hmem with rfl | hold
  · rw [ht userBots rfl]
    exact ⟨h.nodup, h.registry⟩
  · exact h.counted request userBots hold

theorem sound_refresh (cap : ℕ) (active : Bool) (s : BotQuota) (h : Sound cap s) :
    Sound cap (refresh active s) := by
  unfold refresh
  split
  · exact h
  · refine ⟨⟨h.kept.quota, h.kept.overwritten⟩, ?_, ?_, h.counted⟩
    · cases active with
      | true => exact slugs_nodup s.files
      | false => exact List.nodup_nil
    · cases active with
      | true => exact List.Subset.refl _
      | false => exact List.nil_subset _

theorem sound_enforceBotQuota (cap i : ℕ) (request : CreateRequest) (s : BotQuota)
    (h : Sound cap s) : Sound cap (enforceBotQuota cap i request s) := by
  unfold enforceBotQuota
  split
  · exact sound_answer cap i _ s h
  · split
    · exact sound_answer cap i _ s h
    · refine sound_goOn cap i _ s h ?_
      intro userBots hpoint
      cases hpoint
      rfl

theorem write_new (f : YamlFile) (s : BotQuota) (h : s.files.get? f.slug = none) :
    (write f s).files.items = s.files.items ++ [f] ∧ (write f s).overwritten = s.overwritten := by
  refine ⟨KeyedDict.set_items_new s.files f h, ?_⟩
  simp only [write, h, Option.isSome_none, Bool.false_eq_true, if_false]

/-- A write with room for a new file. -/
theorem sound_write (cap : ℕ) (f : YamlFile) (s : BotQuota) (h : Sound cap s)
    (hroom : s.files.items.length < cap) (hnew : s.files.get? f.slug = none) :
    Sound cap (write f s) := by
  obtain ⟨hfiles, hover⟩ := write_new f s hnew
  have hgrow : slugs s.files ⊆ slugs (write f s).files := by
    unfold slugs
    rw [hfiles, List.map_append]
    exact List.subset_append_left _ _
  refine ⟨⟨?_, ?_⟩, h.nodup, List.Subset.trans h.registry hgrow, ?_⟩
  · rw [hfiles, List.length_append, List.length_singleton]
    omega
  · rw [hover]
    exact h.kept.overwritten
  · intro request userBots hmem
    obtain ⟨hnodup, hsub⟩ := h.counted request userBots hmem
    exact ⟨hnodup, List.Subset.trans hsub hgrow⟩

/-- A write without room, or over a file, breaks the property. -/
theorem not_kept_write (cap i : ℕ) (t : CreateTask) (f : YamlFile) (s : BotQuota)
    (h : ¬ (s.files.items.length < cap ∧ s.files.get? f.slug = none)) :
    ¬ Kept cap (goOn i t (write f s)) := by
  intro hkept
  cases hget : s.files.get? f.slug with
  | none =>
    have hfull : ¬ s.files.items.length < cap := fun hlt => h ⟨hlt, hget⟩
    have hquota : (write f s).files.items.length ≤ cap := hkept.quota
    rw [(write_new f s hget).1, List.length_append, List.length_singleton] at hquota
    omega
  | some old =>
    have hover : (write f s).overwritten = [] := hkept.overwritten
    simp [write, hget] at hover

/-- With what a request was counted against, its condition is about the files there are. -/
theorem undisturbed_body_iff (cap i : ℕ) (active : Bool) (s : BotQuota) (request : CreateRequest)
    (userBots : List BotSlug) (f : YamlFile) (h : Sound cap s)
    (hi : s.tasks[i]? = some ⟨request, .body userBots⟩) (hf : outcome s.files request = .ok f) :
    Undisturbed cap s (.resume i active) ↔
      s.files.items.length < cap ∧ s.files.get? f.slug = none := by
  obtain ⟨hnodup, hsub⟩ := h.counted request userBots (List.mem_of_getElem? hi)
  have hlength := length_counted s.files userBots hnodup hsub
  simp only [Undisturbed, hi, Option.mem_some_iff, forall_eq', TaskUndisturbed, hf, HasRoom]
  rw [hlength]

theorem sound_step (cap : ℕ) (s s' : BotQuota) (l : BotQuotaStep) (h : Sound cap s)
    (hG : Undisturbed cap s l) (hs : step cap s l = some s') : Sound cap s' := by
  cases l with
  | elapse d =>
    cases hs
    exact ⟨⟨h.kept.quota, h.kept.overwritten⟩, h.nodup, h.registry, h.counted⟩
  | arrive request =>
    cases hs
    refine ⟨⟨h.kept.quota, h.kept.overwritten⟩, h.nodup, h.registry, ?_⟩
    intro request' userBots hmem
    rcases List.mem_append.mp hmem with hold | hnew
    · exact h.counted request' userBots hold
    · cases List.mem_singleton.mp hnew
  | resume i active =>
    cases hi : s.tasks[i]? with
    | none => simp [step, hi] at hs
    | some t =>
      obtain ⟨request, point⟩ := t
      cases point with
      | refresh =>
        simp only [step, hi, Option.some.injEq] at hs
        subst hs
        exact sound_goOn cap i _ _ (sound_refresh cap active s h) (by simp)
      | count =>
        simp only [step, hi, Option.some.injEq] at hs
        subst hs
        exact sound_enforceBotQuota cap i request s h
      | body userBots =>
        simp only [step, hi, Option.some.injEq] at hs
        subst hs
        unfold finish
        cases hf : outcome s.files request with
        | error e => exact sound_answer cap i _ s h
        | ok f =>
          obtain ⟨hroom, hnew⟩ := (undisturbed_body_iff cap i active s request userBots f h hi hf).mp hG
          exact sound_goOn cap i _ _ (sound_write cap f s h hroom hnew) (by simp)
      | invalidate slug =>
        simp only [step, hi, Option.some.injEq] at hs
        subst hs
        exact sound_answer cap i _ _
          ⟨⟨h.kept.quota, h.kept.overwritten⟩, h.nodup, h.registry, h.counted⟩

theorem not_kept_step (cap : ℕ) (s s' : BotQuota) (l : BotQuotaStep) (h : Sound cap s)
    (hG : ¬ Undisturbed cap s l) (hs : step cap s l = some s') : ¬ Kept cap s' := by
  cases l with
  | elapse d => exact absurd trivial hG
  | arrive request => exact absurd trivial hG
  | resume i active =>
    cases hi : s.tasks[i]? with
    | none => simp [step, hi] at hs
    | some t =>
      obtain ⟨request, point⟩ := t
      cases point with
      | refresh => exact absurd (by simp [Undisturbed, hi, TaskUndisturbed]) hG
      | count => exact absurd (by simp [Undisturbed, hi, TaskUndisturbed]) hG
      | invalidate slug => exact absurd (by simp [Undisturbed, hi, TaskUndisturbed]) hG
      | body userBots =>
        simp only [step, hi, Option.some.injEq] at hs
        subst hs
        cases hf : outcome s.files request with
        | error e => exact absurd (by simp [Undisturbed, hi, TaskUndisturbed, hf, HasRoom]) hG
        | ok f =>
          rw [undisturbed_body_iff cap i active s request userBots f h hi hf] at hG
          simp only [finish, hf]
          exact not_kept_write cap i _ f s hG

theorem sound_boot (cap : ℕ) (files : YamlFiles) (clock : Instant)
    (h : files.items.length ≤ cap) : Sound cap (boot files clock) where
  kept := ⟨h, rfl⟩
  nodup := slugs_nodup files
  registry := List.Subset.refl _
  counted := by
    intro request userBots hmem
    cases hmem

/-- A bot's name and its stem. -/
def gridName : BotName := ⟨['G', 'r', 'i', 'd'], by decide, by decide, by decide⟩

/-- A request to create `Grid`. -/
def createGrid : CreateRequest := .create (.ok (gridName, .bot (some gridName.chars) "mode: paper"))

/-- A request to import a bot under a stem. -/
def importOther : CreateRequest :=
  .importBot ['o', 't', 'h', 'e', 'r'] (.ok (.bot (some ['O']) "mode: paper"))

/-- One bot is created; a second request is counted after it. -/
def inTurn : List BotQuotaStep :=
  [.arrive createGrid, .resume 0 true, .resume 0 true, .resume 0 true, .resume 0 true,
    .elapse 1000000, .arrive importOther, .resume 0 true, .resume 0 true]

/-- Both requests are counted before either body is read. -/
def atOnce : List BotQuotaStep :=
  [.arrive createGrid, .arrive importOther, .resume 0 true, .resume 1 true, .resume 0 true,
    .resume 1 true, .resume 0 true, .resume 1 true]

end BotQuota

end Reverto
