import Mathlib.Tactic
import Reverto.Lib.KeyedDict
import Reverto.Lib.Machine

/-!
# Bot names, slugs and sentinel files (web/app.py, web/routes/bots.py, core/trading_engine.py)

The portal keys a bot by the stem of its YAML file and names the sentinels of its
deals after that stem. The engine looks for them under a prefix that it derives
from the name inside the YAML. Names and stems are lists of characters here.
-/

namespace Reverto

/-! ### Names -/

/-- `str.isspace` -/
def isSpace (c : Char) : Bool :=
  decide (9 ≤ c.toNat ∧ c.toNat ≤ 13) || decide (28 ≤ c.toNat ∧ c.toNat ≤ 32) ||
    decide (c.toNat ∈ [0x85, 0xa0, 0x1680, 0x2028, 0x2029, 0x202f, 0x205f, 0x3000]) ||
    decide (0x2000 ≤ c.toNat ∧ c.toNat ≤ 0x200a)

/-- `str.strip` of the characters in a set. -/
def strip (p : Char → Bool) (l : List Char) : List Char :=
  ((l.dropWhile p).reverse.dropWhile p).reverse

/-- The characters of `_NAME_RE`. -/
def isNameChar (c : Char) : Bool := c.isAlphanum || c == ' ' || c == '-' || c == '_'

/-- The `name` of a `BotConfig` once it is validated. -/
structure BotName where
  chars : List Char
  length_pos : 1 ≤ chars.length
  length_le : chars.length ≤ 100
  all : chars.all isNameChar = true
  deriving DecidableEq

/-- `_validate_name` -/
def validateName (v : List Char) : Option BotName :=
  let cleaned := strip isSpace (v.filter fun c => decide (32 ≤ c.toNat) || c == '\t')
  if h : 1 ≤ cleaned.length ∧ cleaned.length ≤ 100 ∧ cleaned.all isNameChar = true then
    some ⟨cleaned, h.1, h.2.1, h.2.2⟩
  else none

/-- The characters of `_BOT_SLUG_RE`. -/
def isSlugChar (c : Char) : Bool := c.isAlphanum || c == '_' || c == '-'

/-- The stem of a bot's YAML file. -/
@[ext] structure BotSlug where
  chars : List Char
  length_pos : 1 ≤ chars.length
  all : chars.all isSlugChar = true
  deriving DecidableEq

namespace BotSlugs

/-- `.replace(" ", "_")` -/
def underscored (c : Char) : Char := if c = ' ' then '_' else c

/-- `slug` of `_check_deal_sentinels`. -/
def enginePrefix (name : BotName) : List Char :=
  (name.chars.map Char.toLower).map underscored

/-- `re.sub(r"_+", "_", cleaned)` -/
def collapse : List Char → List Char
  | [] => []
  | [c] => [c]
  | c :: d :: rest => if c = '_' ∧ d = '_' then collapse (d :: rest) else c :: collapse (d :: rest)

/-- The characters `_SLUG_RE` keeps. -/
def isSlugifyChar (c : Char) : Bool := c.isLower || c.isDigit || c == '_'

/-- `cleaned` of `slugify` before the check. -/
def slugifyChars (name : List Char) : List Char :=
  strip (· == '_')
    (collapse ((((strip isSpace name).map Char.toLower).map underscored).filter isSlugifyChar))

theorem strip_subset (p : Char → Bool) (l : List Char) : strip p l ⊆ l := by
  intro c hc
  have h1 := List.mem_reverse.mp hc
  have h2 := (List.dropWhile_sublist p).subset h1
  have h3 := List.mem_reverse.mp h2
  exact (List.dropWhile_sublist p).subset h3

theorem collapse_subset (l : List Char) : collapse l ⊆ l := by
  induction l using collapse.induct with
  | case1 => exact fun _ h => h
  | case2 c => exact fun _ h => h
  | case3 c d rest h ih =>
    simp only [collapse, h, and_self, if_true]
    rw [h.2] at ih
    exact fun x hx => List.mem_cons_of_mem _ (ih hx)
  | case4 c d rest h ih =>
    simp only [collapse, h, if_false]
    exact List.cons_subset_cons c ih

theorem slugifyChars_all (name : List Char) : (slugifyChars name).all isSlugChar = true := by
  rw [List.all_eq_true]
  intro c hc
  have hmem := collapse_subset _ (strip_subset _ _ hc)
  have hkept := (List.mem_filter.mp hmem).2
  simp only [isSlugifyChar, Bool.or_eq_true] at hkept
  simp only [isSlugChar, Bool.or_eq_true]
  rcases hkept with (h | h) | h
  · left
    left
    show ((c.isUpper || c.isLower) || c.isDigit) = true
    rw [h, Bool.or_true, Bool.true_or]
  · left
    left
    show (c.isAlpha || c.isDigit) = true
    rw [h, Bool.or_true]
  · exact Or.inl (Or.inr h)

/-- `slugify`; an empty slug is refused. -/
def slugify (name : BotName) : Option BotSlug :=
  if h : 1 ≤ (slugifyChars name.chars).length then
    some ⟨slugifyChars name.chars, h, slugifyChars_all name.chars⟩
  else none

/-- `str.title` from a place in the word. -/
def titleFrom (cased : Bool) : List Char → List Char
  | [] => []
  | c :: rest => (if cased then c.toLower else c.toUpper) :: titleFrom c.isAlpha rest

/-- `new_slug.replace("_", " ").replace("-", " ").title()` -/
def titleName (slug : BotSlug) : List Char :=
  titleFrom false (slug.chars.map fun c => if c = '_' ∨ c = '-' then ' ' else c)

end BotSlugs

/-! ### Sentinel files -/

/-- `DEAL_ID_RE` -/
def isDealId (l : List Char) : Bool :=
  (l.take 12).length == 12 && (l.take 12).all Char.isDigit && l.drop 12 != [] &&
    (l.drop 12).head? == some '-' && (l.drop 13).length == 4 && (l.drop 13).all Char.isDigit

/-- The id of a deal as the portal lets it through. -/
structure DealId where
  chars : List Char
  valid : isDealId chars = true
  deriving DecidableEq

/-- The actions of the deal sentinels. -/
inductive DealAction where
  | edit
  | cancel
  | close
  deriving DecidableEq

/-- The action as it stands in the name of the file. -/
def DealAction.chars : DealAction → List Char
  | .edit => ['e', 'd', 'i', 't']
  | .cancel => ['c', 'a', 'n', 'c', 'e', 'l']
  | .close => ['c', 'l', 'o', 's', 'e']

/-- The branches on `action` in `_check_deal_sentinels`. -/
def DealAction.parse (l : List Char) : Option DealAction :=
  if l = DealAction.edit.chars then some .edit
  else if l = DealAction.cancel.chars then some .cancel
  else if l = DealAction.close.chars then some .close
  else none

/-- What the portal asks of an engine through a file. -/
inductive BotRequest where
  | deal (action : DealAction) (id : DealId)
  | dealStart
  deriving DecidableEq

namespace BotSlugs

/-- `deal_` -/
def dealMark : List Char := ['d', 'e', 'a', 'l', '_']

/-- `manual_trigger` -/
def triggerMark : List Char := ['m', 'a', 'n', 'u', 'a', 'l', '_', 't', 'r', 'i', 'g', 'g', 'e', 'r']

/-- The file the portal writes for a bot. -/
def sentinelFile (slug : BotSlug) : BotRequest → List Char
  | .deal action id => slug.chars ++ '.' :: (dealMark ++ (action.chars ++ '_' :: id.chars))
  | .dealStart => slug.chars ++ '.' :: triggerMark

/-- The loop body of `_check_deal_sentinels` up to the action:
`name.split(".", 1)[1].split("_", 2)` and the check of the id. -/
def parseSentinel (file : List Char) : Option BotRequest :=
  let parts := (((file.dropWhile (· != '.')).drop 1).dropWhile (· != '_')).drop 1
  let dealId := (parts.dropWhile (· != '_')).drop 1
  if h : isDealId dealId = true then
    (DealAction.parse (parts.takeWhile (· != '_'))).map fun action => .deal action ⟨dealId, h⟩
  else none

/-- What an engine that runs under a stem and a name reads out of a file:
`_check_manual_trigger`, and the glob of `_check_deal_sentinels`. -/
def engineReads (slug : BotSlug) (name : BotName) (file : List Char) : Option BotRequest :=
  if file = slug.chars ++ '.' :: triggerMark then some .dealStart
  else if enginePrefix name ++ '.' :: dealMark <+: file then parseSentinel file
  else none

/-! ### Files and the engines that read them -/

theorem takeWhile_until (a : List Char) (x : Char) (b : List Char) (h : x ∉ a) :
    (a ++ x :: b).takeWhile (· != x) = a := by
  have hpos : ∀ c ∈ a, (c != x) = true := by
    intro c hc
    rw [bne_iff_ne]
    exact fun heq => h (heq ▸ hc)
  rw [List.takeWhile_append_of_pos hpos, List.takeWhile_cons]
  simp only [bne_self_eq_false, Bool.false_eq_true, if_false, List.append_nil]

theorem dropWhile_until (a : List Char) (x : Char) (b : List Char) (h : x ∉ a) :
    (a ++ x :: b).dropWhile (· != x) = x :: b := by
  have hpos : ∀ c ∈ a, (c != x) = true := by
    intro c hc
    rw [bne_iff_ne]
    exact fun heq => h (heq ▸ hc)
  rw [List.dropWhile_append_of_pos hpos, List.dropWhile_cons]
  simp only [bne_self_eq_false, Bool.false_eq_true, if_false]

/-- The part before the first dot determines a name without dots. -/
theorem before_dot (a b c d : List Char) (ha : '.' ∉ a) (hb : '.' ∉ b)
    (h : a ++ '.' :: c = b ++ '.' :: d) : a = b ∧ c = d := by
  have hleft := takeWhile_until a '.' c ha
  rw [h, takeWhile_until b '.' d hb] at hleft
  refine ⟨hleft.symm, ?_⟩
  rw [hleft] at h
  exact (List.cons.inj (List.append_cancel_left h)).2

theorem slug_no_dot (slug : BotSlug) : '.' ∉ slug.chars := by
  intro h
  have hc := List.all_eq_true.mp slug.all '.' h
  revert hc
  decide

/-- Only a capital letter is changed, and into a small one. -/
theorem eq_of_toLower (c d : Char) (hd : d.isLower = false) (h : c.toLower = d) : c = d := by
  unfold Char.toLower at h
  split at h
  · rename_i hupper
    exfalso
    obtain ⟨hlo, hhi⟩ := hupper
    have hlo' : 65 ≤ c.val.toNat := UInt32.le_iff_toNat_le.mp hlo
    have hhi' : c.val.toNat ≤ 90 := UInt32.le_iff_toNat_le.mp hhi
    have hval : d.val.toNat = c.val.toNat + 32 := by
      rw [← h]
      have hadd : (c.val + ('a'.val - 'A'.val)).toNat = (c.val.toNat + 32) % 4294967296 :=
        UInt32.toNat_add _ _
      rw [hadd]
      omega
    have hlower : d.isLower = true := by
      show (decide ('a'.val ≤ d.val) && decide (d.val ≤ 'z'.val)) = true
      have ha : 'a'.val.toNat = 97 := rfl
      have hz : 'z'.val.toNat = 122 := rfl
      have hle : 'a'.val ≤ d.val := by
        rw [UInt32.le_iff_toNat_le]
        omega
      have hge : d.val ≤ 'z'.val := by
        rw [UInt32.le_iff_toNat_le]
        omega
      rw [decide_eq_true hle, decide_eq_true hge, Bool.and_self]
    rw [hd] at hlower
    cases hlower
  · exact h

theorem enginePrefix_no_dot (name : BotName) : '.' ∉ enginePrefix name := by
  intro h
  obtain ⟨d, hd, hdot⟩ := List.mem_map.mp h
  obtain ⟨c, hc, hcd⟩ := List.mem_map.mp hd
  have hname := List.all_eq_true.mp name.all c hc
  have hlower : c.toLower = '.' := by
    rw [hcd]
    unfold underscored at hdot
    split at hdot
    · cases hdot
    · exact hdot
  rw [eq_of_toLower c '.' (by decide) hlower] at hname
  revert hname
  decide

theorem action_no_mark (action : DealAction) : '_' ∉ action.chars := by
  cases action <;> decide

theorem parse_action (action : DealAction) : DealAction.parse action.chars = some action := by
  cases action <;> decide

/-- The engine reads the action and the id back. -/
theorem parseSentinel_file (slug : BotSlug) (action : DealAction) (id : DealId) :
    parseSentinel (sentinelFile slug (.deal action id)) = some (.deal action id) := by
  have hrest : (((sentinelFile slug (.deal action id)).dropWhile (· != '.')).drop 1).dropWhile
      (· != '_') = '_' :: (action.chars ++ '_' :: id.chars) := by
    rw [sentinelFile, dropWhile_until _ '.' _ (slug_no_dot slug)]
    rfl
  have hid : ((action.chars ++ '_' :: id.chars).dropWhile (· != '_')).drop 1 = id.chars := by
    rw [dropWhile_until _ '_' _ (action_no_mark action)]
    rfl
  have haction : (action.chars ++ '_' :: id.chars).takeWhile (· != '_') = action.chars :=
    takeWhile_until _ '_' _ (action_no_mark action)
  simp only [parseSentinel, hrest, List.drop_succ_cons, List.drop_zero, hid, haction,
    parse_action, id.valid, dif_pos, Option.map_some]

/-- An engine reads the file of a request exactly when it goes by the stem, for a
deal under its prefix and for a start under its own stem. -/
theorem engineReads_file (slug slug' : BotSlug) (name : BotName) (r : BotRequest) :
    engineReads slug' name (sentinelFile slug r) =
      match r with
      | .deal _ _ => if enginePrefix name = slug.chars then some r else none
      | .dealStart => if slug = slug' then some r else none := by
  cases r with
  | dealStart =>
    rw [engineReads]
    by_cases h : slug = slug'
    · have hstart : sentinelFile slug .dealStart = slug'.chars ++ '.' :: triggerMark := by
        rw [h]
        rfl
      rw [if_pos hstart]
      exact (if_pos h).symm
    · have hstart : sentinelFile slug .dealStart ≠ slug'.chars ++ '.' :: triggerMark := by
        intro heq
        exact h (BotSlug.ext (before_dot _ _ _ _ (slug_no_dot slug) (slug_no_dot slug') heq).1)
      have hglob : ¬ enginePrefix name ++ '.' :: dealMark <+: sentinelFile slug .dealStart := by
        rintro ⟨rest, hrest⟩
        rw [List.append_assoc, List.cons_append] at hrest
        have hmark := (before_dot _ _ _ _ (enginePrefix_no_dot name) (slug_no_dot slug) hrest).2
        cases hmark
      rw [if_neg hstart, if_neg hglob]
      exact (if_neg h).symm
  | deal action id =>
    have hstart : sentinelFile slug (.deal action id) ≠ slug'.chars ++ '.' :: triggerMark := by
      intro heq
      have hmark := (before_dot _ _ _ _ (slug_no_dot slug) (slug_no_dot slug') heq).2
      cases hmark
    rw [engineReads, if_neg hstart]
    by_cases h : enginePrefix name = slug.chars
    · have hglob : enginePrefix name ++ '.' :: dealMark <+: sentinelFile slug (.deal action id) := by
        rw [h, sentinelFile]
        refine ⟨action.chars ++ '_' :: id.chars, ?_⟩
        rw [List.append_assoc, List.cons_append]
      rw [if_pos hglob, parseSentinel_file]
      exact (if_pos h).symm
    · have hglob : ¬ enginePrefix name ++ '.' :: dealMark <+: sentinelFile slug (.deal action id) := by
        rintro ⟨rest, hrest⟩
        rw [List.append_assoc, List.cons_append, sentinelFile] at hrest
        exact h (before_dot _ _ _ _ (enginePrefix_no_dot name) (slug_no_dot slug) hrest).1
      rw [if_neg hglob]
      exact (if_neg h).symm

end BotSlugs

/-! ### The bots of a user -/

/-- A bot: its YAML file and, while an engine runs, the name that engine has loaded. -/
structure Bot where
  slug : BotSlug
  name : List Char
  running : Option BotName
  deriving DecidableEq

/-- The names an engine of the bot runs under, or would if it were started. -/
def Bot.engines (b : Bot) : List BotName := b.running.toList ++ (validateName b.name).toList

/-- The bots of one user under the stems of their files. -/
abbrev UserBots := KeyedDict Bot.slug

/-- The requests of the portal that pass their checks, and engines that start and stop. -/
inductive BotsStep where
  | create (name : List Char)
  | update (slug : BotSlug) (name : List Char)
  | duplicate (source newSlug : BotSlug)
  | importBot (target : BotSlug) (name : List Char)
  | delete (slug : BotSlug)
  | start (slug : BotSlug)
  | stop (slug : BotSlug)

namespace UserBots

open BotSlugs

/-- A new file, if there is none under its stem. -/
def addBot (s : UserBots) (slug : BotSlug) (name : List Char) : Option UserBots :=
  match s.get? slug with
  | some _ => none
  | none => some (s.set ⟨slug, name, none⟩)

/-- The stem `create_bot` gives to a name. -/
def createdSlug (name : List Char) : Option BotSlug := (validateName name).bind slugify

/-- One step. -/
def step (s : UserBots) : BotsStep → Option UserBots
  | .create name =>
    match createdSlug name with
    | none => none
    | some slug => s.addBot slug name
  | .update slug name =>
    match s.get? slug, validateName name with
    | some b, some _ => some (s.set { b with name := name })
    | _, _ => none
  | .duplicate source newSlug =>
    match s.get? source with
    | none => none
    | some _ => s.addBot newSlug (titleName newSlug)
  | .importBot target name =>
    match validateName name with
    | none => none
    | some _ => s.addBot target (titleName target)
  | .delete slug =>
    match s.get? slug with
    | some ⟨_, _, none⟩ => some (s.pop slug)
    | _ => none
  | .start slug =>
    match s.get? slug with
    | some ⟨slug, name, none⟩ =>
      match validateName name with
      | some n => some (s.set ⟨slug, name, some n⟩)
      | none => none
    | _ => none
  | .stop slug =>
    match s.get? slug with
    | some b => some (s.set { b with running := none })
    | none => none

/-- Each file the portal writes for a bot is read by the engine of that bot and by
the engine of no other. -/
structure Routed (s : UserBots) : Prop where
  own : ∀ slug b, s.get? slug = some b → ∀ name ∈ b.engines, ∀ r,
    engineReads slug name (sentinelFile slug r) = some r
  others : ∀ slug b slug' b', s.get? slug = some b → s.get? slug' = some b' → slug ≠ slug' →
    ∀ name ∈ b'.engines, ∀ r, engineReads slug' name (sentinelFile slug r) = none

/-- The engine looks under the stem for a bot of that name. -/
def Fits (slug : BotSlug) (name : List Char) : Prop :=
  ∀ n, validateName name = some n → enginePrefix n = slug.chars

instance decidableFits (slug : BotSlug) (name : List Char) : Decidable (Fits slug name) :=
  match h : validateName name with
  | none => .isTrue fun n hn => by rw [h] at hn; cases hn
  | some n =>
    decidable_of_iff (enginePrefix n = slug.chars)
      ⟨fun heq m hm => by rw [h] at hm; cases hm; exact heq, fun hfits => hfits n h⟩

/-- The name that a request puts into a file is one under which the engine looks
for the stem of that file. -/
def NamesFit (_ : UserBots) : BotsStep → Prop
  | .create name => ∀ slug ∈ createdSlug name, Fits slug name
  | .update slug name => Fits slug name
  | .duplicate _ newSlug => Fits newSlug (titleName newSlug)
  | .importBot target _ => Fits target (titleName target)
  | _ => True

instance decidableNamesFit (s : UserBots) : ∀ l, Decidable (s.NamesFit l)
  | .create name => inferInstanceAs (Decidable (∀ slug ∈ createdSlug name, Fits slug name))
  | .update slug name => decidableFits slug name
  | .duplicate _ newSlug => decidableFits newSlug (titleName newSlug)
  | .importBot target _ => decidableFits target (titleName target)
  | .delete _ => .isTrue trivial
  | .start _ => .isTrue trivial
  | .stop _ => .isTrue trivial

/-- Every engine looks under the stem of its bot. -/
def Matched (s : UserBots) : Prop :=
  ∀ slug b, s.get? slug = some b → ∀ name ∈ b.engines, enginePrefix name = slug.chars

/-- An id the portal lets through. -/
def someDealId : DealId := ⟨['2', '0', '2', '5', '0', '1', '0', '1', '0', '0', '0', '0', '-', '0', '0', '0', '1'], by decide⟩

theorem routed_iff_matched (s : UserBots) : s.Routed ↔ s.Matched := by
  constructor
  · intro h slug b hb name hname
    have hown := h.own slug b hb name hname (.deal .edit someDealId)
    rw [engineReads_file] at hown
    by_contra hne
    simp only [if_neg hne] at hown
    cases hown
  · intro h
    constructor
    · intro slug b hb name hname r
      rw [engineReads_file]
      cases r with
      | deal action id => exact if_pos (h slug b hb name hname)
      | dealStart => exact if_pos rfl
    · intro slug b slug' b' _ hb' hne name hname r
      rw [engineReads_file]
      cases r with
      | deal action id =>
        apply if_neg
        rw [h slug' b' hb' name hname]
        exact fun heq => hne (BotSlug.ext heq.symm)
      | dealStart => exact if_neg hne

/-! ### What a step does to the names -/

theorem matched_set (s : UserBots) (b : Bot) (h : s.Matched)
    (hb : ∀ name ∈ b.engines, enginePrefix name = b.slug.chars) : Matched (s.set b) := by
  intro slug c hc name hname
  by_cases hslug : slug = b.slug
  · subst hslug
    rw [KeyedDict.get?_set_self] at hc
    cases hc
    exact hb name hname
  · rw [KeyedDict.get?_set_of_ne _ _ _ hslug] at hc
    exact h slug c hc name hname

theorem engines_stopped (slug : BotSlug) (name : List Char) (n : BotName) :
    n ∈ (⟨slug, name, none⟩ : Bot).engines ↔ validateName name = some n := by
  simp only [Bot.engines, Option.toList_none, List.nil_append, Option.mem_toList]

theorem matched_addBot (s s' : UserBots) (slug : BotSlug) (name : List Char) (h : s.Matched)
    (hadd : s.addBot slug name = some s') : Matched s' ↔ Fits slug name := by
  unfold addBot at hadd
  split at hadd
  · cases hadd
  · cases hadd
    constructor
    · intro hmatched n hn
      exact hmatched slug _ (KeyedDict.get?_set_self s ⟨slug, name, none⟩) n
        ((engines_stopped slug name n).mpr hn)
    · intro hfits
      refine matched_set s _ h ?_
      intro n hn
      exact hfits n ((engines_stopped slug name n).mp hn)

/-- A step from bots that match leads to such bots exactly when its name fits. -/
theorem matched_step_iff (s s' : UserBots) (l : BotsStep) (h : s.Matched)
    (hs : s.step l = some s') : s'.Matched ↔ s.NamesFit l := by
  cases l with
  | create name =>
    simp only [step] at hs
    cases hc : createdSlug name with
    | none =>
      rw [hc] at hs
      cases hs
    | some slug =>
      rw [hc] at hs
      rw [matched_addBot s s' slug name h hs]
      simp only [NamesFit, hc, Option.mem_some_iff, forall_eq']
  | update slug name =>
    simp only [step] at hs
    split at hs
    · rename_i b n hb hn
      cases hs
      have hkey : b.slug = slug := (KeyedDict.get?_mem s slug b hb).2
      constructor
      · intro hmatched m hm
        have hmem : m ∈ ({ b with name := name } : Bot).engines := by
          simp only [Bot.engines, List.mem_append, Option.mem_toList, hm, or_true]
        have hget := KeyedDict.get?_set_self s { b with name := name }
        rw [← hkey]
        exact hmatched b.slug _ hget m hmem
      · intro hfits
        refine matched_set s _ h ?_
        intro m hm
        rcases List.mem_append.mp hm with hrunning | hloaded
        · have hold : m ∈ b.engines := List.mem_append_left _ hrunning
          have hmatch := h slug b hb m hold
          rw [hmatch, ← hkey]
        · rw [hfits m (Option.mem_toList.mp hloaded), ← hkey]
    · cases hs
  | duplicate source newSlug =>
    simp only [step] at hs
    split at hs
    · cases hs
    · exact matched_addBot s s' newSlug (titleName newSlug) h hs
  | importBot target name =>
    simp only [step] at hs
    split at hs
    · cases hs
    · exact matched_addBot s s' target (titleName target) h hs
  | delete slug =>
    simp only [step] at hs
    split at hs
    · cases hs
      refine ⟨fun _ => trivial, fun _ => ?_⟩
      intro slug' b hb name hname
      by_cases heq : slug' = slug
      · rw [heq, KeyedDict.get?_pop_self] at hb
        cases hb
      · rw [KeyedDict.get?_pop_of_ne _ _ _ heq] at hb
        exact h slug' b hb name hname
    · cases hs
  | start slug =>
    simp only [step] at hs
    split at hs
    · rename_i slug' name hb
      split at hs
      · rename_i n hn
        cases hs
        refine ⟨fun _ => trivial, fun _ => ?_⟩
        have hkey : slug' = slug := (KeyedDict.get?_mem s slug _ hb).2
        refine matched_set s _ h ?_
        intro m hm
        have hload : validateName name = some m := by
          simp only [Bot.engines, hn, Option.toList_some, List.mem_append, List.mem_singleton,
            or_self] at hm
          rw [hn, hm]
        have hmatch := h slug _ hb m ((engines_stopped slug' name m).mpr hload)
        rw [hmatch]
        exact congrArg BotSlug.chars hkey.symm
      · cases hs
    · cases hs
  | stop slug =>
    simp only [step] at hs
    split at hs
    · rename_i b hb
      cases hs
      refine ⟨fun _ => trivial, fun _ => ?_⟩
      have hkey : b.slug = slug := (KeyedDict.get?_mem s slug b hb).2
      refine matched_set s _ h ?_
      intro m hm
      have hold : m ∈ b.engines := List.mem_append_right _ hm
      have hmatch := h slug b hb m hold
      rw [hmatch, ← hkey]
    · cases hs

/-- Over a run the sentinels reach their engines, and only these, exactly when
every request gives a name that fits. -/
theorem routed_throughout_iff (ls : List BotsStep) (s : UserBots)
    (hrun : Machine.run step KeyedDict.empty ls = some s) :
    Machine.Throughout step Routed KeyedDict.empty ls ↔
      Machine.Guarded step NamesFit KeyedDict.empty ls := by
  refine (Machine.guarded_iff_throughout step (fun _ => True) NamesFit Matched Routed ?_ ?_ ?_
    KeyedDict.empty s ls ?_ (fun _ _ => trivial) hrun).symm
  · intro s l s' _ hI hG hs
    exact (matched_step_iff s s' l hI hs).mpr hG
  · intro s hI
    exact (routed_iff_matched s).mpr hI
  · intro s l s' _ hI hG hs hrouted
    exact hG ((matched_step_iff s s' l hI hs).mp ((routed_iff_matched s').mp hrouted))
  · intro slug b hb
    cases hb

/-- `My Bot`, and the stem it gets. -/
def spacedName : List Char := ['M', 'y', ' ', 'B', 'o', 't']

def spacedSlug : BotSlug := ⟨['m', 'y', '_', 'b', 'o', 't'], by decide, by decide⟩

/-- `My-Bot`, and the stem it gets. -/
def hyphenName : List Char := ['M', 'y', '-', 'B', 'o', 't']

def hyphenSlug : BotSlug := ⟨['m', 'y', 'b', 'o', 't'], by decide, by decide⟩

/-- A bot whose name has a space, and an engine that runs it. -/
def spacedBot : List BotsStep :=
  [.create spacedName, .start spacedSlug]

theorem routed_spacedBot :
    (∃ s, Machine.run step KeyedDict.empty spacedBot = some s) ∧
      Machine.Throughout step Routed KeyedDict.empty spacedBot := by
  have hguarded : Machine.Guarded step NamesFit KeyedDict.empty spacedBot := by
    decide +kernel
  have hsome : (Machine.run step KeyedDict.empty spacedBot).isSome = true := by
    decide +kernel
  obtain ⟨s, hs⟩ := Option.isSome_iff_exists.mp hsome
  exact ⟨⟨s, hs⟩, (routed_throughout_iff spacedBot s hs).mpr hguarded⟩

/-- The stem of `My-Bot` is `mybot`, its engine looks for files of `my-bot`. -/
theorem not_routed_hyphen :
    ¬ ∀ (ls : List BotsStep) (s : UserBots), Machine.run step KeyedDict.empty ls = some s →
      Machine.Throughout step Routed KeyedDict.empty ls := by
  intro h
  have hsome : (Machine.run step KeyedDict.empty [.create hyphenName]).isSome = true := by
    decide +kernel
  obtain ⟨s, hs⟩ := Option.isSome_iff_exists.mp hsome
  have hlast := Machine.throughout_last step Routed KeyedDict.empty s _ hs (h _ s hs)
  have hmatched := (routed_iff_matched s).mp hlast
  have hview : (Machine.run step KeyedDict.empty [.create hyphenName]).map (fun s =>
      (s.get? hyphenSlug).map fun b =>
        b.engines.map enginePrefix) = some (some [['m', 'y', '-', 'b', 'o', 't']]) := by
    decide +kernel
  rw [hs, Option.map_some, Option.some.injEq] at hview
  obtain ⟨b, hb, hnames⟩ := Option.map_eq_some_iff.mp hview
  obtain ⟨name, hname, hlooked⟩ := List.mem_map.mp
    (show ['m', 'y', '-', 'b', 'o', 't'] ∈ b.engines.map enginePrefix by
      rw [hnames]
      exact List.mem_singleton_self _)
  have hstem := hmatched _ b hb name hname
  rw [hlooked] at hstem
  revert hstem
  decide

end UserBots

end Reverto
