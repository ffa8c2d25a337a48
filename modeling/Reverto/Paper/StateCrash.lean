import Mathlib.Tactic
import Reverto.Paper.StateIO
import Reverto.Web.BotPurge

/-!
# A crash within a write of the state file (paper/state_io.py)

`StateIO.write` fills a temporary file and replaces the state file by it. The next
start calls `StateIO.load`, which first sweeps the temporary files it takes for
the bot's.
-/

namespace Reverto

namespace FilePath

/-- The characters after the last dot of a name, all of them if it has none. -/
def afterLastDot (name : List Char) : List Char := (name.reverse.takeWhile (· != '.')).reverse

/-- `Path.suffix`: from the last dot on, unless the name begins or ends with that dot. -/
def suffix (p : FilePath) : List Char :=
  if afterLastDot p.name ≠ [] ∧ (afterLastDot p.name).length + 1 < p.name.length then
    '.' :: afterLastDot p.name
  else []

/-- `Path.with_suffix` -/
def withSuffix (p : FilePath) (new : List Char) : FilePath :=
  ⟨p.folder, p.name.take (p.name.length - p.suffix.length) ++ new⟩

/-- `.tmp` -/
def tmpMark : List Char := ['.', 't', 'm', 'p']

theorem suffix_dotted (folder : UserFolder) (a b : List Char) (ha : a ≠ []) (hb : b ≠ [])
    (hdot : '.' ∉ b) : suffix ⟨folder, a ++ '.' :: b⟩ = '.' :: b := by
  have hlast : afterLastDot (a ++ '.' :: b) = b := by
    have hrev : (a ++ '.' :: b).reverse = b.reverse ++ '.' :: a.reverse := by
      rw [List.reverse_append, List.reverse_cons, List.append_assoc, List.singleton_append]
    rw [afterLastDot, hrev, BotSlugs.takeWhile_until b.reverse '.' a.reverse
      (fun h => hdot (List.mem_reverse.mp h)), List.reverse_reverse]
  have hlength : b.length + 1 < (a ++ '.' :: b).length := by
    have hpos : 0 < a.length := List.length_pos_of_ne_nil ha
    rw [List.length_append, List.length_cons]
    omega
  rw [suffix, hlast, if_pos ⟨hb, hlength⟩]

theorem withSuffix_dotted (folder : UserFolder) (a b new : List Char) (ha : a ≠ []) (hb : b ≠ [])
    (hdot : '.' ∉ b) : withSuffix ⟨folder, a ++ '.' :: b⟩ new = ⟨folder, a ++ new⟩ := by
  have hlength : (a ++ '.' :: b).length - ('.' :: b).length = a.length := by
    rw [List.length_append, Nat.add_sub_cancel]
  rw [withSuffix, suffix_dotted folder a b ha hb hdot]
  simp only [hlength, List.take_left]

end FilePath

/-- The steps of `tmp.write_text(...)` and `tmp.replace(state_file)`. -/
inductive FileStep where
  | create (p : FilePath)
  | put (p : FilePath) (c : Char)
  | replace (p target : FilePath)

/-- A file that is created anew loses what it held; without its source a replace
raises and changes nothing. -/
def FileStep.apply (files : FileTree) : FileStep → FileTree
  | .create p => files.set ⟨p, ""⟩
  | .put p c =>
    match files.get? p with
    | some f => files.set ⟨p, f.content.push c⟩
    | none => files
  | .replace p target =>
    match files.get? p with
    | some f => (files.pop p).set ⟨target, f.content⟩
    | none => files

/-- The persistence layer of an engine. -/
structure StateIo where
  stateFile : Option FilePath

namespace StateIo

/-- `StateIO(bot_state_path(user_id, slug))` -/
def ofBot (user : ℕ) (slug : BotSlug) : StateIo := ⟨some (BotFile.state.path user slug)⟩

variable (dumps : StateDoc → String) (loads : String → Option StateDoc)

/-- The steps of `write`; the text reaches the disk a few characters at a time. -/
def writeSteps (io : StateIo) (doc : StateDoc) : List FileStep :=
  match io.stateFile with
  | none => []
  | some f =>
    .create (f.withSuffix FilePath.tmpMark) ::
      ((dumps doc).toList.map (FileStep.put (f.withSuffix FilePath.tmpMark)) ++
        [.replace (f.withSuffix FilePath.tmpMark) f])

/-- The files after a `write` that a crash or an exception ended after some of its steps. -/
def writeUpTo (io : StateIo) (files : FileTree) (doc : StateDoc) (steps : ℕ) : FileTree :=
  ((writeSteps dumps io doc).take steps).foldl FileStep.apply files

/-- `glob("*.tmp")` and `startswith(stem)` of `cleanup_orphan_tmps`. -/
def IsOrphan (f p : FilePath) : Prop :=
  p.folder = f.folder ∧ FilePath.tmpMark <:+ p.name ∧ f.name <+: p.name

instance (f p : FilePath) : Decidable (IsOrphan f p) := inferInstanceAs (Decidable (_ ∧ _ ∧ _))

/-- `cleanup_orphan_tmps`; a file that cannot be unlinked stays. -/
def cleanupOrphanTmps (fails : FilePath → Bool) (io : StateIo) (files : FileTree) : FileTree :=
  match io.stateFile with
  | none => files
  | some f => files.filter fun x => !(decide (IsOrphan f x.path) && !fails x.path)

/-- `load`: the document and the files after its sweep. -/
def load (fails : FilePath → Bool) (io : StateIo) (files : FileTree) : Option StateDoc × FileTree :=
  (io.stateFile.bind fun f =>
      ((cleanupOrphanTmps fails io files).get? f).bind fun x => loads x.content,
    cleanupOrphanTmps fails io files)

/-- After the crash a start loads what it would have loaded before the write, or the
new document, and its sweep leaves no temporary file of the state. -/
structure CrashAtomic (fails : FilePath → Bool) (io : StateIo) (files : FileTree) (doc : StateDoc)
    (steps : ℕ) : Prop where
  document :
    (load loads fails io (writeUpTo dumps io files doc steps)).1 = (load loads fails io files).1 ∨
      (load loads fails io (writeUpTo dumps io files doc steps)).1 = some doc
  swept : ∀ f, io.stateFile = some f →
    (load loads fails io (writeUpTo dumps io files doc steps)).2.get?
      (f.withSuffix FilePath.tmpMark) = none

/-- The crash comes before the temporary file is created, and none is there from before,
or after the replace. -/
def OutsideTmp (io : StateIo) (files : FileTree) (doc : StateDoc) (steps : ℕ) : Prop :=
  (steps = 0 ∧ ∀ f, io.stateFile = some f → files.get? (f.withSuffix FilePath.tmpMark) = none) ∨
    (writeSteps dumps io doc).length ≤ steps

/-! ### What the steps of a write do -/

/-- The files once the temporary file holds these characters. -/
def filled (files : FileTree) (p : FilePath) (chars : List Char) : FileTree :=
  (chars.map (FileStep.put p)).foldl FileStep.apply (files.set ⟨p, ""⟩)

theorem get?_foldl_put (files : FileTree) (p : FilePath) (chars : List Char) (text : String)
    (h : files.get? p = some ⟨p, text⟩) :
    ((chars.map (FileStep.put p)).foldl FileStep.apply files).get? p =
      some ⟨p, text ++ String.ofList chars⟩ := by
  induction chars generalizing files text with
  | nil =>
    have htext : text ++ String.ofList [] = text := String.append_empty
    rw [htext]
    exact h
  | cons c rest ih =>
    have happly : (FileStep.put p c).apply files = files.set ⟨p, text.push c⟩ := by
      simp only [FileStep.apply, h]
    have hget : (files.set ⟨p, text.push c⟩).get? p = some ⟨p, text.push c⟩ :=
      KeyedDict.get?_set_self files ⟨p, text.push c⟩
    have htext : text.push c ++ String.ofList rest = text ++ String.ofList (c :: rest) := by
      apply String.toList_injective
      rw [String.toList_append, String.toList_append, String.toList_push, String.toList_ofList,
        String.toList_ofList, List.append_assoc, List.singleton_append]
    rw [List.map_cons, List.foldl_cons, happly, ih _ _ hget, htext]

theorem get?_foldl_put_of_ne (files : FileTree) (p q : FilePath) (chars : List Char) (hq : q ≠ p) :
    ((chars.map (FileStep.put p)).foldl FileStep.apply files).get? q = files.get? q := by
  induction chars generalizing files with
  | nil => rfl
  | cons c rest ih =>
    rw [List.map_cons, List.foldl_cons, ih]
    cases h : files.get? p with
    | none => simp only [FileStep.apply, h]
    | some f =>
      simp only [FileStep.apply, h]
      exact KeyedDict.get?_set_of_ne files ⟨p, f.content.push c⟩ q hq

theorem get?_filled (files : FileTree) (p : FilePath) (chars : List Char) :
    (filled files p chars).get? p = some ⟨p, String.ofList chars⟩ := by
  rw [filled, get?_foldl_put _ p chars "" (KeyedDict.get?_set_self files ⟨p, ""⟩), String.empty_append]

theorem get?_filled_of_ne (files : FileTree) (p q : FilePath) (chars : List Char) (hq : q ≠ p) :
    (filled files p chars).get? q = files.get? q := by
  rw [filled, get?_foldl_put_of_ne _ p q chars hq]
  exact KeyedDict.get?_set_of_ne files ⟨p, ""⟩ q hq

/-- The replace moves the whole text over the target and takes the temporary name away. -/
theorem get?_replaced (files : FileTree) (p target : FilePath) (chars : List Char)
    (hne : target ≠ p) :
    ((FileStep.replace p target).apply (filled files p chars)).get? target =
        some ⟨target, String.ofList chars⟩ ∧
      ((FileStep.replace p target).apply (filled files p chars)).get? p = none := by
  simp only [FileStep.apply, get?_filled]
  constructor
  · exact KeyedDict.get?_set_self _ (⟨target, String.ofList chars⟩ : StoredFile)
  · rw [KeyedDict.get?_set_of_ne _ _ p (Ne.symm hne)]
    exact KeyedDict.get?_pop_self _ p

/-! ### The names -/

variable (user : ℕ) (slug : BotSlug)

theorem withSuffix_state :
    (BotFile.state.path user slug).withSuffix FilePath.tmpMark = BotFile.stateTmp.path user slug := by
  have hname : slug.chars ++ '.' :: ['s', 't', 'a', 't', 'e', '.', 'j', 's', 'o', 'n'] =
      (slug.chars ++ '.' :: ['s', 't', 'a', 't', 'e']) ++ '.' :: ['j', 's', 'o', 'n'] := by
    rw [List.append_assoc]
    rfl
  have htmp : (slug.chars ++ '.' :: ['s', 't', 'a', 't', 'e']) ++ FilePath.tmpMark =
      slug.chars ++ '.' :: ['s', 't', 'a', 't', 'e', '.', 't', 'm', 'p'] := by
    rw [List.append_assoc]
    rfl
  simp only [BotFile.path]
  rw [hname, FilePath.withSuffix_dotted _ _ _ _ (by simp) (by decide) (by decide), htmp]

theorem state_ne_tmp : BotFile.state.path user slug ≠ BotFile.stateTmp.path user slug := by
  intro h
  have hname := List.append_cancel_left (congrArg FilePath.name h)
  revert hname
  decide

/-- The sweep looks for names that begin with `<slug>.state.json`. -/
theorem not_isOrphan_tmp :
    ¬ IsOrphan (BotFile.state.path user slug) (BotFile.stateTmp.path user slug) := by
  intro h
  have hname := (List.prefix_append_right_inj slug.chars).mp h.2.2
  revert hname
  decide

theorem not_isOrphan_state :
    ¬ IsOrphan (BotFile.state.path user slug) (BotFile.state.path user slug) := by
  intro h
  obtain ⟨front, hname⟩ := h.2.1
  have hlast := congrArg List.getLast? hname
  simp [FilePath.tmpMark, BotFile.path] at hlast

/-- The sweep keeps the state file and the temporary file of a write. -/
theorem get?_cleanupOrphanTmps (fails : FilePath → Bool) (files : FileTree) (p : FilePath)
    (h : ¬ IsOrphan (BotFile.state.path user slug) p) :
    (cleanupOrphanTmps fails (ofBot user slug) files).get? p = files.get? p := by
  apply KeyedDict.get?_filter_of_pos files
    (fun q => !(decide (IsOrphan (BotFile.state.path user slug) q) && !fails q)) p
  rw [decide_eq_false h]
  rfl

theorem load_document (fails : FilePath → Bool) (files : FileTree) :
    (load loads fails (ofBot user slug) files).1 =
      (files.get? (BotFile.state.path user slug)).bind fun x => loads x.content := by
  have hkept := get?_cleanupOrphanTmps user slug fails files _ (not_isOrphan_state user slug)
  simp only [load, ofBot, Option.bind_some] at hkept ⊢
  rw [hkept]

theorem load_tmp (fails : FilePath → Bool) (files : FileTree) :
    (load loads fails (ofBot user slug) files).2.get? (BotFile.stateTmp.path user slug) =
      files.get? (BotFile.stateTmp.path user slug) :=
  get?_cleanupOrphanTmps user slug fails files _ (not_isOrphan_tmp user slug)

/-! ### Every point of a crash -/

theorem writeSteps_ofBot (doc : StateDoc) :
    writeSteps dumps (ofBot user slug) doc =
      .create (BotFile.stateTmp.path user slug) ::
        ((dumps doc).toList.map (FileStep.put (BotFile.stateTmp.path user slug)) ++
          [.replace (BotFile.stateTmp.path user slug) (BotFile.state.path user slug)]) := by
  simp only [writeSteps, ofBot, withSuffix_state]

theorem length_writeSteps (doc : StateDoc) :
    (writeSteps dumps (ofBot user slug) doc).length = (dumps doc).toList.length + 2 := by
  rw [writeSteps_ofBot, List.length_cons, List.length_append, List.length_map, List.length_singleton]

/-- A crash between the creation and the replace leaves a part of the text. -/
theorem writeUpTo_within (files : FileTree) (doc : StateDoc) (n : ℕ)
    (h : n ≤ (dumps doc).toList.length) :
    writeUpTo dumps (ofBot user slug) files doc (n + 1) =
      filled files (BotFile.stateTmp.path user slug) ((dumps doc).toList.take n) := by
  have hlength : n ≤ ((dumps doc).toList.map (FileStep.put (BotFile.stateTmp.path user slug))).length := by
    rw [List.length_map]
    exact h
  rw [writeUpTo, writeSteps_ofBot, List.take_succ_cons, List.foldl_cons,
    List.take_append_of_le_length hlength, ← List.map_take]
  rfl

theorem writeUpTo_whole (files : FileTree) (doc : StateDoc) (steps : ℕ)
    (h : (writeSteps dumps (ofBot user slug) doc).length ≤ steps) :
    writeUpTo dumps (ofBot user slug) files doc steps =
      (FileStep.replace (BotFile.stateTmp.path user slug) (BotFile.state.path user slug)).apply
        (filled files (BotFile.stateTmp.path user slug) (dumps doc).toList) := by
  rw [writeUpTo, List.take_of_length_le h, writeSteps_ofBot, List.foldl_cons, List.foldl_append]
  rfl

/-- Of the state file a crash leaves the old text or the whole new one. -/
theorem state_writeUpTo (files : FileTree) (doc : StateDoc) (steps : ℕ) :
    (writeUpTo dumps (ofBot user slug) files doc steps).get? (BotFile.state.path user slug) =
      if (writeSteps dumps (ofBot user slug) doc).length ≤ steps then
        some ⟨BotFile.state.path user slug, dumps doc⟩
      else files.get? (BotFile.state.path user slug) := by
  by_cases hwhole : (writeSteps dumps (ofBot user slug) doc).length ≤ steps
  · rw [if_pos hwhole, writeUpTo_whole dumps user slug files doc steps hwhole,
      (get?_replaced files _ _ (dumps doc).toList (state_ne_tmp user slug)).1, String.ofList_toList]
  · rw [if_neg hwhole]
    cases steps with
    | zero => rfl
    | succ n =>
      have hn : n ≤ (dumps doc).toList.length := by
        rw [length_writeSteps] at hwhole
        omega
      rw [writeUpTo_within dumps user slug files doc n hn]
      exact get?_filled_of_ne files _ _ _ (state_ne_tmp user slug)

/-- The temporary file is there from its creation to the replace. -/
theorem tmp_writeUpTo_iff (files : FileTree) (doc : StateDoc) (steps : ℕ) :
    (writeUpTo dumps (ofBot user slug) files doc steps).get? (BotFile.stateTmp.path user slug) =
        none ↔
      OutsideTmp dumps (ofBot user slug) files doc steps := by
  have hnone : (∀ f, (ofBot user slug).stateFile = some f →
      files.get? (f.withSuffix FilePath.tmpMark) = none) ↔
        files.get? (BotFile.stateTmp.path user slug) = none := by
    rw [← withSuffix_state]
    constructor
    · intro h
      exact h _ rfl
    · intro h f hf
      cases hf
      exact h
  rw [OutsideTmp, hnone]
  by_cases hwhole : (writeSteps dumps (ofBot user slug) doc).length ≤ steps
  · rw [writeUpTo_whole dumps user slug files doc steps hwhole]
    have hgone := (get?_replaced files _ _ (dumps doc).toList (state_ne_tmp user slug)).2
    exact ⟨fun _ => Or.inr hwhole, fun _ => hgone⟩
  · cases steps with
    | zero =>
      constructor
      · intro h
        exact Or.inl ⟨rfl, h⟩
      · rintro (⟨_, h⟩ | h)
        · exact h
        · exact absurd h hwhole
    | succ n =>
      have hn : n ≤ (dumps doc).toList.length := by
        rw [length_writeSteps] at hwhole
        omega
      rw [writeUpTo_within dumps user slug files doc n hn, get?_filled]
      constructor
      · intro h
        cases h
      · rintro (⟨h, _⟩ | h)
        · cases h
        · exact absurd h hwhole

/-- What a start loads after a crash is the old document or the new one. -/
theorem load_writeUpTo (fails : FilePath → Bool) (files : FileTree) (doc : StateDoc) (steps : ℕ)
    (hloads : loads (dumps doc) = some doc) :
    (load loads fails (ofBot user slug) (writeUpTo dumps (ofBot user slug) files doc steps)).1 =
      if (writeSteps dumps (ofBot user slug) doc).length ≤ steps then some doc
      else (load loads fails (ofBot user slug) files).1 := by
  rw [load_document, load_document, state_writeUpTo]
  split
  · exact hloads
  · rfl

/-- A write is atomic at a crash exactly where the crash meets no temporary file. -/
theorem crashAtomic_iff (fails : FilePath → Bool) (files : FileTree) (doc : StateDoc) (steps : ℕ)
    (hloads : loads (dumps doc) = some doc) :
    CrashAtomic dumps loads fails (ofBot user slug) files doc steps ↔
      OutsideTmp dumps (ofBot user slug) files doc steps := by
  rw [← tmp_writeUpTo_iff, ← load_tmp loads user slug fails]
  constructor
  · intro h
    have hgone := h.swept _ rfl
    rw [withSuffix_state] at hgone
    exact hgone
  · intro h
    refine ⟨?_, ?_⟩
    · rw [load_writeUpTo dumps loads user slug fails files doc steps hloads]
      split
      · exact Or.inr rfl
      · exact Or.inl rfl
    · intro f hf
      cases hf
      rw [withSuffix_state]
      exact h

/-- The text of an empty document. -/
def braces : String := "{}"

/-- A reader that knows the empty document. -/
def readBraces (text : String) : Option StateDoc := if text = braces then some {} else none

/-- A write that comes to its end. -/
theorem crashAtomic_written :
    CrashAtomic (fun _ => braces) readBraces (fun _ => false) (ofBot 1 BotStore.alpha)
      KeyedDict.empty {} 4 :=
  (crashAtomic_iff (fun _ => braces) readBraces 1 BotStore.alpha (fun _ => false) KeyedDict.empty
    {} 4 (if_pos rfl)).mpr (Or.inr (length_writeSteps (fun _ => braces) 1 BotStore.alpha {}).le)

/-- The engine dies right after it has created the temporary file. -/
theorem not_crashAtomic_created :
    ¬ ∀ (user : ℕ) (slug : BotSlug) (dumps : StateDoc → String)
        (loads : String → Option StateDoc) (fails : FilePath → Bool) (files : FileTree)
        (doc : StateDoc) (steps : ℕ), loads (dumps doc) = some doc →
          CrashAtomic dumps loads fails (ofBot user slug) files doc steps := by
  intro h
  have hgone := (h 1 BotStore.alpha (fun _ => braces) readBraces (fun _ => false) KeyedDict.empty {} 1
    (if_pos rfl)).swept _ rfl
  rw [withSuffix_state, load_tmp, tmp_writeUpTo_iff] at hgone
  rcases hgone with ⟨hzero, _⟩ | hlength
  · cases hzero
  · rw [length_writeSteps] at hlength
    omega

end StateIo

end Reverto
