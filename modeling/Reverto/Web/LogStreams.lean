import Mathlib.Data.List.TakeWhile
import Mathlib.Tactic
import Reverto.Web.LogTail

/-!
# When the log streams are exact (web/app.py, tail_logs)

The cursor is kept by slug and taken before the file is read. A scan is clean where no other log
shares its cursor, a read where nothing was appended since its `stat`.
-/

namespace Reverto

namespace LogTail

open TextLines

variable (p : Portal)

/-- No other target with the slug has a log, and a bot is not named as the portal is. -/
structure OwnCursor (w : World) (t : Target) : Prop where
  slug : ∀ u ∈ p.targets, u.slug = t.slug → w.files u.logFile ≠ none → u = t
  named : t.ownerUserId ≠ none → t.slug ≠ "portal"

/-- The log is as long as `stat` saw it, and whole characters lie behind the cursor. -/
structure Steady (w : World) (t : Target) (size prev : ℕ) : Prop where
  size : ((w.files t.logFile).getD []).length = size
  whole : ∃ s, ((w.files t.logFile).getD []).drop prev = encode s

/-- A step that neither shares a cursor nor reads what `stat` did not see. -/
def Clean (w : World) : Step → Prop
  | .tail _ =>
    match w.phase with
    | .scan (t :: _) => w.files t.logFile ≠ none → OwnCursor p w t
    | .read t size prev _ => t.ownerUserId ≠ none → Steady w t size prev
    | _ => True
  | _ => True

/-- The targets a round has still to read. -/
def Phase.todo : Phase → List Target
  | .scan rest => rest
  | .read t _ _ rest => t :: rest
  | .send _ _ rest => rest

/-- The lines of the log that are read and not yet broadcast. -/
def pending (w : World) (b : Bot) : List Char :=
  match w.phase with
  | .send t calls _ => if t.logFile = b.logFile then (calls.map Prod.fst).flatten else []
  | _ => []

theorem mem_targets (b : Bot) (hb : b ∈ p.bots) : b.target ∈ p.targets :=
  List.mem_append_left _ (List.mem_map_of_mem hb)

/-- A target with the log of a bot is the target of the bot. -/
theorem target_eq (t : Target) (ht : t ∈ p.targets) (b : Bot) (h : t.logFile = b.logFile) :
    t = b.target := by
  rcases List.mem_append.mp ht with ht | ht
  · obtain ⟨c, _, rfl⟩ := List.mem_map.mp ht
    obtain ⟨hid, hslug⟩ := LogFile.bot.inj h
    have hbot : c = b := by
      cases c
      cases b
      simp only [Bot.mk.injEq]
      exact ⟨hid, hslug⟩
    rw [hbot]
  · rw [List.mem_singleton.mp ht] at h
    cases h

/-! ### What holds of the loop -/

/-- What every clean run keeps of the loop itself. -/
structure Sound (w : World) : Prop where
  members : ∀ t ∈ w.phase.todo, t ∈ p.targets
  sends : ∀ t calls rest, w.phase = .send t calls rest →
    t ∈ p.targets ∧ ∀ c ∈ calls, t.ownerUserId ≠ none → c.2 = t.ownerUserId
  reads : ∀ t size prev rest, w.phase = .read t size prev rest →
    w.files t.logFile ≠ none ∧ (t.ownerUserId ≠ none → t.slug ≠ "portal")
  known : ∀ slug, w.last slug ≠ none → ∃ u ∈ p.targets, u.slug = slug ∧ w.files u.logFile ≠ none
  owner : ∀ b : Bot, ∀ f ∈ w.frames, f.source = b.logFile → f.slug = b.slug ∧
    f.ownerUserId = some b.userId ∧ ∀ s ∈ f.sockets, s.slug = b.slug ∧ s.userId = b.userId

/-- The first `n` bytes of the log of the bot are read. -/
structure At (w : World) (b : Bot) (n : ℕ) : Prop where
  le : n ≤ (content w b).length
  whole : ∃ s, (content w b).take n = encode s
  text : Shows isSpace (shown w b ++ pending w b) (decode ((content w b).take n))
  cursor : w.files b.logFile ≠ none → OwnCursor p w b.target → n = (w.last b.slug).getD 0
  reading : ∀ size prev rest, w.phase = .read b.target size prev rest → n = prev

/-- Where only the phase changes and nothing is read, the bytes read stay the same. -/
theorem At.rephase (w w' : World) (b : Bot) (n : ℕ) (h : At p w b n) (hfiles : w'.files = w.files)
    (hframes : w'.frames = w.frames) (hpending : pending w' b = pending w b)
    (hcursor : w.files b.logFile ≠ none → OwnCursor p w b.target →
      (w'.last b.slug).getD 0 = (w.last b.slug).getD 0)
    (hreading : ∀ size prev rest, w'.phase = .read b.target size prev rest → n = prev) :
    At p w' b n := by
  have hcontent : content w' b = content w b := by rw [content, content, hfiles]
  have hshown : shown w' b = shown w b := by rw [shown, shown, hframes]
  refine ⟨?_, ?_, ?_, fun hfile hown => ?_, hreading⟩
  · rw [hcontent]
    exact h.le
  · rw [hcontent]
    exact h.whole
  · rw [hcontent, hshown, hpending]
    exact h.text
  · rw [hfiles] at hfile
    have hown' : OwnCursor p w b.target := ⟨fun u hu hs hf => hown.slug u hu hs (hfiles ▸ hf), hown.named⟩
    rw [hcursor hfile hown']
    exact h.cursor hfile hown'

/-! ### The lines of a read -/

theorem strip_isEmpty (line : List Char) (h : (strip isSpace line).isEmpty = true) :
    ∀ c ∈ line, isSpace c = true := by
  have hnil : (line.dropWhile isSpace).reverse.dropWhile isSpace = [] := by
    rw [strip, List.isEmpty_iff, List.reverse_eq_nil_iff] at h
    exact h
  have hall : ∀ c ∈ line.dropWhile isSpace, isSpace c = true := by
    intro c hc
    exact List.dropWhile_eq_nil_iff.mp hnil c (List.mem_reverse.mpr hc)
  intro c hc
  rw [← List.takeWhile_append_dropWhile (p := isSpace) (l := line)] at hc
  rcases List.mem_append.mp hc with htake | hdrop
  · exact List.mem_takeWhile_imp htake
  · exact hall c hdrop

theorem isSpace_lineBreak (c : Char) (h : isLineBreak c = true) : isSpace c = true := by
  simp only [isLineBreak, decide_eq_true_eq, List.mem_cons, List.not_mem_nil, or_false] at h
  simp only [isSpace, Bool.or_eq_true, decide_eq_true_eq, List.mem_cons, List.not_mem_nil, or_false]
  omega

/-- The lines of a read show its text. -/
theorem shows_newLines (text : List Char) :
    Shows isSpace (newLines (universalNewlines text)).flatten text := by
  refine shows_lines isSpace isSpace_lineBreak _ (fun line hline => ?_) text
  refine strip_isEmpty line ?_
  simpa using hline

theorem broadcasts_bot (t : Target) (lines : List (List Char)) (h : t.slug ≠ "portal") :
    broadcasts p t lines = lines.map fun line => (line, t.ownerUserId) := if_neg h

/-! ### The steps of the loop -/

/-- What a step of the loop does, by the phase it is in. -/
inductive TailMove (dead : Socket → Bool) (w : World) : World → Prop where
  | restart (hphase : w.phase = .scan []) : TailMove dead w { w with phase := .scan p.targets }
  | skip (t : Target) (rest : List Target) (hphase : w.phase = .scan (t :: rest))
      (hsame : ∀ bytes, w.files t.logFile = some bytes → bytes.length = (w.last t.slug).getD 0) :
      TailMove dead w { w with phase := .scan rest }
  | grow (t : Target) (rest : List Target) (bytes : List UInt8)
      (hphase : w.phase = .scan (t :: rest)) (hfile : w.files t.logFile = some bytes) :
      TailMove dead w { w with phase := .read t bytes.length ((w.last t.slug).getD 0) rest }
  | shrink (t : Target) (rest : List Target) (bytes : List UInt8)
      (hphase : w.phase = .scan (t :: rest)) (hfile : w.files t.logFile = some bytes)
      (hlt : bytes.length < (w.last t.slug).getD 0) :
      TailMove dead w { w with
        last := Function.update w.last t.slug (some bytes.length), phase := .scan rest }
  | read (t : Target) (size prev : ℕ) (rest : List Target)
      (hphase : w.phase = .read t size prev rest) :
      TailMove dead w { w with
        last := Function.update w.last t.slug (some size)
        phase := .send t (broadcasts p t (newLines (universalNewlines
          (decode (((w.files t.logFile).getD []).drop prev))))) rest }
  | finish (t : Target) (rest : List Target) (hphase : w.phase = .send t [] rest) :
      TailMove dead w { w with phase := .scan rest }
  | send (t : Target) (line : List Char) (ownerUserId : Option ℕ)
      (calls : List (List Char × Option ℕ)) (rest : List Target)
      (hphase : w.phase = .send t ((line, ownerUserId) :: calls) rest) :
      TailMove dead w
        { broadcast t.logFile t.slug line ownerUserId dead w with phase := .send t calls rest }

theorem tailMove (dead : Socket → Bool) (w : World) : TailMove p dead w (tailStep p dead w) := by
  unfold tailStep
  cases hphase : w.phase with
  | scan todo =>
    cases todo with
    | nil => exact .restart hphase
    | cons t rest =>
      dsimp only
      cases hfile : w.files t.logFile with
      | none =>
        refine .skip t rest hphase fun bytes hbytes => ?_
        rw [hfile] at hbytes
        cases hbytes
      | some bytes =>
        dsimp only
        by_cases hgrown : (w.last t.slug).getD 0 < bytes.length
        · rw [if_pos hgrown]
          exact .grow t rest bytes hphase hfile
        · rw [if_neg hgrown]
          by_cases hshrunk : bytes.length < (w.last t.slug).getD 0
          · rw [if_pos hshrunk]
            exact .shrink t rest bytes hphase hfile hshrunk
          · rw [if_neg hshrunk]
            refine .skip t rest hphase fun bytes' hbytes => ?_
            rw [hfile] at hbytes
            cases hbytes
            omega
  | read t size prev rest => exact .read t size prev rest hphase
  | send t calls rest =>
    cases calls with
    | nil => exact .finish t rest hphase
    | cons call calls => exact .send t call.1 call.2 calls rest hphase

/-- A clean scan of a log shares no cursor. -/
theorem Clean.own {w : World} {dead : Socket → Bool} (hclean : Clean p w (.tail dead)) (t : Target)
    (rest : List Target) (hphase : w.phase = .scan (t :: rest)) (hfile : w.files t.logFile ≠ none) :
    OwnCursor p w t := by
  simp only [Clean, hphase] at hclean
  exact hclean hfile

theorem Clean.steady {w : World} {dead : Socket → Bool} (hclean : Clean p w (.tail dead))
    (t : Target) (size prev : ℕ) (rest : List Target) (hphase : w.phase = .read t size prev rest)
    (howner : t.ownerUserId ≠ none) : Steady w t size prev := by
  simp only [Clean, hphase] at hclean
  exact hclean howner

/-- A bot that is done once the target of another is done was done before. -/
theorem done_of_cons (t : Target) (rest : List Target) (b : Bot) (n m : ℕ) (ht : t ≠ b.target)
    (hdone : b.target ∉ t :: rest → n = m) (hout : b.target ∉ rest) : n = m := by
  refine hdone fun hmem => ?_
  rcases List.mem_cons.mp hmem with heq | hmem
  · exact ht heq.symm
  · exact hout hmem

section Steps

variable (w : World) (hs : Sound p w)

/-- A log that shares no cursor is the only one of its slug. -/
theorem eq_of_ownCursor (t : Target) (ht : t ∈ p.targets) (hfile : w.files t.logFile ≠ none)
    (b : Bot) (hslug : b.slug = t.slug) (hown : OwnCursor p w b.target) : t = b.target :=
  hown.slug t ht hslug.symm hfile

/-- A scan at a target whose log is not longer than the cursor. -/
theorem at_scanned (t : Target) (rest : List Target) (bytes : List UInt8)
    (hphase : w.phase = .scan (t :: rest)) (hfile : w.files t.logFile = some bytes)
    (hclean : OwnCursor p w t) (hle : bytes.length ≤ (w.last t.slug).getD 0) (b : Bot) (n : ℕ)
    (h : At p w b n) (ht : t = b.target) :
    n = (content w b).length ∧ (w.last t.slug).getD 0 = bytes.length := by
  subst ht
  have hcontent : content w b = bytes := by
    have hfile' : w.files b.logFile = some bytes := hfile
    rw [content, hfile']
    rfl
  have hcursor : n = (w.last b.slug).getD 0 := by
    refine h.cursor ?_ hclean
    have hfile' : w.files b.logFile = some bytes := hfile
    rw [hfile']
    exact Option.some_ne_none _
  have hn := h.le
  have hle' : bytes.length ≤ (w.last b.slug).getD 0 := hle
  rw [hcontent] at hn ⊢
  refine ⟨by omega, ?_⟩
  show (w.last b.slug).getD 0 = _
  omega

/-- Of a bot without a log all is read. -/
theorem at_absent (b : Bot) (n : ℕ) (h : At p w b n) (hfile : w.files b.logFile = none) :
    n = (content w b).length := by
  have hempty : content w b = [] := by
    rw [content, hfile]
    rfl
  have hle := h.le
  rw [hempty, List.length_nil] at hle ⊢
  omega

include hs

/-- A read hands the text behind the cursor to the broadcasts. -/
theorem at_read (size prev : ℕ) (rest : List Target) (b : Bot)
    (hphase : w.phase = .read b.target size prev rest) (hsteady : Steady w b.target size prev)
    (n : ℕ) (h : At p w b n) :
    At p { w with
      last := Function.update w.last b.target.slug (some size)
      phase := .send b.target (broadcasts p b.target (newLines (universalNewlines
        (decode (((w.files b.target.logFile).getD []).drop prev))))) rest } b
      (content w b).length := by
  have hn : n = prev := h.reading size prev rest hphase
  have hnamed := (hs.reads _ _ _ _ hphase).2 (Option.some_ne_none _)
  obtain ⟨s, hwhole⟩ := h.whole
  obtain ⟨u, hbehind⟩ := hsteady.whole
  have hbehind' : (content w b).drop prev = encode u := hbehind
  have hall : (content w b).take n ++ (content w b).drop prev = content w b := by
    rw [hn]
    exact List.take_append_drop prev _
  have htext : decode (content w b) = s ++ decode ((content w b).drop prev) := by
    rw [← decode_encode_append, ← hwhole, hall]
  have hnone : pending w b = [] := by
    rw [pending, hphase]
  have hbefore := h.text
  rw [hnone, List.append_nil, hwhole, decode_encode] at hbefore
  have hsent : ∀ lines : List (List Char),
      ((broadcasts p b.target lines).map Prod.fst).flatten = lines.flatten := by
    intro lines
    rw [broadcasts_bot p b.target lines hnamed, List.map_map]
    exact congrArg List.flatten (List.map_id lines)
  refine ⟨le_refl _, ?_, ?_, fun _ _ => ?_, ?_⟩
  · refine ⟨s ++ u, ?_⟩
    show (content w b).take (content w b).length = encode (s ++ u)
    rw [List.take_length, ← hall, hwhole, hbehind', encode_append]
  · have hlines : Shows isSpace (shown w b ++
        (newLines (universalNewlines (decode ((content w b).drop prev)))).flatten)
          (decode (content w b)) := by
      rw [htext]
      exact hbefore.append isSpace _ _ _ _ (shows_newLines _)
    show Shows isSpace (shown w b ++ (if b.logFile = b.logFile then _ else []))
      (decode ((content w b).take (content w b).length))
    rw [if_pos rfl, hsent, List.take_length]
    exact hlines
  · have hsize : (content w b).length = size := hsteady.size
    show (content w b).length = (Function.update w.last b.slug (some size) b.slug).getD 0
    rw [hsize, Function.update_self]
    rfl
  · rintro size' prev' rest' ⟨⟩

/-- A step of the loop reads on, and a target it is done with is read to its end. -/
theorem at_tail (dead : Socket → Bool) (hclean : Clean p w (.tail dead)) (b : Bot) (hb : b ∈ p.bots)
    (n : ℕ) (h : At p w b n) :
    ∃ m, At p (tailStep p dead w) b m ∧
      ((b.target ∉ w.phase.todo → n = (content w b).length) →
        b.target ∉ (tailStep p dead w).phase.todo → m = (content (tailStep p dead w) b).length) := by
  have hmembers := hs.members
  have hmove := tailMove p dead w
  generalize tailStep p dead w = w' at hmove ⊢
  cases hmove with
  | restart hphase =>
    have hnone : pending w b = [] := by rw [pending, hphase]
    refine ⟨n, h.rephase p w _ b n rfl rfl hnone.symm (fun _ _ => rfl) ?_, fun _ hout => ?_⟩
    · rintro size prev rest ⟨⟩
    · exact absurd (mem_targets p b hb) hout
  | skip t rest hphase hsame =>
    have hnone : pending w b = [] := by rw [pending, hphase]
    refine ⟨n, h.rephase p w _ b n rfl rfl hnone.symm (fun _ _ => rfl) ?_, fun hdone hout => ?_⟩
    · rintro size prev rest ⟨⟩
    · rw [hphase] at hdone
      by_cases ht : t = b.target
      · cases hfile : w.files t.logFile with
        | none => exact at_absent p w b n h (by rw [← hfile, ht]; rfl)
        | some bytes =>
          have hown := hclean.own p t rest hphase (by rw [hfile]; exact Option.some_ne_none bytes)
          exact (at_scanned p w t rest bytes hphase hfile hown (hsame bytes hfile).le b n h ht).1
      · exact done_of_cons t rest b n _ ht hdone hout
  | grow t rest bytes hphase hfile =>
    have hnone : pending w b = [] := by rw [pending, hphase]
    have hfile_ne : w.files t.logFile ≠ none := by
      rw [hfile]
      exact Option.some_ne_none bytes
    refine ⟨n, h.rephase p w _ b n rfl rfl hnone.symm (fun _ _ => rfl) ?_, fun hdone hout => ?_⟩
    · intro size prev rest' heq
      simp only [Phase.read.injEq] at heq
      obtain ⟨rfl, _, rfl, _⟩ := heq
      exact h.cursor hfile_ne (hclean.own p _ rest hphase hfile_ne)
    · rw [hphase] at hdone
      exact hdone hout
  | shrink t rest bytes hphase hfile hlt =>
    have hnone : pending w b = [] := by rw [pending, hphase]
    have hfile_ne : w.files t.logFile ≠ none := by
      rw [hfile]
      exact Option.some_ne_none bytes
    have hown := hclean.own p t rest hphase hfile_ne
    have ht_mem : t ∈ p.targets := hmembers t (by rw [hphase]; exact List.mem_cons_self)
    have hscanned := at_scanned p w t rest bytes hphase hfile hown hlt.le b n h
    refine ⟨n, h.rephase p w _ b n rfl rfl hnone.symm (fun _ hown' => ?_) ?_, fun hdone hout => ?_⟩
    · have hslug : b.slug ≠ t.slug := by
        intro hslug
        have hsame := (hscanned (eq_of_ownCursor p w t ht_mem hfile_ne b hslug hown')).2
        omega
      show (Function.update w.last t.slug (some bytes.length) b.slug).getD 0 = _
      rw [Function.update_of_ne hslug]
    · rintro size prev rest ⟨⟩
    · rw [hphase] at hdone
      by_cases ht : t = b.target
      · exact (hscanned ht).1
      · exact done_of_cons t rest b n _ ht hdone hout
  | read t size prev rest hphase =>
    have hnone : pending w b = [] := by rw [pending, hphase]
    have ht_mem : t ∈ p.targets := hmembers t (by rw [hphase]; exact List.mem_cons_self)
    by_cases ht : t = b.target
    · subst ht
      have hsteady := hclean.steady p b.target size prev rest hphase (Option.some_ne_none _)
      exact ⟨_, at_read p w hs size prev rest b hphase hsteady n h, fun _ _ => rfl⟩
    · have hother : t.logFile ≠ b.logFile := fun hlog => ht (target_eq p t ht_mem b hlog)
      refine ⟨n, h.rephase p w _ b n rfl rfl ?_ (fun _ hown => ?_) ?_, fun hdone hout => ?_⟩
      · rw [hnone]
        exact if_neg hother
      · have hfile := (hs.reads t size prev rest hphase).1
        have hslug : b.slug ≠ t.slug := fun hslug =>
          ht (eq_of_ownCursor p w t ht_mem hfile b hslug hown)
        show (Function.update w.last t.slug (some size) b.slug).getD 0 = _
        rw [Function.update_of_ne hslug]
      · rintro size prev rest ⟨⟩
      · rw [hphase] at hdone
        exact done_of_cons t rest b n _ ht hdone hout
  | finish t rest hphase =>
    have hnone : pending w b = [] := by
      rw [pending, hphase]
      simp
    refine ⟨n, h.rephase p w _ b n rfl rfl hnone.symm (fun _ _ => rfl) ?_, fun hdone hout => ?_⟩
    · rintro size prev rest ⟨⟩
    · rw [hphase] at hdone
      exact hdone hout
  | send t line ownerUserId calls rest hphase =>
    obtain ⟨w'', hw''⟩ : ∃ w'', w'' =
        ({ broadcast t.logFile t.slug line ownerUserId dead w with phase := .send t calls rest } :
          World) := ⟨_, rfl⟩
    have hshown : shown w'' b ++ pending w'' b = shown w b ++ pending w b := by
      rw [hw'']
      simp only [shown, pending, broadcast, hphase, List.filter_append, List.map_append,
        List.flatten_append, List.append_assoc]
      by_cases hlog : t.logFile = b.logFile
      · simp [hlog]
      · simp [hlog]
    have htext := h.text
    rw [← hshown, hw''] at htext
    refine ⟨n, ⟨h.le, h.whole, htext, fun hf hown => h.cursor hf ⟨hown.slug, hown.named⟩, ?_⟩,
      fun hdone hout => ?_⟩
    · rintro size prev rest ⟨⟩
    · rw [hphase] at hdone
      exact hdone hout

end Steps

/-- What holds of the loop where only its phase changes. -/
theorem Sound.rephase (w w' : World) (hs : Sound p w) (hfiles : w'.files = w.files)
    (hlast : w'.last = w.last) (hframes : w'.frames = w.frames)
    (hmembers : ∀ t ∈ w'.phase.todo, t ∈ p.targets)
    (hsends : ∀ t calls rest, w'.phase = .send t calls rest →
      t ∈ p.targets ∧ ∀ c ∈ calls, t.ownerUserId ≠ none → c.2 = t.ownerUserId)
    (hreads : ∀ t size prev rest, w'.phase = .read t size prev rest →
      w.files t.logFile ≠ none ∧ (t.ownerUserId ≠ none → t.slug ≠ "portal")) : Sound p w' := by
  refine ⟨hmembers, hsends, ?_, ?_, ?_⟩
  · rw [hfiles]
    exact hreads
  · rw [hfiles, hlast]
    exact hs.known
  · rw [hframes]
    exact hs.owner

/-- The cursors that are known once one more is. -/
theorem Sound.known_update (w : World) (hs : Sound p w) (t : Target) (ht : t ∈ p.targets)
    (hfile : w.files t.logFile ≠ none) (size : ℕ) (slug : String)
    (hslug : Function.update w.last t.slug (some size) slug ≠ none) :
    ∃ u ∈ p.targets, u.slug = slug ∧ w.files u.logFile ≠ none := by
  by_cases hsame : slug = t.slug
  · exact ⟨t, ht, hsame.symm, hfile⟩
  · rw [Function.update_of_ne hsame] at hslug
    exact hs.known slug hslug

/-- A broadcast reaches the owner's clients of the bot only. -/
theorem Sound.owner_broadcast (w : World) (hs : Sound p w) (dead : Socket → Bool) (t : Target)
    (ht_mem : t ∈ p.targets) (line : List Char) (ownerUserId : Option ℕ)
    (hcall : t.ownerUserId ≠ none → ownerUserId = t.ownerUserId) (b : Bot) (f : Frame)
    (hf : f ∈ (broadcast t.logFile t.slug line ownerUserId dead w).frames)
    (hsource : f.source = b.logFile) :
    f.slug = b.slug ∧ f.ownerUserId = some b.userId ∧
      ∀ s ∈ f.sockets, s.slug = b.slug ∧ s.userId = b.userId := by
  rcases List.mem_append.mp hf with hold | hnew
  · exact hs.owner b f hold hsource
  · rw [List.mem_singleton.mp hnew] at hsource ⊢
    have ht := target_eq p t ht_mem b hsource
    rw [ht] at hcall
    have howner : ownerUserId = some b.userId := hcall (Option.some_ne_none _)
    refine ⟨by rw [ht]; rfl, howner, fun s hsocket => ?_⟩
    have hfilter := List.mem_of_mem_filter hsocket
    simp only [List.mem_filter, decide_eq_true_eq] at hfilter
    obtain ⟨_, hslug, huser⟩ := hfilter
    rw [howner, Option.some.injEq] at huser
    rw [ht] at hslug
    exact ⟨hslug, huser⟩

/-- A clean step of the loop keeps what holds of it. -/
theorem sound_tail (w : World) (hs : Sound p w) (dead : Socket → Bool)
    (hclean : Clean p w (.tail dead)) : Sound p (tailStep p dead w) := by
  have hmembers := hs.members
  have hmove := tailMove p dead w
  generalize tailStep p dead w = w' at hmove ⊢
  cases hmove with
  | restart hphase =>
    refine hs.rephase p w _ rfl rfl rfl (fun t ht => ht) ?_ ?_
    · rintro t calls rest ⟨⟩
    · rintro t size prev rest ⟨⟩
  | skip t rest hphase hsame =>
    rw [hphase] at hmembers
    refine hs.rephase p w _ rfl rfl rfl (fun u hu => hmembers u (List.mem_cons_of_mem _ hu)) ?_ ?_
    · rintro t calls rest ⟨⟩
    · rintro t size prev rest ⟨⟩
  | grow t rest bytes hphase hfile =>
    rw [hphase] at hmembers
    have hfile_ne : w.files t.logFile ≠ none := by
      rw [hfile]
      exact Option.some_ne_none bytes
    refine hs.rephase p w _ rfl rfl rfl hmembers ?_ ?_
    · rintro t calls rest ⟨⟩
    · intro u size prev rest' heq
      obtain ⟨rfl, _, _, _⟩ := Phase.read.inj heq
      exact ⟨hfile_ne, (hclean.own p _ rest hphase hfile_ne).named⟩
  | shrink t rest bytes hphase hfile hlt =>
    rw [hphase] at hmembers
    have hfile_ne : w.files t.logFile ≠ none := by
      rw [hfile]
      exact Option.some_ne_none bytes
    have ht_mem : t ∈ p.targets := hmembers t List.mem_cons_self
    refine ⟨fun u hu => hmembers u (List.mem_cons_of_mem _ hu), ?_, ?_,
      hs.known_update p w t ht_mem hfile_ne bytes.length, hs.owner⟩
    · rintro t calls rest ⟨⟩
    · rintro t size prev rest ⟨⟩
  | read t size prev rest hphase =>
    rw [hphase] at hmembers
    obtain ⟨hfile, hnamed⟩ := hs.reads t size prev rest hphase
    have ht_mem : t ∈ p.targets := hmembers t List.mem_cons_self
    refine ⟨fun u hu => hmembers u (List.mem_cons_of_mem _ hu), ?_, ?_,
      hs.known_update p w t ht_mem hfile size, hs.owner⟩
    · intro u calls rest' heq
      obtain ⟨rfl, hcalls, _⟩ := Phase.send.inj heq
      refine ⟨ht_mem, fun c hc howner => ?_⟩
      rw [← hcalls, broadcasts_bot p t _ (hnamed howner)] at hc
      obtain ⟨line, _, rfl⟩ := List.mem_map.mp hc
      rfl
    · rintro t size prev rest ⟨⟩
  | finish t rest hphase =>
    rw [hphase] at hmembers
    refine hs.rephase p w _ rfl rfl rfl hmembers ?_ ?_
    · rintro t calls rest ⟨⟩
    · rintro t size prev rest ⟨⟩
  | send t line ownerUserId calls rest hphase =>
    rw [hphase] at hmembers
    obtain ⟨ht_mem, hcalls⟩ := hs.sends t _ rest hphase
    refine ⟨hmembers, ?_, ?_, hs.known, hs.owner_broadcast p w dead t ht_mem line ownerUserId
      (hcalls (line, ownerUserId) List.mem_cons_self)⟩
    · intro u calls' rest' heq
      obtain ⟨rfl, rfl, _⟩ := Phase.send.inj heq
      exact ⟨ht_mem, fun c hc => hcalls c (List.mem_cons_of_mem _ hc)⟩
    · rintro t size prev rest ⟨⟩

/-! ### The steps of the bots and the clients -/

section Append

variable (w : World) (file : LogFile) (bytes : List UInt8)

/-- The world behind an append. -/
def appended : World :=
  { w with files := Function.update w.files file (some ((w.files file).getD [] ++ bytes)) }

theorem appended_files (f : LogFile) (h : w.files f ≠ none) : (appended w file bytes).files f ≠ none := by
  show Function.update w.files file _ f ≠ none
  by_cases hf : f = file
  · rw [hf, Function.update_self]
    exact Option.some_ne_none _
  · rw [Function.update_of_ne hf]
    exact h

theorem content_appended (b : Bot) : ∃ more, content (appended w file bytes) b = content w b ++ more := by
  by_cases hf : b.logFile = file
  · refine ⟨bytes, ?_⟩
    show (Function.update w.files file _ b.logFile).getD [] = _
    rw [← hf, Function.update_self]
    rfl
  · refine ⟨[], ?_⟩
    show (Function.update w.files file _ b.logFile).getD [] = _
    rw [Function.update_of_ne hf, List.append_nil]
    rfl

theorem sound_append (hs : Sound p w) : Sound p (appended w file bytes) := by
  refine ⟨hs.members, hs.sends, fun t size prev rest h => ?_, fun slug h => ?_, hs.owner⟩
  · obtain ⟨hfile, hnamed⟩ := hs.reads t size prev rest h
    exact ⟨appended_files w file bytes t.logFile hfile, hnamed⟩
  · obtain ⟨u, hu, hslug, hfile⟩ := hs.known slug h
    exact ⟨u, hu, hslug, appended_files w file bytes u.logFile hfile⟩

/-- What is read of a log stays read when the log grows. -/
theorem at_append (hs : Sound p w) (b : Bot) (n : ℕ) (h : At p w b n) :
    At p (appended w file bytes) b n := by
  obtain ⟨more, hmore⟩ := content_appended w file bytes b
  have htake : (content (appended w file bytes) b).take n = (content w b).take n := by
    rw [hmore, List.take_append_of_le_length h.le]
  refine ⟨?_, ?_, ?_, fun _ hown => ?_, h.reading⟩
  · rw [hmore, List.length_append]
    exact h.le.trans (Nat.le_add_right _ _)
  · rw [htake]
    exact h.whole
  · rw [htake]
    exact h.text
  · have hown' : OwnCursor p w b.target :=
      ⟨fun u hu hslug hf => hown.slug u hu hslug (appended_files w file bytes u.logFile hf), hown.named⟩
    by_cases hfile : w.files b.logFile = none
    · -- no log of this slug has been scanned yet
      have hunset : w.last b.slug = none := by
        by_contra hset
        obtain ⟨u, hu, hslug, hf⟩ := hs.known b.slug hset
        have hsame := hown'.slug u hu hslug hf
        rw [hsame] at hf
        exact hf hfile
      have hempty : content w b = [] := by
        rw [content, hfile]
        rfl
      have hle := h.le
      rw [hempty, List.length_nil] at hle
      show n = (w.last b.slug).getD 0
      rw [hunset]
      exact Nat.le_zero.mp hle
    · exact h.cursor hfile hown'

end Append

/-! ### Clean runs -/

/-- A clean run so far. -/
structure Reading (w : World) : Prop where
  sound : Sound p w
  bots : ∀ b ∈ p.bots, ∃ n, At p w b n

theorem reading_start : Reading p {} := by
  refine ⟨⟨?_, ?_, ?_, ?_, ?_⟩, fun b _ => ⟨0, ?_⟩⟩
  · intro t ht
    cases ht
  · rintro t calls rest ⟨⟩
  · rintro t size prev rest ⟨⟩
  · intro slug h
    exact absurd rfl h
  · intro b f hf
    cases hf
  · refine ⟨Nat.zero_le _, ⟨[], rfl⟩, ⟨List.Sublist.refl _, rfl⟩, fun hfile => absurd rfl hfile, ?_⟩
    rintro size prev rest ⟨⟩

theorem reading_step (w w' : World) (s : Step) (h : Reading p w) (hclean : Clean p w s)
    (hstep : step p w s = some w') : Reading p w' := by
  obtain rfl := Option.some.inj hstep
  cases s with
  | append file bytes =>
    refine ⟨sound_append p w file bytes h.sound, fun b hb => ?_⟩
    obtain ⟨n, hn⟩ := h.bots b hb
    exact ⟨n, at_append p w file bytes h.sound b n hn⟩
  | connect c =>
    refine ⟨h.sound.rephase p w _ rfl rfl rfl h.sound.members h.sound.sends h.sound.reads,
      fun b hb => ?_⟩
    obtain ⟨n, hn⟩ := h.bots b hb
    exact ⟨n, hn.rephase p w _ b n rfl rfl rfl (fun _ _ => rfl) hn.reading⟩
  | disconnect c =>
    refine ⟨h.sound.rephase p w _ rfl rfl rfl h.sound.members h.sound.sends h.sound.reads,
      fun b hb => ?_⟩
    obtain ⟨n, hn⟩ := h.bots b hb
    exact ⟨n, hn.rephase p w _ b n rfl rfl rfl (fun _ _ => rfl) hn.reading⟩
  | tail dead =>
    refine ⟨sound_tail p w h.sound dead hclean, fun b hb => ?_⟩
    obtain ⟨n, hn⟩ := h.bots b hb
    obtain ⟨m, hm, _⟩ := at_tail p w h.sound dead hclean b hb n hn
    exact ⟨m, hm⟩

/-- During a quiet round: what the round is done with is read to its end. -/
structure Catching (w : World) : Prop where
  sound : Sound p w
  bots : ∀ b ∈ p.bots, ∃ n, At p w b n ∧ (b.target ∉ w.phase.todo → n = (content w b).length)

theorem catching_step (w w' : World) (s : Step) (htail : s.isTail = true) (h : Catching p w)
    (hclean : Clean p w s) (hstep : step p w s = some w') : Catching p w' := by
  obtain rfl := Option.some.inj hstep
  cases s with
  | tail dead =>
    refine ⟨sound_tail p w h.sound dead hclean, fun b hb => ?_⟩
    obtain ⟨n, hn, hdone⟩ := h.bots b hb
    obtain ⟨m, hm, hcaught⟩ := at_tail p w h.sound dead hclean b hb n hn
    exact ⟨m, hm, hcaught hdone⟩
  | append file bytes => cases htail
  | connect c => cases htail
  | disconnect c => cases htail

theorem streams_of_reading (w : World) (h : Reading p w) (b : Bot) (hb : b ∈ p.bots) : Streams w b := by
  obtain ⟨n, hn⟩ := h.bots b hb
  exact ⟨⟨n, hn.le, _, List.prefix_append _ _, hn.text⟩, h.sound.owner b⟩

theorem caughtUp_round (w w' : World) (round : List Step) (h : Reading p w)
    (hround : QuietRound p w w' round) (hclean : Machine.Guarded (step p) (Clean p) w round) (b : Bot)
    (hb : b ∈ p.bots) : CaughtUp w' b := by
  have hstart : Catching p w := by
    refine ⟨h.sound, fun c hc => ?_⟩
    obtain ⟨n, hn⟩ := h.bots c hc
    refine ⟨n, hn, fun hout => absurd ?_ hout⟩
    rw [hround.starts]
    exact mem_targets p c hc
  have hend := Machine.run_invariant (step p) (fun s => s.isTail = true) (Clean p) (Catching p)
    (fun u s u' hs hu hc hstep => catching_step p u u' s hs hu hc hstep) w w' round hstart hround.alone
    hclean hround.reaches
  obtain ⟨n, hn, hdone⟩ := hend.bots b hb
  have hall : n = (content w' b).length := hdone (by rw [hround.ends]; exact List.not_mem_nil)
  have hnone : pending w' b = [] := by rw [pending, hround.ends]
  have htext := hn.text
  rw [hnone, List.append_nil, hall, List.take_length] at htext
  exact htext

/-- In every run whose scans share no cursor and whose reads see what their `stat` saw, the streams
show the logs from the start on, and a round of the loop alone catches up with them. -/
theorem streams_run (steps : List Step) (w : World) (hrun : Machine.run (step p) {} steps = some w)
    (hclean : Machine.Guarded (step p) (Clean p) {} steps) :
    (∀ b ∈ p.bots, Streams w b) ∧
      ∀ (round : List Step) (w' : World), QuietRound p w w' round →
        Machine.Guarded (step p) (Clean p) w round → ∀ b ∈ p.bots, CaughtUp w' b := by
  have hreading : Reading p w := Machine.run_invariant (step p) (fun _ => True) (Clean p) (Reading p)
    (fun u s u' _ hu hc hstep => reading_step p u u' s hu hc hstep) {} w steps (reading_start p)
    (fun _ _ => trivial) hclean hrun
  exact ⟨streams_of_reading p w hreading, fun round w' hround hquiet =>
    caughtUp_round p w w' round hreading hround hquiet⟩

/-- A step of the loop whose sends all succeed. -/
def Step.tick : Step := .tail fun _ => false

/-- A portal with one bot. -/
def onePortal : Portal := ⟨[⟨1, "alpha"⟩], []⟩

/-- A line of the bot, its `stat` and its read. -/
def oneRead : List Step := [.append (.bot 1 "alpha") [104, 105, 10], .tick, .tick, .tick]

theorem streams_run_one : ∃ w, Machine.run (step onePortal) {} oneRead = some w ∧
    (∀ b ∈ onePortal.bots, Streams w b) ∧
      ∀ (round : List Step) (w' : World), QuietRound onePortal w w' round →
        Machine.Guarded (step onePortal) (Clean onePortal) w round →
          ∀ b ∈ onePortal.bots, CaughtUp w' b := by
  refine ⟨_, rfl, streams_run onePortal oneRead _ rfl ?_⟩
  refine Machine.guarded_cons _ _ _ _ _ _ trivial rfl ?_
  refine Machine.guarded_cons _ _ _ _ _ _ trivial rfl ?_
  refine Machine.guarded_cons _ _ _ _ _ _ (fun _ => ⟨fun u hu hslug _ => ?_, fun _ => by decide⟩) rfl ?_
  · rcases List.mem_cons.mp hu with rfl | hu
    · rfl
    · rw [List.mem_singleton.mp hu] at hslug
      exact absurd hslug (by decide)
  · refine Machine.guarded_cons _ _ _ _ _ _ (fun _ => ⟨rfl, ['h', 'i', '\n'], ?_⟩) rfl trivial
    decide +kernel

/-- A portal whose two users both have a bot `alpha`. -/
def twoAlphas : Portal := ⟨[⟨1, "alpha"⟩, ⟨2, "alpha"⟩], []⟩

/-- Each bot writes a line, and a round of the loop starts. -/
def twoLines : List Step :=
  [.append (.bot 1 "alpha") [97, 10], .append (.bot 2 "alpha") [98, 10], .tick]

/-- The line of the second bot is never broadcast. -/
theorem not_caughtUp_shared :
    ¬ ∀ (steps : List Step) (w : World), Machine.run (step twoAlphas) {} steps = some w →
      (∀ b ∈ twoAlphas.bots, Streams w b) ∧
        ∀ (round : List Step) (w' : World), QuietRound twoAlphas w w' round →
          ∀ b ∈ twoAlphas.bots, CaughtUp w' b := by
  intro h
  have hcaught := (h twoLines _ rfl).2 (List.replicate 6 .tick) _ ⟨by decide, rfl, rfl, rfl⟩
    ⟨2, "alpha"⟩ (by decide)
  have hvisible := hcaught.visible
  revert hvisible
  decide +kernel

end LogTail

end Reverto
