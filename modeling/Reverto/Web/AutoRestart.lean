import Mathlib.Tactic
import Reverto.Lib.SlidingWindow

/-!
# The automatic restart budget (web/app.py)

`_attempt_bot_auto_restart` with its history of attempts for each bot. Up to the restart
itself it does not await, so a call is one step; the times of an attempt are those of its
decision.
-/

namespace Reverto

namespace AutoRestart

open SlidingWindow

/-- `RESTART_MAX_ATTEMPTS` -/
def restartMaxAttempts : ℕ := 3

/-- `RESTART_WINDOW_SECONDS` -/
def restartWindowSeconds : ℚ := 300

/-- `_BOT_RESTART_HISTORY_MAX_ENTRIES_PER_BOT` -/
def historyMaxEntriesPerBot : ℕ := 100

/-- `(user_id, slug)` -/
abbrev BotKey : Type := ℤ × String

/-- `_BOT_RESTART_HISTORY`, where a bot that has no entry reads as an empty list. -/
abbrev RestartHistory : Type := BotKey → List ℚ

/-- How `restart_bot` ends. -/
inductive RestartResult where
  | raised (typeName : String)
  | failed (error : Option String)
  | ok
  deriving DecidableEq, Repr

/-- One record of `_audit`. -/
structure AuditRecord where
  action : String
  slug : String
  keyHint : String
  userId : ℤ
  result : String := "ok"
  deriving DecidableEq, Repr

/-- A bot that is to be restarted now, and what its restart would do. -/
structure Detection where
  bot : BotKey
  now : ℚ
  outcome : RestartResult

/-- What a call did: whether a restart was issued, what it returned, what it left behind. -/
structure Attempt where
  bot : BotKey
  now : ℚ
  issued : Bool
  returned : Bool
  audits : List AuditRecord
  stoppedReason : Option String
  deriving DecidableEq, Repr

/-- `_record_bot_restart` -/
def recordBotRestart (h : RestartHistory) (key : BotKey) (timestamp : ℚ) : RestartHistory :=
  let history := h key ++ [timestamp]
  Function.update h key
    (if historyMaxEntriesPerBot < history.length then
      history.drop (history.length - historyMaxEntriesPerBot)
    else history)

/-- The attempts inside the rolling window. -/
def pruned (now : ℚ) (history : List ℚ) : List ℚ :=
  history.filter fun t => now - t < restartWindowSeconds

/-- The audit records and the return value after the restart. -/
def restartReport (key : BotKey) (outcome : RestartResult) : List AuditRecord × Bool :=
  match outcome with
  | .raised typeName =>
    ([⟨"bot_auto_restart_failed", key.2, typeName, key.1, "error"⟩], false)
  | .failed error =>
    let text := if error.getD "" = "" then "unknown" else error.getD ""
    ([⟨"bot_auto_restart_failed", key.2, String.ofList (text.toList.take 200), key.1, "failure"⟩],
      false)
  | .ok => ([], true)

/-- `_attempt_bot_auto_restart`; the list whose length it reports is the one the new attempt
was appended to. -/
def attemptBotAutoRestart (h : RestartHistory) (d : Detection) : Attempt × RestartHistory :=
  let history := pruned d.now (h d.bot)
  if restartMaxAttempts ≤ history.length then
    ({ bot := d.bot, now := d.now, issued := false, returned := false,
       audits := [⟨"bot_auto_restart_budget_exceeded", d.bot.2,
         "attempts=" ++ toString history.length, d.bot.1, "error"⟩],
       stoppedReason := some "restart_budget_exceeded" }, h)
  else
    let recorded := recordBotRestart (Function.update h d.bot history) d.bot d.now
    let report := restartReport d.bot d.outcome
    ({ bot := d.bot, now := d.now, issued := true, returned := report.2,
       audits := ⟨"bot_auto_restart_attempted", d.bot.2,
         "attempt=" ++ toString ((recorded d.bot).length + 1), d.bot.1, "ok"⟩ :: report.1,
       stoppedReason := none }, recorded)

/-- The calls of one portal lifetime in their order. -/
def attempts (h : RestartHistory) : List Detection → List Attempt × RestartHistory
  | [] => ([], h)
  | d :: ds =>
    ((attemptBotAutoRestart h d).1 :: (attempts (attemptBotAutoRestart h d).2 ds).1,
      (attempts (attemptBotAutoRestart h d).2 ds).2)

/-- A portal that has just started. -/
def noHistory : RestartHistory := fun _ => []

/-- The times of the restarts issued for a bot. -/
def issuedAt (bot : BotKey) (calls : List Attempt) : List ℚ :=
  (calls.filter fun a => a.bot = bot && a.issued).map (·.now)

/-! ### One call -/

/-- A call is about its bot, at its time. -/
theorem attempt_bot (h : RestartHistory) (d : Detection) :
    (attemptBotAutoRestart h d).1.bot = d.bot ∧ (attemptBotAutoRestart h d).1.now = d.now := by
  unfold attemptBotAutoRestart
  dsimp only
  split
  · exact ⟨rfl, rfl⟩
  · exact ⟨rfl, rfl⟩

theorem recordBotRestart_self (h : RestartHistory) (key : BotKey) (history : List ℚ) (now : ℚ)
    (hlen : history.length < historyMaxEntriesPerBot) :
    recordBotRestart (Function.update h key history) key now key = history ++ [now] := by
  unfold recordBotRestart
  rw [Function.update_self, Function.update_self, List.length_append, List.length_singleton,
    if_neg (by omega)]

theorem recordBotRestart_other (h : RestartHistory) (key bot : BotKey) (now : ℚ)
    (hne : bot ≠ key) : recordBotRestart h key now bot = h bot := by
  unfold recordBotRestart
  exact Function.update_of_ne hne _ h

/-- A call either is refused by a full window and changes nothing, or records itself. -/
theorem attempt_cases (h : RestartHistory) (d : Detection) :
    ((attemptBotAutoRestart h d).1.issued = false ∧ (attemptBotAutoRestart h d).2 = h) ∨
      ((attemptBotAutoRestart h d).1.issued = true ∧
        (pruned d.now (h d.bot)).length < restartMaxAttempts ∧
        (attemptBotAutoRestart h d).2 d.bot = pruned d.now (h d.bot) ++ [d.now]) := by
  unfold attemptBotAutoRestart
  dsimp only
  split
  · exact .inl ⟨rfl, rfl⟩
  · rename_i hroom
    have hlen : (pruned d.now (h d.bot)).length < restartMaxAttempts := by omega
    have hcap : restartMaxAttempts ≤ historyMaxEntriesPerBot := by decide
    refine .inr ⟨rfl, hlen, ?_⟩
    exact recordBotRestart_self h d.bot _ d.now (by omega)

/-- A call leaves the history of every other bot. -/
theorem attempt_other (h : RestartHistory) (d : Detection) (bot : BotKey) (hne : bot ≠ d.bot) :
    (attemptBotAutoRestart h d).2 bot = h bot := by
  unfold attemptBotAutoRestart
  dsimp only
  split
  · rfl
  · exact (recordBotRestart_other _ d.bot bot d.now hne).trans (Function.update_of_ne hne _ h)

/-- What a call does to its bot depends on the history of that bot alone. -/
theorem attempt_congr (h h' : RestartHistory) (d : Detection) (heq : h d.bot = h' d.bot) :
    (attemptBotAutoRestart h d).1 = (attemptBotAutoRestart h' d).1 ∧
      (attemptBotAutoRestart h d).2 d.bot = (attemptBotAutoRestart h' d).2 d.bot := by
  unfold attemptBotAutoRestart recordBotRestart
  dsimp only
  rw [heq]
  split
  · exact ⟨rfl, heq⟩
  · simp only [Function.update_self, and_self]

/-! ### The window -/

/-- The restarts issued for a bot, as its history knows them. -/
structure Recorded (now : ℚ) (issued history : List ℚ) : Prop where
  spread : Spread restartMaxAttempts restartWindowSeconds issued
  sorted : issued.Pairwise (· ≤ ·)
  past : ∀ u ∈ issued, u ≤ now
  covers : ∀ t, now < t + restartWindowSeconds →
    (since t issued).length ≤ (since t history).length

theorem recorded_nil (now : ℚ) : Recorded now [] [] where
  spread := spread_nil restartMaxAttempts restartWindowSeconds
  sorted := List.Pairwise.nil
  past := fun u hu => by cases hu
  covers := fun t _ => le_refl _

theorem recorded_later (now now' : ℚ) (issued history : List ℚ) (hle : now ≤ now')
    (h : Recorded now issued history) : Recorded now' issued history :=
  { h with
    past := fun u hu => (h.past u hu).trans hle
    covers := fun t ht => h.covers t (lt_of_le_of_lt hle ht) }

/-- Pruning keeps what lies in the window. -/
theorem since_pruned (now t : ℚ) (history : List ℚ) (ht : now < t + restartWindowSeconds) :
    since t (pruned now history) = since t history := by
  unfold since pruned
  rw [List.filter_filter]
  apply List.filter_congr
  intro u _
  rw [Bool.and_eq_left_iff_imp, decide_eq_true_iff, decide_eq_true_iff]
  intro hu
  linarith

theorem recorded_attempt (now : ℚ) (issued history : List ℚ) (h : Recorded now issued history)
    (hroom : (pruned now history).length < restartMaxAttempts) :
    Recorded now (issued ++ [now]) (pruned now history ++ [now]) := by
  have hcovers : ∀ t, now < t + restartWindowSeconds →
      (since t issued).length ≤ (since t (pruned now history)).length := by
    intro t ht
    rw [since_pruned now t history ht]
    exact h.covers t ht
  refine ⟨?_, ?_, fun u hu => ?_, fun t ht => ?_⟩
  · apply spread_append restartMaxAttempts restartWindowSeconds now issued h.spread h.sorted
    intro t ht
    have hcover := hcovers t ht
    have hsub : (since t (pruned now history)).length ≤ (pruned now history).length :=
      List.length_filter_le _ _
    omega
  · rw [List.pairwise_append]
    refine ⟨h.sorted, List.pairwise_singleton _ _, fun u hu v hv => ?_⟩
    rw [List.mem_singleton.mp hv]
    exact h.past u hu
  · rcases List.mem_append.mp hu with hu | hu
    · exact h.past u hu
    · exact le_of_eq (List.mem_singleton.mp hu)
  · have hcover := hcovers t ht
    unfold since at hcover ⊢
    rw [List.filter_append, List.filter_append, List.length_append, List.length_append]
    omega

/-! ### Runs -/

theorem issuedAt_cons (bot : BotKey) (h : RestartHistory) (d : Detection) (calls : List Attempt) :
    issuedAt bot ((attemptBotAutoRestart h d).1 :: calls) =
      (if d.bot = bot ∧ (attemptBotAutoRestart h d).1.issued then [d.now] else []) ++
        issuedAt bot calls := by
  obtain ⟨hbot, hnow⟩ := attempt_bot h d
  unfold issuedAt
  rw [List.filter_cons, hbot]
  split
  · rename_i hin
    rw [Bool.and_eq_true, decide_eq_true_iff] at hin
    rw [if_pos hin, List.map_cons, hnow]
    rfl
  · rename_i hout
    rw [Bool.and_eq_true, decide_eq_true_iff] at hout
    rw [if_neg hout]
    rfl

/-- One call, for the bot it is about or for another one. -/
theorem recorded_call (bot : BotKey) (h : RestartHistory) (d : Detection) (issued : List ℚ)
    (hrec : Recorded d.now issued (h bot)) :
    Recorded d.now (issued ++
        if d.bot = bot ∧ (attemptBotAutoRestart h d).1.issued then [d.now] else [])
      ((attemptBotAutoRestart h d).2 bot) := by
  by_cases hbot : d.bot = bot
  · subst hbot
    rcases attempt_cases h d with ⟨hissued, hsame⟩ | ⟨hissued, hroom, hhistory⟩
    · rw [hissued, hsame, if_neg (by simp), List.append_nil]
      exact hrec
    · rw [hissued, hhistory, if_pos (by simp)]
      exact recorded_attempt d.now issued (h d.bot) hrec hroom
  · rw [if_neg (fun hn => hbot hn.1), List.append_nil, attempt_other h d bot (Ne.symm hbot)]
    exact hrec

theorem recorded_run (bot : BotKey) (ds : List Detection) (h : RestartHistory) (now : ℚ)
    (issued : List ℚ) (hlater : ∀ d ∈ ds, now ≤ d.now)
    (hmono : ds.Pairwise fun d e => d.now ≤ e.now) (hrec : Recorded now issued (h bot)) :
    ∃ now', Recorded now' (issued ++ issuedAt bot (attempts h ds).1) ((attempts h ds).2 bot) := by
  induction ds generalizing h now issued with
  | nil =>
    refine ⟨now, ?_⟩
    rw [attempts, issuedAt, List.filter_nil, List.map_nil, List.append_nil]
    exact hrec
  | cons d ds ih =>
    have hd := recorded_later now d.now issued (h bot) (hlater d List.mem_cons_self) hrec
    have hcall := recorded_call bot h d issued hd
    have hrest := List.pairwise_cons.mp hmono
    obtain ⟨now', hfinal⟩ := ih (attemptBotAutoRestart h d).2 d.now _ hrest.1 hrest.2 hcall
    refine ⟨now', ?_⟩
    rw [attempts, issuedAt_cons, ← List.append_assoc]
    exact hfinal

/-- The history stays below its cap in every run. -/
theorem history_bounded (ds : List Detection) (h : RestartHistory) (bot : BotKey)
    (hlen : (h bot).length ≤ restartMaxAttempts) :
    ((attempts h ds).2 bot).length ≤ restartMaxAttempts := by
  induction ds generalizing h with
  | nil => exact hlen
  | cons d ds ih =>
    apply ih
    by_cases hbot : bot = d.bot
    · subst hbot
      rcases attempt_cases h d with ⟨_, hsame⟩ | ⟨_, hroom, hhistory⟩
      · rw [hsame]
        exact hlen
      · rw [hhistory, List.length_append, List.length_singleton]
        omega
    · rw [attempt_other h d bot hbot]
      exact hlen

/-- The calls for a bot are those of a portal that restarts no other. -/
theorem attempts_alone (bot : BotKey) (ds : List Detection) (h h' : RestartHistory)
    (heq : h bot = h' bot) :
    (attempts h ds).1.filter (fun a => a.bot = bot) =
      (attempts h' (ds.filter fun d => d.bot = bot)).1 := by
  induction ds generalizing h h' with
  | nil => rfl
  | cons d ds ih =>
    rw [attempts, List.filter_cons, (attempt_bot h d).1]
    by_cases hbot : d.bot = bot
    · subst hbot
      obtain ⟨hcall, hnext⟩ := attempt_congr h h' d heq
      rw [if_pos (by simp), List.filter_cons_of_pos (by simp), attempts, hcall, ih _ _ hnext]
    · rw [if_neg (by simpa using hbot), List.filter_cons_of_neg (by simpa using hbot)]
      exact ih _ _ ((attempt_other h d bot (Ne.symm hbot)).trans heq)

/-- Any four restarts issued for a bot span the window, the calls for a bot are what they are
without the others, and the history of a bot stays below its cap. -/
theorem attempts_budget (ds : List Detection) (bot : BotKey)
    (hmono : ds.Pairwise fun d e => d.now ≤ e.now) :
    Spread restartMaxAttempts restartWindowSeconds (issuedAt bot (attempts noHistory ds).1) ∧
      (attempts noHistory ds).1.filter (fun a => a.bot = bot) =
        (attempts noHistory (ds.filter fun d => d.bot = bot)).1 ∧
      ((attempts noHistory ds).2 bot).length ≤ historyMaxEntriesPerBot := by
  refine ⟨?_, attempts_alone bot ds noHistory noHistory rfl, ?_⟩
  · cases ds with
    | nil => exact spread_nil restartMaxAttempts restartWindowSeconds
    | cons d ds =>
      have hlater : ∀ e ∈ d :: ds, d.now ≤ e.now := by
        intro e he
        rcases List.mem_cons.mp he with rfl | he
        · exact le_refl e.now
        · exact (List.pairwise_cons.mp hmono).1 e he
      obtain ⟨now', hrec⟩ := recorded_run bot (d :: ds) noHistory d.now [] hlater hmono
        (recorded_nil d.now)
      exact hrec.spread
  · have hcap : restartMaxAttempts ≤ historyMaxEntriesPerBot := by decide
    exact (history_bounded ds noHistory bot (Nat.zero_le _)).trans hcap

/-- Two bots in turn, the first four times within the window. -/
def twoBots : List Detection :=
  [⟨(1, "alpha"), 0, .ok⟩, ⟨(1, "beta"), 1, .ok⟩, ⟨(1, "alpha"), 2, .failed none⟩,
    ⟨(1, "alpha"), 2, .raised "OSError"⟩, ⟨(1, "alpha"), 299, .ok⟩, ⟨(1, "alpha"), 300, .ok⟩]

theorem attempts_twoBots :
    Spread restartMaxAttempts restartWindowSeconds
        (issuedAt (1, "alpha") (attempts noHistory twoBots).1) ∧
      (attempts noHistory twoBots).1.filter (fun a => a.bot = (1, "alpha")) =
        (attempts noHistory (twoBots.filter fun d => d.bot = (1, "alpha"))).1 ∧
      ((attempts noHistory twoBots).2 (1, "alpha")).length ≤ historyMaxEntriesPerBot := by
  refine attempts_budget twoBots (1, "alpha") ?_
  simp only [twoBots, List.pairwise_cons, List.mem_cons, List.not_mem_nil, or_false,
    forall_eq_or_imp, forall_eq, List.Pairwise.nil, false_implies, implies_true]
  norm_num

end AutoRestart

end Reverto
