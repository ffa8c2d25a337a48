import Mathlib.Tactic
import Reverto.Lib.Machine
import Reverto.Lib.TextLines
import Reverto.Web.BotSlugs

/-!
# Streaming the bot logs (web/app.py, tail_logs and LogBroadcaster)

The portal scans the log of every bot, reads what is behind its cursor and broadcasts the lines.
The bots append to their logs between any two of its steps.
-/

namespace Reverto

namespace LogTail

/-- A log file: `paths.bot_log_path` or `portal.log`. -/
inductive LogFile
  | bot (userId : ℕ) (slug : String)
  | portal
  deriving DecidableEq

/-- A bot of the registry. -/
structure Bot where
  userId : ℕ
  slug : String
  deriving DecidableEq

/-- `log_file` -/
def Bot.logFile (b : Bot) : LogFile := .bot b.userId b.slug

/-- An entry of `targets`; the portal log has no owner. -/
structure Target where
  slug : String
  logFile : LogFile
  ownerUserId : Option ℕ
  deriving DecidableEq

/-- The target of a bot. -/
def Bot.target (b : Bot) : Target := ⟨b.slug, b.logFile, some b.userId⟩

/-- The target of the portal log. -/
def portalTarget : Target := ⟨"portal", .portal, none⟩

/-- The bots of `registry.all()` and the ids of `get_admin_user_ids`. -/
structure Portal where
  bots : List Bot
  admins : List ℕ

/-- `targets` -/
def Portal.targets (p : Portal) : List Target := p.bots.map Bot.target ++ [portalTarget]

/-- A client of the broadcaster. -/
structure Socket where
  id : ℕ
  slug : String
  userId : ℕ
  deriving DecidableEq

/-- A call of `broadcast`, with the file its line is from and the sockets that got it. -/
structure Frame where
  source : LogFile
  slug : String
  line : List Char
  ownerUserId : Option ℕ
  sockets : List Socket
  deriving DecidableEq

/-- Where `tail_logs` stands: before a target, between `stat` and `open`, or at its broadcasts. -/
inductive Phase
  | scan (rest : List Target)
  | read (t : Target) (size prev : ℕ) (rest : List Target)
  | send (t : Target) (calls : List (List Char × Option ℕ)) (rest : List Target)

/-- The log files, and the state of `tail_logs` and its broadcaster. -/
structure World where
  files : LogFile → Option (List UInt8) := fun _ => none
  last : String → Option ℕ := fun _ => none
  clients : List Socket := []
  phase : Phase := .scan []
  frames : List Frame := []

/-- `new_lines` -/
def newLines (new : List Char) : List (List Char) :=
  (TextLines.splitLines new).filter fun line => !(strip isSpace line).isEmpty

/-- The lines with the users `tail_logs` broadcasts them to. -/
def broadcasts (p : Portal) (t : Target) (lines : List (List Char)) : List (List Char × Option ℕ) :=
  if t.slug = "portal" then
    lines.flatMap fun line => p.admins.map fun adminId => (line, some adminId)
  else lines.map fun line => (line, t.ownerUserId)

/-- `broadcast`; `dead` are the sockets whose send fails. -/
def broadcast (source : LogFile) (slug : String) (line : List Char) (ownerUserId : Option ℕ)
    (dead : Socket → Bool) (w : World) : World :=
  let targets := w.clients.filter fun s => s.slug = slug ∧ some s.userId = ownerUserId
  { w with
    clients := w.clients.filter fun s => !(decide (s ∈ targets) && dead s)
    frames := w.frames ++ [⟨source, slug, line, ownerUserId, targets.filter fun s => !dead s⟩] }

/-- A step of `tail_logs`. -/
def tailStep (p : Portal) (dead : Socket → Bool) (w : World) : World :=
  match w.phase with
  | .scan [] => { w with phase := .scan p.targets }
  | .scan (t :: rest) =>
    match w.files t.logFile with
    | none => { w with phase := .scan rest }
    | some bytes =>
      let size := bytes.length
      let prev := (w.last t.slug).getD 0
      if prev < size then { w with phase := .read t size prev rest }
      else if size < prev then
        { w with last := Function.update w.last t.slug (some size), phase := .scan rest }
      else { w with phase := .scan rest }
  | .read t size prev rest =>
    let bytes := (w.files t.logFile).getD []
    let new := TextLines.universalNewlines (TextLines.decode (bytes.drop prev))
    { w with
      last := Function.update w.last t.slug (some size)
      phase := .send t (broadcasts p t (newLines new)) rest }
  | .send _ [] rest => { w with phase := .scan rest }
  | .send t ((line, ownerUserId) :: calls) rest =>
    { broadcast t.logFile t.slug line ownerUserId dead w with phase := .send t calls rest }

/-- What can happen to the logs, the clients and the loop. -/
inductive Step
  | append (file : LogFile) (bytes : List UInt8)
  | connect (s : Socket)
  | disconnect (s : Socket)
  | tail (dead : Socket → Bool)

/-- The world behind a step; every step can be taken. -/
def step (p : Portal) (w : World) (s : Step) : Option World :=
  some <|
    match s with
    | .append file bytes =>
      { w with files := Function.update w.files file (some ((w.files file).getD [] ++ bytes)) }
    | .connect s => { w with clients := s :: w.clients }
    | .disconnect s => { w with clients := w.clients.filter fun c => c ≠ s }
    | .tail dead => tailStep p dead w

/-! ### What a stream shows -/

variable (p : Portal) (w : World) (b : Bot)

/-- What the log of the bot holds. -/
def content : List UInt8 := (w.files b.logFile).getD []

/-- The text broadcast from the log of the bot. -/
def shown : List Char := ((w.frames.filter fun f => f.source = b.logFile).map Frame.line).flatten

/-- What is broadcast from the log is its text, from the start on and in order, with white space left
out, and goes to the owner of the bot alone. -/
structure Streams : Prop where
  text : ∃ n ≤ (content w b).length, ∃ ahead, shown w b <+: ahead ∧
    TextLines.Shows isSpace ahead (TextLines.decode ((content w b).take n))
  owner : ∀ f ∈ w.frames, f.source = b.logFile → f.slug = b.slug ∧ f.ownerUserId = some b.userId ∧
    ∀ s ∈ f.sockets, s.slug = b.slug ∧ s.userId = b.userId

/-- The whole log has been broadcast. -/
def CaughtUp : Prop :=
  TextLines.Shows isSpace (shown w b) (TextLines.decode (content w b))

/-- A step of the loop alone. -/
def Step.isTail : Step → Bool
  | .tail _ => true
  | _ => false

/-- A round of the loop during which nothing else happens. -/
structure QuietRound (w w' : World) (steps : List Step) : Prop where
  alone : ∀ s ∈ steps, s.isTail = true
  starts : w.phase = .scan p.targets
  ends : w'.phase = .scan []
  reaches : Machine.run (step p) w steps = some w'

end LogTail

end Reverto
