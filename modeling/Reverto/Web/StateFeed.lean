import Mathlib.Tactic
import Reverto.Lib.Machine
import Reverto.Web.EngineExits

/-!
# The state feed of the portal (web/app.py, StateBroadcaster, watch_state_files, ws_state)

One watcher polls the state files of all bots and sends what changed to the sockets of their
owners; the handler of each socket sends a first snapshot of its own. The bots, and the requests
that repair a state file, write between any two of these steps. A step is what runs up to the next
`await`: the lock of the broadcaster is never held across one.
-/

namespace Reverto

namespace StateFeed

/-- A record of the registry; its state file has the path of `(user_id, slug)`. -/
structure BotInfo where
  userId : ℕ
  slug : String
  deriving DecidableEq

/-- A state file; `none` for a text that is no document. -/
structure StateFile where
  mtime : ℕ
  doc : Option StateDoc
  deriving DecidableEq

/-- What `read_state` returns: the validated document of a bot, or its defaults, with the
lifecycle fields it stamps. -/
structure BotState where
  botUserId : ℕ
  botSlug : String
  doc : Option StateDoc
  running : Bool
  stoppedAt : Option Instant
  stoppedReason : Option String
  deriving DecidableEq

/-- `BotStateModel.model_validate`; `balance_btc` is the bounded field. -/
def validates (doc : StateDoc) : Bool :=
  decide (-1000 ≤ doc.balanceBtc.getD 0) && decide (doc.balanceBtc.getD 0 ≤ 1000)

/-- What the environment of a step answers. -/
structure Answer where
  /-- the bots of the registry -/
  bots : List BotInfo := []
  /-- the thread that is done first -/
  bot : BotInfo := ⟨0, ""⟩
  pidAlive : Bool := true
  heartbeatStale : Bool := false
  /-- when the reconciled document was written, if it could be -/
  reconciled : Option Instant := none
  /-- the read raises -/
  fails : Bool := false
  /-- the send raises -/
  dead : Bool := false

/-- `_default_state` -/
def defaultState (b : BotInfo) (a : Answer) : BotState :=
  ⟨b.userId, b.slug, none, a.pidAlive, none, none⟩

/-- `read_state`. The document it writes back on a silent exit is a write of its own. -/
def readState (b : BotInfo) (file : Option StateFile) (a : Answer) : BotState :=
  match file.bind StateFile.doc with
  | none => defaultState b a
  | some doc =>
    if validates doc then
      match doc.exitReason a.pidAlive a.heartbeatStale with
      | some reason =>
        let stoppedAt := a.reconciled.orElse fun _ => doc.stoppedAt
        ⟨b.userId, b.slug, some doc, false, stoppedAt, some reason⟩
      | none => ⟨b.userId, b.slug, some doc, a.pidAlive, doc.stoppedAt, doc.stoppedReason⟩
    else defaultState b a

/-- The data of a summary frame. -/
structure Summary where
  totalPnlBtc : ℚ
  activeBots : ℕ
  totalBots : ℕ
  openDeals : ℕ
  closedDeals : ℕ
  deriving DecidableEq

/-- `_compute_summary` -/
def computeSummary (bots : List BotState) : Summary where
  totalPnlBtc := Decimal.roundTo 8 (bots.map fun s => (s.doc.bind StateDoc.totalPnlBtc).getD 0).sum
  activeBots := bots.countP BotState.running
  totalBots := bots.length
  openDeals := (bots.map fun s => (s.doc.map StateDoc.openDealsCount).getD 0).sum
  closedDeals := (bots.map fun s => (s.doc.map StateDoc.closedDealsCount).getD 0).sum

/-- A text that is sent to a client. -/
inductive Frame where
  | botState (slug : String) (data : BotState)
  | summary (data : Summary)
  | ping
  deriving DecidableEq

/-- Where `ws_state` stands for a socket. -/
inductive Handler where
  | idle
  | listing
  | snapshot (rest : List BotInfo) (states : List BotState)
  | waiting
  | closed
  deriving DecidableEq

/-- The handler has run `connect` and not yet `disconnect`. -/
def Handler.connected : Handler → Bool
  | .idle | .closed => false
  | _ => true

/-- Where `watch_state_files` stands within an iteration. -/
inductive Stage where
  | next
  | read (b : BotInfo)
  | gather (uid : ℕ) (bots : List BotInfo) (got : List (BotInfo × BotState))
  | announce (frame : Frame) (targetUserId : ℕ)
  | send (frame : Frame) (targets stale : List ℕ)
  deriving DecidableEq

/-- The watcher: the bots and the users still to come in this iteration. -/
structure Watcher where
  rest : List BotInfo := []
  groups : List (ℕ × List BotInfo) := []
  stage : Stage := .next
  deriving DecidableEq

/-- The iteration is over. -/
def Watcher.sleeping (t : Watcher) : Prop := t = {}

/-- The state files and what was ever written to them, and the state of the portal. The number of a
socket is its own: a client that comes back has another one. -/
structure World where
  files : BotInfo → Option StateFile := fun _ => none
  written : List (BotInfo × StateDoc) := []
  /-- `_state_mtimes` -/
  stateMtimes : BotInfo → Option ℕ := fun _ => none
  clients : List ℕ := []
  userMap : ℕ → Option ℕ := fun _ => none
  handlers : ℕ → Handler := fun _ => .idle
  /-- the `user_id` of each handler -/
  userIds : ℕ → Option ℕ := fun _ => none
  watcher : Watcher := {}
  frames : ℕ → List Frame := fun _ => []

/-- `_ws_extract_user_id`, for the `uid` of a verified session cookie and the rows of the users. -/
def wsExtractUserId (payload : Option ℕ) (active : ℕ → Bool) : Option ℕ :=
  match payload with
  | none => none
  | some uid => if uid = 0 then none else if active uid then some uid else none

/-- `bots_by_user` -/
def botsByUser (bots : List BotInfo) : List (ℕ × List BotInfo) :=
  (bots.map BotInfo.userId).eraseDups.map fun uid => (uid, bots.filter fun b => b.userId = uid)

namespace World

/-- `ws.send_text` -/
def sendText (w : World) (s : ℕ) (frame : Frame) : World :=
  { w with frames := Function.update w.frames s (w.frames s ++ [frame]) }

/-- `StateBroadcaster.connect` -/
def connect (w : World) (s userId : ℕ) : World :=
  { w with
    clients := s :: w.clients
    userMap := Function.update w.userMap s (some userId)
    userIds := Function.update w.userIds s (some userId)
    handlers := Function.update w.handlers s .listing }

/-- `discard` and `pop` of some sockets. -/
def drop (w : World) (stale : List ℕ) : World :=
  { w with
    clients := w.clients.filter fun s => s ∉ stale
    userMap := fun s => if s ∈ stale then none else w.userMap s }

/-- The handler of a socket moves on. -/
def setHandler (w : World) (s : ℕ) (h : Handler) : World :=
  { w with handlers := Function.update w.handlers s h }

/-- The watcher moves on within a bot or a user. -/
def setStage (w : World) (stage : Stage) : World := { w with watcher := { w.watcher with stage } }

/-- The sockets `broadcast` picks. -/
def targets (w : World) (targetUserId : ℕ) : List ℕ :=
  w.clients.filter fun s => w.userMap s = some targetUserId

end World

/-- The next bot of the iteration. -/
def scan (b : BotInfo) (w : World) : World :=
  match w.files b with
  | none => w
  | some file =>
    if w.stateMtimes b = some file.mtime then w
    else
      { w with stateMtimes := Function.update w.stateMtimes b (some file.mtime) }.setStage (.read b)

/-- `watch_state_files` between two bots or users. -/
def watchNext (a : Answer) (w : World) : World :=
  match w.watcher.rest, w.watcher.groups with
  | b :: rest, groups => scan b { w with watcher := ⟨rest, groups, .next⟩ }
  | [], (uid, bots) :: groups => { w with watcher := ⟨[], groups, .gather uid bots []⟩ }
  | [], [] => { w with watcher := ⟨a.bots, botsByUser a.bots, .next⟩ }

/-- The threads that read the bots of one user for its summary, which come back in any order. -/
def gatherNext (uid : ℕ) (bots : List BotInfo) (got : List (BotInfo × BotState)) (a : Answer)
    (w : World) : World :=
  if ∀ b ∈ bots, b ∈ got.map Prod.fst then
    w.setStage (.announce (.summary (computeSummary (bots.filterMap fun b => got.lookup b))) uid)
  else if a.fails then { w with watcher := { w.watcher with groups := [], stage := .next } }
  else if a.bot ∈ bots ∧ a.bot ∉ got.map Prod.fst then
    w.setStage (.gather uid bots ((a.bot, readState a.bot (w.files a.bot) a) :: got))
  else w

/-- A step of `watch_state_files`. -/
def watchStep (a : Answer) (w : World) : World :=
  match w.watcher.stage with
  | .next => watchNext a w
  | .read b =>
    if a.fails then w.setStage .next
    else w.setStage (.announce (.botState b.slug (readState b (w.files b) a)) b.userId)
  | .gather uid bots got => gatherNext uid bots got a w
  | .announce frame targetUserId => w.setStage (.send frame (w.targets targetUserId) [])
  | .send frame (s :: todo) stale =>
    if a.dead ∨ w.handlers s = .closed then w.setStage (.send frame todo (s :: stale))
    else (w.sendText s frame).setStage (.send frame todo stale)
  | .send _ [] stale => (w.drop stale).setStage .next

/-- A step of `ws_state` behind its `connect`. -/
def handleStep (s userId : ℕ) (a : Answer) (w : World) : Option World :=
  match w.handlers s with
  | .idle | .closed => none
  | .listing => some (w.setHandler s (.snapshot (a.bots.filter fun b => b.userId = userId) []))
  | .snapshot (b :: rest) states =>
    if a.fails then some (w.setHandler s (.snapshot rest states))
    else
      let state := readState b (w.files b) a
      let sent := if a.dead then w else w.sendText s (.botState b.slug state)
      some (sent.setHandler s (.snapshot rest (states ++ [state])))
  | .snapshot [] states =>
    let sent := if a.dead then w else w.sendText s (.summary (computeSummary states))
    some (sent.setHandler s .waiting)
  | .waiting => some (if a.dead then w else w.sendText s .ping)

/-- What can happen to the files, the sockets and the watcher. -/
inductive Step where
  | write (b : BotInfo) (file : Option StateFile)
  | connect (s : ℕ) (payload : Option ℕ) (active : ℕ → Bool)
  | handle (s : ℕ) (a : Answer)
  | leave (s : ℕ)
  | watch (a : Answer)

/-- The documents a write leaves on record. -/
def record (b : BotInfo) (file : Option StateFile) : List (BotInfo × StateDoc) :=
  ((file.bind StateFile.doc).map fun doc => (b, doc)).toList

/-- One step, if it is enabled. -/
def step (w : World) : Step → Option World
  | .write b file =>
    some { w with files := Function.update w.files b file, written := record b file ++ w.written }
  | .connect s payload active =>
    if w.handlers s ≠ .idle then none
    else
      match wsExtractUserId payload active with
      | none => some (w.setHandler s .closed)
      | some userId => some (w.connect s userId)
  | .handle s a => (w.userIds s).bind fun userId => handleStep s userId a w
  | .leave s =>
    if (w.handlers s).connected then some ((w.drop [s]).setHandler s .closed) else none
  | .watch a => some (watchStep a w)

end StateFeed

end Reverto
