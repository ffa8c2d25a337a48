import Mathlib.Tactic
import Reverto.Core.LinkTokens
import Reverto.Notifications.Telegram
import Reverto.Web.BotSlugs

/-!
# From the webhook to the alerts (web/routes/telegram_webhook.py, web/routes/telegram.py)

Users mint links, chats present them to the webhook, users change their preferences and
disconnect, and bots build notifiers and send alerts with them, in any order. A chat is known by
its id as a text.
-/

namespace Reverto

namespace Telegram

open TelegramConfigStore

/-- What a text asks of the webhook. -/
inductive Command where
  | ignored
  | help
  | welcome
  | start (token : String)
  deriving DecidableEq, Repr

/-- `text.split(maxsplit=1)` behind its first part, for a text without white space around it. -/
def afterFirst (text : List Char) : List Char :=
  (text.dropWhile fun c => !isSpace c).dropWhile isSpace

/-- The branches of `telegram_webhook` up to the call of the store. -/
def command (text : Option (List Char)) : Command :=
  match text with
  | none => .ignored
  | some text =>
    let text := strip isSpace text
    if !"/start".toList.isPrefixOf text then .help
    else if afterFirst text = [] then .welcome
    else
      let payload := strip isSpace (afterFirst text)
      if !"link_".toList.isPrefixOf payload then .help
      else if payload.drop 5 = [] then .help
      else .start (String.ofList (payload.drop 5))

/-- The replies of the webhook. -/
inductive Reply where
  | help
  | welcome
  | wentWrong
  | expired
  | connected
  deriving DecidableEq, Repr

/-- What was posted to Telegram. -/
inductive Message where
  | reply (chat : String) (text : Reply)
  | alert (sender : Notifier) (kind : Alert)
  deriving DecidableEq, Repr

/-- The tables, the updates that came with the secret, the notifiers that were built and what they
and the webhook have sent. -/
structure World where
  store : TelegramStore := {}
  heard : List (String × Command) := []
  notifiers : List Notifier := []
  sent : List Message := []

/-- One call, or one statement or transaction of `consume_link_token`; `fails` when the database
raises there. -/
inductive Step where
  | link (token : String) (userId : ℕ) (now : Instant)
  | webhook (thread : ℕ) (secret : String) (chat : String) (text : Option (List Char)) (now : Instant)
      (fails : Bool)
  | bind (thread : ℕ) (now : Instant) (fails : Bool)
  | cleanUp (now : Instant)
  | disconnect (userId : ℕ)
  | updateNotifyOn (userId : ℕ) (events : List String)
  | build (userId : ℕ) (notifyOn : Option (List String))
  | notify (n : Notifier) (kind : Alert)
  deriving DecidableEq

/-- `_send_reply` -/
def World.replies (w : World) (chat : String) (text : Reply) : World :=
  { w with sent := w.sent ++ [.reply chat text] }

/-- `consume_link_token` up to its transaction. -/
def present (w : World) (thread : ℕ) (chat token : String) (now : Instant) (fails : Bool) :
    Option World :=
  if fails then some (w.replies chat .wentWrong)
  else
    (TelegramStore.step w.store (.lookUp thread token chat now)).map fun store =>
      if store.consumers.get? thread = none then { w with store }.replies chat .expired
      else { w with store }

/-- `telegram_webhook` up to the transaction of `consume_link_token`. -/
def receive (expected : String) (w : World) (thread : ℕ) (secret chat : String)
    (text : Option (List Char)) (now : Instant) (fails : Bool) : Option World :=
  -- `_verify_secret`
  if expected = "" ∨ secret ≠ expected then some w
  else
    let w := { w with heard := w.heard ++ [(chat, command text)] }
    match command text with
    | .ignored => some w
    | .help => some (w.replies chat .help)
    | .welcome => some (w.replies chat .welcome)
    | .start token => present w thread chat token now fails

/-- The transaction of `consume_link_token` and the reply. -/
def finish (w : World) (thread : ℕ) (now : Instant) (fails : Bool) : Option World :=
  match w.store.consumers.get? thread with
  | none => none
  | some c =>
    if fails then
      let store := { w.store with consumers := w.store.consumers.pop thread }
      some ({ w with store }.replies c.chatId .wentWrong)
    else
      (TelegramStore.step w.store (.bind thread now)).map fun store =>
        { w with store }.replies c.chatId .connected

/-- One step, if it is enabled; `expected` is `TELEGRAM_WEBHOOK_SECRET`. -/
def step (expected : String) (w : World) : Step → Option World
  | .link token userId now =>
    (TelegramStore.step w.store (.mint token userId now)).map fun store => { w with store }
  | .webhook thread secret chat text now fails => receive expected w thread secret chat text now fails
  | .bind thread now fails => finish w thread now fails
  | .cleanUp now => (TelegramStore.step w.store (.cleanUp now)).map fun store => { w with store }
  | .disconnect userId => some { w with store := dropConfig w.store userId }
  | .updateNotifyOn userId events =>
    if ∀ e ∈ events, e ∈ validEventTypes then
      some { w with store := setNotifyOn w.store userId events }
    else some w
  | .build userId notifyOn =>
    let n := Notifier.ofUser userId (w.store.configs.get? userId) notifyOn
    some { w with notifiers := w.notifiers ++ [n] }
  | .notify n kind =>
    if n ∈ w.notifiers then
      some (if n.passes kind then { w with sent := w.sent ++ [.alert n kind] } else w)
    else none

end Telegram

end Reverto
