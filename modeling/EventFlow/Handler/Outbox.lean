import EventFlow.Handler.Basic
import EventFlow.Json.Printer
import EventFlow.Json.Record

/-!
# The outbox

Email, text message, notification and database actions put messages into an outbox, from which the
surrounding program delivers them. All messages of an action are made before the first is queued,
so an unusable action queues none.
-/

set_option autoImplicit false

namespace EventFlow

/-- The kinds of messages. -/
inductive Channel where
  | email
  | sms
  | notification
  | database
deriving DecidableEq

namespace Channel

/-- All channels. -/
def all : List Channel := [email, sms, notification, database]

/-- The name of a channel, which is the type of the actions that use it. -/
def name : Channel → String
  | email => "email"
  | sms => "sms"
  | notification => "notification"
  | database => "database"

/-- The channel of a name. -/
def ofName? (text : String) : Option Channel := all.find? (·.name == text)

end Channel

/-- A message that waits for delivery. -/
structure Message where
  channel : Channel
  actionId : String
  /-- An address, a number or a list of recipients. -/
  recipient : Json
  subject : Option String
  body : Json
  queuedAt : Instant
deriving DecidableEq

namespace Message

/-- The fields of a message in order of declaration. -/
def fieldNames : List String := ["channel", "action_id", "to", "subject", "body", "queued_at"]

/-- A message as it is written. -/
def document (m : Message) : Document :=
  .object [("channel", .string m.channel.name), ("action_id", .string m.actionId),
    ("to", .ofJson m.recipient), ("subject", .ofOption .string m.subject), ("body", .ofJson m.body),
    ("queued_at", .ofInstant m.queuedAt)]

/-- A message that is read. -/
def read (d : Document) : Reading Message := do
  let fields ← Fields.ofDocument fieldNames d
  let channel ← fields.required "channel" (Document.readName Channel.ofName?)
  let actionId ← fields.required "action_id" Document.readString
  let recipient ← fields.required "to" Document.readJson
  let subject ← fields.optional "subject" Document.readString
  let body ← fields.required "body" Document.readJson
  let queuedAt ← fields.required "queued_at" Document.readInstant
  return ⟨channel, actionId, recipient, subject, body, queuedAt⟩

end Message

/-- What a message says, before it is queued. -/
structure Draft where
  recipient : Json
  subject : Option String
  body : Json
deriving DecidableEq

namespace Outbox

/-- The text of a setting of an action. -/
def setting (a : Action) (key : String) : Option String :=
  (a.config.get? key).bind Json.asString?

/-- One draft for each recipient, or the reason why one of them has no address. -/
def drafts (key complaint : String) (write : String → Draft) :
    List Json → Except HandlerFailure (List Draft)
  | [] => .ok []
  | recipient :: rest =>
    match recipientAddress recipient key with
    | some address => (drafts key complaint write rest).map (write address :: ·)
    | none => .error (.invalidInput (complaint ++ recipient.compact))

/-- What the messages of an action say on a channel. -/
def compose (a : Action) (data : Json) : Channel → Except HandlerFailure (List Draft)
  | .email =>
    let body := (setting a "body").getD ""
    drafts "email" "email recipient without address: "
      (fun address => ⟨.string address, some a.template, .string body⟩) a.recipients
  | .sms =>
    drafts "phone" "sms recipient without phone: "
      (fun phone => ⟨.string phone, none, .string a.template⟩) a.recipients
  | .notification =>
    let channels := (a.config.get? "channels").getD (.array [.string "in-app"])
    .ok [⟨.array a.recipients, some ((setting a "title").getD ""),
      .ofMembers [("message", .string a.template), ("channels", channels)]⟩]
  | .database =>
    match setting a "collection" with
    | some collection => .ok [⟨.string collection, none, (a.config.get? "record").getD data⟩]
    | none => .error (.invalidInput "database action requires config.collection")

/-- A list of drafts as messages of an action, each with its own time. -/
def queueAll (channel : Channel) (actionId : String) :
    List Draft → Supply → List Message × Supply
  | [], supply => ([], supply)
  | d :: rest, supply =>
    let (time, supply) := supply.now
    let (messages, supply) := queueAll channel actionId rest supply
    (⟨channel, actionId, d.recipient, d.subject, d.body, time⟩ :: messages, supply)

/-- What a delivered action answers. -/
def receipt (channel : Channel) (delivered : Nat) : Json :=
  .ofMembers [("success", .bool true), ("action", .string channel.name),
    ("delivered", .ofNat delivered)]

/-- The outbox after an action on a channel, and the action's answer. -/
def deliver (channel : Channel) (a : Action) (data : Json) (outbox : List Message)
    (supply : Supply) : Except HandlerFailure Json × List Message × Supply :=
  match compose a data channel with
  | .error e => (.error e, outbox, supply)
  | .ok drafted =>
    let (messages, supply) := queueAll channel a.id drafted supply
    (.ok (receipt channel messages.length), outbox ++ messages, supply)

end Outbox

end EventFlow
