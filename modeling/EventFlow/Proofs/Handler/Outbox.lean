import EventFlow.Handler.Builtin
import Mathlib.Data.List.Forall2

/-!
# What an outbox takes

A message action is delivered as a whole or not at all. `Addressed` says at which address a
recipient is reached, `Channel.Refuses` which actions a channel can make no messages of, and
`Channel.Says` what the messages of an action say, one for each recipient where they go to
addresses. The messages are made before the first is queued (`compose_cases`), so the outbox stays
as it was or gets all of them at its end (`delivers_all_or_nothing`). The outbox takes them by
`Outbox.deliver`, in `EventFlow.Handler.Outbox`.
-/

set_option autoImplicit false

namespace EventFlow

/-! ## Addresses -/

/-- `Addressed key recipient address`: the recipient is the address, or holds it under the key. An
address is not blank. -/
inductive Addressed (key : String) : Json → String → Prop
  | bare {address : String} (visible : ∃ c ∈ address.toList, Text.isBlank c = false) :
      Addressed key (.string address) address
  | member {members : List (String × Json)} {address : String}
      (found : Assoc.find? key members = some (.string address))
      (visible : ∃ c ∈ address.toList, Text.isBlank c = false) :
      Addressed key (.object members) address

theorem Text.isBlankText_eq_false_iff {s : String} :
    Text.isBlankText s = false ↔ ∃ c ∈ s.toList, Text.isBlank c = false := by
  rw [Text.isBlankText, List.all_eq_false]
  simp only [Bool.not_eq_true]

theorem recipientAddress_eq_some_iff {recipient : Json} {key address : String} :
    recipientAddress recipient key = some address ↔ Addressed key recipient address := by
  unfold recipientAddress
  rw [Option.filter_eq_some_iff, Bool.not_eq_true', Text.isBlankText_eq_false_iff]
  constructor
  · rintro ⟨given, visible⟩
    cases recipient with
    | string s =>
      cases given
      exact .bare visible
    | object members =>
      obtain ⟨v, found, text⟩ := Option.bind_eq_some_iff.1 given
      rw [Json.asString?_eq_some_iff.1 text] at found
      exact .member found visible
    | _ => cases given
  · intro addressed
    cases addressed with
    | bare visible => exact ⟨rfl, visible⟩
    | member found visible =>
      refine ⟨?_, visible⟩
      simp only [found]
      rfl

/-! ## What messages say -/

/-- What a message says. -/
def Message.draft (m : Message) : Draft := ⟨m.recipient, m.subject, m.body⟩

namespace Channel

/-- An action that a channel can make no messages of: a recipient has no address, or a record has no
place to go to. -/
def Refuses (a : Action) : Channel → Prop
  | email => ∃ r ∈ a.recipients, ∀ address, ¬ Addressed "email" r address
  | sms => ∃ r ∈ a.recipients, ∀ phone, ¬ Addressed "phone" r phone
  | notification => False
  | database => ∀ collection, a.config.get? "collection" ≠ some (.string collection)

/-- `channel.Says a data drafts`: this is what the messages of an action say, in order. -/
inductive Says (a : Action) (data : Json) : Channel → List Draft → Prop
  | email {drafts : List Draft}
      (each : List.Forall₂ (fun r d => ∃ address, Addressed "email" r address ∧
        d = ⟨.string address, some a.template,
          .string (((a.config.get? "body").bind Json.asString?).getD "")⟩)
        a.recipients drafts) : Says a data .email drafts
  | sms {drafts : List Draft}
      (each : List.Forall₂ (fun r d => ∃ phone, Addressed "phone" r phone ∧
        d = ⟨.string phone, none, .string a.template⟩) a.recipients drafts) :
      Says a data .sms drafts
  | notification : Says a data .notification [⟨.array a.recipients,
      some (((a.config.get? "title").bind Json.asString?).getD ""),
      .ofMembers [("message", .string a.template),
        ("channels", (a.config.get? "channels").getD (.array [.string "in-app"]))]⟩]
  | database {collection : String}
      (named : a.config.get? "collection" = some (.string collection)) :
      Says a data .database [⟨.string collection, none, (a.config.get? "record").getD data⟩]

end Channel

namespace Outbox

/-- Each recipient gets a draft at its address, or one of them has none. -/
theorem drafts_cases (key complaint : String) (write : String → Draft) (recipients : List Json) :
    (∃ ds, drafts key complaint write recipients = .ok ds ∧
      List.Forall₂ (fun r d => ∃ address, Addressed key r address ∧ d = write address)
        recipients ds) ∨
      ∃ r ∈ recipients, (∀ address, ¬ Addressed key r address) ∧
        drafts key complaint write recipients =
          .error (.invalidInput (complaint ++ r.compact)) := by
  induction recipients with
  | nil => exact .inl ⟨[], rfl, .nil⟩
  | cons recipient rest ih =>
    rw [drafts]
    cases found : recipientAddress recipient key with
    | none =>
      refine .inr ⟨recipient, List.mem_cons_self, ?_, rfl⟩
      intro address addressed
      cases found.symm.trans (recipientAddress_eq_some_iff.2 addressed)
    | some address =>
      have addressed := recipientAddress_eq_some_iff.1 found
      rcases ih with ⟨ds, made, each⟩ | ⟨lost, among, unreached, refused⟩
      · exact .inl ⟨write address :: ds, by rw [made]; rfl, .cons ⟨address, addressed, rfl⟩ each⟩
      · exact .inr ⟨lost, List.mem_cons_of_mem recipient among, unreached, by rw [refused]; rfl⟩

/-- Where each recipient has a draft at its address, none is without one. -/
theorem not_lost_of_forall₂ {key : String} {write : String → Draft} {recipients : List Json}
    {ds : List Draft}
    (each : List.Forall₂ (fun r d => ∃ address, Addressed key r address ∧ d = write address)
      recipients ds) : ¬ ∃ r ∈ recipients, ∀ address, ¬ Addressed key r address := by
  rintro ⟨r, among, lost⟩
  induction each with
  | nil => cases among
  | cons reached _ ih =>
    rcases List.mem_cons.1 among with rfl | later
    · obtain ⟨address, addressed, -⟩ := reached
      exact lost address addressed
    · exact ih later

/-- A channel makes all messages of an action, or refuses it. -/
theorem compose_cases (a : Action) (data : Json) (channel : Channel) :
    (∃ ds, compose a data channel = .ok ds ∧ channel.Says a data ds ∧ ¬ channel.Refuses a) ∨
      ∃ reason, compose a data channel = .error (.invalidInput reason) ∧ channel.Refuses a := by
  cases channel with
  | email =>
    rcases drafts_cases "email" "email recipient without address: "
      (fun address => ⟨.string address, some a.template, .string ((setting a "body").getD "")⟩)
      a.recipients with ⟨ds, made, each⟩ | ⟨r, among, lost, refused⟩
    · exact .inl ⟨ds, made, .email each, not_lost_of_forall₂ each⟩
    · exact .inr ⟨_, refused, r, among, lost⟩
  | sms =>
    rcases drafts_cases "phone" "sms recipient without phone: "
      (fun phone => ⟨.string phone, none, .string a.template⟩)
      a.recipients with ⟨ds, made, each⟩ | ⟨r, among, lost, refused⟩
    · exact .inl ⟨ds, made, .sms each, not_lost_of_forall₂ each⟩
    · exact .inr ⟨_, refused, r, among, lost⟩
  | notification => exact .inl ⟨_, rfl, .notification, id⟩
  | database =>
    rw [compose]
    cases found : setting a "collection" with
    | some collection =>
      obtain ⟨v, member, text⟩ := Option.bind_eq_some_iff.1 found
      rw [Json.asString?_eq_some_iff.1 text] at member
      exact .inl ⟨_, rfl, .database member, fun nowhere => nowhere collection member⟩
    | none =>
      refine .inr ⟨_, rfl, ?_⟩
      intro collection member
      rw [setting, member] at found
      cases found

/-! ## What is queued -/

theorem map_draft_queueAll (channel : Channel) (actionId : String) (ds : List Draft)
    (supply : Supply) : (queueAll channel actionId ds supply).1.map Message.draft = ds := by
  induction ds generalizing supply with
  | nil => rfl
  | cons d rest ih => exact congrArg (d :: ·) (ih _)

theorem marked_queueAll (channel : Channel) (actionId : String) (ds : List Draft)
    (supply : Supply) :
    ∀ m ∈ (queueAll channel actionId ds supply).1, m.channel = channel ∧ m.actionId = actionId := by
  induction ds generalizing supply with
  | nil => exact List.forall_mem_nil _
  | cons d rest ih => exact List.forall_mem_cons.2 ⟨⟨rfl, rfl⟩, ih _⟩

/-- A message action fails and leaves the outbox as it was, or it puts all its messages behind those
that wait, under its own identifier and channel, and says how many they are. It fails exactly if its
channel refuses it. -/
theorem delivers_all_or_nothing (channel : Channel) (a : Action) (data : Json) (supply : Supply)
    (world : World) :
    let made := channel.handler ⟨a, data⟩ supply world
    (made.world.files = world.files ∧ made.world.calls = world.calls) ∧
      ((∃ reason, made.reply = .error (.invalidInput reason) ∧
          made.world.outbox = world.outbox ∧ channel.Refuses a) ∨
        ∃ new, made.reply = .ok (.ofMembers [("success", .bool true),
            ("action", .string channel.name), ("delivered", .ofNat new.length)]) ∧
          made.world.outbox = world.outbox ++ new ∧
          (∀ m ∈ new, m.channel = channel ∧ m.actionId = a.id) ∧
          channel.Says a data (new.map Message.draft) ∧ ¬ channel.Refuses a) := by
  refine ⟨⟨rfl, rfl⟩, ?_⟩
  simp only [Channel.handler, Call.atOnce, deliver]
  rcases compose_cases a data channel with ⟨ds, made, said, fine⟩ | ⟨reason, made, refuses⟩
  · rw [made]
    refine .inr ⟨(queueAll channel a.id ds supply).1, rfl, rfl,
      marked_queueAll channel a.id ds supply, ?_, fine⟩
    rw [map_draft_queueAll]
    exact said
  · rw [made]
    exact .inl ⟨reason, rfl, rfl, refuses⟩

end Outbox

end EventFlow
