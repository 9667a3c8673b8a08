import Veil.Chats
import Veil.Library.Processes

namespace Veil

open Messenger

namespace Interleaved

/-- What the messenger's operations await: calls to the two collections of an exchange, and one call without an answer for all
else (the relay, the keystore, contacts, session records). A preview is put together with the message it is cut from, which the
collection does not keep. -/
inductive Call
  | getMessage (id : String)
  | putMessage (id : String) (message : Message)
  | deleteMessage (id : String)
  | allMessages
  | getConversation (address : String)
  | putConversation (address : String) (conversation : Messenger.Conversation) (cutFrom : Option Message)
  | elsewhere

def Answer : Call → Type
  | .getMessage _ => Option Message
  | .allMessages => List (String × Message)
  | .getConversation _ => Option Messenger.Conversation
  | .putMessage _ _ | .deleteMessage _ | .putConversation _ _ _ | .elsewhere => Unit

/-- The collections answer each call at once. -/
def serve : (call : Call) → Chats → Chats × Answer call
  | .getMessage id, chats => (chats, chats.messages.get? id)
  | .putMessage id message, chats => ({ chats with messages := chats.messages.set id message }, ())
  | .deleteMessage id, chats => ({ chats with messages := chats.messages.delete id }, ())
  | .allMessages, chats => (chats, chats.messages.entries)
  | .getConversation address, chats => (chats, chats.conversations.get? address)
  | .putConversation address conversation _, chats =>
    ({ chats with conversations := chats.conversations.set address conversation }, ())
  | .elsewhere, chats => (chats, ())

abbrev Operation (α : Type) : Type := Process Call Answer α

def getMessage (id : String) : Operation (Option Message) := .wait (.getMessage id) .done

def putMessage (id : String) (message : Message) : Operation Unit := .wait (.putMessage id message) .done

def deleteMessage (id : String) : Operation Unit := .wait (.deleteMessage id) .done

def allMessages : Operation (List (String × Message)) := .wait .allMessages .done

def getConversation (address : String) : Operation (Option Messenger.Conversation) := .wait (.getConversation address) .done

def putConversation (address : String) (conversation : Messenger.Conversation) (cutFrom : Option Message) : Operation Unit :=
  .wait (.putConversation address conversation cutFrom) .done

def elsewhere : Operation Unit := .wait .elsewhere .done

/-- `touchConversation` for a message. -/
def touchConversation (now : Int) (address : String) (message : Message) (unreadDelta : Int) : Operation Unit := do
  let existing ← getConversation address
  putConversation address (touched now address message.body unreadDelta existing) (some message)

def markRead (address : String) : Operation Unit := do
  match ← getConversation address with
  | none => return ()
  | some conversation => putConversation address { conversation with unreadCount := 0 } none

/-- `sendText` of a message that is still pending; `sent` is what sending its payload comes to. -/
def sendText (now : Int) (message : Message) (sent : Except Failure Unit) : Operation (Except Failure Message) := do
  putMessage message.id message
  elsewhere
  match sent with
  | .error e =>
    putMessage message.id { message with status := .failed }
    return .error e
  | .ok () =>
    putMessage message.id { message with status := .sent }
    touchConversation now message.conversationAddress { message with status := .sent } 0
    return .ok { message with status := .sent }

/-- The text branch of `onPayload`; the receipt goes out at the end. -/
def onText (now : Int) (message : Message) : Operation Unit := do
  putMessage message.id message
  touchConversation now message.conversationAddress message 1
  elsewhere

/-- The receipt branch of `onPayload`. -/
def onReceipt (receipt : ReceiptKind) : List String → Operation Unit
  | [] => return ()
  | id :: ids => do
    match ← getMessage id with
    | some message =>
      if message.direction = .outgoing then
        putMessage id { message with status := ReceiptKind.status receipt }
        onReceipt receipt ids
      else onReceipt receipt ids
    | none => onReceipt receipt ids

/-- `handleDelivered` of a text from when the pairing lock has let it in: the sender is recorded, then the text. -/
def handleDelivered (now : Int) (message : Message) : Operation Unit := do
  elsewhere
  onText now message

/-- One `handleDelivered` after the other, as `sync` does it. -/
def sync : List (Int × Message) → Operation Unit
  | [] => return ()
  | (now, message) :: rest => do
    handleDelivered now message
    sync rest

/-- A text, with the clock of the device it is written on or delivered to. -/
structure Text where
  messageId : String
  body : String
  now : Int
  expiresAt : Option Int := none

/-- The text as its sender stores it first. -/
def Text.outgoing (peerAddress : String) (text : Text) : Message where
  id := text.messageId
  conversationAddress := peerAddress
  direction := .outgoing
  body := text.body
  timestamp := text.now
  status := .pending
  expiresAt := text.expiresAt

/-- The text as its receiver stores it. -/
def Text.incoming (peerAddress : String) (text : Text) : Message where
  id := text.messageId
  conversationAddress := peerAddress
  direction := .incoming
  body := text.body
  timestamp := text.now
  status := .delivered
  expiresAt := text.expiresAt

def deleteMessages : List String → Operation Unit
  | [] => return ()
  | id :: ids => do
    deleteMessage id
    deleteMessages ids

/-- The ids of the messages that are due. -/
def due (now : Int) (rows : List (String × Message)) : List String :=
  (rows.filter (fun row => Expired now row.2)).map Prod.fst

def history (now : Int) (address : String) : Operation (List Message) := do
  let rows ← allMessages
  let rows := rows.filter (fun row => row.2.conversationAddress = address)
  deleteMessages (due now rows)
  return ((rows.filter (fun row => ¬Expired now row.2)).map Prod.snd).mergeSort (fun a b => a.timestamp ≤ b.timestamp)

def purgeExpired (now : Int) : Operation Nat := do
  let rows ← allMessages
  deleteMessages (due now rows)
  return (due now rows).length

/-- What may be started; `send` comes with what sending its payload comes to. -/
inductive Errand
  | send (peerAddress : String) (text : Text) (sent : Except Failure Unit)
  | deliver (batch : List (String × Text))
  | receipt (kind : ReceiptKind) (ids : List String)
  | history (now : Int) (address : String)
  | purge (now : Int)

namespace Errand

def operation : Errand → Operation Unit
  | send peerAddress text sent => (sendText text.now (text.outgoing peerAddress) sent).ignore
  | deliver batch => sync (batch.map (fun (peerAddress, text) => (text.now, text.incoming peerAddress)))
  | receipt kind ids => onReceipt kind ids
  | history now address => (Interleaved.history now address).ignore
  | purge now => (purgeExpired now).ignore

end Errand

section

variable {calls : Call → Prop} {answers : (call : Call) → Answer call → Prop}

theorem deleteMessages_abides (deletes : ∀ id, calls (.deleteMessage id)) (gone : List String) :
    (deleteMessages gone).Abides calls answers := by
  induction gone with
  | nil => trivial
  | cons id gone ih => exact ⟨deletes id, fun _ _ => ih⟩

theorem history_abides (reads : calls .allMessages) (deletes : ∀ id, calls (.deleteMessage id)) (now : Int) (address : String) :
    (history now address).Abides calls (fun _ _ => True) :=
  ⟨reads, fun _ _ => (deleteMessages_abides deletes _).bind fun _ => trivial⟩

theorem purgeExpired_abides (reads : calls .allMessages) (deletes : ∀ id, calls (.deleteMessage id)) (now : Int) :
    (purgeExpired now).Abides calls (fun _ _ => True) :=
  ⟨reads, fun _ _ => (deleteMessages_abides deletes _).bind fun _ => trivial⟩

theorem sync_abides {batch : List (Int × Message)}
    (h : ∀ delivery ∈ batch, (handleDelivered delivery.1 delivery.2).Abides calls answers) :
    (sync batch).Abides calls answers := by
  induction batch with
  | nil => trivial
  | cons delivery batch ih =>
    have hfirst := h delivery List.mem_cons_self
    exact hfirst.bind fun _ => ih fun other hother => h other (List.mem_cons_of_mem _ hother)

theorem onReceipt_cons (kind : ReceiptKind) (id : String) (ids : List String) :
    onReceipt kind (id :: ids) = .wait (.getMessage id) (fun (found : Option Message) =>
      found.elim (onReceipt kind ids) (fun message =>
        if message.direction = .outgoing then do
          putMessage id { message with status := ReceiptKind.status kind }
          onReceipt kind ids
        else onReceipt kind ids)) := by
  refine congrArg (Process.wait (Call.getMessage id)) (funext fun (found : Option Message) => ?_)
  cases found with
  | none => rfl
  | some message => rfl

theorem onReceipt_abides (kind : ReceiptKind) (reads : ∀ id, calls (.getMessage id))
    (stores : ∀ id message, calls (.putMessage id message)) (ids : List String) :
    (onReceipt kind ids).Abides calls answers := by
  induction ids with
  | nil => trivial
  | cons id ids ih =>
    rw [onReceipt_cons]
    refine ⟨reads id, fun (found : Option Message) => ?_⟩
    intro _
    cases found with
    | none => exact ih
    | some message =>
      simp only [Option.elim_some]
      by_cases hdirection : message.direction = .outgoing
      · rw [if_pos hdirection]
        exact ⟨stores id _, fun _ _ => ih⟩
      · rw [if_neg hdirection]
        exact ih

end

section

variable {K : Type} {crypto : Cryptography K} {codec : PayloadCodec} {around : Surroundings K} {address : String}

theorem touchConversation_alone (message : Message) (unreadDelta : Int) (m : Messenger K) :
    ((touchConversation around.now address message unreadDelta).alone serve m.chats).1 =
      (Messenger.touchConversation around address message.body unreadDelta m).1.chats := rfl

theorem markRead_alone (m : Messenger K) :
    ((markRead address).alone serve m.chats).1 = (Messenger.markRead address m).1.chats := by
  have hread : (markRead address).alone serve m.chats = (match m.conversations.get? address with
      | none => .done ()
      | some conversation => putConversation address { conversation with unreadCount := 0 } none :
        Operation Unit).alone serve m.chats := rfl
  cases hfound : m.conversations.get? address with
  | none =>
    rw [hread, hfound]
    simp only [Messenger.markRead, Command.get_bind, hfound]
    rfl
  | some conversation =>
    rw [hread, hfound]
    simp only [Messenger.markRead, Command.get_bind, hfound]
    rfl

theorem onText_alone (messageId body : String) (expiresInSeconds : Option Int) (m : Messenger K) :
    ((onText around.now (Text.incoming address ⟨messageId, body, around.now, expiry around expiresInSeconds⟩)).alone serve
        m.chats).1 =
      (Messenger.onPayload crypto codec around address (.text messageId body expiresInSeconds) m).1.chats := by
  rw [onPayload_text_chats]
  rfl

theorem onReceipt_alone (receipt : ReceiptKind) (ids : List String) (m : Messenger K) :
    ((onReceipt receipt ids).alone serve m.chats).1 = (Messenger.onReceipt receipt ids m).1.chats := by
  induction ids generalizing m with
  | nil => rfl
  | cons id ids ih =>
    have hread : (onReceipt receipt (id :: ids)).alone serve m.chats = (match m.messages.get? id with
        | some message =>
          if message.direction = .outgoing then
            putMessage id { message with status := ReceiptKind.status receipt } >>= fun _ => onReceipt receipt ids
          else onReceipt receipt ids
        | none => onReceipt receipt ids : Operation Unit).alone serve m.chats := rfl
    cases hfound : m.messages.get? id with
    | none =>
      rw [hread, hfound]
      simp only [Messenger.onReceipt, Command.get_bind, hfound]
      exact ih m
    | some message =>
      rw [hread, hfound]
      simp only [Messenger.onReceipt, Command.get_bind, hfound]
      by_cases hdirection : message.direction = .outgoing
      · simp only [hdirection, ↓reduceIte]
        exact ih { m with
          messages := m.messages.set id { message with status := ReceiptKind.status receipt, direction := .outgoing }
          events := m.events ++
            [.message { message with status := ReceiptKind.status receipt, direction := .outgoing }] }
      · simp only [hdirection, ↓reduceIte]
        exact ih m

theorem deleteMessages_alone (ids : List String) (chats : Chats) :
    ((deleteMessages ids).alone serve chats).1 =
      { chats with messages := ids.foldl (fun messages id => messages.delete id) chats.messages } := by
  induction ids generalizing chats with
  | nil => rfl
  | cons id ids ih => exact ih { chats with messages := chats.messages.delete id }

/-- Deleting the due ones among some rows leaves the rest. -/
theorem deleteMessages_due (now : Int) (chosen : Message → Bool) (messages : OrderedMap String Message) :
    ((due now (messages.entries.filter (fun row => chosen row.2))).foldl (fun messages id => messages.delete id)
      messages).entries = messages.entries.filter (fun row => !chosen row.2 || ¬Expired now row.2) := by
  rw [OrderedMap.entries_foldl_delete]
  refine List.filter_congr fun row hrow => ?_
  have hmem : row.1 ∈ due now (messages.entries.filter (fun row => chosen row.2)) ↔
      chosen row.2 = true ∧ Expired now row.2 := by
    simp only [due, List.mem_map, List.mem_filter, decide_eq_true_eq]
    constructor
    · rintro ⟨other, ⟨⟨hother, hchosen⟩, hexpired⟩, hkey⟩
      have heq : other = row := List.inj_on_of_nodup_map messages.nodup hother hrow hkey
      exact heq ▸ ⟨hchosen, hexpired⟩
    · exact fun h => ⟨row, ⟨⟨hrow, h.1⟩, h.2⟩, rfl⟩
  by_cases hchosen : chosen row.2 = true <;> by_cases hexpired : Expired now row.2 <;> simp [hmem, hchosen, hexpired]

theorem purgeExpired_alone (m : Messenger K) :
    ((purgeExpired around.now).alone serve m.chats).1 = (Messenger.purgeExpired around m).1.chats := by
  have hrun : ((purgeExpired around.now).alone serve m.chats).1 =
      ((deleteMessages (due around.now m.messages.entries)).alone serve m.chats).1 :=
    Process.alone_bind_done serve (deleteMessages (due around.now m.messages.entries)) _ m.chats
  have hall : m.messages.entries = m.messages.entries.filter (fun _ => true) := by simp
  have hdue := deleteMessages_due around.now (fun _ => true) m.messages
  rw [← hall] at hdue
  rw [hrun, deleteMessages_alone]
  refine congrArg (fun messages => (⟨messages, m.conversations⟩ : Chats)) (OrderedMap.ext ?_)
  exact hdue.trans (List.filter_congr fun row _ => by simp)

theorem history_alone (m : Messenger K) :
    ((history around.now address).alone serve m.chats).1 = (Messenger.history around address m).1.chats := by
  let rows := m.messages.entries.filter (fun row => row.2.conversationAddress = address)
  have hrun : ((history around.now address).alone serve m.chats).1 =
      ((deleteMessages (due around.now rows)).alone serve m.chats).1 :=
    Process.alone_bind_done serve (deleteMessages (due around.now rows)) _ m.chats
  have hdue := deleteMessages_due around.now (fun message => message.conversationAddress = address) m.messages
  rw [hrun, deleteMessages_alone]
  refine congrArg (fun messages => (⟨messages, m.conversations⟩ : Chats)) (OrderedMap.ext ?_)
  exact hdue.trans (List.filter_congr fun row _ => by simp)

theorem sendText_alone (body : String) (expiresInSeconds : Option Int) (m : Messenger K) :
    ∃ sent, ((sendText around.now (Text.outgoing address ⟨around.messageId, body, around.now,
        expiry around expiresInSeconds⟩) sent).alone serve m.chats).1 =
      (Messenger.sendText crypto codec around address body expiresInSeconds m).1.chats := by
  let message := Text.outgoing address ⟨around.messageId, body, around.now, expiry around expiresInSeconds⟩
  let payload := Payload.text message.id body (expiresInSeconds.filter (fun seconds => seconds ≠ 0))
  let stored : Messenger K :=
    { m with messages := m.messages.set message.id message, events := m.events ++ [.message message] }
  have hchats := (@Unrecorded.sendPayload K crypto codec around address payload).chats stored
  cases hrun : sendPayload crypto codec around address payload stored with
  | mk sealed result =>
    rw [hrun] at hchats
    have hmessages : sealed.messages = m.messages.set message.id message := congrArg Chats.messages hchats
    have hconversations : sealed.conversations = m.conversations := congrArg Chats.conversations hchats
    refine ⟨result, ?_⟩
    cases result with
    | error e =>
      have hfailed : Messenger.sendText crypto codec around address body expiresInSeconds m =
          ({ sealed with messages := sealed.messages.set message.id { message with status := .failed }
                         events := sealed.events ++ [.message { message with status := .failed }] }, .error e) := by
        show (Command.rescue (sendPayload crypto codec around address payload) _ >>= _) stored = _
        exact Command.bind_error _ (by rw [Command.rescue, hrun]; rfl)
      rw [hfailed]
      show (⟨_, _⟩ : Chats) = ⟨_, _⟩
      rw [hmessages, hconversations]
      rfl
    | ok _ =>
      have hsent : (Messenger.sendText crypto codec around address body expiresInSeconds m).1.chats =
          ⟨sealed.messages.set message.id { message with status := .sent },
            sealed.conversations.set address (touched around.now address body 0 (sealed.conversations.get? address))⟩ := by
        show ((Command.rescue (sendPayload crypto codec around address payload) _ >>= _) stored).1.chats = _
        rw [Command.bind_ok _ (by rw [Command.rescue, hrun])]
        rfl
      rw [hsent, hmessages, hconversations]
      rfl

end

end Interleaved

end Veil
