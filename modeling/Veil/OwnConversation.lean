import Veil.Chats
import Veil.SelfCertifying

namespace Veil

namespace Messenger

/-- What handling a payload of a peer may do to what is stored. -/
structure OwnConversation (peerAddress : String) (before after : Chats) : Prop where
  messages : ∀ id message, before.messages.get? id = some message → message.conversationAddress ≠ peerAddress →
    after.messages.get? id = some message
  conversations : ∀ address, address ≠ peerAddress → after.conversations.get? address = before.conversations.get? address
  contents : ∀ id message, before.messages.get? id = some message → ∃ message', after.messages.get? id = some message' ∧
    message'.body = message.body ∧ message'.direction = message.direction ∧
      message'.conversationAddress = message.conversationAddress

/-- The ids a payload names belong to the peer's own conversation: a text's to nothing stored but that text, a receipt's to
outgoing messages of the conversation, or to some whose status it does not change. -/
def Confined (peerAddress : String) (chats : Chats) : Payload → Prop
  | .text messageId body _ => ∀ message, chats.messages.get? messageId = some message →
      message.conversationAddress = peerAddress ∧ message.direction = .incoming ∧ message.body = body
  | .receipt messageIds receipt => ∀ id ∈ messageIds, ∀ message, chats.messages.get? id = some message →
      message.direction = .outgoing →
        message.conversationAddress = peerAddress ∨ message.status = ReceiptKind.status receipt
  | _ => True

section

variable {K : Type} {crypto : Cryptography K} {codec : PayloadCodec} {around : Surroundings K} {peerAddress : String}
  {before after : Chats}

theorem OwnConversation.of_eq (h : after = before) : OwnConversation peerAddress before after := by
  subst h
  exact ⟨fun _ _ found _ => found, fun _ _ => rfl, fun _ message found => ⟨message, found, rfl, rfl, rfl⟩⟩

/-- A text that arrives replaces whatever is stored under its id. -/
theorem ownConversation_text (messageId body : String) (expiresInSeconds : Option Int) (m : Messenger K) :
    OwnConversation peerAddress m.chats
      (onPayload crypto codec around peerAddress (.text messageId body expiresInSeconds) m).1.chats ↔
        Confined peerAddress m.chats (.text messageId body expiresInSeconds) := by
  rw [onPayload_text_chats]
  constructor
  · intro own message found
    obtain ⟨message', hstored, hbody, hdirection, haddress⟩ := own.contents messageId message found
    rw [OrderedMap.get?_set_self] at hstored
    obtain rfl := Option.some.inj hstored
    exact ⟨haddress.symm, hdirection.symm, hbody.symm⟩
  · intro confined
    refine ⟨fun id message found apart => ?_, fun address other => OrderedMap.get?_set_of_ne _ _ other,
      fun id message found => ?_⟩
    · have hne : id ≠ messageId := by
        rintro rfl
        exact apart (confined message found).1
      rw [OrderedMap.get?_set_of_ne _ _ hne]
      exact found
    · by_cases hid : id = messageId
      · subst hid
        obtain ⟨haddress, hdirection, hbody⟩ := confined message found
        exact ⟨_, OrderedMap.get?_set_self _ _ _, hbody.symm, hdirection.symm, haddress.symm⟩
      · rw [OrderedMap.get?_set_of_ne _ _ hid]
        exact ⟨message, found, rfl, rfl, rfl⟩

/-- A receipt changes the status of the outgoing messages it names and nothing else. -/
theorem ownConversation_receipt (messageIds : List String) (receipt : ReceiptKind) (m : Messenger K) :
    OwnConversation peerAddress m.chats (onPayload crypto codec around peerAddress (.receipt messageIds receipt) m).1.chats ↔
      Confined peerAddress m.chats (.receipt messageIds receipt) := by
  obtain ⟨hconversations, hmessages⟩ := onReceipt_chats receipt messageIds m
  have marked {id : String} {message : Message} (found : m.messages.get? id = some message) :
      (onReceipt receipt messageIds m).1.messages.get? id =
        some (if id ∈ messageIds then receipted receipt message else message) := by
    rw [hmessages, found]
    rfl
  constructor
  · intro own id hid message found hdirection
    by_cases haddress : message.conversationAddress = peerAddress
    · exact Or.inl haddress
    · have hsame := own.messages id message found haddress
      have hmarked : (onReceipt receipt messageIds m).1.messages.get? id =
          some { message with status := ReceiptKind.status receipt } := by
        rw [marked found, if_pos hid, receipted, if_pos hdirection]
      have hmessage := Option.some.inj (hmarked.symm.trans hsame)
      exact Or.inr (congrArg Message.status hmessage).symm
  · intro confined
    refine ⟨fun id message found apart => ?_, fun address _ => congrArg (fun c => c.get? address) hconversations,
      fun id message found => ?_⟩
    · have hsame : (if id ∈ messageIds then receipted receipt message else message) = message := by
        by_cases hid : id ∈ messageIds
        · rw [if_pos hid, receipted]
          split
          next hdirection =>
            have hstatus := (confined id hid message found hdirection).resolve_left apart
            rw [← hstatus]
          next => rfl
        · exact if_neg hid
      exact (marked found).trans (congrArg some hsame)
    · refine ⟨_, marked found, ?_⟩
      unfold receipted
      repeat' split
      all_goals exact ⟨rfl, rfl, rfl⟩

theorem own_conversation (peerAddress : String) (payload : Payload) (m : Messenger K) :
    OwnConversation peerAddress m.chats (onPayload crypto codec around peerAddress payload m).1.chats ↔
      Confined peerAddress m.chats payload := by
  cases payload with
  | text messageId body expiresInSeconds => exact ownConversation_text messageId body expiresInSeconds m
  | receipt messageIds receipt => exact ownConversation_receipt messageIds receipt m
  | typing | callOffer | callAnswer | callIce | callHangup => exact ⟨fun _ => trivial, fun _ => .of_eq rfl⟩

end

def messageToBob : Message where
  id := "m"
  conversationAddress := bobAddress
  direction := .outgoing
  body := "hello"
  timestamp := 0
  status := .sent

/-- Alice has written to Bob. -/
def aliceWrote : Messenger Bytes := { unopened false with messages := OrderedMap.empty.set "m" messageToBob }

/-- Carol sends a text under the id of the message to Bob. -/
theorem message_replaced : ¬ ∀ (peerAddress : String) (payload : Payload) (m : Messenger Bytes),
    OwnConversation peerAddress m.chats
      (onPayload spelled (textCodec hello) (relayed bobBundle) peerAddress payload m).1.chats := by
  intro claim
  have own := claim carolAddress (.text "m" "goodbye" none) aliceWrote
  rw [onPayload_text_chats] at own
  have found : aliceWrote.chats.messages.get? "m" = some messageToBob := OrderedMap.get?_set_self _ _ _
  obtain ⟨message', hstored, hbody, _⟩ := own.contents "m" _ found
  rw [OrderedMap.get?_set_self] at hstored
  obtain rfl := Option.some.inj hstored
  have hne : ("goodbye" : String) ≠ "hello" := by decide
  exact hne hbody

end Messenger

end Veil
