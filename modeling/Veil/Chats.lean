import Veil.Bookkeeping

namespace Veil

namespace Messenger

/-- The two collections that messages go to. -/
structure Chats where
  messages : OrderedMap String Message := .empty
  conversations : OrderedMap String Messenger.Conversation := .empty

open Command

section

variable {K α β : Type}

def chats (m : Messenger K) : Chats := ⟨m.messages, m.conversations⟩

/-- A conversation that a text has just gone to. -/
def touched (now : Int) (address preview : String) (unreadDelta : Int) (existing : Option Messenger.Conversation) :
    Messenger.Conversation :=
  let conversation := existing.getD { address }
  { conversation with
    lastMessageAt := now, lastMessagePreview := sliceUnits preview 120
    unreadCount := max 0 (conversation.unreadCount + unreadDelta) }

/-- A text as its receiver stores it. -/
def arrived (around : Surroundings K) (peerAddress messageId body : String) (expiresInSeconds : Option Int) : Message where
  id := messageId
  conversationAddress := peerAddress
  direction := .incoming
  body := body
  timestamp := around.now
  status := .delivered
  expiresAt := expiry around expiresInSeconds

/-- A message as a receipt leaves it. -/
def receipted (receipt : ReceiptKind) (message : Message) : Message :=
  if message.direction = .outgoing then { message with status := ReceiptKind.status receipt } else message

/-- The operation leaves both collections alone. -/
def Unrecorded (c : Operation K α) : Prop := ∀ chats, Keeps (fun m : Messenger K => m.chats = chats) c

namespace Unrecorded

theorem pure (a : α) : Unrecorded (Pure.pure a : Operation K α) := fun _ => Keeps.pure a

theorem get : Unrecorded (Command.get : Operation K (Messenger K)) := fun _ => Keeps.get

theorem fail (e : Failure) : Unrecorded (Command.fail e : Operation K α) := fun _ => Keeps.fail e

theorem lift (x : Except Failure α) : Unrecorded (Command.lift x : Operation K α) := fun _ => Keeps.lift x

theorem modify {f : Messenger K → Messenger K} (h : ∀ m, (f m).chats = m.chats) : Unrecorded (Command.modify f) :=
  fun _ => Keeps.modify fun m hm => (h m).trans hm

theorem bind {c : Operation K α} {f : α → Operation K β} (h : Unrecorded c) (hf : ∀ a, Unrecorded (f a)) :
    Unrecorded (c >>= f) :=
  fun chats => (h chats).bind fun a => hf a chats

theorem chats {c : Operation K α} (h : Unrecorded c) (m : Messenger K) : (c m).1.chats = m.chats := h m.chats m rfl

theorem emit (event : MessengerEvent) : Unrecorded (emit event : Operation K Unit) := modify fun _ => rfl

theorem putSession (address : String) (session : Session K) : Unrecorded (putSession address session) := modify fun _ => rfl

theorem putMeta (address : String) (identity : PublicIdentity) : Unrecorded (putMeta address identity : Operation K Unit) :=
  modify fun _ => rfl

theorem putContact (address : String) (contact : Contact) : Unrecorded (putContact address contact : Operation K Unit) :=
  modify fun _ => rfl

variable {crypto : Cryptography K} {codec : PayloadCodec} {around : Surroundings K} {peerAddress : String}

theorem openSession : Unrecorded (openSession crypto around peerAddress) := by
  refine (lift _).bind fun bundle => get.bind fun m => ?_
  have opened {rest : Session K → Operation K (Session K)} (h : ∀ session, Unrecorded (rest session)) :
      Unrecorded (Command.lift (startSession crypto m.identity bundle none around.ephemeral around.kemCoins
        around.sending) >>= rest) := (lift _).bind h
  cases m.contacts.get? peerAddress with
  | none =>
    refine opened fun session => (putSession _ _).bind fun _ => Unrecorded.bind ?_ fun _ => (putMeta _ _).bind fun _ => pure _
    exact (putContact _ _).bind fun _ => emit _
  | some contact =>
    dsimp only
    split
    next =>
      refine Unrecorded.bind ?_ fun _ => fail _
      exact (putContact _ _).bind fun _ => (emit _).bind fun _ => emit _
    next => exact opened fun session => (putSession _ _).bind fun _ => (putMeta _ _).bind fun _ => pure _

theorem ensureSession : Unrecorded (ensureSession crypto around peerAddress) := by
  refine get.bind fun m => ?_
  split
  next => exact fail _
  next =>
    cases m.sessions.get? peerAddress with
    | none => exact openSession
    | some existing => exact pure existing

theorem sendPayload (payload : Payload) : Unrecorded (sendPayload crypto codec around peerAddress payload) := by
  refine ensureSession.bind fun session => get.bind fun m => ?_
  exact (putSession _ _).bind fun _ => (lift _).bind fun _ => Unrecorded.bind (modify fun _ => rfl) fun _ => lift _

theorem sendReceipt (messageIds : List String) (receipt : ReceiptKind) :
    Unrecorded (sendReceipt crypto codec around peerAddress messageIds receipt) := by
  refine get.bind fun m => ?_
  split
  next => exact sendPayload _
  next => exact pure ()

end Unrecorded

variable {crypto : Cryptography K} {codec : PayloadCodec} {around : Surroundings K} {peerAddress : String}

theorem onPayload_text_chats (messageId body : String) (expiresInSeconds : Option Int) (m : Messenger K) :
    (onPayload crypto codec around peerAddress (.text messageId body expiresInSeconds) m).1.chats =
      ⟨m.messages.set messageId (arrived around peerAddress messageId body expiresInSeconds),
        m.conversations.set peerAddress (touched around.now peerAddress body 1 (m.conversations.get? peerAddress))⟩ := by
  have hsent := (Unrecorded.emit (.message (arrived around peerAddress messageId body expiresInSeconds))).bind
    fun _ => @Unrecorded.sendReceipt K crypto codec around peerAddress [messageId] .delivered
  let stored : Messenger K :=
    { m with messages := m.messages.set messageId (arrived around peerAddress messageId body expiresInSeconds) }
  exact hsent.chats (touchConversation around peerAddress body 1 stored).1

/-- A receipt marks every outgoing message it names. -/
theorem onReceipt_chats (receipt : ReceiptKind) (ids : List String) (m : Messenger K) :
    (onReceipt receipt ids m).1.conversations = m.conversations ∧
      ∀ id, (onReceipt receipt ids m).1.messages.get? id =
        (m.messages.get? id).map (fun message => if id ∈ ids then receipted receipt message else message) := by
  induction ids generalizing m with
  | nil =>
    refine ⟨rfl, fun id => ?_⟩
    show m.messages.get? id = _
    simp
  | cons id ids ih =>
    have passed (m' : Messenger K) (hrun : (onReceipt receipt (id :: ids) m).1 = (onReceipt receipt ids m').1)
        (hconversations : m'.conversations = m.conversations)
        (hmessages : ∀ other, m'.messages.get? other =
          (m.messages.get? other).map (fun message => if other = id then receipted receipt message else message)) :
        (onReceipt receipt (id :: ids) m).1.conversations = m.conversations ∧
          ∀ other, (onReceipt receipt (id :: ids) m).1.messages.get? other = (m.messages.get? other).map
            (fun message => if other ∈ id :: ids then receipted receipt message else message) := by
      obtain ⟨hc, hm⟩ := ih m'
      rw [hrun]
      refine ⟨hc.trans hconversations, fun other => ?_⟩
      rw [hm, hmessages, Option.map_map]
      refine congrArg (fun f => (m.messages.get? other).map f) (funext fun message => ?_)
      have htwice : receipted receipt (receipted receipt message) = receipted receipt message := by
        unfold receipted
        split <;> simp_all
      by_cases hhead : other = id <;> by_cases htail : other ∈ ids <;> simp [hhead, htail, htwice]
    cases hfound : m.messages.get? id with
    | none =>
      refine passed m ?_ rfl fun other => ?_
      · simp only [onReceipt, get_bind, hfound]
      · by_cases hother : other = id
        · rw [hother, hfound]
          rfl
        · simp [hother]
    | some message =>
      by_cases hdirection : message.direction = .outgoing
      · refine passed { m with
            messages := m.messages.set id { message with status := ReceiptKind.status receipt }
            events := m.events ++ [.message { message with status := ReceiptKind.status receipt }] } ?_ rfl fun other => ?_
        · simp only [onReceipt, get_bind, hfound, hdirection, ↓reduceIte]
          rfl
        · rw [OrderedMap.get?_set]
          by_cases hother : other = id
          · simp [hother, hfound, receipted, hdirection]
          · simp [hother]
      · refine passed m ?_ rfl fun other => ?_
        · simp only [onReceipt, get_bind, hfound, hdirection, ↓reduceIte]
        · by_cases hother : other = id
          · simp [hother, hfound, receipted, hdirection]
          · simp [hother]

end

end Messenger

end Veil
