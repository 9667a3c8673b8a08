import Veil.Collections
import Veil.Json
import Veil.Redelivery
import Veil.Transport

namespace Veil

open Command

/-- `JSON.parse` of the text that bytes decode to, and the bytes of what `JSON.stringify` writes. -/
structure PayloadText where
  parse : Bytes → Except Failure Json
  stringify : Json → Bytes

namespace Parsed

def known : List String := ["text", "receipt", "typing", "call-offer", "call-answer", "call-ice", "call-hangup"]

section

variable (js : NumberText) (json : PayloadText)

def decodePayload (bytes : Bytes) : Except Failure Json := do
  let parsed ← json.parse bytes
  match parsed.field "kind" with
  | none => .error (.error "payload is not an object with a kind")
  | some (.str kind) => if kind ∈ known then return parsed else .error (.error s!"unknown payload kind: {kind}")
  | some kind => do
    let text ← kind.toText js
    .error (.error s!"unknown payload kind: {text}")

end

def isText : Option Json → Bool
  | some (.str _) => true
  | _ => false

/-- The fields are there with the types that `Payload` declares. -/
def inhabits (payload : Json) : Bool :=
  match payload.field "kind" with
  | some (.str "text") =>
    isText (payload.field "messageId") && isText (payload.field "body") &&
      match payload.field "expiresInSeconds" with
      | none | some (.num _) => true
      | _ => false
  | some (.str "receipt") =>
    (match payload.field "messageIds" with
      | some (.arr ids) => ids.all (fun id => isText (some id))
      | _ => false) &&
      match payload.field "receipt" with
      | some (.str receipt) => receipt = "delivered" || receipt = "read"
      | _ => false
  | some (.str "typing") => match payload.field "typing" with
    | some (.bool _) => true
    | _ => false
  | some (.str "call-offer") =>
    ["callId", "mediaSecret", "sdp", "dtlsFingerprint"].all (fun name => isText (payload.field name))
  | some (.str "call-answer") => ["callId", "sdp", "dtlsFingerprint"].all (fun name => isText (payload.field name))
  | some (.str "call-ice") => ["callId", "candidate"].all (fun name => isText (payload.field name))
  | some (.str "call-hangup") => ["callId", "reason"].all (fun name => isText (payload.field name))
  | _ => false

/-- A message as it is put together from a payload; a missing field is stored as a missing field. -/
structure Message where
  id : Option Json
  conversationAddress : String
  direction : MessageDirection
  body : Option Json
  timestamp : Int
  status : Option Json
  expiresAt : Option JsNumber := none

structure Conversation where
  address : String
  lastMessageAt : Int := 0
  lastMessagePreview : Json := .str ""
  unreadCount : Int := 0
  disappearAfterSeconds : Int := 0

inductive Event
  | message (message : Message)
  | conversationChanged (conversation : Conversation)
  | typing (peerAddress : String) (typing : Option Json)
  | callPayload (peerAddress : String) (payload : Json)

/-- The two collections, the messages by the key of their row and with the record id they are encrypted under. -/
structure History (Key : Type) where
  messages : OrderedMap Key (String × Message) := OrderedMap.empty
  conversations : OrderedMap String Conversation := OrderedMap.empty
  events : List Event := []

/-- What the database makes of the id of a row. -/
structure RowKeys (Key : Type) where
  key : Option Json → Except Failure Key

/-- Where a delivery has failed: on the payload, or outside it. -/
inductive Cause
  | payload (failure : Failure)
  | elsewhere (failure : Failure)
  deriving DecidableEq

def Cause.failure : Cause → Failure
  | payload failure | elsewhere failure => failure

/-- A client whose history is kept apart from what holds its keys. -/
structure Phone (K Key : Type) where
  device : Messenger K
  history : History Key

abbrev Reading (Key α : Type) : Type := Command (History Key) Failure α

abbrev Handling (K Key α : Type) : Type := Command (Phone K Key) Cause α

section

variable {Key : Type} [DecidableEq Key] (js : NumberText) (keys : RowKeys Key) (now : Int)

def emit (event : Event) : Reading Key Unit := modify fun history => { history with events := history.events ++ [event] }

/-- `recordId` of the messages, with whatever stands for the id. -/
def recordId : Option Json → Except Failure String
  | none => return EncryptedCollection.recordId Collection.messages.name "undefined"
  | some id => do return EncryptedCollection.recordId Collection.messages.name (← id.toText js)

def getMessage (id : Option Json) : Reading Key (Option Message) := do
  let key ← lift (keys.key id)
  let history ← get
  match history.messages.get? key with
  | none => return none
  | some (sealedFor, message) =>
    let recordId ← lift (recordId js id)
    if recordId = sealedFor then return some message
    else fail (.authentication "AEAD authentication failed")

def putMessage (id : Option Json) (message : Message) : Reading Key Unit := do
  let recordId ← lift (recordId js id)
  let key ← lift (keys.key id)
  modify fun history => { history with messages := history.messages.set key (recordId, message) }

/-- `value.slice(0, units)`: a text and an array have it. -/
def slice (units : Nat) : Option Json → Except Failure Json
  | some (.str text) => .ok (.str (sliceUnits text units))
  | some (.arr elements) => .ok (.arr (elements.take units))
  | _ => .error (.error "preview.slice is not a function")

def touchConversation (address : String) (preview : Option Json) (unreadDelta : Int) : Reading Key Unit := do
  let history ← get
  let existing := (history.conversations.get? address).getD { address }
  let lastMessagePreview ← lift (slice 120 preview)
  let conversation := { existing with
    lastMessageAt := now, lastMessagePreview, unreadCount := max 0 (existing.unreadCount + unreadDelta) }
  modify fun history => { history with conversations := history.conversations.set address conversation }
  emit (.conversationChanged conversation)

/-- `now + seconds * 1000` -/
def deadline : JsNumber → JsNumber
  | .finite seconds => .finite (now + seconds * 1000)
  | .infinity negative => .infinity negative
  | .nan => .nan

def expiry (expiresInSeconds : Option Json) : Except Failure (Option JsNumber) :=
  match expiresInSeconds with
  | some seconds =>
    if Json.truthy (some seconds) then do return some (deadline now (← seconds.toNumber js)) else return none
  | none => return none

/-- The text is stored, and the id that its receipt names is returned. -/
def onText (peerAddress : String) (payload : Json) : Reading Key (Option Json) := do
  let expiresAt ← lift (expiry js now (payload.field "expiresInSeconds"))
  let message : Message :=
    { id := payload.field "messageId", conversationAddress := peerAddress, direction := .incoming
      body := payload.field "body", timestamp := now, status := some (.str "delivered"), expiresAt }
  putMessage js keys message.id message
  touchConversation now peerAddress (payload.field "body") 1
  emit (.message message)
  return message.id

def onReceipt (receipt : Option Json) : List Json → Reading Key Unit
  | [] => return ()
  | id :: ids => do
    match ← getMessage js keys (some id) with
    | none => onReceipt receipt ids
    | some message =>
      if message.direction = .outgoing then
        putMessage js keys (some id) { message with status := receipt }
        emit (.message { message with status := receipt })
        onReceipt receipt ids
      else onReceipt receipt ids

/-- `for (const id of messageIds)` -/
def iterated : Option Json → Except Failure (List Json)
  | none => .error (.error "value is not iterable")
  | some value => value.elements

end

section

variable {K Key : Type} [DecidableEq Key]

def onDevice {α : Type} (operation : Messenger.Operation K α) : Handling K Key α := fun phone =>
  ({ phone with device := (operation phone.device).1 }, (operation phone.device).2.mapError .elsewhere)

def onHistory {α : Type} (reading : Reading Key α) : Handling K Key α := fun phone =>
  ({ phone with history := (reading phone.history).1 }, (reading phone.history).2.mapError .payload)

variable (crypto : Cryptography K) (around : Surroundings K) (js : NumberText) (json : PayloadText) (keys : RowKeys Key)

/-- `sendPayload`, of the bytes of a payload. -/
def sendPlaintext (peerAddress : String) (plaintext : Bytes) : Messenger.Operation K Unit := do
  let session ← Messenger.ensureSession crypto around peerAddress
  let m ← get
  let (next, sealed) := encryptMessage crypto m.identity session plaintext around.envelopeEphemeral
  Messenger.putSession peerAddress next
  let envelope ← lift sealed
  modify fun m => { m with dispatched := m.dispatched ++ [⟨envelope, session, m.pairing⟩] }
  lift (around.send envelope)

/-- The receipt of one message. An id that is missing is written as `null`. -/
def sendReceipt (peerAddress : String) (messageId : Option Json) : Messenger.Operation K Unit := do
  let m ← get
  if m.sendReceipts then
    sendPlaintext crypto around peerAddress (json.stringify (.obj [("kind", .str "receipt"),
      ("messageIds", .arr [messageId.getD .null]), ("receipt", .str "delivered")]))
  else return ()

def onPayload (peerAddress : String) (payload : Json) : Handling K Key Unit :=
  match payload.field "kind" with
  | some (.str "text") => do
    let messageId ← onHistory (onText js keys around.now peerAddress payload)
    onDevice (sendReceipt crypto around json peerAddress messageId)
  | some (.str "receipt") => onHistory do
    let ids ← lift (iterated (payload.field "messageIds"))
    onReceipt js keys (payload.field "receipt") ids
  | some (.str "typing") => onHistory (emit (.typing peerAddress (payload.field "typing")))
  | some (.str "call-offer") | some (.str "call-answer") | some (.str "call-ice") | some (.str "call-hangup") =>
    onHistory (emit (.callPayload peerAddress payload))
  | _ => return ()

/-- The sender and the plaintext of an envelope, if the pairing lock lets the sender in. -/
def openInbound (envelope : SealedEnvelope) : Messenger.Operation K (Option (String × Bytes)) := do
  let result ← Messenger.decryptInbound crypto around envelope
  let peerAddress ← lift (addressOf crypto result.senderIdentity.signingPublicKey)
  let m ← get
  match if m.paired then
      decideInbound m.pairing peerAddress (toBase64Url result.senderIdentity.signingPublicKey)
    else .allow with
  | .refuse reason =>
    Messenger.emit (.blocked reason (explainRefusal reason))
    return none
  | .allow =>
    Messenger.putSession peerAddress result.session
    Messenger.rememberPeer around peerAddress result.senderIdentity
    return some (peerAddress, result.plaintext)

/-- A delivery as far as its payload. -/
def openDelivered (delivered : DeliveredMessage) : Messenger.Operation K (Option (String × Bytes)) := do
  let envelope ← lift (decodeEnvelope delivered.envelope)
  openInbound crypto around envelope

/-- What `handleDelivered` tries. -/
def receive (delivered : DeliveredMessage) : Handling K Key (String × Bool) := do
  match ← onDevice (openDelivered crypto around delivered) with
  | none => return (delivered.id, false)
  | some (peerAddress, plaintext) =>
    let payload ← onHistory (lift (decodePayload js json plaintext))
    onPayload crypto around js json keys peerAddress payload
    return (delivered.id, true)

def handleDelivered (delivered : DeliveredMessage) : Handling K Key (String × Bool) :=
  rescue (receive crypto around js json keys delivered) fun cause => do
    onDevice (Messenger.reportFailure cause.failure)
    return (delivered.id, false)

end

section

variable {K : Type} (crypto : Cryptography K) (codec : PayloadCodec) (around : Surroundings K)

theorem sendPayload_eq (peerAddress : String) (payload : Payload) :
    Messenger.sendPayload crypto codec around peerAddress payload =
      sendPlaintext crypto around peerAddress (codec.encode payload) := rfl

theorem handleDelivered_eq (delivered : DeliveredMessage) :
    Messenger.handleDelivered crypto codec around delivered =
      rescue
        (do
          match ← openDelivered crypto around delivered with
          | none => return (delivered.id, false)
          | some (peerAddress, plaintext) =>
            let payload ← lift (codec.decode plaintext)
            Messenger.onPayload crypto codec around peerAddress payload
            return (delivered.id, true))
        (fun e => do
          Messenger.reportFailure e
          return (delivered.id, false)) := by
  have assoc {σ ε α β γ : Type} (m : Command σ ε α) (f : α → Command σ ε β) (g : β → Command σ ε γ) :
      (m >>= f) >>= g = m >>= fun a => f a >>= g := funext (bind_assoc m f g)
  unfold Messenger.handleDelivered openDelivered openInbound
  congr 1
  simp only [assoc]
  congr 1
  funext envelope
  congr 1
  funext result
  congr 1
  funext peerAddress
  congr 1
  funext m
  generalize (if m.paired = true then
      decideInbound m.pairing peerAddress (toBase64Url result.senderIdentity.signingPublicKey)
    else .allow) = decision
  cases decision with
  | refuse reason =>
    simp only [assoc]
    rfl
  | allow =>
    simp only [assoc, Messenger.acceptInbound]
    rfl

end

/-- A payload is an object with one of the seven kinds, and no other field of it has been looked at. -/
theorem decodePayload_ok_iff {js : NumberText} {json : PayloadText} {bytes : Bytes} {payload : Json} :
    decodePayload js json bytes = .ok payload ↔
      json.parse bytes = .ok payload ∧ ∃ kind ∈ known, payload.field "kind" = some (.str kind) := by
  unfold decodePayload
  cases hparse : json.parse bytes with
  | error e => simp [bind, Except.bind]
  | ok parsed =>
    have hbind (f : Json → Except Failure Json) : (Except.ok parsed >>= f) = f parsed := rfl
    rw [hbind]
    constructor
    · intro hok
      split at hok
      next => cases hok
      next kind hkind =>
        split at hok
        next hmem =>
          obtain rfl := Except.ok.inj hok
          exact ⟨rfl, kind, hmem, hkind⟩
        next => cases hok
      next kind _ _ =>
        cases htext : kind.toText js with
        | error e => rw [htext] at hok; cases hok
        | ok text => rw [htext] at hok; cases hok
    · rintro ⟨hparsed, kind, hmem, hkind⟩
      obtain rfl := Except.ok.inj hparsed
      simp only [hkind, if_pos hmem]
      rfl

section

variable {Key : Type}

/-- What a failure leaves of the two collections; the messages may have changed under `exempt`. -/
def Spared (history : History Key) (exempt : Prop) (after : History Key) : Prop :=
  after.conversations = history.conversations ∧ (after.messages = history.messages ∨ exempt)

theorem Spared.refl (history : History Key) (exempt : Prop) : Spared history exempt history := ⟨rfl, Or.inl rfl⟩

variable [DecidableEq Key] {js : NumberText} {keys : RowKeys Key} {history : History Key}

theorem getMessage_keeps (id : Option Json) : (getMessage js keys id history).1 = history := by
  have hkeeps : Keeps (fun s => s = history) (getMessage js keys id) := by
    unfold getMessage
    apply Keeps.bind (Keeps.lift _)
    intro key
    apply Keeps.bind Keeps.get
    intro rows
    split
    next => exact Keeps.pure _
    next =>
      apply Keeps.bind (Keeps.lift _)
      intro recordId
      split
      next => exact Keeps.pure _
      next => exact Keeps.fail _
  exact hkeeps history rfl

/-- A message is read from the row of its id, which is encrypted under its record id. -/
theorem getMessage_some {id : Option Json} {message : Message}
    (h : (getMessage js keys id history).2 = .ok (some message)) :
    ∃ key sealedFor, keys.key id = .ok key ∧ recordId js id = .ok sealedFor ∧
      history.messages.get? key = some (sealedFor, message) := by
  unfold getMessage at h
  cases hkey : keys.key id with
  | error e => rw [hkey, lift_error_bind] at h; cases h
  | ok key =>
    rw [hkey, lift_ok_bind, get_bind] at h
    cases hrow : history.messages.get? key with
    | none => rw [hrow] at h; cases h
    | some row =>
      obtain ⟨sealedFor, stored⟩ := row
      simp only [hrow] at h
      cases hid : recordId js id with
      | error e => rw [hid, lift_error_bind] at h; cases h
      | ok text =>
        rw [hid, lift_ok_bind] at h
        split at h
        next heq =>
          obtain rfl := Option.some.inj (Except.ok.inj h)
          exact ⟨key, sealedFor, rfl, by rw [heq], hrow⟩
        next => cases h

/-- The rows are encrypted under the same record ids. -/
def SameRows (history after : History Key) : Prop :=
  ∀ key, (after.messages.get? key).map Prod.fst = (history.messages.get? key).map Prod.fst

/-- Whether a row can be read is a matter of its record id. -/
theorem getMessage_error_of_same {after : History Key} (same : SameRows history after) {id : Option Json} {e : Failure}
    (h : (getMessage js keys id after).2 = .error e) : (getMessage js keys id history).2 = .error e := by
  unfold getMessage at h ⊢
  cases hkey : keys.key id with
  | error e' => rw [hkey, lift_error_bind] at h; rw [lift_error_bind]; exact h
  | ok key =>
    rw [hkey, lift_ok_bind, get_bind] at h
    rw [lift_ok_bind, get_bind]
    have hsame := same key
    cases hrow : after.messages.get? key with
    | none => rw [hrow] at h; cases h
    | some row =>
      obtain ⟨sealedFor, message⟩ := row
      rw [hrow, Option.map_some] at hsame
      obtain ⟨⟨sealedFor', message'⟩, hrow', heq⟩ := Option.map_eq_some_iff.mp hsame.symm
      obtain rfl : sealedFor' = sealedFor := heq
      simp only [hrow] at h
      simp only [hrow']
      cases hid : recordId js id with
      | error e' => rw [hid, lift_error_bind] at h; rw [lift_error_bind]; exact h
      | ok text =>
        rw [hid, lift_ok_bind] at h
        rw [lift_ok_bind]
        by_cases htext : text = sealedFor'
        · rw [if_pos htext] at h; cases h
        · rw [if_neg htext] at h ⊢; exact h

/-- A message that has been read can be put back. -/
theorem putMessage_of_read {id : Option Json} {message : Message}
    (h : (getMessage js keys id history).2 = .ok (some message)) (message' : Message) :
    ∃ after, putMessage js keys id message' history = (after, .ok ()) ∧
      after.conversations = history.conversations ∧ SameRows history after := by
  obtain ⟨key, sealedFor, hkey, hid, hrow⟩ := getMessage_some h
  refine ⟨{ history with messages := history.messages.set key (sealedFor, message') }, ?_, rfl, ?_⟩
  · unfold putMessage
    rw [hid, lift_ok_bind, hkey, lift_ok_bind]
    rfl
  · intro key'
    show ((history.messages.set key (sealedFor, message')).get? key').map Prod.fst = _
    by_cases hsame : key' = key
    · rw [hsame, OrderedMap.get?_set_self, hrow]
      rfl
    · rw [OrderedMap.get?_set_of_ne _ _ hsame]

/-- The id cannot be read. -/
def Refused (js : NumberText) (keys : RowKeys Key) (history : History Key) (id : Json) : Prop :=
  ∃ e, (getMessage js keys (some id) history).2 = .error e

/-- The id is that of a message sent from here. -/
def Outgoing (js : NumberText) (keys : RowKeys Key) (history : History Key) (id : Json) : Prop :=
  ∃ message, (getMessage js keys (some id) history).2 = .ok (some message) ∧ message.direction = .outgoing

/-- A receipt that runs into an id that cannot be read has changed nothing, unless it has named a message sent from
here before. -/
theorem onReceipt_failure {receipt : Option Json} {ids : List Json} {history : History Key} {e : Failure}
    (h : (onReceipt js keys receipt ids history).2 = .error e) :
    Spared history (∃ earlier id later, ids = earlier ++ id :: later ∧ Refused js keys history id ∧
        ∃ named ∈ earlier, Outgoing js keys history named) (onReceipt js keys receipt ids history).1 ∧
      ∃ id ∈ ids, Refused js keys history id := by
  induction ids generalizing history with
  | nil => cases h
  | cons id ids ih =>
    have hread : getMessage js keys (some id) history = (history, (getMessage js keys (some id) history).2) :=
      Prod.ext (getMessage_keeps _) rfl
    unfold onReceipt at h ⊢
    cases hfound : (getMessage js keys (some id) history).2 with
    | error e' =>
      rw [hfound] at hread
      rw [bind_error _ hread]
      exact ⟨Spared.refl _ _, id, List.mem_cons_self, e', hfound⟩
    | ok found =>
      rw [hfound] at hread
      rw [bind_ok _ hread] at h ⊢
      -- the rest of the ids is gone through with nothing changed so far
      have skipped (hrest : (onReceipt js keys receipt ids history).2 = .error e) :
          Spared history (∃ earlier id' later, id :: ids = earlier ++ id' :: later ∧ Refused js keys history id' ∧
              ∃ named ∈ earlier, Outgoing js keys history named) (onReceipt js keys receipt ids history).1 ∧
            ∃ id' ∈ id :: ids, Refused js keys history id' := by
        obtain ⟨⟨hconversations, hmessages⟩, id', hmem, hrefused⟩ := ih hrest
        refine ⟨⟨hconversations, hmessages.imp_right ?_⟩, id', List.mem_cons_of_mem _ hmem, hrefused⟩
        rintro ⟨earlier, id', later, hids, hrefused, named, hnamed, houtgoing⟩
        exact ⟨id :: earlier, id', later, by rw [hids]; rfl, hrefused, named, List.mem_cons_of_mem _ hnamed, houtgoing⟩
      cases found with
      | none => exact skipped h
      | some message =>
        simp only at h ⊢
        by_cases hdirection : message.direction = .outgoing
        · rw [if_pos hdirection] at h ⊢
          obtain ⟨after, hput, hconversations, hsame⟩ := putMessage_of_read hfound { message with status := receipt }
          rw [bind_ok _ hput, emit, modify_bind] at h ⊢
          obtain ⟨hspared, id', hmem, e', hrefused⟩ := ih h
          have hfirst : Refused js keys history id' := by
            refine ⟨e', getMessage_error_of_same ?_ hrefused⟩
            exact hsame
          refine ⟨⟨hspared.1.trans hconversations, Or.inr ?_⟩, id', List.mem_cons_of_mem _ hmem, hfirst⟩
          obtain ⟨earlier, later, hids⟩ := List.append_of_mem hmem
          exact ⟨id :: earlier, id', later, by rw [hids]; rfl, hfirst, id, List.mem_cons_self, message, hfound, hdirection⟩
        · rw [if_neg hdirection] at h ⊢
          exact skipped h

/-- A text that fails has changed nothing, unless its body is what cannot be cut. -/
theorem onText_failure {now : Int} {peerAddress : String} {payload : Json} {e : Failure}
    (h : (onText js keys now peerAddress payload history).2 = .error e) :
    Spared history (∃ e, slice 120 (payload.field "body") = .error e)
      (onText js keys now peerAddress payload history).1 := by
  unfold onText at h ⊢
  cases hexpiry : expiry js now (payload.field "expiresInSeconds") with
  | error e' =>
    rw [lift_error_bind]
    exact Spared.refl _ _
  | ok expiresAt =>
    rw [hexpiry, lift_ok_bind] at h
    rw [lift_ok_bind]
    unfold putMessage at h ⊢
    cases hid : recordId js (payload.field "messageId") with
    | error e' =>
      simp only [bind_assoc, lift_error_bind]
      exact Spared.refl _ _
    | ok text =>
      simp only [hid, bind_assoc, lift_ok_bind] at h ⊢
      cases hkey : keys.key (payload.field "messageId") with
      | error e' =>
        rw [lift_error_bind]
        exact Spared.refl _ _
      | ok key =>
        simp only [hkey, lift_ok_bind, modify_bind] at h ⊢
        unfold touchConversation at h ⊢
        simp only [bind_assoc, get_bind] at h ⊢
        cases hslice : slice 120 (payload.field "body") with
        | error e' =>
          rw [lift_error_bind]
          exact ⟨rfl, Or.inr ⟨e', rfl⟩⟩
        | ok preview =>
          rw [hslice] at h
          cases h

/-- The payload of which a part is stored before it fails: a text whose body cannot be cut, or a receipt that names a
message sent from here before an id that cannot be read. -/
def StoresFirst (js : NumberText) (keys : RowKeys Key) (history : History Key) (payload : Json) : Prop :=
  (payload.field "kind" = some (.str "text") ∧ ∃ e, slice 120 (payload.field "body") = .error e) ∨
    (payload.field "kind" = some (.str "receipt") ∧ ∃ earlier id later,
      iterated (payload.field "messageIds") = .ok (earlier ++ id :: later) ∧ Refused js keys history id ∧
        ∃ named ∈ earlier, Outgoing js keys history named)

end

section

variable {K Key : Type} {phone : Phone K Key} {failure : Failure}

theorem onDevice_cause {α : Type} {operation : Messenger.Operation K α} {cause : Cause}
    (h : (onDevice operation phone).2 = .error cause) : ∃ failure, cause = .elsewhere failure := by
  have hmapped : (operation phone.device).2.mapError Cause.elsewhere = .error cause := h
  cases hrun : (operation phone.device).2 with
  | error e =>
    rw [hrun] at hmapped
    exact ⟨e, (Except.error.inj hmapped).symm⟩
  | ok a => rw [hrun] at hmapped; cases hmapped

theorem onHistory_failure {α : Type} {reading : Reading Key α} (h : (onHistory reading phone).2 = .error (.payload failure)) :
    (reading phone.history).2 = .error failure := by
  have hmapped : (reading phone.history).2.mapError Cause.payload = .error (.payload failure) := h
  cases hrun : (reading phone.history).2 with
  | error e =>
    rw [hrun] at hmapped
    rw [Cause.payload.inj (Except.error.inj hmapped)]
  | ok a => rw [hrun] at hmapped; cases hmapped

variable [DecidableEq Key] {crypto : Cryptography K} {around : Surroundings K} {js : NumberText} {json : PayloadText}
  {keys : RowKeys Key}

theorem onPayload_text {peerAddress : String} {payload : Json} (hkind : payload.field "kind" = some (.str "text"))
    (h : (onPayload crypto around js json keys peerAddress payload phone).2 = .error (.payload failure)) :
    Spared phone.history (∃ e, slice 120 (payload.field "body") = .error e)
      (onPayload crypto around js json keys peerAddress payload phone).1.history := by
  simp only [onPayload, hkind] at h ⊢
  cases hrun : onHistory (onText js keys around.now peerAddress payload) phone with
  | mk after result =>
    cases result with
    | error cause =>
      rw [bind_error _ hrun] at h ⊢
      obtain rfl := Except.error.inj h
      have hfailure : (onText js keys around.now peerAddress payload phone.history).2 = .error failure :=
        onHistory_failure (congrArg Prod.snd hrun)
      obtain rfl : _ = after := congrArg Prod.fst hrun
      exact onText_failure hfailure
    | ok messageId =>
      rw [bind_ok _ hrun] at h
      obtain ⟨failure', hcause⟩ := onDevice_cause h
      cases hcause

theorem onPayload_receipt {peerAddress : String} {payload : Json} (hkind : payload.field "kind" = some (.str "receipt"))
    (h : (onPayload crypto around js json keys peerAddress payload phone).2 = .error (.payload failure)) :
    Spared phone.history (∃ earlier id later, iterated (payload.field "messageIds") = .ok (earlier ++ id :: later) ∧
        Refused js keys phone.history id ∧ ∃ named ∈ earlier, Outgoing js keys phone.history named)
      (onPayload crypto around js json keys peerAddress payload phone).1.history := by
  simp only [onPayload, hkind] at h ⊢
  have hfailure := onHistory_failure h
  show Spared phone.history _ ((lift (iterated (payload.field "messageIds")) >>= fun ids =>
    onReceipt js keys (payload.field "receipt") ids) phone.history).1
  cases hids : iterated (payload.field "messageIds") with
  | error e =>
    rw [lift_error_bind]
    exact Spared.refl _ _
  | ok ids =>
    rw [hids, lift_ok_bind] at hfailure
    rw [lift_ok_bind]
    obtain ⟨⟨hconversations, hmessages⟩, _⟩ := onReceipt_failure hfailure
    refine ⟨hconversations, hmessages.imp_right ?_⟩
    rintro ⟨earlier, id, later, rfl, hnamed⟩
    exact ⟨earlier, id, later, rfl, hnamed⟩

/-- The other kinds are only passed on. -/
theorem onPayload_other {peerAddress : String} {payload : Json} (htext : payload.field "kind" ≠ some (.str "text"))
    (hreceipt : payload.field "kind" ≠ some (.str "receipt")) :
    (∃ event, onPayload crypto around js json keys peerAddress payload = onHistory (emit event)) ∨
      onPayload crypto around js json keys peerAddress payload = pure () := by
  unfold onPayload
  split
  next hkind => exact absurd hkind htext
  next hkind => exact absurd hkind hreceipt
  all_goals first
    | exact Or.inl ⟨_, rfl⟩
    | exact Or.inr rfl

theorem onPayload_failure {peerAddress : String} {payload : Json}
    (h : (onPayload crypto around js json keys peerAddress payload phone).2 = .error (.payload failure)) :
    Spared phone.history (StoresFirst js keys phone.history payload)
      (onPayload crypto around js json keys peerAddress payload phone).1.history := by
  by_cases htext : payload.field "kind" = some (.str "text")
  · obtain ⟨hconversations, hmessages⟩ := onPayload_text htext h
    exact ⟨hconversations, hmessages.imp_right (fun hslice => Or.inl ⟨htext, hslice⟩)⟩
  · by_cases hreceipt : payload.field "kind" = some (.str "receipt")
    · obtain ⟨hconversations, hmessages⟩ := onPayload_receipt hreceipt h
      exact ⟨hconversations, hmessages.imp_right (fun hnamed => Or.inr ⟨hreceipt, hnamed⟩)⟩
    · have hother : (∃ event, onPayload crypto around js json keys peerAddress payload = onHistory (emit event)) ∨
          onPayload crypto around js json keys peerAddress payload = pure () := onPayload_other htext hreceipt
      obtain ⟨event, hpassed⟩ | hignored := hother
      · rw [hpassed] at h
        cases h
      · rw [hignored] at h
        cases h

theorem openDelivered_read {delivered : DeliveredMessage} {envelope : SealedEnvelope}
    (h : decodeEnvelope delivered.envelope = .ok envelope) (m : Messenger K) :
    openDelivered crypto around delivered m = openInbound crypto around envelope m := by
  unfold openDelivered
  rw [h, lift_ok_bind]

/-- An opened delivery fails as its payload does. -/
theorem receive_of_failure {delivered : DeliveredMessage} {device device' : Messenger K} {history : History Key}
    {peerAddress : String} {plaintext : Bytes} {payload : Json} {cause : Cause}
    (opened : openDelivered crypto around delivered device = (device', .ok (some (peerAddress, plaintext))))
    (decoded : decodePayload js json plaintext = .ok payload)
    (failed : (onPayload crypto around js json keys peerAddress payload ⟨device', history⟩).2 = .error cause) :
    receive crypto around js json keys delivered ⟨device, history⟩ =
      ((onPayload crypto around js json keys peerAddress payload ⟨device', history⟩).1, .error cause) := by
  have hopened : onDevice (openDelivered crypto around delivered) ⟨device, history⟩ =
      ((⟨device', history⟩ : Phone K Key), .ok (some (peerAddress, plaintext))) := by
    rw [onDevice, opened]
    rfl
  have hread : onHistory (lift (decodePayload js json plaintext)) ⟨device', history⟩ =
      ((⟨device', history⟩ : Phone K Key), .ok payload) := by
    rw [decoded]
    rfl
  have hhandled : onPayload crypto around js json keys peerAddress payload ⟨device', history⟩ =
      ((onPayload crypto around js json keys peerAddress payload ⟨device', history⟩).1, .error cause) :=
    Prod.ext rfl failed
  unfold receive
  rw [bind_ok _ hopened]
  exact (bind_ok _ hread).trans (bind_error _ hhandled)

/-- A delivery fails on its payload only once the sender has been let in. -/
theorem receive_failure {delivered : DeliveredMessage}
    (h : (receive crypto around js json keys delivered phone).2 = .error (.payload failure)) :
    ∃ peerAddress plaintext, (openDelivered crypto around delivered phone.device).2 = .ok (some (peerAddress, plaintext)) ∧
      Spared phone.history
        (∃ payload, decodePayload js json plaintext = .ok payload ∧ StoresFirst js keys phone.history payload)
        (receive crypto around js json keys delivered phone).1.history := by
  unfold receive at h ⊢
  cases hopen : openDelivered crypto around delivered phone.device with
  | mk device result =>
    cases result with
    | error e =>
      have hrun : onDevice (openDelivered crypto around delivered) phone =
          ({ phone with device }, .error (.elsewhere e)) := by
        rw [onDevice, hopen]
        rfl
      rw [bind_error _ hrun] at h
      cases h
    | ok opened =>
      have hrun : onDevice (openDelivered crypto around delivered) phone = ({ phone with device }, .ok opened) := by
        rw [onDevice, hopen]
        rfl
      rw [bind_ok _ hrun] at h ⊢
      cases opened with
      | none => cases h
      | some sender =>
        obtain ⟨peerAddress, plaintext⟩ := sender
        refine ⟨peerAddress, plaintext, rfl, ?_⟩
        simp only at h ⊢
        cases hdecoded : decodePayload js json plaintext with
        | error e => exact Spared.refl _ _
        | ok payload =>
          have hread : onHistory (lift (decodePayload js json plaintext)) { phone with device } =
              (({ phone with device } : Phone K Key), .ok payload) := by
            rw [hdecoded]
            rfl
          rw [hdecoded] at hread
          rw [hdecoded, bind_ok _ hread] at h
          rw [bind_ok _ hread]
          cases hhandled : onPayload crypto around js json keys peerAddress payload { phone with device } with
          | mk after result =>
            cases result with
            | ok _ => rw [bind_ok _ hhandled] at h; cases h
            | error cause =>
              rw [bind_error _ hhandled] at h ⊢
              obtain rfl := Except.error.inj h
              have hfailed := onPayload_failure (congrArg Prod.snd hhandled)
              rw [hhandled] at hfailed
              exact ⟨hfailed.1, hfailed.2.imp_right (fun hfirst => ⟨payload, rfl, hfirst⟩)⟩

/-- A failure is reported and counted, and the history is left as the failure has left it. -/
theorem handleDelivered_of_error {delivered : DeliveredMessage} {cause : Cause}
    (h : (receive crypto around js json keys delivered phone).2 = .error cause) :
    (handleDelivered crypto around js json keys delivered phone).2 = .ok (delivered.id, false) ∧
      (handleDelivered crypto around js json keys delivered phone).1.history =
        (receive crypto around js json keys delivered phone).1.history := by
  have hrun : receive crypto around js json keys delivered phone =
      ((receive crypto around js json keys delivered phone).1, .error cause) := Prod.ext rfl h
  unfold handleDelivered rescue
  rw [hrun]
  cases hcause : cause.failure with
  | identityChanged => simp only [hcause, Messenger.reportFailure]; exact ⟨rfl, rfl⟩
  | malformedInput | authentication | untrustedBundle | sessionState | replay | vaultLocked | relay | error =>
    simp only [hcause, Messenger.reportFailure]; exact ⟨rfl, rfl⟩

end

/-- Bytes are a payload if their text is an object of one of the seven kinds. A delivery that fails on its payload
changes no conversation, and no message either unless it is of the two sorts that store a part first. -/
theorem payloads_checked_by_kind {K Key : Type} [DecidableEq Key] (crypto : Cryptography K) (around : Surroundings K)
    (js : NumberText) (json : PayloadText) (keys : RowKeys Key) :
    (∀ bytes payload, decodePayload js json bytes = .ok payload ↔
      json.parse bytes = .ok payload ∧ ∃ kind ∈ known, payload.field "kind" = some (.str kind)) ∧
    ∀ (delivered : DeliveredMessage) (phone : Phone K Key) (failure : Failure),
      (receive crypto around js json keys delivered phone).2 = .error (.payload failure) →
        (handleDelivered crypto around js json keys delivered phone).2 = .ok (delivered.id, false) ∧
        ∃ peerAddress plaintext,
          (openDelivered crypto around delivered phone.device).2 = .ok (some (peerAddress, plaintext)) ∧
          Spared phone.history
            (∃ payload, decodePayload js json plaintext = .ok payload ∧ StoresFirst js keys phone.history payload)
            (handleDelivered crypto around js json keys delivered phone).1.history := by
  refine ⟨fun bytes payload => decodePayload_ok_iff, fun delivered phone failure h => ?_⟩
  obtain ⟨hreported, hhistory⟩ := handleDelivered_of_error h
  obtain ⟨peerAddress, plaintext, hopened, hspared⟩ := receive_failure h
  rw [hhistory]
  exact ⟨hreported, peerAddress, plaintext, hopened, hspared⟩

def bobDevice : Messenger Bytes := { identity := bob, address := bobAddress, preKeys := bobStore, paired := false }

def noNumbers : NumberText := ⟨fun _ => "", fun _ => .nan⟩

def quiet : Surroundings Bytes where
  fetchBundle _ := .error (.relay "no such account" 404)
  postMessage _ := .ok ()
  now := 1000
  messageId := "m9"
  ephemeral := spelledPair 32 33
  kemCoins := [8]
  sending := spelledPair 32 34
  envelopeEphemeral := spelledPair 32 35
  replyPair := spelledPair 32 31

/-- A text without a body. -/
def bodiless : Json := .obj [("kind", .str "text"), ("messageId", .str "m1")]

def bodilessText : String := "\x7b\"kind\":\"text\",\"messageId\":\"m1\"\x7d"

/-- A receipt for a message and for what is no id. -/
def halfRead : Json :=
  .obj [("kind", .str "receipt"), ("messageIds", .arr [.str "m1", .obj []]), ("receipt", .str "read")]

def halfReadText : String := "\x7b\"kind\":\"receipt\",\"messageIds\":[\"m1\",\x7b\x7d],\"receipt\":\"read\"\x7d"

/-- The texts of the two payloads, and no other, are payloads. -/
def twoTexts : PayloadText where
  parse bytes :=
    if bytes = utf8 bodilessText then .ok bodiless
    else if bytes = utf8 halfReadText then .ok halfRead
    else .error (.error "Unexpected token")
  stringify _ := []

theorem twoTexts_bodiless : decodePayload noNumbers twoTexts (utf8 bodilessText) = .ok bodiless :=
  decodePayload_ok_iff.mpr ⟨if_pos rfl, "text", by decide, rfl⟩

theorem twoTexts_halfRead : decodePayload noNumbers twoTexts (utf8 halfReadText) = .ok halfRead := by
  have hother : utf8 halfReadText ≠ utf8 bodilessText := by decide +kernel
  exact decodePayload_ok_iff.mpr ⟨(if_neg hother).trans (if_pos rfl), "receipt", by decide, rfl⟩

def sent (text : String) : SealedEnvelope := (Device.aliceStarts.sendTo bobAddress (utf8 text) 23).2

def hello (text : String) : DeliveredMessage := ⟨"d1", encodeEnvelope (sent text)⟩

theorem sent_inbound : ∀ text ∈ [bodilessText, halfReadText],
    (openInbound spelled quiet (sent text) bobDevice).2 = .ok (some (aliceAddress, utf8 text)) := by
  decide +kernel

theorem hello_opened {text : String} (h : text ∈ [bodilessText, halfReadText]) :
    ∃ device, openDelivered spelled quiet (hello text) bobDevice = (device, .ok (some (aliceAddress, utf8 text))) := by
  have hread : decodeEnvelope (hello text).envelope = .ok (sent text) := Protocol.decodeEnvelope_encodeEnvelope (sent text)
  exact ⟨_, (openDelivered_read hread bobDevice).trans (Prod.ext rfl (sent_inbound text h))⟩

/-- A database that takes texts. -/
def textKeys : RowKeys String where
  key
    | some (.str text) => .ok text
    | _ => .error (.error "cannot bind the id")

def sentMessage : Message where
  id := some (.str "m1")
  conversationAddress := aliceAddress
  direction := .outgoing
  body := some (.str "hi")
  timestamp := 900
  status := some (.str "sent")

def bobHistory : History String := { messages := OrderedMap.empty.set "m1" ("messages/m1", sentMessage) }

theorem bodiless_failure (device : Messenger Bytes) :
    (onPayload spelled quiet noNumbers twoTexts textKeys aliceAddress bodiless ⟨device, {}⟩).2 =
        .error (.payload (.error "preview.slice is not a function")) ∧
      ((onPayload spelled quiet noNumbers twoTexts textKeys aliceAddress bodiless
        ⟨device, {}⟩).1.history.messages.get? "m1").isSome = true := ⟨rfl, rfl⟩

theorem halfRead_failure (device : Messenger Bytes) :
    (onPayload spelled quiet noNumbers twoTexts textKeys aliceAddress halfRead ⟨device, bobHistory⟩).2 =
        .error (.payload (.error "cannot bind the id")) ∧
      ((onPayload spelled quiet noNumbers twoTexts textKeys aliceAddress halfRead
        ⟨device, bobHistory⟩).1.history.messages.get? "m1").map (fun row => row.2.status) = some (some (.str "read")) :=
  ⟨rfl, rfl⟩

/-- A text without a body that Bob is sent. -/
theorem payloads_checked_by_kind_bodiless :
    (handleDelivered spelled quiet noNumbers twoTexts textKeys (hello bodilessText) ⟨bobDevice, {}⟩).2 = .ok ("d1", false) ∧
      (handleDelivered spelled quiet noNumbers twoTexts textKeys (hello bodilessText)
        ⟨bobDevice, {}⟩).1.history.conversations = OrderedMap.empty := by
  obtain ⟨device, hopened⟩ := hello_opened (List.mem_cons_self (a := bodilessText) (l := [halfReadText]))
  have hreceived := receive_of_failure hopened twoTexts_bodiless (bodiless_failure device).1
  obtain ⟨hreported, _, _, _, hconversations, _⟩ :=
    (payloads_checked_by_kind spelled quiet noNumbers twoTexts textKeys).2 (hello bodilessText) _ _
      (congrArg Prod.snd hreceived)
  exact ⟨hreported, hconversations⟩

/-- A text without a body is a payload, and is stored before its handling fails; so is the first half of a receipt. -/
theorem payload_stored_then_refused :
    (decodePayload noNumbers twoTexts (utf8 bodilessText) = .ok bodiless ∧ inhabits bodiless = false) ∧
      ∀ text ∈ [bodilessText, halfReadText], ∃ (phone : Phone Bytes String) (failure : Failure),
        (receive spelled quiet noNumbers twoTexts textKeys (hello text) phone).2 = .error (.payload failure) ∧
        (handleDelivered spelled quiet noNumbers twoTexts textKeys (hello text) phone).2 = .ok ("d1", false) ∧
        (handleDelivered spelled quiet noNumbers twoTexts textKeys (hello text) phone).1.history.messages ≠
          phone.history.messages := by
  refine ⟨⟨twoTexts_bodiless, rfl⟩, ?_⟩
  intro text hmem
  obtain ⟨device, hopened⟩ := hello_opened hmem
  obtain rfl | rfl : text = bodilessText ∨ text = halfReadText := by simpa using hmem
  · obtain ⟨hfailed, hstored⟩ := bodiless_failure device
    have hreceived := receive_of_failure hopened twoTexts_bodiless hfailed
    obtain ⟨hreported, hkept⟩ := handleDelivered_of_error (congrArg Prod.snd hreceived)
    refine ⟨⟨bobDevice, {}⟩, _, congrArg Prod.snd hreceived, hreported, fun hsame => ?_⟩
    rw [hkept, hreceived] at hsame
    rw [hsame] at hstored
    cases hstored
  · obtain ⟨hfailed, hstored⟩ := halfRead_failure device
    have hreceived := receive_of_failure hopened twoTexts_halfRead hfailed
    obtain ⟨hreported, hkept⟩ := handleDelivered_of_error (congrArg Prod.snd hreceived)
    refine ⟨⟨bobDevice, bobHistory⟩, _, congrArg Prod.snd hreceived, hreported, fun hsame => ?_⟩
    rw [hkept, hreceived] at hsame
    rw [hsame] at hstored
    have hstatus : "sent" = "read" := Json.str.inj (Option.some.inj (Option.some.inj hstored))
    exact absurd hstatus (by decide)

end Parsed

end Veil
