import Veil.Library.Command
import Veil.Limits
import Veil.Pairing
import Veil.SafetyNumber
import Veil.Session

namespace Veil

inductive VerificationState
  | unverified
  | verified
  | changed
  deriving DecidableEq

structure Contact where
  address : String
  displayName : String
  identityKey : String
  verification : VerificationState
  identityChangedAt : Option Int := none
  deriving DecidableEq

inductive MessageDirection
  | outgoing
  | incoming
  deriving DecidableEq

inductive MessageStatus
  | pending
  | sent
  | delivered
  | read
  | failed
  deriving DecidableEq

structure Message where
  id : String
  conversationAddress : String
  direction : MessageDirection
  body : String
  timestamp : Int
  status : MessageStatus
  expiresAt : Option Int := none
  deriving DecidableEq

structure Messenger.Conversation where
  address : String
  lastMessageAt : Int := 0
  lastMessagePreview : String := ""
  unreadCount : Int := 0
  disappearAfterSeconds : Int := 0
  deriving DecidableEq

inductive ReceiptKind
  | delivered
  | read
  deriving DecidableEq

inductive Payload
  | text (messageId body : String) (expiresInSeconds : Option Int)
  | receipt (messageIds : List String) (receipt : ReceiptKind)
  | typing (typing : Bool)
  | callOffer (callId mediaSecret sdp dtlsFingerprint : String)
  | callAnswer (callId sdp dtlsFingerprint : String)
  | callIce (callId candidate : String)
  | callHangup (callId reason : String)
  deriving DecidableEq

/-- The JSON text of a payload. -/
structure PayloadCodec where
  encode : Payload → Bytes
  decode : Bytes → Except Failure Payload

inductive MessengerEvent
  | message (message : Message)
  | conversationChanged (conversation : Messenger.Conversation)
  | contactChanged (contact : Contact)
  | identityChanged (address : String)
  | blocked (reason : RefusalReason) (detail : String)
  | callPayload (peerAddress : String) (payload : Payload)
  | typing (peerAddress : String) (typing : Bool)

/-- A public identity as it is stored and as it crosses the wire. -/
structure WirePublicIdentity where
  signingPublicKey : String
  exchangePublicKey : String
  exchangeKeySignature : String
  deriving DecidableEq

structure WireEnvelope where
  recipient : String
  ephemeralPublicKey : String
  ciphertext : String
  deriving DecidableEq

structure DeliveredMessage where
  id : String
  envelope : WireEnvelope
  deriving DecidableEq

def encodeIdentity (identity : PublicIdentity) : WirePublicIdentity where
  signingPublicKey := toBase64Url identity.signingPublicKey
  exchangePublicKey := toBase64Url identity.exchangePublicKey
  exchangeKeySignature := toBase64Url identity.exchangeKeySignature

def decodeIdentity (wire : WirePublicIdentity) : Except Failure PublicIdentity := do
  let signingPublicKey ← fromBase64Url wire.signingPublicKey
  let exchangePublicKey ← fromBase64Url wire.exchangePublicKey
  let exchangeKeySignature ← fromBase64Url wire.exchangeKeySignature
  return { signingPublicKey, exchangePublicKey, exchangeKeySignature }

def encodeEnvelope (envelope : SealedEnvelope) : WireEnvelope where
  recipient := envelope.recipientAddress
  ephemeralPublicKey := toBase64Url envelope.ephemeralPublicKey
  ciphertext := toBase64Url envelope.ciphertext

def decodeEnvelope (wire : WireEnvelope) : Except Failure SealedEnvelope := do
  let ephemeralPublicKey ← fromBase64Url wire.ephemeralPublicKey
  let ciphertext ← fromBase64Url wire.ciphertext
  return { recipientAddress := wire.recipient, ephemeralPublicKey, ciphertext }

/-- The three identity entries of the keystore. -/
structure StoredSecrets (K : Type) where
  signing : Option K := none
  exchange : Option K := none
  binding : Option Bytes := none

/-- An envelope as it was sealed: under which session, and under which pairing. -/
structure Dispatch (K : Type) where
  envelope : SealedEnvelope
  session : Session K
  pairing : Option PairingState

/-- Everything that holds or names a key. -/
structure KeyRing (K : Type) where
  identity : PrivateIdentity K
  address : String
  preKeys : InMemoryPreKeyStore K
  sessions : OrderedMap String (Session K) := OrderedMap.empty
  contacts : OrderedMap String Contact := OrderedMap.empty
  sessionMeta : OrderedMap String WirePublicIdentity := OrderedMap.empty
  pairing : Option PairingState := none
  pairingStore : Option PairingState := none
  pinnedKeyCache : OrderedMap String Bytes := OrderedMap.empty
  secrets : StoredSecrets K := {}
  paired : Bool := true
  sendReceipts : Bool := false
  sendTypingIndicators : Bool := false

/-- History, and a record of the events raised and the envelopes sealed. -/
structure Journal (K : Type) where
  conversations : OrderedMap String Messenger.Conversation := OrderedMap.empty
  messages : OrderedMap String Message := OrderedMap.empty
  events : List MessengerEvent := []
  dispatched : List (Dispatch K) := []

structure Messenger (K : Type) extends KeyRing K, Journal K

/-- What one operation meets: the relay's answers, the clock, and what the generators draw. -/
structure Surroundings (K : Type) where
  fetchBundle : String → Except Failure PreKeyBundle
  postMessage : WireEnvelope → Except Failure Unit
  now : Int
  messageId : String
  ephemeral : KeyPair K
  kemCoins : Bytes
  sending : KeyPair K
  envelopeEphemeral : KeyPair K
  replyPair : KeyPair K

/-- What a start of the app meets: what the generators draw and the relay's answers. -/
structure Startup (K : Type) where
  signing : KeyPair K
  exchange : KeyPair K
  signedPreKey : KeyPair K
  signedKemPreKey : KeyPair K
  oneTimePreKeys : List (KeyPair K)
  oneTimeKemPreKeys : List (KeyPair K)
  register : PublicIdentity → PublishedPreKeys → Except Failure Unit
  authenticate : String → Except Failure Unit

/-- What a top-up of the one-time prekeys meets. -/
structure TopUp (K : Type) where
  preKeyCount : Except Failure (Nat × Nat)
  uploadPreKeys : List OneTimePreKey → List OneTimePreKey → Except Failure Unit
  oneTimePreKeys : List (KeyPair K)
  oneTimeKemPreKeys : List (KeyPair K)

def preKeyLowWater : Nat := 20

/-- `RelayClient.send`. -/
def Surroundings.send {K : Type} (around : Surroundings K) (envelope : SealedEnvelope) : Except Failure Unit :=
  let wire := encodeEnvelope envelope
  if wire.ciphertext.length > maxEnvelopeBytes then .error (.relay "message too large to send" 413)
  else around.postMessage wire

namespace Messenger

abbrev Operation (K α : Type) : Type := Command (Messenger K) Failure α

open Command

section

variable {K : Type} (crypto : Cryptography K) (codec : PayloadCodec) (around : Surroundings K)

/-- A new `Messenger` over the stores of the old one. -/
def reopened (m : Messenger K) : Messenger K :=
  { m with sessions := OrderedMap.empty, pairing := none, pinnedKeyCache := OrderedMap.empty }

/-- The first half of `initialise`; true when the identity was created. -/
def loadIdentity (startup : Startup K) : Operation K Bool := do
  let m ← get
  match m.secrets.signing, m.secrets.exchange, m.secrets.binding with
  | some signing, some exchange, some binding =>
    let identity ← lift (restoreIdentity crypto signing exchange binding)
    modify fun m => { m with identity }
    return false
  | _, _, _ =>
    let identity ← lift (createIdentity crypto startup.signing startup.exchange)
    modify fun m => { m with
      identity
      secrets := ⟨some identity.signing.secretKey, some identity.exchange.secretKey,
        some identity.exchangeKeySignature⟩ }
    return true

def initialise (startup : Startup K) : Operation K (String × Bool) := do
  let created ← loadIdentity crypto startup
  let m ← get
  let preKeys ← lift (InMemoryPreKeyStore.create crypto m.identity startup.signedPreKey startup.signedKemPreKey
    startup.oneTimePreKeys startup.oneTimeKemPreKeys)
  modify fun m => { m with preKeys }
  let address ← lift (addressOf crypto (publicIdentityOf m.identity).signingPublicKey)
  modify fun m => { m with address, pairing := m.pairingStore }
  lift (startup.register (publicIdentityOf m.identity) preKeys.published)
  lift (startup.authenticate address)
  return (address, created)

def emit (event : MessengerEvent) : Operation K Unit := modify fun m => { m with events := m.events ++ [event] }

def putContact (address : String) (contact : Contact) : Operation K Unit :=
  modify fun m => { m with contacts := m.contacts.set address contact }

def putMeta (address : String) (identity : PublicIdentity) : Operation K Unit :=
  modify fun m => { m with sessionMeta := m.sessionMeta.set address (encodeIdentity identity) }

def putSession (address : String) (session : Session K) : Operation K Unit :=
  modify fun m => { m with sessions := m.sessions.set address session }

def putMessage (id : String) (message : Message) : Operation K Unit :=
  modify fun m => { m with messages := m.messages.set id message }

def touchConversation (address preview : String) (unreadDelta : Int) : Operation K Unit := do
  let m ← get
  let existing := (m.conversations.get? address).getD { address }
  let conversation := { existing with
    lastMessageAt := around.now, lastMessagePreview := sliceUnits preview 120
    unreadCount := max 0 (existing.unreadCount + unreadDelta) }
  modify fun m => { m with conversations := m.conversations.set address conversation }
  emit (.conversationChanged conversation)

/-- A contact whose key is not the one presented is marked and the user is warned. -/
def flagChanged (address : String) (contact : Contact) : Operation K Unit := do
  let contact := { contact with verification := .changed, identityChangedAt := some around.now }
  putContact address contact
  emit (.contactChanged contact)
  emit (.identityChanged address)

def createContact (address presented : String) : Operation K Unit := do
  let created : Contact :=
    { address, displayName := sliceUnits address 8, identityKey := presented, verification := .unverified }
  putContact address created
  emit (.contactChanged created)

/-- The second half of `ensureSession`: no session is live yet. -/
def openSession (peerAddress : String) : Operation K (Session K) := do
  let bundle ← lift (around.fetchBundle peerAddress)
  let m ← get
  let presented := toBase64Url bundle.identity.signingPublicKey
  match m.contacts.get? peerAddress with
  | some contact =>
    if contact.identityKey ≠ presented then
      flagChanged around peerAddress contact
      fail (.identityChanged "the safety number for this contact has changed; verify before sending"
        contact.identityKey presented)
    else
      let session ← lift
        (startSession crypto m.identity bundle none around.ephemeral around.kemCoins around.sending)
      putSession peerAddress session
      putMeta peerAddress bundle.identity
      return session
  | none =>
    let session ← lift
      (startSession crypto m.identity bundle none around.ephemeral around.kemCoins around.sending)
    putSession peerAddress session
    createContact peerAddress presented
    putMeta peerAddress bundle.identity
    return session

def ensureSession (peerAddress : String) : Operation K (Session K) := do
  let m ← get
  match if m.paired then decideOutbound m.pairing peerAddress else .allow with
  | .refuse reason => fail (.error (explainRefusal reason))
  | .allow =>
    match m.sessions.get? peerAddress with
    | some existing => return existing
    | none => openSession crypto around peerAddress

/-- The ratchet of the stored session has advanced by the time anything can throw. -/
def sendPayload (peerAddress : String) (payload : Payload) : Operation K Unit := do
  let session ← ensureSession crypto around peerAddress
  let m ← get
  let (next, sealed) := encryptMessage crypto m.identity session (codec.encode payload) around.envelopeEphemeral
  putSession peerAddress next
  let envelope ← lift sealed
  modify fun m => { m with dispatched := m.dispatched ++ [⟨envelope, session, m.pairing⟩] }
  lift (around.send envelope)

def startConversation (peerAddress : String) : Operation K Unit := do
  let _ ← ensureSession crypto around peerAddress
  touchConversation around peerAddress "" 0

/-- An expiry of 0 counts as none. -/
def expiry (expiresInSeconds : Option Int) : Option Int :=
  (expiresInSeconds.filter (fun seconds => seconds ≠ 0)).map (fun seconds => around.now + seconds * 1000)

def sendText (peerAddress body : String) (expiresInSeconds : Option Int) : Operation K Message := do
  let message : Message :=
    { id := around.messageId, conversationAddress := peerAddress, direction := .outgoing, body
      timestamp := around.now, status := .pending, expiresAt := expiry around expiresInSeconds }
  putMessage message.id message
  emit (.message message)
  rescue
    (sendPayload crypto codec around peerAddress
      (.text message.id body (expiresInSeconds.filter (fun seconds => seconds ≠ 0))))
    (fun e => do
      putMessage message.id { message with status := .failed }
      emit (.message { message with status := .failed })
      fail e)
  let message := { message with status := .sent }
  putMessage message.id message
  touchConversation around peerAddress body 0
  emit (.message message)
  return message

def sendCallPayload (peerAddress : String) (payload : Payload) : Operation K Unit :=
  sendPayload crypto codec around peerAddress payload

def sendTyping (peerAddress : String) (typing : Bool) : Operation K Unit := do
  let m ← get
  if m.sendTypingIndicators then sendPayload crypto codec around peerAddress (.typing typing)
  else return ()

def sendReceipt (peerAddress : String) (messageIds : List String) (receipt : ReceiptKind) : Operation K Unit := do
  let m ← get
  if m.sendReceipts ∧ messageIds ≠ [] then sendPayload crypto codec around peerAddress (.receipt messageIds receipt)
  else return ()

def ReceiptKind.status : ReceiptKind → MessageStatus
  | .delivered => .delivered
  | .read => .read

def onReceipt (receipt : ReceiptKind) : List String → Operation K Unit
  | [] => return ()
  | id :: ids => do
    let m ← get
    match m.messages.get? id with
    | some message =>
      if message.direction = .outgoing then
        putMessage id { message with status := ReceiptKind.status receipt }
        emit (.message { message with status := ReceiptKind.status receipt })
        onReceipt receipt ids
      else onReceipt receipt ids
    | none => onReceipt receipt ids

def onPayload (peerAddress : String) (payload : Payload) : Operation K Unit :=
  match payload with
  | .text messageId body expiresInSeconds => do
    let message : Message :=
      { id := messageId, conversationAddress := peerAddress, direction := .incoming, body
        timestamp := around.now, status := .delivered, expiresAt := expiry around expiresInSeconds }
    putMessage message.id message
    touchConversation around peerAddress body 1
    emit (.message message)
    sendReceipt crypto codec around peerAddress [message.id] .delivered
  | .receipt messageIds receipt => onReceipt receipt messageIds
  | .typing typing => emit (.typing peerAddress typing)
  | payload => emit (.callPayload peerAddress payload)

def rememberPeer (peerAddress : String) (identity : PublicIdentity) : Operation K Unit := do
  let presented := toBase64Url identity.signingPublicKey
  let m ← get
  if m.sessionMeta.get? peerAddress = none then putMeta peerAddress identity
  else pure ()
  match m.contacts.get? peerAddress with
  | none => createContact peerAddress presented
  | some contact =>
    if contact.identityKey ≠ presented ∧ contact.verification ≠ .changed then flagChanged around peerAddress contact
    else return ()

/-- What `decryptEnvelope` does to the messenger's own maps, before its result is looked at. -/
def decryptInbound (envelope : SealedEnvelope) : Operation K (DecryptedMessage K) := do
  let m ← get
  let d := decryptEnvelope crypto around.replyPair m.identity envelope m.sessions.get? m.preKeys m.pinnedKeyCache.get?
  modify fun m => { m with
    preKeys := d.preKeys
    sessions := match d.touched with
      | none => m.sessions
      | some (address, session) => m.sessions.set address session }
  lift d.result

/-- The part of `handleDelivered` after the pairing lock has let the sender in. -/
def acceptInbound (peerAddress : String) (result : DecryptedMessage K) : Operation K Unit := do
  putSession peerAddress result.session
  rememberPeer around peerAddress result.senderIdentity
  let payload ← lift (codec.decode result.plaintext)
  onPayload crypto codec around peerAddress payload

/-- A substituted identity is reported; any other failure is only counted. -/
def reportFailure (e : Failure) : Operation K Unit :=
  match e with
  | .identityChanged _ _ presented => emit (.identityChanged presented)
  | _ => return ()

def handleDelivered (delivered : DeliveredMessage) : Operation K (String × Bool) :=
  rescue (do
    let envelope ← lift (decodeEnvelope delivered.envelope)
    let result ← decryptInbound crypto around envelope
    let peerAddress ← lift (addressOf crypto result.senderIdentity.signingPublicKey)
    let m ← get
    match if m.paired then
        decideInbound m.pairing peerAddress (toBase64Url result.senderIdentity.signingPublicKey)
      else .allow with
    | .refuse reason =>
      emit (.blocked reason (explainRefusal reason))
      return (delivered.id, false)
    | .allow =>
      acceptInbound crypto codec around peerAddress result
      return (delivered.id, true))
    (fun e => do
      reportFailure e
      return (delivered.id, false))

/-- The relay is asked how much is left; a relay that does not answer is not topped up. -/
def replenishPreKeysIfNeeded (topUp : TopUp K) : Operation K Bool :=
  match topUp.preKeyCount with
  | .error _ => return false
  | .ok (oneTimePreKeys, oneTimeKemPreKeys) =>
    if oneTimePreKeys ≥ preKeyLowWater ∧ oneTimeKemPreKeys ≥ preKeyLowWater then return false
    else do
      let m ← get
      let next := m.preKeys.replenishOneTimePreKeys topUp.oneTimePreKeys topUp.oneTimeKemPreKeys
      modify fun m => { m with preKeys := next }
      lift (topUp.uploadPreKeys (next.publishedOneTime.drop m.preKeys.publishedOneTime.length)
        (next.publishedOneTimeKem.drop m.preKeys.publishedOneTimeKem.length))
      return true

def verificationCode : Operation K String := do
  let m ← get
  let payload ← lift (verificationQrPayload (publicIdentityOf m.identity))
  return toBase64Url payload

def addContactFromCode (code : String) : Operation K String := do
  let bytes ← lift (fromBase64Url code)
  let identity ← lift (parseVerificationQrPayload crypto bytes)
  let peerAddress ← lift (addressOf crypto identity.signingPublicKey)
  let m ← get
  if peerAddress = m.address then fail (.error "that is your own code")
  else
    putMeta peerAddress identity
    let m ← get
    let existing := (m.contacts.get? peerAddress).getD
      { address := peerAddress, displayName := sliceUnits peerAddress 8
        identityKey := toBase64Url identity.signingPublicKey, verification := .verified }
    let contact := { existing with
      identityKey := toBase64Url identity.signingPublicKey, verification := .verified, identityChangedAt := none }
    putContact peerAddress contact
    modify fun m => { m with pinnedKeyCache := m.pinnedKeyCache.set peerAddress identity.signingPublicKey }
    emit (.contactChanged contact)
    touchConversation around peerAddress "" 0
    return peerAddress

def safetyNumberWith (address : String) : Operation K (Option String) := do
  let m ← get
  match m.sessionMeta.get? address with
  | none => return none
  | some stored =>
    let peer ← lift (decodeIdentity stored)
    let number ← lift (safetyNumber crypto (publicIdentityOf m.identity) peer)
    return some number

def markVerified (address : String) : Operation K Unit := do
  let m ← get
  match m.contacts.get? address with
  | none => fail (.error s!"no contact for {address}")
  | some contact =>
    let contact := { contact with verification := .verified, identityChangedAt := none }
    putContact address contact
    let key ← lift (fromBase64Url contact.identityKey)
    modify fun m => { m with pinnedKeyCache := m.pinnedKeyCache.set address key }
    emit (.contactChanged contact)

def acceptIdentityChange (address : String) : Operation K Unit := do
  let m ← get
  match m.contacts.get? address with
  | none => return ()
  | some contact =>
    modify fun m => { m with
      sessions := m.sessions.delete address
      pinnedKeyCache := m.pinnedKeyCache.delete address
      sessionMeta := m.sessionMeta.delete address }
    let bundle ← lift (around.fetchBundle address)
    let contact := { contact with
      identityKey := toBase64Url bundle.identity.signingPublicKey, verification := .unverified }
    putContact address contact
    emit (.contactChanged contact)

def renameContact (address displayName : String) : Operation K Unit := do
  let m ← get
  match m.contacts.get? address with
  | none => return ()
  | some contact =>
    putContact address { contact with displayName }
    emit (.contactChanged { contact with displayName })

/-- The verified contacts, in their stored order. -/
def loadPinsFrom : List (String × Contact) → Operation K Unit
  | [] => return ()
  | (_, contact) :: rest => do
    if contact.verification = .verified then
      let key ← lift (fromBase64Url contact.identityKey)
      modify fun m => { m with pinnedKeyCache := m.pinnedKeyCache.set contact.address key }
    else pure ()
    loadPinsFrom rest

def loadPins : Operation K Unit := do
  let m ← get
  loadPinsFrom m.contacts.entries

def setDisappearTimer (address : String) (seconds : Int) : Operation K Unit := do
  let m ← get
  match m.conversations.get? address with
  | none => return ()
  | some conversation =>
    let conversation := { conversation with disappearAfterSeconds := seconds }
    modify fun m => { m with conversations := m.conversations.set address conversation }
    emit (.conversationChanged conversation)

def markRead (address : String) : Operation K Unit := do
  let m ← get
  match m.conversations.get? address with
  | none => return ()
  | some conversation =>
    let conversation := { conversation with unreadCount := 0 }
    modify fun m => { m with conversations := m.conversations.set address conversation }
    emit (.conversationChanged conversation)

def Expired (now : Int) (message : Message) : Prop := ∃ expiresAt ∈ message.expiresAt, expiresAt ≤ now

instance (now : Int) (message : Message) : Decidable (Expired now message) :=
  inferInstanceAs (Decidable (∃ expiresAt ∈ message.expiresAt, expiresAt ≤ now))

def keepMessages (keep : Message → Bool) : Operation K Unit :=
  modify fun m => { m with messages :=
    ⟨m.messages.entries.filter (fun entry => keep entry.2), m.messages.nodup.sublist (List.filter_sublist.map _)⟩ }

/-- Reading a conversation deletes what has expired in it. -/
def history (address : String) : Operation K (List Message) := do
  keepMessages fun message => message.conversationAddress ≠ address ∨ ¬Expired around.now message
  let m ← get
  let live := (m.messages.entries.map Prod.snd).filter (fun message => message.conversationAddress = address)
  return live.mergeSort (fun a b => a.timestamp ≤ b.timestamp)

def purgeExpired : Operation K Unit := keepMessages fun message => ¬Expired around.now message

def deleteConversation (address : String) : Operation K Unit := do
  keepMessages fun message => message.conversationAddress ≠ address
  modify fun m => { m with
    conversations := m.conversations.delete address
    sessionMeta := m.sessionMeta.delete address
    sessions := m.sessions.delete address }

def pairWithCode (code displayName : String) : Operation K PairingState := do
  let m ← get
  match m.pairing with
  | some _ => fail (.error ("This device is already paired. Unpair first - doing so deletes the " ++
      "conversation history, because a new pairing cannot decrypt it."))
  | none =>
    let peerAddress ← addContactFromCode crypto around code
    let m ← get
    match m.contacts.get? peerAddress with
    | none => fail (.error "pairing failed: contact was not stored")
    | some contact =>
      let pairing ← lift (createPairing peerAddress contact.identityKey displayName around.now)
      modify fun m => { m with pairingStore := some pairing, pairing := some pairing }
      return pairing

def unpair : Operation K Unit := do
  let m ← get
  match m.pairing with
  | none => modify fun m => { m with pairingStore := none, pairing := none }
  | some existing =>
    deleteConversation existing.peerAddress
    modify fun m => { m with
      pinnedKeyCache := m.pinnedKeyCache.delete existing.peerAddress
      contacts := m.contacts.delete existing.peerAddress
      pairingStore := none
      pairing := none }

def renamePairedPeer (displayName : String) : Operation K Unit := do
  let m ← get
  match m.pairing with
  | none => return ()
  | some pairing =>
    let updated := { pairing with displayName }
    modify fun m => { m with pairingStore := some updated, pairing := some updated }
    renameContact updated.peerAddress displayName

end

end Messenger

end Veil
