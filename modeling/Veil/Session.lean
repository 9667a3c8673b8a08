import Veil.Envelope
import Veil.Padding
import Veil.Pqxdh
import Veil.PreKeyStore
import Veil.Synchrony

namespace Veil

structure PreKeyPreamble where
  ephemeralPublicKey : Bytes
  kemCiphertext : Bytes
  keyIds : HandshakeKeyIds
  deriving DecidableEq

structure Session (K : Type) where
  peerIdentity : PublicIdentity
  ratchet : RatchetState K
  pendingPreKey : Option PreKeyPreamble := none
  establishedBy : Option Bytes := none

def encodePreamble (preamble : PreKeyPreamble) : Except Failure Bytes := do
  let w ← ({} : Writer).bytes preamble.ephemeralPublicKey
  let w ← w.bytes preamble.kemCiphertext
  let w ← w.keyIds preamble.keyIds
  return w.finish

def decodeOptionalId : Decode (Option Int) := do
  let has ← Reader.u8
  let id ← Reader.u32
  return if has = 1 then some (id : Int) else none

def decodePreamble : Decode PreKeyPreamble := do
  let ephemeralPublicKey ← Reader.bytes
  let kemCiphertext ← Reader.bytes
  let signedPreKeyId ← Reader.u32
  let signedKemPreKeyId ← Reader.u32
  let oneTimePreKeyId ← decodeOptionalId
  let oneTimeKemPreKeyId ← decodeOptionalId
  return { ephemeralPublicKey, kemCiphertext,
           keyIds := { signedPreKeyId, signedKemPreKeyId, oneTimePreKeyId, oneTimeKemPreKeyId } }

def encodeRatchetMessage (message : RatchetMessage) : Except Failure Bytes := do
  let w ← ({} : Writer).bytes message.header.ratchetPublicKey
  let w ← w.u32 message.header.previousChainLength
  let w ← w.u32 message.header.messageNumber
  let w ← w.bytes message.ciphertext
  return w.finish

def decodeRatchetMessage : Decode RatchetMessage := do
  let ratchetPublicKey ← Reader.bytes
  let previousChainLength ← Reader.u32
  let messageNumber ← Reader.u32
  let ciphertext ← Reader.bytes
  return { header := { ratchetPublicKey, previousChainLength, messageNumber }, ciphertext }

/-- `decodeRatchetMessage(new Reader(body))`: what follows the message is not looked at. -/
def decodeBody (body : Bytes) : Except Failure RatchetMessage := do
  let (message, _) ← decodeRatchetMessage ⟨body, 0⟩
  return message

/-- The payload of a prekey envelope: the preamble, then the message. -/
def decodePreKeyPayload : Decode (PreKeyPreamble × Bytes) := do
  let preamble ← decodePreamble
  let body ← Reader.bytes
  return (preamble, body)

section

variable {K : Type} (crypto : Cryptography K)

/-- The pinned-key check of `startSession`. -/
def checkFingerprint (expectedFingerprint : Option Bytes) (signingPublicKey : Bytes) : Except Failure Unit :=
  match expectedFingerprint with
  | none => .ok ()
  | some expected =>
    if constantTimeEqual expected signingPublicKey then .ok ()
    else do
      let known ← addressOf crypto expected
      let presented ← addressOf crypto signingPublicKey
      .error (.identityChanged
        "peer identity key does not match the verified fingerprint; refusing to start a session" known presented)

/-- `ephemeral`, `coins` and `sending` are what the generators draw in this call. -/
def startSession (self : PrivateIdentity K) (bundle : PreKeyBundle) (expectedFingerprint : Option Bytes)
    (ephemeral : KeyPair K) (coins : Bytes) (sending : KeyPair K) : Except Failure (Session K) := do
  checkFingerprint crypto expectedFingerprint bundle.identity.signingPublicKey
  let handshake ← initiateHandshake crypto self bundle ephemeral coins
  let ratchet ← initialiseInitiator crypto.toRatchetPrimitives sending handshake.rootSecret
    bundle.signedPreKey.publicKey handshake.associatedData
  return { peerIdentity := bundle.identity, ratchet,
           pendingPreKey := some ⟨handshake.ephemeralPublicKey, handshake.kemCiphertext, handshake.keyIds⟩ }

def encodePayload (session : Session K) (message : RatchetMessage) : Except Failure Bytes := do
  let body ← encodeRatchetMessage message
  match session.pendingPreKey with
  | none => return body
  | some preamble =>
    let encoded ← encodePreamble preamble
    let w ← (({} : Writer).fixed encoded).bytes body
    return w.finish

/-- The session's ratchet has advanced even where sealing throws afterwards. -/
def encryptMessage (self : PrivateIdentity K) (session : Session K) (plaintext : Bytes) (ephemeral : KeyPair K) :
    Session K × Except Failure SealedEnvelope :=
  let (ratchet, result) := ratchetEncrypt crypto.toRatchetPrimitives session.ratchet (pad plaintext)
  ({ session with ratchet }, do
    let message ← result
    let payload ← encodePayload session message
    sealEnvelope crypto (publicIdentityOf self) (crypto.sign self.signing.secretKey) session.peerIdentity
      (if session.pendingPreKey.isSome then payloadPreKey else payloadRatchet) payload ephemeral)

structure DecryptedMessage (K : Type) where
  senderIdentity : PublicIdentity
  plaintext : Bytes
  session : Session K
  isNewSession : Bool

/-- What one call of `decryptEnvelope` does: the looked-up session it has mutated, if any, with the address it
was looked up under, the prekey store afterwards, and what it returns or throws. -/
structure Decryption (K : Type) where
  touched : Option (String × Session K) := none
  preKeys : InMemoryPreKeyStore K
  result : Except Failure (DecryptedMessage K)

/-- Opening the envelope and the pin check, before any ratchet work. -/
def openInbound (self : PrivateIdentity K) (envelope : SealedEnvelope) (pinnedIdentityKey : String → Option Bytes) :
    Except Failure (OpenedEnvelope × String) := do
  let selfAddress ← addressOf crypto (publicIdentityOf self).signingPublicKey
  let opened ← openEnvelope crypto self.exchange.secretKey self.exchange.publicKey selfAddress envelope
  let senderAddress ← addressOf crypto opened.senderIdentity.signingPublicKey
  if let some pinned := pinnedIdentityKey senderAddress then
    if !constantTimeEqual pinned opened.senderIdentity.signingPublicKey then
      let known ← addressOf crypto pinned
      throw (.identityChanged "sender identity key does not match the pinned fingerprint" known senderAddress)
  return (opened, senderAddress)

/-- Decrypt with a session that exists; `settled` is the session's record after a successful decryption. -/
def decryptWith (fresh : KeyPair K) (sender : PublicIdentity) (senderAddress : String) (session : Session K)
    (settled : Session K → Session K) (message : RatchetMessage) (preKeys : InMemoryPreKeyStore K) : Decryption K :=
  let (ratchet, result) := ratchetDecrypt crypto.toRatchetPrimitives fresh session.ratchet message
  match result with
  | .error e => { touched := some (senderAddress, { session with ratchet }), preKeys, result := .error e }
  | .ok padded =>
    let session := settled { session with ratchet }
    { touched := some (senderAddress, session), preKeys,
      result := do
        let plaintext ← unpad padded
        return { senderIdentity := sender, plaintext, session, isNewSession := false } }

/-- The pair under a one-time id a preamble may name; an id that is gone was used before. -/
def unusedOneTime (kind : String) (get : Int → Option (KeyPair K)) : Option Int → Except Failure (Option (KeyPair K))
  | none => .ok none
  | some id =>
    match get id with
    | some pair => .ok (some pair)
    | none => .error (.sessionState s!"{kind} {id} is already used; refusing to reuse it")

/-- The responder session a preamble calls for, with its first message. The ratchet's sending pair is the
store's own signed prekey pair. -/
def respondWith (self : PrivateIdentity K) (sender : PublicIdentity) (preamble : PreKeyPreamble) (body : Bytes)
    (preKeys : InMemoryPreKeyStore K) : Except Failure (Session K × RatchetMessage) := do
  let keyIds := preamble.keyIds
  let some signedPreKey := preKeys.signedPreKey keyIds.signedPreKeyId
    | throw (.sessionState s!"unknown signed prekey {keyIds.signedPreKeyId}; it may have been rotated out")
  let some signedKemPreKey := preKeys.signedKemPreKey keyIds.signedKemPreKeyId
    | throw (.sessionState s!"unknown signed ML-KEM prekey {keyIds.signedKemPreKeyId}")
  let oneTime ← unusedOneTime "one-time prekey" preKeys.oneTimePreKey keyIds.oneTimePreKeyId
  let kemOneTime ← unusedOneTime "one-time ML-KEM prekey" preKeys.oneTimeKemPreKey keyIds.oneTimeKemPreKeyId
  let (rootSecret, associatedData) ← respondToHandshake crypto self
    { initiatorIdentity := sender, ephemeralPublicKey := preamble.ephemeralPublicKey,
      kemCiphertext := preamble.kemCiphertext, keyIds, signedPreKeySecret := signedPreKey.secretKey,
      signedKemPreKeySecret := signedKemPreKey.secretKey,
      oneTimePreKeySecret := oneTime.map (fun pair => pair.secretKey),
      oneTimeKemPreKeySecret := kemOneTime.map (fun pair => pair.secretKey) }
  let message ← decodeBody body
  return ({ peerIdentity := sender, ratchet := initialiseResponder rootSecret signedPreKey associatedData,
            establishedBy := some preamble.ephemeralPublicKey }, message)

def consumeOneTime (keyIds : HandshakeKeyIds) (preKeys : InMemoryPreKeyStore K) : InMemoryPreKeyStore K :=
  let preKeys := keyIds.oneTimePreKeyId.elim preKeys preKeys.consumeOneTimePreKey
  keyIds.oneTimeKemPreKeyId.elim preKeys preKeys.consumeOneTimeKemPreKey

/-- The handshake from scratch. A DH ratchet step of the new session wipes the store's signed prekey, since
the session was handed the pair itself. -/
def decryptFirst (fresh : KeyPair K) (self : PrivateIdentity K) (sender : PublicIdentity) (preamble : PreKeyPreamble)
    (body : Bytes) (preKeys : InMemoryPreKeyStore K) : Decryption K :=
  match respondWith crypto self sender preamble body preKeys with
  | .error e => { preKeys, result := .error e }
  | .ok (session, message) =>
    let (ratchet, result) := ratchetDecrypt crypto.toRatchetPrimitives fresh session.ratchet message
    let preKeys :=
      if StartsTurn crypto.toRatchetPrimitives session.ratchet message.header then
        preKeys.wipeSignedPreKey crypto preamble.keyIds.signedPreKeyId
      else preKeys
    match result with
    | .error e => { preKeys, result := .error e }
    | .ok padded =>
      { preKeys := consumeOneTime preamble.keyIds preKeys,
        result := do
          let plaintext ← unpad padded
          return { senderIdentity := sender, plaintext, session := { session with ratchet }, isNewSession := true } }

/-- The preamble repeats the handshake that made this session. -/
def repeatsHandshake (session : Option (Session K)) (preamble : PreKeyPreamble) : Option (Session K) :=
  session.filter (fun session =>
    session.establishedBy.any (fun ephemeral => constantTimeEqual ephemeral preamble.ephemeralPublicKey))

/-- `fresh` is the ratchet pair `generateDhKeyPair` returns if this call draws one. -/
def decryptEnvelope (fresh : KeyPair K) (self : PrivateIdentity K) (envelope : SealedEnvelope)
    (lookupSession : String → Option (Session K)) (preKeys : InMemoryPreKeyStore K)
    (pinnedIdentityKey : String → Option Bytes) : Decryption K :=
  match openInbound crypto self envelope pinnedIdentityKey with
  | .error e => { preKeys, result := .error e }
  | .ok (opened, senderAddress) =>
    if opened.payloadKind = payloadPreKey then
      match decodePreKeyPayload.all opened.payload with
      | .error e => { preKeys, result := .error e }
      | .ok (preamble, body) =>
        match repeatsHandshake (lookupSession senderAddress) preamble with
        | some existing =>
          match decodeBody body with
          | .error e => { preKeys, result := .error e }
          | .ok message =>
            decryptWith crypto fresh opened.senderIdentity senderAddress existing id message preKeys
        | none => decryptFirst crypto fresh self opened.senderIdentity preamble body preKeys
    else if opened.payloadKind ≠ payloadRatchet then
      { preKeys, result := .error (.malformedInput s!"unknown payload kind {opened.payloadKind}") }
    else
      match lookupSession senderAddress with
      | none => { preKeys, result := .error (.sessionState
          "no session for this sender; a prekey message is required to establish one") }
      | some session =>
        match decodeRatchetMessage.all opened.payload with
        | .error e => { preKeys, result := .error e }
        | .ok message =>
          decryptWith crypto fresh opened.senderIdentity senderAddress session
            (fun session => { session with pendingPreKey := none }) message preKeys

end

end Veil
