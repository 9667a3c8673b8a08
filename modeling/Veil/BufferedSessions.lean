import Veil.Endpoint
import Veil.RatchetBuffers

namespace Veil

section

variable {K : Type}

def Session.values (heap : Cells K) (session : Session Nat) : Session K where
  peerIdentity := session.peerIdentity
  ratchet := session.ratchet.values heap
  pendingPreKey := session.pendingPreKey
  establishedBy := session.establishedBy

def PrivateIdentity.values (heap : Cells K) (identity : PrivateIdentity Nat) : PrivateIdentity K where
  signing := identity.signing.values heap
  exchange := identity.exchange.values heap
  exchangeKeySignature := identity.exchangeKeySignature

def PrivateIdentity.buffers (identity : PrivateIdentity Nat) : Multiset Nat :=
  {identity.signing.secretKey} + {identity.exchange.secretKey}

def InMemoryPreKeyStore.values (heap : Cells K) (store : InMemoryPreKeyStore Nat) : InMemoryPreKeyStore K where
  signedPreKeys := store.signedPreKeys.mapValues (KeyPair.values heap)
  signedKemPreKeys := store.signedKemPreKeys.mapValues (KeyPair.values heap)
  oneTimePreKeys := store.oneTimePreKeys.mapValues (KeyPair.values heap)
  oneTimeKemPreKeys := store.oneTimeKemPreKeys.mapValues (KeyPair.values heap)
  signedPreKeyOrder := store.signedPreKeyOrder
  signedKemPreKeyOrder := store.signedKemPreKeyOrder
  currentSignedPreKey := store.currentSignedPreKey
  currentSignedKemPreKey := store.currentSignedKemPreKey
  publishedOneTime := store.publishedOneTime
  publishedOneTimeKem := store.publishedOneTimeKem
  nextId := store.nextId

def pairBuffers (keys : OrderedMap Int (KeyPair Nat)) : List Nat := valueBuffers KeyPair.secretKey keys

def InMemoryPreKeyStore.buffers (store : InMemoryPreKeyStore Nat) : Multiset Nat :=
  ↑(pairBuffers store.signedPreKeys) + (↑(pairBuffers store.signedKemPreKeys) +
    (↑(pairBuffers store.oneTimePreKeys) + ↑(pairBuffers store.oneTimeKemPreKeys)))

def DecryptedMessage.values (heap : Cells K) (message : DecryptedMessage Nat) : DecryptedMessage K where
  senderIdentity := message.senderIdentity
  plaintext := message.plaintext
  session := message.session.values heap
  isNewSession := message.isNewSession

def Decryption.values (heap : Cells K) (decryption : Decryption Nat) : Decryption K where
  touched := decryption.touched.map (fun touched => (touched.1, touched.2.values heap))
  preKeys := decryption.preKeys.values heap
  result := decryption.result.map (DecryptedMessage.values heap)

end

namespace Buffered

variable {K : Type} (crypto : Cryptography K)

/-- Decrypt with a session that exists; `settled` is the session's record after a successful decryption. -/
def decryptWith (fresh : KeyPair K) (heap : Cells K) (sender : PublicIdentity) (senderAddress : String)
    (session : Session Nat) (settled : Session Nat → Session Nat) (message : RatchetMessage)
    (preKeys : InMemoryPreKeyStore Nat) : Cells K × Decryption Nat :=
  let (held, result) := ratchetDecrypt crypto fresh ⟨heap, session.ratchet⟩ message
  match result with
  | .error e =>
    (held.heap, { touched := some (senderAddress, { session with ratchet := held.state }), preKeys, result := .error e })
  | .ok padded =>
    let session := settled { session with ratchet := held.state }
    (held.heap, { touched := some (senderAddress, session), preKeys,
                  result := do
                    let plaintext ← unpad padded
                    return { senderIdentity := sender, plaintext, session, isNewSession := false } })

/-- The root secret gets a buffer of its own; the sending pair is the very pair the store holds. -/
def respondWith (heap : Cells K) (self : PrivateIdentity Nat) (sender : PublicIdentity) (preamble : PreKeyPreamble)
    (body : Bytes) (preKeys : InMemoryPreKeyStore Nat) : Except Failure (Cells K × Session Nat × RatchetMessage) := do
  let keyIds := preamble.keyIds
  let some signedPreKey := preKeys.signedPreKey keyIds.signedPreKeyId
    | throw (.sessionState s!"unknown signed prekey {keyIds.signedPreKeyId}; it may have been rotated out")
  let some signedKemPreKey := preKeys.signedKemPreKey keyIds.signedKemPreKeyId
    | throw (.sessionState s!"unknown signed ML-KEM prekey {keyIds.signedKemPreKeyId}")
  let oneTime ← unusedOneTime "one-time prekey" preKeys.oneTimePreKey keyIds.oneTimePreKeyId
  let kemOneTime ← unusedOneTime "one-time ML-KEM prekey" preKeys.oneTimeKemPreKey keyIds.oneTimeKemPreKeyId
  let (rootSecret, associatedData) ← respondToHandshake crypto (self.values heap)
    { initiatorIdentity := sender, ephemeralPublicKey := preamble.ephemeralPublicKey,
      kemCiphertext := preamble.kemCiphertext, keyIds, signedPreKeySecret := heap.cell signedPreKey.secretKey,
      signedKemPreKeySecret := heap.cell signedKemPreKey.secretKey,
      oneTimePreKeySecret := oneTime.map (fun pair => heap.cell pair.secretKey),
      oneTimeKemPreKeySecret := kemOneTime.map (fun pair => heap.cell pair.secretKey) }
  let message ← decodeBody body
  return (heap.alloc rootSecret,
    { peerIdentity := sender, ratchet := initialiseResponder heap.next signedPreKey associatedData,
      establishedBy := some preamble.ephemeralPublicKey }, message)

def decryptFirst (fresh : KeyPair K) (heap : Cells K) (self : PrivateIdentity Nat) (sender : PublicIdentity)
    (preamble : PreKeyPreamble) (body : Bytes) (preKeys : InMemoryPreKeyStore Nat) : Cells K × Decryption Nat :=
  match respondWith crypto heap self sender preamble body preKeys with
  | .error e => (heap, { preKeys, result := .error e })
  | .ok (heap, session, message) =>
    let (held, result) := ratchetDecrypt crypto fresh ⟨heap, session.ratchet⟩ message
    match result with
    | .error e => (held.heap, { preKeys, result := .error e })
    | .ok padded =>
      (held.heap, { preKeys := consumeOneTime preamble.keyIds preKeys,
                    result := do
                      let plaintext ← unpad padded
                      return { senderIdentity := sender, plaintext, session := { session with ratchet := held.state },
                               isNewSession := true } })

def decryptEnvelope (fresh : KeyPair K) (heap : Cells K) (self : PrivateIdentity Nat) (envelope : SealedEnvelope)
    (lookupSession : String → Option (Session Nat)) (preKeys : InMemoryPreKeyStore Nat)
    (pinnedIdentityKey : String → Option Bytes) : Cells K × Decryption Nat :=
  match openInbound crypto (self.values heap) envelope pinnedIdentityKey with
  | .error e => (heap, { preKeys, result := .error e })
  | .ok (opened, senderAddress) =>
    if opened.payloadKind = payloadPreKey then
      match decodePreKeyPayload.all opened.payload with
      | .error e => (heap, { preKeys, result := .error e })
      | .ok (preamble, body) =>
        match repeatsHandshake (lookupSession senderAddress) preamble with
        | some existing =>
          match decodeBody body with
          | .error e => (heap, { preKeys, result := .error e })
          | .ok message =>
            decryptWith crypto fresh heap opened.senderIdentity senderAddress existing id message preKeys
        | none => decryptFirst crypto fresh heap self opened.senderIdentity preamble body preKeys
    else if opened.payloadKind ≠ payloadRatchet then
      (heap, { preKeys, result := .error (.malformedInput s!"unknown payload kind {opened.payloadKind}") })
    else
      match lookupSession senderAddress with
      | none => (heap, { preKeys, result := .error (.sessionState
          "no session for this sender; a prekey message is required to establish one") })
      | some session =>
        match decodeRatchetMessage.all opened.payload with
        | .error e => (heap, { preKeys, result := .error e })
        | .ok message =>
          decryptWith crypto fresh heap opened.senderIdentity senderAddress session
            (fun session => { session with pendingPreKey := none }) message preKeys

/-- The DH output lives for this call only. -/
def initialiseInitiator (heap : Cells K) (sending : KeyPair K) (rootSecret : Nat) (peerRatchetPublicKey : Bytes)
    (associatedData : Bytes) : Except Failure (Cells K × RatchetState Nat) := do
  let withPair := heap.alloc sending.secretKey
  let dhOutput ← crypto.dh (withPair.cell heap.next) peerRatchetPublicKey
  let (stepped, step) := advanceRootChain crypto (withPair.alloc dhOutput) rootSecret withPair.next
  return (wipe crypto stepped [withPair.next],
    { rootKey := step.rootKey, sending := ⟨sending.publicKey, heap.next⟩, receiving := some peerRatchetPublicKey,
      sendingChainKey := some step.chainKey, associatedData })

def startSession (heap : Cells K) (self : PrivateIdentity Nat) (bundle : PreKeyBundle) (expectedFingerprint : Option Bytes)
    (ephemeral : KeyPair K) (coins : Bytes) (sending : KeyPair K) : Except Failure (Cells K × Session Nat) := do
  checkFingerprint crypto expectedFingerprint bundle.identity.signingPublicKey
  let handshake ← initiateHandshake crypto (self.values heap) bundle ephemeral coins
  let (initialised, ratchet) ← initialiseInitiator crypto (heap.alloc handshake.rootSecret) sending heap.next
    bundle.signedPreKey.publicKey handshake.associatedData
  return (wipe crypto initialised [heap.next],
    { peerIdentity := bundle.identity, ratchet,
      pendingPreKey := some ⟨handshake.ephemeralPublicKey, handshake.kemCiphertext, handshake.keyIds⟩ })

def encryptMessage (heap : Cells K) (self : PrivateIdentity Nat) (session : Session Nat) (plaintext : Bytes)
    (ephemeral : KeyPair K) : (Cells K × Session Nat) × Except Failure SealedEnvelope :=
  let (held, result) := ratchetEncrypt crypto ⟨heap, session.ratchet⟩ (pad plaintext)
  ((held.heap, { session with ratchet := held.state }), do
    let message ← result
    let payload ← encodePayload session message
    sealEnvelope crypto (publicIdentityOf (self.values heap)) (crypto.sign (held.heap.cell self.signing.secretKey))
      session.peerIdentity (if session.pendingPreKey.isSome then payloadPreKey else payloadRatchet) payload ephemeral)

/-- Buffers for generated pairs, from `start` on. -/
def placed (start : Nat) (pairs : List (KeyPair K)) : List (KeyPair Nat) :=
  (pairs.zipIdx start).map (fun entry => ⟨entry.1.publicKey, entry.2⟩)

def rotateSignedPreKeys (heap : Cells K) (self : PrivateIdentity Nat) (signed kem : KeyPair K)
    (store : InMemoryPreKeyStore Nat) : Except Failure (Cells K × InMemoryPreKeyStore Nat) := do
  let (spk, _) ← createSignedPreKey crypto (self.values heap) store.nextId signed
  let (kpk, _) ← createSignedKemPreKey crypto (self.values heap) (store.nextId + 1) kem
  let withSigned := heap.alloc signed.secretKey
  let (signedPreKeys, signedPreKeyOrder) := InMemoryPreKeyStore.pruneGenerations
    (store.signedPreKeys.set spk.id ⟨signed.publicKey, heap.next⟩) (store.signedPreKeyOrder ++ [spk.id])
  let (signedKemPreKeys, signedKemPreKeyOrder) := InMemoryPreKeyStore.pruneGenerations
    (store.signedKemPreKeys.set kpk.id ⟨kem.publicKey, withSigned.next⟩) (store.signedKemPreKeyOrder ++ [kpk.id])
  return (withSigned.alloc kem.secretKey, { store with
    signedPreKeys, signedPreKeyOrder, currentSignedPreKey := spk
    signedKemPreKeys, signedKemPreKeyOrder, currentSignedKemPreKey := kpk
    nextId := store.nextId + 2 })

def replenishOneTimePreKeys (heap : Cells K) (pairs kemPairs : List (KeyPair K)) (store : InMemoryPreKeyStore Nat) :
    Cells K × InMemoryPreKeyStore Nat :=
  let withPairs := heap.allocAll (pairs.map (fun pair => pair.secretKey))
  (withPairs.allocAll (kemPairs.map (fun pair => pair.secretKey)),
    store.replenishOneTimePreKeys (placed heap.next pairs) (placed withPairs.next kemPairs))

/-- An endpoint whose keys are in buffers of one heap. -/
structure Endpoint (K : Type) where
  heap : Cells K
  self : PrivateIdentity Nat
  preKeys : InMemoryPreKeyStore Nat
  sessions : OrderedMap String (Session Nat) := OrderedMap.empty

namespace Endpoint

def perform (endpoint : Endpoint K) : SessionCall K → Endpoint K × SessionAnswer
  | .receive fresh envelope pins =>
    let (heap, decryption) := decryptEnvelope crypto fresh endpoint.heap endpoint.self envelope endpoint.sessions.get?
      endpoint.preKeys pins
    ({ endpoint with heap, preKeys := decryption.preKeys,
                     sessions := keepSessions crypto decryption endpoint.sessions },
      .received (decryption.result.map DecryptedMessage.shown))
  | .send address plaintext ephemeral =>
    match endpoint.sessions.get? address with
    | none => (endpoint, .sent none)
    | some session =>
      let ((heap, session), result) := encryptMessage crypto endpoint.heap endpoint.self session plaintext ephemeral
      ({ endpoint with heap, sessions := endpoint.sessions.set address session }, .sent (some result))
  | .start address bundle expected ephemeral coins sending =>
    match startSession crypto endpoint.heap endpoint.self bundle expected ephemeral coins sending with
    | .error e => (endpoint, .started (.error e))
    | .ok (heap, session) =>
      ({ endpoint with heap, sessions := endpoint.sessions.set address session }, .started (.ok ()))
  | .forget address => ({ endpoint with sessions := endpoint.sessions.delete address }, .done)
  | .destroy address =>
    match endpoint.sessions.get? address with
    | none => (endpoint, .done)
    | some session =>
      let held := destroyRatchet crypto ⟨endpoint.heap, session.ratchet⟩
      let session := { session with ratchet := held.state }
      ({ endpoint with heap := held.heap, sessions := endpoint.sessions.set address session }, .done)
  | .rotate signed kem =>
    match rotateSignedPreKeys crypto endpoint.heap endpoint.self signed kem endpoint.preKeys with
    | .error e => (endpoint, .rotated (.error e))
    | .ok (heap, preKeys) => ({ endpoint with heap, preKeys }, .rotated (.ok ()))
  | .replenish pairs kemPairs =>
    let (heap, preKeys) := replenishOneTimePreKeys endpoint.heap pairs kemPairs endpoint.preKeys
    ({ endpoint with heap, preKeys }, .done)
  | .issue =>
    let (bundle, preKeys) := endpoint.preKeys.issueBundle (publicIdentityOf endpoint.self)
    ({ endpoint with preKeys }, .issued bundle)

def run (endpoint : Endpoint K) : List (SessionCall K) → Endpoint K × List SessionAnswer
  | [] => (endpoint, [])
  | call :: calls =>
    let (next, answer) := endpoint.perform crypto call
    let (last, answers) := next.run calls
    (last, answer :: answers)

/-- What the buffers hold. -/
def values (endpoint : Endpoint K) : Veil.Endpoint K where
  self := endpoint.self.values endpoint.heap
  preKeys := endpoint.preKeys.values endpoint.heap
  sessions := endpoint.sessions.mapValues (Session.values endpoint.heap)

def sessionBuffers (sessions : OrderedMap String (Session Nat)) : Multiset Nat :=
  sessions.total (fun session => session.ratchet.buffers)

def buffers (endpoint : Endpoint K) : Multiset Nat :=
  endpoint.self.buffers + (endpoint.preKeys.buffers + sessionBuffers endpoint.sessions)

/-- No buffer is held twice. -/
def Fits (endpoint : Endpoint K) : Prop := Cells.Fits endpoint.buffers endpoint.heap

end Endpoint

end Buffered

end Veil
