import Veil.Session

namespace Veil

/-- What the app calls the session layer for, with what the generators draw in each call. -/
inductive SessionCall (K : Type)
  | receive (fresh : KeyPair K) (envelope : SealedEnvelope) (pins : String → Option Bytes)
  | send (address : String) (plaintext : Bytes) (ephemeral : KeyPair K)
  | start (address : String) (bundle : PreKeyBundle) (expected : Option Bytes) (ephemeral : KeyPair K) (coins : Bytes)
      (sending : KeyPair K)
  | forget (address : String)
  | destroy (address : String)
  | rotate (signed kem : KeyPair K)
  | replenish (pairs kemPairs : List (KeyPair K))
  | issue

inductive SessionAnswer
  | received (result : Except Failure (PublicIdentity × Bytes × Bool))
  | sent (result : Option (Except Failure SealedEnvelope))
  | started (result : Except Failure Unit)
  | rotated (result : Except Failure Unit)
  | issued (bundle : PreKeyBundle)
  | done

/-- The session layer of one process: its identity, its prekeys and the sessions it has in memory. -/
structure Endpoint (K : Type) where
  self : PrivateIdentity K
  preKeys : InMemoryPreKeyStore K
  sessions : OrderedMap String (Session K) := OrderedMap.empty

section

variable {K α : Type} (crypto : Cryptography K)

/-- All that a session knows, written over. -/
def destroyRatchet (state : RatchetState K) : RatchetState K :=
  { state with
    rootKey := crypto.wiped state.rootKey
    sending := { state.sending with secretKey := crypto.wiped state.sending.secretKey }
    sendingChainKey := state.sendingChainKey.map crypto.wiped
    receivingChainKey := state.receivingChainKey.map crypto.wiped
    skipped := OrderedMap.empty }

/-- The looked-up session has been mutated, the returned one is stored under its sender. -/
def keepSessions (decryption : Decryption α) (sessions : OrderedMap String (Session α)) :
    OrderedMap String (Session α) :=
  let sessions := match decryption.touched with
    | none => sessions
    | some (address, session) => sessions.set address session
  match decryption.result with
  | .error _ => sessions
  | .ok decrypted =>
    match addressOf crypto decrypted.senderIdentity.signingPublicKey with
    | .error _ => sessions
    | .ok address => sessions.set address decrypted.session

def DecryptedMessage.shown (decrypted : DecryptedMessage α) : PublicIdentity × Bytes × Bool :=
  (decrypted.senderIdentity, decrypted.plaintext, decrypted.isNewSession)

end

namespace Endpoint

variable {K : Type} (crypto : Cryptography K)

def perform (endpoint : Endpoint K) : SessionCall K → Endpoint K × SessionAnswer
  | .receive fresh envelope pins =>
    let decryption := decryptEnvelope crypto fresh endpoint.self envelope endpoint.sessions.get? endpoint.preKeys pins
    ({ endpoint with preKeys := decryption.preKeys, sessions := keepSessions crypto decryption endpoint.sessions },
      .received (decryption.result.map DecryptedMessage.shown))
  | .send address plaintext ephemeral =>
    match endpoint.sessions.get? address with
    | none => (endpoint, .sent none)
    | some session =>
      let (session, result) := encryptMessage crypto endpoint.self session plaintext ephemeral
      ({ endpoint with sessions := endpoint.sessions.set address session }, .sent (some result))
  | .start address bundle expected ephemeral coins sending =>
    match startSession crypto endpoint.self bundle expected ephemeral coins sending with
    | .error e => (endpoint, .started (.error e))
    | .ok session => ({ endpoint with sessions := endpoint.sessions.set address session }, .started (.ok ()))
  | .forget address => ({ endpoint with sessions := endpoint.sessions.delete address }, .done)
  | .destroy address =>
    match endpoint.sessions.get? address with
    | none => (endpoint, .done)
    | some session =>
      let session := { session with ratchet := destroyRatchet crypto session.ratchet }
      ({ endpoint with sessions := endpoint.sessions.set address session }, .done)
  | .rotate signed kem =>
    match endpoint.preKeys.rotateSignedPreKeys crypto endpoint.self signed kem with
    | .error e => (endpoint, .rotated (.error e))
    | .ok preKeys => ({ endpoint with preKeys }, .rotated (.ok ()))
  | .replenish pairs kemPairs =>
    ({ endpoint with preKeys := endpoint.preKeys.replenishOneTimePreKeys pairs kemPairs }, .done)
  | .issue =>
    let (bundle, preKeys) := endpoint.preKeys.issueBundle (publicIdentityOf endpoint.self)
    ({ endpoint with preKeys }, .issued bundle)

/-- The calls one after the other, with what each has returned. -/
def run (endpoint : Endpoint K) : List (SessionCall K) → Endpoint K × List SessionAnswer
  | [] => (endpoint, [])
  | call :: calls =>
    let (next, answer) := endpoint.perform crypto call
    let (last, answers) := next.run calls
    (last, answer :: answers)

end Endpoint

end Veil
