import Mathlib
import Veil.Wire
import Veil.Library.OrderedMap

namespace Veil

structure RootStep (K : Type) where
  rootKey : K
  chainKey : K

structure ChainStep (K : Type) where
  messageKey : K
  nextChainKey : K

structure AeadKeys (K : Type) where
  key : K
  nonce : K

/-- What the ratchet uses of the key schedule and the primitives, over any type `K` of secrets. -/
structure RatchetPrimitives (K : Type) where
  publicKeyOf : K → Bytes
  dh : K → Bytes → Except Failure K
  advanceRootChain : K → K → RootStep K
  advanceChain : K → ChainStep K
  deriveMessageKeys : K → AeadKeys K
  aeadEncrypt : K → K → Bytes → Bytes → Except Failure Bytes
  aeadDecrypt : K → K → Bytes → Bytes → Except Failure Bytes

structure KeyPair (K : Type) where
  publicKey : Bytes
  secretKey : K
  deriving DecidableEq

def maxSkipPerChain : Nat := 1000

def maxSkippedKeys : Nat := 2000

structure RatchetHeader where
  ratchetPublicKey : Bytes
  previousChainLength : Nat
  messageNumber : Nat
  deriving DecidableEq

structure SkippedKey (K : Type) where
  sequence : Nat
  messageKey : K
  deriving DecidableEq

structure RatchetState (K : Type) where
  rootKey : K
  sending : KeyPair K
  receiving : Option Bytes := none
  sendingChainKey : Option K := none
  receivingChainKey : Option K := none
  sentCount : Nat := 0
  receivedCount : Nat := 0
  previousSentCount : Nat := 0
  skipped : OrderedMap String (SkippedKey K) := OrderedMap.empty
  skippedSequence : Nat := 0
  associatedData : Bytes

structure RatchetMessage where
  header : RatchetHeader
  ciphertext : Bytes
  deriving DecidableEq

def encodeHeader (header : RatchetHeader) : Except Failure Bytes := do
  let w ← (({} : Writer).fixed header.ratchetPublicKey).u32 header.previousChainLength
  let w ← w.u32 header.messageNumber
  return w.finish

def aeadAssociatedData (associatedData : Bytes) (header : RatchetHeader) : Except Failure Bytes := do
  let encoded ← encodeHeader header
  return concat [associatedData, encoded]

def skippedKeyId (ratchetPublicKey : Bytes) (messageNumber : Nat) : String :=
  toHex ratchetPublicKey ++ ":" ++ Nat.repr messageNumber

section

variable {K : Type} (prim : RatchetPrimitives K)

/-- `sending` is the pair that `generateDhKeyPair` returns in this call. -/
def initialiseInitiator (sending : KeyPair K) (rootSecret : K) (peerRatchetPublicKey : Bytes)
    (associatedData : Bytes) : Except Failure (RatchetState K) := do
  let dhOutput ← prim.dh sending.secretKey peerRatchetPublicKey
  let step := prim.advanceRootChain rootSecret dhOutput
  return { rootKey := step.rootKey, sending, receiving := some peerRatchetPublicKey,
           sendingChainKey := some step.chainKey, associatedData }

def initialiseResponder (rootSecret : K) (signedPreKeyPair : KeyPair K) (associatedData : Bytes) :
    RatchetState K :=
  { rootKey := rootSecret, sending := signedPreKeyPair, associatedData }

/-- A throw after the chain has advanced leaves it advanced, so the state is returned either way. -/
def ratchetEncrypt (state : RatchetState K) (plaintext : Bytes) :
    RatchetState K × Except Failure RatchetMessage :=
  match state.sendingChainKey with
  | none => (state, .error (.sessionState
      "no sending chain: the responder must receive one message before sending"))
  | some sendingChainKey =>
    let step := prim.advanceChain sendingChainKey
    let header : RatchetHeader :=
      { ratchetPublicKey := state.sending.publicKey, previousChainLength := state.previousSentCount,
        messageNumber := state.sentCount }
    let keys := prim.deriveMessageKeys step.messageKey
    ({ state with sendingChainKey := some step.nextChainKey, sentCount := state.sentCount + 1 }, do
      let ad ← aeadAssociatedData state.associatedData header
      let ciphertext ← prim.aeadEncrypt keys.key keys.nonce plaintext ad
      return { header, ciphertext })

/-- The eviction scan over the cache in insertion order. -/
def oldestSkipped (skipped : OrderedMap String (SkippedKey K)) : Option (String × Nat) :=
  skipped.entries.foldl (fun oldest entry =>
    match oldest with
    | none => some (entry.1, entry.2.sequence)
    | some (id, sequence) =>
      if entry.2.sequence < sequence then some (entry.1, entry.2.sequence) else some (id, sequence)) none

def evictOldest (skipped : OrderedMap String (SkippedKey K)) : OrderedMap String (SkippedKey K) :=
  if skipped.size ≥ maxSkippedKeys then
    match oldestSkipped skipped with
    | some (oldestId, _) => skipped.delete oldestId
    | none => skipped
  else skipped

def rememberSkipped (state : RatchetState K) (ratchetPublicKey : Bytes) (messageNumber : Nat)
    (messageKey : K) : RatchetState K :=
  { state with
    skipped := (evictOldest state.skipped).set (skippedKeyId ratchetPublicKey messageNumber)
      ⟨state.skippedSequence, messageKey⟩
    skippedSequence := state.skippedSequence + 1 }

/-- One round of the catch-up loop. -/
def skipOne (receiving : Bytes) (state : RatchetState K) : RatchetState K :=
  match state.receivingChainKey with
  | none => state
  | some receivingChainKey =>
    let step := prim.advanceChain receivingChainKey
    let remembered := rememberSkipped { state with receivingChainKey := some step.nextChainKey }
      receiving state.receivedCount step.messageKey
    { remembered with receivedCount := state.receivedCount + 1 }

def skipReceivingKeys (state : RatchetState K) (target : Nat) : Except Failure (RatchetState K) :=
  match state.receivingChainKey, state.receiving with
  | some _, some receiving =>
    if target < state.receivedCount then .ok state
    else if target - state.receivedCount > maxSkipPerChain then
      .error (.sessionState
        s!"message number {target} skips more than {maxSkipPerChain} keys; refusing")
    else .ok ((skipOne prim receiving)^[target - state.receivedCount] state)
  | _, _ => .ok state

/-- The state once the peer's new key is in place and before our own reply key is mixed in. -/
def turnReceiving (fresh : KeyPair K) (state : RatchetState K) (header : RatchetHeader)
    (receivingDh : K) : RatchetState K :=
  let step := prim.advanceRootChain state.rootKey receivingDh
  { state with
    previousSentCount := state.sentCount, sentCount := 0, receivedCount := 0
    receiving := some header.ratchetPublicKey, rootKey := step.rootKey
    receivingChainKey := some step.chainKey, sending := fresh }

/-- `fresh` is the pair that `generateDhKeyPair` returns in this call. -/
def performDhRatchet (fresh : KeyPair K) (state : RatchetState K) (header : RatchetHeader) :
    RatchetState K × Except Failure Unit :=
  match prim.dh state.sending.secretKey header.ratchetPublicKey with
  | .error e => (state, .error e)
  | .ok receivingDh =>
    match skipReceivingKeys prim state header.previousChainLength with
    | .error e => (state, .error e)
    | .ok caughtUp =>
      let turned := turnReceiving prim fresh caughtUp header receivingDh
      match prim.dh fresh.secretKey header.ratchetPublicKey with
      | .error e => (turned, .error e)
      | .ok sendingDh =>
        let step := prim.advanceRootChain turned.rootKey sendingDh
        ({ turned with rootKey := step.rootKey, sendingChainKey := some step.chainKey }, .ok ())

/-- Both receiving paths end here: derive the AEAD pair and authenticate header and body. -/
def openWith (messageKey : K) (associatedData : Bytes) (message : RatchetMessage) :
    Except Failure Bytes := do
  let keys := prim.deriveMessageKeys messageKey
  let ad ← aeadAssociatedData associatedData message.header
  prim.aeadDecrypt keys.key keys.nonce message.ciphertext ad

def tryDecryptWithSkipped (state : RatchetState K) (message : RatchetMessage) :
    RatchetState K × Except Failure (Option Bytes) :=
  let id := skippedKeyId message.header.ratchetPublicKey message.header.messageNumber
  match state.skipped.get? id with
  | none => (state, .ok none)
  | some entry =>
    match openWith prim entry.messageKey state.associatedData message with
    | .error e => (state, .error e)
    | .ok plaintext => ({ state with skipped := state.skipped.delete id }, .ok (some plaintext))

def isNewRatchetKey (state : RatchetState K) (header : RatchetHeader) : Bool :=
  match state.receiving with
  | none => true
  | some receiving => toHex receiving ≠ toHex header.ratchetPublicKey

/-- Step 3 of `ratchetDecrypt`: catch up within the current chain, then use this message's key. -/
def receiveInChain (state : RatchetState K) (message : RatchetMessage) :
    RatchetState K × Except Failure Bytes :=
  match skipReceivingKeys prim state message.header.messageNumber with
  | .error e => (state, .error e)
  | .ok state =>
    match state.receivingChainKey with
    | none => (state, .error (.sessionState "no receiving chain key after ratchet step"))
    | some receivingChainKey =>
      if message.header.messageNumber ≠ state.receivedCount then
        (state, .error (.sessionState
          s!"message {message.header.messageNumber} was already consumed (replay?)"))
      else
        let step := prim.advanceChain receivingChainKey
        match openWith prim step.messageKey state.associatedData message with
        | .error e => (state, .error e)
        | .ok plaintext =>
          ({ state with receivingChainKey := some step.nextChainKey
                        receivedCount := state.receivedCount + 1 }, .ok plaintext)

def ratchetDecrypt (fresh : KeyPair K) (state : RatchetState K) (message : RatchetMessage) :
    RatchetState K × Except Failure Bytes :=
  if message.header.ratchetPublicKey.length ≠ 32 then
    (state, .error (.malformedInput "ratchet header public key has wrong length"))
  else
    match tryDecryptWithSkipped prim state message with
    | (state, .error e) => (state, .error e)
    | (state, .ok (some fromSkipped)) => (state, .ok fromSkipped)
    | (state, .ok none) =>
      if isNewRatchetKey state message.header then
        match performDhRatchet prim fresh state message.header with
        | (state, .error e) => (state, .error e)
        | (state, .ok ()) => receiveInChain prim state message
      else receiveInChain prim state message

end

end Veil
