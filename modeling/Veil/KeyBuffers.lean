import Veil.Session
import Veil.SkippedKeys
import Veil.Library.Cells

namespace Veil

section

variable {K : Type}

def KeyPair.values (heap : Cells K) (pair : KeyPair Nat) : KeyPair K := ⟨pair.publicKey, heap.cell pair.secretKey⟩

def SkippedKey.values (heap : Cells K) (entry : SkippedKey Nat) : SkippedKey K :=
  ⟨entry.sequence, heap.cell entry.messageKey⟩

/-- What the key buffers of a ratchet state hold. -/
def RatchetState.values (heap : Cells K) (state : RatchetState Nat) : RatchetState K where
  rootKey := heap.cell state.rootKey
  sending := state.sending.values heap
  receiving := state.receiving
  sendingChainKey := state.sendingChainKey.map heap.cell
  receivingChainKey := state.receivingChainKey.map heap.cell
  sentCount := state.sentCount
  receivedCount := state.receivedCount
  previousSentCount := state.previousSentCount
  skipped := state.skipped.mapValues (SkippedKey.values heap)
  skippedSequence := state.skippedSequence
  associatedData := state.associatedData

/-- The buffers that the values of a map name. -/
def valueBuffers {κ ν : Type} (buffer : ν → Nat) (m : OrderedMap κ ν) : List Nat :=
  m.entries.map (fun entry => buffer entry.2)

def skippedBuffers (skipped : OrderedMap String (SkippedKey Nat)) : List Nat :=
  valueBuffers SkippedKey.messageKey skipped

def RatchetState.buffers (state : RatchetState Nat) : Multiset Nat :=
  {state.rootKey} + ({state.sending.secretKey} +
    (↑state.sendingChainKey.toList + (↑state.receivingChainKey.toList + ↑(skippedBuffers state.skipped))))

end

namespace Buffered

variable {K : Type} (crypto : Cryptography K)

/-- A ratchet state with the heap its buffers are in. -/
structure Held (K : Type) where
  heap : Cells K
  state : RatchetState Nat

def wipe (heap : Cells K) (buffers : List Nat) : Cells K := heap.rewriteAll crypto.wiped buffers

def advanceRootChain (heap : Cells K) (rootKey dhOutput : Nat) : Cells K × RootStep Nat :=
  let step := crypto.advanceRootChain (heap.cell rootKey) (heap.cell dhOutput)
  let withRoot := heap.alloc step.rootKey
  (withRoot.alloc step.chainKey, ⟨heap.next, withRoot.next⟩)

def advanceChain (heap : Cells K) (chainKey : Nat) : Cells K × ChainStep Nat :=
  let step := crypto.advanceChain (heap.cell chainKey)
  let withMessage := heap.alloc step.messageKey
  (withMessage.alloc step.nextChainKey, ⟨heap.next, withMessage.next⟩)

/-- The buffer of the key that is dropped to make room, if one is. -/
def evicted (skipped : OrderedMap String (SkippedKey Nat)) : Option Nat :=
  if skipped.size ≥ maxSkippedKeys then
    (oldestSkipped skipped).bind (fun oldest => (skipped.get? oldest.1).map (fun entry => entry.messageKey))
  else none

def rememberSkipped (held : Held K) (ratchetPublicKey : Bytes) (messageNumber messageKey : Nat) : Held K :=
  ⟨wipe crypto held.heap (evicted held.state.skipped).toList,
    Veil.rememberSkipped held.state ratchetPublicKey messageNumber messageKey⟩

/-- One round of the catch-up loop. -/
def skipOne (receiving : Bytes) (held : Held K) : Held K :=
  match held.state.receivingChainKey with
  | none => held
  | some receivingChainKey =>
    let (heap, step) := advanceChain crypto held.heap receivingChainKey
    let heap := wipe crypto heap [receivingChainKey]
    let remembered := rememberSkipped crypto
      ⟨heap, { held.state with receivingChainKey := some step.nextChainKey }⟩ receiving held.state.receivedCount
      step.messageKey
    ⟨remembered.heap, { remembered.state with receivedCount := held.state.receivedCount + 1 }⟩

def skipReceivingKeys (held : Held K) (target : Nat) : Except Failure (Held K) :=
  match held.state.receivingChainKey, held.state.receiving with
  | some _, some receiving =>
    if target < held.state.receivedCount then .ok held
    else if target - held.state.receivedCount > maxSkipPerChain then
      .error (.sessionState
        s!"message number {target} skips more than {maxSkipPerChain} keys; refusing")
    else .ok ((skipOne crypto receiving)^[target - held.state.receivedCount] held)
  | _, _ => .ok held

/-- The peer's new key taken in, and our own pair replaced by `fresh`. -/
def turnReceiving (fresh : KeyPair K) (held : Held K) (header : RatchetHeader) (receivingDh : Nat) : Held K :=
  let (heap, step) := advanceRootChain crypto held.heap held.state.rootKey receivingDh
  let heap := wipe crypto heap (receivingDh :: held.state.rootKey :: held.state.receivingChainKey.toList)
  let heap := wipe crypto heap [held.state.sending.secretKey]
  ⟨heap.alloc fresh.secretKey, { held.state with
    previousSentCount := held.state.sentCount, sentCount := 0, receivedCount := 0
    receiving := some header.ratchetPublicKey, rootKey := step.rootKey
    receivingChainKey := some step.chainKey, sending := ⟨fresh.publicKey, heap.next⟩ }⟩

/-- The reply chain mixed in. -/
def turnSending (held : Held K) (sendingDh : Nat) : Held K :=
  let (heap, step) := advanceRootChain crypto held.heap held.state.rootKey sendingDh
  ⟨wipe crypto heap (sendingDh :: held.state.rootKey :: held.state.sendingChainKey.toList),
    { held.state with rootKey := step.rootKey, sendingChainKey := some step.chainKey }⟩

def performDhRatchet (fresh : KeyPair K) (held : Held K) (header : RatchetHeader) : Held K × Except Failure Unit :=
  match crypto.dh (held.heap.cell held.state.sending.secretKey) header.ratchetPublicKey with
  | .error e => (held, .error e)
  | .ok receivingDh =>
    let agreed : Held K := ⟨held.heap.alloc receivingDh, held.state⟩
    match skipReceivingKeys crypto agreed header.previousChainLength with
    | .error e => (⟨wipe crypto agreed.heap [held.heap.next], held.state⟩, .error e)
    | .ok caughtUp =>
      let turned := turnReceiving crypto fresh caughtUp header held.heap.next
      match crypto.dh (turned.heap.cell turned.state.sending.secretKey) header.ratchetPublicKey with
      | .error e => (turned, .error e)
      | .ok sendingDh => (turnSending crypto ⟨turned.heap.alloc sendingDh, turned.state⟩ turned.heap.next, .ok ())

/-- The AEAD pair lives for this call only. -/
def openWith (heap : Cells K) (messageKey : Nat) (associatedData : Bytes) (message : RatchetMessage) :
    Cells K × Except Failure Bytes :=
  let keys := crypto.deriveMessageKeys (heap.cell messageKey)
  let withKey := heap.alloc keys.key
  let withNonce := withKey.alloc keys.nonce
  let opened := do
    let ad ← aeadAssociatedData associatedData message.header
    crypto.aeadDecrypt (withNonce.cell heap.next) (withNonce.cell withKey.next) message.ciphertext ad
  (wipe crypto withNonce [heap.next, withKey.next], opened)

def tryDecryptWithSkipped (held : Held K) (message : RatchetMessage) : Held K × Except Failure (Option Bytes) :=
  let id := skippedKeyId message.header.ratchetPublicKey message.header.messageNumber
  match held.state.skipped.get? id with
  | none => (held, .ok none)
  | some entry =>
    match openWith crypto held.heap entry.messageKey held.state.associatedData message with
    | (heap, .error e) => (⟨heap, held.state⟩, .error e)
    | (heap, .ok plaintext) =>
      (⟨wipe crypto heap [entry.messageKey], { held.state with skipped := held.state.skipped.delete id }⟩,
        .ok (some plaintext))

/-- The message is the next of the chain. -/
def openNext (held : Held K) (receivingChainKey : Nat) (message : RatchetMessage) : Held K × Except Failure Bytes :=
  let (heap, step) := advanceChain crypto held.heap receivingChainKey
  match openWith crypto heap step.messageKey held.state.associatedData message with
  | (heap, .error e) => (⟨wipe crypto heap [step.nextChainKey, step.messageKey], held.state⟩, .error e)
  | (heap, .ok plaintext) =>
    (⟨wipe crypto heap [receivingChainKey, step.messageKey],
      { held.state with receivingChainKey := some step.nextChainKey
                        receivedCount := held.state.receivedCount + 1 }⟩, .ok plaintext)

def receiveInChain (held : Held K) (message : RatchetMessage) : Held K × Except Failure Bytes :=
  match skipReceivingKeys crypto held message.header.messageNumber with
  | .error e => (held, .error e)
  | .ok held =>
    match held.state.receivingChainKey with
    | none => (held, .error (.sessionState "no receiving chain key after ratchet step"))
    | some receivingChainKey =>
      if message.header.messageNumber ≠ held.state.receivedCount then
        (held, .error (.sessionState
          s!"message {message.header.messageNumber} was already consumed (replay?)"))
      else openNext crypto held receivingChainKey message

def ratchetDecrypt (fresh : KeyPair K) (held : Held K) (message : RatchetMessage) : Held K × Except Failure Bytes :=
  if message.header.ratchetPublicKey.length ≠ 32 then
    (held, .error (.malformedInput "ratchet header public key has wrong length"))
  else
    match tryDecryptWithSkipped crypto held message with
    | (held, .error e) => (held, .error e)
    | (held, .ok (some fromSkipped)) => (held, .ok fromSkipped)
    | (held, .ok none) =>
      if isNewRatchetKey held.state message.header then
        match performDhRatchet crypto fresh held message.header with
        | (held, .error e) => (held, .error e)
        | (held, .ok ()) => receiveInChain crypto held message
      else receiveInChain crypto held message

/-- The message key and the AEAD pair are gone when this returns. -/
def sealWith (heap : Cells K) (messageKey : Nat) (associatedData : Bytes) (header : RatchetHeader) (plaintext : Bytes) :
    Cells K × Except Failure RatchetMessage :=
  let keys := crypto.deriveMessageKeys (heap.cell messageKey)
  let withKey := heap.alloc keys.key
  let withNonce := withKey.alloc keys.nonce
  let sealed := do
    let ad ← aeadAssociatedData associatedData header
    let ciphertext ← crypto.aeadEncrypt (withNonce.cell heap.next) (withNonce.cell withKey.next) plaintext ad
    return { header, ciphertext }
  (wipe crypto withNonce [messageKey, heap.next, withKey.next], sealed)

def ratchetEncrypt (held : Held K) (plaintext : Bytes) : Held K × Except Failure RatchetMessage :=
  match held.state.sendingChainKey with
  | none => (held, .error (.sessionState
      "no sending chain: the responder must receive one message before sending"))
  | some sendingChainKey =>
    let (heap, step) := advanceChain crypto held.heap sendingChainKey
    let heap := wipe crypto heap [sendingChainKey]
    let header : RatchetHeader :=
      { ratchetPublicKey := held.state.sending.publicKey, previousChainLength := held.state.previousSentCount,
        messageNumber := held.state.sentCount }
    let (heap, result) := sealWith crypto heap step.messageKey held.state.associatedData header plaintext
    (⟨heap, { held.state with sendingChainKey := some step.nextChainKey, sentCount := held.state.sentCount + 1 }⟩, result)

/-- Every key of the session, on logout and on deletion. -/
def destroyRatchet (held : Held K) : Held K :=
  ⟨wipe crypto held.heap (held.state.rootKey :: held.state.sending.secretKey ::
      (held.state.sendingChainKey.toList ++ (held.state.receivingChainKey.toList ++ skippedBuffers held.state.skipped))),
    { held.state with skipped := OrderedMap.empty }⟩

end Buffered

end Veil
