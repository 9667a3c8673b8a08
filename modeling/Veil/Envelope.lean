import Veil.Identity

namespace Veil

def payloadPreKey : Nat := 0x01

def payloadRatchet : Nat := 0x02

structure SealedEnvelope where
  recipientAddress : String
  ephemeralPublicKey : Bytes
  ciphertext : Bytes
  deriving DecidableEq

structure OpenedEnvelope where
  senderIdentity : PublicIdentity
  payloadKind : Nat
  payload : Bytes
  deriving DecidableEq

def senderProofTranscript (ephemeralPublicKey : Bytes) (recipientAddress : String) (payloadKind : Nat)
    (payload : Bytes) : Except Failure Bytes := do
  let w ← (({} : Writer).fixed (utf8 "Veil/v1/SenderProof")).bytes ephemeralPublicKey
  let w ← w.bytes (utf8 recipientAddress)
  let w ← w.u8 payloadKind
  let w ← w.bytes payload
  return w.finish

/-- The plaintext of the sealed layer: the sender, its proof of possession and the payload. -/
structure SealedLayer where
  senderIdentity : PublicIdentity
  proof : Bytes
  payloadKind : Nat
  payload : Bytes
  deriving DecidableEq

def SealedLayer.encode (inner : SealedLayer) : Except Failure Bytes := do
  let w ← ({} : Writer).bytes inner.senderIdentity.signingPublicKey
  let w ← w.bytes inner.senderIdentity.exchangePublicKey
  let w ← w.bytes inner.senderIdentity.exchangeKeySignature
  let w ← w.bytes inner.proof
  let w ← w.u8 inner.payloadKind
  let w ← w.bytes inner.payload
  return w.finish

def SealedLayer.read : Decode SealedLayer := do
  let signingPublicKey ← Reader.bytes
  let exchangePublicKey ← Reader.bytes
  let exchangeKeySignature ← Reader.bytes
  let proof ← Reader.bytes
  let payloadKind ← Reader.u8
  let payload ← Reader.bytes
  return ⟨⟨signingPublicKey, exchangePublicKey, exchangeKeySignature⟩, proof, payloadKind, payload⟩

/-- Run a decoder over a whole buffer. -/
def Decode.all {α : Type} (m : Decode α) (buffer : Bytes) : Except Failure α := do
  let (a, _) ← (m >>= fun a => do Reader.done; return a) ⟨buffer, 0⟩
  return a

section

variable {K : Type} (crypto : Cryptography K)

def envelopeKeys (sharedSecret : K) (ephemeralPublicKey recipientExchangeKey : Bytes) : AeadKeys K :=
  crypto.deriveEnvelopeKeys sharedSecret (concat [ephemeralPublicKey, recipientExchangeKey])

/-- `ephemeral` is the pair drawn in this call; `signWithIdentity` is the sender's signing function. -/
def sealEnvelope (senderIdentity : PublicIdentity) (signWithIdentity : Bytes → Except Failure Bytes)
    (recipientIdentity : PublicIdentity) (payloadKind : Nat) (payload : Bytes) (ephemeral : KeyPair K) :
    Except Failure SealedEnvelope := do
  if !(← verifyIdentityBinding crypto recipientIdentity) then
    throw (.malformedInput "recipient identity binding is invalid; refusing to seal")
  let recipientAddress ← addressOf crypto recipientIdentity.signingPublicKey
  let sharedSecret ← crypto.dh ephemeral.secretKey recipientIdentity.exchangePublicKey
  let keys := envelopeKeys crypto sharedSecret ephemeral.publicKey recipientIdentity.exchangePublicKey
  let transcript ← senderProofTranscript ephemeral.publicKey recipientAddress payloadKind payload
  let proof ← signWithIdentity transcript
  let inner ← SealedLayer.encode ⟨senderIdentity, proof, payloadKind, payload⟩
  let ciphertext ← crypto.aeadEncrypt keys.key keys.nonce inner []
  return { recipientAddress, ephemeralPublicKey := ephemeral.publicKey, ciphertext }

def openEnvelope (recipientExchangeSecretKey : K) (recipientExchangePublicKey : Bytes) (recipientAddress : String)
    (envelope : SealedEnvelope) : Except Failure OpenedEnvelope := do
  if envelope.ephemeralPublicKey.length ≠ x25519PublicLen then
    throw (.malformedInput "envelope ephemeral key has wrong length")
  let sharedSecret ← crypto.dh recipientExchangeSecretKey envelope.ephemeralPublicKey
  let keys := envelopeKeys crypto sharedSecret envelope.ephemeralPublicKey recipientExchangePublicKey
  let bytes ← crypto.aeadDecrypt keys.key keys.nonce envelope.ciphertext []
  let inner ← Decode.all SealedLayer.read bytes
  if !(← verifyIdentityBinding crypto inner.senderIdentity) then
    throw (.authentication "sealed sender identity binding is invalid")
  let expectedProof ← senderProofTranscript envelope.ephemeralPublicKey recipientAddress inner.payloadKind
    inner.payload
  if !crypto.verify inner.senderIdentity.signingPublicKey expectedProof inner.proof then
    throw (.authentication "sealed sender proof of possession is invalid")
  return ⟨inner.senderIdentity, inner.payloadKind, inner.payload⟩

end

namespace SealedLayer

theorem read_encode {inner : SealedLayer} {bytes : Bytes} (h : inner.encode = .ok bytes) :
    Reads read bytes inner := by
  simp only [encode, Outcome.bind_eq_ok_iff, Outcome.pure_eq_ok_iff, Writer.bytes_eq_ok_iff, Writer.u8_eq_ok_iff]
    at h
  obtain ⟨_, ⟨h₁, rfl⟩, _, ⟨h₂, rfl⟩, _, ⟨h₃, rfl⟩, _, ⟨h₄, rfl⟩, _, ⟨_, h₅, rfl⟩, _, ⟨h₆, rfl⟩, rfl⟩ := h
  simp only [Writer.finish_push, Writer.finish_empty, List.nil_append, List.append_assoc, Int.toNat_natCast]
  refine (Reads.bytes h₁).bind ?_
  refine (Reads.bytes h₂).bind ?_
  refine (Reads.bytes h₃).bind ?_
  refine (Reads.bytes h₄).bind ?_
  refine (Reads.u8 (by omega)).bind ?_
  exact (Reads.bytes h₆).map _

end SealedLayer

theorem Decode.all_of_reads {α : Type} {m : Decode α} {buffer : Bytes} {a : α} (h : Reads m buffer a) :
    m.all buffer = .ok a := by
  unfold Decode.all
  rw [h.whole]
  rfl

end Veil
