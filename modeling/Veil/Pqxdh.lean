import Veil.Identity

namespace Veil

structure HandshakeKeyIds where
  signedPreKeyId : Int
  signedKemPreKeyId : Int
  oneTimePreKeyId : Option Int := none
  oneTimeKemPreKeyId : Option Int := none
  deriving DecidableEq

structure InitiatorHandshake (K : Type) where
  rootSecret : K
  ephemeralPublicKey : Bytes
  kemCiphertext : Bytes
  keyIds : HandshakeKeyIds
  associatedData : Bytes

structure ResponderHandshakeInput (K : Type) where
  initiatorIdentity : PublicIdentity
  ephemeralPublicKey : Bytes
  kemCiphertext : Bytes
  keyIds : HandshakeKeyIds
  signedPreKeySecret : K
  signedKemPreKeySecret : K
  oneTimePreKeySecret : Option K := none
  oneTimeKemPreKeySecret : Option K := none

def associatedData (initiator responder : PublicIdentity) : Except Failure Bytes := do
  let w ← (({} : Writer).fixed (utf8 "Veil/v1/AD")).bytes initiator.signingPublicKey
  let w ← w.bytes initiator.exchangePublicKey
  let w ← w.bytes responder.signingPublicKey
  let w ← w.bytes responder.exchangePublicKey
  return w.finish

namespace Writer

/-- An optional id is written as a presence byte and the id, or 0 where there is none. -/
def optionalId (w : Writer) (id : Option Int) : Except Failure Writer := do
  let w ← w.u8 (if id.isNone then 0 else 1)
  w.u32 (id.getD 0)

def keyIds (w : Writer) (keyIds : HandshakeKeyIds) : Except Failure Writer := do
  let w ← w.u32 keyIds.signedPreKeyId
  let w ← w.u32 keyIds.signedKemPreKeyId
  let w ← w.optionalId keyIds.oneTimePreKeyId
  w.optionalId keyIds.oneTimeKemPreKeyId

end Writer

def handshakeTranscript (initiator responder : PublicIdentity) (ephemeralPublicKey kemCiphertext : Bytes)
    (keyIds : HandshakeKeyIds) : Except Failure Bytes := do
  let w ← (({} : Writer).fixed (utf8 "Veil/v1/PQXDH/Transcript")).bytes initiator.signingPublicKey
  let w ← w.bytes initiator.exchangePublicKey
  let w ← w.bytes responder.signingPublicKey
  let w ← w.bytes responder.exchangePublicKey
  let w ← w.bytes ephemeralPublicKey
  let w ← w.bytes kemCiphertext
  let w ← w.keyIds keyIds
  return w.finish

section

variable {K : Type} (crypto : Cryptography K)

/-- `ephemeral` and `coins` are what the generators draw in this call. -/
def initiateHandshake (self : PrivateIdentity K) (bundle : PreKeyBundle) (ephemeral : KeyPair K) (coins : Bytes) :
    Except Failure (InitiatorHandshake K) := do
  verifyPreKeyBundle crypto bundle
  let selfPublic := publicIdentityOf self
  let kemTarget := (bundle.oneTimeKemPreKey.map (fun key => key.publicKey)).getD bundle.signedKemPreKey.publicKey
  let (kemCiphertext, kemSecret) ← crypto.kemEncapsulate coins kemTarget
  let dh1 ← crypto.dh self.exchange.secretKey bundle.signedPreKey.publicKey
  let dh2 ← crypto.dh ephemeral.secretKey bundle.identity.exchangePublicKey
  let dh3 ← crypto.dh ephemeral.secretKey bundle.signedPreKey.publicKey
  let dh4 ← bundle.oneTimePreKey.mapM (fun key => crypto.dh ephemeral.secretKey key.publicKey)
  let keyIds : HandshakeKeyIds :=
    { signedPreKeyId := bundle.signedPreKey.id, signedKemPreKeyId := bundle.signedKemPreKey.id,
      oneTimePreKeyId := bundle.oneTimePreKey.map (fun key => key.id),
      oneTimeKemPreKeyId := bundle.oneTimeKemPreKey.map (fun key => key.id) }
  let transcript ← handshakeTranscript selfPublic bundle.identity ephemeral.publicKey kemCiphertext keyIds
  let secrets := [dh1, dh2, dh3] ++ dh4.toList ++ [kemSecret]
  let associatedData ← associatedData selfPublic bundle.identity
  return { rootSecret := crypto.deriveRootSecret secrets transcript, ephemeralPublicKey := ephemeral.publicKey,
           kemCiphertext, keyIds, associatedData }

def respondToHandshake (self : PrivateIdentity K) (input : ResponderHandshakeInput K) :
    Except Failure (K × Bytes) := do
  let selfPublic := publicIdentityOf self
  if input.keyIds.oneTimePreKeyId.isSome ≠ input.oneTimePreKeySecret.isSome then
    throw (.malformedInput "one-time prekey id and secret must both be present or both absent")
  if input.keyIds.oneTimeKemPreKeyId.isSome ≠ input.oneTimeKemPreKeySecret.isSome then
    throw (.malformedInput "one-time ML-KEM prekey id and secret must both be present or both absent")
  let kemSecretKey := input.oneTimeKemPreKeySecret.getD input.signedKemPreKeySecret
  let kemSecret ← crypto.kemDecapsulate input.kemCiphertext kemSecretKey
  let dh1 ← crypto.dh input.signedPreKeySecret input.initiatorIdentity.exchangePublicKey
  let dh2 ← crypto.dh self.exchange.secretKey input.ephemeralPublicKey
  let dh3 ← crypto.dh input.signedPreKeySecret input.ephemeralPublicKey
  let dh4 ← input.oneTimePreKeySecret.mapM (fun secret => crypto.dh secret input.ephemeralPublicKey)
  let transcript ← handshakeTranscript input.initiatorIdentity selfPublic input.ephemeralPublicKey
    input.kemCiphertext input.keyIds
  let secrets := [dh1, dh2, dh3] ++ dh4.toList ++ [kemSecret]
  let associatedData ← associatedData input.initiatorIdentity selfPublic
  return (crypto.deriveRootSecret secrets transcript, associatedData)

end

end Veil
