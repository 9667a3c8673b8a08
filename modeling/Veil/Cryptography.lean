import Veil.Conversation

namespace Veil

/-- The primitives and the key schedule, over any type `K` of secrets. Randomness is an argument. -/
structure Cryptography (K : Type) extends RatchetPrimitives K where
  wiped : K → K
  signingPublicKey : K → Bytes
  sign : K → Bytes → Except Failure Bytes
  verify : Bytes → Bytes → Bytes → Bool
  kemEncapsulate : Bytes → Bytes → Except Failure (Bytes × K)
  kemDecapsulate : Bytes → K → Except Failure K
  deriveRootSecret : List K → Bytes → K
  deriveEnvelopeKeys : K → Bytes → AeadKeys K
  hash256 : Bytes → Bytes
  hash512 : Bytes → Bytes

/-- The pairs the generators return. -/
structure Generators (K : Type) where
  dh : KeyPair K → Prop
  signing : KeyPair K → Prop
  kem : KeyPair K → Prop

/-- What the code relies on in the libraries, for pairs they generated. -/
structure Cryptography.Lawful {K : Type} (crypto : Cryptography K) (honest : Generators K) : Prop where
  ratchet : crypto.toRatchetPrimitives.Lawful honest.dh
  sign_verify : ∀ pair, honest.signing pair → ∀ message, ∃ signature,
    crypto.sign pair.secretKey message = .ok signature ∧
      crypto.verify pair.publicKey message signature = true
  signing_length : ∀ pair, honest.signing pair → pair.publicKey.length = 32
  kem_agree : ∀ pair, honest.kem pair → ∀ coins, ∃ ciphertext secret,
    crypto.kemEncapsulate coins pair.publicKey = .ok (ciphertext, secret) ∧
      crypto.kemDecapsulate ciphertext pair.secretKey = .ok secret
  kem_length : ∀ pair, honest.kem pair → pair.publicKey.length = 1568

end Veil
