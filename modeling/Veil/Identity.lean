import Veil.Cryptography
import Veil.Codec

namespace Veil

def ed25519PublicLen : Nat := 32

def x25519PublicLen : Nat := 32

def mlkemPublicLen : Nat := 1568

def constantTimeEqual (a b : Bytes) : Bool :=
  if a.length ≠ b.length then false
  else (List.zipWith (fun x y => x ^^^ y) a b).foldl (fun diff x => diff ||| x) 0 = 0

theorem foldl_or_eq_zero_iff (xs : List UInt8) (acc : UInt8) :
    xs.foldl (fun diff x => diff ||| x) acc = 0 ↔ acc = 0 ∧ ∀ x ∈ xs, x = 0 := by
  induction xs generalizing acc with
  | nil => simp
  | cons x xs ih => simp [ih, UInt8.or_eq_zero_iff, and_assoc]

theorem constantTimeEqual_iff {a b : Bytes} : constantTimeEqual a b = true ↔ a = b := by
  unfold constantTimeEqual
  split
  next hne =>
    simp only [Bool.false_eq_true, false_iff]
    rintro rfl
    exact hne rfl
  next heq =>
    simp only [ne_eq, not_not] at heq
    rw [decide_eq_true_iff, foldl_or_eq_zero_iff]
    induction a generalizing b with
    | nil =>
      cases b with
      | nil => simp
      | cons y ys => simp at heq
    | cons x xs ih =>
      cases b with
      | nil => simp at heq
      | cons y ys =>
        have h := ih (by simpa using heq)
        simp only [true_and, List.zipWith_cons_cons, List.mem_cons, forall_eq_or_imp, UInt8.xor_eq_zero_iff,
          List.cons.injEq] at h ⊢
        rw [h]

structure PublicIdentity where
  signingPublicKey : Bytes
  exchangePublicKey : Bytes
  exchangeKeySignature : Bytes
  deriving DecidableEq

structure PrivateIdentity (K : Type) where
  signing : KeyPair K
  exchange : KeyPair K
  exchangeKeySignature : Bytes

/-- A signed medium-term prekey; the classical and the ML-KEM kind have the same shape. -/
structure SignedPreKey where
  id : Int
  publicKey : Bytes
  signature : Bytes
  deriving DecidableEq

structure OneTimePreKey where
  id : Int
  publicKey : Bytes
  deriving DecidableEq

structure PreKeyBundle where
  identity : PublicIdentity
  signedPreKey : SignedPreKey
  signedKemPreKey : SignedPreKey
  oneTimePreKey : Option OneTimePreKey := none
  oneTimeKemPreKey : Option OneTimePreKey := none
  deriving DecidableEq

def sigContextExchange : Int := 0x01

def sigContextSignedPreKey : Int := 0x02

def sigContextKemPreKey : Int := 0x03

def signingTranscript (context : Int) (signingPublicKey : Bytes) (id : Int) (publicKey : Bytes) :
    Except Failure Bytes := do
  let w ← (({} : Writer).fixed (utf8 "Veil/v1/KeyBinding")).u8 context
  let w ← w.bytes signingPublicKey
  let w ← w.u32 id
  let w ← w.bytes publicKey
  return w.finish

section

variable {K : Type} (crypto : Cryptography K)

def createIdentity (signing exchange : KeyPair K) : Except Failure (PrivateIdentity K) := do
  let transcript ← signingTranscript sigContextExchange signing.publicKey 0 exchange.publicKey
  let exchangeKeySignature ← crypto.sign signing.secretKey transcript
  return { signing, exchange, exchangeKeySignature }

def publicIdentityOf (identity : PrivateIdentity K) : PublicIdentity where
  signingPublicKey := identity.signing.publicKey
  exchangePublicKey := identity.exchange.publicKey
  exchangeKeySignature := identity.exchangeKeySignature

/-- `pair` is what the key generator returns; the store keeps it under `id`. -/
def createSigned (context : Int) (identity : PrivateIdentity K) (id : Int) (pair : KeyPair K) :
    Except Failure (SignedPreKey × KeyPair K) := do
  let transcript ← signingTranscript context identity.signing.publicKey id pair.publicKey
  let signature ← crypto.sign identity.signing.secretKey transcript
  return (⟨id, pair.publicKey, signature⟩, pair)

def createSignedPreKey (identity : PrivateIdentity K) (id : Int) (pair : KeyPair K) :
    Except Failure (SignedPreKey × KeyPair K) :=
  createSigned crypto sigContextSignedPreKey identity id pair

def createSignedKemPreKey (identity : PrivateIdentity K) (id : Int) (pair : KeyPair K) :
    Except Failure (SignedPreKey × KeyPair K) :=
  createSigned crypto sigContextKemPreKey identity id pair

/-- One-time prekeys of either kind, with consecutive ids. -/
def createOneTimePreKeys (startId : Int) (pairs : List (KeyPair K)) : List (OneTimePreKey × KeyPair K) :=
  pairs.zipIdx.map (fun (pair, i) => (⟨startId + i, pair.publicKey⟩, pair))

def verifyIdentityBinding (identity : PublicIdentity) : Except Failure Bool := do
  if identity.signingPublicKey.length ≠ ed25519PublicLen then return false
  if identity.exchangePublicKey.length ≠ x25519PublicLen then return false
  let transcript ← signingTranscript sigContextExchange identity.signingPublicKey 0 identity.exchangePublicKey
  return crypto.verify identity.signingPublicKey transcript identity.exchangeKeySignature

def restoreIdentity (signingSecretKey exchangeSecretKey : K) (exchangeKeySignature : Bytes) :
    Except Failure (PrivateIdentity K) := do
  let identity : PrivateIdentity K :=
    { signing := ⟨crypto.signingPublicKey signingSecretKey, signingSecretKey⟩
      exchange := ⟨crypto.publicKeyOf exchangeSecretKey, exchangeSecretKey⟩
      exchangeKeySignature }
  if !(← verifyIdentityBinding crypto (publicIdentityOf identity)) then
    throw (.untrustedBundle "restored identity failed its own key-binding check")
  return identity

/-- One signed prekey of a bundle: its length first, then its signature. -/
def verifySigned (context : Int) (name : String) (length : Nat) (signingKey : Bytes) (key : SignedPreKey) :
    Except Failure Unit := do
  if key.publicKey.length ≠ length then throw (.malformedInput s!"{name} has wrong length")
  let transcript ← signingTranscript context signingKey key.id key.publicKey
  if !crypto.verify signingKey transcript key.signature then
    throw (.untrustedBundle s!"{name} signature is invalid")

def verifyPreKeyBundle (bundle : PreKeyBundle) : Except Failure Unit := do
  if !(← verifyIdentityBinding crypto bundle.identity) then
    throw (.untrustedBundle "identity exchange-key binding signature is invalid")
  let signingKey := bundle.identity.signingPublicKey
  verifySigned crypto sigContextSignedPreKey "signed prekey" x25519PublicLen signingKey bundle.signedPreKey
  verifySigned crypto sigContextKemPreKey "signed ML-KEM prekey" mlkemPublicLen signingKey bundle.signedKemPreKey
  if bundle.oneTimePreKey.any (fun key => key.publicKey.length ≠ x25519PublicLen) then
    throw (.malformedInput "one-time prekey has wrong length")
  if bundle.oneTimeKemPreKey.any (fun key => key.publicKey.length ≠ mlkemPublicLen) then
    throw (.malformedInput "one-time ML-KEM prekey has wrong length")

def addressBytes : Nat := 16

def addressOf (signingKey : Bytes) : Except Failure String :=
  if signingKey.length ≠ ed25519PublicLen then
    .error (.malformedInput "identity signing key has wrong length")
  else .ok (toBase32 ((crypto.hash256 (utf8 "Veil/v1/Address" ++ signingKey)).take addressBytes))

def addressMatches (address : String) (identity : PublicIdentity) : Except Failure Bool := do
  let expected ← addressOf crypto identity.signingPublicKey
  return constantTimeEqual (utf8 expected) (utf8 address)

end

end Veil
