import Veil.Auth

namespace Veil

/-- `message` of an error. -/
def Failure.message : Failure → String
  | .malformedInput message | .authentication message | .untrustedBundle message | .identityChanged message _ _ |
    .sessionState message | .replay message | .vaultLocked message | .relay message _ | .error message => message

/-- An upload, each field as it came. -/
structure PublishedKeys where
  identity : Option Json
  signedPreKey : Option Json
  signedKemPreKey : Option Json
  oneTimePreKeys : Option Json
  oneTimeKemPreKeys : Option Json

/-- `value ?? other` -/
def orElse (value : Option Json) (other : Json) : Json :=
  match value with
  | none | some .null => other
  | some value => value

namespace Relay

variable {K : Type} (crypto : Cryptography K) (js : NumberText)

def decodeIdentity (wire : Json) : Except Failure PublicIdentity := do
  let signingPublicKey ← bytesOf js (wire.field "signingPublicKey")
  let exchangePublicKey ← bytesOf js (wire.field "exchangePublicKey")
  let exchangeKeySignature ← bytesOf js (wire.field "exchangeKeySignature")
  return { signingPublicKey, exchangePublicKey, exchangeKeySignature }

/-- A signed prekey whose id may be anything. -/
structure WireSignedPreKey where
  id : Option Json
  publicKey : Bytes
  signature : Bytes

def decodeSignedPreKey (wire : Json) : Except Failure WireSignedPreKey := do
  let publicKey ← bytesOf js (wire.field "publicKey")
  let signature ← bytesOf js (wire.field "signature")
  return { id := wire.field "id", publicKey, signature }

/-- `verifySigned` for an id that may be anything; the writer takes an integer only. -/
def verifyWireSigned (context : Int) (name : String) (length : Nat) (signingKey : Bytes) (key : WireSignedPreKey) :
    Except Failure Unit :=
  match key.id.bind Json.integer? with
  | some id => verifySigned crypto context name length signingKey { id, publicKey := key.publicKey, signature := key.signature }
  | none => do
    if key.publicKey.length ≠ length then throw (.malformedInput s!"{name} has wrong length")
    let text ← key.id.elim (.ok "undefined") (Json.toText js)
    throw (.malformedInput s!"u32 out of range: {text}")

/-- `verifyPreKeyBundle` of what was published, which is without one-time prekeys. -/
def verifyPublishedBundle (identity : PublicIdentity) (signedPreKey signedKemPreKey : Json) : Except Failure Unit := do
  let signedPreKey ← decodeSignedPreKey js signedPreKey
  let signedKemPreKey ← decodeSignedPreKey js signedKemPreKey
  if !(← verifyIdentityBinding crypto identity) then
    throw (.untrustedBundle "identity exchange-key binding signature is invalid")
  verifyWireSigned crypto js sigContextSignedPreKey "signed prekey" x25519PublicLen identity.signingPublicKey signedPreKey
  verifyWireSigned crypto js sigContextKemPreKey "signed ML-KEM prekey" mlkemPublicLen identity.signingPublicKey
    signedKemPreKey

/-- What is wrong with a one-time prekey. -/
def oneTimeError (key : Json) : Option String :=
  match (key.field "id").bind Json.integer?, (key.field "publicKey").bind Json.text? with
  | some _, some publicKey =>
    match fromBase64Url publicKey with
    | .ok _ => none
    | .error _ => some "malformed one-time prekey encoding"
  | _, _ => some "malformed one-time prekey"

/-- `verifyPublishedPreKeys`: the address and the identity, or what is wrong. A list that cannot be run through throws. -/
def verifyPublishedPreKeys (published : PublishedKeys) : Except Failure (Except String (String × PublicIdentity)) :=
  match (published.identity.elim (.error (.error "")) (decodeIdentity js)) with
  | .error _ => .ok (.error "malformed identity encoding")
  | .ok identity =>
    match published.signedPreKey.filter (fun key => Json.truthy (some key)),
      published.signedKemPreKey.filter (fun key => Json.truthy (some key)) with
    | some signedPreKey, some signedKemPreKey =>
      match verifyPublishedBundle crypto js identity signedPreKey signedKemPreKey with
      | .error e => .ok (.error s!"invalid key material: {e.message}")
      | .ok () => do
        match (← (orElse published.oneTimePreKeys (.arr [])).elements).findSome? oneTimeError with
        | some error => return .error error
        | none =>
          match (← (orElse published.oneTimeKemPreKeys (.arr [])).elements).findSome? oneTimeError with
          | some error => return .error error
          | none => return .ok (← addressOf crypto identity.signingPublicKey, identity)
    | _, _ => .ok (.error "missing signed prekeys")

end Relay

end Veil
