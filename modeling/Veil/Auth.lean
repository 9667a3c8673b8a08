import Veil.Base64Url
import Veil.RelayStore
import Veil.SealedSender

namespace Veil

/-- A challenge that is out, for whatever was given as an address. -/
structure Challenge where
  address : Json
  value : Bytes
  expiresAt : Int

structure Token where
  address : String
  expiresAt : Int

structure AuthService where
  challenges : OrderedMap String Challenge := .empty
  tokens : OrderedMap String Token := .empty

/-- `fromBase64Url` of any value. -/
def bytesOf (js : NumberText) : Option Json → Except Failure Bytes
  | none => .error (.error "Cannot read properties of undefined (reading 'replace')")
  | some .null => .error (.error "Cannot read properties of null (reading 'replace')")
  | some (.str text) => fromBase64Url text
  | some value => do
    let text ← value.toText js
    if text.toList.all (fun c => c ∈ base64UrlAlphabet) then .error (.error "value.replace is not a function")
    else .error (.error "invalid base64url input")

namespace AuthService

def issueChallenge (address : Json) (value : Bytes) (now : Int) (auth : AuthService) :
    AuthService × String × Int :=
  let expiresAt := now + challengeTtlMs
  let encoded := toBase64Url value
  ({ auth with challenges := auth.challenges.set encoded ⟨address, value, expiresAt⟩ }, encoded, expiresAt)

/-- What a signed challenge is accepted for. -/
def accepted {K : Type} (crypto : Cryptography K) (js : NumberText) (record : Challenge) (address : String)
    (signature signingPublicKey : Option Json) (now : Int) : Bool :=
  record.expiresAt ≥ now && record.address.isText address &&
    match bytesOf js signature, bytesOf js signingPublicKey with
    | .ok signature, .ok publicKey => crypto.verify publicKey (challengeTranscript address record.value) signature
    | _, _ => false

/-- The challenge is consumed whether or not verification succeeds. `random` is drawn for the token. -/
def authenticate {K : Type} (crypto : Cryptography K) (js : NumberText) (address : String) (challenge : Json)
    (signature signingPublicKey : Option Json) (random : Bytes) (now : Int) (auth : AuthService) :
    AuthService × Option (String × Int) :=
  match challenge.text?.bind auth.challenges.get? with
  | none => (auth, none)
  | some record =>
    let auth := { auth with challenges := auth.challenges.delete (challenge.text?.getD "") }
    if accepted crypto js record address signature signingPublicKey now then
      let token := toBase64Url random
      let expiresAt := now + tokenTtlMs
      ({ auth with tokens := auth.tokens.set token ⟨address, expiresAt⟩ }, some (token, expiresAt))
    else (auth, none)

/-- The address of a bearer token; only a text is one. -/
def resolve (token : Option Json) (now : Int) (auth : AuthService) : AuthService × Option String :=
  match token.bind Json.text? with
  | none => (auth, none)
  | some token =>
    if token = "" then (auth, none)
    else
      match auth.tokens.get? token with
      | none => (auth, none)
      | some record =>
        if record.expiresAt < now then ({ auth with tokens := auth.tokens.delete token }, none)
        else (auth, some record.address)

def revoke (token : String) (auth : AuthService) : AuthService := { auth with tokens := auth.tokens.delete token }

/-- Entries past their time are dropped. -/
def prune (now : Int) (auth : AuthService) : AuthService where
  challenges := (auth.challenges.entries.filter (fun entry => entry.2.expiresAt < now)).foldl
    (fun challenges entry => challenges.delete entry.1) auth.challenges
  tokens := (auth.tokens.entries.filter (fun entry => entry.2.expiresAt < now)).foldl
    (fun tokens entry => tokens.delete entry.1) auth.tokens

end AuthService

end Veil
