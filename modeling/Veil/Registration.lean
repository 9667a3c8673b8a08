import Veil.SocketTotality

namespace Veil

namespace Relay

def encodeIdentity (identity : PublicIdentity) : Json :=
  .obj [("signingPublicKey", .str (toBase64Url identity.signingPublicKey)),
    ("exchangePublicKey", .str (toBase64Url identity.exchangePublicKey)),
    ("exchangeKeySignature", .str (toBase64Url identity.exchangeKeySignature))]

def encodeSignedPreKey (key : SignedPreKey) : Json :=
  .obj [("id", .num (.finite key.id)), ("publicKey", .str (toBase64Url key.publicKey)),
    ("signature", .str (toBase64Url key.signature))]

def encodeOneTimePreKey (key : OneTimePreKey) : Json :=
  .obj [("id", .num (.finite key.id)), ("publicKey", .str (toBase64Url key.publicKey))]

/-- What a client registers with. -/
def registration (identity : PublicIdentity) (keys : PublishedPreKeys) : Json :=
  .obj [("identity", encodeIdentity identity), ("signedPreKey", encodeSignedPreKey keys.signedPreKey),
    ("signedKemPreKey", encodeSignedPreKey keys.signedKemPreKey),
    ("oneTimePreKeys", .arr (keys.oneTimePreKeys.map encodeOneTimePreKey)),
    ("oneTimeKemPreKeys", .arr (keys.oneTimeKemPreKeys.map encodeOneTimePreKey))]

/-- What a client tops its pools up with. -/
def topUp (oneTimePreKeys oneTimeKemPreKeys : List OneTimePreKey) : Json :=
  .obj [("oneTimePreKeys", .arr (oneTimePreKeys.map encodeOneTimePreKey)),
    ("oneTimeKemPreKeys", .arr (oneTimeKemPreKeys.map encodeOneTimePreKey))]

section

variable {K : Type} {crypto : Cryptography K} {js : NumberText} {identity : PublicIdentity} {keys : PublishedPreKeys}

theorem bytesOf_toBase64Url (bytes : Bytes) : bytesOf js (some (.str (toBase64Url bytes))) = .ok bytes :=
  fromBase64Url_toBase64Url bytes

theorem decodeIdentity_encode (identity : PublicIdentity) : decodeIdentity js (encodeIdentity identity) = .ok identity := by
  have hsigning : (encodeIdentity identity).field "signingPublicKey" = some (.str (toBase64Url identity.signingPublicKey)) :=
    rfl
  have hexchange : (encodeIdentity identity).field "exchangePublicKey" =
      some (.str (toBase64Url identity.exchangePublicKey)) := rfl
  have hsignature : (encodeIdentity identity).field "exchangeKeySignature" =
      some (.str (toBase64Url identity.exchangeKeySignature)) := rfl
  rw [decodeIdentity, hsigning, hexchange, hsignature]
  simp only [bytesOf_toBase64Url]
  rfl

theorem decodeSignedPreKey_encode (key : SignedPreKey) : decodeSignedPreKey js (encodeSignedPreKey key) =
    .ok ⟨some (.num (.finite key.id)), key.publicKey, key.signature⟩ := by
  have hkey : (encodeSignedPreKey key).field "publicKey" = some (.str (toBase64Url key.publicKey)) := rfl
  have hsignature : (encodeSignedPreKey key).field "signature" = some (.str (toBase64Url key.signature)) := rfl
  have hid : (encodeSignedPreKey key).field "id" = some (.num (.finite key.id)) := rfl
  rw [decodeSignedPreKey, hkey, hsignature, hid]
  simp only [bytesOf_toBase64Url]
  rfl

theorem oneTimeError_encode (key : OneTimePreKey) : oneTimeError (encodeOneTimePreKey key) = none := by
  have hkey : ((encodeOneTimePreKey key).field "publicKey").bind Json.text? = some (toBase64Url key.publicKey) := rfl
  have hid : ((encodeOneTimePreKey key).field "id").bind Json.integer? = some key.id := rfl
  rw [oneTimeError, hkey, hid]
  simp only [fromBase64Url_toBase64Url]

theorem verifyWireSigned_encode (context : Int) (name : String) (length : Nat) (signingKey : Bytes) (key : SignedPreKey) :
    verifyWireSigned crypto js context name length signingKey ⟨some (.num (.finite key.id)), key.publicKey, key.signature⟩ =
      verifySigned crypto context name length signingKey key := rfl

/-- The checks of `verifyPreKeyBundle` that do not look at one-time prekeys. -/
theorem verifyPreKeyBundle_signed {bundle : PreKeyBundle} (accepted : verifyPreKeyBundle crypto bundle = .ok ()) :
    verifyIdentityBinding crypto bundle.identity = .ok true ∧
      verifySigned crypto sigContextSignedPreKey "signed prekey" x25519PublicLen bundle.identity.signingPublicKey
        bundle.signedPreKey = .ok () ∧
      verifySigned crypto sigContextKemPreKey "signed ML-KEM prekey" mlkemPublicLen bundle.identity.signingPublicKey
        bundle.signedKemPreKey = .ok () := by
  rw [verifyPreKeyBundle] at accepted
  obtain ⟨bound, hbound, accepted⟩ := Outcome.bind_eq_ok_iff.mp accepted
  cases bound with
  | false => cases accepted
  | true =>
    obtain ⟨_, hclassical, accepted⟩ := Outcome.bind_eq_ok_iff.mp accepted
    obtain ⟨_, hkem, _⟩ := Outcome.bind_eq_ok_iff.mp accepted
    exact ⟨hbound, hclassical, hkem⟩

theorem verifyPublishedBundle_encode (accepted : verifyPreKeyBundle crypto
      { identity, signedPreKey := keys.signedPreKey, signedKemPreKey := keys.signedKemPreKey } = .ok ()) :
    verifyPublishedBundle crypto js identity (encodeSignedPreKey keys.signedPreKey)
      (encodeSignedPreKey keys.signedKemPreKey) = .ok () := by
  obtain ⟨hbound, hclassical, hkem⟩ := verifyPreKeyBundle_signed accepted
  rw [verifyPublishedBundle, decodeSignedPreKey_encode, decodeSignedPreKey_encode]
  simp only [Outcome.ok_bind, hbound, verifyWireSigned_encode, hclassical, hkem]
  rfl

/-- The relay takes what makes a bundle that a client would accept. -/
theorem verifyPublishedPreKeys_encode (accepted : verifyPreKeyBundle crypto
      { identity, signedPreKey := keys.signedPreKey, signedKemPreKey := keys.signedKemPreKey } = .ok ())
    {address : String} (haddress : addressOf crypto identity.signingPublicKey = .ok address) :
    verifyPublishedPreKeys crypto js
      { identity := some (encodeIdentity identity), signedPreKey := some (encodeSignedPreKey keys.signedPreKey)
        signedKemPreKey := some (encodeSignedPreKey keys.signedKemPreKey)
        oneTimePreKeys := some (.arr (keys.oneTimePreKeys.map encodeOneTimePreKey))
        oneTimeKemPreKeys := some (.arr (keys.oneTimeKemPreKeys.map encodeOneTimePreKey)) } = .ok (.ok (address, identity)) := by
  have hwell : ∀ oneTime : List OneTimePreKey, (oneTime.map encodeOneTimePreKey).findSome? oneTimeError = none := by
    intro oneTime
    rw [List.findSome?_map, List.findSome?_eq_none_iff]
    exact fun key _ => oneTimeError_encode key
  have htruthy (key : SignedPreKey) : (some (encodeSignedPreKey key)).filter (fun key => Json.truthy (some key)) =
      some (encodeSignedPreKey key) := rfl
  have helements (values : List Json) : (orElse (some (.arr values)) (.arr [])).elements = .ok values := rfl
  simp only [verifyPublishedPreKeys, Option.elim_some, decodeIdentity_encode, htruthy, verifyPublishedBundle_encode accepted,
    helements, Outcome.ok_bind, hwell, haddress]
  rfl

/-- A registration comes to wait for the account lookup of the client's address. -/
theorem register_encode (accepted : verifyPreKeyBundle crypto
      { identity, signedPreKey := keys.signedPreKey, signedKemPreKey := keys.signedKemPreKey } = .ok ())
    {address : String} (haddress : addressOf crypto identity.signingPublicKey = .ok address) (relay : Relay) :
    relay.register crypto js (some (registration identity keys)) =
      relay.await (.request (.register (some (registration identity keys))))
        (.registering address (relay.store.getAccount address) (registration identity keys)) := by
  have hidentity : (registration identity keys).field "identity" = some (encodeIdentity identity) := rfl
  have htruthy : Json.truthy (some (encodeIdentity identity)) = true := rfl
  have hverify : verifyPublishedPreKeys crypto js
      { identity := some (encodeIdentity identity), signedPreKey := (registration identity keys).field "signedPreKey"
        signedKemPreKey := (registration identity keys).field "signedKemPreKey"
        oneTimePreKeys := (registration identity keys).field "oneTimePreKeys"
        oneTimeKemPreKeys := (registration identity keys).field "oneTimeKemPreKeys" } = .ok (.ok (address, identity)) :=
    verifyPublishedPreKeys_encode accepted haddress
  simp only [Relay.register, Option.bind_some, hidentity, htruthy, Bool.not_true, Bool.false_eq_true, if_false, hverify]

theorem perform_resume {origin : Origin} {handler : Handler} (relay : Relay) (random : Bytes) (now : Int) :
    (relay.await origin handler).perform crypto js (.resume relay.waiting.length random now) =
      relay.resume crypto js origin handler random now := by
  have hfound : (relay.await origin handler).waiting[relay.waiting.length]? = some (origin, handler) :=
    List.getElem?_concat_length
  have herased : (relay.await origin handler).waiting.eraseIdx relay.waiting.length = relay.waiting := by
    show (relay.waiting ++ [(origin, handler)]).eraseIdx relay.waiting.length = relay.waiting
    rw [List.eraseIdx_append_of_length_le (Nat.le_refl _), Nat.sub_self]
    exact List.append_nil _
  simp only [Relay.perform, hfound, herased]
  rfl

end

/-- Bob has published two one-time prekeys. -/
def bobRegistration : Json := registration (publicIdentityOf bob) (spelledStore bob 13 14 [15, 16] []).published

def built (limit : Int) : Relay := { sendLimiter := { limit, windowMs := 60000 } }

theorem bob_accepted : verifyPreKeyBundle spelled
    { identity := publicIdentityOf bob, signedPreKey := (spelledStore bob 13 14 [15, 16] []).published.signedPreKey
      signedKemPreKey := (spelledStore bob 13 14 [15, 16] []).published.signedKemPreKey } = .ok () := by
  decide +kernel

theorem bob_address : addressOf spelled (publicIdentityOf bob).signingPublicKey = .ok bobAddress := by decide +kernel

theorem bob_registers (relay : Relay) :
    relay.perform spelled plainNumbers (.request "10.0.0.1" (.register (some bobRegistration)) [] 0) =
      relay.await (.request (.register (some bobRegistration)))
        (.registering bobAddress (relay.store.getAccount bobAddress) bobRegistration) := by
  exact register_encode bob_accepted bob_address relay

/-- A relay that has made Bob's account. -/
def listed (limit : Int) : Relay :=
  ({ built limit with store := ({} : RelayStore).createAccount (accountRecord bobAddress bobRegistration) } : Relay).await
    (.request (.register (some bobRegistration))) (.registered bobAddress)

/-- A relay that has made an account for Bob's address from a registration. -/
def madeFor (limit : Int) (body : Json) : Relay :=
  ({ built limit with store := ({} : RelayStore).createAccount (accountRecord bobAddress body) } : Relay).await
    (.request (.register (some body))) (.registered bobAddress)

theorem madeFor_run {allowed : Relay → RelayMove → Prop} {limit : Int} {body : Json}
    (registers : (built limit).perform spelled plainNumbers (.request "10.0.0.1" (.register (some body)) [] 0) =
      (built limit).await (.request (.register (some body))) (.registering bobAddress none body))
    (asked : allowed (built limit) (.request "10.0.0.1" (.register (some body)) [] 0))
    (created : allowed ((built limit).await (.request (.register (some body))) (.registering bobAddress none body))
      (.resume 0 [] 0)) :
    Relation.ReflTransGen (Step spelled plainNumbers allowed) (built limit) (madeFor limit body) := by
  let waiting : Relay := (built limit).await (.request (.register (some body))) (.registering bobAddress none body)
  have hasked : Step spelled plainNumbers allowed (built limit) waiting :=
    ⟨.request "10.0.0.1" (.register (some body)) [] 0, trivial, asked, registers.symm⟩
  have hresumed : waiting.perform spelled plainNumbers (.resume 0 [] 0) =
      (built limit).resume spelled plainNumbers (.request (.register (some body))) (.registering bobAddress none body) [] 0 :=
    perform_resume (built limit) [] 0
  have hcreated : Step spelled plainNumbers allowed waiting (madeFor limit body) :=
    ⟨.resume 0 [] 0, Nat.one_pos, created, hresumed.symm⟩
  exact (Relation.ReflTransGen.single hasked).tail hcreated

theorem listed_run {allowed : Relay → RelayMove → Prop} {limit : Int}
    (asked : allowed (built limit) (.request "10.0.0.1" (.register (some bobRegistration)) [] 0))
    (created : allowed ((built limit).await (.request (.register (some bobRegistration)))
      (.registering bobAddress none bobRegistration)) (.resume 0 [] 0)) :
    Relation.ReflTransGen (Step spelled plainNumbers allowed) (built limit) (listed limit) :=
  madeFor_run (bob_registers (built limit)) asked created

end Relay

end Veil
