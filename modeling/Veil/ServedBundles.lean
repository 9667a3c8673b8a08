import Veil.Formats
import Veil.PreKeyPools

namespace Veil

namespace Relay

/-- A one-time prekey whose id may be anything. -/
structure WireOneTimePreKey where
  id : Option Json
  publicKey : Bytes

/-- A bundle as a client decodes it, before its ids are looked at. -/
structure WireBundle where
  identity : PublicIdentity
  signedPreKey : WireSignedPreKey
  signedKemPreKey : WireSignedPreKey
  oneTimePreKey : Option WireOneTimePreKey
  oneTimeKemPreKey : Option WireOneTimePreKey

section

variable (js : NumberText)

def decodeOneTimePreKey (wire : Json) : Except Failure WireOneTimePreKey := do
  let publicKey ← bytesOf js (wire.field "publicKey")
  return { id := wire.field "id", publicKey }

def decodeBundle (identity signedPreKey signedKemPreKey : Json) (oneTimePreKey oneTimeKemPreKey : Option Json) :
    Except Failure WireBundle := do
  let identity ← decodeIdentity js identity
  let signedPreKey ← decodeSignedPreKey js signedPreKey
  let signedKemPreKey ← decodeSignedPreKey js signedKemPreKey
  let oneTimePreKey ← (oneTimePreKey.filter (fun key => Json.truthy (some key))).mapM (decodeOneTimePreKey js)
  let oneTimeKemPreKey ← (oneTimeKemPreKey.filter (fun key => Json.truthy (some key))).mapM (decodeOneTimePreKey js)
  return { identity, signedPreKey, signedKemPreKey, oneTimePreKey, oneTimeKemPreKey }

end

/-- The key, if its id is an integer. -/
def WireSignedPreKey.typed (key : WireSignedPreKey) : Option SignedPreKey :=
  (key.id.bind Json.integer?).map (fun id => { id, publicKey := key.publicKey, signature := key.signature })

def WireOneTimePreKey.typed (key : WireOneTimePreKey) : Option OneTimePreKey :=
  (key.id.bind Json.integer?).map (fun id => { id, publicKey := key.publicKey })

/-- The bundle, if its ids are integers. -/
def WireBundle.typed (bundle : WireBundle) : Option PreKeyBundle := do
  let signedPreKey ← bundle.signedPreKey.typed
  let signedKemPreKey ← bundle.signedKemPreKey.typed
  let oneTimePreKey ← bundle.oneTimePreKey.mapM WireOneTimePreKey.typed
  let oneTimeKemPreKey ← bundle.oneTimeKemPreKey.mapM WireOneTimePreKey.typed
  return { identity := bundle.identity, signedPreKey, signedKemPreKey, oneTimePreKey, oneTimeKemPreKey }

end Relay

/-- The ids of a bundle can be written as `u32`. -/
structure PreKeyBundle.InRange (bundle : PreKeyBundle) : Prop where
  signedPreKey : IdInRange bundle.signedPreKey.id
  signedKemPreKey : IdInRange bundle.signedKemPreKey.id
  oneTimePreKey : ∀ key ∈ bundle.oneTimePreKey, IdInRange key.id
  oneTimeKemPreKey : ∀ key ∈ bundle.oneTimeKemPreKey, IdInRange key.id

section

variable {K : Type}

/-- The primitives take the keys of a bundle, and what goes into the transcript besides has a length that can be written. -/
structure Agrees (crypto : Cryptography K) (me : PrivateIdentity K) (bundle : PreKeyBundle) (ephemeral : KeyPair K)
    (coins : Bytes) : Prop where
  signing : me.signing.publicKey.length < 2 ^ 32
  exchange : me.exchange.publicKey.length < 2 ^ 32
  ephemeralDh : ∀ key ∈ bundle.identity.exchangePublicKey :: bundle.signedPreKey.publicKey ::
    (bundle.oneTimePreKey.map (fun key => key.publicKey)).toList, ∃ shared, crypto.dh ephemeral.secretKey key = .ok shared
  ephemeralLength : ephemeral.publicKey.length < 2 ^ 32
  encapsulates : ∃ ciphertext secret, crypto.kemEncapsulate coins
    ((bundle.oneTimeKemPreKey.map (fun key => key.publicKey)).getD bundle.signedKemPreKey.publicKey) = .ok (ciphertext, secret) ∧
      ciphertext.length < 2 ^ 32
  dh : ∃ shared, crypto.dh me.exchange.secretKey bundle.signedPreKey.publicKey = .ok shared

/-- A bundle that verifies, with ids in range, fails no handshake in which the primitives take its keys. -/
structure Usable (crypto : Cryptography K) (bundle : PreKeyBundle) : Prop where
  verifies : verifyPreKeyBundle crypto bundle = .ok ()
  ids : bundle.InRange
  initiates : ∀ self ephemeral coins, Agrees crypto self bundle ephemeral coins →
    ∃ handshake, initiateHandshake crypto self bundle ephemeral coins = .ok handshake

variable {crypto : Cryptography K}

theorem verifyIdentityBinding_lengths {identity : PublicIdentity} (h : verifyIdentityBinding crypto identity = .ok true) :
    identity.signingPublicKey.length = ed25519PublicLen ∧ identity.exchangePublicKey.length = x25519PublicLen := by
  unfold verifyIdentityBinding at h
  by_cases hsigning : identity.signingPublicKey.length = ed25519PublicLen
  · by_cases hexchange : identity.exchangePublicKey.length = x25519PublicLen
    · exact ⟨hsigning, hexchange⟩
    · simp [hsigning, hexchange, Pure.pure, Except.pure] at h
  · simp [hsigning, Pure.pure, Except.pure] at h

theorem handshakeTranscript_ok {initiator responder : PublicIdentity} {ephemeral ciphertext : Bytes} {keyIds : HandshakeKeyIds}
    (hinitiator : initiator.signingPublicKey.length < 2 ^ 32 ∧ initiator.exchangePublicKey.length < 2 ^ 32)
    (hresponder : responder.signingPublicKey.length < 2 ^ 32 ∧ responder.exchangePublicKey.length < 2 ^ 32)
    (hephemeral : ephemeral.length < 2 ^ 32) (hciphertext : ciphertext.length < 2 ^ 32)
    (hsigned : IdInRange keyIds.signedPreKeyId) (hkem : IdInRange keyIds.signedKemPreKeyId)
    (honeTime : ∀ id ∈ keyIds.oneTimePreKeyId, IdInRange id) (honeTimeKem : ∀ id ∈ keyIds.oneTimeKemPreKeyId, IdInRange id) :
    ∃ transcript, handshakeTranscript initiator responder ephemeral ciphertext keyIds = .ok transcript := by
  simp only [handshakeTranscript, Writer.keyIds, Outcome.bind_eq_ok_iff, Outcome.pure_eq_ok_iff, Writer.bytes_eq_ok_iff,
    Writer.u32_eq_ok_iff]
  obtain ⟨w, hw⟩ := optionalId_ok _ honeTime
  obtain ⟨w', hw'⟩ := optionalId_ok w honeTimeKem
  have htop : keyIds.signedPreKeyId ≤ 0xffffffff := by
    have := hsigned.2
    omega
  have htopKem : keyIds.signedKemPreKeyId ≤ 0xffffffff := by
    have := hkem.2
    omega
  exact ⟨_, _, ⟨hinitiator.1, rfl⟩, _, ⟨hinitiator.2, rfl⟩, _, ⟨hresponder.1, rfl⟩, _, ⟨hresponder.2, rfl⟩, _,
    ⟨hephemeral, rfl⟩, _, ⟨hciphertext, rfl⟩, _, ⟨_, ⟨hsigned.1, htop, rfl⟩, _, ⟨hkem.1, htopKem, rfl⟩, w, hw, hw'⟩, rfl⟩

theorem associatedData_ok {initiator responder : PublicIdentity}
    (hinitiator : initiator.signingPublicKey.length < 2 ^ 32 ∧ initiator.exchangePublicKey.length < 2 ^ 32)
    (hresponder : responder.signingPublicKey.length < 2 ^ 32 ∧ responder.exchangePublicKey.length < 2 ^ 32) :
    ∃ ad, associatedData initiator responder = .ok ad := by
  simp only [associatedData, Outcome.bind_eq_ok_iff, Outcome.pure_eq_ok_iff, Writer.bytes_eq_ok_iff]
  exact ⟨_, _, ⟨hinitiator.1, rfl⟩, _, ⟨hinitiator.2, rfl⟩, _, ⟨hresponder.1, rfl⟩, _, ⟨hresponder.2, rfl⟩, rfl⟩

theorem verifyPreKeyBundle_identity {bundle : PreKeyBundle} (h : verifyPreKeyBundle crypto bundle = .ok ()) :
    verifyIdentityBinding crypto bundle.identity = .ok true := by
  unfold verifyPreKeyBundle at h
  obtain ⟨verified, hverified, h⟩ := Outcome.bind_eq_ok_iff.mp h
  cases verified with
  | true => exact hverified
  | false => cases h

theorem initiateHandshake_ok {self : PrivateIdentity K} {bundle : PreKeyBundle} {ephemeral : KeyPair K} {coins : Bytes}
    (verifies : verifyPreKeyBundle crypto bundle = .ok ()) (ids : bundle.InRange)
    (agrees : Agrees crypto self bundle ephemeral coins) :
    ∃ handshake, initiateHandshake crypto self bundle ephemeral coins = .ok handshake := by
  obtain ⟨hsigning, hexchange⟩ := verifyIdentityBinding_lengths (verifyPreKeyBundle_identity verifies)
  obtain ⟨ciphertext, secret, hencapsulate, hciphertext⟩ := agrees.encapsulates
  obtain ⟨dh1, hdh1⟩ := agrees.dh
  obtain ⟨dh2, hdh2⟩ := agrees.ephemeralDh bundle.identity.exchangePublicKey (by simp)
  obtain ⟨dh3, hdh3⟩ := agrees.ephemeralDh bundle.signedPreKey.publicKey (by simp)
  have hdh4 : ∃ dh4, bundle.oneTimePreKey.mapM (fun key => crypto.dh ephemeral.secretKey key.publicKey) = .ok dh4 := by
    cases honeTime : bundle.oneTimePreKey with
    | none => exact ⟨none, rfl⟩
    | some key =>
      obtain ⟨dh4, hdh4⟩ := agrees.ephemeralDh key.publicKey (by simp [honeTime])
      refine ⟨some dh4, ?_⟩
      rw [Option.mapM_some, hdh4]
      rfl
  obtain ⟨dh4, hdh4⟩ := hdh4
  have hself : (publicIdentityOf self).signingPublicKey.length < 2 ^ 32 ∧
      (publicIdentityOf self).exchangePublicKey.length < 2 ^ 32 := ⟨agrees.signing, agrees.exchange⟩
  have hpeer : bundle.identity.signingPublicKey.length < 2 ^ 32 ∧ bundle.identity.exchangePublicKey.length < 2 ^ 32 := by
    rw [hsigning, hexchange]
    decide
  have hidsOneTime : ∀ id ∈ bundle.oneTimePreKey.map (fun key => key.id), IdInRange id := by
    intro id hid
    obtain ⟨key, hkey, rfl⟩ := Option.map_eq_some_iff.mp hid
    exact ids.oneTimePreKey key hkey
  have hidsOneTimeKem : ∀ id ∈ bundle.oneTimeKemPreKey.map (fun key => key.id), IdInRange id := by
    intro id hid
    obtain ⟨key, hkey, rfl⟩ := Option.map_eq_some_iff.mp hid
    exact ids.oneTimeKemPreKey key hkey
  let keyIds : HandshakeKeyIds :=
    { signedPreKeyId := bundle.signedPreKey.id, signedKemPreKeyId := bundle.signedKemPreKey.id,
      oneTimePreKeyId := bundle.oneTimePreKey.map (fun key => key.id),
      oneTimeKemPreKeyId := bundle.oneTimeKemPreKey.map (fun key => key.id) }
  have htranscript : ∃ transcript, handshakeTranscript (publicIdentityOf self) bundle.identity ephemeral.publicKey ciphertext
      keyIds = .ok transcript :=
    handshakeTranscript_ok hself hpeer agrees.ephemeralLength hciphertext ids.signedPreKey ids.signedKemPreKey hidsOneTime
      hidsOneTimeKem
  obtain ⟨transcript, htranscript⟩ := htranscript
  obtain ⟨ad, had⟩ := associatedData_ok hself hpeer
  unfold initiateHandshake
  simp only [Outcome.bind_eq_ok_iff, Outcome.pure_eq_ok_iff]
  exact ⟨_, (), verifies, (ciphertext, secret), hencapsulate, dh1, hdh1, dh2, hdh2, dh3, hdh3, dh4, hdh4, transcript,
    htranscript, ad, had, rfl⟩

theorem Usable.of_ids {bundle : PreKeyBundle} (verifies : verifyPreKeyBundle crypto bundle = .ok ()) (ids : bundle.InRange) :
    Usable crypto bundle :=
  ⟨verifies, ids, fun _ _ _ agrees => initiateHandshake_ok verifies ids agrees⟩

end

namespace Relay

section

variable {K : Type} (crypto : Cryptography K) (js : NumberText)

/-- A signed prekey that can be decoded and verifies under a signing key. -/
def Vouched (context : Int) (name : String) (length : Nat) (signingKey : Bytes) (wire : Json) : Prop :=
  ∃ key, decodeSignedPreKey js wire = .ok key ∧ verifyWireSigned crypto js context name length signingKey key = .ok ()

def VouchedClassical : Bytes → Json → Prop := Vouched crypto js sigContextSignedPreKey "signed prekey" x25519PublicLen

def VouchedKem : Bytes → Json → Prop := Vouched crypto js sigContextKemPreKey "signed ML-KEM prekey" mlkemPublicLen

/-- A one-time prekey whose key has the length of its kind and whose id is a `u32`. -/
def WellMade (kind : KeyKind) (key : Json) : Prop :=
  ∃ id bytes, keyOf key = some (id, bytes) ∧ IdInRange id ∧ bytes.length = kind.pick x25519PublicLen mlkemPublicLen

/-- A record that makes usable bundles. -/
structure Servable (account : AccountRecord) : Prop where
  signed : ∃ identity, decodeIdentity js account.identity = .ok identity ∧ verifyIdentityBinding crypto identity = .ok true ∧
    addressOf crypto identity.signingPublicKey = .ok account.address ∧
      VouchedClassical crypto js identity.signingPublicKey account.signedPreKey ∧
        VouchedKem crypto js identity.signingPublicKey account.signedKemPreKey
  pools : ∀ kind, ∀ key ∈ (account.pool kind).values, WellMade kind key

/-- A bundle that a client decodes and can use, of the identity whose address it asked for. -/
def Takes (asked : String) (identity signedPreKey signedKemPreKey : Json) (oneTimePreKey oneTimeKemPreKey : Option Json) : Prop :=
  ∃ wire bundle, decodeBundle js identity signedPreKey signedKemPreKey oneTimePreKey oneTimeKemPreKey = .ok wire ∧
    wire.typed = some bundle ∧ Usable crypto bundle ∧ addressOf crypto bundle.identity.signingPublicKey = .ok asked

end

section

variable {K : Type} {crypto : Cryptography K} {js : NumberText}

theorem verifySigned_id {context : Int} {name : String} {length : Nat} {signingKey : Bytes} {key : SignedPreKey}
    (h : verifySigned crypto context name length signingKey key = .ok ()) : IdInRange key.id := by
  unfold verifySigned at h
  split at h
  next => cases h
  next =>
    obtain ⟨transcript, htranscript, _⟩ := Outcome.bind_eq_ok_iff.mp h
    obtain ⟨_, _, hlow, hhigh, _⟩ := signingTranscript_eq_ok htranscript
    exact ⟨hlow, by omega⟩

/-- A signed prekey that is vouched for has an id that can be written. -/
theorem Vouched.typed {context : Int} {name : String} {length : Nat} {signingKey : Bytes} {wire : Json}
    (h : Vouched crypto js context name length signingKey wire) :
    ∃ key signed, decodeSignedPreKey js wire = .ok key ∧ key.typed = some signed ∧
      verifySigned crypto context name length signingKey signed = .ok () ∧ IdInRange signed.id := by
  obtain ⟨key, hdecoded, hverified⟩ := h
  unfold verifyWireSigned at hverified
  cases hid : key.id.bind Json.integer? with
  | none =>
    simp only [hid] at hverified
    split at hverified
    next => cases hverified
    next =>
      obtain ⟨text, _, hthrown⟩ := Outcome.bind_eq_ok_iff.mp hverified
      cases hthrown
  | some id =>
    rw [hid] at hverified
    exact ⟨key, _, hdecoded, by rw [WireSignedPreKey.typed, hid]; rfl, hverified, verifySigned_id hverified⟩

/-- A one-time prekey that is well made is decoded, and is none of the values that count as missing. -/
theorem WellMade.decoded {kind : KeyKind} {key : Json} (h : WellMade kind key) (js : NumberText) :
    ∃ wire oneTime, decodeOneTimePreKey js key = .ok wire ∧ wire.typed = some oneTime ∧
      Json.truthy (some key) = true ∧ IdInRange oneTime.id ∧
      oneTime.publicKey.length = kind.pick x25519PublicLen mlkemPublicLen := by
  obtain ⟨id, bytes, hkey, hid, hlength⟩ := h
  simp only [keyOf, Option.bind_eq_bind, Option.bind_eq_some_iff, Option.pure_def, Option.some.injEq, Prod.mk.injEq] at hkey
  obtain ⟨id', hid', text, htext, bytes', hbytes, rfl, rfl⟩ := hkey
  obtain ⟨value, hfield, hvalue⟩ := htext
  have hstr : value = .str text := by
    cases value <;> simp_all [Json.text?]
  subst hstr
  have hread : fromBase64Url text = .ok bytes' := by
    cases hfrom : fromBase64Url text with
    | error e => rw [hfrom] at hbytes; cases hbytes
    | ok read => rw [hfrom] at hbytes; rw [Option.some.inj hbytes]
  refine ⟨⟨key.field "id", bytes'⟩, ⟨id', bytes'⟩, ?_, ?_, ?_, hid, hlength⟩
  · rw [decodeOneTimePreKey, hfield]
    show (fromBase64Url text >>= fun publicKey => _) = _
    rw [hread]
    rfl
  · obtain ⟨value, hidField, hinteger⟩ := hid'
    rw [WireOneTimePreKey.typed, hidField, Option.bind_some, hinteger]
    rfl
  · cases key with
    | obj fields => rfl
    | _ => cases hfield

theorem decodeOptional {kind : KeyKind} {taken : Option Json} (h : ∀ key ∈ taken, WellMade kind key) (js : NumberText) :
    ∃ wire oneTime, (taken.filter (fun key => Json.truthy (some key))).mapM (decodeOneTimePreKey js) = .ok wire ∧
      wire.mapM WireOneTimePreKey.typed = some oneTime ∧ (∀ key ∈ oneTime, IdInRange key.id) ∧
      oneTime.any (fun key => key.publicKey.length ≠ kind.pick x25519PublicLen mlkemPublicLen) = false := by
  cases taken with
  | none => exact ⟨none, none, rfl, rfl, nofun, rfl⟩
  | some key =>
    obtain ⟨wire, oneTime, hdecoded, htyped, htruthy, hid, hlength⟩ := (h key rfl).decoded js
    refine ⟨some wire, some oneTime, ?_, ?_, ?_, ?_⟩
    · rw [Option.filter_some, htruthy, if_pos rfl, Option.mapM_some, hdecoded]
      rfl
    · rw [Option.mapM_some, htyped]
      rfl
    · rintro _ ⟨rfl⟩
      exact hid
    · simp [hlength]

/-- What a record that can be served hands out with well made one-time prekeys. -/
theorem Servable.takes {account : AccountRecord} (h : Servable crypto js account) {oneTimePreKey oneTimeKemPreKey : Option Json}
    (hclassical : ∀ key ∈ oneTimePreKey, WellMade .classical key) (hkem : ∀ key ∈ oneTimeKemPreKey, WellMade .kem key) :
    Takes crypto js account.address account.identity account.signedPreKey account.signedKemPreKey
      (oneTimePreKey.filter (fun key => Json.truthy (some key)))
      (oneTimeKemPreKey.filter (fun key => Json.truthy (some key))) := by
  obtain ⟨identity, hidentity, hbound, haddress, hsigned, hsignedKem⟩ := h.signed
  obtain ⟨key, signed, hdecoded, htyped, hverified, hid⟩ := hsigned.typed
  obtain ⟨kemKey, kemSigned, hkemDecoded, hkemTyped, hkemVerified, hkemId⟩ := hsignedKem.typed
  have hmem (taken : Option Json) : ∀ key ∈ taken.filter (fun key => Json.truthy (some key)), key ∈ taken :=
    fun key hkey => (Option.mem_filter_iff.mp hkey).1
  obtain ⟨wire, oneTime, hwire, honeTime, hids, hlengths⟩ := decodeOptional (fun key hkey => hclassical key (hmem _ key hkey)) js
  obtain ⟨kemWire, oneTimeKem, hkemWire, honeTimeKem, hkemIds, hkemLengths⟩ :=
    decodeOptional (fun key hkey => hkem key (hmem _ key hkey)) js
  let wireBundle : WireBundle := ⟨identity, key, kemKey, wire, kemWire⟩
  let bundle : PreKeyBundle :=
    { identity, signedPreKey := signed, signedKemPreKey := kemSigned, oneTimePreKey := oneTime, oneTimeKemPreKey := oneTimeKem }
  have hread : decodeBundle js account.identity account.signedPreKey account.signedKemPreKey
      (oneTimePreKey.filter (fun key => Json.truthy (some key)))
      (oneTimeKemPreKey.filter (fun key => Json.truthy (some key))) = .ok wireBundle := by
    unfold decodeBundle
    simp only [hidentity, hdecoded, hkemDecoded, hwire, hkemWire, Outcome.ok_bind]
    rfl
  have hbundle : wireBundle.typed = some bundle := by
    unfold WireBundle.typed
    simp only [wireBundle, htyped, hkemTyped, honeTime, honeTimeKem, Option.bind_eq_bind, Option.bind_some]
    rfl
  have hverifies : verifyPreKeyBundle crypto bundle = .ok () := by
    unfold verifyPreKeyBundle
    simp only [bundle, hbound, hverified, hkemVerified, Outcome.ok_bind]
    have hlength : oneTime.any (fun key => key.publicKey.length ≠ x25519PublicLen) = false := hlengths
    have hkemLength : oneTimeKem.any (fun key => key.publicKey.length ≠ mlkemPublicLen) = false := hkemLengths
    rw [hlength, hkemLength]
    rfl
  exact ⟨wireBundle, bundle, hread, hbundle, .of_ids hverifies ⟨hid, hkemId, hids, hkemIds⟩, haddress⟩

end

end Relay

namespace RelayStore

variable {store : RelayStore} {address : String}

/-- What holds of every record still does if it does of the one that is changed. -/
theorem forall_modifyAccount {P : AccountRecord → Prop} {f : AccountRecord → AccountRecord}
    (h : ∀ account ∈ store.records, P account) (changed : ∀ account, store.recordOf address = some account → P (f account)) :
    ∀ account ∈ (store.modifyAccount address f).records, P account := by
  intro account hmem
  unfold modifyAccount at hmem
  cases hplace : store.getAccount address with
  | none =>
    rw [hplace] at hmem
    exact h account hmem
  | some place =>
    rw [hplace] at hmem
    obtain ⟨i, hi⟩ := List.mem_iff_getElem?.mp hmem
    rw [Option.elim_some, List.getElem?_modify] at hi
    obtain ⟨found, hfound, heq⟩ := Option.map_eq_some_iff.mp hi
    by_cases hsame : place = i
    · rw [if_pos hsame] at heq
      rw [← heq]
      apply changed
      rw [recordOf, hplace, Option.bind_some, hsame]
      exact hfound
    · rw [if_neg hsame] at heq
      rw [← heq]
      exact h found (List.mem_of_getElem? hfound)

theorem mem_records_of_recordOf {account : AccountRecord} (h : store.recordOf address = some account) :
    account ∈ store.records := by
  obtain ⟨place, _, hfound⟩ := Option.bind_eq_some_iff.mp h
  exact List.mem_of_getElem? hfound

end RelayStore

namespace Relay

section

variable {K : Type} {crypto : Cryptography K} {js : NumberText} {store : RelayStore} {address : String}

/-- The pools of a record change. -/
theorem Servable.repool {account changed : AccountRecord} (h : Servable crypto js account)
    (same : changed.address = account.address ∧ changed.identity = account.identity ∧
      changed.signedPreKey = account.signedPreKey ∧ changed.signedKemPreKey = account.signedKemPreKey)
    (pools : ∀ kind, ∀ key ∈ (changed.pool kind).values, WellMade kind key) : Servable crypto js changed := by
  obtain ⟨haddress, hidentity, hsigned, hkem⟩ := same
  refine ⟨?_, pools⟩
  rw [haddress, hidentity, hsigned, hkem]
  exact h.signed

theorem servable_takeOneTimePreKeys (h : ∀ account ∈ store.records, Servable crypto js account) :
    ∀ account ∈ (store.takeOneTimePreKeys address).1.records, Servable crypto js account := by
  unfold RelayStore.takeOneTimePreKeys
  cases hrecord : store.recordOf address with
  | none =>
    have hfound : (store.getAccount address).bind (fun place => store.records[place]?) = none := hrecord
    rw [hfound]
    exact h
  | some account =>
    have hfound : (store.getAccount address).bind (fun place => store.records[place]?) = some account := hrecord
    have hservable := h account (RelayStore.mem_records_of_recordOf hrecord)
    rw [hfound]
    dsimp only
    cases hshifted : shifted account.oneTimePreKeys with
    | error e => exact h
    | ok shift =>
      obtain ⟨key, left⟩ := shift
      have hleft : ∀ key ∈ left.values, WellMade .classical key := by
        intro key' hmem
        apply hservable.pools .classical
        show key' ∈ account.oneTimePreKeys.values
        rw [values_shifted hshifted]
        exact List.mem_append_right _ hmem
      have hfirst : ∀ changed ∈ (store.modifyAccount address (fun account => { account with oneTimePreKeys := left })).records,
          Servable crypto js changed := by
        refine RelayStore.forall_modifyAccount h fun found hmodified => ?_
        obtain rfl := Option.some.inj (hrecord.symm.trans hmodified)
        refine hservable.repool ⟨rfl, rfl, rfl, rfl⟩ fun kind => ?_
        cases kind with
        | classical => exact hleft
        | kem => exact hservable.pools .kem
      cases hkem : shifted account.oneTimeKemPreKeys with
      | error e => exact hfirst
      | ok kemShift =>
        obtain ⟨kemKey, kemLeft⟩ := kemShift
        refine RelayStore.forall_modifyAccount hfirst fun found hmodified => ?_
        rw [RelayStore.recordOf_modifyAccount, hrecord, Option.map_some] at hmodified
        obtain rfl := Option.some.inj hmodified
        refine hservable.repool ⟨rfl, rfl, rfl, rfl⟩ fun kind => ?_
        cases kind with
        | classical => exact hleft
        | kem =>
          intro key' hmem
          apply hservable.pools .kem
          show key' ∈ account.oneTimeKemPreKeys.values
          rw [values_shifted hkem]
          exact List.mem_append_right _ hmem

/-- What is put into the pool of a kind by an upload, beyond what was there. -/
def added (kind : KeyKind) (update : PreKeyUpdate) (account : AccountRecord) : List Json :=
  ((kind.pick update.oneTimePreKeys update.oneTimeKemPreKeys).elim [] Json.values).take
    (maxOneTimePreKeys - (account.pool kind).values.length)

theorem servable_updatePreKeys {update : PreKeyUpdate} (h : ∀ account ∈ store.records, Servable crypto js account)
    (vouched : ∀ account identity, store.recordOf address = some account → decodeIdentity js account.identity = .ok identity →
      (∀ wire ∈ update.signedPreKey, VouchedClassical crypto js identity.signingPublicKey wire) ∧
        ∀ wire ∈ update.signedKemPreKey, VouchedKem crypto js identity.signingPublicKey wire)
    (entering : ∀ account, store.recordOf address = some account → ∀ kind, ∀ key ∈ added kind update account, WellMade kind key) :
    ∀ account ∈ (store.updatePreKeys address update).1.records, Servable crypto js account := by
  simp only [RelayStore.updatePreKeys]
  cases hrecord : store.recordOf address with
  | none =>
    have hfound : (store.getAccount address).bind (fun place => store.records[place]?) = none := hrecord
    rw [hfound]
    exact h
  | some account =>
    have hfound : (store.getAccount address).bind (fun place => store.records[place]?) = some account := hrecord
    have hservable := h account (RelayStore.mem_records_of_recordOf hrecord)
    rw [hfound]
    dsimp only
    let signed : AccountRecord → AccountRecord := fun account => { account with
      signedPreKey := update.signedPreKey.getD account.signedPreKey
      signedKemPreKey := update.signedKemPreKey.getD account.signedKemPreKey }
    have hsignedAccount : Servable crypto js (signed account) := by
      obtain ⟨identity, hidentity, hbound, haddress, hclassical, hkem⟩ := hservable.signed
      obtain ⟨hnew, hnewKem⟩ := vouched account identity hrecord hidentity
      refine ⟨⟨identity, hidentity, hbound, haddress, ?_, ?_⟩, fun kind => ?_⟩
      · show VouchedClassical crypto js _ (update.signedPreKey.getD account.signedPreKey)
        cases hwire : update.signedPreKey with
        | none => exact hclassical
        | some wire => exact hnew wire hwire
      · show VouchedKem crypto js _ (update.signedKemPreKey.getD account.signedKemPreKey)
        cases hwire : update.signedKemPreKey with
        | none => exact hkem
        | some wire => exact hnewKem wire hwire
      · cases kind with
        | classical => exact hservable.pools .classical
        | kem => exact hservable.pools .kem
    have hfirst : ∀ changed ∈ (store.modifyAccount address signed).records, Servable crypto js changed := by
      refine RelayStore.forall_modifyAccount h fun found hmodified => ?_
      obtain rfl := Option.some.inj (hrecord.symm.trans hmodified)
      exact hsignedAccount
    have hsigned : (store.modifyAccount address signed).recordOf address = some (signed account) := by
      rw [RelayStore.recordOf_modifyAccount, hrecord]
      rfl
    cases hpooled : update.oneTimePreKeys.elim (.ok account.oneTimePreKeys) (pooled account.oneTimePreKeys) with
    | error e => exact hfirst
    | ok both =>
      have hboth : ∀ key ∈ both.values, WellMade .classical key := by
        intro key hmem
        rcases List.mem_append.mp ((RelayStore.values_uploaded hpooled).subset hmem) with hold | hnew
        · exact hservable.pools .classical key hold
        · exact entering account hrecord .classical key hnew
      have hsecond : ∀ changed ∈ ((store.modifyAccount address signed).modifyAccount address
          (fun account => { account with oneTimePreKeys := both })).records, Servable crypto js changed := by
        refine RelayStore.forall_modifyAccount hfirst fun found hmodified => ?_
        obtain rfl := Option.some.inj (hsigned.symm.trans hmodified)
        refine hsignedAccount.repool ⟨rfl, rfl, rfl, rfl⟩ fun kind => ?_
        cases kind with
        | classical => exact hboth
        | kem => exact hservable.pools .kem
      cases hkem : update.oneTimeKemPreKeys.elim (.ok account.oneTimeKemPreKeys) (pooled account.oneTimeKemPreKeys) with
      | error e => exact hsecond
      | ok kemBoth =>
        refine RelayStore.forall_modifyAccount hsecond fun found hmodified => ?_
        rw [RelayStore.recordOf_modifyAccount, hsigned, Option.map_some] at hmodified
        obtain rfl := Option.some.inj hmodified
        refine hsignedAccount.repool ⟨rfl, rfl, rfl, rfl⟩ fun kind => ?_
        cases kind with
        | classical => exact hboth
        | kem =>
          intro key hmem
          rcases List.mem_append.mp ((RelayStore.values_uploaded hkem).subset hmem) with hold | hnew
          · exact hservable.pools .kem key hold
          · exact entering account hrecord .kem key hnew

end

section

variable {K : Type} (crypto : Cryptography K) (js : NumberText)

/-- The signing key of an identity that can be decoded. -/
def signingKeyOf (wire : Json) : Option Bytes :=
  (decodeIdentity js wire).toOption.map (fun identity => identity.signingPublicKey)

/-- A handler that fetches or uploads has found the account it names, and has taken well made keys. -/
def Minds (store : RelayStore) : Origin × Handler → Prop
  | (origin, .fetchingKeys (some place)) =>
    ∃ asked, origin = .request (.fetchKeys asked) ∧ store.addressAt place = some asked
  | (origin, .takingKeys place taken) =>
    ∃ asked, origin = .request (.fetchKeys asked) ∧ store.addressAt place = some asked ∧
      ∀ kind, ∀ key ∈ takenKey kind taken, WellMade kind key
  | (_, .uploading address (some place) _) => store.addressAt place = some address
  | _ => True

/-- Every record makes usable bundles, records of one address have one signing key, and every bundle that was let out
is usable. -/
structure Serving (relay : Relay) : Prop where
  filed : Filed crypto js relay
  servable : ∀ account ∈ relay.store.records, Servable crypto js account
  alike : ∀ named ∈ relay.store.identities, ∀ other ∈ relay.store.identities, named.1 = other.1 →
    signingKeyOf js named.2 = signingKeyOf js other.2
  waiting : ∀ item ∈ relay.waiting, Minds relay.store item
  served : ∀ request identity signedPreKey signedKemPreKey oneTimePreKey oneTimeKemPreKey,
    Sent.response request (.bundle identity signedPreKey signedKemPreKey oneTimePreKey oneTimeKemPreKey) ∈ relay.sent →
      ∃ asked, request = .fetchKeys asked ∧
        Takes crypto js asked identity signedPreKey signedKemPreKey oneTimePreKey oneTimeKemPreKey

/-- The one-time prekeys that enter a pool are well made, and an account is made for no address that another signing
key has. -/
def Sound (relay : Relay) (move : RelayMove) : Prop :=
  ∀ index random now request handler, move = .resume index random now →
    relay.waiting[index]? = some (.request request, handler) →
      (∀ kind address, ∀ key ∈ entering crypto js kind address relay handler, WellMade kind key) ∧
        ∀ address body, handler = .registering address none body → ∀ named ∈ relay.store.identities, named.1 = address →
          signingKeyOf js named.2 = signingKeyOf js (accountRecord address body).identity

end

section

variable {K : Type} {crypto : Cryptography K} {js : NumberText} {relay : Relay}

theorem verifyPublishedBundle_eq_ok {identity : PublicIdentity} {signedPreKey signedKemPreKey : Json}
    (h : verifyPublishedBundle crypto js identity signedPreKey signedKemPreKey = .ok ()) :
    verifyIdentityBinding crypto identity = .ok true ∧ VouchedClassical crypto js identity.signingPublicKey signedPreKey ∧
      VouchedKem crypto js identity.signingPublicKey signedKemPreKey := by
  unfold verifyPublishedBundle at h
  obtain ⟨key, hkey, h⟩ := Outcome.bind_eq_ok_iff.mp h
  obtain ⟨kemKey, hkemKey, h⟩ := Outcome.bind_eq_ok_iff.mp h
  obtain ⟨bound, hbound, h⟩ := Outcome.bind_eq_ok_iff.mp h
  cases bound with
  | false => cases h
  | true =>
    obtain ⟨_, hverified, hkemVerified⟩ := Outcome.bind_eq_ok_iff.mp h
    exact ⟨hbound, ⟨key, hkey, hverified⟩, kemKey, hkemKey, hkemVerified⟩

theorem Minds.mono {store next : RelayStore} {item : Origin × Handler} (h : Minds store item)
    (stays : ∀ place address, store.addressAt place = some address → next.addressAt place = some address) :
    Minds next item := by
  obtain ⟨origin, handler⟩ := item
  cases handler with
  | fetchingKeys place =>
    cases place with
    | none => exact h
    | some place =>
      obtain ⟨asked, horigin, hplace⟩ := h
      exact ⟨asked, horigin, stays _ _ hplace⟩
  | takingKeys place taken =>
    obtain ⟨asked, horigin, hplace, hkeys⟩ := h
    exact ⟨asked, horigin, stays _ _ hplace, hkeys⟩
  | uploading address place body =>
    cases place with
    | none => exact h
    | some place => exact stays _ _ h
  | _ => exact h

theorem Minds.of_opens (filed : Filed crypto js relay) {item : Origin × Handler} (h : Opens crypto js relay item) :
    Minds relay.store item := by
  obtain ⟨origin, handler⟩ := item
  cases handler with
  | fetchingKeys place =>
    obtain ⟨asked, horigin, hplace⟩ := h
    cases place with
    | none => trivial
    | some place => exact ⟨asked, horigin, filed.placed asked place hplace.symm⟩
  | takingKeys place taken => cases h
  | uploading address place body =>
    cases place with
    | none => trivial
    | some place => exact filed.placed address place (Eq.symm h)
  | _ => trivial

theorem Serving.start (h : Start relay) : Serving crypto js relay := by
  have hfiled : Filed crypto js relay := .start h
  obtain ⟨limit, rfl⟩ := h
  exact ⟨hfiled, List.forall_mem_nil _, List.forall_mem_nil _, List.forall_mem_nil _, nofun⟩

/-- The record that a registration makes. -/
theorem servable_accountRecord {address : String} {body : Json} {identity : PublicIdentity}
    (h : verifyPublishedPreKeys crypto js (published body) = .ok (.ok (address, identity)))
    (entering : ∀ kind, ∀ key ∈ ((accountRecord address body).pool kind).values, WellMade kind key) :
    Servable crypto js (accountRecord address body) := by
  obtain ⟨wire, signedPreKey, signedKemPreKey, _, _, hwire, hdecoded, hsigned, hkem, hbundle, _, _, _, _, haddress⟩ :=
    verifyPublishedPreKeys_eq_ok h
  obtain ⟨hbound, hvouched, hkemVouched⟩ := verifyPublishedBundle_eq_ok hbundle
  have hidentityField : body.field "identity" = some wire := hwire
  have hsignedField : body.field "signedPreKey" = some signedPreKey := (Option.filter_eq_some_iff.mp hsigned).1
  have hkemField : body.field "signedKemPreKey" = some signedKemPreKey := (Option.filter_eq_some_iff.mp hkem).1
  refine ⟨⟨identity, ?_, hbound, haddress, ?_, ?_⟩, entering⟩
  · show decodeIdentity js ((body.field "identity").getD .null) = _
    rw [hidentityField]
    exact hdecoded
  · show VouchedClassical crypto js _ ((body.field "signedPreKey").getD .null)
    rw [hsignedField]
    exact hvouched
  · show VouchedKem crypto js _ ((body.field "signedKemPreKey").getD .null)
    rw [hkemField]
    exact hkemVouched

/-- What an upload that is taken puts in the place of signed prekeys is vouched for by the identity it was checked with. -/
theorem vouched_uploaded {account : AccountRecord} {body : Json} {verified : String × PublicIdentity}
    (h : verifyPublishedPreKeys crypto js (claimed account body) = .ok (.ok verified)) :
    ∃ identity, decodeIdentity js account.identity = .ok identity ∧
      (∀ wire ∈ (uploaded body).signedPreKey, VouchedClassical crypto js identity.signingPublicKey wire) ∧
        ∀ wire ∈ (uploaded body).signedKemPreKey, VouchedKem crypto js identity.signingPublicKey wire := by
  obtain ⟨address, identity⟩ := verified
  obtain ⟨wire, signedPreKey, signedKemPreKey, _, _, hwire, hdecoded, hsigned, hkem, hbundle, _⟩ :=
    verifyPublishedPreKeys_eq_ok h
  obtain ⟨_, hvouched, hkemVouched⟩ := verifyPublishedBundle_eq_ok hbundle
  have hidentity : account.identity = wire := Option.some.inj hwire
  have hsame {field : Option Json} {other kept sent : Json}
      (hkept : (some (orElse field other)).filter (fun key => Json.truthy (some key)) = some kept)
      (hsent : sent ∈ field.filter (fun value => Json.truthy (some value))) : sent = kept := by
    obtain ⟨hfield, htruthy⟩ := Option.mem_filter_iff.mp hsent
    obtain ⟨hor, _⟩ := Option.filter_eq_some_iff.mp hkept
    obtain rfl : field = some sent := hfield
    cases sent with
    | null => cases htruthy
    | _ => exact Option.some.inj hor
  refine ⟨identity, hidentity ▸ hdecoded, fun sent hsent => ?_, fun sent hsent => ?_⟩
  · rw [hsame hsigned hsent]
    exact hvouched
  · rw [hsame hkem hsent]
    exact hkemVouched

theorem addressAt_of_record {place : Nat} {account : AccountRecord} (h : relay.store.records[place]? = some account) :
    relay.store.addressAt place = some account.address := by
  rw [RelayStore.addressAt, h]
  rfl

theorem identity_mem {account : AccountRecord} (h : account ∈ relay.store.records) :
    (account.address, account.identity) ∈ relay.store.identities := List.mem_map_of_mem h

/-- Nothing is added to the bundles, and what waits was there, opens as it should or minds what is new. -/
theorem Serving.keep (h : Serving crypto js relay) {next : Relay} (filed : Filed crypto js next)
    (servable : ∀ account ∈ next.store.records, Servable crypto js account)
    (identities : next.store.identities = relay.store.identities)
    (waiting : ∀ item ∈ next.waiting, item ∈ relay.waiting ∨ Minds relay.store item)
    (sent : ∀ item ∈ next.sent, item ∈ relay.sent ∨ Keyless item) : Serving crypto js next := by
  have hat (place : Nat) (address : String) (hplace : relay.store.addressAt place = some address) :
      next.store.addressAt place = some address := by
    rw [RelayStore.addressAt_eq, identities, ← RelayStore.addressAt_eq]
    exact hplace
  refine ⟨filed, servable, ?_, fun item hmem => ?_, ?_⟩
  · rw [identities]
    exact h.alike
  · rcases waiting item hmem with hold | hminds
    · exact (h.waiting item hold).mono hat
    · exact hminds.mono hat
  · intro request identity signedPreKey signedKemPreKey oneTimePreKey oneTimeKemPreKey hmem
    rcases sent _ hmem with hold | hkeyless
    · exact h.served _ _ _ _ _ _ hold
    · exact absurd hkeyless id

theorem Serving.create (h : Serving crypto js relay) {index : Nat} {request : Request} {address : String} {body : Json}
    (found : relay.waiting[index]? = some (.request request, .registering address none body))
    (entering : ∀ kind, ∀ key ∈ ((accountRecord address body).pool kind).values, WellMade kind key)
    (apart : ∀ named ∈ relay.store.identities, named.1 = address →
      signingKeyOf js named.2 = signingKeyOf js (accountRecord address body).identity) :
    Serving crypto js ((relay.without index (relay.store.createAccount (accountRecord address body))).await (.request request)
      (.registered address)) := by
  obtain ⟨identity, hverified⟩ := h.filed.registering _ _ _ _ (List.mem_of_getElem? found)
  have hat (place : Nat) (other : String) (hplace : relay.store.addressAt place = some other) :
      (relay.store.createAccount (accountRecord address body)).addressAt place = some other :=
    RelayStore.addressAt_createAccount hplace
  refine ⟨h.filed.create found, ?_, ?_, ?_, ?_⟩
  · intro account hmem
    rcases List.mem_append.mp hmem with hold | hnew
    · exact h.servable account hold
    · rw [List.mem_singleton.mp hnew]
      exact servable_accountRecord hverified entering
  · show ∀ named ∈ (relay.store.createAccount (accountRecord address body)).identities,
      ∀ other ∈ (relay.store.createAccount (accountRecord address body)).identities, _
    rw [RelayStore.identities_createAccount]
    intro named hnamed other hother hsame
    rcases List.mem_append.mp hnamed with hold | hnew <;> rcases List.mem_append.mp hother with hold' | hnew'
    · exact h.alike named hold other hold' hsame
    · rw [List.mem_singleton.mp hnew'] at hsame ⊢
      exact apart named hold hsame
    · rw [List.mem_singleton.mp hnew] at hsame ⊢
      exact (apart other hold' hsame.symm).symm
    · rw [List.mem_singleton.mp hnew, List.mem_singleton.mp hnew']
  · intro item hmem
    rcases mem_without hmem with hold | rfl
    · exact (h.waiting item hold).mono hat
    · trivial
  · exact h.served

theorem Serving.take (h : Serving crypto js relay) {index : Nat} {request : Request} {place : Nat} {account : AccountRecord}
    (found : relay.waiting[index]? = some (.request request, .fetchingKeys (some place)))
    (filed : Filed crypto js ((relay.without index (relay.store.takeOneTimePreKeys account.address).1).await (.request request)
      (.takingKeys place (relay.store.takeOneTimePreKeys account.address).2))) :
    Serving crypto js ((relay.without index (relay.store.takeOneTimePreKeys account.address).1).await (.request request)
      (.takingKeys place (relay.store.takeOneTimePreKeys account.address).2)) := by
  obtain ⟨asked, horigin, hplace⟩ := h.waiting _ (List.mem_of_getElem? found)
  refine h.keep filed (servable_takeOneTimePreKeys h.servable) RelayStore.identities_takeOneTimePreKeys
    (fun item hmem => (mem_without hmem).imp_right ?_) (fun item hmem => Or.inl hmem)
  rintro rfl
  refine ⟨asked, horigin, hplace, fun kind key hkey => ?_⟩
  have hpool : key ∈ relay.store.pool kind account.address := by
    apply RelayStore.pool_takeOneTimePreKeys.subset
    exact List.mem_append_left _ (Option.mem_toList.mpr hkey)
  cases hrecord : relay.store.recordOf account.address with
  | none =>
    rw [RelayStore.pool, hrecord] at hpool
    cases hpool
  | some current =>
    rw [RelayStore.pool_of_recordOf hrecord] at hpool
    exact (h.servable current (RelayStore.mem_records_of_recordOf hrecord)).pools kind key hpool

theorem Serving.handOut (h : Serving crypto js relay) {index : Nat} {request : Request} {place : Nat} {account : AccountRecord}
    {oneTimePreKey oneTimeKemPreKey : Option Json}
    (found : relay.waiting[index]? = some (.request request, .takingKeys place (.ok (oneTimePreKey, oneTimeKemPreKey))))
    (record : relay.store.records[place]? = some account)
    (filed : Filed crypto js ((relay.without index relay.store).respond request
      (.bundle account.identity account.signedPreKey account.signedKemPreKey
        (oneTimePreKey.filter (fun key => Json.truthy (some key)))
        (oneTimeKemPreKey.filter (fun key => Json.truthy (some key)))))) :
    Serving crypto js ((relay.without index relay.store).respond request
      (.bundle account.identity account.signedPreKey account.signedKemPreKey
        (oneTimePreKey.filter (fun key => Json.truthy (some key)))
        (oneTimeKemPreKey.filter (fun key => Json.truthy (some key))))) := by
  obtain ⟨asked, horigin, hplace, hkeys⟩ := h.waiting _ (List.mem_of_getElem? found)
  have hasked : account.address = asked := Option.some.inj ((addressAt_of_record record).symm.trans hplace)
  have htakes := (h.servable account (List.mem_of_getElem? record)).takes (hkeys .classical) (hkeys .kem)
  refine ⟨filed, h.servable, h.alike, fun item hmem => h.waiting item (List.mem_of_mem_eraseIdx hmem), ?_⟩
  intro request' identity signedPreKey signedKemPreKey oneTimePreKey' oneTimeKemPreKey' hmem
  rcases List.mem_append.mp hmem with hold | hnew
  · exact h.served _ _ _ _ _ _ hold
  · obtain ⟨hrequest, hbundle⟩ := Sent.response.inj (List.mem_singleton.mp hnew)
    obtain ⟨rfl, rfl, rfl, rfl, rfl⟩ := Response.bundle.inj hbundle
    exact ⟨asked, hrequest.trans (Origin.request.inj horigin), hasked ▸ htakes⟩

theorem Serving.update (h : Serving crypto js relay) {index : Nat} {request : Request} {address : String} {place : Nat}
    {body : Json} {account : AccountRecord} {verified : String × PublicIdentity}
    (found : relay.waiting[index]? = some (.request request, .uploading address (some place) body))
    (record : relay.store.records[place]? = some account)
    (verifies : verifyPublishedPreKeys crypto js (claimed account body) = .ok (.ok verified))
    (entering : ∀ kind, ∀ key ∈ Relay.entering crypto js kind address relay (.uploading address (some place) body),
      WellMade kind key)
    (filed : Filed crypto js ((relay.without index (relay.store.updatePreKeys address (uploaded body)).1).await
      (.request request) (.uploaded (relay.store.updatePreKeys address (uploaded body)).2))) :
    Serving crypto js ((relay.without index (relay.store.updatePreKeys address (uploaded body)).1).await (.request request)
      (.uploaded (relay.store.updatePreKeys address (uploaded body)).2)) := by
  have hplace : relay.store.addressAt place = some address := h.waiting _ (List.mem_of_getElem? found)
  have haddress : account.address = address := Option.some.inj ((addressAt_of_record record).symm.trans hplace)
  obtain ⟨identity, hidentity, hsigned, hkem⟩ := vouched_uploaded verifies
  refine h.keep filed (servable_updatePreKeys h.servable ?_ ?_) RelayStore.identities_updatePreKeys
    (fun item hmem => (mem_without hmem).imp_right ?_) (fun item hmem => Or.inl hmem)
  · intro current identity' hcurrent hidentity'
    -- the record that is changed and the one the upload was checked with have one signing key
    obtain ⟨place', hplace', hfound'⟩ := Option.bind_eq_some_iff.mp hcurrent
    have haddress' : current.address = address :=
      Option.some.inj ((addressAt_of_record hfound').symm.trans (h.filed.placed address place' hplace'))
    have halike := h.alike _ (identity_mem (List.mem_of_getElem? hfound')) _ (identity_mem (List.mem_of_getElem? record))
      (haddress'.trans haddress.symm)
    rw [signingKeyOf, hidentity', signingKeyOf, hidentity] at halike
    have hkey : identity'.signingPublicKey = identity.signingPublicKey := Option.some.inj halike
    rw [hkey]
    exact ⟨hsigned, hkem⟩
  · intro current hcurrent kind key hkey
    apply entering kind key
    have haccount : relay.account (some place) = some account := record
    simp only [Relay.entering, haccount, verifies, if_pos, RelayStore.pool_of_recordOf hcurrent]
    exact hkey
  · rintro rfl
    trivial

/-- A sound move keeps every bundle usable. -/
theorem Serving.perform (h : Serving crypto js relay) {move : RelayMove} (sound : Sound crypto js relay move) :
    Serving crypto js (relay.perform crypto js move) := by
  have hfiled := h.filed.perform move
  have hperforms := @perform_performs _ crypto js relay move
  revert hfiled hperforms
  generalize relay.perform crypto js move = next
  intro hfiled hperforms
  cases hperforms with
  | grows hgrows =>
    obtain ⟨hrecords, _⟩ := Prod.mk.inj hgrows.directory
    have hidentities : next.store.identities = relay.store.identities := congrArg (List.map _) hrecords
    obtain ⟨added, hsent, hkeyless⟩ := hgrows.sent
    obtain ⟨kept, begun, hwaiting, hkept, hopens⟩ := hgrows.waiting
    refine h.keep hfiled (hrecords ▸ h.servable) hidentities (fun item hmem => ?_) (fun item hmem => ?_)
    · rw [hwaiting] at hmem
      rcases List.mem_append.mp hmem with hmem | hmem
      · exact Or.inl (hkept.subset hmem)
      · exact Or.inr (.of_opens h.filed (hopens item hmem))
    · rw [hsent] at hmem
      exact (List.mem_append.mp hmem).imp_right (hkeyless item)
  | @create _ _ _ _ address body found =>
    obtain ⟨hentering, hapart⟩ := sound _ _ _ _ _ rfl found
    refine h.create found (fun kind key hkey => hentering kind address key ?_) (hapart address body rfl)
    rw [Relay.entering, if_pos rfl]
    exact hkey
  | take found record => exact h.take found hfiled
  | handOut found record => exact h.handOut found record hfiled
  | update found record verifies =>
    obtain ⟨hentering, _⟩ := sound _ _ _ _ _ rfl found
    exact h.update found record verifies (fun kind => hentering kind _) hfiled

end

/-- In every run in which what enters the directory is well made, each bundle that the relay has let out answers a fetch,
is decoded and verified by a client, is of the identity whose address was asked for, and starts a handshake. -/
theorem bundles_usable {K : Type} (crypto : Cryptography K) (js : NumberText) (start relay : Relay) (started : Start start)
    (run : Relation.ReflTransGen (Step crypto js (Sound crypto js)) start relay) :
    ∀ request identity signedPreKey signedKemPreKey oneTimePreKey oneTimeKemPreKey,
      Sent.response request (.bundle identity signedPreKey signedKemPreKey oneTimePreKey oneTimeKemPreKey) ∈ relay.sent →
        ∃ asked, request = .fetchKeys asked ∧
          Takes crypto js asked identity signedPreKey signedKemPreKey oneTimePreKey oneTimeKemPreKey := by
  have serving : Serving crypto js relay := by
    refine Runs.preserved (P := Serving crypto js) ?_ run (.start started)
    rintro relay _ ⟨move, _, sound, rfl⟩ h
    exact h.perform sound
  exact serving.served

section

variable {identity : PublicIdentity} {keys : PublishedPreKeys} {address : String}

theorem keyOf_encode (key : OneTimePreKey) : keyOf (encodeOneTimePreKey key) = some (key.id, key.publicKey) := by
  have hkey : ((encodeOneTimePreKey key).field "publicKey").bind Json.text? = some (toBase64Url key.publicKey) := rfl
  have hid : ((encodeOneTimePreKey key).field "id").bind Json.integer? = some key.id := rfl
  rw [keyOf, hkey, hid]
  simp only [Option.bind_eq_bind, Option.bind_some, fromBase64Url_toBase64Url]
  rfl

/-- A registration fills the pools with the first of the keys it brings. -/
theorem values_registration (kind : KeyKind) : ((accountRecord address (registration identity keys)).pool kind).values =
    ((kind.pick keys.oneTimePreKeys keys.oneTimeKemPreKeys).map encodeOneTimePreKey).take maxOneTimePreKeys := by
  cases kind <;> rfl

theorem wellMade_registration {kind : KeyKind}
    (h : ∀ key ∈ kind.pick keys.oneTimePreKeys keys.oneTimeKemPreKeys,
      IdInRange key.id ∧ key.publicKey.length = kind.pick x25519PublicLen mlkemPublicLen) :
    ∀ key ∈ ((accountRecord address (registration identity keys)).pool kind).values, WellMade kind key := by
  intro key hmem
  rw [values_registration] at hmem
  obtain ⟨oneTime, honeTime, rfl⟩ := List.mem_map.mp (List.mem_of_mem_take hmem)
  obtain ⟨hid, hlength⟩ := h oneTime honeTime
  exact ⟨oneTime.id, oneTime.publicKey, keyOf_encode oneTime, hid, hlength⟩

end

/-- The one-time prekeys that Bob registers with are well made. -/
theorem bob_sound : Sound spelled plainNumbers ((built 1).await (.request (.register (some bobRegistration)))
    (.registering bobAddress none bobRegistration)) (.resume 0 [] 0) := by
  intro index random now request handler hmove hfound
  obtain ⟨rfl, rfl, rfl⟩ := RelayMove.resume.inj hmove
  obtain ⟨_, rfl⟩ := Prod.mk.inj (Option.some.inj hfound)
  refine ⟨fun kind address key hmem => ?_, fun _ _ _ => List.forall_mem_nil _⟩
  rw [entering] at hmem
  split at hmem
  next =>
    refine wellMade_registration ?_ key hmem
    cases kind <;> decide +kernel
  next => cases hmem

theorem sound_of_fetches {relay : Relay} {index : Nat} (h : relay.fetches index = true) :
    Sound spelled plainNumbers relay (.resume index [] 0) := by
  intro index' random now request handler hmove hfound
  obtain ⟨rfl, rfl, rfl⟩ := RelayMove.resume.inj hmove
  rw [fetches, hfound] at h
  cases handler with
  | fetchingKeys | takingKeys => exact ⟨fun _ _ => List.forall_mem_nil _, fun _ _ heq => by cases heq⟩
  | registering | registered | authenticating | uploading | uploaded | counting | submitting | enqueued | fetching |
    acknowledged | draining => cases h

/-- A bundle that answers a fetch for the address. -/
def Sent.answers (address : String) : Sent → Bool
  | .response (.fetchKeys asked) (.bundle _ _ _ _ _) => asked = address
  | _ => false

/-- A peer fetches what Bob has registered with. -/
theorem bundles_usable_fetched : ∃ identity signedPreKey signedKemPreKey oneTimePreKey oneTimeKemPreKey,
    Takes spelled plainNumbers bobAddress identity signedPreKey signedKemPreKey oneTimePreKey oneTimeKemPreKey := by
  obtain ⟨hasked, htaken, _⟩ := two_fetched
  have run : Relation.ReflTransGen (Step spelled plainNumbers (Sound spelled plainNumbers)) (built 1) (fetched 1 (listed 1)) :=
    fetched_run (listed_run (fun _ _ _ _ _ => nofun) bob_sound) (fun _ _ _ _ _ _ => nofun) (fun _ h => sound_of_fetches h)
      hasked htaken
  have hanswers : (fetched 1 (listed 1)).sent.any (Sent.answers bobAddress) = true := by decide +kernel
  obtain ⟨sent, hmem, hanswer⟩ := List.any_eq_true.mp hanswers
  unfold Sent.answers at hanswer
  split at hanswer
  next =>
    obtain ⟨asked, hasked, htakes⟩ := bundles_usable spelled plainNumbers _ _ ⟨1, rfl⟩ run _ _ _ _ _ _ hmem
    obtain rfl := of_decide_eq_true hanswer
    obtain rfl := Request.fetchKeys.inj hasked
    exact ⟨_, _, _, _, _, htakes⟩
  next => cases hanswer

section

variable {K : Type} {crypto : Cryptography K} {js : NumberText}

theorem verifyPreKeyBundle_oneTime {bundle : PreKeyBundle} (h : verifyPreKeyBundle crypto bundle = .ok ()) :
    ∀ key ∈ bundle.oneTimePreKey, key.publicKey.length = x25519PublicLen := by
  intro key hkey
  rw [verifyPreKeyBundle] at h
  obtain ⟨bound, _, h⟩ := Outcome.bind_eq_ok_iff.mp h
  cases bound with
  | false => cases h
  | true =>
    obtain ⟨_, _, h⟩ := Outcome.bind_eq_ok_iff.mp h
    obtain ⟨_, _, h⟩ := Outcome.bind_eq_ok_iff.mp h
    by_cases hlength : key.publicKey.length = x25519PublicLen
    · exact hlength
    · have hwrong : bundle.oneTimePreKey.any (fun key => key.publicKey.length ≠ x25519PublicLen) = true := by
        rw [show bundle.oneTimePreKey = some key from hkey]
        exact decide_eq_true hlength
      rw [hwrong] at h
      cases h

/-- A bundle that a client can use has a one-time prekey of the right length, if it has one. -/
theorem Takes.oneTime_length {asked : String} {identity signedPreKey signedKemPreKey key : Json} {oneTimeKemPreKey : Option Json}
    (h : Takes crypto js asked identity signedPreKey signedKemPreKey (some key) oneTimeKemPreKey)
    (truthy : Json.truthy (some key) = true) :
    ∃ bytes, bytesOf js (key.field "publicKey") = .ok bytes ∧ bytes.length = x25519PublicLen := by
  obtain ⟨wire, bundle, hread, htyped, husable, _⟩ := h
  unfold decodeBundle at hread
  obtain ⟨_, _, hread⟩ := Outcome.bind_eq_ok_iff.mp hread
  obtain ⟨_, _, hread⟩ := Outcome.bind_eq_ok_iff.mp hread
  obtain ⟨_, _, hread⟩ := Outcome.bind_eq_ok_iff.mp hread
  obtain ⟨oneTime, honeTime, hread⟩ := Outcome.bind_eq_ok_iff.mp hread
  obtain ⟨_, _, hread⟩ := Outcome.bind_eq_ok_iff.mp hread
  obtain rfl := Outcome.pure_eq_ok_iff.mp hread
  rw [Option.filter_some, truthy, if_pos rfl, Option.mapM_some] at honeTime
  obtain ⟨wire, hwire, honeTime⟩ := Outcome.bind_eq_ok_iff.mp honeTime
  obtain rfl := Outcome.pure_eq_ok_iff.mp honeTime
  obtain ⟨bytes, hbytes, hwire⟩ := Outcome.bind_eq_ok_iff.mp hwire
  obtain rfl := Outcome.pure_eq_ok_iff.mp hwire
  refine ⟨bytes, hbytes, ?_⟩
  simp only [WireBundle.typed, Option.bind_eq_bind, Option.bind_eq_some_iff, Option.pure_def, Option.some.injEq] at htyped
  obtain ⟨_, _, _, _, typed, htyped, _, _, rfl⟩ := htyped
  rw [Option.mapM_some] at htyped
  obtain ⟨key', hkey', rfl⟩ := Option.map_eq_some_iff.mp htyped
  obtain ⟨id, _, rfl⟩ := Option.map_eq_some_iff.mp hkey'
  exact verifyPreKeyBundle_oneTime husable.verifies _ rfl

end

/-- What Bob publishes, with a one-time prekey of no bytes. -/
def shortKeys : PublishedPreKeys := { (spelledStore bob 13 14 [15, 16] []).published with oneTimePreKeys := [⟨1, []⟩] }

def shortRegistration : Json := registration (publicIdentityOf bob) shortKeys

theorem short_accepted : verifyPreKeyBundle spelled
    { identity := publicIdentityOf bob, signedPreKey := shortKeys.signedPreKey, signedKemPreKey := shortKeys.signedKemPreKey } =
      .ok () := by
  decide +kernel

theorem short_registers (relay : Relay) :
    relay.perform spelled plainNumbers (.request "10.0.0.1" (.register (some shortRegistration)) [] 0) =
      relay.await (.request (.register (some shortRegistration)))
        (.registering bobAddress (relay.store.getAccount bobAddress) shortRegistration) :=
  register_encode short_accepted bob_address relay

theorem short_fetched :
    ((madeFor 1 shortRegistration).perform spelled plainNumbers
        (.request "10.0.0.2" (.fetchKeys bobAddress) [] 0)).fetches 1 = true ∧
      (((madeFor 1 shortRegistration).perform spelled plainNumbers
        (.request "10.0.0.2" (.fetchKeys bobAddress) [] 0)).perform spelled plainNumbers (.resume 1 [] 0)).fetches 1 = true ∧
      (fetched 1 (madeFor 1 shortRegistration)).sent.any (fun sent => match sent with
        | .response _ (.bundle _ _ _ (some key) _) =>
          Json.truthy (some key) && ((key.field "publicKey").bind Json.text?) = some ""
        | _ => false) = true := by
  decide +kernel

/-- A one-time prekey of no bytes is taken, and the bundle that hands it out is none that a client uses. -/
theorem short_key_served : ¬ ∀ start relay : Relay, Start start →
    Relation.ReflTransGen (Step spelled plainNumbers (fun _ _ => True)) start relay →
      ∀ request identity signedPreKey signedKemPreKey oneTimePreKey oneTimeKemPreKey,
        Sent.response request (.bundle identity signedPreKey signedKemPreKey oneTimePreKey oneTimeKemPreKey) ∈ relay.sent →
          ∃ asked, request = .fetchKeys asked ∧
            Takes spelled plainNumbers asked identity signedPreKey signedKemPreKey oneTimePreKey oneTimeKemPreKey := by
  intro claim
  obtain ⟨hasked, htaken, hserved⟩ := short_fetched
  have run : Relation.ReflTransGen (Step spelled plainNumbers (fun _ _ => True)) (built 1)
      (fetched 1 (madeFor 1 shortRegistration)) :=
    fetched_run (madeFor_run (short_registers (built 1)) trivial trivial) (fun _ => trivial) (fun _ _ => trivial) hasked htaken
  obtain ⟨sent, hmem, hbundle⟩ := List.any_eq_true.mp hserved
  split at hbundle
  next request identity signedPreKey signedKemPreKey key oneTimeKemPreKey =>
    obtain ⟨htruthy, hempty⟩ := Bool.and_eq_true_iff.mp hbundle
    obtain ⟨asked, _, htakes⟩ := claim _ _ ⟨1, rfl⟩ run _ _ _ _ _ _ hmem
    obtain ⟨bytes, hbytes, hlength⟩ := htakes.oneTime_length htruthy
    obtain ⟨value, hfield, htext⟩ := Option.bind_eq_some_iff.mp (of_decide_eq_true hempty)
    cases value with
    | str text =>
      obtain rfl := Option.some.inj htext
      rw [hfield] at hbytes
      obtain rfl : [] = bytes := Except.ok.inj hbytes
      cases hlength
    | _ => cases htext
  next => cases hbundle

end Relay

end Veil
