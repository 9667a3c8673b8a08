import Veil.Inbound

namespace Veil

/-- A call of the messenger's interface, with all that it meets. -/
inductive Request (K : Type)
  | start (startup : Startup K)
  | startConversation (around : Surroundings K) (peerAddress : String)
  | sendText (around : Surroundings K) (peerAddress body : String) (expiresInSeconds : Option Int)
  | sendCallPayload (around : Surroundings K) (peerAddress : String) (payload : Payload)
  | sendTyping (around : Surroundings K) (peerAddress : String) (typing : Bool)
  | sendReceipt (around : Surroundings K) (peerAddress : String) (messageIds : List String) (receipt : ReceiptKind)
  | handleDelivered (around : Surroundings K) (delivered : DeliveredMessage)
  | replenishPreKeysIfNeeded (topUp : TopUp K)
  | safetyNumberWith (address : String)
  | addContactFromCode (around : Surroundings K) (code : String)
  | markVerified (address : String)
  | acceptIdentityChange (around : Surroundings K) (address : String)
  | renameContact (address displayName : String)
  | loadPins
  | setDisappearTimer (address : String) (seconds : Int)
  | markRead (address : String)
  | history (around : Surroundings K) (address : String)
  | purgeExpired (around : Surroundings K)
  | deleteConversation (address : String)
  | pairWithCode (around : Surroundings K) (code displayName : String)
  | unpair
  | renamePairedPeer (displayName : String)

namespace Messenger

section

variable {K : Type} (crypto : Cryptography K) (codec : PayloadCodec)

/-- The app starts again over the same stores; a start that throws leaves its keystore entries and is tried again. -/
def start (startup : Startup K) (m : Messenger K) : Messenger K :=
  match initialise crypto startup m.reopened with
  | (m', .ok _) => m'
  | (m', .error _) => { m with secrets := m'.secrets }

/-- What a request leaves behind, whatever it returns or throws. -/
def perform (m : Messenger K) : Request K → Messenger K
  | .start startup => m.start crypto startup
  | .startConversation around peerAddress => (startConversation crypto around peerAddress m).1
  | .sendText around peerAddress body expiresInSeconds =>
    (sendText crypto codec around peerAddress body expiresInSeconds m).1
  | .sendCallPayload around peerAddress payload => (sendCallPayload crypto codec around peerAddress payload m).1
  | .sendTyping around peerAddress typing => (sendTyping crypto codec around peerAddress typing m).1
  | .sendReceipt around peerAddress messageIds receipt =>
    (sendReceipt crypto codec around peerAddress messageIds receipt m).1
  | .handleDelivered around delivered => (handleDelivered crypto codec around delivered m).1
  | .replenishPreKeysIfNeeded topUp => (replenishPreKeysIfNeeded topUp m).1
  | .safetyNumberWith address => (safetyNumberWith crypto address m).1
  | .addContactFromCode around code => (addContactFromCode crypto around code m).1
  | .markVerified address => (markVerified address m).1
  | .acceptIdentityChange around address => (acceptIdentityChange around address m).1
  | .renameContact address displayName => (renameContact address displayName m).1
  | .loadPins => (loadPins m).1
  | .setDisappearTimer address seconds => (setDisappearTimer address seconds m).1
  | .markRead address => (markRead address m).1
  | .history around address => (history around address m).1
  | .purgeExpired around => (purgeExpired around m).1
  | .deleteConversation address => (deleteConversation address m).1
  | .pairWithCode around code displayName => (pairWithCode crypto around code displayName m).1
  | .unpair => (unpair m).1
  | .renamePairedPeer displayName => (renamePairedPeer displayName m).1

end

end Messenger

namespace KeyRing

section

variable {K : Type} (crypto : Cryptography K)

/-- Whom a code names. -/
def scan (ring : KeyRing K) (code : String) : Option (String × PublicIdentity) :=
  match (do
    let bytes ← fromBase64Url code
    let identity ← parseVerificationQrPayload crypto bytes
    let address ← addressOf crypto identity.signingPublicKey
    return (address, identity) : Except Failure (String × PublicIdentity)) with
  | .ok (address, identity) => if address = ring.address then none else some (address, identity)
  | .error _ => none

/-- The address a request sends to, or opens a conversation with. -/
def addressee (ring : KeyRing K) : Request K → Option (Surroundings K × String)
  | .startConversation around peerAddress | .sendText around peerAddress _ _ | .sendCallPayload around peerAddress _ =>
    some (around, peerAddress)
  | .sendTyping around peerAddress _ => if ring.sendTypingIndicators then some (around, peerAddress) else none
  | .sendReceipt around peerAddress messageIds _ =>
    if ring.sendReceipts ∧ messageIds ≠ [] then some (around, peerAddress) else none
  | _ => none

/-- What a request does to the keys on file, `started` telling whether a start succeeds. -/
def label (ring : KeyRing K) (started : Startup K → Bool) : Request K → Label
  | .start startup => if started startup then .restarted else .quiet
  | .startConversation around peerAddress | .sendText around peerAddress _ _ | .sendCallPayload around peerAddress _ =>
    (ring.outreach crypto around peerAddress).label peerAddress
  | .sendTyping around peerAddress _ =>
    if ring.sendTypingIndicators then (ring.outreach crypto around peerAddress).label peerAddress else .quiet
  | .sendReceipt around peerAddress messageIds _ =>
    if ring.sendReceipts ∧ messageIds ≠ [] then (ring.outreach crypto around peerAddress).label peerAddress else .quiet
  | .handleDelivered around delivered => ring.arrival crypto around delivered
  | .addContactFromCode _ code =>
    match ring.scan crypto code with
    | none => .quiet
    | some (address, identity) => .changed address (.scanned (toBase64Url identity.signingPublicKey))
  | .markVerified address => if ring.contacts.get? address = none then .quiet else .changed address .verified
  | .acceptIdentityChange around address =>
    if ring.contacts.get? address = none then .quiet
    else
      match around.fetchBundle address with
      | .error _ => .changed address .dropped
      | .ok bundle => .changed address (.replaced (toBase64Url bundle.identity.signingPublicKey))
  | .deleteConversation address => .changed address .dropped
  | .pairWithCode _ code _ =>
    if ring.pairing.isSome then .quiet
    else
      match ring.scan crypto code with
      | none => .quiet
      | some (address, identity) =>
        if address = "" ∨ toBase64Url identity.signingPublicKey = "" then
          .changed address (.scanned (toBase64Url identity.signingPublicKey))
        else .paired address (toBase64Url identity.signingPublicKey)
  | .unpair => .unpaired
  | .renamePairedPeer _ => if ring.pairing.isSome then .refiled else .quiet
  | .replenishPreKeysIfNeeded _ | .safetyNumberWith _ | .renameContact _ _ | .loadPins | .setDisappearTimer _ _ |
    .markRead _ | .history _ _ | .purgeExpired _ => .quiet

/-- A delivered message is read and let in, from the address and under the key. -/
def Hears (ring : KeyRing K) (around : Surroundings K) (delivered : DeliveredMessage) (address key : String) : Prop :=
  ∃ envelope result, decodeEnvelope delivered.envelope = .ok envelope ∧
    (ring.decrypted crypto around envelope).result = .ok result ∧
    addressOf crypto result.senderIdentity.signingPublicKey = .ok address ∧
    ring.admits address result.senderIdentity = .allow ∧ key = toBase64Url result.senderIdentity.signingPublicKey

/-- Where the key of a label comes from. -/
def Sourced (ring : KeyRing K) (request : Request K) : Label → Prop
  | .changed address (.flagged key) => ∃ around contact, ring.addressee request = some (around, address) ∧
      ring.outreach crypto around address = .flagged contact key
  | .changed address (.opened key) => ∃ around bundle session, ring.addressee request = some (around, address) ∧
      ring.outreach crypto around address = .opened bundle session ∧ key = toBase64Url bundle.identity.signingPublicKey
  | .changed address (.greeted key) | .changed address (.answered key) => ∃ around delivered,
      request = .handleDelivered around delivered ∧ ring.Hears crypto around delivered address key
  | .changed address (.scanned key) => ∃ code identity, ring.scan crypto code = some (address, identity) ∧
      key = toBase64Url identity.signingPublicKey ∧ ((∃ around, request = .addContactFromCode around code) ∨
        ring.pairing = none ∧ ∃ around displayName, request = .pairWithCode around code displayName)
  | .changed address (.replaced key) => ∃ around bundle, request = .acceptIdentityChange around address ∧
      ring.contacts.get? address ≠ none ∧ around.fetchBundle address = .ok bundle ∧
      key = toBase64Url bundle.identity.signingPublicKey
  | .paired address key => ∃ code identity, ring.scan crypto code = some (address, identity) ∧
      key = toBase64Url identity.signingPublicKey ∧ ring.pairing = none ∧
      ∃ around displayName, request = .pairWithCode around code displayName
  | .unpaired => request = .unpair
  | _ => True

end

section

variable {K : Type} {crypto : Cryptography K} {ring : KeyRing K}

theorem scan_eq_some {code : String} {address : String} {identity : PublicIdentity}
    (h : ring.scan crypto code = some (address, identity)) : ∃ bytes, fromBase64Url code = .ok bytes ∧
      parseVerificationQrPayload crypto bytes = .ok identity ∧ addressOf crypto identity.signingPublicKey = .ok address ∧
      address ≠ ring.address := by
  unfold scan at h
  split at h
  next address' identity' hread =>
    split at h
    next => cases h
    next hne =>
      obtain ⟨rfl, rfl⟩ := Prod.mk.inj (Option.some.inj h)
      obtain ⟨bytes, hbytes, hread⟩ := Outcome.bind_eq_ok_iff.mp hread
      obtain ⟨identity, hidentity, hread⟩ := Outcome.bind_eq_ok_iff.mp hread
      obtain ⟨address, haddress, hread⟩ := Outcome.bind_eq_ok_iff.mp hread
      obtain ⟨rfl, rfl⟩ := Prod.mk.inj (Outcome.pure_eq_ok_iff.mp hread)
      exact ⟨bytes, hbytes, hidentity, haddress, hne⟩
  next => cases h

theorem scan_named {code : String} {address : String} {identity : PublicIdentity}
    (h : ring.scan crypto code = some (address, identity)) :
    Named crypto address (toBase64Url identity.signingPublicKey) := by
  obtain ⟨_, _, _, haddress, _⟩ := scan_eq_some h
  exact ⟨_, rfl, haddress⟩

theorem label_addressee {started : Startup K → Bool} {request : Request K} {around : Surroundings K} {address : String}
    (h : ring.addressee request = some (around, address)) :
    ring.label crypto started request = (ring.outreach crypto around address).label address := by
  cases request with
  | startConversation around' address' => cases h; rfl
  | sendText around' address' body expires => cases h; rfl
  | sendCallPayload around' address' payload => cases h; rfl
  | sendTyping around' address' typing =>
    simp only [addressee] at h
    split at h
    next hset =>
      cases h
      simp only [label, hset, if_true]
    next => cases h
  | sendReceipt around' address' ids receipt =>
    simp only [addressee] at h
    split at h
    next hset =>
      cases h
      rw [label, if_pos hset]
    next => cases h
  | _ => cases h

theorem outreach_sourced {request : Request K} {around : Surroundings K} {address : String}
    (h : ring.addressee request = some (around, address)) :
    ring.Sourced crypto request ((ring.outreach crypto around address).label address) := by
  cases hout : ring.outreach crypto around address with
  | refused e => trivial
  | live session => trivial
  | flagged contact presented => exact ⟨around, contact, h, hout⟩
  | opened bundle session => exact ⟨around, bundle, session, h, hout, rfl⟩

theorem arrival_sourced {around : Surroundings K} {delivered : DeliveredMessage} :
    ring.Sourced crypto (.handleDelivered around delivered) (ring.arrival crypto around delivered) := by
  unfold arrival
  split
  next => trivial
  next envelope henvelope =>
    split
    next => trivial
    next result hresult =>
      split
      next => trivial
      next address haddress =>
        split
        next => trivial
        next hadmits =>
          have hhears : ring.Hears crypto around delivered address (toBase64Url result.senderIdentity.signingPublicKey) :=
            ⟨envelope, result, henvelope, hresult, haddress, hadmits, rfl⟩
          cases result.isNewSession with
          | true => exact ⟨around, delivered, rfl, hhears⟩
          | false => exact ⟨around, delivered, rfl, hhears⟩

theorem label_sourced (started : Startup K → Bool) (request : Request K) :
    ring.Sourced crypto request (ring.label crypto started request) := by
  cases request with
  | startConversation around address => exact outreach_sourced rfl
  | sendText around address body expires => exact outreach_sourced rfl
  | sendCallPayload around address payload => exact outreach_sourced rfl
  | sendTyping around address typing =>
    simp only [label]
    split
    next hset => exact outreach_sourced (by simp [addressee, hset])
    next => trivial
  | sendReceipt around address ids receipt =>
    simp only [label]
    split
    next hset => exact outreach_sourced (by simp [addressee, hset])
    next => trivial
  | handleDelivered around delivered => exact arrival_sourced
  | acceptIdentityChange around address =>
    simp only [label]
    split
    next => trivial
    next hcontact =>
      split
      next => trivial
      next bundle hfetch => exact ⟨around, bundle, rfl, hcontact, hfetch, rfl⟩
  | pairWithCode around code displayName =>
    simp only [label]
    split
    next => trivial
    next hpairing =>
      have hnone : ring.pairing = none := Option.not_isSome_iff_eq_none.mp hpairing
      split
      next => trivial
      next address identity hscan =>
        split
        next => exact ⟨code, identity, hscan, rfl, Or.inr ⟨hnone, around, displayName, rfl⟩⟩
        next => exact ⟨code, identity, hscan, rfl, hnone, around, displayName, rfl⟩
  | start startup =>
    simp only [label]
    split <;> trivial
  | addContactFromCode around code =>
    simp only [label]
    split
    next => trivial
    next address identity hscan => exact ⟨code, identity, hscan, rfl, Or.inl ⟨around, rfl⟩⟩
  | markVerified address =>
    simp only [label]
    split <;> trivial
  | renamePairedPeer displayName =>
    simp only [label]
    split <;> trivial
  | deleteConversation address => trivial
  | unpair => rfl
  | replenishPreKeysIfNeeded topUp => trivial
  | safetyNumberWith address => trivial
  | renameContact address displayName => trivial
  | loadPins => trivial
  | setDisappearTimer address seconds => trivial
  | markRead address => trivial
  | history around address => trivial
  | purgeExpired around => trivial

/-- Whatever the relay answers and whoever writes, a request's label is one the book lets happen. -/
theorem label_enabled (started : Startup K → Bool) (request : Request K) :
    ring.book.Enabled (Named crypto) (ring.label crypto started request) := by
  cases request with
  | startConversation around address => exact outreach_enabled _
  | sendText around address body expires => exact outreach_enabled _
  | sendCallPayload around address payload => exact outreach_enabled _
  | sendTyping around address typing =>
    simp only [label]
    split
    next => exact outreach_enabled _
    next => trivial
  | sendReceipt around address ids receipt =>
    simp only [label]
    split
    next => exact outreach_enabled _
    next => trivial
  | handleDelivered around delivered => exact arrival_enabled delivered
  | addContactFromCode around code =>
    simp only [label]
    split
    next => trivial
    next hscan => exact scan_named hscan
  | pairWithCode around code displayName =>
    simp only [label]
    split
    next => trivial
    next hpairing =>
      split
      next => trivial
      next hscan =>
        split
        next => exact scan_named hscan
        next =>
          refine ⟨scan_named hscan, ?_⟩
          simp only [book, Option.map_eq_none_iff]
          exact Option.not_isSome_iff_eq_none.mp hpairing
  | start startup =>
    simp only [label]
    split <;> trivial
  | markVerified address =>
    simp only [label]
    split <;> trivial
  | acceptIdentityChange around address =>
    simp only [label]
    split
    next => trivial
    next => split <;> trivial
  | renamePairedPeer displayName =>
    simp only [label]
    split <;> trivial
  | deleteConversation address => trivial
  | unpair => trivial
  | replenishPreKeysIfNeeded topUp => trivial
  | safetyNumberWith address => trivial
  | renameContact address displayName => trivial
  | loadPins => trivial
  | setDisappearTimer address seconds => trivial
  | markRead address => trivial
  | history around address => trivial
  | purgeExpired around => trivial

end

end KeyRing

namespace Messenger

open Command

section

variable {K : Type} {crypto : Cryptography K} {codec : PayloadCodec} {around : Surroundings K} {m m' : Messenger K}
  {address : String}

/-- A start of the app succeeds. -/
def starts (crypto : Cryptography K) (m : Messenger K) (startup : Startup K) : Bool :=
  (initialise crypto startup m.reopened).2.toBool

/-- Loading the identity changes the identity and the keystore only. -/
theorem loadIdentity_book {startup : Startup K} {r : Except Failure Bool} (h : loadIdentity crypto startup m = (m', r)) :
    m'.toKeyRing.book = m.toKeyRing.book ∧ m'.pairingStore = m.pairingStore ∧ m'.dispatched = m.dispatched := by
  have hcreated : ∀ {r}, (do
      let identity ← lift (createIdentity crypto startup.signing startup.exchange)
      modify fun m => { m with
        identity
        secrets := ⟨some identity.signing.secretKey, some identity.exchange.secretKey,
          some identity.exchangeKeySignature⟩ }
      return true : Operation K Bool) m = (m', r) →
        m'.toKeyRing.book = m.toKeyRing.book ∧ m'.pairingStore = m.pairingStore ∧ m'.dispatched = m.dispatched := by
    intro r h
    cases hcreate : createIdentity crypto startup.signing startup.exchange with
    | error e =>
      rw [hcreate] at h
      obtain ⟨rfl, _⟩ := Prod.mk.inj h
      exact ⟨rfl, rfl, rfl⟩
    | ok identity =>
      rw [hcreate] at h
      obtain ⟨rfl, _⟩ := Prod.mk.inj h
      exact ⟨rfl, rfl, rfl⟩
  unfold loadIdentity at h
  simp only [get_bind] at h
  rcases hsigning : m.secrets.signing with _ | signing
  · rw [hsigning] at h
    exact hcreated h
  rcases hexchange : m.secrets.exchange with _ | exchange
  · rw [hsigning, hexchange] at h
    exact hcreated h
  rcases hbinding : m.secrets.binding with _ | binding
  · rw [hsigning, hexchange, hbinding] at h
    exact hcreated h
  rw [hsigning, hexchange, hbinding] at h
  dsimp only at h
  cases hrestore : restoreIdentity crypto signing exchange binding with
  | error e =>
    rw [hrestore] at h
    obtain ⟨rfl, _⟩ := Prod.mk.inj h
    exact ⟨rfl, rfl, rfl⟩
  | ok identity =>
    rw [hrestore] at h
    obtain ⟨rfl, _⟩ := Prod.mk.inj h
    exact ⟨rfl, rfl, rfl⟩

/-- A start that succeeds reads the pairing back and leaves every record alone. -/
theorem initialise_book {startup : Startup K} {out : String × Bool} (h : initialise crypto startup m = (m', .ok out)) :
    m'.toKeyRing.book = { m.toKeyRing.book with pairing := m.toKeyRing.book.stored } ∧ m'.dispatched = m.dispatched := by
  unfold initialise at h
  cases hload : loadIdentity crypto startup m with
  | mk m₁ r =>
    obtain ⟨hbook, hstore, hsent⟩ := loadIdentity_book hload
    cases r with
    | error e =>
      rw [bind_error _ hload] at h
      cases (Prod.mk.inj h).2
    | ok created =>
      rw [bind_ok _ hload] at h
      simp only [get_bind] at h
      cases hpreKeys : InMemoryPreKeyStore.create crypto m₁.identity startup.signedPreKey startup.signedKemPreKey
        startup.oneTimePreKeys startup.oneTimeKemPreKeys with
      | error e =>
        rw [hpreKeys] at h
        cases (Prod.mk.inj h).2
      | ok preKeys =>
        rw [hpreKeys] at h
        simp only [lift_ok_bind, modify_bind] at h
        cases haddress : addressOf crypto (publicIdentityOf m₁.identity).signingPublicKey with
        | error e =>
          rw [haddress] at h
          cases (Prod.mk.inj h).2
        | ok address =>
          rw [haddress] at h
          simp only [lift_ok_bind, modify_bind] at h
          cases hregister : startup.register (publicIdentityOf m₁.identity) preKeys.published with
          | error e =>
            rw [hregister] at h
            cases (Prod.mk.inj h).2
          | ok _ =>
            rw [hregister] at h
            simp only [lift_ok_bind] at h
            cases hauthenticate : startup.authenticate address with
            | error e =>
              rw [hauthenticate] at h
              cases (Prod.mk.inj h).2
            | ok _ =>
              rw [hauthenticate] at h
              obtain ⟨rfl, _⟩ := Prod.mk.inj h
              refine ⟨?_, hsent⟩
              rw [← hbook]
              rfl

theorem start_follows (startup : Startup K) : Follows crypto m.toKeyRing m.dispatched
    (if m.starts crypto startup then .restarted else .quiet) (m.start crypto startup) := by
  unfold start starts
  cases hrun : initialise crypto startup m.reopened with
  | mk m' r =>
    cases r with
    | error e => exact Follows.still rfl rfl
    | ok out =>
      obtain ⟨hbook, hsent⟩ := initialise_book hrun
      refine ⟨hbook.trans ?_, fun dispatch hmem => Or.inl (hsent ▸ hmem)⟩
      rfl

theorem replenishPreKeysIfNeeded_follows (topUp : TopUp K) :
    Follows crypto m.toKeyRing m.dispatched .quiet (replenishPreKeysIfNeeded topUp m).1 := by
  unfold replenishPreKeysIfNeeded
  cases topUp.preKeyCount with
  | error e => exact Follows.still rfl rfl
  | ok count =>
    dsimp only
    split
    next => exact Follows.still rfl rfl
    next =>
      simp only [get_bind, modify_bind]
      refine Follows.bind_quiet ?_ (fun _ => Quiet.pure _)
      exact Follows.still rfl rfl

/-- A code that cannot be read, or is the device's own, changes nothing. -/
theorem addContactFromCode_none {code : String} (h : m.toKeyRing.scan crypto code = none) :
    ∃ e, addContactFromCode crypto around code m = (m, .error e) := by
  unfold addContactFromCode
  unfold KeyRing.scan at h
  cases hbytes : fromBase64Url code with
  | error e => exact ⟨e, rfl⟩
  | ok bytes =>
    cases hidentity : parseVerificationQrPayload crypto bytes with
    | error e => exact ⟨e, by simp only [lift_ok_bind, hidentity, lift_error_bind]⟩
    | ok identity =>
      cases haddress : addressOf crypto identity.signingPublicKey with
      | error e => exact ⟨e, by simp only [lift_ok_bind, hidentity, haddress, lift_error_bind]⟩
      | ok address =>
        rw [hbytes, Outcome.ok_bind, hidentity, Outcome.ok_bind, haddress, Outcome.ok_bind] at h
        have hself : address = m.address := by
          by_contra hne
          exact absurd h (by simp [pure, Except.pure, hne])
        simp only [lift_ok_bind, hidentity, haddress, get_bind, if_pos hself, fail_run]
        exact ⟨_, rfl⟩

/-- A code that is read puts its key on file under its address. -/
theorem addContactFromCode_some {code : String} {identity : PublicIdentity}
    (h : m.toKeyRing.scan crypto code = some (address, identity)) : ∃ m',
      addContactFromCode crypto around code m = (m', .ok address) ∧
      m'.toKeyRing.book = m.toKeyRing.book.after (.changed address (.scanned (toBase64Url identity.signingPublicKey))) ∧
      m'.pairing = m.pairing ∧ m'.dispatched = m.dispatched := by
  obtain ⟨bytes, hbytes, hidentity, haddress, hne⟩ := KeyRing.scan_eq_some h
  unfold addContactFromCode
  simp only [hbytes, lift_ok_bind, hidentity, haddress, get_bind, if_neg hne, putMeta, putContact, modify_bind, emit]
  refine ⟨_, rfl, KeyRing.book_changed ?_ ?_ rfl rfl rfl, rfl, rfl⟩
  · intro a ha
    simp [KeyRing.entry, OrderedMap.get?_set, ha]
  · simp [KeyRing.entry, Entry.after, encodeIdentity]

theorem markVerified_follows : Follows crypto m.toKeyRing m.dispatched
    (if m.contacts.get? address = none then .quiet else .changed address .verified) (markVerified address m).1 := by
  unfold markVerified
  simp only [get_bind]
  cases hcontact : m.contacts.get? address with
  | none => exact Follows.still rfl rfl
  | some contact =>
    simp only [reduceCtorEq, if_false, putContact, modify_bind]
    set known : Contact := { contact with verification := .verified, identityChangedAt := none }
    have hbook : ({ m with contacts := m.contacts.set address known } : Messenger K).toKeyRing.book =
        m.toKeyRing.book.after (.changed address .verified) := by
      refine KeyRing.book_changed ?_ ?_ rfl rfl rfl
      · intro a ha
        simp [KeyRing.entry, OrderedMap.get?_set, ha]
      · simp [KeyRing.entry, Entry.after, hcontact, known]
    cases hkey : fromBase64Url contact.identityKey with
    | error e => exact ⟨hbook, fun _ hmem => Or.inl hmem⟩
    | ok key =>
      simp only [lift_ok_bind, modify_bind]
      exact Follows.quiet ⟨hbook, fun _ hmem => Or.inl hmem⟩ (Quiet.emit _)

theorem acceptIdentityChange_follows : Follows crypto m.toKeyRing m.dispatched
    (if m.contacts.get? address = none then .quiet
      else
        match around.fetchBundle address with
        | .error _ => .changed address .dropped
        | .ok bundle => .changed address (.replaced (toBase64Url bundle.identity.signingPublicKey)))
    (acceptIdentityChange around address m).1 := by
  unfold acceptIdentityChange
  simp only [get_bind]
  cases hcontact : m.contacts.get? address with
  | none => exact Follows.still rfl rfl
  | some contact =>
    simp only [reduceCtorEq, if_false, modify_bind]
    cases hfetch : around.fetchBundle address with
    | error e =>
      refine ⟨KeyRing.book_changed ?_ ?_ rfl rfl rfl, fun _ hmem => Or.inl hmem⟩
      · intro a ha
        simp [KeyRing.entry, OrderedMap.get?_delete, ha]
      · simp [KeyRing.entry, Entry.after, hcontact]
    | ok bundle =>
      simp only [lift_ok_bind, putContact, modify_bind]
      refine Follows.quiet ⟨KeyRing.book_changed ?_ ?_ rfl rfl rfl, fun _ hmem => Or.inl hmem⟩ (Quiet.emit _)
      · intro a ha
        simp [KeyRing.entry, OrderedMap.get?_delete, OrderedMap.get?_set, ha]
      · simp [KeyRing.entry, Entry.after]

theorem renameContact_follows (displayName : String) :
    Follows crypto m.toKeyRing m.dispatched .quiet (renameContact address displayName m).1 := by
  unfold renameContact
  simp only [get_bind]
  cases hcontact : m.contacts.get? address with
  | none => exact Follows.still rfl rfl
  | some contact =>
    simp only [putContact, modify_bind]
    refine Follows.quiet (Follows.still ?_ rfl) (Quiet.emit _)
    refine AddressBook.ext (funext fun a => ?_) rfl rfl rfl
    show KeyRing.entry _ a = KeyRing.entry _ a
    simp only [KeyRing.entry, OrderedMap.get?_set]
    split
    next heq => simp [heq, hcontact]
    next => rfl

theorem loadPins_follows : Follows crypto m.toKeyRing m.dispatched .quiet (loadPins m).1 := by
  have hall : ∀ (entries : List (String × Contact)) (m' : Messenger K), m'.toKeyRing.book = m.toKeyRing.book →
      m'.dispatched = m.dispatched → (loadPinsFrom entries m').1.toKeyRing.book = m.toKeyRing.book ∧
        (loadPinsFrom entries m').1.dispatched = m.dispatched := by
    intro entries
    induction entries with
    | nil => exact fun _ hbook hsent => ⟨hbook, hsent⟩
    | cons entry rest ih =>
      intro m' hbook hsent
      obtain ⟨address, contact⟩ := entry
      unfold loadPinsFrom
      split
      next =>
        cases hkey : fromBase64Url contact.identityKey with
        | error e => exact ⟨hbook, hsent⟩
        | ok key =>
          simp only [lift_ok_bind, modify_bind]
          exact ih _ hbook hsent
      next => exact ih m' hbook hsent
  obtain ⟨hbook, hsent⟩ := hall m.contacts.entries m rfl rfl
  exact Follows.still hbook hsent

theorem pairWithCode_follows {code displayName : String} : Follows crypto m.toKeyRing m.dispatched
    (if m.pairing.isSome then .quiet
      else
        match m.toKeyRing.scan crypto code with
        | none => .quiet
        | some (address, identity) =>
          if address = "" ∨ toBase64Url identity.signingPublicKey = "" then
            .changed address (.scanned (toBase64Url identity.signingPublicKey))
          else .paired address (toBase64Url identity.signingPublicKey))
    (pairWithCode crypto around code displayName m).1 := by
  unfold pairWithCode
  simp only [get_bind]
  cases hpairing : m.pairing with
  | some pairing => exact Follows.still rfl rfl
  | none =>
    simp only [Option.isSome_none, Bool.false_eq_true, if_false]
    cases hscan : m.toKeyRing.scan crypto code with
    | none =>
      obtain ⟨e, hadd⟩ := (@addContactFromCode_none _ _ around) hscan
      simp only [bind_error _ hadd]
      exact Follows.still rfl rfl
    | some read =>
      obtain ⟨address, identity⟩ := read
      obtain ⟨m', hadd, hbook, hnone, hsent⟩ := (@addContactFromCode_some _ _ around) hscan
      simp only [bind_ok _ hadd, get_bind]
      have hentry : (m'.contacts.get? address).map Contact.identityKey = some (toBase64Url identity.signingPublicKey) := by
        have := congrArg (fun book => (book.entry address).contact) hbook
        simpa [AddressBook.after, AddressBook.edit, Entry.after, KeyRing.book, KeyRing.entry] using this
      obtain ⟨contact, hcontact, hkey⟩ := Option.map_eq_some_iff.mp hentry
      simp only [hcontact, hkey, createPairing]
      by_cases hblank : address = "" ∨ toBase64Url identity.signingPublicKey = ""
      · simp only [if_pos hblank]
        exact ⟨hbook, fun _ hmem => Or.inl (hsent ▸ hmem)⟩
      · simp only [if_neg hblank, lift_ok_bind, modify_bind]
        refine ⟨?_, fun _ hmem => Or.inl (hsent ▸ hmem)⟩
        have hentries := congrArg AddressBook.entry hbook
        have hlocked := congrArg AddressBook.locked hbook
        exact AddressBook.ext hentries rfl rfl hlocked

theorem deleteConversation_follows :
    Follows crypto m.toKeyRing m.dispatched (.changed address .dropped) (deleteConversation address m).1 := by
  unfold deleteConversation
  refine Follows.after_quiet (Quiet.keepMessages _) rfl fun m' hring hsent => ?_
  rw [← hring, ← hsent]
  refine ⟨KeyRing.book_changed ?_ ?_ rfl rfl rfl, fun _ hmem => Or.inl hmem⟩
  · intro a ha
    simp [KeyRing.entry, OrderedMap.get?_delete, ha]
  · simp [KeyRing.entry, Entry.after]

theorem unpair_follows : Follows crypto m.toKeyRing m.dispatched .unpaired (unpair m).1 := by
  unfold unpair
  simp only [get_bind]
  cases hpairing : m.pairing with
  | none =>
    refine ⟨?_, fun _ hmem => Or.inl hmem⟩
    have hafter : m.toKeyRing.book.after .unpaired = { m.toKeyRing.book with pairing := none, stored := none } := by
      simp [KeyRing.book, AddressBook.after, hpairing]
    rw [hafter]
    rfl
  | some pairing =>
    have hafter : m.toKeyRing.book.after .unpaired =
        { m.toKeyRing.book.edit pairing.peerAddress {} with pairing := none, stored := none } := by
      simp [KeyRing.book, AddressBook.after, hpairing, PairingState.peer]
    dsimp only
    unfold deleteConversation
    simp only [bind_assoc]
    refine Follows.after_quiet (Quiet.keepMessages _) rfl fun m' hring hsent => ?_
    rw [← hring] at hafter ⊢
    rw [← hsent]
    refine ⟨?_, fun _ hmem => Or.inl hmem⟩
    rw [hafter]
    refine AddressBook.ext (funext fun a => ?_) rfl rfl rfl
    by_cases ha : a = pairing.peerAddress
    · simp [KeyRing.book, KeyRing.entry, AddressBook.edit, ha]
    · simp [KeyRing.book, KeyRing.entry, AddressBook.edit, OrderedMap.get?_delete, ha]

theorem renamePairedPeer_follows (displayName : String) : Follows crypto m.toKeyRing m.dispatched
    (if m.pairing.isSome then .refiled else .quiet) (renamePairedPeer displayName m).1 := by
  unfold renamePairedPeer
  simp only [get_bind]
  cases hpairing : m.pairing with
  | none => exact Follows.still rfl rfl
  | some pairing =>
    simp only [modify_bind, Option.isSome_some, if_true]
    set updated : PairingState := { pairing with displayName }
    refine Follows.and_still (m := { m with pairingStore := some updated, pairing := some updated }) ?_ rfl
      (renameContact_follows displayName)
    refine AddressBook.ext rfl ?_ ?_ rfl <;> simp [KeyRing.book, AddressBook.after, hpairing, PairingState.peer, updated]

theorem perform_follows (request : Request K) : Follows crypto m.toKeyRing m.dispatched
    (m.toKeyRing.label crypto (m.starts crypto) request) (m.perform crypto codec request) := by
  cases request with
  | start startup => exact start_follows startup
  | startConversation around address => exact startConversation_follows
  | sendText around address body expires => exact sendText_follows body expires
  | sendCallPayload around address payload => exact sendPayload_follows payload
  | sendTyping around address typing => exact sendTyping_follows typing
  | sendReceipt around address ids receipt => exact sendReceipt_follows ids receipt
  | handleDelivered around delivered => exact handleDelivered_follows delivered
  | replenishPreKeysIfNeeded topUp => exact replenishPreKeysIfNeeded_follows topUp
  | safetyNumberWith address => exact (Quiet.safetyNumberWith crypto address).follows
  | addContactFromCode around code =>
    simp only [KeyRing.label, perform]
    cases hscan : m.toKeyRing.scan crypto code with
    | none =>
      obtain ⟨e, hadd⟩ := addContactFromCode_none hscan
      rw [hadd]
      exact Follows.still rfl rfl
    | some read =>
      obtain ⟨address, identity⟩ := read
      obtain ⟨m', hadd, hbook, _, hsent⟩ := addContactFromCode_some hscan
      rw [hadd]
      exact ⟨hbook, fun _ hmem => Or.inl (hsent ▸ hmem)⟩
  | markVerified address => exact markVerified_follows
  | acceptIdentityChange around address => exact acceptIdentityChange_follows
  | renameContact address displayName => exact renameContact_follows displayName
  | loadPins => exact loadPins_follows
  | setDisappearTimer address seconds => exact (Quiet.setDisappearTimer address seconds).follows
  | markRead address => exact (Quiet.markRead address).follows
  | history around address => exact (Quiet.history around address).follows
  | purgeExpired around => exact (Quiet.purgeExpired around).follows
  | deleteConversation address => exact deleteConversation_follows
  | pairWithCode around code displayName => exact pairWithCode_follows
  | unpair => exact unpair_follows
  | renamePairedPeer displayName => exact renamePairedPeer_follows displayName

end

section

variable {K : Type} (crypto : Cryptography K) (codec : PayloadCodec)

/-- A messenger that has nothing on file yet. -/
structure Blank (m : Messenger K) : Prop where
  sessions : m.sessions = OrderedMap.empty
  contacts : m.contacts = OrderedMap.empty
  sessionMeta : m.sessionMeta = OrderedMap.empty
  pairing : m.pairing = none
  pairingStore : m.pairingStore = none
  dispatched : m.dispatched = []

/-- One request, of those that `allowed` lets through. -/
inductive Step (allowed : KeyRing K → Request K → Prop) : Messenger K → Messenger K → Prop
  | perform (m : Messenger K) (request : Request K) (meets : allowed m.toKeyRing request) :
    Step allowed m (m.perform crypto codec request)

end

section

variable {K : Type} {crypto : Cryptography K} {codec : PayloadCodec} {allowed : KeyRing K → Request K → Prop}
  {m m' : Messenger K}

theorem Blank.book (h : m.Blank) : m.toKeyRing.book = { locked := m.paired } := by
  refine AddressBook.ext (funext fun address => ?_) ?_ ?_ rfl
  · simp [KeyRing.book, KeyRing.entry, h.sessions, h.contacts, h.sessionMeta]
  · simp [KeyRing.book, h.pairing]
  · simp [KeyRing.book, h.pairingStore]

/-- What every label of an allowed request preserves of the keys on file holds along every run. -/
theorem run_keeps {P : AddressBook → Prop}
    (keeps : ∀ (m : Messenger K) (request : Request K), allowed m.toKeyRing request → P m.toKeyRing.book →
      P (m.toKeyRing.book.after (m.toKeyRing.label crypto (m.starts crypto) request)))
    (run : Relation.ReflTransGen (Step crypto codec allowed) m m') (h : P m.toKeyRing.book) : P m'.toKeyRing.book := by
  refine Runs.preserved (P := fun m => P m.toKeyRing.book) ?_ run h
  rintro m _ ⟨request, meets⟩ hbook
  rw [(perform_follows request).book]
  exact keeps m request meets hbook

end

end Messenger

end Veil
