import Veil.Agreement
import Veil.Registration
import Veil.SigningContexts

namespace Veil

section

variable {K : Type} (crypto : Cryptography K) (honest : Generators K) (owner : PrivateIdentity K) (spared : Int → Prop)

/-- What an identity key has been asked to sign by the end of a run of its prekey store: its exchange key, the
signed prekeys of every generation, and the sender proofs and challenges of any traffic. -/
inductive AskedToSign (start now : InMemoryPreKeyStore K) : SigningContext → Prop
  | exchangeKey : AskedToSign start now (.exchangeKey owner.signing.publicKey 0 owner.exchange.publicKey)
  | signedPreKey {store : InMemoryPreKeyStore K}
      (before : Relation.ReflTransGen (InMemoryPreKeyStore.LifeStep crypto honest owner spared) start store)
      (after : Relation.ReflTransGen (InMemoryPreKeyStore.LifeStep crypto honest owner spared) store now) :
      AskedToSign start now (.signedPreKey owner.signing.publicKey store.currentSignedPreKey.id
        store.currentSignedPreKey.publicKey)
  | signedKemPreKey {store : InMemoryPreKeyStore K}
      (before : Relation.ReflTransGen (InMemoryPreKeyStore.LifeStep crypto honest owner spared) start store)
      (after : Relation.ReflTransGen (InMemoryPreKeyStore.LifeStep crypto honest owner spared) store now) :
      AskedToSign start now (.signedKemPreKey owner.signing.publicKey store.currentSignedKemPreKey.id
        store.currentSignedKemPreKey.publicKey)
  | senderProof (ephemeralPublicKey : Bytes) (recipientAddress : String) (payloadKind : Nat) (payload : Bytes) :
      AskedToSign start now (.senderProof ephemeralPublicKey recipientAddress payloadKind payload)
  | authentication (address : Base32) (challenge : Bytes) : AskedToSign start now (.authentication address challenge)

/-- The three signatures a bundle carries. -/
def PreKeyBundle.signatures (bundle : PreKeyBundle) : List Bytes :=
  [bundle.identity.exchangeKeySignature, bundle.signedPreKey.signature, bundle.signedKemPreKey.signature]

/-- No signature of the bundle is a forgery: under the owner's key it verifies only for what the owner signed. -/
def Unforged (start now : InMemoryPreKeyStore K) (bundle : PreKeyBundle) : Prop :=
  ∀ signature ∈ bundle.signatures, ∀ message, crypto.verify owner.signing.publicKey message signature = true →
    ∃ context, AskedToSign crypto honest owner spared start now context ∧ context.transcript = .ok message

end

section

variable {K : Type} {crypto : Cryptography K} {honest : Generators K} {self owner : PrivateIdentity K}
  {spared : Int → Prop} {start now : InMemoryPreKeyStore K} {bundle : PreKeyBundle}

theorem verifySigned_verifies {context : Int} {name : String} {length : Nat} {signingKey : Bytes} {key : SignedPreKey}
    (h : verifySigned crypto context name length signingKey key = .ok ()) :
    ∃ transcript, signingTranscript context signingKey key.id key.publicKey = .ok transcript ∧
      crypto.verify signingKey transcript key.signature = true := by
  unfold verifySigned at h
  by_cases hlength : key.publicKey.length = length
  swap
  · rw [if_pos hlength] at h
    cases h
  rw [if_neg (not_not_intro hlength)] at h
  obtain ⟨transcript, htranscript, h⟩ := Outcome.bind_eq_ok_iff.mp h
  refine ⟨transcript, htranscript, ?_⟩
  cases hverify : crypto.verify signingKey transcript key.signature with
  | true => rfl
  | false =>
    rw [hverify] at h
    cases h

/-- Where nothing is forged, the owner has been asked to sign whatever verifies. -/
theorem Unforged.asked (unforged : Unforged crypto honest owner spared start now bundle) {signature : Bytes}
    (hsignature : signature ∈ bundle.signatures) {context : SigningContext} {transcript : Bytes}
    (htranscript : context.transcript = .ok transcript)
    (hverify : crypto.verify owner.signing.publicKey transcript signature = true) :
    AskedToSign crypto honest owner spared start now context := by
  obtain ⟨signed, hasked, hsigned⟩ := unforged signature hsignature transcript hverify
  rwa [SigningContext.transcript_injective htranscript hsigned]

/-- A bundle that a client accepts under the owner's key names the owner's exchange key, and signed prekeys of
generations the owner has had, which need not be the same one. -/
theorem accepted_signed (unforged : Unforged crypto honest owner spared start now bundle)
    (signing : bundle.identity.signingPublicKey = owner.signing.publicKey)
    (accepted : verifyPreKeyBundle crypto bundle = .ok ()) :
    bundle.identity.exchangePublicKey = owner.exchange.publicKey ∧
      AskedToSign crypto honest owner spared start now
        (.signedPreKey owner.signing.publicKey bundle.signedPreKey.id bundle.signedPreKey.publicKey) ∧
      AskedToSign crypto honest owner spared start now
        (.signedKemPreKey owner.signing.publicKey bundle.signedKemPreKey.id bundle.signedKemPreKey.publicKey) := by
  obtain ⟨hbound, hsigned, hkem⟩ := Relay.verifyPreKeyBundle_signed accepted
  obtain ⟨binding, hbinding, hbinds⟩ := verifyIdentityBinding_eq_true hbound
  obtain ⟨transcript, htranscript, hverify⟩ := verifySigned_verifies hsigned
  obtain ⟨kemTranscript, hkemTranscript, hkemVerify⟩ := verifySigned_verifies hkem
  rw [signing] at hbinding hbinds htranscript hverify hkemTranscript hkemVerify
  have hexchange := (@Unforged.asked _ _ _ _ _ _ _ _ unforged _ List.mem_cons_self
    (.exchangeKey owner.signing.publicKey 0 bundle.identity.exchangePublicKey)) hbinding hbinds
  refine ⟨?_, ?_, ?_⟩
  · generalize bundle.identity.exchangePublicKey = publicKey at hexchange
    cases hexchange
    rfl
  · have hmem : bundle.signedPreKey.signature ∈ bundle.signatures := List.mem_cons_of_mem _ List.mem_cons_self
    exact @Unforged.asked _ _ _ _ _ _ _ _ unforged _ hmem (.signedPreKey _ _ _) _ htranscript hverify
  · have hmem : bundle.signedKemPreKey.signature ∈ bundle.signatures :=
      List.mem_cons_of_mem _ (List.mem_cons_of_mem _ List.mem_cons_self)
    exact @Unforged.asked _ _ _ _ _ _ _ _ unforged _ hmem (.signedKemPreKey _ _ _) _ hkemTranscript hkemVerify

/-- A signed prekey of any generation is kept to. -/
theorem asked_keyed (created : InMemoryPreKeyStore.Created crypto honest owner start) {id : Int} {publicKey : Bytes}
    (asked : AskedToSign crypto honest owner spared start now (.signedPreKey owner.signing.publicKey id publicKey)) :
    InMemoryPreKeyStore.Keyed now.signedPreKey (InMemoryPreKeyStore.WholeOrWiped crypto honest (spared id)) now.nextId
      id publicKey := by
  cases asked with
  | signedPreKey before after =>
    have sound := InMemoryPreKeyStore.sound_of_run created before
    exact (InMemoryPreKeyStore.descends_of_run after).keyed_signed sound.signed

theorem asked_kemKeyed (created : InMemoryPreKeyStore.Created crypto honest owner start) {id : Int} {publicKey : Bytes}
    (asked : AskedToSign crypto honest owner spared start now (.signedKemPreKey owner.signing.publicKey id publicKey)) :
    InMemoryPreKeyStore.Keyed now.signedKemPreKey honest.kem now.nextId id publicKey := by
  cases asked with
  | signedKemPreKey before after =>
    have sound := InMemoryPreKeyStore.sound_of_run created before
    have later := InMemoryPreKeyStore.descends_of_run after
    exact sound.kem.descends later.nextId (later.kem _ sound.kem.1)

/-- The one-time prekeys a bundle names are the store's own. -/
structure OwnOneTime (honest : Generators K) (store : InMemoryPreKeyStore K) (bundle : PreKeyBundle) : Prop where
  oneTime : ∀ key, bundle.oneTimePreKey = some key →
    InMemoryPreKeyStore.Keyed store.oneTimePreKey honest.dh store.nextId key.id key.publicKey
  oneTimeKem : ∀ key, bundle.oneTimeKemPreKey = some key →
    InMemoryPreKeyStore.Keyed store.oneTimeKemPreKey honest.kem store.nextId key.id key.publicKey

theorem honours_of_accepted (created : InMemoryPreKeyStore.Created crypto honest owner start)
    (unforged : Unforged crypto honest owner spared start now bundle)
    (signing : bundle.identity.signingPublicKey = owner.signing.publicKey)
    (accepted : verifyPreKeyBundle crypto bundle = .ok ()) (own : OwnOneTime honest now bundle) :
    InMemoryPreKeyStore.Honours crypto honest spared now bundle := by
  obtain ⟨_, hsigned, hkem⟩ := accepted_signed unforged signing accepted
  exact ⟨asked_keyed created hsigned, asked_kemKeyed created hkem, own.oneTime, own.oneTimeKem⟩

/-- The same bundle under the owner's own identity, with the signature the owner made. -/
def PreKeyBundle.under (bundle : PreKeyBundle) (identity : PublicIdentity) : PreKeyBundle := { bundle with identity }

/-- A handshake looks at an identity's keys, not at the signature that binds them once it has verified. -/
theorem initiateHandshake_under {identity : PublicIdentity} {ephemeral : KeyPair K} {coins : Bytes}
    (signing : bundle.identity.signingPublicKey = identity.signingPublicKey)
    (exchange : bundle.identity.exchangePublicKey = identity.exchangePublicKey)
    (bound : verifyIdentityBinding crypto identity = .ok true) {handshake : InitiatorHandshake K}
    (initiated : initiateHandshake crypto self bundle ephemeral coins = .ok handshake) :
    initiateHandshake crypto self (bundle.under identity) ephemeral coins = .ok handshake := by
  have hverify : ∀ accepted, verifyPreKeyBundle crypto bundle = .ok accepted →
      verifyPreKeyBundle crypto (bundle.under identity) = .ok accepted := by
    intro accepted haccepted
    obtain ⟨hbound, _⟩ := Relay.verifyPreKeyBundle_signed haccepted
    unfold verifyPreKeyBundle PreKeyBundle.under at *
    rw [hbound] at haccepted
    rw [bound]
    simpa only [← signing] using haccepted
  unfold initiateHandshake at initiated ⊢
  obtain ⟨_, haccepted, initiated⟩ := Outcome.bind_eq_ok_iff.mp initiated
  refine Outcome.bind_eq_ok_iff.mpr ⟨_, hverify _ haccepted, ?_⟩
  simpa only [PreKeyBundle.under, handshakeTranscript, associatedData, ← signing, ← exchange] using initiated

/-- Agreement with a store that keeps to the bundle: exactly while the signed prekey is whole. -/
theorem agreement_iff_whole (lawful : crypto.Lawful honest) (separating : crypto.Separating honest)
    (hself : self.Honest crypto honest) (howner : owner.Honest crypto honest)
    (hbundle : bundle.identity = publicIdentityOf owner)
    (honours : InMemoryPreKeyStore.Honours crypto honest spared now bundle) {ephemeral : KeyPair K}
    (he : honest.dh ephemeral) {coins : Bytes} {handshake : InitiatorHandshake K}
    (initiated : initiateHandshake crypto self bundle ephemeral coins = .ok handshake)
    {signedPreKey signedKemPreKey : KeyPair K} {oneTime oneTimeKem : Option (KeyPair K)}
    (resolves : Resolves now handshake.keyIds signedPreKey signedKemPreKey oneTime oneTimeKem) :
    respondToHandshake crypto owner
        (resolvedInput (publicIdentityOf self) handshake signedPreKey signedKemPreKey oneTime oneTimeKem) =
          .ok (handshake.rootSecret, handshake.associatedData) ↔
      ¬∃ key, signedPreKey.secretKey = crypto.wiped key := by
  have hsigned := resolves.signed
  rw [initiateHandshake_keyIds initiated] at hsigned
  obtain ⟨_, hgood⟩ := honours.signed.2 _ hsigned
  constructor
  · intro hagree hwiped
    obtain ⟨key, hkey⟩ := hwiped
    apply disagreement_of_wiped lawful separating hself honours initiated resolves hkey hagree
  · intro hwhole
    rcases hgood with hgood | hgood
    · exact agreement_of_whole lawful hself howner hbundle honours he initiated resolves hgood
    · obtain ⟨_, _, _, _, hwiped⟩ := hgood
      exact absurd hwiped hwhole

/-- Whatever bundle a relay hands out, a client that accepts it under the owner's key has the owner's exchange key and
signed prekeys of generations the owner has had. Any handshake from it then agrees with the owner exactly while the
signed prekey it names is whole, where the one-time prekeys, which nobody has signed, are the store's own. -/
theorem bundle_authentic (lawful : crypto.Lawful honest) (separating : crypto.Separating honest)
    (howner : owner.Honest crypto honest) (created : InMemoryPreKeyStore.Created crypto honest owner start)
    (unforged : Unforged crypto honest owner spared start now bundle)
    (signing : bundle.identity.signingPublicKey = owner.signing.publicKey)
    (accepted : verifyPreKeyBundle crypto bundle = .ok ()) :
    bundle.identity.exchangePublicKey = owner.exchange.publicKey ∧
    (∃ store, Relation.ReflTransGen (InMemoryPreKeyStore.LifeStep crypto honest owner spared) start store ∧
      Relation.ReflTransGen (InMemoryPreKeyStore.LifeStep crypto honest owner spared) store now ∧
      bundle.signedPreKey.id = store.currentSignedPreKey.id ∧
      bundle.signedPreKey.publicKey = store.currentSignedPreKey.publicKey) ∧
    (∃ store, Relation.ReflTransGen (InMemoryPreKeyStore.LifeStep crypto honest owner spared) start store ∧
      Relation.ReflTransGen (InMemoryPreKeyStore.LifeStep crypto honest owner spared) store now ∧
      bundle.signedKemPreKey.id = store.currentSignedKemPreKey.id ∧
      bundle.signedKemPreKey.publicKey = store.currentSignedKemPreKey.publicKey) ∧
    ∀ (self : PrivateIdentity K), self.Honest crypto honest → OwnOneTime honest now bundle →
      ∀ ephemeral, honest.dh ephemeral → ∀ coins handshake,
        initiateHandshake crypto self bundle ephemeral coins = .ok handshake →
        ∀ signedPreKey signedKemPreKey oneTime oneTimeKem,
          Resolves now handshake.keyIds signedPreKey signedKemPreKey oneTime oneTimeKem →
          (respondToHandshake crypto owner
              (resolvedInput (publicIdentityOf self) handshake signedPreKey signedKemPreKey oneTime oneTimeKem) =
                .ok (handshake.rootSecret, handshake.associatedData) ↔
            ¬∃ key, signedPreKey.secretKey = crypto.wiped key) := by
  obtain ⟨hexchange, hsigned, hkem⟩ := accepted_signed unforged signing accepted
  refine ⟨hexchange, ?_, ?_, ?_⟩
  · generalize bundle.signedPreKey.id = id, bundle.signedPreKey.publicKey = publicKey at hsigned
    cases hsigned with
    | signedPreKey before after => exact ⟨_, before, after, rfl, rfl⟩
  · generalize bundle.signedKemPreKey.id = id, bundle.signedKemPreKey.publicKey = publicKey at hkem
    cases hkem with
    | signedKemPreKey before after => exact ⟨_, before, after, rfl, rfl⟩
  · intro self hself own ephemeral he coins handshake initiated signedPreKey signedKemPreKey oneTime oneTimeKem resolves
    -- The handshake is the one the same bundle gives under the owner's own identity.
    have honours := honours_of_accepted created unforged signing accepted own
    have hunder : InMemoryPreKeyStore.Honours crypto honest spared now (bundle.under (publicIdentityOf owner)) :=
      ⟨honours.signed, honours.kem, honours.oneTime, honours.oneTimeKem⟩
    have hinitiated := initiateHandshake_under signing hexchange (verifyIdentityBinding_honest lawful howner) initiated
    exact agreement_iff_whole lawful separating hself howner rfl hunder he hinitiated resolves

/-- What the initiator agrees on with the keys of a bundle. -/
def dhOutputs (crypto : Cryptography K) (self : PrivateIdentity K) (bundle : PreKeyBundle) (ephemeral : KeyPair K) :
    Except Failure (List K) := do
  let dh1 ← crypto.dh self.exchange.secretKey bundle.signedPreKey.publicKey
  let dh2 ← crypto.dh ephemeral.secretKey bundle.identity.exchangePublicKey
  let dh3 ← crypto.dh ephemeral.secretKey bundle.signedPreKey.publicKey
  let dh4 ← bundle.oneTimePreKey.mapM (fun key => crypto.dh ephemeral.secretKey key.publicKey)
  return [dh1, dh2, dh3] ++ dh4.toList

/-- A one-time ML-KEM prekey of the relay's own passes every check, and the relay then decapsulates what the initiator
encapsulates. The DH outputs are those of the untouched bundle, and all that is left of the root secret. -/
theorem oneTimeKem_substituted (lawful : crypto.Lawful honest) (accepted : verifyPreKeyBundle crypto bundle = .ok ())
    {relays : KeyPair K} (generated : honest.kem relays) (id : Int) :
    verifyPreKeyBundle crypto { bundle with oneTimeKemPreKey := some ⟨id, relays.publicKey⟩ } = .ok () ∧
    ∀ self ephemeral coins handshake,
      initiateHandshake crypto self { bundle with oneTimeKemPreKey := some ⟨id, relays.publicKey⟩ } ephemeral coins =
        .ok handshake →
      ∃ outputs kemSecret transcript, dhOutputs crypto self bundle ephemeral = .ok outputs ∧
        crypto.kemDecapsulate handshake.kemCiphertext relays.secretKey = .ok kemSecret ∧
        handshakeTranscript (publicIdentityOf self) bundle.identity handshake.ephemeralPublicKey handshake.kemCiphertext
          handshake.keyIds = .ok transcript ∧
        handshake.rootSecret = crypto.deriveRootSecret (outputs ++ [kemSecret]) transcript ∧
        ∀ untouched, initiateHandshake crypto self bundle ephemeral coins = .ok untouched →
          ∃ kemSecret' transcript', untouched.rootSecret =
            crypto.deriveRootSecret (outputs ++ [kemSecret']) transcript' := by
  constructor
  · have hlength := lawful.kem_length relays generated
    unfold verifyPreKeyBundle at accepted ⊢
    obtain ⟨bound, hbound, accepted⟩ := Outcome.bind_eq_ok_iff.mp accepted
    refine Outcome.bind_eq_ok_iff.mpr ⟨bound, hbound, ?_⟩
    cases bound with
    | false => cases accepted
    | true =>
      obtain ⟨_, hsigned, accepted⟩ := Outcome.bind_eq_ok_iff.mp accepted
      obtain ⟨_, hkem, accepted⟩ := Outcome.bind_eq_ok_iff.mp accepted
      refine Outcome.bind_eq_ok_iff.mpr ⟨(), hsigned, Outcome.bind_eq_ok_iff.mpr ⟨(), hkem, ?_⟩⟩
      by_cases hone : bundle.oneTimePreKey.any (fun key => key.publicKey.length ≠ x25519PublicLen)
      · rw [if_pos hone] at accepted
        cases accepted
      · have hkemLength : Option.any (fun key => decide (key.publicKey.length ≠ mlkemPublicLen))
            (some (⟨id, relays.publicKey⟩ : OneTimePreKey)) = false := by simp [hlength, mlkemPublicLen]
        refine (if_neg hone).trans ?_
        rw [hkemLength]
        rfl
  · intro self ephemeral coins handshake initiated
    simp only [initiateHandshake, Outcome.bind_eq_ok_iff, Outcome.pure_eq_ok_iff] at initiated
    obtain ⟨_, _, ⟨ciphertext, kemSecret⟩, hencapsulate, dh1, hdh1, dh2, hdh2, dh3, hdh3, dh4, hdh4, transcript,
      htranscript, _, _, rfl⟩ := initiated
    obtain ⟨ciphertext', secret, hencapsulate', hdecapsulate⟩ := lawful.kem_agree relays generated coins
    have htarget : crypto.kemEncapsulate coins relays.publicKey = .ok (ciphertext, kemSecret) := hencapsulate
    rw [htarget, Except.ok.injEq, Prod.mk.injEq] at hencapsulate'
    obtain ⟨rfl, rfl⟩ := hencapsulate'
    have houtputs : dhOutputs crypto self bundle ephemeral = .ok ([dh1, dh2, dh3] ++ dh4.toList) := by
      simp only [dhOutputs, Outcome.bind_eq_ok_iff, Outcome.pure_eq_ok_iff]
      exact ⟨dh1, hdh1, dh2, hdh2, dh3, hdh3, dh4, hdh4, rfl⟩
    refine ⟨[dh1, dh2, dh3] ++ dh4.toList, kemSecret, transcript, houtputs, hdecapsulate, htranscript, rfl, ?_⟩
    intro untouched huntouched
    simp only [initiateHandshake, Outcome.bind_eq_ok_iff, Outcome.pure_eq_ok_iff] at huntouched
    obtain ⟨_, _, ⟨_, kemSecret'⟩, _, dh1', hdh1', dh2', hdh2', dh3', hdh3', dh4', hdh4', transcript', _, _, _, rfl⟩ :=
      huntouched
    obtain rfl := Except.ok.inj (hdh1.symm.trans hdh1')
    obtain rfl := Except.ok.inj (hdh2.symm.trans hdh2')
    obtain rfl := Except.ok.inj (hdh3.symm.trans hdh3')
    obtain rfl := Except.ok.inj (hdh4.symm.trans hdh4')
    exact ⟨kemSecret', transcript', rfl⟩

end

theorem shown_lawful : shown.Lawful spelledGenerators where
  ratchet := spelled_lawful.ratchet
  sign_verify := by
    intro pair h message
    refine ⟨_, rfl, ?_⟩
    rw [h]
    simp [shown, spelledPair]
  signing_length := spelled_lawful.signing_length
  kem_agree := spelled_lawful.kem_agree
  kem_length := spelled_lawful.kem_length

theorem shown_separating : shown.Separating spelledGenerators :=
  ⟨spelled_separating.opens_once, spelled_separating.aeadKey, spelled_separating.messageKey,
    spelled_separating.nextChainKey, spelled_separating.chainKey, spelled_separating.rootSecret,
    spelled_separating.rootSecret_ne, spelled_separating.wiped⟩

namespace BundleAuthenticity

def transcriptOf (context : SigningContext) : Bytes := context.transcript.toOption.getD []

/-- An identity whose signatures show what they sign. -/
def identity (signing exchange : UInt8) : PrivateIdentity Bytes where
  signing := spelledPair 32 signing
  exchange := spelledPair 32 exchange
  exchangeKeySignature :=
    signing :: transcriptOf (.exchangeKey (spelledPair 32 signing).publicKey 0 (spelledPair 32 exchange).publicKey)

theorem identity_honest (signing exchange : UInt8) (h : exchange ≠ 0) :
    (identity signing exchange).Honest shown spelledGenerators where
  signing := rfl
  exchange := ⟨h, rfl⟩
  created := rfl

def owner : PrivateIdentity Bytes := identity 11 12

def created : InMemoryPreKeyStore Bytes :=
  ((InMemoryPreKeyStore.create shown owner (spelledPair 32 13) (spelledPair 1568 14) [] []).toOption).getD {}

def rotated : InMemoryPreKeyStore Bytes :=
  ((created.rotateSignedPreKeys shown owner (spelledPair 32 15) (spelledPair 1568 16)).toOption).getD {}

/-- The signed prekey of the first generation with the signed ML-KEM prekey of the second. -/
def mixed : PreKeyBundle where
  identity := publicIdentityOf owner
  signedPreKey := created.currentSignedPreKey
  signedKemPreKey := rotated.currentSignedKemPreKey

theorem created_fresh : InMemoryPreKeyStore.Created shown spelledGenerators owner created := by
  refine ⟨spelledPair 32 13, spelledPair 1568 14, [], [], ⟨by decide, rfl⟩, spelledPair_kem 14, by simp, by simp, ?_⟩
  have hok : (InMemoryPreKeyStore.create shown owner (spelledPair 32 13) (spelledPair 1568 14) [] []).isOk = true := by
    decide +kernel
  unfold created
  cases hcreate : InMemoryPreKeyStore.create shown owner (spelledPair 32 13) (spelledPair 1568 14) [] [] with
  | error e =>
    rw [hcreate] at hok
    cases hok
  | ok store => rfl

theorem rotated_step (spared : Int → Prop) :
    InMemoryPreKeyStore.LifeStep shown spelledGenerators owner spared created rotated := by
  have hok : (created.rotateSignedPreKeys shown owner (spelledPair 32 15) (spelledPair 1568 16)).isOk = true := by
    decide +kernel
  cases hrotate : created.rotateSignedPreKeys shown owner (spelledPair 32 15) (spelledPair 1568 16) with
  | error e =>
    rw [hrotate] at hok
    cases hok
  | ok store =>
    have hrotated : rotated = store := by
      unfold rotated
      rw [hrotate]
      rfl
    rw [hrotated]
    exact .rotate ⟨by decide, rfl⟩ (spelledPair_kem 16) hrotate

/-- A shown signature verifies for the one message it shows. -/
theorem shown_message {publicKey message transcript : Bytes} {first : UInt8}
    (h : shown.verify publicKey message (first :: transcript) = true) : message = transcript := by
  have hsame : first :: transcript = publicKey.getLastD 0 :: message := of_decide_eq_true h
  exact (List.cons.inj hsame).2.symm

theorem mixed_unforged (spared : Int → Prop) : Unforged shown spelledGenerators owner spared created rotated mixed := by
  intro signature hsignature message hverify
  have run := Relation.ReflTransGen.single (rotated_step spared)
  have hexchange : mixed.identity.exchangeKeySignature = 11 :: transcriptOf (.exchangeKey owner.signing.publicKey 0
      owner.exchange.publicKey) := rfl
  have hsigned : mixed.signedPreKey.signature = 11 :: transcriptOf (.signedPreKey owner.signing.publicKey
      created.currentSignedPreKey.id created.currentSignedPreKey.publicKey) := by decide +kernel
  have hkem : mixed.signedKemPreKey.signature = 11 :: transcriptOf (.signedKemPreKey owner.signing.publicKey
      rotated.currentSignedKemPreKey.id rotated.currentSignedKemPreKey.publicKey) := by decide +kernel
  simp only [PreKeyBundle.signatures, List.mem_cons, List.not_mem_nil, or_false] at hsignature
  rcases hsignature with hsame | hsame | hsame
  · rw [hsame, hexchange] at hverify
    refine ⟨_, .exchangeKey, ?_⟩
    rw [shown_message hverify]
    decide +kernel
  · rw [hsame, hsigned] at hverify
    refine ⟨_, .signedPreKey .refl run, ?_⟩
    rw [shown_message hverify]
    decide +kernel
  · rw [hsame, hkem] at hverify
    refine ⟨_, .signedKemPreKey run .refl, ?_⟩
    rw [shown_message hverify]
    decide +kernel

end BundleAuthenticity

/-- A relay that serves an old signed prekey beside a new ML-KEM one still has the two sides agree. -/
theorem bundle_authentic_mixed : ∃ handshake,
    initiateHandshake shown (BundleAuthenticity.identity 1 2) BundleAuthenticity.mixed (spelledPair 32 21) [7] =
        .ok handshake ∧
      respondToHandshake shown BundleAuthenticity.owner
        (resolvedInput (publicIdentityOf (BundleAuthenticity.identity 1 2)) handshake (spelledPair 32 13)
          (spelledPair 1568 16) none none) = .ok (handshake.rootSecret, handshake.associatedData) := by
  have hok : (initiateHandshake shown (BundleAuthenticity.identity 1 2) BundleAuthenticity.mixed (spelledPair 32 21)
      [7]).isOk = true := by decide +kernel
  cases hinitiate : initiateHandshake shown (BundleAuthenticity.identity 1 2) BundleAuthenticity.mixed
      (spelledPair 32 21) [7] with
  | error e =>
    rw [hinitiate] at hok
    cases hok
  | ok handshake =>
    refine ⟨handshake, rfl, ?_⟩
    have accepted : verifyPreKeyBundle shown BundleAuthenticity.mixed = .ok () := by decide +kernel
    have howner := BundleAuthenticity.identity_honest 11 12 (by decide)
    have hself := BundleAuthenticity.identity_honest 1 2 (by decide)
    have unforged := BundleAuthenticity.mixed_unforged (fun _ => True)
    obtain ⟨_, _, _, hagree⟩ := bundle_authentic shown_lawful shown_separating howner BundleAuthenticity.created_fresh
      unforged rfl accepted
    have own : OwnOneTime spelledGenerators BundleAuthenticity.rotated BundleAuthenticity.mixed :=
      ⟨fun _ h => (nomatch h), fun _ h => (nomatch h)⟩
    have resolves : Resolves BundleAuthenticity.rotated handshake.keyIds (spelledPair 32 13) (spelledPair 1568 16)
        none none := by
      rw [initiateHandshake_keyIds hinitiate]
      exact ⟨by decide +kernel, by decide +kernel, by decide +kernel, by decide +kernel⟩
    apply (hagree _ hself own _ ⟨by decide, rfl⟩ _ handshake hinitiate _ _ _ _ resolves).mpr
    intro hwiped
    obtain ⟨key, hkey⟩ := hwiped
    cases hkey

/-- Alice's handshake from the mixed bundle, once the relay has put a key of its own into it. -/
theorem oneTimeKem_substituted_mixed : ∃ handshake kemSecret,
    initiateHandshake shown (BundleAuthenticity.identity 1 2)
        { BundleAuthenticity.mixed with oneTimeKemPreKey := some ⟨3, (spelledPair 1568 66).publicKey⟩ }
        (spelledPair 32 21) [7] = .ok handshake ∧
      shown.kemDecapsulate handshake.kemCiphertext (spelledPair 1568 66).secretKey = .ok kemSecret := by
  have accepted : verifyPreKeyBundle shown BundleAuthenticity.mixed = .ok () := by decide +kernel
  obtain ⟨_, hknown⟩ := oneTimeKem_substituted shown_lawful accepted (spelledPair_kem 66) 3
  have hok : (initiateHandshake shown (BundleAuthenticity.identity 1 2)
      { BundleAuthenticity.mixed with oneTimeKemPreKey := some ⟨3, (spelledPair 1568 66).publicKey⟩ }
      (spelledPair 32 21) [7]).isOk = true := by decide +kernel
  cases hinitiate : initiateHandshake shown (BundleAuthenticity.identity 1 2)
      { BundleAuthenticity.mixed with oneTimeKemPreKey := some ⟨3, (spelledPair 1568 66).publicKey⟩ }
      (spelledPair 32 21) [7] with
  | error e =>
    rw [hinitiate] at hok
    cases hok
  | ok handshake =>
    obtain ⟨_, kemSecret, _, _, hdecapsulate, _⟩ := hknown _ _ _ handshake hinitiate
    exact ⟨handshake, kemSecret, rfl, hdecapsulate⟩

end Veil
