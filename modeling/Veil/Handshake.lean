import Veil.SessionCodec

namespace Veil

section

variable {K : Type} {crypto : Cryptography K} {honest : Generators K}

/-- An identity that `createIdentity` made from generated pairs. -/
structure PrivateIdentity.Honest (crypto : Cryptography K) (honest : Generators K) (identity : PrivateIdentity K) :
    Prop where
  signing : honest.signing identity.signing
  exchange : honest.dh identity.exchange
  created : createIdentity crypto identity.signing identity.exchange = .ok identity

theorem verify_of_sign (lawful : crypto.Lawful honest) {pair : KeyPair K} (h : honest.signing pair)
    {message signature : Bytes} (hs : crypto.sign pair.secretKey message = .ok signature) :
    crypto.verify pair.publicKey message signature = true := by
  obtain ⟨signature', hs', hv⟩ := lawful.sign_verify pair h message
  rwa [Except.ok.inj (hs.symm.trans hs')]

theorem verifyIdentityBinding_honest (lawful : crypto.Lawful honest) {identity : PrivateIdentity K}
    (h : identity.Honest crypto honest) :
    verifyIdentityBinding crypto (publicIdentityOf identity) = .ok true := by
  have hc := h.created
  simp only [createIdentity, Outcome.bind_eq_ok_iff, Outcome.pure_eq_ok_iff] at hc
  obtain ⟨transcript, ht, signature, hs, heq⟩ := hc
  have hsig : identity.exchangeKeySignature = signature := by rw [← heq]
  have hsl := lawful.signing_length _ h.signing
  have hxl := lawful.ratchet.publicKey_length _ h.exchange
  have hv := verify_of_sign lawful h.signing hs
  simp [verifyIdentityBinding, publicIdentityOf, hsl, hxl, ht, hsig, hv, ed25519PublicLen, x25519PublicLen, pure,
    Except.pure]

theorem addressOf_eq_ok {signingKey : Bytes} (h : signingKey.length = 32) :
    addressOf crypto signingKey =
      .ok (toBase32 ((crypto.hash256 (utf8 "Veil/v1/Address" ++ signingKey)).take addressBytes)) := by
  simp [addressOf, h, ed25519PublicLen]

/-- Opening what was sealed for a recipient gives back the sender and the payload, for any sender whose binding
holds and whose signing function makes signatures that hold. -/
theorem openEnvelope_sealed {generated : KeyPair K → Prop} (lawful : crypto.toRatchetPrimitives.Lawful generated)
    {sender : PublicIdentity} (binding : verifyIdentityBinding crypto sender = .ok true)
    {signWithIdentity : Bytes → Except Failure Bytes}
    (signs : ∀ message signature, signWithIdentity message = .ok signature →
      crypto.verify sender.signingPublicKey message signature = true)
    {recipient : PrivateIdentity K} (hr : generated recipient.exchange) {ephemeral : KeyPair K} (he : generated ephemeral)
    {kind : Nat} {payload : Bytes} {envelope : SealedEnvelope}
    (h : sealEnvelope crypto sender signWithIdentity (publicIdentityOf recipient) kind payload ephemeral = .ok envelope)
    {address : String} (ha : addressOf crypto recipient.signing.publicKey = .ok address) :
    openEnvelope crypto recipient.exchange.secretKey recipient.exchange.publicKey address envelope =
      .ok ⟨sender, kind, payload⟩ := by
  obtain ⟨s, hsend, hreceive⟩ := lawful.dh_agree ephemeral recipient.exchange he hr
  have haddress : addressOf crypto (publicIdentityOf recipient).signingPublicKey = .ok address := ha
  have hdh : crypto.dh ephemeral.secretKey (publicIdentityOf recipient).exchangePublicKey = .ok s := hsend
  obtain ⟨bound, hbound, h⟩ := Outcome.bind_eq_ok_iff.mp h
  cases bound with
  | false => cases h
  | true =>
    simp only [haddress, hdh, Outcome.ok_bind, Bool.not_true, Bool.false_eq_true, ↓reduceIte, Outcome.bind_eq_ok_iff,
      Outcome.pure_eq_ok_iff] at h
    obtain ⟨transcript, htranscript, proof, hproof, inner, hinner, ciphertext, hcipher, rfl⟩ := h
    have hlen := lawful.publicKey_length _ he
    have hopen := lawful.aead _ _ _ _ _ hcipher
    have hread := Decode.all_of_reads (SealedLayer.read_encode hinner)
    have hverify := signs _ _ hproof
    have hpublic : (publicIdentityOf recipient).exchangePublicKey = recipient.exchange.publicKey := rfl
    rw [hpublic] at hopen
    simp [openEnvelope, hlen, x25519PublicLen, hreceive, hopen, hread, binding, htranscript, hverify, pure, Except.pure]

/-- Opening what an honest sender sealed for an honest recipient gives back the sender and the payload. -/
theorem openEnvelope_sealEnvelope (lawful : crypto.Lawful honest) {sender recipient : PrivateIdentity K}
    (hs : sender.Honest crypto honest) (hr : recipient.Honest crypto honest) {ephemeral : KeyPair K}
    (he : honest.dh ephemeral) {kind : Nat} {payload : Bytes} {envelope : SealedEnvelope}
    (h : sealEnvelope crypto (publicIdentityOf sender) (crypto.sign sender.signing.secretKey)
      (publicIdentityOf recipient) kind payload ephemeral = .ok envelope) {address : String}
    (ha : addressOf crypto recipient.signing.publicKey = .ok address) :
    openEnvelope crypto recipient.exchange.secretKey recipient.exchange.publicKey address envelope =
      .ok ⟨publicIdentityOf sender, kind, payload⟩ :=
  openEnvelope_sealed lawful.ratchet (verifyIdentityBinding_honest lawful hs)
    (fun _ _ hsign => verify_of_sign lawful hs.signing hsign) hr.exchange he h ha

/-- The store holds the secret half of every key the bundle names. -/
structure Serves (honest : Generators K) (store : InMemoryPreKeyStore K) (bundle : PreKeyBundle)
    (signedPreKey signedKemPreKey : KeyPair K) : Prop where
  signed : store.signedPreKey bundle.signedPreKey.id = some signedPreKey
  signed_public : signedPreKey.publicKey = bundle.signedPreKey.publicKey
  signed_honest : honest.dh signedPreKey
  kem : store.signedKemPreKey bundle.signedKemPreKey.id = some signedKemPreKey
  kem_public : signedKemPreKey.publicKey = bundle.signedKemPreKey.publicKey
  kem_honest : honest.kem signedKemPreKey
  oneTime : ∀ key, bundle.oneTimePreKey = some key →
    ∃ pair, store.oneTimePreKey key.id = some pair ∧ pair.publicKey = key.publicKey ∧ honest.dh pair
  oneTimeKem : ∀ key, bundle.oneTimeKemPreKey = some key →
    ∃ pair, store.oneTimeKemPreKey key.id = some pair ∧ pair.publicKey = key.publicKey ∧ honest.kem pair

theorem mapM_some {α β : Type} (f : α → Except Failure β) (a : α) :
    Option.mapM f (some a) = (f a >>= fun b => pure (some b)) := rfl

theorem mapM_none {α β : Type} (f : α → Except Failure β) :
    Option.mapM f none = (pure none : Except Failure (Option β)) := rfl

/-- The secret an initiator derives from a served bundle is the one the responder derives from its preamble. -/
theorem respondToHandshake_agrees (lawful : crypto.Lawful honest) {self peer : PrivateIdentity K}
    (hself : self.Honest crypto honest) (hpeer : peer.Honest crypto honest) {bundle : PreKeyBundle}
    (hbundle : bundle.identity = publicIdentityOf peer) {store : InMemoryPreKeyStore K}
    {signedPreKey signedKemPreKey : KeyPair K} (serves : Serves honest store bundle signedPreKey signedKemPreKey)
    {ephemeral : KeyPair K} (he : honest.dh ephemeral) {coins : Bytes} {handshake : InitiatorHandshake K}
    (h : initiateHandshake crypto self bundle ephemeral coins = .ok handshake) {oneTime oneTimeKem : Option (KeyPair K)}
    (hone : ∀ key, bundle.oneTimePreKey = some key → ∃ pair, oneTime = some pair ∧
      pair.publicKey = key.publicKey ∧ honest.dh pair)
    (hone' : bundle.oneTimePreKey = none → oneTime = none)
    (hkem : ∀ key, bundle.oneTimeKemPreKey = some key → ∃ pair, oneTimeKem = some pair ∧
      pair.publicKey = key.publicKey ∧ honest.kem pair)
    (hkem' : bundle.oneTimeKemPreKey = none → oneTimeKem = none) :
    respondToHandshake crypto peer
      { initiatorIdentity := publicIdentityOf self, ephemeralPublicKey := handshake.ephemeralPublicKey,
        kemCiphertext := handshake.kemCiphertext, keyIds := handshake.keyIds,
        signedPreKeySecret := signedPreKey.secretKey, signedKemPreKeySecret := signedKemPreKey.secretKey,
        oneTimePreKeySecret := oneTime.map (fun pair => pair.secretKey),
        oneTimeKemPreKeySecret := oneTimeKem.map (fun pair => pair.secretKey) } =
      .ok (handshake.rootSecret, handshake.associatedData) := by
  simp only [initiateHandshake, Outcome.bind_eq_ok_iff, Outcome.pure_eq_ok_iff] at h
  obtain ⟨_, _, ⟨kemCiphertext, kemSecret⟩, hencapsulate, dh1, hdh1, dh2, hdh2, dh3, hdh3, dh4, hdh4, transcript,
    htranscript, ad, had, rfl⟩ := h
  have hkemTarget : ∃ pair, honest.kem pair ∧
      pair.publicKey = (bundle.oneTimeKemPreKey.map (fun key => key.publicKey)).getD bundle.signedKemPreKey.publicKey ∧
      pair.secretKey = (oneTimeKem.map (fun pair => pair.secretKey)).getD signedKemPreKey.secretKey := by
    cases hb : bundle.oneTimeKemPreKey with
    | none => exact ⟨signedKemPreKey, serves.kem_honest, serves.kem_public, by simp [hkem' hb]⟩
    | some key =>
      obtain ⟨pair, hpair, hpublic, hp⟩ := hkem key hb
      exact ⟨pair, hp, by simpa using hpublic, by simp [hpair]⟩
  obtain ⟨kemPair, hkemPair, hkemPublic, hkemSecret⟩ := hkemTarget
  obtain ⟨ciphertext, secret, henc, hdec⟩ := lawful.kem_agree kemPair hkemPair coins
  rw [hkemPublic, hencapsulate, Except.ok.injEq, Prod.mk.injEq] at henc
  obtain ⟨rfl, rfl⟩ := henc
  obtain ⟨s1, hs1, hr1⟩ := lawful.ratchet.dh_agree self.exchange signedPreKey hself.exchange serves.signed_honest
  obtain ⟨s2, hs2, hr2⟩ := lawful.ratchet.dh_agree ephemeral peer.exchange he hpeer.exchange
  obtain ⟨s3, hs3, hr3⟩ := lawful.ratchet.dh_agree ephemeral signedPreKey he serves.signed_honest
  have hexchange : bundle.identity.exchangePublicKey = peer.exchange.publicKey := by rw [hbundle]; rfl
  rw [serves.signed_public, hdh1, Except.ok.injEq] at hs1
  rw [← hexchange, hdh2, Except.ok.injEq] at hs2
  rw [serves.signed_public, hdh3, Except.ok.injEq] at hs3
  subst hs1 hs2 hs3
  have hdh4' : Option.mapM (fun secret => crypto.dh secret ephemeral.publicKey)
      (oneTime.map (fun pair => pair.secretKey)) = .ok dh4 := by
    cases hb : bundle.oneTimePreKey with
    | none =>
      rw [hb, mapM_none] at hdh4
      rw [hone' hb, Option.map_none, mapM_none]
      exact hdh4
    | some key =>
      obtain ⟨pair, hpair, hpublic, hp⟩ := hone key hb
      obtain ⟨s4, hs4, hr4⟩ := lawful.ratchet.dh_agree ephemeral pair he hp
      rw [hb, mapM_some, ← hpublic, hs4] at hdh4
      rw [hpair, Option.map_some, mapM_some, hr4]
      exact hdh4
  have hone_some : (bundle.oneTimePreKey.map (fun key => key.id)).isSome =
      (oneTime.map (fun pair => pair.secretKey)).isSome := by
    cases hb : bundle.oneTimePreKey with
    | none => simp [hone' hb]
    | some key =>
      obtain ⟨pair, hpair, _⟩ := hone key hb
      simp [hpair]
  have hkem_some : (bundle.oneTimeKemPreKey.map (fun key => key.id)).isSome =
      (oneTimeKem.map (fun pair => pair.secretKey)).isSome := by
    cases hb : bundle.oneTimeKemPreKey with
    | none => simp [hkem' hb]
    | some key =>
      obtain ⟨pair, hpair, _⟩ := hkem key hb
      simp [hpair]
  have hself' : (publicIdentityOf self).exchangePublicKey = self.exchange.publicKey := rfl
  rw [hbundle] at htranscript had
  simp only [respondToHandshake, hone_some, hkem_some, ne_eq, not_true_eq_false, ↓reduceIte, ← hkemSecret, hdec, hself',
    hr1, hr2, hr3, hdh4', htranscript, had, Outcome.ok_bind]
  rfl

end

end Veil
