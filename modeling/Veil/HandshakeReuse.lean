import Veil.PreKeyLifetimes
import Veil.Provenance
import Veil.SessionCodec

namespace Veil

/-- The key schedule and the AEAD taken symbolically: different inputs give different keys, a ciphertext opens
under one key only, and a wiped secret agrees with nobody on what a generated one would. -/
structure Cryptography.Separating {K : Type} (crypto : Cryptography K) (honest : Generators K) : Prop where
  opens_once : ∀ key key' nonce nonce' ciphertext ad ad' opened opened',
    crypto.aeadDecrypt key nonce ciphertext ad = .ok opened →
    crypto.aeadDecrypt key' nonce' ciphertext ad' = .ok opened' → key = key'
  aeadKey : ∀ a b, (crypto.deriveMessageKeys a).key = (crypto.deriveMessageKeys b).key → a = b
  messageKey : ∀ a b, (crypto.advanceChain a).messageKey = (crypto.advanceChain b).messageKey → a = b
  nextChainKey : ∀ a b, (crypto.advanceChain a).nextChainKey = (crypto.advanceChain b).nextChainKey → a = b
  chainKey : ∀ rootKey rootKey' dhOutput dhOutput', (crypto.advanceRootChain rootKey dhOutput).chainKey =
    (crypto.advanceRootChain rootKey' dhOutput').chainKey → rootKey = rootKey'
  rootSecret : ∀ secrets secrets' transcript transcript', crypto.deriveRootSecret secrets transcript =
    crypto.deriveRootSecret secrets' transcript' → secrets = secrets' ∧ transcript = transcript'
  rootSecret_ne : ∀ secrets transcript rootKey dhOutput,
    crypto.deriveRootSecret secrets transcript ≠ (crypto.advanceRootChain rootKey dhOutput).rootKey
  wiped : ∀ pair, honest.dh pair → ∀ key publicKey secret secret',
    crypto.dh pair.secretKey publicKey = .ok secret → crypto.dh (crypto.wiped key) publicKey = .ok secret' →
      secret ≠ secret'

section

variable {K : Type} {crypto : Cryptography K} {honest : Generators K}

namespace Cryptography.Separating

end Cryptography.Separating

theorem Reads.unique {α : Type} {m : Decode α} {chunk : Bytes} {a b : α} (h : Reads m chunk a) (h' : Reads m chunk b) :
    a = b := by
  have heq := (h [] []).symm.trans (h' [] [])
  simp only [Except.ok.injEq, Prod.mk.injEq] at heq
  exact heq.1

/-- Some handshake with this root secret cannot be done again: a one-time prekey it names is gone, or the
signed prekey it was done with is gone or wiped. -/
def UsedUp (crypto : Cryptography K) (honest : Generators K) (self : PrivateIdentity K)
    (store : InMemoryPreKeyStore K) (rootSecret : K) : Prop :=
  ∃ (sender : PublicIdentity) (preamble : PreKeyPreamble) (transcript : Bytes) (dh1 : K) (rest : List K),
    rootSecret = crypto.deriveRootSecret (dh1 :: rest) transcript ∧
    handshakeTranscript sender (publicIdentityOf self) preamble.ephemeralPublicKey preamble.kemCiphertext
      preamble.keyIds = .ok transcript ∧
    ((∃ id, preamble.keyIds.oneTimePreKeyId = some id ∧ id < store.nextId ∧ store.oneTimePreKey id = none) ∨
      (∃ id, preamble.keyIds.oneTimeKemPreKeyId = some id ∧ id < store.nextId ∧ store.oneTimeKemPreKey id = none) ∨
      ∃ pair, honest.dh pair ∧ crypto.dh pair.secretKey sender.exchangePublicKey = .ok dh1 ∧
        preamble.keyIds.signedPreKeyId < store.nextId ∧
        ∀ stored, store.signedPreKey preamble.keyIds.signedPreKeyId = some stored →
          ∃ key, stored.secretKey = crypto.wiped key)

theorem UsedUp.later {self : PrivateIdentity K} {store next : InMemoryPreKeyStore K} {rootSecret : K}
    (h : UsedUp crypto honest self store rootSecret) (later : InMemoryPreKeyStore.Later crypto store next) :
    UsedUp crypto honest self next rootSecret := by
  obtain ⟨sender, preamble, transcript, dh1, rest, hroot, htranscript, gone⟩ := h
  refine ⟨sender, preamble, transcript, dh1, rest, hroot, htranscript, ?_⟩
  rcases gone with ⟨id, hid, hlt, hnone⟩ | ⟨id, hid, hlt, hnone⟩ | ⟨pair, hpair, hdh, hlt, hstored⟩
  · exact Or.inl ⟨id, hid, hlt.trans_le later.nextId, later.oneTime id hlt hnone⟩
  · exact Or.inr (Or.inl ⟨id, hid, hlt.trans_le later.nextId, later.oneTimeKem id hlt hnone⟩)
  · refine Or.inr (Or.inr ⟨pair, hpair, hdh, hlt.trans_le later.nextId, ?_⟩)
    intro stored hnext
    rcases later.signed _ hlt stored hnext with hsame | hwiped
    · exact hstored stored hsame
    · exact hwiped

theorem unusedOneTime_present {kind : String} {get : Int → Option (KeyPair K)} {id : Option Int}
    {found : Option (KeyPair K)} (h : unusedOneTime kind get id = .ok found) :
    ∀ named, id = some named → (get named).isSome := by
  rintro named rfl
  simp only [unusedOneTime] at h
  split at h
  next pair hget => rw [hget]; rfl
  next => simp at h

/-- What a responder session comes from. -/
theorem respondWith_eq_ok {self : PrivateIdentity K} {sender : PublicIdentity} {preamble : PreKeyPreamble}
    {body : Bytes} {store : InMemoryPreKeyStore K} {session : Session K} {message : RatchetMessage}
    (h : respondWith crypto self sender preamble body store = .ok (session, message)) :
    decodeBody body = .ok message ∧ session.peerIdentity = sender ∧ session.pendingPreKey = none ∧
      session.establishedBy = some preamble.ephemeralPublicKey ∧
      (∀ id, preamble.keyIds.oneTimePreKeyId = some id → (store.oneTimePreKey id).isSome) ∧
      (∀ id, preamble.keyIds.oneTimeKemPreKeyId = some id → (store.oneTimeKemPreKey id).isSome) ∧
      ∃ pair associatedData transcript dh1 rest,
        store.signedPreKey preamble.keyIds.signedPreKeyId = some pair ∧
        crypto.dh pair.secretKey sender.exchangePublicKey = .ok dh1 ∧
        handshakeTranscript sender (publicIdentityOf self) preamble.ephemeralPublicKey preamble.kemCiphertext
          preamble.keyIds = .ok transcript ∧
        session.ratchet =
          initialiseResponder (crypto.deriveRootSecret (dh1 :: rest) transcript) pair associatedData := by
  unfold respondWith at h
  simp only at h
  split at h
  next pair hpair =>
    split at h
    next kemPair hkemPair =>
      simp only [Outcome.bind_eq_ok_iff, Outcome.pure_eq_ok_iff, Prod.mk.injEq] at h
      obtain ⟨oneTime, hone, oneTimeKem, hkem, ⟨rootSecret, associatedData⟩, hrespond, message', hbody, hsession, rfl⟩ := h
      subst hsession
      refine ⟨hbody, rfl, rfl, rfl, unusedOneTime_present hone, unusedOneTime_present hkem, ?_⟩
      simp only [respondToHandshake] at hrespond
      split at hrespond
      next => cases hrespond
      next =>
        split at hrespond
        next => cases hrespond
        next =>
          simp only [Outcome.bind_eq_ok_iff, Outcome.pure_eq_ok_iff, Prod.mk.injEq] at hrespond
          obtain ⟨kemSecret, _, dh1, hdh1, dh2, _, dh3, _, dh4, _, transcript, htranscript, _, _, rfl, rfl⟩ := hrespond
          exact ⟨pair, _, transcript, dh1, _, hpair, hdh1, htranscript, rfl⟩
    next => cases h
  next => cases h

/-- A handshake that was whole when it was done is used up once its keys are consumed and wiped. -/
theorem respondWith_usesUp {self : PrivateIdentity K} {sender : PublicIdentity} {preamble : PreKeyPreamble}
    {body : Bytes} {store : InMemoryPreKeyStore K} {session : Session K} {message : RatchetMessage}
    (h : respondWith crypto self sender preamble body store = .ok (session, message)) (numbered : store.Numbered)
    (whole : preamble.keyIds.oneTimePreKeyId = none → preamble.keyIds.oneTimeKemPreKeyId = none →
      ∀ pair, store.signedPreKey preamble.keyIds.signedPreKeyId = some pair → honest.dh pair) :
    UsedUp crypto honest self
      (consumeOneTime preamble.keyIds (store.wipeSignedPreKey crypto preamble.keyIds.signedPreKeyId))
      session.ratchet.rootKey := by
  obtain ⟨_, _, _, _, hone, hkem, pair, ad, transcript, dh1, rest, hpair, hdh1, htranscript, hratchet⟩ :=
    respondWith_eq_ok h
  have hnext := (@InMemoryPreKeyStore.wipeSignedPreKey_same _ crypto store
    preamble.keyIds.signedPreKeyId).1
  refine ⟨sender, preamble, transcript, dh1, rest, by rw [hratchet]; rfl, htranscript, ?_⟩
  rw [consumeOneTime_nextId, hnext]
  cases hid : preamble.keyIds.oneTimePreKeyId with
  | some id => exact Or.inl ⟨id, rfl, numbered.oneTime id (hone id hid), consumeOneTime_oneTime hid⟩
  | none =>
    cases hid' : preamble.keyIds.oneTimeKemPreKeyId with
    | some id =>
      exact Or.inr (Or.inl ⟨id, rfl, numbered.oneTimeKem id (hkem id hid'), consumeOneTime_oneTimeKem hid'⟩)
    | none =>
      refine Or.inr (Or.inr ⟨pair, whole hid hid' pair hpair, hdh1, numbered.signed _ (by rw [hpair]; rfl), ?_⟩)
      intro stored hstored
      rw [consumeOneTime_signedPreKey, InMemoryPreKeyStore.wipeSignedPreKey_get?, if_pos rfl] at hstored
      obtain ⟨pair', _, rfl⟩ := Option.map_eq_some_iff.mp hstored
      exact ⟨pair'.secretKey, rfl⟩

/-- The first message a responder session opens turns its ratchet, and opens under a key of the handshake's root. -/
theorem initialiseResponder_opens {prim : RatchetPrimitives K} {rootSecret : K} {pair fresh : KeyPair K}
    {ad opened : Bytes} {message : RatchetMessage}
    (h : (ratchetDecrypt prim fresh (initialiseResponder rootSecret pair ad) message).2 = .ok opened) :
    StartsTurn prim (initialiseResponder rootSecret pair ad) message.header ∧
      ∃ dhOutput, openWith prim (messageKeyAfter prim (prim.advanceRootChain rootSecret dhOutput).chainKey
        message.header.messageNumber) ad message = .ok opened := by
  have huncached : ¬ Cached (initialiseResponder rootSecret pair ad) message.header := by
    simp [Cached, initialiseResponder]
  have hnew : isNewRatchetKey (initialiseResponder rootSecret pair ad) message.header = true := rfl
  by_cases hlength : message.header.ratchetPublicKey.length = 32
  swap
  · simp [ratchetDecrypt, hlength] at h
  cases hdh : prim.dh pair.secretKey message.header.ratchetPublicKey with
  | error e =>
    have herror : performDhRatchet prim fresh (initialiseResponder rootSecret pair ad) message.header =
        (initialiseResponder rootSecret pair ad, .error e) := by
      simp [performDhRatchet, initialiseResponder, hdh]
    simp [ratchetDecrypt_turn_error hlength huncached hnew herror] at h
  | ok receivingDh =>
    refine ⟨⟨hlength, huncached, hnew, by rw [initialiseResponder, hdh]; rfl,
      by simp [previousGap, initialiseResponder]⟩, receivingDh, ?_⟩
    cases hdh' : prim.dh fresh.secretKey message.header.ratchetPublicKey with
    | error e =>
      have herror : performDhRatchet prim fresh (initialiseResponder rootSecret pair ad) message.header =
          (turnReceiving prim fresh (initialiseResponder rootSecret pair ad) message.header receivingDh, .error e) := by
        simp [performDhRatchet, initialiseResponder, hdh, hdh', skipReceivingKeys]
      simp [ratchetDecrypt_turn_error hlength huncached hnew herror] at h
    | ok sendingDh =>
      have hturn := @performDhRatchet_eq _ prim _ (initialiseResponder rootSecret pair ad) _ _ _ _
        hdh (skipReceivingKeys_without_chain prim rfl _) hdh'
      rw [ratchetDecrypt_turned hlength huncached hnew hturn] at h
      have hr : (turned prim fresh (initialiseResponder rootSecret pair ad) message.header.ratchetPublicKey receivingDh
        sendingDh).receiving = some message.header.ratchetPublicKey := rfl
      have hc : (turned prim fresh (initialiseResponder rootSecret pair ad) message.header.ratchetPublicKey receivingDh
        sendingDh).receivingChainKey = some (prim.advanceRootChain rootSecret receivingDh).chainKey := rfl
      rcases Nat.lt_or_ge maxSkipPerChain message.header.messageNumber with far | near
      · simp [receiveInChain_too_far prim hr hc far] at h
      · rw [receiveInChain_eq prim hr hc (Nat.zero_le _) near] at h
        simp only at h
        split at h
        next => simp at h
        next plaintext hopen => rwa [Except.ok.inj h] at hopen

end

end Veil
