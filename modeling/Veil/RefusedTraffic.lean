import Veil.OneTimeSpending
import Veil.PairingLock
import Veil.RatchetMoves
import Veil.SelfCertifying
import Veil.Transport

namespace Veil

section

variable {K : Type} (prim : RatchetPrimitives K)

/-- The messages that `ratchetDecrypt` turns away before it has moved anything. -/
inductive Unmoved (state : RatchetState K) (message : RatchetMessage) : Prop
  | malformed (length : message.header.ratchetPublicKey.length ≠ 32)
  | cached (entry : SkippedKey K) (e : Failure)
      (held : state.skipped.get? (skippedKeyId message.header.ratchetPublicKey message.header.messageNumber) = some entry)
      (forged : openWith prim entry.messageKey state.associatedData message = .error e)
  | degenerate (e : Failure) (uncached : ¬Cached state message.header)
      (new : isNewRatchetKey state message.header = true)
      (refused : prim.dh state.sending.secretKey message.header.ratchetPublicKey = .error e)
  | closing (receiving : Bytes) (chainKey : K) (uncached : ¬Cached state message.header)
      (new : isNewRatchetKey state message.header = true) (held : state.receiving = some receiving)
      (chained : state.receivingChainKey = some chainKey)
      (far : maxSkipPerChain < message.header.previousChainLength - state.receivedCount)
  | unchained (uncached : ¬Cached state message.header) (same : isNewRatchetKey state message.header = false)
      (unchained : state.receivingChainKey = none)
  | consumed (uncached : ¬Cached state message.header) (same : isNewRatchetKey state message.header = false)
      (old : message.header.messageNumber < state.receivedCount)
  | ahead (uncached : ¬Cached state message.header) (same : isNewRatchetKey state message.header = false)
      (far : maxSkipPerChain < message.header.messageNumber - state.receivedCount)
  | due (chainKey : K) (e : Failure) (uncached : ¬Cached state message.header)
      (same : isNewRatchetKey state message.header = false) (chained : state.receivingChainKey = some chainKey)
      (number : message.header.messageNumber = state.receivedCount)
      (forged : openWith prim (messageKeyAfter prim chainKey 0) state.associatedData message = .error e)

end

section

variable {K : Type} {prim : RatchetPrimitives K} {fresh : KeyPair K} {state : RatchetState K} {message : RatchetMessage}

/-- Within a chain that is held, only the message that is due and does not open, one used before and one too far ahead
leave the chain where it is. -/
theorem receiveInChain_unmoved {receiving : Bytes} {chainKey : K} (hr : state.receiving = some receiving)
    (hc : state.receivingChainKey = some chainKey) (h : (receiveInChain prim state message).1 = state) :
    message.header.messageNumber < state.receivedCount ∨
      maxSkipPerChain < message.header.messageNumber - state.receivedCount ∨
      message.header.messageNumber = state.receivedCount ∧
        ∃ e, openWith prim (messageKeyAfter prim chainKey 0) state.associatedData message = .error e := by
  by_cases hold : message.header.messageNumber < state.receivedCount
  · exact Or.inl hold
  by_cases hfar : maxSkipPerChain < message.header.messageNumber - state.receivedCount
  · exact Or.inr (Or.inl hfar)
  refine Or.inr (Or.inr ?_)
  rw [receiveInChain_eq prim hr hc (by omega) (by omega)] at h
  cases hopen : openWith prim (messageKeyAfter prim chainKey (message.header.messageNumber - state.receivedCount))
      state.associatedData message with
  | error e =>
    simp only [hopen] at h
    have hcount : state.receivedCount + (message.header.messageNumber - state.receivedCount) = state.receivedCount :=
      congrArg (fun state : RatchetState K => state.receivedCount) h
    have hdue : message.header.messageNumber = state.receivedCount := by omega
    rw [hdue, Nat.sub_self] at hopen
    exact ⟨hdue, e, hopen⟩
  | ok plaintext =>
    simp only [hopen] at h
    have hcount : message.header.messageNumber + 1 = state.receivedCount :=
      congrArg (fun state : RatchetState K => state.receivedCount) h
    omega

theorem receiveInChain_unchained (hc : state.receivingChainKey = none) : receiveInChain prim state message =
    (state, .error (.sessionState "no receiving chain key after ratchet step")) := by
  simp [receiveInChain, skipReceivingKeys_without_chain prim hc, hc]

theorem receiveInChain_receiving : (receiveInChain prim state message).1.receiving = state.receiving := by
  unfold receiveInChain
  split
  next => rfl
  next closed hskip =>
    have hclosed : closed.receiving = state.receiving := by rw [skipReceivingKeys_same hskip]
    split
    next => exact hclosed
    next =>
      split
      next => exact hclosed
      next =>
        dsimp only
        split
        next => exact hclosed
        next => exact hclosed

/-- A DH ratchet step stops before anything has moved, or takes up the new key. -/
theorem performDhRatchet_receiving (header : RatchetHeader) :
    (∃ e, performDhRatchet prim fresh state header = (state, .error e) ∧
        ((∃ e', prim.dh state.sending.secretKey header.ratchetPublicKey = .error e') ∨
          ∃ receiving chainKey, state.receiving = some receiving ∧ state.receivingChainKey = some chainKey ∧
            maxSkipPerChain < header.previousChainLength - state.receivedCount)) ∨
      (performDhRatchet prim fresh state header).1.receiving = some header.ratchetPublicKey := by
  unfold performDhRatchet
  cases hdh : prim.dh state.sending.secretKey header.ratchetPublicKey with
  | error e => exact Or.inl ⟨e, rfl, Or.inl ⟨e, rfl⟩⟩
  | ok receivingDh =>
    cases hskip : skipReceivingKeys prim state header.previousChainLength with
    | error e =>
      refine Or.inl ⟨e, rfl, Or.inr ?_⟩
      unfold skipReceivingKeys at hskip
      split at hskip
      next chainKey receiving hc hr =>
        split at hskip
        next => cases hskip
        next =>
          split at hskip
          next hfar => exact ⟨receiving, chainKey, hr, hc, hfar⟩
          next => cases hskip
      next => cases hskip
    | ok closed =>
      refine Or.inr ?_
      dsimp only
      cases prim.dh fresh.secretKey header.ratchetPublicKey with
      | error e => rfl
      | ok sendingDh => rfl

theorem receiving_ne_of_new {header : RatchetHeader} (new : isNewRatchetKey state header = true) :
    state.receiving ≠ some header.ratchetPublicKey := by
  intro hsame
  rw [isNewRatchetKey_eq_false_iff.mpr hsame] at new
  cases new

theorem Unmoved.rejects (h : Unmoved prim state message) :
    ∃ e, ratchetDecrypt prim fresh state message = (state, .error e) := by
  by_cases hlength : message.header.ratchetPublicKey.length = 32
  swap
  · refine ⟨.malformedInput "ratchet header public key has wrong length", ?_⟩
    simp [ratchetDecrypt, hlength]
  cases h with
  | malformed length => exact absurd hlength length
  | cached entry e held forged => exact ⟨e, ratchetDecrypt_cached_error hlength held forged⟩
  | degenerate e uncached new refused =>
    exact ⟨e, ratchetDecrypt_turn_error hlength uncached new (by simp only [performDhRatchet, refused])⟩
  | closing receiving chainKey uncached new held chained far =>
    cases hdh : prim.dh state.sending.secretKey message.header.ratchetPublicKey with
    | error e => exact ⟨e, ratchetDecrypt_turn_error hlength uncached new (by simp only [performDhRatchet, hdh])⟩
    | ok receivingDh =>
      refine ⟨.sessionState
        s!"message number {message.header.previousChainLength} skips more than {maxSkipPerChain} keys; refusing",
        ratchetDecrypt_turn_error hlength uncached new ?_⟩
      simp only [performDhRatchet, hdh, skipReceivingKeys_eq prim held chained, if_pos far]
  | unchained uncached same unchained =>
    rw [ratchetDecrypt_current hlength uncached same]
    exact ⟨_, receiveInChain_unchained unchained⟩
  | consumed uncached same old =>
    rw [ratchetDecrypt_current hlength uncached same]
    cases hchain : state.receivingChainKey with
    | none => exact ⟨_, receiveInChain_unchained hchain⟩
    | some chainKey => exact ⟨_, receiveInChain_replay prim (isNewRatchetKey_eq_false_iff.mp same) hchain old⟩
  | ahead uncached same far =>
    rw [ratchetDecrypt_current hlength uncached same]
    cases hchain : state.receivingChainKey with
    | none => exact ⟨_, receiveInChain_unchained hchain⟩
    | some chainKey => exact ⟨_, receiveInChain_too_far prim (isNewRatchetKey_eq_false_iff.mp same) hchain far⟩
  | due chainKey e uncached same chained number forged =>
    rw [ratchetDecrypt_current hlength uncached same,
      receiveInChain_eq prim (isNewRatchetKey_eq_false_iff.mp same) chained (by omega) (by omega)]
    have hskip : message.header.messageNumber - state.receivedCount = 0 := by omega
    simp only [hskip, forged, caughtUp_zero prim chained]
    exact ⟨e, rfl⟩

/-- `ratchetDecrypt` leaves the state as it was exactly for the messages it turns away at once. -/
theorem ratchetDecrypt_unmoved_iff :
    (ratchetDecrypt prim fresh state message).1 = state ↔ Unmoved prim state message := by
  constructor
  swap
  · intro h
    obtain ⟨e, hrun⟩ := @Unmoved.rejects _ _ fresh _ _ h
    rw [hrun]
  intro h
  by_cases hlength : message.header.ratchetPublicKey.length = 32
  swap
  · exact .malformed hlength
  cases hget : state.skipped.get? (skippedKeyId message.header.ratchetPublicKey message.header.messageNumber) with
  | some entry =>
    cases hopen : openWith prim entry.messageKey state.associatedData message with
    | error e => exact .cached entry e hget hopen
    | ok plaintext =>
      rw [ratchetDecrypt_cached hlength hget hopen] at h
      have hskipped := congrArg (fun state : RatchetState K => state.skipped) h
      dsimp only at hskipped
      rw [← hskipped, OrderedMap.get?_delete_self] at hget
      cases hget
  | none =>
    have huncached : ¬Cached state message.header := by simp [Cached, hget]
    cases hnew : isNewRatchetKey state message.header with
    | true =>
      have hother := receiving_ne_of_new hnew
      rcases @performDhRatchet_receiving _ prim fresh state message.header with
        ⟨_, _, ⟨e', hrefused⟩ | ⟨receiving, chainKey, hr, hc, hfar⟩⟩ | hturned
      · exact .degenerate e' huncached hnew hrefused
      · exact .closing receiving chainKey huncached hnew hr hc hfar
      · -- the peer's key has been taken up by then
        refine absurd ?_ hother
        rw [← h]
        cases hperform : performDhRatchet prim fresh state message.header with
        | mk next result =>
          rw [hperform] at hturned
          cases result with
          | error e => rw [ratchetDecrypt_turn_error hlength huncached hnew hperform]; exact hturned
          | ok _ => rw [ratchetDecrypt_turned hlength huncached hnew hperform, receiveInChain_receiving]; exact hturned
    | false =>
      rw [ratchetDecrypt_current hlength huncached hnew] at h
      cases hchain : state.receivingChainKey with
      | none => exact .unchained huncached hnew hchain
      | some chainKey =>
        rcases receiveInChain_unmoved (isNewRatchetKey_eq_false_iff.mp hnew) hchain h with
          hold | hfar | ⟨hdue, e, hforged⟩
        · exact .consumed huncached hnew hold
        · exact .ahead huncached hnew hfar
        · exact .due chainKey e huncached hnew hchain hdue hforged

end

section

variable {K : Type} {crypto : Cryptography K} {fresh : KeyPair K} {self : PrivateIdentity K} {sender : PublicIdentity}
  {preamble : PreKeyPreamble} {body : Bytes} {store : InMemoryPreKeyStore K}

theorem wipeSignedPreKey_eq_self_iff {id : Int} {pair : KeyPair K} (h : store.signedPreKey id = some pair) :
    store.wipeSignedPreKey crypto id = store ↔ crypto.wiped pair.secretKey = pair.secretKey := by
  have hget : store.signedPreKeys.get? id = some pair := h
  have hset := @OrderedMap.set_eq_self_iff _ _ _ store.signedPreKeys id
    { pair with secretKey := crypto.wiped pair.secretKey }
  unfold InMemoryPreKeyStore.wipeSignedPreKey
  rw [hget]
  constructor
  · intro hstore
    have hkeys := hset.mp (congrArg InMemoryPreKeyStore.signedPreKeys hstore)
    exact congrArg KeyPair.secretKey (Option.some.inj (hkeys.symm.trans hget))
  · intro hsame
    have hkeys := hset.mpr (by rw [hget, hsame])
    dsimp only
    rw [hkeys]

/-- The prekey branch leaves the store as it was exactly if the first message does not get as far as a DH ratchet
step, or finds the signed prekey wiped already and takes no one-time prekey with it. -/
theorem decryptFirst_preKeys_iff : (decryptFirst crypto fresh self sender preamble body store).preKeys = store ↔
    ∀ session message, respondWith crypto self sender preamble body store = .ok (session, message) →
      StartsTurn crypto.toRatchetPrimitives session.ratchet message.header →
        crypto.wiped session.ratchet.sending.secretKey = session.ratchet.sending.secretKey ∧
          ((ratchetDecrypt crypto.toRatchetPrimitives fresh session.ratchet message).2.isOk →
            preamble.keyIds.oneTimePreKeyId = none ∧ preamble.keyIds.oneTimeKemPreKeyId = none) := by
  unfold decryptFirst
  cases hrespond : respondWith crypto self sender preamble body store with
  | error e => exact iff_of_true rfl fun _ _ h => (by cases h)
  | ok responded =>
    obtain ⟨session, message⟩ := responded
    obtain ⟨_, _, _, _, hone, hkem, pair, associatedData, transcript, dh1, rest, hpair, _, _, hratchet⟩ :=
      respondWith_eq_ok hrespond
    have hsending : session.ratchet.sending = pair := by rw [hratchet]; rfl
    have hwipe := @wipeSignedPreKey_eq_self_iff _ crypto store _ _ hpair
    have honly : ∀ {P : Session K → RatchetMessage → Prop}, (∀ session' message',
        (.ok (session, message) : Except Failure (Session K × RatchetMessage)) = .ok (session', message') →
          P session' message') ↔ P session message := by
      intro P
      constructor
      · intro h
        exact h session message rfl
      · rintro h _ _ ⟨⟩
        exact h
    rw [honly, hsending]
    dsimp only
    by_cases hturn : StartsTurn crypto.toRatchetPrimitives session.ratchet message.header
    swap
    · -- without the step nothing opens
      have hclosed : ∀ padded,
          (ratchetDecrypt crypto.toRatchetPrimitives fresh session.ratchet message).2 ≠ .ok padded := by
        intro padded hopen
        rw [hratchet] at hopen hturn
        exact hturn (initialiseResponder_opens hopen).1
      refine iff_of_true ?_ fun h => absurd h hturn
      rw [if_neg hturn]
      cases hresult : (ratchetDecrypt crypto.toRatchetPrimitives fresh session.ratchet message).2 with
      | error e => rfl
      | ok padded => exact absurd hresult (hclosed padded)
    rw [if_pos hturn]
    cases hresult : (ratchetDecrypt crypto.toRatchetPrimitives fresh session.ratchet message).2 with
    | error e =>
      constructor
      · intro hstore
        exact fun _ => ⟨hwipe.mp hstore, fun hok => (by cases hok)⟩
      · intro h
        exact hwipe.mpr (h hturn).1
    | ok padded =>
      dsimp only
      constructor
      · intro hstore
        have hunnamed : ¬(preamble.keyIds.oneTimePreKeyId.isSome ∨ preamble.keyIds.oneTimeKemPreKeyId.isSome) := by
          intro hnamed
          refine consumeOneTime_ne hone hkem hnamed ?_
          rw [← consumeOneTime_oneTimes preamble.keyIds (wipeSignedPreKey_oneTimes store _), hstore]
        rw [consumeOneTime_unnamed hunnamed] at hstore
        simp only [not_or, Bool.not_eq_true, Option.isSome_eq_false_iff, Option.isNone_iff_eq_none] at hunnamed
        exact fun _ => ⟨hwipe.mp hstore, fun _ => hunnamed⟩
      · intro h
        obtain ⟨hwiped, hids⟩ := h hturn
        obtain ⟨hnone, hnoneKem⟩ := hids rfl
        rw [consumeOneTime_unnamed (by simp [hnone, hnoneKem])]
        exact hwipe.mpr hwiped

end

namespace KeyRing

section

variable {K : Type} (crypto : Cryptography K) (around : Surroundings K)

/-- Whoever is authenticated as the sender of the envelope is not the paired peer. -/
def Foreign (ring : KeyRing K) (delivered : DeliveredMessage) : Prop :=
  ∀ envelope opened address pairing, decodeEnvelope delivered.envelope = .ok envelope →
    openInbound crypto ring.identity envelope (fun _ => none) = .ok (opened, address) → ring.pairing = some pairing →
      ¬(address = pairing.peerAddress ∧ toBase64Url opened.senderIdentity.signingPublicKey = pairing.peerIdentityKey)

/-- Nothing the envelope meets has moved by the time it is refused: it is turned away before the ratchet, or at once
by the ratchet of the session on file, or as a first message before the DH ratchet step; a first message that takes
the step finds the signed prekey wiped already and takes no one-time prekey with it. -/
def Untraced (ring : KeyRing K) (delivered : DeliveredMessage) : Prop :=
  ∀ envelope, decodeEnvelope delivered.envelope = .ok envelope →
    match route crypto ring.identity envelope ring.sessions.get? ring.pinnedKeyCache.get? with
    | .refused _ => True
    | .live _ _ session _ message => Unmoved crypto.toRatchetPrimitives session.ratchet message
    | .first sender _ preamble body => ∀ session message,
        respondWith crypto ring.identity sender preamble body ring.preKeys = .ok (session, message) →
          StartsTurn crypto.toRatchetPrimitives session.ratchet message.header →
            crypto.wiped session.ratchet.sending.secretKey = session.ratchet.sending.secretKey ∧
              ((ratchetDecrypt crypto.toRatchetPrimitives around.replyPair session.ratchet message).2.isOk →
                preamble.keyIds.oneTimePreKeyId = none ∧ preamble.keyIds.oneTimeKemPreKeyId = none)

/-- Whether the handshake of a first message is answered. -/
def answers (ring : KeyRing K) (envelope : SealedEnvelope) : Option Bool :=
  match route crypto ring.identity envelope ring.sessions.get? ring.pinnedKeyCache.get? with
  | .first sender _ preamble body => some (respondWith crypto ring.identity sender preamble body ring.preKeys).isOk
  | _ => none

/-- The keys after a delivery that the lock refuses. -/
def met (ring : KeyRing K) (delivered : DeliveredMessage) : KeyRing K :=
  match decodeEnvelope delivered.envelope with
  | .error _ => ring
  | .ok envelope => ring.touch (ring.decrypted crypto around envelope)

end

section

variable {K : Type} {crypto : Cryptography K} {around : Surroundings K} {ring : KeyRing K}

/-- A message that is read comes from whom the sealed layer names. -/
theorem decrypted_sender {envelope : SealedEnvelope} {result : DecryptedMessage K}
    (h : (ring.decrypted crypto around envelope).result = .ok result) : ∃ opened address,
      openInbound crypto ring.identity envelope (fun _ => none) = .ok (opened, address) ∧
        opened.senderIdentity = result.senderIdentity := by
  unfold decrypted at h
  rw [decryptEnvelope_eq] at h
  split at h
  next => cases h
  next sender address live answered message hroute =>
    obtain ⟨opened, hopen, rfl, _⟩ := route_live hroute
    refine ⟨opened, address, (openInbound_unpinned hopen).1, ?_⟩
    unfold decryptWith at h
    dsimp only at h
    split at h
    next => cases h
    next padded hratchet =>
      obtain ⟨plaintext, _, h⟩ := Outcome.bind_eq_ok_iff.mp h
      rw [← Outcome.pure_eq_ok_iff.mp h]
  next sender address preamble body hroute =>
    obtain ⟨opened, hopen, rfl, _⟩ := route_first hroute
    refine ⟨opened, address, (openInbound_unpinned hopen).1, ?_⟩
    unfold decryptFirst at h
    split at h
    next => cases h
    next session message hrespond =>
      dsimp only at h
      split at h
      next => cases h
      next padded hratchet =>
        obtain ⟨plaintext, _, h⟩ := Outcome.bind_eq_ok_iff.mp h
        rw [← Outcome.pure_eq_ok_iff.mp h]

/-- The lock refuses whoever is not the paired peer. -/
theorem Foreign.refused {delivered : DeliveredMessage} {envelope : SealedEnvelope} {result : DecryptedMessage K}
    {address : String} (h : ring.Foreign crypto delivered) (locked : ring.paired = true)
    (henvelope : decodeEnvelope delivered.envelope = .ok envelope)
    (hresult : (ring.decrypted crypto around envelope).result = .ok result)
    (haddress : addressOf crypto result.senderIdentity.signingPublicKey = .ok address) :
    ∃ reason, ring.admits address result.senderIdentity = .refuse reason := by
  obtain ⟨opened, address', hopen, hsender⟩ := decrypted_sender hresult
  have hsame : address' = address := by
    have haddress' := (openInbound_unpinned hopen).2
    rw [hsender, haddress] at haddress'
    exact (Except.ok.inj haddress').symm
  cases hadmits : ring.admits address result.senderIdentity with
  | refuse reason => exact ⟨reason, rfl⟩
  | allow =>
    rw [admits, if_pos locked] at hadmits
    obtain ⟨pairing, hpairing, hpeer, hkey⟩ := decideInbound_allow hadmits
    refine absurd ⟨hsame.trans hpeer, ?_⟩ (h envelope opened address' pairing henvelope hopen hpairing)
    rw [hsender]
    exact hkey

/-- `decryptEnvelope` leaves sessions and store as they were exactly for what is untraced. -/
theorem touch_eq_iff {envelope : SealedEnvelope} : ring.touch (ring.decrypted crypto around envelope) = ring ↔
    match route crypto ring.identity envelope ring.sessions.get? ring.pinnedKeyCache.get? with
    | .refused _ => True
    | .live _ _ session _ message => Unmoved crypto.toRatchetPrimitives session.ratchet message
    | .first sender _ preamble body =>
      (decryptFirst crypto around.replyPair ring.identity sender preamble body ring.preKeys).preKeys = ring.preKeys := by
  unfold decrypted
  rw [decryptEnvelope_eq]
  cases hroute : route crypto ring.identity envelope ring.sessions.get? ring.pinnedKeyCache.get? with
  | refused e => exact iff_of_true rfl trivial
  | live sender address session answered message =>
    obtain ⟨_, _, _, hlookup, _⟩ := route_live hroute
    dsimp only
    unfold decryptWith
    dsimp only
    have hkeep : ∀ next : Session K,
        ({ ring with sessions := ring.sessions.set address next } : KeyRing K) = ring ↔ next = session := by
      intro next
      constructor
      · intro h
        have hset := OrderedMap.set_eq_self_iff.mp (congrArg KeyRing.sessions h)
        exact Option.some.inj (hset.symm.trans hlookup)
      · rintro rfl
        have hset : ring.sessions.set address next = ring.sessions := OrderedMap.set_eq_self_iff.mpr hlookup
        rw [hset]
    have hratchet := @ratchetDecrypt_unmoved_iff _ crypto.toRatchetPrimitives around.replyPair session.ratchet message
    cases hrun : ratchetDecrypt crypto.toRatchetPrimitives around.replyPair session.ratchet message with
    | mk next result =>
      rw [hrun] at hratchet
      cases result with
      | error e =>
        refine (hkeep _).trans (Iff.trans ?_ hratchet)
        constructor
        · intro h
          exact congrArg Session.ratchet h
        · rintro rfl
          rfl
      | ok padded =>
        -- what opens has moved the ratchet
        have hmoved : ¬Unmoved crypto.toRatchetPrimitives session.ratchet message := by
          intro h
          obtain ⟨e, hrejected⟩ := @Unmoved.rejects _ _ around.replyPair _ _ h
          cases hrun.symm.trans hrejected
        refine iff_of_false (fun h => hmoved (hratchet.mp ?_)) hmoved
        have hsame := congrArg Session.ratchet ((hkeep _).mp h)
        rwa [settle_ratchet] at hsame
  | first sender address preamble body =>
    dsimp only
    unfold touch
    rw [decryptFirst_touched]
    dsimp only
    constructor
    · intro h
      exact congrArg KeyRing.preKeys h
    · intro h
      rw [h]

theorem met_preKeys {delivered : DeliveredMessage} {envelope : SealedEnvelope}
    (h : decodeEnvelope delivered.envelope = .ok envelope) :
    (ring.met crypto around delivered).preKeys = (ring.decrypted crypto around envelope).preKeys := by
  unfold met
  rw [h]
  rfl

/-- A first message whose handshake fails is turned away before the ratchet. -/
theorem untraced_of_unanswered {delivered : DeliveredMessage} {envelope : SealedEnvelope}
    (decoded : decodeEnvelope delivered.envelope = .ok envelope) (unanswered : ring.answers crypto envelope = some false) :
    ring.Untraced crypto around delivered := by
  intro other hother
  obtain rfl : envelope = other := Except.ok.inj (decoded.symm.trans hother)
  unfold answers at unanswered
  cases hroute : route crypto ring.identity envelope ring.sessions.get? ring.pinnedKeyCache.get? with
  | refused e => trivial
  | live sender address session answered message =>
    rw [hroute] at unanswered
    cases unanswered
  | first sender address preamble body =>
    rw [hroute] at unanswered
    dsimp only at unanswered
    intro session message hrespond
    rw [hrespond] at unanswered
    cases unanswered

theorem met_eq_iff {delivered : DeliveredMessage} :
    ring.met crypto around delivered = ring ↔ ring.Untraced crypto around delivered := by
  unfold met Untraced
  cases decodeEnvelope delivered.envelope with
  | error e => exact iff_of_true rfl fun _ h => (by cases h)
  | ok envelope =>
    have htouch := @touch_eq_iff _ crypto around ring envelope
    dsimp only
    rw [htouch]
    cases hroute : route crypto ring.identity envelope ring.sessions.get? ring.pinnedKeyCache.get? with
    | refused e =>
      refine iff_of_true trivial ?_
      rintro _ ⟨⟩
      rw [hroute]
      trivial
    | live sender address session answered message =>
      constructor
      · rintro h _ ⟨⟩
        rw [hroute]
        exact h
      · intro h
        have hhere := h envelope rfl
        rwa [hroute] at hhere
    | first sender address preamble body =>
      constructor
      · rintro h _ ⟨⟩
        rw [hroute]
        exact decryptFirst_preKeys_iff.mp h
      · intro h
        have hhere := h envelope rfl
        rw [hroute] at hhere
        exact decryptFirst_preKeys_iff.mpr hhere

end

end KeyRing

namespace Messenger

open Command

section

variable {K : Type} {crypto : Cryptography K} {codec : PayloadCodec} {around : Surroundings K} {m : Messenger K}
  {delivered : DeliveredMessage}

theorem reportFailure_events (e : Failure) (m : Messenger K) :
    ∃ events, (reportFailure e : Operation K Unit) m = ({ m with events }, .ok ()) := by
  cases e with
  | identityChanged message known presented => exact ⟨_, rfl⟩
  | _ => exact ⟨m.events, rfl⟩

/-- A delivery that the lock refuses comes to what `decryptEnvelope` has done by then, and an event at most. -/
theorem handleDelivered_refused (locked : m.paired = true) (foreign : m.toKeyRing.Foreign crypto delivered) :
    ∃ events, (handleDelivered crypto codec around delivered m).1 =
      { m with toKeyRing := m.toKeyRing.met crypto around delivered, events } := by
  have hreport : ∀ (e : Failure) (m' : Messenger K), ∃ events,
      ((do reportFailure e; return (delivered.id, false) : Operation K (String × Bool)) m').1 = { m' with events } := by
    intro e m'
    obtain ⟨events, hrun⟩ := reportFailure_events e m'
    exact ⟨events, by rw [bind_ok _ hrun]; rfl⟩
  unfold handleDelivered KeyRing.met
  cases henvelope : decodeEnvelope delivered.envelope with
  | error e => exact hreport e m
  | ok envelope =>
    unfold rescue
    simp only [lift_ok_bind]
    unfold decryptInbound
    simp only [bind_assoc, get_bind, modify_bind]
    change ∃ events, (rescue (lift (m.toKeyRing.decrypted crypto around envelope).result >>= _)
      (fun e => do reportFailure e; return (delivered.id, false))
      { m with toKeyRing := m.toKeyRing.touch (m.toKeyRing.decrypted crypto around envelope) }).1 = _
    unfold rescue
    cases hresult : (m.toKeyRing.decrypted crypto around envelope).result with
    | error e => exact hreport e _
    | ok result =>
      simp only [lift_ok_bind]
      cases haddress : addressOf crypto result.senderIdentity.signingPublicKey with
      | error e => exact hreport e _
      | ok address =>
        obtain ⟨reason, hadmits⟩ := foreign.refused locked henvelope hresult haddress
        have hlock : (if (m.toKeyRing.touch (m.toKeyRing.decrypted crypto around envelope)).paired = true then
            decideInbound (m.toKeyRing.touch (m.toKeyRing.decrypted crypto around envelope)).pairing address
              (toBase64Url result.senderIdentity.signingPublicKey) else .allow) = .refuse reason := hadmits
        simp only [lift_ok_bind, get_bind, hlock]
        exact ⟨_, rfl⟩

/-- A refused delivery shows in the keys or nowhere. -/
theorem refused_same_iff (locked : m.paired = true) (foreign : m.toKeyRing.Foreign crypto delivered) :
    (∃ events, m.perform crypto codec (.handleDelivered around delivered) = { m with events }) ↔
      m.toKeyRing.met crypto around delivered = m.toKeyRing := by
  obtain ⟨events, hrun⟩ := @handleDelivered_refused _ crypto codec around m delivered locked foreign
  rw [perform, hrun]
  constructor
  · rintro ⟨events', hsame⟩
    exact congrArg Messenger.toKeyRing hsame
  · intro hsame
    exact ⟨events, by rw [hsame]⟩

/-- What the lock refuses leaves the device as it was, in every state of a paired device, exactly if it was turned away
before anything had moved; and then any number of such deliveries does. -/
theorem refused_without_trace (locked : m.paired = true) :
    (∀ around delivered, m.toKeyRing.Foreign crypto delivered →
      ((∃ events, m.perform crypto codec (.handleDelivered around delivered) = { m with events }) ↔
        m.toKeyRing.Untraced crypto around delivered)) ∧
    ∀ deliveries : List (Surroundings K × DeliveredMessage),
      (∀ d ∈ deliveries, m.toKeyRing.Foreign crypto d.2 ∧ m.toKeyRing.Untraced crypto d.1 d.2) →
        ∃ events, deliveries.foldl (fun m d => m.perform crypto codec (.handleDelivered d.1 d.2)) m =
          { m with events } := by
  have hone : ∀ (m : Messenger K) (around : Surroundings K) (delivered : DeliveredMessage), m.paired = true →
      m.toKeyRing.Foreign crypto delivered →
        ((∃ events, m.perform crypto codec (.handleDelivered around delivered) = { m with events }) ↔
          m.toKeyRing.Untraced crypto around delivered) :=
    fun m around delivered hlocked hforeign => (refused_same_iff hlocked hforeign).trans KeyRing.met_eq_iff
  refine ⟨fun around delivered => hone m around delivered locked, fun deliveries => ?_⟩
  induction deliveries generalizing m with
  | nil => exact fun _ => ⟨m.events, rfl⟩
  | cons d deliveries ih =>
    intro h
    obtain ⟨hforeign, huntraced⟩ := h d (List.mem_cons_self ..)
    obtain ⟨events, hfirst⟩ := (hone m d.1 d.2 locked hforeign).mpr huntraced
    -- the keys are the same, so the rest is refused as it would have been
    obtain ⟨events', hrest⟩ := @ih { m with events } locked fun d' hmem => h d' (List.mem_cons_of_mem d hmem)
    exact ⟨events', by rw [List.foldl_cons, hfirst, hrest]⟩

end

/-- Bob's keys, with one one-time prekey of each kind. -/
def bobStartup : Startup Bytes :=
  { aliceStartup with
    signing := spelledPair 32 11, exchange := spelledPair 32 12
    signedPreKey := spelledPair 32 13, signedKemPreKey := spelledPair 1568 14
    oneTimePreKeys := [spelledPair 32 15], oneTimeKemPreKeys := [spelledPair 1568 16] }

/-- Bob's device in paired mode, before he has paired with anyone. -/
def unpairedBob : Messenger Bytes := (unopened true).perform spelled (textCodec hello) (.start bobStartup)

def aliceFirst : SealedEnvelope := ((Ledger.firstTo unpairedBob.preKeys pad [1]).toOption).getD ⟨"", [], []⟩

theorem unpairedBob_facts : unpairedBob.paired = true ∧ unpairedBob.pairing = none ∧
    unpairedBob.preKeys.oneTimePreKeys.size = 1 ∧
    (unpairedBob.toKeyRing.decrypted spelled (relayed bobBundle) aliceFirst).preKeys.oneTimePreKeys.size = 0 := by
  decide +kernel

/-- A first message from Mallory to signed prekeys that Alice's device does not have. -/
def malloryFirst : SealedEnvelope :=
  let sent : Except Failure SealedEnvelope := do
    let store ← (spelledStore alice 3 4 [] []).rotateSignedPreKeys spelled alice (spelledPair 32 5) (spelledPair 1568 6)
    let session ← startSession spelled mallory (store.issueBundle (publicIdentityOf alice)).1 none (spelledPair 32 51) [7]
      (spelledPair 32 52)
    let message ← (ratchetEncrypt spelled.toRatchetPrimitives session.ratchet (pad [1])).2
    let payload ← encodePayload session message
    sealEnvelope spelled (publicIdentityOf mallory) (spelled.sign mallory.signing.secretKey) session.peerIdentity
      payloadPreKey payload (spelledPair 32 53)
  sent.toOption.getD ⟨"", [], []⟩

def malloryAddress : String := "feaaaaaaaaaaaaaaaaaaaaaaaa"

def malloryDelivery (id : String) : Surroundings Bytes × DeliveredMessage :=
  (relayed bobBundle, ⟨id, encodeEnvelope malloryFirst⟩)

theorem malloryFirst_facts : pairedWithBob.paired = true ∧
    pairedWithBob.pairing.map PairingState.peerAddress = some bobAddress ∧
    (openInbound spelled pairedWithBob.identity malloryFirst (fun _ => none)).toOption.map Prod.snd = some malloryAddress ∧
    pairedWithBob.toKeyRing.answers spelled malloryFirst = some false := by
  decide +kernel

/-- A device that is paired with Bob opens what Mallory sends it twice, does not answer the handshake and stays as it was. -/
theorem refused_without_trace_mallory :
    (openInbound spelled pairedWithBob.identity malloryFirst (fun _ => none)).toOption.map Prod.snd = some malloryAddress ∧
      pairedWithBob.toKeyRing.answers spelled malloryFirst = some false ∧ ∃ events, [malloryDelivery "1", malloryDelivery "2"].foldl
        (fun m d => m.perform spelled (textCodec hello) (.handleDelivered d.1 d.2)) pairedWithBob =
          { pairedWithBob with events } := by
  obtain ⟨hlocked, hpeer, hopens, hunanswered⟩ := malloryFirst_facts
  have hdecoded : ∀ d ∈ [malloryDelivery "1", malloryDelivery "2"], decodeEnvelope d.2.envelope = .ok malloryFirst := by
    intro d hmem
    have hsame : d.2.envelope = encodeEnvelope malloryFirst := by
      simp only [List.mem_cons, List.not_mem_nil, or_false] at hmem
      rcases hmem with heq | heq
      · rw [heq]
        rfl
      · rw [heq]
        rfl
    rw [hsame]
    exact Protocol.decodeEnvelope_encodeEnvelope malloryFirst
  refine ⟨hopens, hunanswered, (refused_without_trace hlocked).2 _ fun d hmem => ⟨?_, ?_⟩⟩
  · intro envelope opened address pairing henvelope hopened hpairing hpaired
    obtain rfl : malloryFirst = envelope := Except.ok.inj ((hdecoded d hmem).symm.trans henvelope)
    rw [hpairing, Option.map_some, Option.some.injEq] at hpeer
    have haddress : address = malloryAddress := by
      rw [hopened] at hopens
      exact Option.some.inj hopens
    have hother : malloryAddress ≠ bobAddress := by decide
    exact hother (haddress.symm.trans (hpaired.1.trans hpeer))
  · exact @KeyRing.untraced_of_unanswered _ spelled d.1 pairedWithBob.toKeyRing d.2 malloryFirst (hdecoded d hmem) hunanswered

/-- A stranger's first message takes the one-time prekeys of a device that is paired with nobody. -/
theorem stranger_takes_preKeys : ¬ ∀ (start m : Messenger Bytes), start.Blank → start.paired = true →
    Relation.ReflTransGen (Step spelled (textCodec hello) (fun _ _ => True)) start m → ∀ around delivered,
      m.toKeyRing.Foreign spelled delivered →
        ∃ events, m.perform spelled (textCodec hello) (.handleDelivered around delivered) = { m with events } := by
  intro claim
  have run : Relation.ReflTransGen (Step spelled (textCodec hello) (fun _ _ => True)) (unopened true) unpairedBob :=
    .single (.perform (unopened true) (.start bobStartup) trivial)
  have hdecoded := Protocol.decodeEnvelope_encodeEnvelope aliceFirst
  obtain ⟨hlocked, hunpaired, hbefore, hafter⟩ := unpairedBob_facts
  have hforeign : unpairedBob.toKeyRing.Foreign spelled ⟨"1", encodeEnvelope aliceFirst⟩ := by
    intro _ _ _ _ _ _ hpairing
    rw [hunpaired] at hpairing
    cases hpairing
  have hsame := (refused_same_iff hlocked hforeign).mp (claim (unopened true) unpairedBob (unopened_blank true) rfl run
    (relayed bobBundle) ⟨"1", encodeEnvelope aliceFirst⟩ hforeign)
  have hkeys := @KeyRing.met_preKeys _ spelled (relayed bobBundle) unpairedBob.toKeyRing
    ⟨"1", encodeEnvelope aliceFirst⟩ aliceFirst hdecoded
  rw [hsame] at hkeys
  rw [← hkeys, hbefore] at hafter
  cases hafter

end Messenger

end Veil
