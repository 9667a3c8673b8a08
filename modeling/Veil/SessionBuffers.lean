import Veil.BufferedSessions
import Veil.HandshakeReuse
import Veil.Routing

namespace Veil

section

variable {K : Type} {heap heap' : Cells K}

theorem pairs_congr {keys : OrderedMap Int (KeyPair Nat)} (h : ∀ c ∈ pairBuffers keys, heap'.cell c = heap.cell c) :
    keys.mapValues (KeyPair.values heap') = keys.mapValues (KeyPair.values heap) := by
  apply OrderedMap.mapValues_congr
  intro id pair hget
  have hcell := h pair.secretKey (mem_valueBuffers _ hget)
  simp only [KeyPair.values, hcell]

theorem InMemoryPreKeyStore.values_congr {store : InMemoryPreKeyStore Nat}
    (h : ∀ c ∈ store.buffers, heap'.cell c = heap.cell c) : store.values heap' = store.values heap := by
  simp only [buffers, Multiset.mem_add, Multiset.mem_coe] at h
  simp only [values, pairs_congr (fun c hc => h c (Or.inl hc)), pairs_congr (fun c hc => h c (Or.inr (Or.inl hc))),
    pairs_congr (fun c hc => h c (Or.inr (Or.inr (Or.inl hc)))),
    pairs_congr (fun c hc => h c (Or.inr (Or.inr (Or.inr hc))))]

theorem PrivateIdentity.values_congr {identity : PrivateIdentity Nat}
    (h : ∀ c ∈ identity.buffers, heap'.cell c = heap.cell c) : identity.values heap' = identity.values heap := by
  have hsigning := h identity.signing.secretKey (by simp [buffers])
  have hexchange := h identity.exchange.secretKey (by simp [buffers])
  simp only [values, KeyPair.values, hsigning, hexchange]

theorem Session.values_congr {session : Session Nat} (h : ∀ c ∈ session.ratchet.buffers, heap'.cell c = heap.cell c) :
    session.values heap' = session.values heap := by
  simp only [values, Buffered.values_congr h]

theorem unusedOneTime_values (heap : Cells K) (kind : String) (keys : OrderedMap Int (KeyPair Nat)) (id : Option Int) :
    unusedOneTime kind (fun id => (keys.mapValues (KeyPair.values heap)).get? id) id =
      (unusedOneTime kind (fun id => keys.get? id) id).map (Option.map (KeyPair.values heap)) := by
  cases id with
  | none => rfl
  | some id =>
    simp only [unusedOneTime, OrderedMap.get?_mapValues]
    cases keys.get? id <;> rfl

theorem values_signedPreKey (heap : Cells K) (store : InMemoryPreKeyStore Nat) (id : Int) :
    (store.values heap).signedPreKey id = (store.signedPreKey id).map (KeyPair.values heap) := OrderedMap.get?_mapValues _ _ _

theorem repeatsHandshake_values (heap : Cells K) (session : Option (Session Nat)) (preamble : PreKeyPreamble) :
    repeatsHandshake (session.map (Session.values heap)) preamble =
      (repeatsHandshake session preamble).map (Session.values heap) := by
  cases session with
  | none => rfl
  | some session =>
    simp only [repeatsHandshake, Option.map_some, Option.filter_some]
    split <;> simp_all [Session.values]

end

namespace Buffered

section

variable {K : Type} (crypto : Cryptography K)

/-- What `respondWith` returns over buffers: the root is in a new one, the sending pair is the store's. -/
structure Responds (heap heap' : Cells K) (store : InMemoryPreKeyStore Nat) (id : Int) (session : Session Nat) : Prop where
  next : heap'.next = heap.next + 1
  same : ∀ c < heap.next, heap'.cell c = heap.cell c
  ratchet : ∃ pair associatedData, store.signedPreKey id = some pair ∧
    session.ratchet = initialiseResponder heap.next pair associatedData

theorem initialiseResponder_values {heap : Cells K} {pair : KeyPair Nat} (below : pair.secretKey < heap.next)
    (rootSecret : K) (associatedData : Bytes) :
    (initialiseResponder heap.next pair associatedData).values (heap.alloc rootSecret) =
      initialiseResponder rootSecret (pair.values heap) associatedData := by
  have hroot := Cells.cell_alloc_next heap rootSecret
  have hpair := Cells.cell_alloc heap rootSecret below
  refine RatchetState.ext hroot ?_ rfl rfl rfl rfl rfl rfl rfl rfl rfl
  simp only [RatchetState.values, initialiseResponder, KeyPair.values, hpair]

theorem respondWith_values {heap : Cells K} {self : PrivateIdentity Nat} {store : InMemoryPreKeyStore Nat}
    (fits : Cells.Fits store.buffers heap) (sender : PublicIdentity) (preamble : PreKeyPreamble) (body : Bytes) :
    (∀ e, respondWith crypto heap self sender preamble body store = .error e →
        Veil.respondWith crypto (self.values heap) sender preamble body (store.values heap) = .error e) ∧
      ∀ heap' session message, respondWith crypto heap self sender preamble body store = .ok (heap', session, message) →
        Veil.respondWith crypto (self.values heap) sender preamble body (store.values heap) =
            .ok (session.values heap', message) ∧
          Responds heap heap' store preamble.keyIds.signedPreKeyId session := by
  have hkem : (store.values heap).signedKemPreKey preamble.keyIds.signedKemPreKeyId =
      (store.signedKemPreKey preamble.keyIds.signedKemPreKeyId).map (KeyPair.values heap) := OrderedMap.get?_mapValues _ _ _
  have hone : unusedOneTime "one-time prekey" (store.values heap).oneTimePreKey preamble.keyIds.oneTimePreKeyId =
      (unusedOneTime "one-time prekey" store.oneTimePreKey preamble.keyIds.oneTimePreKeyId).map
        (Option.map (KeyPair.values heap)) := unusedOneTime_values _ _ _ _
  have honeKem : unusedOneTime "one-time ML-KEM prekey" (store.values heap).oneTimeKemPreKey
      preamble.keyIds.oneTimeKemPreKeyId =
      (unusedOneTime "one-time ML-KEM prekey" store.oneTimeKemPreKey preamble.keyIds.oneTimeKemPreKeyId).map
        (Option.map (KeyPair.values heap)) := unusedOneTime_values _ _ _ _
  simp only [respondWith, Veil.respondWith, values_signedPreKey, hkem, hone, honeKem]
  cases hpair : store.signedPreKey preamble.keyIds.signedPreKeyId with
  | none => exact ⟨fun e h => congrArg Except.error (Except.error.inj h), fun _ _ _ h => (by cases h)⟩
  | some pair =>
    cases store.signedKemPreKey preamble.keyIds.signedKemPreKeyId with
    | none => exact ⟨fun e h => congrArg Except.error (Except.error.inj h), fun _ _ _ h => (by cases h)⟩
    | some kemPair =>
      simp only [Option.map_some]
      cases unusedOneTime "one-time prekey" store.oneTimePreKey preamble.keyIds.oneTimePreKeyId with
      | error e => exact ⟨fun e h => congrArg Except.error (Except.error.inj h), fun _ _ _ h => (by cases h)⟩
      | ok oneTime =>
        cases unusedOneTime "one-time ML-KEM prekey" store.oneTimeKemPreKey preamble.keyIds.oneTimeKemPreKeyId with
        | error e => exact ⟨fun e h => congrArg Except.error (Except.error.inj h), fun _ _ _ h => (by cases h)⟩
        | ok oneTimeKem =>
          have hsecret : ∀ found : Option (KeyPair Nat), (found.map (KeyPair.values heap)).map (fun pair => pair.secretKey) =
              found.map (fun pair => heap.cell pair.secretKey) := fun found => by cases found <;> rfl
          simp only [Except.map, Outcome.ok_bind, hsecret, KeyPair.values]
          generalize respondToHandshake crypto (self.values heap) _ = responded
          cases responded with
          | error e => exact ⟨fun e h => congrArg Except.error (Except.error.inj h), fun _ _ _ h => (by cases h)⟩
          | ok secrets =>
            obtain ⟨rootSecret, associatedData⟩ := secrets
            simp only [Outcome.ok_bind]
            cases decodeBody body with
            | error e => exact ⟨fun e h => congrArg Except.error (Except.error.inj h), fun _ _ _ h => (by cases h)⟩
            | ok message =>
              refine ⟨fun e h => (by cases h), fun heap' session message' h => ?_⟩
              obtain ⟨rfl, rfl, rfl⟩ : heap.alloc rootSecret = heap' ∧
                  { peerIdentity := sender, ratchet := initialiseResponder heap.next pair associatedData,
                    establishedBy := some preamble.ephemeralPublicKey } = session ∧ message = message' := by
                simpa only [Outcome.ok_bind, Outcome.pure_eq_ok_iff, Prod.mk.injEq] using h
              have hbelow : pair.secretKey < heap.next :=
                fits.below _ (Multiset.mem_add.mpr (Or.inl (Multiset.mem_coe.mpr (mem_valueBuffers _ hpair))))
              refine ⟨?_, ⟨rfl, fun c hc => Cells.cell_alloc heap rootSecret hc, pair, associatedData, hpair, rfl⟩⟩
              simp only [Outcome.ok_bind, Session.values, initialiseResponder_values hbelow]
              rfl

/-- A responder's state has left the pair it was handed: the pair's secret is wiped and the state is in new buffers. -/
structure HasLeft (heap : Cells K) (secret : Nat) (held : Held K) : Prop where
  wiped : held.heap.cell secret = crypto.wiped (heap.cell secret)
  buffers : ∀ c ∈ held.state.buffers, heap.next ≤ c
  next : heap.next ≤ held.heap.next

variable {crypto} in
theorem HasLeft.moves {heap : Cells K} {secret : Nat} {held done : Held K} (h : HasLeft crypto heap secret held)
    (below : secret < heap.next) (moves : Cells.Moves held.state.buffers done.state.buffers held.heap done.heap) :
    HasLeft crypto heap secret done where
  wiped := by
    have hnot : secret ∉ held.state.buffers := fun hmem => (h.buffers secret hmem).not_gt below
    exact (moves.same secret (below.trans_le h.next) hnot).trans h.wiped
  buffers := by
    intro c hc
    rcases moves.kept c hc with hmem | hge
    · exact h.buffers c hmem
    · exact h.next.trans hge
  next := h.next.trans moves.next

theorem buffers_initialiseResponder (root : Nat) (pair : KeyPair Nat) (associatedData : Bytes) :
    (initialiseResponder root pair associatedData).buffers = {root} + {pair.secretKey} := by
  have hempty : skippedBuffers (initialiseResponder root pair associatedData).skipped = [] := rfl
  simp only [RatchetState.buffers, hempty]
  simp [initialiseResponder]

theorem turnReceiving_leaves (fresh : KeyPair K) {heap : Cells K} {root : Nat} {pair : KeyPair Nat} {associatedData : Bytes}
    (fits : Cells.Fits (initialiseResponder root pair associatedData).buffers heap) (header : RatchetHeader)
    (receivingDh : K) :
    HasLeft crypto heap pair.secretKey (turnReceiving crypto fresh
      ⟨heap.alloc receivingDh, initialiseResponder root pair associatedData⟩ header heap.next) := by
  have hfits := (Cells.Moves.alloc fits receivingDh).fits
  have hexchange := turnReceiving_exchange crypto fresh (heap.alloc receivingDh)
    (initialiseResponder root pair associatedData) header hfits
  rw [buffers_initialiseResponder] at hfits fits
  have hbelow : pair.secretKey < heap.next := fits.below _ (by simp)
  refine ⟨?_, ?_, ?_⟩
  · rw [hexchange, Cells.exchange, Cells.cell_rewriteAll_of_mem]
    · rw [Cells.cell_allocAll _ _ (by rw [Cells.next_alloc]; omega), Cells.cell_alloc _ _ hbelow]
    · have hnodup := hfits.nodup
      have hlist : (↑[heap.next, root, pair.secretKey] : Multiset Nat) = {heap.next} + ({root} + {pair.secretKey}) := rfl
      rw [← hlist, Multiset.coe_nodup] at hnodup
      exact hnodup
    · simp [initialiseResponder]
  · intro c hc
    have hempty : skippedBuffers (initialiseResponder root pair associatedData).skipped = [] := rfl
    simp only [turnReceiving, advanceRootChain, RatchetState.buffers, hempty, wipe, Cells.next_alloc,
      Cells.next_rewriteAll] at hc
    simp [initialiseResponder] at hc
    omega
  · rw [hexchange, Cells.next_exchange, Cells.next_alloc]
    omega

/-- The first message of a responder session either turns its ratchet, and the store's secret is wiped with it, or
does nothing. -/
theorem ratchetDecrypt_responder (fresh : KeyPair K) {heap : Cells K} {root : Nat} {pair : KeyPair Nat}
    {associatedData : Bytes} (fits : Cells.Fits (initialiseResponder root pair associatedData).buffers heap)
    (message : RatchetMessage) :
    (StartsTurn crypto.toRatchetPrimitives ((initialiseResponder root pair associatedData).values heap) message.header →
      HasLeft crypto heap pair.secretKey
        (ratchetDecrypt crypto fresh ⟨heap, initialiseResponder root pair associatedData⟩ message).1) ∧
    (¬StartsTurn crypto.toRatchetPrimitives ((initialiseResponder root pair associatedData).values heap) message.header →
      (ratchetDecrypt crypto fresh ⟨heap, initialiseResponder root pair associatedData⟩ message).1 =
        ⟨heap, initialiseResponder root pair associatedData⟩) := by
  have hbelow : pair.secretKey < heap.next := by
    rw [buffers_initialiseResponder] at fits
    exact fits.below _ (by simp)
  by_cases hlength : message.header.ratchetPublicKey.length = 32
  swap
  · have hrefused : (ratchetDecrypt crypto fresh ⟨heap, initialiseResponder root pair associatedData⟩ message).1 =
        ⟨heap, initialiseResponder root pair associatedData⟩ := by
      rw [ratchetDecrypt, if_pos hlength]
    exact ⟨fun hturn => absurd hturn.1 hlength, fun _ => hrefused⟩
  have htry : tryDecryptWithSkipped crypto ⟨heap, initialiseResponder root pair associatedData⟩ message =
      (⟨heap, initialiseResponder root pair associatedData⟩, .ok none) := rfl
  have hnew : isNewRatchetKey (initialiseResponder root pair associatedData) message.header = true := rfl
  cases hdh : crypto.dh (heap.cell pair.secretKey) message.header.ratchetPublicKey with
  | error e =>
    have hperform : performDhRatchet crypto fresh ⟨heap, initialiseResponder root pair associatedData⟩ message.header =
        (⟨heap, initialiseResponder root pair associatedData⟩, .error e) := by
      simp only [performDhRatchet, initialiseResponder, hdh]
    refine ⟨fun hturn => ?_, fun _ => ?_⟩
    · have hok : (crypto.dh (heap.cell pair.secretKey) message.header.ratchetPublicKey).isOk = true := hturn.2.2.2.1
      rw [hdh] at hok
      cases hok
    · simp only [ratchetDecrypt, hlength, ne_eq, not_true_eq_false, htry, hnew, hperform, ↓reduceIte]
  | ok receivingDh =>
    have hstarts : StartsTurn crypto.toRatchetPrimitives ((initialiseResponder root pair associatedData).values heap)
        message.header := by
      refine ⟨hlength, ?_, rfl, ?_, Nat.zero_le _⟩
      · exact fun hcached => by cases hcached
      · show (crypto.dh (heap.cell pair.secretKey) message.header.ratchetPublicKey).isOk = true
        rw [hdh]
        rfl
    refine ⟨fun _ => ?_, fun hnot => absurd hstarts hnot⟩
    have hleft := turnReceiving_leaves crypto fresh fits message.header receivingDh
    have hmoves := (@turnReceiving_performs _ crypto fresh
      ⟨heap.alloc receivingDh, initialiseResponder root pair associatedData⟩ message.header _
      (Cells.Moves.alloc fits receivingDh).fits).2
    have hcell : (initialiseResponder root pair associatedData).sending.secretKey = pair.secretKey := rfl
    have hskip : skipReceivingKeys crypto ⟨heap.alloc receivingDh, initialiseResponder root pair associatedData⟩
        message.header.previousChainLength =
          .ok ⟨heap.alloc receivingDh, initialiseResponder root pair associatedData⟩ := rfl
    simp only [ratchetDecrypt, hlength, ne_eq, not_true_eq_false, htry, hnew, performDhRatchet, hcell, hdh, hskip, ↓reduceIte]
    generalize turnReceiving crypto fresh ⟨heap.alloc receivingDh, initialiseResponder root pair associatedData⟩
      message.header heap.next = turned at hleft hmoves ⊢
    cases crypto.dh (turned.heap.cell turned.state.sending.secretKey) message.header.ratchetPublicKey with
    | error e => exact hleft
    | ok sendingDh =>
      have halloc := Cells.Moves.alloc hmoves.fits sendingDh
      have hsent := (@turnSending_performs _ crypto ⟨turned.heap.alloc sendingDh, turned.state⟩ _ halloc.fits).2
      have hread := (receiveInChain_follows crypto hsent.fits message).moves
      exact hleft.moves hbelow (halloc.trans (hsent.trans hread))

/-- Where one signed prekey has been wiped, and nothing else of the store, its values are those of the wiped store. -/
theorem values_wipeSignedPreKey {heap heap' : Cells K} {store : InMemoryPreKeyStore Nat} {id : Int} {pair : KeyPair Nat}
    (fits : Cells.Fits store.buffers heap) (hpair : store.signedPreKey id = some pair)
    (wiped : heap'.cell pair.secretKey = crypto.wiped (heap.cell pair.secretKey))
    (same : ∀ c ∈ store.buffers, c ≠ pair.secretKey → heap'.cell c = heap.cell c) :
    store.values heap' = (store.values heap).wipeSignedPreKey crypto id := by
  have hget : store.signedPreKeys.get? id = some pair := hpair
  let others : Multiset Nat := ↑(pairBuffers (store.signedPreKeys.delete id)) + (↑(pairBuffers store.signedKemPreKeys) +
    (↑(pairBuffers store.oneTimePreKeys) + ↑(pairBuffers store.oneTimeKemPreKeys)))
  have hown : store.buffers = {pair.secretKey} + others := by
    simp only [InMemoryPreKeyStore.buffers, others, pairBuffers, valueBuffers_delete _ hget]
    ac_rfl
  have hothers : ∀ c ∈ others, heap'.cell c = heap.cell c := by
    intro c hc
    have hne : c ≠ pair.secretKey := by
      rintro rfl
      exact (hown ▸ fits).apart (Multiset.mem_singleton_self _) hc
    exact same c (hown ▸ Multiset.mem_add.mpr (Or.inr hc)) hne
  simp only [others, Multiset.mem_add, Multiset.mem_coe] at hothers
  have hsigned : store.signedPreKeys.mapValues (KeyPair.values heap') =
      (store.signedPreKeys.mapValues (KeyPair.values heap)).set id (pair.values heap') := by
    calc store.signedPreKeys.mapValues (KeyPair.values heap')
        = (store.signedPreKeys.set id pair).mapValues (KeyPair.values heap') := by
          rw [OrderedMap.set_eq_self_iff.mpr hget]
      _ = (store.signedPreKeys.mapValues (KeyPair.values heap')).set id (pair.values heap') :=
          OrderedMap.mapValues_set _ _ _ _
      _ = _ := by
          refine OrderedMap.mapValues_set_congr _ (fun j v hj hne => ?_)
          have hdelete : (store.signedPreKeys.delete id).get? j = some v := by
            rw [OrderedMap.get?_delete_of_ne _ hne, hj]
          have hcell := hothers v.secretKey (Or.inl (mem_valueBuffers _ hdelete))
          simp only [KeyPair.values, hcell]
  have hvalue : (store.values heap).signedPreKeys.get? id = some (pair.values heap) := by
    rw [InMemoryPreKeyStore.values, OrderedMap.get?_mapValues, hget, Option.map_some]
  simp only [InMemoryPreKeyStore.wipeSignedPreKey, hvalue]
  simp only [InMemoryPreKeyStore.values, hsigned, pairs_congr (fun c hc => hothers c (Or.inr (Or.inl hc))),
    pairs_congr (fun c hc => hothers c (Or.inr (Or.inr (Or.inl hc)))),
    pairs_congr (fun c hc => hothers c (Or.inr (Or.inr (Or.inr hc))))]
  simp only [KeyPair.values, wiped]

theorem consumeOneTime_values (heap : Cells K) (keyIds : HandshakeKeyIds) (store : InMemoryPreKeyStore Nat) :
    (consumeOneTime keyIds store).values heap = consumeOneTime keyIds (store.values heap) := by
  have hone : ∀ (store : InMemoryPreKeyStore Nat) (id : Int),
      (store.consumeOneTimePreKey id).values heap = (store.values heap).consumeOneTimePreKey id := by
    intro store id
    simp only [InMemoryPreKeyStore.consumeOneTimePreKey, InMemoryPreKeyStore.values, OrderedMap.mapValues_delete]
  have hkem : ∀ (store : InMemoryPreKeyStore Nat) (id : Int),
      (store.consumeOneTimeKemPreKey id).values heap = (store.values heap).consumeOneTimeKemPreKey id := by
    intro store id
    simp only [InMemoryPreKeyStore.consumeOneTimeKemPreKey, InMemoryPreKeyStore.values, OrderedMap.mapValues_delete]
  unfold consumeOneTime
  cases keyIds.oneTimePreKeyId <;> cases keyIds.oneTimeKemPreKeyId <;> simp only [Option.elim, hone, hkem]

theorem pairBuffers_delete_le (keys : OrderedMap Int (KeyPair Nat)) (id : Int) :
    (↑(pairBuffers (keys.delete id)) : Multiset Nat) ≤ ↑(pairBuffers keys) := by
  rw [pairBuffers, pairBuffers, valueBuffers_eq_total, valueBuffers_eq_total]
  exact OrderedMap.total_delete_le _ keys id

theorem consumeOneTime_buffers (keyIds : HandshakeKeyIds) (store : InMemoryPreKeyStore Nat) :
    (consumeOneTime keyIds store).buffers ≤ store.buffers := by
  have hone : ∀ (store : InMemoryPreKeyStore Nat) (id : Int), (store.consumeOneTimePreKey id).buffers ≤ store.buffers :=
    fun store id => add_le_add le_rfl (add_le_add le_rfl (add_le_add (pairBuffers_delete_le _ _) le_rfl))
  have hkem : ∀ (store : InMemoryPreKeyStore Nat) (id : Int), (store.consumeOneTimeKemPreKey id).buffers ≤ store.buffers :=
    fun store id => add_le_add le_rfl (add_le_add le_rfl (add_le_add le_rfl (pairBuffers_delete_le _ _)))
  unfold consumeOneTime
  cases keyIds.oneTimePreKeyId with
  | none =>
    cases keyIds.oneTimeKemPreKeyId with
    | none => exact le_rfl
    | some id => exact hkem store id
  | some id =>
    cases keyIds.oneTimeKemPreKeyId with
    | none => exact hone store id
    | some id' => exact (hkem _ id').trans (hone store id)

/-- A call that used one live session did to its values what it does to values, and wrote to no other buffer. -/
structure Continues (heap : Cells K) (sender : PublicIdentity) (address : String) (session : Session Nat)
    (store : InMemoryPreKeyStore Nat) (done : Cells K × Decryption Nat) (value : Decryption K) : Prop where
  values : done.2.values done.1 = value
  preKeys : done.2.preKeys = store
  session : ∃ next, done.2.touched = some (address, next) ∧
    (∀ decrypted, done.2.result = .ok decrypted → decrypted.session = next ∧ decrypted.senderIdentity = sender) ∧
    Cells.Moves session.ratchet.buffers next.ratchet.buffers heap done.1

theorem decryptWith_follows (fresh : KeyPair K) {heap : Cells K} {session : Session Nat} {store : InMemoryPreKeyStore Nat}
    (fits : Cells.Fits (session.ratchet.buffers + store.buffers) heap) (sender : PublicIdentity) (address : String)
    (answered : Bool) (message : RatchetMessage) :
    Continues heap sender address session store
      (decryptWith crypto fresh heap sender address session (settle answered) message store)
      (Veil.decryptWith crypto fresh sender address (session.values heap) (settle answered) message
        (store.values heap)) := by
  obtain ⟨hvalues, hmoves⟩ := @ratchetDecrypt_follows _ crypto fresh ⟨heap, session.ratchet⟩ fits.left message
  have hratchet : Veil.ratchetDecrypt crypto.toRatchetPrimitives fresh (session.values heap).ratchet message = _ :=
    hvalues.symm
  have hstore : store.values (ratchetDecrypt crypto fresh ⟨heap, session.ratchet⟩ message).1.heap = store.values heap :=
    InMemoryPreKeyStore.values_congr (hmoves.others fits)
  unfold Veil.decryptWith decryptWith
  rw [hratchet]
  generalize ratchetDecrypt crypto fresh ⟨heap, session.ratchet⟩ message = outcome at hmoves hstore ⊢
  obtain ⟨held, result⟩ := outcome
  simp only at hstore hmoves ⊢
  cases result with
  | error e =>
    refine ⟨?_, rfl, _, rfl, fun _ h => (by cases h), hmoves⟩
    simp only [Decryption.values, hstore]
    rfl
  | ok padded =>
    have hsettled : (settle answered { session with ratchet := held.state }).values held.heap =
        settle answered { session.values heap with ratchet := Held.values held } := by
      cases answered <;> rfl
    refine ⟨?_, rfl, _, rfl, ?_, ?_⟩
    · simp only [Decryption.values, hstore, Option.map_some, hsettled]
      cases unpad padded with
      | error e => rfl
      | ok plaintext =>
        simp only [Outcome.ok_bind, Except.map, Except.pure, pure, DecryptedMessage.values, hsettled]
    · intro decrypted h
      simp only [Outcome.bind_eq_ok_iff, Outcome.pure_eq_ok_iff] at h
      obtain ⟨plaintext, _, rfl⟩ := h
      exact ⟨rfl, rfl⟩
    · rw [settle_ratchet]
      exact hmoves

/-- What a handshake leaves: a session in buffers of its own where it came to one, and the store in its own. -/
def openedBuffers (decryption : Decryption Nat) : Multiset Nat :=
  match decryption.result with
  | .error _ => decryption.preKeys.buffers
  | .ok decrypted => decrypted.session.ratchet.buffers + decryption.preKeys.buffers

structure Opens (heap : Cells K) (sender : PublicIdentity) (store : InMemoryPreKeyStore Nat)
    (done : Cells K × Decryption Nat) (value : Decryption K) : Prop where
  values : done.2.values done.1 = value
  touched : done.2.touched = none
  sender : ∀ decrypted, done.2.result = .ok decrypted → decrypted.senderIdentity = sender
  moves : Cells.Moves store.buffers (openedBuffers done.2) heap done.1

/-- A session shares one buffer with the store and has the next one to itself: what its ratchet writes to is nobody else's. -/
theorem shared_same {heap after : Cells K} {held : Held K} {stored : Multiset Nat} {shared : Nat}
    (fits : Cells.Fits stored heap) (next : after.next = heap.next + 1)
    (same : ∀ c < heap.next, after.cell c = heap.cell c)
    (moves : Cells.Moves ({heap.next} + {shared}) held.state.buffers after held.heap) :
    ∀ c ∈ stored, c ≠ shared → held.heap.cell c = heap.cell c := by
  intro c hc hne
  have hlt := fits.below c hc
  have hnot : c ∉ ({heap.next} + {shared} : Multiset Nat) := by
    rw [Multiset.mem_add, Multiset.mem_singleton, Multiset.mem_singleton]
    omega
  exact (moves.same c (by omega) hnot).trans (same c hlt)

variable {crypto} in
/-- After its DH ratchet step the session's buffers are its own. -/
theorem shared_moves {heap after : Cells K} {held : Held K} {stored : Multiset Nat} {shared : Nat}
    (fits : Cells.Fits stored heap) (hmem : shared ∈ stored) (next : after.next = heap.next + 1)
    (same : ∀ c < heap.next, after.cell c = heap.cell c)
    (moves : Cells.Moves ({heap.next} + {shared}) held.state.buffers after held.heap)
    (left : HasLeft crypto after shared held) :
    Cells.Moves stored (held.state.buffers + stored) heap held.heap := by
  have hgrown := left.next
  refine ⟨by omega, fun c hlt hnot => ?_, fun c hc => ?_, ⟨Multiset.nodup_add.mpr ⟨moves.fits.nodup, fits.nodup, ?_⟩, ?_⟩⟩
  · have hnotSession : c ∉ ({heap.next} + {shared} : Multiset Nat) := by
      rw [Multiset.mem_add, Multiset.mem_singleton, Multiset.mem_singleton]
      rintro (rfl | rfl)
      · exact lt_irrefl _ hlt
      · exact hnot hmem
    exact (moves.same c (by omega) hnotSession).trans (same c hlt)
  · rcases Multiset.mem_add.mp hc with hnew | hold
    · have hge := left.buffers c hnew
      exact Or.inr (by omega)
    · exact Or.inl hold
  · refine Multiset.disjoint_left.mpr (fun hnew hold => ?_)
    have hge := left.buffers _ hnew
    have hlt := fits.below _ hold
    omega
  · intro c hc
    rcases Multiset.mem_add.mp hc with hnew | hold
    · exact moves.fits.below c hnew
    · have hlt := fits.below c hold
      omega

theorem decryptFirst_follows (fresh : KeyPair K) {heap : Cells K} {self : PrivateIdentity Nat}
    {store : InMemoryPreKeyStore Nat} (fits : Cells.Fits store.buffers heap) (sender : PublicIdentity)
    (preamble : PreKeyPreamble) (body : Bytes) :
    Opens heap sender store (decryptFirst crypto fresh heap self sender preamble body store)
      (Veil.decryptFirst crypto fresh (self.values heap) sender preamble body (store.values heap)) := by
  obtain ⟨herror, hok⟩ := @respondWith_values _ crypto heap self store fits sender preamble body
  unfold decryptFirst Veil.decryptFirst
  cases hrespond : respondWith crypto heap self sender preamble body store with
  | error e =>
    rw [herror e hrespond]
    exact ⟨rfl, rfl, fun _ h => (by cases h), Cells.Moves.refl fits⟩
  | ok responded =>
    obtain ⟨after, session, message⟩ := responded
    obtain ⟨hvalue, hnext, hsame, pair, associatedData, hpair, hratchet⟩ := hok after session message hrespond
    have hbelow : ∀ c ∈ store.buffers, c < heap.next := fits.below
    have hmem : pair.secretKey ∈ store.buffers :=
      Multiset.mem_add.mpr (Or.inl (Multiset.mem_coe.mpr (mem_valueBuffers _ hpair)))
    have hgrown : Cells.Fits ({heap.next} + store.buffers) after :=
      (Cells.Moves.alloc fits (heap.cell 0)).fits.grow hnext.ge
    have hbuffers : session.ratchet.buffers = {heap.next} + {pair.secretKey} := by
      rw [hratchet, buffers_initialiseResponder]
    have hsession : Cells.Fits session.ratchet.buffers after := by
      rw [hbuffers]
      exact hgrown.le (add_le_add le_rfl (Multiset.singleton_le.mpr hmem))
    have hstore : store.values after = store.values heap :=
      InMemoryPreKeyStore.values_congr (fun c hc => hsame c (hbelow c hc))
    obtain ⟨hvalues, hmoves⟩ := @ratchetDecrypt_follows _ crypto fresh ⟨after, session.ratchet⟩ hsession message
    have hread : Veil.ratchetDecrypt crypto.toRatchetPrimitives fresh (session.values after).ratchet message = _ :=
      hvalues.symm
    obtain ⟨hturns, hstays⟩ := ratchetDecrypt_responder crypto fresh (hratchet ▸ hsession) message
    rw [← hratchet] at hturns hstays
    have hvalueRatchet : (session.values after).ratchet = session.ratchet.values after := rfl
    have hopens : ∀ opened, (ratchetDecrypt crypto fresh ⟨after, session.ratchet⟩ message).2 = .ok opened →
        StartsTurn crypto.toRatchetPrimitives (session.ratchet.values after) message.header := by
      intro opened hopened
      have hinitial : session.ratchet.values after =
          initialiseResponder (after.cell heap.next) (pair.values after) associatedData := by
        rw [hratchet]
        rfl
      have hresult : (Veil.ratchetDecrypt crypto.toRatchetPrimitives fresh (session.values after).ratchet message).2 =
          .ok opened := by rw [hread, hopened]
      rw [hvalueRatchet, hinitial] at hresult
      rw [hinitial]
      exact (initialiseResponder_opens hresult).1
    rw [hvalue]
    simp only
    rw [hread]
    rw [hvalueRatchet]
    generalize ratchetDecrypt crypto fresh ⟨after, session.ratchet⟩ message = outcome at hmoves hturns hstays hopens ⊢
    obtain ⟨held, result⟩ := outcome
    simp only at hmoves hturns hstays hopens ⊢
    rw [hbuffers] at hmoves
    by_cases hturn : StartsTurn crypto.toRatchetPrimitives (session.ratchet.values after) message.header
    · have hleft := hturns hturn
      have hwiped : store.values held.heap = (store.values heap).wipeSignedPreKey crypto preamble.keyIds.signedPreKeyId :=
        values_wipeSignedPreKey crypto fits hpair
          (hleft.wiped.trans (congrArg crypto.wiped (hsame _ (hbelow _ hmem)))) (shared_same fits hnext hsame hmoves)
      have hboth : Cells.Moves store.buffers (held.state.buffers + store.buffers) heap held.heap :=
        shared_moves fits hmem hnext hsame hmoves hleft
      cases result with
      | error e =>
        refine ⟨?_, rfl, fun _ h => (by cases h), hboth.drop (Multiset.le_add_left _ _)⟩
        simp only [Decryption.values, hwiped, if_pos hturn]
        rfl
      | ok padded =>
        refine ⟨?_, rfl, ?_, ?_⟩
        · simp only [Decryption.values, consumeOneTime_values, hwiped, if_pos hturn]
          cases unpad padded with
          | error e => rfl
          | ok plaintext => rfl
        · intro decrypted h
          simp only [Outcome.bind_eq_ok_iff, Outcome.pure_eq_ok_iff] at h
          obtain ⟨plaintext, _, rfl⟩ := h
          rfl
        · have hconsumed := consumeOneTime_buffers preamble.keyIds store
          refine hboth.drop ?_
          simp only [openedBuffers]
          cases unpad padded with
          | error e => exact hconsumed.trans (Multiset.le_add_left _ _)
          | ok plaintext => exact add_le_add le_rfl hconsumed
    · obtain rfl := hstays hturn
      cases result with
      | ok padded => exact absurd (hopens padded rfl) hturn
      | error e =>
        refine ⟨?_, rfl, fun _ h => (by cases h), ?_⟩
        · simp only [Decryption.values, hstore, if_neg hturn]
          rfl
        · exact ⟨hnext ▸ Nat.le_succ _, fun c hc _ => hsame c hc, fun _ hc => Or.inl hc, hgrown.right⟩

end

end Buffered

end Veil
