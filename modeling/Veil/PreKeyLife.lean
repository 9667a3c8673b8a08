import Veil.HandshakeReuse
import Veil.Library.Runs
import Veil.Routing

namespace Veil

section

variable {K : Type} (crypto : Cryptography K)

/-- Handling the envelope takes a responder session's first DH ratchet step on the signed prekey `id`. -/
def CompletesResponderStep (self : PrivateIdentity K) (envelope : SealedEnvelope)
    (lookupSession : String → Option (Session K)) (preKeys : InMemoryPreKeyStore K)
    (pinnedIdentityKey : String → Option Bytes) (id : Int) : Prop :=
  ∃ sender address preamble body session message,
    route crypto self envelope lookupSession pinnedIdentityKey = .first sender address preamble body ∧
      preamble.keyIds.signedPreKeyId = id ∧
      respondWith crypto self sender preamble body preKeys = .ok (session, message) ∧
      StartsTurn crypto.toRatchetPrimitives session.ratchet message.header

namespace InMemoryPreKeyStore

/-- What happens to a store in use; no envelope takes the responder's step on a spared id. -/
inductive LifeStep (honest : Generators K) (self : PrivateIdentity K) (spared : Int → Prop) :
    InMemoryPreKeyStore K → InMemoryPreKeyStore K → Prop
  | rotate {store next : InMemoryPreKeyStore K} {signed kem : KeyPair K} (dh : honest.dh signed) (kemPair : honest.kem kem)
      (rotated : store.rotateSignedPreKeys crypto self signed kem = .ok next) : LifeStep honest self spared store next
  | replenish (store : InMemoryPreKeyStore K) {pairs kemPairs : List (KeyPair K)} (dh : ∀ pair ∈ pairs, honest.dh pair)
      (kem : ∀ pair ∈ kemPairs, honest.kem pair) :
      LifeStep honest self spared store (store.replenishOneTimePreKeys pairs kemPairs)
  | issue (store : InMemoryPreKeyStore K) (identity : PublicIdentity) :
      LifeStep honest self spared store (store.issueBundle identity).2
  | consumeOneTime (store : InMemoryPreKeyStore K) (id : Int) :
      LifeStep honest self spared store (store.consumeOneTimePreKey id)
  | consumeOneTimeKem (store : InMemoryPreKeyStore K) (id : Int) :
      LifeStep honest self spared store (store.consumeOneTimeKemPreKey id)
  | decrypt (store : InMemoryPreKeyStore K) (fresh : KeyPair K) (envelope : SealedEnvelope)
      (lookupSession : String → Option (Session K)) (pinnedIdentityKey : String → Option Bytes)
      (spares : ∀ id, spared id → ¬CompletesResponderStep crypto self envelope lookupSession store pinnedIdentityKey id) :
      LifeStep honest self spared store
        (decryptEnvelope crypto fresh self envelope lookupSession store pinnedIdentityKey).preKeys

/-- A store as the constructor leaves it. -/
def Created (honest : Generators K) (self : PrivateIdentity K) (store : InMemoryPreKeyStore K) : Prop :=
  ∃ signed kem pairs kemPairs, honest.dh signed ∧ honest.kem kem ∧ (∀ pair ∈ pairs, honest.dh pair) ∧
    (∀ pair ∈ kemPairs, honest.kem pair) ∧ create crypto self signed kem pairs kemPairs = .ok store

/-- The bundle is one the store can hand out now: the current signed prekeys, and any published one-time
prekey of each kind or none. -/
structure Issues (store : InMemoryPreKeyStore K) (identity : PublicIdentity) (bundle : PreKeyBundle) : Prop where
  identity : bundle.identity = identity
  signed : bundle.signedPreKey = store.currentSignedPreKey
  kem : bundle.signedKemPreKey = store.currentSignedKemPreKey
  oneTime : ∀ key, bundle.oneTimePreKey = some key → key ∈ store.publishedOneTime
  oneTimeKem : ∀ key, bundle.oneTimeKemPreKey = some key → key ∈ store.publishedOneTimeKem

/-- Whatever is held under `id` belongs to the public key, and `id` is not handed out again. -/
def Keyed (get : Int → Option (KeyPair K)) (good : KeyPair K → Prop) (nextId id : Int) (publicKey : Bytes) : Prop :=
  id < nextId ∧ ∀ pair, get id = some pair → pair.publicKey = publicKey ∧ good pair

/-- A generated pair, whole or, where the id is not spared, with its secret half wiped. -/
def WholeOrWiped (honest : Generators K) (spared : Prop) (pair : KeyPair K) : Prop :=
  honest.dh pair ∨ (¬spared ∧ ∃ whole, honest.dh whole ∧ whole.publicKey = pair.publicKey ∧
    ∃ key, pair.secretKey = crypto.wiped key)

/-- What the store keeps to a bundle it has issued. -/
structure Honours (honest : Generators K) (spared : Int → Prop) (store : InMemoryPreKeyStore K) (bundle : PreKeyBundle) :
    Prop where
  signed : Keyed store.signedPreKey (WholeOrWiped crypto honest (spared bundle.signedPreKey.id)) store.nextId
    bundle.signedPreKey.id bundle.signedPreKey.publicKey
  kem : Keyed store.signedKemPreKey honest.kem store.nextId bundle.signedKemPreKey.id bundle.signedKemPreKey.publicKey
  oneTime : ∀ key, bundle.oneTimePreKey = some key →
    Keyed store.oneTimePreKey honest.dh store.nextId key.id key.publicKey
  oneTimeKem : ∀ key, bundle.oneTimeKemPreKey = some key →
    Keyed store.oneTimeKemPreKey honest.kem store.nextId key.id key.publicKey

/-- Everything published is kept to. -/
structure Sound (honest : Generators K) (spared : Int → Prop) (store : InMemoryPreKeyStore K) : Prop where
  signed : Keyed store.signedPreKey (WholeOrWiped crypto honest (spared store.currentSignedPreKey.id)) store.nextId
    store.currentSignedPreKey.id store.currentSignedPreKey.publicKey
  kem : Keyed store.signedKemPreKey honest.kem store.nextId store.currentSignedKemPreKey.id
    store.currentSignedKemPreKey.publicKey
  oneTime : ∀ key ∈ store.publishedOneTime, Keyed store.oneTimePreKey honest.dh store.nextId key.id key.publicKey
  oneTimeKem : ∀ key ∈ store.publishedOneTimeKem,
    Keyed store.oneTimeKemPreKey honest.kem store.nextId key.id key.publicKey

/-- Under an old id there is what there was, or nothing; a signed prekey that is not spared may have been wiped. -/
structure Descends (spared : Int → Prop) (store next : InMemoryPreKeyStore K) : Prop where
  nextId : store.nextId ≤ next.nextId
  signed : ∀ id < store.nextId, ∀ pair, next.signedPreKey id = some pair → ∃ old, store.signedPreKey id = some old ∧
    (pair = old ∨ (¬spared id ∧ pair.publicKey = old.publicKey ∧ ∃ key, pair.secretKey = crypto.wiped key))
  kem : ∀ id < store.nextId, ∀ pair, next.signedKemPreKey id = some pair → store.signedKemPreKey id = some pair
  oneTime : ∀ id < store.nextId, ∀ pair, next.oneTimePreKey id = some pair → store.oneTimePreKey id = some pair
  oneTimeKem : ∀ id < store.nextId, ∀ pair, next.oneTimeKemPreKey id = some pair →
    store.oneTimeKemPreKey id = some pair

end InMemoryPreKeyStore

end

namespace InMemoryPreKeyStore

section

variable {K : Type} {crypto : Cryptography K} {honest : Generators K} {self : PrivateIdentity K} {spared : Int → Prop}
  {store next last : InMemoryPreKeyStore K}

theorem Issues.issueBundle (store : InMemoryPreKeyStore K) (identity : PublicIdentity) :
    store.Issues identity (store.issueBundle identity).1 :=
  ⟨rfl, rfl, rfl, fun _ h => List.mem_of_mem_head? h, fun _ h => List.mem_of_mem_head? h⟩

theorem Descends.refl (store : InMemoryPreKeyStore K) : Descends crypto spared store store :=
  ⟨le_rfl, fun _ _ pair h => ⟨pair, h, Or.inl rfl⟩, fun _ _ _ h => h, fun _ _ _ h => h, fun _ _ _ h => h⟩

theorem Descends.trans (h : Descends crypto spared store next) (h' : Descends crypto spared next last) :
    Descends crypto spared store last where
  nextId := h.nextId.trans h'.nextId
  signed := by
    intro id hid pair hpair
    obtain ⟨mid, hmid, hsame⟩ := h'.signed id (hid.trans_le h.nextId) pair hpair
    obtain ⟨old, hold, hsame'⟩ := h.signed id hid mid hmid
    refine ⟨old, hold, ?_⟩
    rcases hsame with rfl | ⟨hspared, hpublic, hwiped⟩
    · exact hsame'
    · refine Or.inr ⟨hspared, ?_, hwiped⟩
      rcases hsame' with rfl | ⟨_, hpublic', _⟩
      · exact hpublic
      · exact hpublic.trans hpublic'
  kem id hid pair hpair := h.kem id hid pair (h'.kem id (hid.trans_le h.nextId) pair hpair)
  oneTime id hid pair hpair := h.oneTime id hid pair (h'.oneTime id (hid.trans_le h.nextId) pair hpair)
  oneTimeKem id hid pair hpair := h.oneTimeKem id hid pair (h'.oneTimeKem id (hid.trans_le h.nextId) pair hpair)

theorem get?_of_delete {ν : Type} {keys : OrderedMap Int ν} {id expired : Int} {value : ν}
    (h : (keys.delete expired).get? id = some value) : keys.get? id = some value := by
  rw [OrderedMap.get?_delete] at h
  split at h
  next => cases h
  next => exact h

theorem consumeOneTimePreKey_descends (id : Int) : Descends crypto spared store (store.consumeOneTimePreKey id) :=
  ⟨le_rfl, fun _ _ pair h => ⟨pair, h, Or.inl rfl⟩, fun _ _ _ h => h, fun _ _ _ h => get?_of_delete h, fun _ _ _ h => h⟩

theorem consumeOneTimeKemPreKey_descends (id : Int) : Descends crypto spared store (store.consumeOneTimeKemPreKey id) :=
  ⟨le_rfl, fun _ _ pair h => ⟨pair, h, Or.inl rfl⟩, fun _ _ _ h => h, fun _ _ _ h => h, fun _ _ _ h => get?_of_delete h⟩

theorem consumeOneTime_descends (keyIds : HandshakeKeyIds) : Descends crypto spared store (consumeOneTime keyIds store) := by
  unfold Veil.consumeOneTime
  cases keyIds.oneTimePreKeyId <;> cases keyIds.oneTimeKemPreKeyId
  · exact Descends.refl store
  · exact consumeOneTimeKemPreKey_descends _
  · exact consumeOneTimePreKey_descends _
  · exact (consumeOneTimePreKey_descends _).trans (consumeOneTimeKemPreKey_descends _)

theorem wipeSignedPreKey_descends {id : Int} (h : ¬spared id) :
    Descends crypto spared store (store.wipeSignedPreKey crypto id) := by
  obtain ⟨hnext, hone, honeKem⟩ := wipeSignedPreKey_same store id
  have hkem : (store.wipeSignedPreKey crypto id).signedKemPreKeys = store.signedKemPreKeys := by
    unfold wipeSignedPreKey
    split <;> rfl
  refine ⟨hnext.symm.le, ?_, ?_, ?_, ?_⟩
  · intro id' _ pair hpair
    rw [wipeSignedPreKey_get?] at hpair
    split at hpair
    next heq =>
      obtain ⟨old, hold, rfl⟩ := Option.map_eq_some_iff.mp hpair
      exact ⟨old, heq ▸ hold, Or.inr ⟨heq ▸ h, rfl, old.secretKey, rfl⟩⟩
    next => exact ⟨pair, hpair, Or.inl rfl⟩
  · intro id' _ pair hpair
    rwa [signedKemPreKey, hkem] at hpair
  · intro id' _ pair hpair
    rwa [oneTimePreKey, hone] at hpair
  · intro id' _ pair hpair
    rwa [oneTimeKemPreKey, honeKem] at hpair

/-- What a rotation publishes. -/
theorem rotateSignedPreKeys_current {signed kem : KeyPair K}
    (h : store.rotateSignedPreKeys crypto self signed kem = .ok next) :
    next.currentSignedPreKey.id = store.nextId ∧ next.currentSignedPreKey.publicKey = signed.publicKey ∧
      next.currentSignedKemPreKey.id = store.nextId + 1 ∧ next.currentSignedKemPreKey.publicKey = kem.publicKey ∧
      next.publishedOneTime = store.publishedOneTime ∧ next.publishedOneTimeKem = store.publishedOneTimeKem ∧
      next.signedKemPreKeys = (pruneGenerations (store.signedKemPreKeys.set (store.nextId + 1) kem)
        (store.signedKemPreKeyOrder ++ [store.nextId + 1])).1 := by
  simp only [rotateSignedPreKeys, createSignedPreKey, createSignedKemPreKey, createSigned, Outcome.bind_eq_ok_iff,
    Outcome.pure_eq_ok_iff] at h
  obtain ⟨_, ⟨_, _, _, _, rfl⟩, _, ⟨_, _, _, _, rfl⟩, rfl⟩ := h
  exact ⟨rfl, rfl, rfl, rfl, rfl, rfl, rfl⟩

theorem rotateSignedPreKeys_descends {signed kem : KeyPair K}
    (h : store.rotateSignedPreKeys crypto self signed kem = .ok next) : Descends crypto spared store next := by
  obtain ⟨hnext, hone, honeKem, hsigned⟩ := rotateSignedPreKeys_eq_ok h
  obtain ⟨_, _, _, _, _, _, hkem⟩ := rotateSignedPreKeys_current h
  refine ⟨by omega, ?_, ?_, ?_, ?_⟩
  · intro id hid pair hpair
    rw [signedPreKey, hsigned] at hpair
    have hset := pruneGenerations_get? hpair
    rw [OrderedMap.get?_set_of_ne _ _ (by omega)] at hset
    exact ⟨pair, hset, Or.inl rfl⟩
  · intro id hid pair hpair
    rw [signedKemPreKey, hkem] at hpair
    have hset := pruneGenerations_get? hpair
    rwa [OrderedMap.get?_set_of_ne _ _ (by omega)] at hset
  · intro id _ pair hpair
    rwa [oneTimePreKey, hone] at hpair
  · intro id _ pair hpair
    rwa [oneTimeKemPreKey, honeKem] at hpair

theorem replenishOneTimePreKeys_descends (pairs kemPairs : List (KeyPair K)) :
    Descends crypto spared store (store.replenishOneTimePreKeys pairs kemPairs) := by
  refine ⟨?_, fun _ _ pair h => ⟨pair, h, Or.inl rfl⟩, fun _ _ _ h => h, ?_, ?_⟩
  · simp only [replenishOneTimePreKeys]
    omega
  · intro id hid pair hpair
    rwa [replenish_oneTimePreKey store _ _ (Or.inl hid)] at hpair
  · intro id hid pair hpair
    rwa [replenish_oneTimeKemPreKey store _ _ (Or.inl hid)] at hpair

/-- The store after the prekey branch: the signed prekey is wiped exactly where the responder's step completes. -/
theorem decryptFirst_preKeys (fresh : KeyPair K) (sender : PublicIdentity) (preamble : PreKeyPreamble) (body : Bytes)
    (store : InMemoryPreKeyStore K) : ∃ wiped, (wiped = store ∨
        (∃ session message, respondWith crypto self sender preamble body store = .ok (session, message) ∧
          StartsTurn crypto.toRatchetPrimitives session.ratchet message.header) ∧
        wiped = store.wipeSignedPreKey crypto preamble.keyIds.signedPreKeyId) ∧
      ((decryptFirst crypto fresh self sender preamble body store).preKeys = wiped ∨
        (decryptFirst crypto fresh self sender preamble body store).preKeys = consumeOneTime preamble.keyIds wiped) := by
  unfold decryptFirst
  cases hrespond : respondWith crypto self sender preamble body store with
  | error e => exact ⟨store, Or.inl rfl, Or.inl rfl⟩
  | ok responded =>
    obtain ⟨session, message⟩ := responded
    simp only
    refine ⟨if StartsTurn crypto.toRatchetPrimitives session.ratchet message.header then
      store.wipeSignedPreKey crypto preamble.keyIds.signedPreKeyId else store, ?_, ?_⟩
    · split
      next hturn => exact Or.inr ⟨⟨session, message, rfl, hturn⟩, rfl⟩
      next => exact Or.inl rfl
    · cases (ratchetDecrypt crypto.toRatchetPrimitives fresh session.ratchet message).2 with
      | error e => exact Or.inl rfl
      | ok padded => exact Or.inr rfl

theorem decryptWith_preKeys (fresh : KeyPair K) (sender : PublicIdentity) (address : String) (session : Session K)
    (settled : Session K → Session K) (message : RatchetMessage) (store : InMemoryPreKeyStore K) :
    (decryptWith crypto fresh sender address session settled message store).preKeys = store := by
  unfold decryptWith
  cases ratchetDecrypt crypto.toRatchetPrimitives fresh session.ratchet message with
  | mk ratchet result => cases result <;> rfl

theorem decryptEnvelope_descends {fresh : KeyPair K} {envelope : SealedEnvelope}
    {lookupSession : String → Option (Session K)} {pinnedIdentityKey : String → Option Bytes}
    (spares : ∀ id, spared id → ¬CompletesResponderStep crypto self envelope lookupSession store pinnedIdentityKey id) :
    Descends crypto spared store
      (decryptEnvelope crypto fresh self envelope lookupSession store pinnedIdentityKey).preKeys := by
  rw [decryptEnvelope_eq]
  cases hroute : route crypto self envelope lookupSession pinnedIdentityKey with
  | refused e => exact Descends.refl store
  | live sender address session answered message =>
    simp only [decryptWith_preKeys]
    exact Descends.refl store
  | first sender address preamble body =>
    obtain ⟨wiped, hwiped, hpreKeys⟩ := @decryptFirst_preKeys _ crypto self fresh sender preamble
      body store
    have hdescends : Descends crypto spared store wiped := by
      rcases hwiped with rfl | ⟨⟨session, message, hrespond, hturn⟩, rfl⟩
      · exact Descends.refl _
      · exact wipeSignedPreKey_descends fun hspared =>
          spares _ hspared ⟨sender, address, preamble, body, session, message, hroute, rfl, hrespond, hturn⟩
    rcases hpreKeys with hpreKeys | hpreKeys
    · simp only [hpreKeys]
      exact hdescends
    · simp only [hpreKeys]
      exact hdescends.trans (consumeOneTime_descends _)

theorem LifeStep.descends (h : LifeStep crypto honest self spared store next) : Descends crypto spared store next := by
  cases h with
  | rotate dh kemPair rotated => exact rotateSignedPreKeys_descends rotated
  | replenish dh kem => exact replenishOneTimePreKeys_descends _ _
  | issue identity =>
    exact ⟨le_rfl, fun _ _ pair h => ⟨pair, h, Or.inl rfl⟩, fun _ _ _ h => h, fun _ _ _ h => h, fun _ _ _ h => h⟩
  | consumeOneTime id => exact consumeOneTimePreKey_descends id
  | consumeOneTimeKem id => exact consumeOneTimeKemPreKey_descends id
  | decrypt fresh envelope lookupSession pinnedIdentityKey spares => exact decryptEnvelope_descends spares

theorem Keyed.descends {get get' : Int → Option (KeyPair K)} {good : KeyPair K → Prop} {nextId nextId' id : Int}
    {publicKey : Bytes} (h : Keyed get good nextId id publicKey) (hnext : nextId ≤ nextId')
    (old : ∀ pair, get' id = some pair → get id = some pair) : Keyed get' good nextId' id publicKey :=
  ⟨h.1.trans_le hnext, fun pair hpair => h.2 pair (old pair hpair)⟩

theorem Descends.keyed_signed (h : Descends crypto spared store next) {id : Int} {publicKey : Bytes}
    (keyed : Keyed store.signedPreKey (WholeOrWiped crypto honest (spared id)) store.nextId id publicKey) :
    Keyed next.signedPreKey (WholeOrWiped crypto honest (spared id)) next.nextId id publicKey := by
  refine ⟨keyed.1.trans_le h.nextId, ?_⟩
  intro pair hpair
  obtain ⟨old, hold, hsame⟩ := h.signed id keyed.1 pair hpair
  obtain ⟨hpublic, hgood⟩ := keyed.2 old hold
  rcases hsame with rfl | ⟨hspared, hsamePublic, hwiped⟩
  · exact ⟨hpublic, hgood⟩
  · refine ⟨hsamePublic.trans hpublic, Or.inr ⟨hspared, ?_⟩⟩
    rcases hgood with hwhole | ⟨_, whole, hwhole, hpublic', _⟩
    · exact ⟨old, hwhole, hsamePublic.symm, hwiped⟩
    · exact ⟨whole, hwhole, hpublic'.trans hsamePublic.symm, hwiped⟩

theorem Honours.descends {bundle : PreKeyBundle} (h : Honours crypto honest spared store bundle)
    (later : Descends crypto spared store next) : Honours crypto honest spared next bundle where
  signed := later.keyed_signed h.signed
  kem := h.kem.descends later.nextId (later.kem _ h.kem.1)
  oneTime key hkey := (h.oneTime key hkey).descends later.nextId (later.oneTime _ (h.oneTime key hkey).1)
  oneTimeKem key hkey := (h.oneTimeKem key hkey).descends later.nextId (later.oneTimeKem _ (h.oneTimeKem key hkey).1)

theorem Sound.honours (h : Sound crypto honest spared store) {identity : PublicIdentity} {bundle : PreKeyBundle}
    (issues : store.Issues identity bundle) : Honours crypto honest spared store bundle where
  signed := by rw [issues.signed]; exact h.signed
  kem := issues.kem ▸ h.kem
  oneTime key hkey := h.oneTime key (issues.oneTime key hkey)
  oneTimeKem key hkey := h.oneTimeKem key (issues.oneTimeKem key hkey)

/-- A step that publishes nothing new keeps the store sound. -/
theorem Sound.descends (h : Sound crypto honest spared store) (later : Descends crypto spared store next)
    (signed : next.currentSignedPreKey = store.currentSignedPreKey)
    (kem : next.currentSignedKemPreKey = store.currentSignedKemPreKey)
    (oneTime : ∀ key ∈ next.publishedOneTime, key ∈ store.publishedOneTime)
    (oneTimeKem : ∀ key ∈ next.publishedOneTimeKem, key ∈ store.publishedOneTimeKem) :
    Sound crypto honest spared next where
  signed := by rw [signed]; exact later.keyed_signed h.signed
  kem := kem ▸ h.kem.descends later.nextId (later.kem _ h.kem.1)
  oneTime key hkey :=
    (h.oneTime key (oneTime key hkey)).descends later.nextId (later.oneTime _ (h.oneTime key (oneTime key hkey)).1)
  oneTimeKem key hkey := (h.oneTimeKem key (oneTimeKem key hkey)).descends later.nextId
    (later.oneTimeKem _ (h.oneTimeKem key (oneTimeKem key hkey)).1)

theorem rotateSignedPreKeys_keyed {signed kem : KeyPair K} (dh : honest.dh signed) (kemPair : honest.kem kem)
    (rotated : store.rotateSignedPreKeys crypto self signed kem = .ok next) :
    Keyed next.signedPreKey (WholeOrWiped crypto honest (spared next.currentSignedPreKey.id)) next.nextId
        next.currentSignedPreKey.id next.currentSignedPreKey.publicKey ∧
      Keyed next.signedKemPreKey honest.kem next.nextId next.currentSignedKemPreKey.id
        next.currentSignedKemPreKey.publicKey := by
  obtain ⟨hnext, _, _, hsigned⟩ := rotateSignedPreKeys_eq_ok rotated
  obtain ⟨hid, hpublic, hkemId, hkemPublic, _, _, hkem⟩ := rotateSignedPreKeys_current rotated
  refine ⟨⟨by omega, ?_⟩, ⟨by omega, ?_⟩⟩
  · intro pair hpair
    rw [signedPreKey, hsigned, hid] at hpair
    have hset := pruneGenerations_get? hpair
    rw [OrderedMap.get?_set_self, Option.some.injEq] at hset
    subst hset
    exact ⟨hpublic.symm, Or.inl dh⟩
  · intro pair hpair
    rw [signedKemPreKey, hkem, hkemId] at hpair
    have hset := pruneGenerations_get? hpair
    rw [OrderedMap.get?_set_self, Option.some.injEq] at hset
    subst hset
    exact ⟨hkemPublic.symm, kemPair⟩

theorem Sound.rotate (h : Sound crypto honest spared store) {signed kem : KeyPair K} (dh : honest.dh signed)
    (kemPair : honest.kem kem) (rotated : store.rotateSignedPreKeys crypto self signed kem = .ok next) :
    Sound crypto honest spared next := by
  obtain ⟨_, _, _, _, hone, honeKem, _⟩ := rotateSignedPreKeys_current rotated
  obtain ⟨hsigned, hkem⟩ := rotateSignedPreKeys_keyed dh kemPair rotated
  have later := (@rotateSignedPreKeys_descends _ _ _ spared) rotated
  refine ⟨hsigned, hkem, ?_, ?_⟩
  · intro key hkey
    rw [hone] at hkey
    exact (h.oneTime key hkey).descends later.nextId (later.oneTime _ (h.oneTime key hkey).1)
  · intro key hkey
    rw [honeKem] at hkey
    exact (h.oneTimeKem key hkey).descends later.nextId (later.oneTimeKem _ (h.oneTimeKem key hkey).1)

theorem createOneTimePreKeys_cons (startId : Int) (pair : KeyPair K) (pairs : List (KeyPair K)) :
    createOneTimePreKeys startId (pair :: pairs) =
      (⟨startId, pair.publicKey⟩, pair) :: createOneTimePreKeys (startId + 1) pairs := by
  simp only [createOneTimePreKeys, List.zipIdx_cons, List.map_cons, Nat.cast_zero, Int.add_zero, Nat.zero_add,
    List.cons.injEq, true_and]
  rw [List.zipIdx_succ, List.map_map]
  apply List.map_congr_left
  intro entry _
  simp only [Function.comp_apply, Prod.mk.injEq, OneTimePreKey.mk.injEq, and_true]
  omega

/-- Every fresh one-time prekey can be looked up under its id. -/
theorem foldl_set_get?_mem {startId : Int} {pairs : List (KeyPair K)} {keys : OrderedMap Int (KeyPair K)}
    {key : OneTimePreKey × KeyPair K} (h : key ∈ createOneTimePreKeys startId pairs) :
    ((createOneTimePreKeys startId pairs).foldl (fun keys key => keys.set key.1.id key.2) keys).get? key.1.id =
      some key.2 ∧ key.2.publicKey = key.1.publicKey ∧ key.2 ∈ pairs := by
  induction pairs generalizing startId keys with
  | nil => simp [createOneTimePreKeys] at h
  | cons pair pairs ih =>
    rw [createOneTimePreKeys_cons] at h ⊢
    rw [List.foldl_cons]
    rcases List.mem_cons.mp h with rfl | hmem
    · refine ⟨?_, rfl, List.mem_cons_self⟩
      rw [foldl_set_get?, OrderedMap.get?_set_self]
      intro other hother
      have := createOneTimePreKeys_id hother
      simp only
      omega
    · obtain ⟨hget, hpublic, hin⟩ := ih hmem
      exact ⟨hget, hpublic, List.mem_cons_of_mem _ hin⟩

/-- A key published before the top-up or by it. -/
theorem keyed_replenished {good : KeyPair K → Prop} {pairs : List (KeyPair K)} {startId nextId : Int}
    {keys : OrderedMap Int (KeyPair K)} (hgood : ∀ pair ∈ pairs, good pair) (hnext : startId + pairs.length ≤ nextId)
    {key : OneTimePreKey} (h : key ∈ (createOneTimePreKeys startId pairs).map Prod.fst) :
    Keyed (fun id => ((createOneTimePreKeys startId pairs).foldl (fun keys key => keys.set key.1.id key.2) keys).get? id)
      good nextId key.id key.publicKey := by
  obtain ⟨entry, hmem, rfl⟩ := List.mem_map.mp h
  obtain ⟨hget, hpublic, hin⟩ := foldl_set_get?_mem hmem
  refine ⟨by have := createOneTimePreKeys_id hmem; omega, ?_⟩
  intro pair hpair
  obtain rfl := Option.some.inj (hget.symm.trans hpair)
  exact ⟨hpublic, hgood _ hin⟩

theorem Sound.replenish (h : Sound crypto honest spared store) {pairs kemPairs : List (KeyPair K)}
    (dh : ∀ pair ∈ pairs, honest.dh pair) (kem : ∀ pair ∈ kemPairs, honest.kem pair) :
    Sound crypto honest spared (store.replenishOneTimePreKeys pairs kemPairs) := by
  have later := @replenishOneTimePreKeys_descends _ crypto spared store pairs
    kemPairs
  refine ⟨later.keyed_signed h.signed, h.kem.descends later.nextId (later.kem _ h.kem.1), ?_, ?_⟩
  · intro key hkey
    rcases List.mem_append.mp hkey with hold | hnew
    · exact (h.oneTime key hold).descends later.nextId (later.oneTime _ (h.oneTime key hold).1)
    · exact keyed_replenished dh (by simp only [replenishOneTimePreKeys]; omega) hnew
  · intro key hkey
    rcases List.mem_append.mp hkey with hold | hnew
    · exact (h.oneTimeKem key hold).descends later.nextId (later.oneTimeKem _ (h.oneTimeKem key hold).1)
    · exact keyed_replenished kem (by simp only [replenishOneTimePreKeys]; omega) hnew

theorem Created.sound (h : Created crypto honest self store) : Sound crypto honest spared store := by
  obtain ⟨signed, kem, pairs, kemPairs, hsigned, hkem, hpairs, hkemPairs, hcreate⟩ := h
  simp only [create, Outcome.bind_eq_ok_iff, Outcome.pure_eq_ok_iff] at hcreate
  obtain ⟨rotated, hrotated, rfl⟩ := hcreate
  obtain ⟨_, _, _, _, hone, honeKem, _⟩ := rotateSignedPreKeys_current hrotated
  obtain ⟨hsignedKeyed, hkemKeyed⟩ := rotateSignedPreKeys_keyed hsigned hkem hrotated
  exact Sound.replenish ⟨hsignedKeyed, hkemKeyed, by rw [hone]; simp, by rw [honeKem]; simp⟩ hpairs hkemPairs

/-- Consuming and wiping publish nothing. -/
theorem decryptEnvelope_published (fresh : KeyPair K) (envelope : SealedEnvelope)
    (lookupSession : String → Option (Session K)) (store : InMemoryPreKeyStore K)
    (pinnedIdentityKey : String → Option Bytes) :
    let next := (decryptEnvelope crypto fresh self envelope lookupSession store pinnedIdentityKey).preKeys
    next.currentSignedPreKey = store.currentSignedPreKey ∧
      next.currentSignedKemPreKey = store.currentSignedKemPreKey ∧
      (∀ key ∈ next.publishedOneTime, key ∈ store.publishedOneTime) ∧
      ∀ key ∈ next.publishedOneTimeKem, key ∈ store.publishedOneTimeKem := by
  intro next
  have hwipe : ∀ id, (store.wipeSignedPreKey crypto id).currentSignedPreKey = store.currentSignedPreKey ∧
      (store.wipeSignedPreKey crypto id).currentSignedKemPreKey = store.currentSignedKemPreKey ∧
      (store.wipeSignedPreKey crypto id).publishedOneTime = store.publishedOneTime ∧
      (store.wipeSignedPreKey crypto id).publishedOneTimeKem = store.publishedOneTimeKem := by
    intro id
    unfold wipeSignedPreKey
    split <;> exact ⟨rfl, rfl, rfl, rfl⟩
  have hconsume : ∀ (keyIds : HandshakeKeyIds) (wiped : InMemoryPreKeyStore K),
      (Veil.consumeOneTime keyIds wiped).currentSignedPreKey = wiped.currentSignedPreKey ∧
      (Veil.consumeOneTime keyIds wiped).currentSignedKemPreKey = wiped.currentSignedKemPreKey ∧
      (∀ key ∈ (Veil.consumeOneTime keyIds wiped).publishedOneTime, key ∈ wiped.publishedOneTime) ∧
      ∀ key ∈ (Veil.consumeOneTime keyIds wiped).publishedOneTimeKem, key ∈ wiped.publishedOneTimeKem := by
    intro keyIds wiped
    unfold Veil.consumeOneTime
    cases keyIds.oneTimePreKeyId <;> cases keyIds.oneTimeKemPreKeyId <;>
      refine ⟨rfl, rfl, fun key hkey => ?_, fun key hkey => ?_⟩ <;>
      first | exact hkey | exact List.mem_of_mem_filter hkey
  have hnext : next = (decryptEnvelope crypto fresh self envelope lookupSession store pinnedIdentityKey).preKeys := rfl
  rw [decryptEnvelope_eq] at hnext
  cases hroute : route crypto self envelope lookupSession pinnedIdentityKey with
  | refused e =>
    simp only [hroute] at hnext
    rw [hnext]
    exact ⟨rfl, rfl, fun _ h => h, fun _ h => h⟩
  | live sender address session answered message =>
    simp only [hroute, decryptWith_preKeys] at hnext
    rw [hnext]
    exact ⟨rfl, rfl, fun _ h => h, fun _ h => h⟩
  | first sender address preamble body =>
    simp only [hroute] at hnext
    obtain ⟨wiped, hwiped, hpreKeys⟩ := decryptFirst_preKeys fresh sender preamble
      body store
    rw [← hnext] at hpreKeys
    have hsame : wiped.currentSignedPreKey = store.currentSignedPreKey ∧
        wiped.currentSignedKemPreKey = store.currentSignedKemPreKey ∧
        wiped.publishedOneTime = store.publishedOneTime ∧ wiped.publishedOneTimeKem = store.publishedOneTimeKem := by
      rcases hwiped with rfl | ⟨_, rfl⟩
      · exact ⟨rfl, rfl, rfl, rfl⟩
      · exact hwipe _
    obtain ⟨h₁, h₂, h₃, h₄⟩ := hsame
    rcases hpreKeys with rfl | hpreKeys
    · exact ⟨h₁, h₂, fun _ h => h₃ ▸ h, fun _ h => h₄ ▸ h⟩
    · obtain ⟨g₁, g₂, g₃, g₄⟩ := hconsume preamble.keyIds wiped
      rw [hpreKeys]
      exact ⟨g₁.trans h₁, g₂.trans h₂, fun key h => h₃ ▸ g₃ key h, fun key h => h₄ ▸ g₄ key h⟩

theorem LifeStep.sound (h : LifeStep crypto honest self spared store next) (sound : Sound crypto honest spared store) :
    Sound crypto honest spared next := by
  have later := h.descends
  cases h with
  | rotate dh kemPair rotated => exact sound.rotate dh kemPair rotated
  | replenish dh kem => exact sound.replenish dh kem
  | issue identity =>
    exact sound.descends later rfl rfl (fun _ h => List.mem_of_mem_tail h) (fun _ h => List.mem_of_mem_tail h)
  | consumeOneTime id => exact sound.descends later rfl rfl (fun _ h => List.mem_of_mem_filter h) (fun _ h => h)
  | consumeOneTimeKem id => exact sound.descends later rfl rfl (fun _ h => h) (fun _ h => List.mem_of_mem_filter h)
  | decrypt fresh envelope lookupSession pinnedIdentityKey spares =>
    obtain ⟨h₁, h₂, h₃, h₄⟩ := decryptEnvelope_published fresh envelope lookupSession
      store pinnedIdentityKey
    exact sound.descends later h₁ h₂ h₃ h₄

theorem sound_of_run (created : Created crypto honest self store)
    (run : Relation.ReflTransGen (LifeStep crypto honest self spared) store next) : Sound crypto honest spared next :=
  Runs.preserved (P := Sound crypto honest spared) (fun _ _ h hs => h.sound hs) run created.sound

theorem descends_of_run (run : Relation.ReflTransGen (LifeStep crypto honest self spared) store next) :
    Descends crypto spared store next :=
  Runs.preserved (P := Descends crypto spared store) (fun _ _ h hs => hs.trans h.descends) run (Descends.refl store)

end

end InMemoryPreKeyStore

end Veil
