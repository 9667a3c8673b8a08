import Veil.Session

namespace Veil

namespace InMemoryPreKeyStore

section

variable {K : Type} {crypto : Cryptography K} {store next : InMemoryPreKeyStore K}

/-- Every id the store holds a secret under was handed out before. -/
structure Numbered (store : InMemoryPreKeyStore K) : Prop where
  signed : ∀ id, (store.signedPreKey id).isSome → id < store.nextId
  oneTime : ∀ id, (store.oneTimePreKey id).isSome → id < store.nextId
  oneTimeKem : ∀ id, (store.oneTimeKemPreKey id).isSome → id < store.nextId

/-- No old id comes back, and an old signed prekey is as it was or wiped. -/
structure Later (crypto : Cryptography K) (store next : InMemoryPreKeyStore K) : Prop where
  nextId : store.nextId ≤ next.nextId
  signed : ∀ id < store.nextId, ∀ stored, next.signedPreKey id = some stored →
    store.signedPreKey id = some stored ∨ ∃ key, stored.secretKey = crypto.wiped key
  oneTime : ∀ id < store.nextId, store.oneTimePreKey id = none → next.oneTimePreKey id = none
  oneTimeKem : ∀ id < store.nextId, store.oneTimeKemPreKey id = none → next.oneTimeKemPreKey id = none

theorem Later.refl (store : InMemoryPreKeyStore K) : Later crypto store store :=
  ⟨le_rfl, fun _ _ _ h => Or.inl h, fun _ _ h => h, fun _ _ h => h⟩

theorem Later.trans {last : InMemoryPreKeyStore K} (h : Later crypto store next) (h' : Later crypto next last) :
    Later crypto store last where
  nextId := h.nextId.trans h'.nextId
  signed := by
    intro id hid stored hstored
    rcases h'.signed id (hid.trans_le h.nextId) stored hstored with hnext | hwiped
    · exact h.signed id hid stored hnext
    · exact Or.inr hwiped
  oneTime id hid hnone := h'.oneTime id (hid.trans_le h.nextId) (h.oneTime id hid hnone)
  oneTimeKem id hid hnone := h'.oneTimeKem id (hid.trans_le h.nextId) (h.oneTimeKem id hid hnone)

theorem get?_delete_none {ν : Type} {keys : OrderedMap Int ν} {id : Int} (expired : Int) (h : keys.get? id = none) :
    (keys.delete expired).get? id = none := by
  rw [OrderedMap.get?_delete, h, ite_self]

theorem isSome_of_delete {ν : Type} {keys : OrderedMap Int ν} {id expired : Int}
    (h : ((keys.delete expired).get? id).isSome) : (keys.get? id).isSome := by
  rw [OrderedMap.get?_delete] at h
  split at h
  next => simp at h
  next => exact h

theorem consumeOneTimePreKey_later (id : Int) : Later crypto store (store.consumeOneTimePreKey id) :=
  ⟨le_rfl, fun _ _ _ h => Or.inl h, fun _ _ h => get?_delete_none id h, fun _ _ h => h⟩

theorem consumeOneTimeKemPreKey_later (id : Int) : Later crypto store (store.consumeOneTimeKemPreKey id) :=
  ⟨le_rfl, fun _ _ _ h => Or.inl h, fun _ _ h => h, fun _ _ h => get?_delete_none id h⟩

theorem wipeSignedPreKey_get? (store : InMemoryPreKeyStore K) (id id' : Int) :
    (store.wipeSignedPreKey crypto id).signedPreKey id' = if id' = id then
      (store.signedPreKey id).map (fun pair => { pair with secretKey := crypto.wiped pair.secretKey })
      else store.signedPreKey id' := by
  unfold wipeSignedPreKey signedPreKey
  split
  next hnone =>
    split
    next heq => rw [heq, hnone]; rfl
    next => rfl
  next pair hpair => simp only [OrderedMap.get?_set, hpair, Option.map_some]

theorem wipeSignedPreKey_same (store : InMemoryPreKeyStore K) (id : Int) :
    (store.wipeSignedPreKey crypto id).nextId = store.nextId ∧
      (store.wipeSignedPreKey crypto id).oneTimePreKeys = store.oneTimePreKeys ∧
      (store.wipeSignedPreKey crypto id).oneTimeKemPreKeys = store.oneTimeKemPreKeys := by
  unfold wipeSignedPreKey
  split <;> exact ⟨rfl, rfl, rfl⟩

theorem wipeSignedPreKey_later (id : Int) : Later crypto store (store.wipeSignedPreKey crypto id) := by
  obtain ⟨hid, hone, hkem⟩ := wipeSignedPreKey_same store id
  refine ⟨hid.symm.le, ?_, ?_, ?_⟩
  · intro id' _ stored hstored
    rw [wipeSignedPreKey_get?] at hstored
    split at hstored
    next =>
      obtain ⟨pair, _, rfl⟩ := Option.map_eq_some_iff.mp hstored
      exact Or.inr ⟨pair.secretKey, rfl⟩
    next => exact Or.inl hstored
  · intro id' _ hnone
    rwa [oneTimePreKey, hone]
  · intro id' _ hnone
    rwa [oneTimeKemPreKey, hkem]

theorem Numbered.consumeOneTimePreKey (h : store.Numbered) (id : Int) : (store.consumeOneTimePreKey id).Numbered :=
  ⟨h.signed, fun id' hsome => h.oneTime id' (isSome_of_delete hsome), h.oneTimeKem⟩

theorem Numbered.consumeOneTimeKemPreKey (h : store.Numbered) (id : Int) :
    (store.consumeOneTimeKemPreKey id).Numbered :=
  ⟨h.signed, h.oneTime, fun id' hsome => h.oneTimeKem id' (isSome_of_delete hsome)⟩

theorem Numbered.wipeSignedPreKey (h : store.Numbered) (id : Int) : (store.wipeSignedPreKey crypto id).Numbered := by
  obtain ⟨hid, hone, hkem⟩ := wipeSignedPreKey_same store id
  refine ⟨?_, ?_, ?_⟩
  · intro id' hsome
    rw [wipeSignedPreKey_get?] at hsome
    rw [hid]
    split at hsome
    next heq => exact h.signed id' (by simpa [heq] using hsome)
    next => exact h.signed id' hsome
  · rw [hid]; unfold oneTimePreKey; rw [hone]; exact h.oneTime
  · rw [hid]; unfold oneTimeKemPreKey; rw [hkem]; exact h.oneTimeKem

theorem pruneGenerations_get? {keys : OrderedMap Int (KeyPair K)} {order : List Int} {id : Int} {pair : KeyPair K}
    (h : (pruneGenerations keys order).1.get? id = some pair) : keys.get? id = some pair := by
  induction order generalizing keys with
  | nil => exact h
  | cons expired order ih =>
    unfold pruneGenerations at h
    split at h
    next =>
      have hdeleted := ih h
      rw [OrderedMap.get?_delete] at hdeleted
      split at hdeleted
      next => simp at hdeleted
      next => exact hdeleted
    next => exact h

/-- What a rotation does to the store: the ids it hands out are new. -/
theorem rotateSignedPreKeys_eq_ok {identity : PrivateIdentity K} {signed kem : KeyPair K}
    (h : store.rotateSignedPreKeys crypto identity signed kem = .ok next) :
    next.nextId = store.nextId + 2 ∧ next.oneTimePreKeys = store.oneTimePreKeys ∧
      next.oneTimeKemPreKeys = store.oneTimeKemPreKeys ∧
      next.signedPreKeys = (pruneGenerations (store.signedPreKeys.set store.nextId signed)
        (store.signedPreKeyOrder ++ [store.nextId])).1 := by
  simp only [rotateSignedPreKeys, createSignedPreKey, createSignedKemPreKey, createSigned, Outcome.bind_eq_ok_iff,
    Outcome.pure_eq_ok_iff] at h
  obtain ⟨_, ⟨_, _, _, _, rfl⟩, _, ⟨_, _, _, _, rfl⟩, rfl⟩ := h
  exact ⟨rfl, rfl, rfl, rfl⟩

theorem rotateSignedPreKeys_later {identity : PrivateIdentity K} {signed kem : KeyPair K}
    (h : store.rotateSignedPreKeys crypto identity signed kem = .ok next) : Later crypto store next := by
  obtain ⟨hid, hone, hkem, hsigned⟩ := rotateSignedPreKeys_eq_ok h
  refine ⟨by omega, ?_, ?_, ?_⟩
  · intro id hlt stored hstored
    rw [signedPreKey, hsigned] at hstored
    have hset := pruneGenerations_get? hstored
    rw [OrderedMap.get?_set_of_ne _ _ (by omega)] at hset
    exact Or.inl hset
  · intro id _ hnone
    rwa [oneTimePreKey, hone]
  · intro id _ hnone
    rwa [oneTimeKemPreKey, hkem]

theorem Numbered.rotateSignedPreKeys (h : store.Numbered) {identity : PrivateIdentity K} {signed kem : KeyPair K}
    (hr : store.rotateSignedPreKeys crypto identity signed kem = .ok next) : next.Numbered := by
  obtain ⟨hid, hone, hkem, hsigned⟩ := rotateSignedPreKeys_eq_ok hr
  refine ⟨?_, ?_, ?_⟩
  · intro id hsome
    obtain ⟨pair, hpair⟩ := Option.isSome_iff_exists.mp hsome
    rw [signedPreKey, hsigned] at hpair
    have hset := pruneGenerations_get? hpair
    rw [OrderedMap.get?_set] at hset
    split at hset
    next heq => omega
    next =>
      have := h.signed id (by rw [signedPreKey, hset]; rfl)
      omega
  · intro id hsome
    have := h.oneTime id (by rwa [oneTimePreKey, hone] at hsome)
    omega
  · intro id hsome
    have := h.oneTimeKem id (by rwa [oneTimeKemPreKey, hkem] at hsome)
    omega

theorem createOneTimePreKeys_id {startId : Int} {pairs : List (KeyPair K)} {key : OneTimePreKey × KeyPair K}
    (h : key ∈ createOneTimePreKeys startId pairs) : startId ≤ key.1.id ∧ key.1.id < startId + pairs.length := by
  simp only [createOneTimePreKeys, List.mem_map] at h
  obtain ⟨⟨pair, i⟩, hmem, rfl⟩ := h
  have hi := (List.mem_zipIdx hmem).2.1
  simp only
  omega

/-- Storing new keys leaves the other ids alone. -/
theorem foldl_set_get? (added : List (OneTimePreKey × KeyPair K)) (keys : OrderedMap Int (KeyPair K)) (id : Int)
    (other : ∀ key ∈ added, key.1.id ≠ id) :
    (added.foldl (fun keys key => keys.set key.1.id key.2) keys).get? id = keys.get? id := by
  induction added generalizing keys with
  | nil => rfl
  | cons key added ih =>
    rw [List.foldl_cons, ih _ (fun key' hmem => other key' (List.mem_cons_of_mem _ hmem)),
      OrderedMap.get?_set_of_ne _ _ (other key List.mem_cons_self).symm]

theorem replenish_oneTimePreKey (store : InMemoryPreKeyStore K) (pairs kemPairs : List (KeyPair K)) {id : Int}
    (h : id < store.nextId ∨ store.nextId + pairs.length ≤ id) :
    (store.replenishOneTimePreKeys pairs kemPairs).oneTimePreKey id = store.oneTimePreKey id := by
  refine foldl_set_get? _ _ _ ?_
  intro key hmem
  have := createOneTimePreKeys_id hmem
  omega

theorem replenish_oneTimeKemPreKey (store : InMemoryPreKeyStore K) (pairs kemPairs : List (KeyPair K)) {id : Int}
    (h : id < store.nextId ∨ store.nextId + pairs.length + kemPairs.length ≤ id) :
    (store.replenishOneTimePreKeys pairs kemPairs).oneTimeKemPreKey id = store.oneTimeKemPreKey id := by
  refine foldl_set_get? _ _ _ ?_
  intro key hmem
  have := createOneTimePreKeys_id hmem
  omega

theorem replenishOneTimePreKeys_later (pairs kemPairs : List (KeyPair K)) :
    Later crypto store (store.replenishOneTimePreKeys pairs kemPairs) := by
  refine ⟨?_, fun _ _ _ h => Or.inl h, ?_, ?_⟩
  · simp only [replenishOneTimePreKeys]
    omega
  · intro id hlt hnone
    rwa [replenish_oneTimePreKey store _ _ (Or.inl hlt)]
  · intro id hlt hnone
    rwa [replenish_oneTimeKemPreKey store _ _ (Or.inl hlt)]

theorem Numbered.replenishOneTimePreKeys (h : store.Numbered) (pairs kemPairs : List (KeyPair K)) :
    (store.replenishOneTimePreKeys pairs kemPairs).Numbered := by
  have hnext : (store.replenishOneTimePreKeys pairs kemPairs).nextId =
      store.nextId + pairs.length + kemPairs.length := rfl
  refine ⟨?_, ?_, ?_⟩
  · intro id hsome
    have := h.signed id hsome
    omega
  · intro id hsome
    by_contra hge
    rw [replenish_oneTimePreKey store _ _ (Or.inr (by omega))] at hsome
    have := h.oneTime id hsome
    omega
  · intro id hsome
    by_contra hge
    rw [replenish_oneTimeKemPreKey store _ _ (Or.inr (by omega))] at hsome
    have := h.oneTimeKem id hsome
    omega

theorem create_numbered {identity : PrivateIdentity K} {signed kem : KeyPair K} {pairs kemPairs : List (KeyPair K)}
    (h : create crypto identity signed kem pairs kemPairs = .ok store) : store.Numbered := by
  simp only [create, Outcome.bind_eq_ok_iff, Outcome.pure_eq_ok_iff] at h
  obtain ⟨rotated, hrotated, rfl⟩ := h
  have hempty : ({} : InMemoryPreKeyStore K).Numbered := ⟨by simp [signedPreKey], by simp [oneTimePreKey],
    by simp [oneTimeKemPreKey]⟩
  exact (hempty.rotateSignedPreKeys hrotated).replenishOneTimePreKeys pairs kemPairs

end

end InMemoryPreKeyStore

section

variable {K : Type} {crypto : Cryptography K} {store : InMemoryPreKeyStore K}

open InMemoryPreKeyStore

theorem consumeOneTime_later (keyIds : HandshakeKeyIds) : Later crypto store (consumeOneTime keyIds store) := by
  unfold consumeOneTime
  cases keyIds.oneTimePreKeyId <;> cases keyIds.oneTimeKemPreKeyId
  · exact Later.refl store
  · exact consumeOneTimeKemPreKey_later _
  · exact consumeOneTimePreKey_later _
  · exact (consumeOneTimePreKey_later _).trans (consumeOneTimeKemPreKey_later _)

theorem consumeOneTime_numbered (h : store.Numbered) (keyIds : HandshakeKeyIds) :
    (consumeOneTime keyIds store).Numbered := by
  unfold consumeOneTime
  cases keyIds.oneTimePreKeyId <;> cases keyIds.oneTimeKemPreKeyId
  · exact h
  · exact h.consumeOneTimeKemPreKey _
  · exact h.consumeOneTimePreKey _
  · exact (h.consumeOneTimePreKey _).consumeOneTimeKemPreKey _

theorem consumeOneTime_oneTime {keyIds : HandshakeKeyIds} {id : Int} (h : keyIds.oneTimePreKeyId = some id) :
    (consumeOneTime keyIds store).oneTimePreKey id = none := by
  unfold consumeOneTime
  rw [h]
  cases keyIds.oneTimeKemPreKeyId <;> exact OrderedMap.get?_delete_self _ _

theorem consumeOneTime_oneTimeKem {keyIds : HandshakeKeyIds} {id : Int} (h : keyIds.oneTimeKemPreKeyId = some id) :
    (consumeOneTime keyIds store).oneTimeKemPreKey id = none := by
  unfold consumeOneTime
  rw [h]
  cases keyIds.oneTimePreKeyId <;> exact OrderedMap.get?_delete_self _ _

theorem consumeOneTime_signedPreKey (keyIds : HandshakeKeyIds) (id : Int) :
    (consumeOneTime keyIds store).signedPreKey id = store.signedPreKey id := by
  unfold consumeOneTime
  cases keyIds.oneTimePreKeyId <;> cases keyIds.oneTimeKemPreKeyId <;> rfl

theorem consumeOneTime_nextId (keyIds : HandshakeKeyIds) :
    (consumeOneTime keyIds store).nextId = store.nextId := by
  unfold consumeOneTime
  cases keyIds.oneTimePreKeyId <;> cases keyIds.oneTimeKemPreKeyId <;> rfl

end

end Veil
