import Veil.Establishment
import Veil.PreKeyLife

namespace Veil

namespace InMemoryPreKeyStore

section

variable {K : Type} {crypto : Cryptography K} {honest : Generators K} {self : PrivateIdentity K}
  {store next : InMemoryPreKeyStore K}

/-- Whatever is published is held, and the generations kept are old ones. -/
structure Holds (store : InMemoryPreKeyStore K) : Prop where
  signed : (store.signedPreKey store.currentSignedPreKey.id).isSome
  kem : (store.signedKemPreKey store.currentSignedKemPreKey.id).isSome
  oneTime : ∀ key ∈ store.publishedOneTime, key.id < store.nextId ∧ (store.oneTimePreKey key.id).isSome
  oneTimeKem : ∀ key ∈ store.publishedOneTimeKem, key.id < store.nextId ∧ (store.oneTimeKemPreKey key.id).isSome
  order : ∀ id ∈ store.signedPreKeyOrder, id < store.nextId
  kemOrder : ∀ id ∈ store.signedKemPreKeyOrder, id < store.nextId

theorem pruneGenerations_newest {keys : OrderedMap Int (KeyPair K)} {order : List Int} {newest : Int}
    (h : ∀ id ∈ order, id ≠ newest) : (pruneGenerations keys (order ++ [newest])).1.get? newest = keys.get? newest := by
  induction order generalizing keys with
  | nil => rfl
  | cons expired order ih =>
    rw [List.cons_append, pruneGenerations]
    split
    next =>
      rw [ih (fun id hid => h id (List.mem_cons_of_mem _ hid)),
        OrderedMap.get?_delete_of_ne _ (h expired List.mem_cons_self).symm]
    next => rfl

theorem pruneGenerations_order {keys : OrderedMap Int (KeyPair K)} {order : List Int} {id : Int}
    (h : id ∈ (pruneGenerations keys order).2) : id ∈ order := by
  induction order generalizing keys with
  | nil => exact h
  | cons expired order ih =>
    rw [pruneGenerations] at h
    split at h
    next => exact List.mem_cons_of_mem _ (ih h)
    next => exact h

theorem Holds.rotate (h : store.Holds) {signed kem : KeyPair K}
    (rotated : store.rotateSignedPreKeys crypto self signed kem = .ok next) : next.Holds := by
  simp only [rotateSignedPreKeys, createSignedPreKey, createSignedKemPreKey, createSigned, Outcome.bind_eq_ok_iff,
    Outcome.pure_eq_ok_iff] at rotated
  obtain ⟨_, ⟨_, _, _, _, rfl⟩, _, ⟨_, _, _, _, rfl⟩, rfl⟩ := rotated
  refine ⟨?_, ?_, ?_, ?_, ?_, ?_⟩
  · simp only [signedPreKey]
    rw [pruneGenerations_newest, OrderedMap.get?_set_self]
    · rfl
    · intro id hid
      exact (h.order id hid).ne
  · simp only [signedKemPreKey]
    rw [pruneGenerations_newest, OrderedMap.get?_set_self]
    · rfl
    · intro id hid
      have := h.kemOrder id hid
      omega
  · intro key hkey
    obtain ⟨hid, hheld⟩ := h.oneTime key hkey
    exact ⟨by simp only; omega, hheld⟩
  · intro key hkey
    obtain ⟨hid, hheld⟩ := h.oneTimeKem key hkey
    exact ⟨by simp only; omega, hheld⟩
  · intro id hid
    rcases List.mem_append.mp (pruneGenerations_order hid) with hid | hid
    · have := h.order id hid
      simp only
      omega
    · rw [List.mem_singleton.mp hid]
      simp only
      omega
  · intro id hid
    rcases List.mem_append.mp (pruneGenerations_order hid) with hid | hid
    · have := h.kemOrder id hid
      simp only
      omega
    · rw [List.mem_singleton.mp hid]
      simp only
      omega

/-- A one-time prekey published before a top-up or by it. -/
theorem held_replenished {pairs : List (KeyPair K)} {startId nextId : Int} {keys : OrderedMap Int (KeyPair K)}
    {published : List OneTimePreKey} (held : ∀ key ∈ published, key.id < startId ∧ (keys.get? key.id).isSome)
    (hnext : startId + pairs.length ≤ nextId) {key : OneTimePreKey}
    (h : key ∈ published ++ (createOneTimePreKeys startId pairs).map Prod.fst) : key.id < nextId ∧
      (((createOneTimePreKeys startId pairs).foldl (fun keys key => keys.set key.1.id key.2) keys).get? key.id).isSome := by
  rcases List.mem_append.mp h with hold | hnew
  · obtain ⟨hid, hheld⟩ := held key hold
    refine ⟨by omega, ?_⟩
    rw [foldl_set_get?]
    · exact hheld
    · intro entry hentry
      have := createOneTimePreKeys_id hentry
      omega
  · obtain ⟨entry, hmem, rfl⟩ := List.mem_map.mp hnew
    have := createOneTimePreKeys_id hmem
    exact ⟨by omega, by rw [(foldl_set_get?_mem hmem).1]; rfl⟩

theorem Holds.replenish (h : store.Holds) (pairs kemPairs : List (KeyPair K)) :
    (store.replenishOneTimePreKeys pairs kemPairs).Holds := by
  have hlater : store.nextId ≤ (store.replenishOneTimePreKeys pairs kemPairs).nextId := by
    simp only [replenishOneTimePreKeys]
    omega
  refine ⟨h.signed, h.kem, ?_, ?_, fun id hid => (h.order id hid).trans_le hlater,
    fun id hid => (h.kemOrder id hid).trans_le hlater⟩
  · intro key hkey
    exact held_replenished h.oneTime (by simp only [replenishOneTimePreKeys]; omega) hkey
  · intro key hkey
    refine held_replenished (fun key hkey => ?_) (by simp only [replenishOneTimePreKeys]; omega) hkey
    obtain ⟨hid, hheld⟩ := h.oneTimeKem key hkey
    exact ⟨by omega, hheld⟩

theorem held_consumed {keys : OrderedMap Int (KeyPair K)} {published : List OneTimePreKey} {nextId id : Int}
    (held : ∀ key ∈ published, key.id < nextId ∧ (keys.get? key.id).isSome) :
    ∀ key ∈ published.filter (fun key => key.id ≠ id), key.id < nextId ∧ ((keys.delete id).get? key.id).isSome := by
  intro key hkey
  obtain ⟨hmem, hne⟩ := List.mem_filter.mp hkey
  obtain ⟨hid, hheld⟩ := held key hmem
  exact ⟨hid, by rwa [OrderedMap.get?_delete_of_ne _ (of_decide_eq_true hne)]⟩

/-- An envelope that completes no responder's step leaves the store as it is. -/
theorem decryptEnvelope_spared {fresh : KeyPair K} {envelope : SealedEnvelope}
    {lookupSession : String → Option (Session K)} {pinnedIdentityKey : String → Option Bytes}
    (spares : ∀ id, ¬CompletesResponderStep crypto self envelope lookupSession store pinnedIdentityKey id) :
    (decryptEnvelope crypto fresh self envelope lookupSession store pinnedIdentityKey).preKeys = store := by
  rw [decryptEnvelope_eq]
  cases hroute : route crypto self envelope lookupSession pinnedIdentityKey with
  | refused e => rfl
  | live sender address session answered message => simp only [decryptWith_preKeys]
  | first sender address preamble body =>
    simp only [decryptFirst]
    cases hrespond : respondWith crypto self sender preamble body store with
    | error e => rfl
    | ok responded =>
      obtain ⟨session, message⟩ := responded
      have hstays : ¬StartsTurn crypto.toRatchetPrimitives session.ratchet message.header := fun hturn =>
        spares _ ⟨sender, address, preamble, body, session, message, hroute, rfl, hrespond, hturn⟩
      simp only [hstays, if_false]
      cases hresult : (ratchetDecrypt crypto.toRatchetPrimitives fresh session.ratchet message).2 with
      | error e => rfl
      | ok padded =>
        obtain ⟨_, _, _, _, _, _, pair, ad, transcript, dh1, rest, _, _, _, hratchet⟩ := respondWith_eq_ok hrespond
        rw [hratchet] at hresult hstays
        exact absurd (initialiseResponder_opens hresult).1 hstays

theorem LifeStep.holds (step : LifeStep crypto honest self (fun _ => True) store next) (h : store.Holds) :
    next.Holds := by
  cases step with
  | rotate dh kemPair rotated => exact h.rotate rotated
  | replenish dh kem => exact h.replenish _ _
  | issue identity =>
    exact ⟨h.signed, h.kem, fun key hkey => h.oneTime key (List.mem_of_mem_tail hkey),
      fun key hkey => h.oneTimeKem key (List.mem_of_mem_tail hkey), h.order, h.kemOrder⟩
  | consumeOneTime id => exact ⟨h.signed, h.kem, held_consumed h.oneTime, h.oneTimeKem, h.order, h.kemOrder⟩
  | consumeOneTimeKem id => exact ⟨h.signed, h.kem, h.oneTime, held_consumed h.oneTimeKem, h.order, h.kemOrder⟩
  | decrypt fresh envelope lookupSession pinnedIdentityKey spares =>
    rw [decryptEnvelope_spared (fun id => spares id trivial)]
    exact h

theorem Created.holds (h : Created crypto honest self store) : store.Holds := by
  obtain ⟨signed, kem, pairs, kemPairs, _, _, _, _, hcreate⟩ := h
  simp only [create, Outcome.bind_eq_ok_iff, Outcome.pure_eq_ok_iff] at hcreate
  obtain ⟨rotated, hrotated, rfl⟩ := hcreate
  refine Holds.replenish ?_ _ _
  simp only [rotateSignedPreKeys, createSignedPreKey, createSignedKemPreKey, createSigned, Outcome.bind_eq_ok_iff,
    Outcome.pure_eq_ok_iff] at hrotated
  obtain ⟨_, ⟨_, _, _, _, rfl⟩, _, ⟨_, _, _, _, rfl⟩, rfl⟩ := hrotated
  exact ⟨rfl, rfl, by simp, by simp, by simp [pruneGenerations, signedPreKeyGenerations],
    by simp [pruneGenerations, signedPreKeyGenerations]⟩

/-- As long as no handshake with it has been completed, a store holds what the bundles it issues name. -/
theorem issued_served (created : Created crypto honest self store)
    (run : Relation.ReflTransGen (LifeStep crypto honest self (fun _ => True)) store next) {identity : PublicIdentity}
    {bundle : PreKeyBundle} (issues : next.Issues identity bundle) :
    ∃ signedPreKey signedKemPreKey, Serves honest next bundle signedPreKey signedKemPreKey := by
  have sound := sound_of_run created run
  have holds := Runs.preserved (P := Holds) (fun _ _ step h => step.holds h) run created.holds
  obtain ⟨signedPreKey, hsigned⟩ := Option.isSome_iff_exists.mp holds.signed
  obtain ⟨signedKemPreKey, hkem⟩ := Option.isSome_iff_exists.mp holds.kem
  obtain ⟨hpublic, hwhole⟩ := sound.signed.2 _ hsigned
  obtain ⟨hkemPublic, hkemPair⟩ := sound.kem.2 _ hkem
  refine ⟨signedPreKey, signedKemPreKey, ?_, ?_, ?_, ?_, ?_, hkemPair, ?_, ?_⟩
  · rw [issues.signed]; exact hsigned
  · rw [issues.signed]; exact hpublic
  · rcases hwhole with hwhole | ⟨hnot, _⟩
    · exact hwhole
    · exact absurd trivial hnot
  · rw [issues.kem]; exact hkem
  · rw [issues.kem]; exact hkemPublic
  · intro key hkey
    have hmem := issues.oneTime key hkey
    obtain ⟨pair, hpair⟩ := Option.isSome_iff_exists.mp (holds.oneTime key hmem).2
    exact ⟨pair, hpair, (sound.oneTime key hmem).2 pair hpair⟩
  · intro key hkey
    have hmem := issues.oneTimeKem key hkey
    obtain ⟨pair, hpair⟩ := Option.isSome_iff_exists.mp (holds.oneTimeKem key hmem).2
    exact ⟨pair, hpair, (sound.oneTimeKem key hmem).2 pair hpair⟩

end

end InMemoryPreKeyStore

end Veil
