import Veil.PreKeyLife
import Veil.Redelivery

namespace Veil

section

variable {K : Type} (crypto : Cryptography K)

/-- The key ids of the preamble, where the envelope is taken for the first of a session. -/
def namedKeyIds (self : PrivateIdentity K) (envelope : SealedEnvelope) (lookupSession : String → Option (Session K))
    (pinnedIdentityKey : String → Option Bytes) : Option HandshakeKeyIds :=
  match route crypto self envelope lookupSession pinnedIdentityKey with
  | .first _ _ preamble _ => some preamble.keyIds
  | _ => none

/-- The first message opens, but what it opens to is not padded, and its preamble names a one-time prekey. -/
def OpensUnpadded (fresh : KeyPair K) (self : PrivateIdentity K) (envelope : SealedEnvelope)
    (lookupSession : String → Option (Session K)) (preKeys : InMemoryPreKeyStore K)
    (pinnedIdentityKey : String → Option Bytes) : Prop :=
  ∃ sender address preamble body session message padded failure,
    route crypto self envelope lookupSession pinnedIdentityKey = .first sender address preamble body ∧
      respondWith crypto self sender preamble body preKeys = .ok (session, message) ∧
      (ratchetDecrypt crypto.toRatchetPrimitives fresh session.ratchet message).2 = .ok padded ∧
      unpad padded = .error failure ∧
      (preamble.keyIds.oneTimePreKeyId.isSome ∨ preamble.keyIds.oneTimeKemPreKeyId.isSome)

/-- The one-time prekeys of the two kinds. -/
def InMemoryPreKeyStore.oneTimes (store : InMemoryPreKeyStore K) :
    OrderedMap Int (KeyPair K) × OrderedMap Int (KeyPair K) := (store.oneTimePreKeys, store.oneTimeKemPreKeys)

/-- A call takes the one-time prekeys it names, all of them there before, if it returns a new session, and takes
none otherwise. -/
structure SpendsExactly (named : Option HandshakeKeyIds) (store : InMemoryPreKeyStore K) (d : Decryption K) : Prop where
  thrown : ∀ e, d.result = .error e → d.preKeys.oneTimes = store.oneTimes
  live : ∀ message, d.result = .ok message → message.isNewSession = false → d.preKeys.oneTimes = store.oneTimes
  opened : ∀ message, d.result = .ok message → message.isNewSession = true → ∃ keyIds, named = some keyIds ∧
    (∀ id, keyIds.oneTimePreKeyId = some id → (store.oneTimePreKey id).isSome) ∧
    (∀ id, keyIds.oneTimeKemPreKeyId = some id → (store.oneTimeKemPreKey id).isSome) ∧
    d.preKeys.oneTimes = (consumeOneTime keyIds store).oneTimes

end

section

variable {K : Type} {crypto : Cryptography K} {self : PrivateIdentity K} {fresh : KeyPair K}
  {store wiped : InMemoryPreKeyStore K}

theorem consumeOneTime_oneTimes (keyIds : HandshakeKeyIds) (h : wiped.oneTimes = store.oneTimes) :
    (consumeOneTime keyIds wiped).oneTimes = (consumeOneTime keyIds store).oneTimes := by
  simp only [InMemoryPreKeyStore.oneTimes, Prod.mk.injEq] at h
  unfold consumeOneTime
  cases keyIds.oneTimePreKeyId <;> cases keyIds.oneTimeKemPreKeyId <;>
    simp [InMemoryPreKeyStore.oneTimes, InMemoryPreKeyStore.consumeOneTimePreKey,
      InMemoryPreKeyStore.consumeOneTimeKemPreKey, h.1, h.2]

theorem wipeSignedPreKey_oneTimes (store : InMemoryPreKeyStore K) (id : Int) :
    (store.wipeSignedPreKey crypto id).oneTimes = store.oneTimes := by
  obtain ⟨_, hone, hkem⟩ := InMemoryPreKeyStore.wipeSignedPreKey_same store id
  rw [InMemoryPreKeyStore.oneTimes, hone, hkem]
  rfl

/-- Consuming a one-time prekey that is there shows. -/
theorem consumeOneTime_ne {keyIds : HandshakeKeyIds}
    (hone : ∀ id, keyIds.oneTimePreKeyId = some id → (store.oneTimePreKey id).isSome)
    (hkem : ∀ id, keyIds.oneTimeKemPreKeyId = some id → (store.oneTimeKemPreKey id).isSome)
    (named : keyIds.oneTimePreKeyId.isSome ∨ keyIds.oneTimeKemPreKeyId.isSome) :
    (consumeOneTime keyIds store).oneTimes ≠ store.oneTimes := by
  intro heq
  simp only [InMemoryPreKeyStore.oneTimes, Prod.mk.injEq] at heq
  rcases named with named | named
  · obtain ⟨id, hid⟩ := Option.isSome_iff_exists.mp named
    have hgone := (@consumeOneTime_oneTime _ store) hid
    rw [InMemoryPreKeyStore.oneTimePreKey, heq.1] at hgone
    have hthere := hone id hid
    rw [InMemoryPreKeyStore.oneTimePreKey, hgone] at hthere
    cases hthere
  · obtain ⟨id, hid⟩ := Option.isSome_iff_exists.mp named
    have hgone := (@consumeOneTime_oneTimeKem _ store) hid
    rw [InMemoryPreKeyStore.oneTimeKemPreKey, heq.2] at hgone
    have hthere := hkem id hid
    rw [InMemoryPreKeyStore.oneTimeKemPreKey, hgone] at hthere
    cases hthere

theorem consumeOneTime_unnamed {keyIds : HandshakeKeyIds}
    (h : ¬(keyIds.oneTimePreKeyId.isSome ∨ keyIds.oneTimeKemPreKeyId.isSome)) : consumeOneTime keyIds store = store := by
  simp only [not_or, Bool.not_eq_true, Option.isSome_eq_false_iff, Option.isNone_iff_eq_none] at h
  simp [consumeOneTime, h.1, h.2]

/-- The exits of the prekey branch: before the message opens nothing is taken, after it everything named is. -/
theorem decryptFirst_exits (sender : PublicIdentity) (preamble : PreKeyPreamble) (body : Bytes) :
    (∃ e, (decryptFirst crypto fresh self sender preamble body store).result = .error e ∧
        (decryptFirst crypto fresh self sender preamble body store).preKeys.oneTimes = store.oneTimes ∧
        ∀ session message, respondWith crypto self sender preamble body store = .ok (session, message) →
          ∃ e, (ratchetDecrypt crypto.toRatchetPrimitives fresh session.ratchet message).2 = .error e) ∨
      ∃ session message padded, respondWith crypto self sender preamble body store = .ok (session, message) ∧
        (ratchetDecrypt crypto.toRatchetPrimitives fresh session.ratchet message).2 = .ok padded ∧
        (decryptFirst crypto fresh self sender preamble body store).preKeys.oneTimes =
          (consumeOneTime preamble.keyIds store).oneTimes ∧
        (decryptFirst crypto fresh self sender preamble body store).result = (do
          let plaintext ← unpad padded
          return { senderIdentity := sender, plaintext, isNewSession := true, session := { session with
            ratchet := (ratchetDecrypt crypto.toRatchetPrimitives fresh session.ratchet message).1 } }) := by
  unfold decryptFirst
  cases hrespond : respondWith crypto self sender preamble body store with
  | error e => exact Or.inl ⟨e, rfl, rfl, fun _ _ h => by cases h⟩
  | ok responded =>
    obtain ⟨session, message⟩ := responded
    have hsame : (if StartsTurn crypto.toRatchetPrimitives session.ratchet message.header then
        store.wipeSignedPreKey crypto preamble.keyIds.signedPreKeyId else store).oneTimes = store.oneTimes := by
      split
      next => exact wipeSignedPreKey_oneTimes store _
      next => rfl
    simp only
    cases hd : ratchetDecrypt crypto.toRatchetPrimitives fresh session.ratchet message with
    | mk ratchet result =>
      cases result with
      | error e =>
        refine Or.inl ⟨e, rfl, hsame, ?_⟩
        intro session' message' h
        simp only [Except.ok.injEq, Prod.mk.injEq] at h
        obtain ⟨rfl, rfl⟩ := h
        exact ⟨e, by rw [hd]⟩
      | ok padded =>
        exact Or.inr ⟨session, message, padded, rfl, by rw [hd], consumeOneTime_oneTimes _ hsame, by rw [hd]⟩

/-- A call spends exactly unless its message opens to something that is not padded. -/
theorem decryptEnvelope_spendsExactly_iff (fresh : KeyPair K) (envelope : SealedEnvelope)
    (lookupSession : String → Option (Session K)) (store : InMemoryPreKeyStore K)
    (pinnedIdentityKey : String → Option Bytes) :
    SpendsExactly (namedKeyIds crypto self envelope lookupSession pinnedIdentityKey) store
        (decryptEnvelope crypto fresh self envelope lookupSession store pinnedIdentityKey) ↔
      ¬OpensUnpadded crypto fresh self envelope lookupSession store pinnedIdentityKey := by
  rw [decryptEnvelope_eq]
  unfold namedKeyIds OpensUnpadded
  cases hroute : route crypto self envelope lookupSession pinnedIdentityKey with
  | refused e =>
    refine ⟨fun _ => by simp, fun _ => ⟨fun _ _ => rfl, ?_, ?_⟩⟩ <;> intro message h <;> cases h
  | live sender address session answered message =>
    have hpreKeys : (decryptWith crypto fresh sender address session (settle answered) message store).preKeys = store :=
      InMemoryPreKeyStore.decryptWith_preKeys ..
    refine ⟨fun _ => by simp, fun _ => ⟨fun _ _ => by rw [hpreKeys], fun _ _ _ => by rw [hpreKeys], ?_⟩⟩
    intro decrypted h hnew
    simp only [decryptWith] at h
    split at h
    next => cases h
    next =>
      simp only [Outcome.bind_eq_ok_iff, Outcome.pure_eq_ok_iff] at h
      obtain ⟨_, _, rfl⟩ := h
      cases hnew
  | first sender address preamble body =>
    simp only
    rcases decryptFirst_exits sender preamble body
      with ⟨e, hresult, hsame, hnone⟩ | ⟨session, message, padded, hrespond, hopened, hconsumed, hresult⟩
    · refine ⟨?_, fun _ => ⟨fun _ _ => hsame, ?_, ?_⟩⟩
      · rintro _ ⟨sender', _, preamble', body', session, message, padded, _, hsame', hrespond, hopened, _⟩
        cases hsame'
        obtain ⟨e, he⟩ := hnone session message hrespond
        rw [hopened] at he
        cases he
      · intro message h
        rw [hresult] at h
        cases h
      · intro message h
        rw [hresult] at h
        cases h
    · obtain ⟨_, _, _, _, hone, hkem, _⟩ := respondWith_eq_ok hrespond
      cases hunpad : unpad padded with
      | error failure =>
        rw [hunpad, Outcome.error_bind] at hresult
        by_cases hnamed : preamble.keyIds.oneTimePreKeyId.isSome ∨ preamble.keyIds.oneTimeKemPreKeyId.isSome
        · refine ⟨fun h => ?_, fun h => absurd ⟨sender, address, preamble, body, session, message, padded, failure, rfl,
            hrespond, hopened, hunpad, hnamed⟩ h⟩
          exact absurd (hconsumed.symm.trans (h.thrown failure hresult)) (consumeOneTime_ne hone hkem hnamed)
        · rw [consumeOneTime_unnamed hnamed] at hconsumed
          refine ⟨?_, fun _ => ⟨fun _ _ => hconsumed, ?_, ?_⟩⟩
          · rintro _ ⟨_, _, preamble', _, _, _, _, _, hsame', _, _, _, hnamed'⟩
            cases hsame'
            exact hnamed hnamed'
          · intro message h
            rw [hresult] at h
            cases h
          · intro message h
            rw [hresult] at h
            cases h
      | ok plaintext =>
        rw [hunpad, Outcome.ok_bind] at hresult
        refine ⟨?_, fun _ => ⟨?_, ?_, ?_⟩⟩
        · rintro _ ⟨_, _, _, _, session', message', padded', failure, hsame', hrespond', hopened', hunpad', _⟩
          cases hsame'
          obtain ⟨rfl, rfl⟩ := Prod.mk.inj (Except.ok.inj (hrespond.symm.trans hrespond'))
          obtain rfl := Except.ok.inj (hopened.symm.trans hopened')
          rw [hunpad] at hunpad'
          cases hunpad'
        · intro e h
          rw [hresult] at h
          cases h
        · intro decrypted h hnew
          rw [hresult] at h
          obtain rfl := Except.ok.inj h
          cases hnew
        · intro decrypted _ _
          exact ⟨preamble.keyIds, rfl, hone, hkem, hconsumed⟩

end

section

variable {K : Type} (crypto : Cryptography K) (self : PrivateIdentity K)

/-- A store with the key ids of the new sessions its calls have returned, newest first. -/
structure Ledger (K : Type) where
  preKeys : InMemoryPreKeyStore K
  opened : List HandshakeKeyIds := []

namespace Ledger

def record (named : Option HandshakeKeyIds) (d : Decryption K) (w : Ledger K) : Ledger K where
  preKeys := d.preKeys
  opened :=
    match d.result with
    | .ok message => if message.isNewSession then named.toList ++ w.opened else w.opened
    | .error _ => w.opened

def call (fresh : KeyPair K) (envelope : SealedEnvelope) (lookupSession : String → Option (Session K))
    (pinnedIdentityKey : String → Option Bytes) (w : Ledger K) : Ledger K :=
  w.record (namedKeyIds crypto self envelope lookupSession pinnedIdentityKey)
    (decryptEnvelope crypto fresh self envelope lookupSession w.preKeys pinnedIdentityKey)

/-- Any envelope, with any session found and any pins, and what else a store goes through. -/
inductive Step : Ledger K → Ledger K → Prop
  | call (w : Ledger K) (fresh : KeyPair K) (envelope : SealedEnvelope) (lookupSession : String → Option (Session K))
      (pinnedIdentityKey : String → Option Bytes) :
      Step w (w.call crypto self fresh envelope lookupSession pinnedIdentityKey)
  | rotate {w : Ledger K} {next : InMemoryPreKeyStore K} {signed kem : KeyPair K}
      (rotated : w.preKeys.rotateSignedPreKeys crypto self signed kem = .ok next) : Step w { w with preKeys := next }
  | replenish (w : Ledger K) (pairs kemPairs : List (KeyPair K)) :
      Step w { w with preKeys := w.preKeys.replenishOneTimePreKeys pairs kemPairs }
  | issue (w : Ledger K) (identity : PublicIdentity) : Step w { w with preKeys := (w.preKeys.issueBundle identity).2 }

/-- Of one kind, the ids that went into a session: each went into one, and none is held any more. -/
structure Spent (get : Int → Option (KeyPair K)) (nextId : Int) (ids : List Int) : Prop where
  once : ids.Nodup
  gone : ∀ id ∈ ids, id < nextId ∧ get id = none

structure Balanced (w : Ledger K) : Prop where
  numbered : w.preKeys.Numbered
  oneTime : Spent w.preKeys.oneTimePreKey w.preKeys.nextId (w.opened.filterMap HandshakeKeyIds.oneTimePreKeyId)
  oneTimeKem : Spent w.preKeys.oneTimeKemPreKey w.preKeys.nextId (w.opened.filterMap HandshakeKeyIds.oneTimeKemPreKeyId)

end Ledger

end

namespace Ledger

section

variable {K : Type} {crypto : Cryptography K} {self : PrivateIdentity K} {w next : Ledger K}

theorem Spent.later {get get' : Int → Option (KeyPair K)} {nextId nextId' : Int} {ids : List Int}
    (h : Spent get nextId ids) (more : nextId ≤ nextId')
    (descends : ∀ id < nextId, ∀ pair, get' id = some pair → get id = some pair) : Spent get' nextId' ids where
  once := h.once
  gone id hmem := by
    obtain ⟨hid, hnone⟩ := h.gone id hmem
    refine ⟨by omega, ?_⟩
    by_contra hsome
    obtain ⟨pair, hpair⟩ := Option.ne_none_iff_exists'.mp hsome
    rw [descends id hid pair hpair] at hnone
    cases hnone

/-- One more session, with a one-time prekey that was there and is gone, or with none. -/
theorem Spent.spend {get get' : Int → Option (KeyPair K)} {nextId nextId' : Int} {ids : List Int} {named : Option Int}
    (h : Spent get nextId ids) (numbered : ∀ id, (get id).isSome → id < nextId) (more : nextId ≤ nextId')
    (descends : ∀ id < nextId, ∀ pair, get' id = some pair → get id = some pair)
    (there : ∀ id, named = some id → (get id).isSome) (taken : ∀ id, named = some id → get' id = none) :
    Spent get' nextId' (named.toList ++ ids) := by
  have hlater := h.later more descends
  cases named with
  | none => exact hlater
  | some id =>
    have hthere := there id rfl
    refine ⟨List.nodup_cons.mpr ⟨?_, h.once⟩, ?_⟩
    · intro hmem
      rw [(h.gone id hmem).2] at hthere
      cases hthere
    · intro id' hmem
      rcases List.mem_cons.mp hmem with rfl | hmem
      · exact ⟨(numbered id' hthere).trans_le more, taken id' rfl⟩
      · exact hlater.gone id' hmem

theorem Balanced.later (h : w.Balanced) {preKeys : InMemoryPreKeyStore K} (numbered : preKeys.Numbered)
    (descends : InMemoryPreKeyStore.Descends crypto (fun _ => False) w.preKeys preKeys) :
    Balanced { w with preKeys } :=
  ⟨numbered, h.oneTime.later descends.nextId descends.oneTime, h.oneTimeKem.later descends.nextId descends.oneTimeKem⟩

theorem decryptEnvelope_numbered {store : InMemoryPreKeyStore K} (h : store.Numbered) (fresh : KeyPair K)
    (envelope : SealedEnvelope) (lookupSession : String → Option (Session K))
    (pinnedIdentityKey : String → Option Bytes) :
    (decryptEnvelope crypto fresh self envelope lookupSession store pinnedIdentityKey).preKeys.Numbered := by
  rw [decryptEnvelope_eq]
  cases route crypto self envelope lookupSession pinnedIdentityKey with
  | refused e => exact h
  | live sender address session answered message =>
    simp only [InMemoryPreKeyStore.decryptWith_preKeys]
    exact h
  | first sender address preamble body =>
    obtain ⟨wiped, hwiped, hpreKeys⟩ :=
      @InMemoryPreKeyStore.decryptFirst_preKeys _ crypto self fresh sender preamble body store
    have hnumbered : wiped.Numbered := by
      rcases hwiped with rfl | ⟨_, rfl⟩
      · exact h
      · exact h.wipeSignedPreKey _
    rcases hpreKeys with hpreKeys | hpreKeys
    · simp only [hpreKeys]
      exact hnumbered
    · simp only [hpreKeys]
      exact consumeOneTime_numbered hnumbered _

/-- A call that returns a new session has found, and has taken, the one-time prekeys it names. -/
theorem decryptEnvelope_spends {store : InMemoryPreKeyStore K} {fresh : KeyPair K} {envelope : SealedEnvelope}
    {lookupSession : String → Option (Session K)} {pinnedIdentityKey : String → Option Bytes}
    {message : DecryptedMessage K}
    (h : (decryptEnvelope crypto fresh self envelope lookupSession store pinnedIdentityKey).result = .ok message)
    (new : message.isNewSession = true) :
    ∃ keyIds, namedKeyIds crypto self envelope lookupSession pinnedIdentityKey = some keyIds ∧
      (∀ id, keyIds.oneTimePreKeyId = some id → (store.oneTimePreKey id).isSome) ∧
      (∀ id, keyIds.oneTimeKemPreKeyId = some id → (store.oneTimeKemPreKey id).isSome) ∧
      (decryptEnvelope crypto fresh self envelope lookupSession store pinnedIdentityKey).preKeys.oneTimes =
        (consumeOneTime keyIds store).oneTimes := by
  by_cases hpadded : OpensUnpadded crypto fresh self envelope lookupSession store pinnedIdentityKey
  · obtain ⟨sender, address, preamble, body, session, opened, padded, failure, hroute, hrespond, hopened, hunpad, _⟩ :=
      hpadded
    rw [decryptEnvelope_eq, hroute] at h
    rcases @decryptFirst_exits _ crypto self fresh store sender preamble body
      with ⟨e, hresult, _⟩ | ⟨session', opened', padded', hrespond', hopened', _, hresult⟩
    · simp only [hresult] at h
      cases h
    · obtain ⟨rfl, rfl⟩ := Prod.mk.inj (Except.ok.inj (hrespond.symm.trans hrespond'))
      obtain rfl := Except.ok.inj (hopened.symm.trans hopened')
      simp only [hresult, hunpad, Outcome.error_bind] at h
      cases h
  · exact ((decryptEnvelope_spendsExactly_iff fresh envelope lookupSession store pinnedIdentityKey).mpr hpadded).opened
      message h new

theorem Balanced.call (h : w.Balanced) (fresh : KeyPair K) (envelope : SealedEnvelope)
    (lookupSession : String → Option (Session K)) (pinnedIdentityKey : String → Option Bytes) :
    (w.call crypto self fresh envelope lookupSession pinnedIdentityKey).Balanced := by
  have numbered := (@decryptEnvelope_numbered _ crypto self) h.numbered fresh envelope lookupSession
    pinnedIdentityKey
  have descends := @InMemoryPreKeyStore.decryptEnvelope_descends _ crypto self (fun _ => False) w.preKeys fresh envelope lookupSession pinnedIdentityKey (fun _ hfalse => hfalse.elim)
  unfold Ledger.call record
  cases hresult : (decryptEnvelope crypto fresh self envelope lookupSession w.preKeys pinnedIdentityKey).result with
  | error e => exact h.later numbered descends
  | ok message =>
    cases hnew : message.isNewSession with
    | false =>
      simp only [hnew, Bool.false_eq_true, if_false]
      exact h.later numbered descends
    | true =>
      obtain ⟨keyIds, hnamed, hone, hkem, htaken⟩ := decryptEnvelope_spends hresult hnew
      simp only [InMemoryPreKeyStore.oneTimes, Prod.mk.injEq] at htaken
      simp only [hnew, if_true, hnamed, Option.toList_some, List.singleton_append]
      refine ⟨numbered, ?_, ?_⟩
      · have hspent := h.oneTime.spend h.numbered.oneTime descends.nextId descends.oneTime hone ?_
        · rw [List.filterMap_cons]
          cases hid : keyIds.oneTimePreKeyId <;> simpa [hid] using hspent
        · intro id hid
          rw [InMemoryPreKeyStore.oneTimePreKey, htaken.1]
          exact consumeOneTime_oneTime hid
      · have hspent := h.oneTimeKem.spend h.numbered.oneTimeKem descends.nextId descends.oneTimeKem hkem ?_
        · rw [List.filterMap_cons]
          cases hid : keyIds.oneTimeKemPreKeyId <;> simpa [hid] using hspent
        · intro id hid
          rw [InMemoryPreKeyStore.oneTimeKemPreKey, htaken.2]
          exact consumeOneTime_oneTimeKem hid

theorem Step.balanced (step : Step crypto self w next) (h : w.Balanced) : next.Balanced := by
  cases step with
  | call fresh envelope lookupSession pinnedIdentityKey => exact h.call fresh envelope lookupSession pinnedIdentityKey
  | rotate rotated =>
    exact h.later (h.numbered.rotateSignedPreKeys rotated) (InMemoryPreKeyStore.rotateSignedPreKeys_descends rotated)
  | replenish pairs kemPairs =>
    exact @Balanced.later _ crypto _ h _ (h.numbered.replenishOneTimePreKeys pairs kemPairs)
      (InMemoryPreKeyStore.replenishOneTimePreKeys_descends pairs kemPairs)
  | issue identity => exact ⟨⟨h.numbered.signed, h.numbered.oneTime, h.numbered.oneTimeKem⟩, h.oneTime, h.oneTimeKem⟩

/-- A store straight from the constructor, with nothing opened yet. -/
def Start (crypto : Cryptography K) (self : PrivateIdentity K) (w : Ledger K) : Prop :=
  w.opened = [] ∧ ∃ signed kem pairs kemPairs,
    InMemoryPreKeyStore.create crypto self signed kem pairs kemPairs = .ok w.preKeys

theorem Start.balanced (h : w.Start crypto self) : w.Balanced := by
  obtain ⟨hopened, signed, kem, pairs, kemPairs, hcreate⟩ := h
  refine ⟨InMemoryPreKeyStore.create_numbered hcreate, ?_, ?_⟩ <;> rw [hopened] <;> exact ⟨List.nodup_nil, by simp⟩

/-- Along every run a one-time prekey goes into one returned session at most, and a call takes the one-time
prekeys it names exactly when it returns a new session, unless its message opens to something unpadded. -/
theorem oneTime_spent_once {start w : Ledger K} (hstart : start.Start crypto self)
    (run : Relation.ReflTransGen (Step crypto self) start w) :
    (w.opened.filterMap HandshakeKeyIds.oneTimePreKeyId).Nodup ∧
      (w.opened.filterMap HandshakeKeyIds.oneTimeKemPreKeyId).Nodup ∧
      ∀ (fresh : KeyPair K) (envelope : SealedEnvelope) (lookupSession : String → Option (Session K))
        (pinnedIdentityKey : String → Option Bytes),
        SpendsExactly (namedKeyIds crypto self envelope lookupSession pinnedIdentityKey) w.preKeys
            (decryptEnvelope crypto fresh self envelope lookupSession w.preKeys pinnedIdentityKey) ↔
          ¬OpensUnpadded crypto fresh self envelope lookupSession w.preKeys pinnedIdentityKey := by
  have hbalanced := Runs.preserved (P := Balanced) (fun _ _ step h => step.balanced h) run hstart.balanced
  exact ⟨hbalanced.oneTime.once, hbalanced.oneTimeKem.once,
    fun fresh envelope lookupSession pinnedIdentityKey =>
      decryptEnvelope_spendsExactly_iff fresh envelope lookupSession w.preKeys pinnedIdentityKey⟩

end

def stocked : Ledger Bytes := { preKeys := spelledStore bob 13 14 [15] [16] }

theorem stocked_start : stocked.Start spelled bob := by
  refine ⟨rfl, spelledPair 32 13, spelledPair 1568 14, [15].map (spelledPair 32), [16].map (spelledPair 1568), ?_⟩
  dsimp only [stocked]
  rw [spelledStore_created (by decide +kernel)]

/-- Alice's first message to the bundle with both one-time prekeys; `pack` is how she pads. -/
def firstTo (store : InMemoryPreKeyStore Bytes) (pack : Bytes → Bytes) (plaintext : Bytes) :
    Except Failure SealedEnvelope := do
  let session ← startSession spelled alice (store.issueBundle (publicIdentityOf bob)).1 none (spelledPair 32 21) [7]
    (spelledPair 32 22)
  let message ← (ratchetEncrypt spelled.toRatchetPrimitives session.ratchet (pack plaintext)).2
  let payload ← encodePayload session message
  sealEnvelope spelled (publicIdentityOf alice) (spelled.sign alice.signing.secretKey) session.peerIdentity payloadPreKey
    payload (spelledPair 32 23)

def deliver (w : Ledger Bytes) (pack : Bytes → Bytes) : Ledger Bytes :=
  w.call spelled bob (spelledPair 32 31) (((firstTo w.preKeys pack [1]).toOption).getD ⟨"", [], []⟩) (fun _ => none)
    (fun _ => none)

theorem oneTime_spent_once_hello : ((stocked.deliver pad).opened.filterMap HandshakeKeyIds.oneTimePreKeyId).Nodup := by
  dsimp only [deliver]
  exact (oneTime_spent_once stocked_start (.single (.call stocked _ _ _ _))).1

/-- A first message that is not padded throws, and its two one-time prekeys are gone. -/
theorem oneTime_lost : ¬∀ start w : Ledger Bytes, start.Start spelled bob →
    Relation.ReflTransGen (Step spelled bob) start w → ∀ envelope,
      SpendsExactly (namedKeyIds spelled bob envelope (fun _ => none) (fun _ => none)) w.preKeys
        (decryptEnvelope spelled (spelledPair 32 31) bob envelope (fun _ => none) w.preKeys (fun _ => none)) := by
  intro claim
  have hspends := claim stocked stocked stocked_start .refl (((firstTo stocked.preKeys id [1]).toOption).getD ⟨"", [], []⟩)
  have hlost : (decryptEnvelope spelled (spelledPair 32 31) bob
        (((firstTo stocked.preKeys id [1]).toOption).getD ⟨"", [], []⟩) (fun _ => none) stocked.preKeys
        (fun _ => none)).result.isOk = false ∧
      (decryptEnvelope spelled (spelledPair 32 31) bob
        (((firstTo stocked.preKeys id [1]).toOption).getD ⟨"", [], []⟩) (fun _ => none) stocked.preKeys
        (fun _ => none)).preKeys.oneTimePreKeys.size = 0 ∧ stocked.preKeys.oneTimePreKeys.size = 1 := by
    decide +kernel
  obtain ⟨hthrown, hafter, hbefore⟩ := hlost
  cases hresult : (decryptEnvelope spelled (spelledPair 32 31) bob
      (((firstTo stocked.preKeys id [1]).toOption).getD ⟨"", [], []⟩) (fun _ => none) stocked.preKeys
      (fun _ => none)).result with
  | ok message =>
    rw [hresult] at hthrown
    cases hthrown
  | error e =>
    have hsame := congrArg (fun kinds => kinds.1.size) (hspends.thrown e hresult)
    simp only [InMemoryPreKeyStore.oneTimes, hafter, hbefore] at hsame
    cases hsame

end Ledger

end Veil
