import Veil.BundleAuthenticity
import Veil.PreKeyPools

namespace Veil

namespace RelayStore

variable {store changed : RelayStore} {address asked : String}

/-- The signed prekeys that the record of an address names. -/
def signedKeys (address : String) (store : RelayStore) : Option (Json × Json) :=
  (store.recordOf address).map (fun account => (account.signedPreKey, account.signedKemPreKey))

/-- A change of one record that keeps its signed prekeys keeps everybody's. -/
theorem signedKeys_modifyAccount {f : AccountRecord → AccountRecord}
    (keeps : ∀ account, (f account).signedPreKey = account.signedPreKey ∧
      (f account).signedKemPreKey = account.signedKemPreKey) :
    (store.modifyAccount asked f).signedKeys address = store.signedKeys address := by
  unfold signedKeys recordOf
  have hget : (store.modifyAccount asked f).getAccount address = store.getAccount address := rfl
  rw [hget]
  cases hplace : store.getAccount address with
  | none => rfl
  | some place =>
    unfold modifyAccount
    cases hasked : store.getAccount asked with
    | none => rfl
    | some other =>
      simp only [Option.elim_some, Option.bind_some, List.getElem?_modify]
      cases hrecord : store.records[place]? with
      | none => rfl
      | some account =>
        obtain ⟨hsigned, hkem⟩ := keeps account
        by_cases heq : other = place
        · simp [heq, hsigned, hkem]
        · simp [heq]

theorem signedKeys_takeOneTimePreKeys :
    (store.takeOneTimePreKeys asked).1.signedKeys address = store.signedKeys address := by
  unfold takeOneTimePreKeys
  repeat' split
  · rfl
  · rfl
  · exact signedKeys_modifyAccount fun _ => ⟨rfl, rfl⟩
  · refine Eq.trans (signedKeys_modifyAccount ?_) (signedKeys_modifyAccount ?_) <;> exact fun _ => ⟨rfl, rfl⟩

/-- An upload of one-time prekeys alone. -/
theorem signedKeys_updatePreKeys {update : PreKeyUpdate} (signed : update.signedPreKey = none)
    (kem : update.signedKemPreKey = none) :
    (store.updatePreKeys asked update).1.signedKeys address = store.signedKeys address := by
  simp only [updatePreKeys, signed, kem, Option.getD_none]
  repeat' split
  · rfl
  · exact signedKeys_modifyAccount fun _ => ⟨rfl, rfl⟩
  · refine Eq.trans (signedKeys_modifyAccount ?_) (signedKeys_modifyAccount ?_) <;> exact fun _ => ⟨rfl, rfl⟩
  · refine Eq.trans (signedKeys_modifyAccount ?_) (Eq.trans (signedKeys_modifyAccount ?_) (signedKeys_modifyAccount ?_)) <;>
      exact fun _ => ⟨rfl, rfl⟩

theorem signedKeys_of_recordOf (h : changed.recordOf address = store.recordOf address) :
    changed.signedKeys address = store.signedKeys address := by
  rw [signedKeys, h, signedKeys]

theorem getAccount_of_signedKeys {keys : Json × Json} (h : store.signedKeys address = some keys) :
    ∃ place account, store.getAccount address = some place ∧ store.records[place]? = some account ∧
      keys = (account.signedPreKey, account.signedKemPreKey) := by
  obtain ⟨account, hrecord, rfl⟩ := Option.map_eq_some_iff.mp h
  obtain ⟨place, hplace, haccount⟩ := Option.bind_eq_some_iff.mp hrecord
  exact ⟨place, account, hplace, haccount, rfl⟩

theorem signedKeys_createAccount {record : AccountRecord} {keys : Json × Json} (ne : record.address ≠ address)
    (h : store.signedKeys address = some keys) : (store.createAccount record).signedKeys address = some keys := by
  obtain ⟨place, account, hplace, haccount, rfl⟩ := getAccount_of_signedKeys h
  have hget : (store.createAccount record).getAccount address = some place :=
    (OrderedMap.get?_set_of_ne _ _ (Ne.symm ne)).trans hplace
  have hlt : place < store.records.length := (List.getElem?_eq_some_iff.mp haccount).1
  have hfound : (store.createAccount record).records[place]? = some account :=
    (List.getElem?_append_left hlt).trans haccount
  rw [signedKeys, recordOf, hget, Option.bind_some, hfound]
  rfl

end RelayStore

namespace Relay

/-- A bundle that is let out for the address names these signed prekeys. -/
def Sent.Carries (address : String) (signed kem : Json) : Sent → Prop
  | .response (.fetchKeys asked) (.bundle _ signedPreKey signedKemPreKey _ _) =>
    asked = address → signedPreKey = signed ∧ signedKemPreKey = kem
  | _ => True

/-- An upload for the address that goes on brings one-time prekeys alone, as those of the app do. -/
def TopsUp (address : String) (relay : Relay) (move : RelayMove) : Prop :=
  ∀ index random now request place body, move = .resume index random now →
    relay.waiting[index]? = some (.request request, .uploading address place body) →
      (uploaded body).signedPreKey = none ∧ (uploaded body).signedKemPreKey = none

/-- The address has its account. No first registration of it waits, and the fetches that wait for its keys have found
this account; since `since` messages were sent, every bundle for the address has carried the account's signed prekeys. -/
structure Settled {K : Type} (crypto : Cryptography K) (js : NumberText) (address : String) (signed kem : Json)
    (since : Nat) (relay : Relay) : Prop where
  filed : Filed crypto js relay
  record : relay.store.signedKeys address = some (signed, kem)
  registered : ∀ origin body, (origin, Handler.registering address none body) ∉ relay.waiting
  fetching : ∀ place, (Origin.request (.fetchKeys address), Handler.fetchingKeys (some place)) ∈ relay.waiting →
    relay.store.getAccount address = some place
  taking : ∀ place taken, (Origin.request (.fetchKeys address), Handler.takingKeys place taken) ∈ relay.waiting →
    relay.store.getAccount address = some place
  served : ∀ sent ∈ relay.sent.drop since, sent.Carries address signed kem

section

variable {K : Type} {crypto : Cryptography K} {js : NumberText} {relay next : Relay} {address : String}
  {signed kem : Json} {since : Nat}

/-- The signed prekeys of an account are those of the registration it was made from. -/
theorem signedKeys_registration {identity : PublicIdentity} {store : InMemoryPreKeyStore K} :
    ((accountRecord address (registration identity store.published)).signedPreKey,
      (accountRecord address (registration identity store.published)).signedKemPreKey) =
        (encodeSignedPreKey store.currentSignedPreKey, encodeSignedPreKey store.currentSignedKemPreKey) := rfl

theorem Sent.carries_of_keyless {sent : Sent} (h : Keyless sent) : sent.Carries address signed kem := by
  unfold Sent.Carries
  split
  next => exact h.elim
  next => trivial

/-- What is sent besides carries the account's keys too. -/
theorem Settled.served_append (h : Settled crypto js address signed kem since relay) {added : List Sent}
    (carries : ∀ sent ∈ added, sent.Carries address signed kem) :
    ∀ sent ∈ (relay.sent ++ added).drop since, sent.Carries address signed kem := by
  intro sent hmem
  rw [List.drop_append] at hmem
  rcases List.mem_append.mp hmem with hold | hnew
  · exact h.served sent hold
  · exact carries sent (List.mem_of_mem_drop hnew)

/-- A handler that begins to wait looks the account up where it is. -/
theorem Settled.opens (h : Settled crypto js address signed kem since relay) {handler : Handler} {origin : Origin}
    (opens : Opens crypto js relay (origin, handler)) :
    (∀ body, handler ≠ .registering address none body) ∧
      (origin = .request (.fetchKeys address) → ∀ place, handler = .fetchingKeys (some place) →
        relay.store.getAccount address = some place) ∧
      ∀ place taken, handler ≠ .takingKeys place taken := by
  obtain ⟨place, _, hplace, _⟩ := RelayStore.getAccount_of_signedKeys h.record
  refine ⟨?_, ?_, ?_⟩
  · rintro body rfl
    have hnone : none = relay.store.getAccount address := opens.1
    rw [hplace] at hnone
    cases hnone
  · rintro rfl found rfl
    obtain ⟨asked, horigin, hfound⟩ := opens
    obtain rfl := Request.fetchKeys.inj (Origin.request.inj horigin)
    exact hfound.symm
  · rintro place taken rfl
    exact opens

/-- A move that grows the relay leaves the account as it is. -/
theorem Settled.grows (h : Settled crypto js address signed kem since relay) (grows : Grows crypto js relay next)
    (filed : Filed crypto js next) : Settled crypto js address signed kem since next := by
  obtain ⟨added, hsent, hkeyless⟩ := grows.sent
  obtain ⟨kept, begun, hwaiting, hkept, hopens⟩ := grows.waiting
  obtain ⟨hrecords, haccounts⟩ := Prod.mk.inj grows.directory
  have hget : next.store.getAccount address = relay.store.getAccount address := by
    rw [RelayStore.getAccount, haccounts, RelayStore.getAccount]
  have hrecord : next.store.recordOf address = relay.store.recordOf address := by
    rw [RelayStore.recordOf, hget, hrecords, RelayStore.recordOf]
  refine ⟨filed, (RelayStore.signedKeys_of_recordOf hrecord).trans h.record, ?_, ?_, ?_, ?_⟩
  · intro origin body hmem
    rw [hwaiting] at hmem
    rcases List.mem_append.mp hmem with hold | hnew
    · exact h.registered origin body (hkept.subset hold)
    · exact (h.opens (hopens _ hnew)).1 body rfl
  · intro place hmem
    rw [hwaiting] at hmem
    rw [hget]
    rcases List.mem_append.mp hmem with hold | hnew
    · exact h.fetching place (hkept.subset hold)
    · exact (h.opens (hopens _ hnew)).2.1 rfl place rfl
  · intro place taken hmem
    rw [hwaiting] at hmem
    rw [hget]
    rcases List.mem_append.mp hmem with hold | hnew
    · exact h.taking place taken (hkept.subset hold)
    · exact absurd rfl ((h.opens (hopens _ hnew)).2.2 place taken)
  · rw [hsent]
    exact h.served_append fun sent hmem => Sent.carries_of_keyless (hkeyless sent hmem)

/-- A handler that goes on changes the accounts and waits again, for something else than what an account is looked up for. -/
theorem Settled.goesOn (h : Settled crypto js address signed kem since relay) {index : Nat} {changed : RelayStore}
    {origin : Origin} {handler : Handler} (keys : changed.signedKeys address = some (signed, kem))
    (account : changed.getAccount address = relay.store.getAccount address)
    (registers : ∀ body, handler ≠ .registering address none body) (fetches : ∀ place, handler ≠ .fetchingKeys place)
    (takes : origin = .request (.fetchKeys address) → ∀ place taken, handler = .takingKeys place taken →
      relay.store.getAccount address = some place)
    (filed : Filed crypto js ((relay.without index changed).await origin handler)) :
    Settled crypto js address signed kem since ((relay.without index changed).await origin handler) := by
  have hget : ((relay.without index changed).await origin handler).store.getAccount address =
      relay.store.getAccount address := account
  refine ⟨filed, keys, ?_, ?_, ?_, h.served⟩
  · intro origin' body hmem
    rcases mem_without hmem with hold | hnew
    · exact h.registered origin' body hold
    · exact registers body (Prod.mk.inj hnew).2.symm
  · intro place hmem
    rw [hget]
    rcases mem_without hmem with hold | hnew
    · exact h.fetching place hold
    · exact absurd (Prod.mk.inj hnew).2.symm (fetches _)
  · intro place taken hmem
    rw [hget]
    rcases mem_without hmem with hold | hnew
    · exact h.taking place taken hold
    · obtain ⟨horigin, hhandler⟩ := Prod.mk.inj hnew
      exact takes horigin.symm place taken hhandler.symm

/-- A bundle that is handed out comes from the account of the address it was fetched for. -/
theorem Settled.handOut (h : Settled crypto js address signed kem since relay) {index : Nat} {request : Request}
    {place : Nat} {account : AccountRecord} {taken : Except Failure (Option Json × Option Json)}
    {oneTimePreKey oneTimeKemPreKey : Option Json}
    (found : relay.waiting[index]? = some (.request request, .takingKeys place taken))
    (record : relay.store.records[place]? = some account)
    (filed : Filed crypto js ((relay.without index relay.store).respond request
      (.bundle account.identity account.signedPreKey account.signedKemPreKey oneTimePreKey oneTimeKemPreKey))) :
    Settled crypto js address signed kem since ((relay.without index relay.store).respond request
      (.bundle account.identity account.signedPreKey account.signedKemPreKey oneTimePreKey oneTimeKemPreKey)) := by
  have hwaiting {item : Origin × Handler} (hmem : item ∈ (relay.without index relay.store).waiting) :
      item ∈ relay.waiting := List.mem_of_mem_eraseIdx hmem
  refine ⟨filed, h.record, fun origin body hmem => h.registered origin body (hwaiting hmem),
    fun place hmem => h.fetching place (hwaiting hmem), fun place taken hmem => h.taking place taken (hwaiting hmem), ?_⟩
  refine h.served_append fun sent hmem => ?_
  obtain rfl := List.mem_singleton.mp hmem
  cases request with
  | fetchKeys asked =>
    intro hasked
    obtain rfl := hasked
    have hplace := h.taking place taken (List.mem_of_getElem? found)
    obtain ⟨place', account', hplace', haccount', hkeys⟩ := RelayStore.getAccount_of_signedKeys h.record
    obtain rfl := Option.some.inj (hplace.symm.trans hplace')
    obtain rfl := Option.some.inj (record.symm.trans haccount')
    exact (Prod.mk.inj hkeys).imp Eq.symm Eq.symm
  | register | challenge | authenticate | uploadKeys | countKeys | sendMessage | fetchMessages | acknowledge => trivial

/-- No move changes the signed prekeys of an account whose uploads bring one-time prekeys alone. -/
theorem Settled.perform (h : Settled crypto js address signed kem since relay) {move : RelayMove}
    (topsUp : TopsUp address relay move) : Settled crypto js address signed kem since (relay.perform crypto js move) := by
  have hfiled := h.filed.perform move
  have hperforms := @perform_performs _ crypto js relay move
  revert hfiled hperforms
  generalize relay.perform crypto js move = next
  intro hfiled hperforms
  cases hperforms with
  | grows hgrows => exact h.grows hgrows hfiled
  | @create index random now request asked body found =>
    have hne : asked ≠ address := by
      rintro rfl
      exact h.registered _ body (List.mem_of_getElem? found)
    have hget : (relay.store.createAccount (accountRecord asked body)).getAccount address = relay.store.getAccount address :=
      OrderedMap.get?_set_of_ne _ _ (Ne.symm hne)
    exact h.goesOn (RelayStore.signedKeys_createAccount hne h.record) hget (fun _ => nofun) (fun _ => nofun)
      (fun _ _ _ => nofun) hfiled
  | @take index random now request place account found record =>
    refine h.goesOn (RelayStore.signedKeys_takeOneTimePreKeys.trans h.record)
      RelayStore.modified_takeOneTimePreKeys.getAccount (fun _ => nofun) (fun _ => nofun) ?_ hfiled
    rintro horigin place' taken htakes
    obtain ⟨rfl, _⟩ := Handler.takingKeys.inj htakes
    rw [horigin] at found
    exact h.fetching place (List.mem_of_getElem? found)
  | handOut found record => exact h.handOut found record hfiled
  | @update index random now request asked place body account verified found record verifies =>
    have hkeys : (relay.store.updatePreKeys asked (uploaded body)).1.signedKeys address = some (signed, kem) := by
      by_cases heq : asked = address
      · rw [heq] at found ⊢
        obtain ⟨hsigned, hkem⟩ := topsUp index random now request (some place) body rfl found
        exact (RelayStore.signedKeys_updatePreKeys hsigned hkem).trans h.record
      · have hapart : ∀ place, relay.store.getAccount asked = some place → relay.store.getAccount address ≠ some place := by
          intro place hasked haddress
          have hat := h.filed.placed asked place hasked
          rw [h.filed.placed address place haddress] at hat
          exact heq (Option.some.inj hat).symm
        have hrecord := (@RelayStore.modified_updatePreKeys _ asked (uploaded body)).recordOf_of_apart hapart
        exact (RelayStore.signedKeys_of_recordOf hrecord).trans h.record
    exact h.goesOn hkeys RelayStore.modified_updatePreKeys.getAccount (fun _ => nofun) (fun _ => nofun)
      (fun _ _ _ => nofun) hfiled

end

end Relay

namespace InMemoryPreKeyStore

section

variable {K : Type} {crypto : Cryptography K} {honest : Generators K} {device : PrivateIdentity K}
  {store next last : InMemoryPreKeyStore K}

/-- A new store begins with the same two ids, whatever it has drawn. -/
theorem Created.draws (created : Created crypto honest device store) : ∃ signed kem, honest.dh signed ∧ honest.kem kem ∧
    (store.currentSignedPreKey.id = 1 ∧ store.signedPreKey 1 = some signed ∧
      store.currentSignedPreKey.publicKey = signed.publicKey) ∧
    store.currentSignedKemPreKey.id = 2 ∧ store.signedKemPreKey 2 = some kem ∧
      store.currentSignedKemPreKey.publicKey = kem.publicKey := by
  obtain ⟨signed, kem, pairs, kemPairs, hsigned, hkem, _, _, hcreate⟩ := created
  simp only [create, Outcome.bind_eq_ok_iff, Outcome.pure_eq_ok_iff] at hcreate
  obtain ⟨rotated, hrotated, rfl⟩ := hcreate
  obtain ⟨_, _, _, hkeys⟩ := rotateSignedPreKeys_eq_ok hrotated
  obtain ⟨hid, hpublic, hkemId, hkemPublic, _, _, hkemKeys⟩ := rotateSignedPreKeys_current hrotated
  have hsignedKey : rotated.signedPreKey 1 = some signed := by
    rw [signedPreKey, hkeys]
    exact OrderedMap.get?_set_self _ _ _
  have hkemKey : rotated.signedKemPreKey 2 = some kem := by
    rw [signedKemPreKey, hkemKeys]
    exact OrderedMap.get?_set_self _ _ _
  exact ⟨signed, kem, hsigned, hkem, ⟨hid, hsignedKey, hpublic⟩, hkemId, hkemKey, hkemPublic⟩

/-- The signed prekeys stay under their ids, if only their public halves. -/
structure KeepsSigned (store next : InMemoryPreKeyStore K) : Prop where
  signed : ∀ id, (next.signedPreKey id).map KeyPair.publicKey = (store.signedPreKey id).map KeyPair.publicKey
  kem : ∀ id, next.signedKemPreKey id = store.signedKemPreKey id
  current : next.currentSignedPreKey = store.currentSignedPreKey
  currentKem : next.currentSignedKemPreKey = store.currentSignedKemPreKey

theorem KeepsSigned.refl (store : InMemoryPreKeyStore K) : KeepsSigned store store :=
  ⟨fun _ => rfl, fun _ => rfl, rfl, rfl⟩

theorem KeepsSigned.trans (h : KeepsSigned store next) (h' : KeepsSigned next last) : KeepsSigned store last :=
  ⟨fun id => (h'.signed id).trans (h.signed id), fun id => (h'.kem id).trans (h.kem id), h'.current.trans h.current,
    h'.currentKem.trans h.currentKem⟩

theorem keepsSigned_wipe (id : Int) : KeepsSigned store (store.wipeSignedPreKey crypto id) := by
  refine ⟨fun id' => ?_, ?_, ?_, ?_⟩
  · rw [wipeSignedPreKey_get?]
    by_cases heq : id' = id
    · rw [if_pos heq, heq]
      cases store.signedPreKey id <;> rfl
    · rw [if_neg heq]
  all_goals
    unfold wipeSignedPreKey
    split
  all_goals first | exact fun _ => rfl | rfl

theorem keepsSigned_consumeOneTime (keyIds : HandshakeKeyIds) : KeepsSigned store (consumeOneTime keyIds store) := by
  refine ⟨fun id => congrArg _ (consumeOneTime_signedPreKey keyIds id), ?_, ?_, ?_⟩
  all_goals
    unfold consumeOneTime
    cases keyIds.oneTimePreKeyId <;> cases keyIds.oneTimeKemPreKeyId
  all_goals first | exact fun _ => rfl | rfl

theorem keepsSigned_decryptEnvelope (fresh : KeyPair K) (envelope : SealedEnvelope)
    (lookupSession : String → Option (Session K)) (pinnedIdentityKey : String → Option Bytes) :
    KeepsSigned store (decryptEnvelope crypto fresh device envelope lookupSession store pinnedIdentityKey).preKeys := by
  rw [decryptEnvelope_eq]
  cases hroute : route crypto device envelope lookupSession pinnedIdentityKey with
  | refused e => exact .refl store
  | live sender address session answered message =>
    simp only [decryptWith_preKeys]
    exact .refl store
  | first sender address preamble body =>
    obtain ⟨wiped, hwiped, hpreKeys⟩ := @decryptFirst_preKeys _ crypto device fresh sender preamble body store
    have hkeeps : KeepsSigned store wiped := by
      rcases hwiped with hsame | ⟨_, hwiped⟩
      · exact hsame ▸ .refl _
      · exact hwiped ▸ keepsSigned_wipe _
    simp only
    rcases hpreKeys with hsame | hconsumed
    · exact hsame ▸ hkeeps
    · exact hconsumed ▸ hkeeps.trans (keepsSigned_consumeOneTime _)

end

end InMemoryPreKeyStore

/-- A pair agrees on different secrets with different peers, as in a group of prime order. -/
def Cryptography.Telling {K : Type} (crypto : Cryptography K) (honest : Generators K) : Prop :=
  ∀ own first second, honest.dh own → honest.dh first → honest.dh second →
    ∀ secret, crypto.dh own.secretKey first.publicKey = .ok secret →
      crypto.dh own.secretKey second.publicKey = .ok secret → first.publicKey = second.publicKey

section

variable {K : Type} {crypto : Cryptography K} {honest : Generators K} {self device : PrivateIdentity K}
  {bundle : PreKeyBundle} {ephemeral : KeyPair K} {coins : Bytes} {handshake : InitiatorHandshake K}
  {signedPreKey signedKemPreKey : KeyPair K} {oneTime oneTimeKem : Option (KeyPair K)}

/-- Two sides that agree have the first DH output in common. -/
theorem first_output_of_agreement (separating : crypto.Separating honest)
    (initiated : initiateHandshake crypto self bundle ephemeral coins = .ok handshake)
    (agree : respondToHandshake crypto device
      (resolvedInput (publicIdentityOf self) handshake signedPreKey signedKemPreKey oneTime oneTimeKem) =
        .ok (handshake.rootSecret, handshake.associatedData)) :
    ∃ secret, crypto.dh self.exchange.secretKey bundle.signedPreKey.publicKey = .ok secret ∧
      crypto.dh signedPreKey.secretKey self.exchange.publicKey = .ok secret := by
  simp only [initiateHandshake, Outcome.bind_eq_ok_iff, Outcome.pure_eq_ok_iff] at initiated
  obtain ⟨_, _, _, _, dh1, hdh1, _, _, _, _, _, _, _, _, _, _, rfl⟩ := initiated
  simp only [respondToHandshake] at agree
  split at agree
  next => cases agree
  next =>
    split at agree
    next => cases agree
    next =>
      simp only [Outcome.bind_eq_ok_iff, Outcome.pure_eq_ok_iff, Prod.mk.injEq] at agree
      obtain ⟨_, _, dh1', hdh1', _, _, _, _, _, _, _, _, _, _, hroot, _⟩ := agree
      obtain ⟨hsecrets, _⟩ := separating.rootSecret _ _ _ _ hroot
      obtain ⟨rfl, _⟩ := List.cons.inj hsecrets
      exact ⟨dh1', hdh1, hdh1'⟩

/-- A responder that holds another pair than the signed prekey the bundle names, whole or wiped, does not agree. -/
theorem disagreement_of_other (lawful : crypto.Lawful honest) (separating : crypto.Separating honest)
    (telling : crypto.Telling honest) (hself : self.Honest crypto honest) {named : KeyPair K} (hnamed : honest.dh named)
    (names : bundle.signedPreKey.publicKey = named.publicKey) {spared : Prop}
    (held : InMemoryPreKeyStore.WholeOrWiped crypto honest spared signedPreKey)
    (other : signedPreKey.publicKey ≠ named.publicKey)
    (initiated : initiateHandshake crypto self bundle ephemeral coins = .ok handshake) :
    respondToHandshake crypto device
      (resolvedInput (publicIdentityOf self) handshake signedPreKey signedKemPreKey oneTime oneTimeKem) ≠
        .ok (handshake.rootSecret, handshake.associatedData) := by
  intro agree
  obtain ⟨secret, hinitiator, hresponder⟩ := first_output_of_agreement separating initiated agree
  rw [names] at hinitiator
  rcases held with hwhole | ⟨_, _, _, _, key, hwiped⟩
  · obtain ⟨shared, hshared, hshared'⟩ := lawful.ratchet.dh_agree self.exchange signedPreKey hself.exchange hwhole
    obtain rfl := Except.ok.inj (hresponder.symm.trans hshared')
    exact other (telling self.exchange signedPreKey named hself.exchange hwhole hnamed secret hshared hinitiator)
  · obtain ⟨shared, hshared, hshared'⟩ := lawful.ratchet.dh_agree self.exchange named hself.exchange hnamed
    obtain rfl := Except.ok.inj (hinitiator.symm.trans hshared)
    rw [hwiped] at hresponder
    exact separating.wiped named hnamed key _ _ _ hshared' hresponder rfl

end

/-- A relay and the device of one identity: the prekey store of the Messenger that runs on it, and how many times the
device has been unlocked again. -/
structure Installation (K : Type) where
  relay : Relay
  preKeys : InMemoryPreKeyStore K
  unlocks : Nat

namespace Installation

section

variable {K : Type} (crypto : Cryptography K) (honest : Generators K) (js : NumberText) (device : PrivateIdentity K)
  (address : String) (first : InMemoryPreKeyStore K)

/-- Anything happens at the relay, the device reads an envelope or makes one-time prekeys, or it is unlocked: a new
Messenger makes a store of its own, of pairs the first store has not drawn, and registers with it. -/
inductive Step : Installation K → Installation K → Prop
  | relay (installation : Installation K) {move : RelayMove} (possible : installation.relay.Possible move)
      (topsUp : Relay.TopsUp address installation.relay move) :
      Step installation { installation with relay := installation.relay.perform crypto js move }
  | replenish (installation : Installation K) {pairs kemPairs : List (KeyPair K)} (dh : ∀ pair ∈ pairs, honest.dh pair)
      (kem : ∀ pair ∈ kemPairs, honest.kem pair) :
      Step installation { installation with preKeys := installation.preKeys.replenishOneTimePreKeys pairs kemPairs }
  | decrypt (installation : Installation K) (fresh : KeyPair K) (envelope : SealedEnvelope)
      (lookupSession : String → Option (Session K)) (pinnedIdentityKey : String → Option Bytes) :
      Step installation { installation with
        preKeys := (decryptEnvelope crypto fresh device envelope lookupSession installation.preKeys pinnedIdentityKey).preKeys }
  | unlock (installation : Installation K) {next : InMemoryPreKeyStore K}
      (created : InMemoryPreKeyStore.Created crypto honest device next)
      (fresh : next.currentSignedPreKey.publicKey ≠ first.currentSignedPreKey.publicKey)
      (kemFresh : next.currentSignedKemPreKey.publicKey ≠ first.currentSignedKemPreKey.publicKey)
      (ip : String) (random : Bytes) (now : Int) :
      Step installation
        { relay := installation.relay.perform crypto js
            (.request ip (.register (some (Relay.registration (publicIdentityOf device) next.published))) random now)
          preKeys := next, unlocks := installation.unlocks + 1 }

/-- The relay keeps the account of the first store; the store of now is one that was made with its own signed prekeys
and has lived since, and it is the first one as long as the device has not been unlocked again. -/
structure Stands (since : Nat) (installation : Installation K) : Prop where
  settled : Relay.Settled crypto js address (Relay.encodeSignedPreKey first.currentSignedPreKey)
    (Relay.encodeSignedPreKey first.currentSignedKemPreKey) since installation.relay
  lived : ∃ created, InMemoryPreKeyStore.Created crypto honest device created ∧
    Relation.ReflTransGen (InMemoryPreKeyStore.LifeStep crypto honest device (fun _ => False)) created installation.preKeys ∧
    InMemoryPreKeyStore.KeepsSigned created installation.preKeys ∧
    (created.currentSignedPreKey.publicKey = first.currentSignedPreKey.publicKey ↔ installation.unlocks = 0) ∧
    (created.currentSignedKemPreKey.publicKey = first.currentSignedKemPreKey.publicKey ↔ installation.unlocks = 0)

end

section

variable {K : Type} {crypto : Cryptography K} {honest : Generators K} {js : NumberText} {device : PrivateIdentity K}
  {address : String} {first : InMemoryPreKeyStore K} {since : Nat} {installation next : Installation K}

theorem Stands.step (h : Stands crypto honest js device address first since installation)
    (step : Step crypto honest js device address first installation next) :
    Stands crypto honest js device address first since next := by
  obtain ⟨hsettled, created, hcreated, hrun, hkeeps, hsigned, hkem⟩ := h
  cases step with
  | relay possible topsUp => exact ⟨hsettled.perform topsUp, created, hcreated, hrun, hkeeps, hsigned, hkem⟩
  | replenish dh kem =>
    have hstep := hrun.tail (.replenish installation.preKeys dh kem)
    exact ⟨hsettled, created, hcreated, hstep, hkeeps.trans ⟨fun _ => rfl, fun _ => rfl, rfl, rfl⟩, hsigned, hkem⟩
  | decrypt fresh envelope lookupSession pinnedIdentityKey =>
    have hstep := hrun.tail (.decrypt installation.preKeys fresh envelope lookupSession pinnedIdentityKey fun _ => False.elim)
    exact ⟨hsettled, created, hcreated, hstep,
      hkeeps.trans (InMemoryPreKeyStore.keepsSigned_decryptEnvelope fresh envelope lookupSession pinnedIdentityKey), hsigned,
      hkem⟩
  | @unlock store hnext fresh kemFresh ip random now =>
    let request : Relay.Request := .register (some (Relay.registration (publicIdentityOf device) store.published))
    have htopsUp : Relay.TopsUp address installation.relay (.request ip request random now) :=
      fun _ _ _ _ _ _ hmove => nomatch hmove
    refine ⟨hsettled.perform htopsUp, store, hnext, .refl, .refl store, ?_, ?_⟩
    · exact iff_of_false fresh (Nat.succ_ne_zero _)
    · exact iff_of_false kemFresh (Nat.succ_ne_zero _)

theorem Stands.run (h : Stands crypto honest js device address first since installation)
    (run : Relation.ReflTransGen (Step crypto honest js device address first) installation next) :
    Stands crypto honest js device address first since next :=
  Runs.preserved (P := Stands crypto honest js device address first since) (fun _ _ step h => h.step step) run h

/-- What the device has under the ids of the account's signed prekeys. -/
theorem Stands.held (h : Stands crypto honest js device address first since installation)
    (created : InMemoryPreKeyStore.Created crypto honest device first) :
    (∃ pair, installation.preKeys.signedPreKey first.currentSignedPreKey.id = some pair ∧
      (pair.publicKey = first.currentSignedPreKey.publicKey ↔ installation.unlocks = 0)) ∧
    ∃ pair, installation.preKeys.signedKemPreKey first.currentSignedKemPreKey.id = some pair ∧
      (pair.publicKey = first.currentSignedKemPreKey.publicKey ↔ installation.unlocks = 0) := by
  obtain ⟨_, made, hmade, _, hkeeps, hsigned, hkem⟩ := h
  obtain ⟨_, _, _, _, ⟨hfirstId, _, _⟩, hfirstKemId, _, _⟩ := created.draws
  obtain ⟨signed, kem, _, _, ⟨_, hget, hpublic⟩, _, hkemGet, hkemPublic⟩ := hmade.draws
  rw [hfirstId, hfirstKemId]
  constructor
  · have hkept := hkeeps.signed 1
    rw [hget, Option.map_some] at hkept
    obtain ⟨pair, hpair, hsame⟩ := Option.map_eq_some_iff.mp hkept
    exact ⟨pair, hpair, by rw [hsame, ← hpublic, hsigned]⟩
  · exact ⟨kem, (hkeeps.kem 2).trans hkemGet, by rw [← hkemPublic, hkem]⟩

/-- Until the device is unlocked again its store keeps to what the account names. -/
theorem Stands.honours (h : Stands crypto honest js device address first since installation)
    (created : InMemoryPreKeyStore.Created crypto honest device first) (kept : installation.unlocks = 0)
    {bundle : PreKeyBundle} (signed : bundle.signedPreKey = first.currentSignedPreKey)
    (kem : bundle.signedKemPreKey = first.currentSignedKemPreKey) (own : OwnOneTime honest installation.preKeys bundle) :
    InMemoryPreKeyStore.Honours crypto honest (fun _ => False) installation.preKeys bundle := by
  obtain ⟨_, made, hmade, hrun, hkeeps, hsigned, hkem⟩ := h
  obtain ⟨_, _, _, _, ⟨hfirstId, _, _⟩, hfirstKemId, _, _⟩ := created.draws
  obtain ⟨_, _, _, _, ⟨hid, _, _⟩, hkemId, _, _⟩ := hmade.draws
  have sound := InMemoryPreKeyStore.sound_of_run hmade hrun
  have hkeyed := sound.signed
  have hkemKeyed := sound.kem
  rw [hkeeps.current, hid, hsigned.mpr kept] at hkeyed
  rw [hkeeps.currentKem, hkemId, hkem.mpr kept] at hkemKeyed
  rw [← hfirstId, ← signed] at hkeyed
  rw [← hfirstKemId, ← kem] at hkemKeyed
  exact ⟨hkeyed, hkemKeyed, own.oneTime, own.oneTimeKem⟩

/-- Once the relay has the account of the first store, it hands out that store's signed prekeys for good, though the
device makes another store at each unlock and registers with it. The device always finds some pair under their ids,
theirs until it is unlocked again and never after that: from then on nobody agrees with it on what the relay serves. -/
theorem directory_stays (lawful : crypto.Lawful honest) (separating : crypto.Separating honest)
    (telling : crypto.Telling honest) (hdevice : device.Honest crypto honest)
    (created : InMemoryPreKeyStore.Created crypto honest device first) {relay : Relay}
    (settled : Relay.Settled crypto js address (Relay.encodeSignedPreKey first.currentSignedPreKey)
      (Relay.encodeSignedPreKey first.currentSignedKemPreKey) relay.sent.length relay) {now : Installation K}
    (run : Relation.ReflTransGen (Step crypto honest js device address first) ⟨relay, first, 0⟩ now) :
    now.relay.store.signedKeys address = some (Relay.encodeSignedPreKey first.currentSignedPreKey,
      Relay.encodeSignedPreKey first.currentSignedKemPreKey) ∧
    (∀ sent ∈ now.relay.sent.drop relay.sent.length,
      sent.Carries address (Relay.encodeSignedPreKey first.currentSignedPreKey)
        (Relay.encodeSignedPreKey first.currentSignedKemPreKey)) ∧
    (∃ pair, now.preKeys.signedPreKey first.currentSignedPreKey.id = some pair ∧
      (pair.publicKey = first.currentSignedPreKey.publicKey ↔ now.unlocks = 0)) ∧
    (∃ pair, now.preKeys.signedKemPreKey first.currentSignedKemPreKey.id = some pair ∧
      (pair.publicKey = first.currentSignedKemPreKey.publicKey ↔ now.unlocks = 0)) ∧
    ∀ (self : PrivateIdentity K) (bundle : PreKeyBundle), self.Honest crypto honest →
      bundle.identity = publicIdentityOf device → bundle.signedPreKey = first.currentSignedPreKey →
      bundle.signedKemPreKey = first.currentSignedKemPreKey →
      (now.unlocks = 0 → OwnOneTime honest now.preKeys bundle) → ∀ ephemeral, honest.dh ephemeral → ∀ coins handshake,
        initiateHandshake crypto self bundle ephemeral coins = .ok handshake →
        ∀ signedPreKey signedKemPreKey oneTime oneTimeKem,
          Resolves now.preKeys handshake.keyIds signedPreKey signedKemPreKey oneTime oneTimeKem →
          (respondToHandshake crypto device
              (resolvedInput (publicIdentityOf self) handshake signedPreKey signedKemPreKey oneTime oneTimeKem) =
                .ok (handshake.rootSecret, handshake.associatedData) ↔
            now.unlocks = 0 ∧ ¬∃ key, signedPreKey.secretKey = crypto.wiped key) := by
  have hstart : Stands crypto honest js device address first relay.sent.length ⟨relay, first, 0⟩ :=
    ⟨settled, first, created, .refl, .refl first, iff_of_true rfl rfl, iff_of_true rfl rfl⟩
  have hnow := hstart.run run
  obtain ⟨hheld, hkemHeld⟩ := hnow.held created
  refine ⟨hnow.settled.record, hnow.settled.served, hheld, hkemHeld, ?_⟩
  intro self bundle hself hidentity hsigned hkem own ephemeral he coins handshake initiated signedPreKey signedKemPreKey
    oneTime oneTimeKem resolves
  by_cases hunlocks : now.unlocks = 0
  · have honours := hnow.honours created hunlocks hsigned hkem (own hunlocks)
    have hagrees := agreement_iff_whole lawful separating hself hdevice hidentity honours he initiated resolves
    rw [hagrees]
    exact (and_iff_right hunlocks).symm
  · obtain ⟨named, _, hnamed, _, ⟨_, _, hnames⟩, _⟩ := created.draws
    obtain ⟨pair, hpair, hpublic⟩ := hheld
    have hresolved := resolves.signed
    rw [initiateHandshake_keyIds initiated] at hresolved
    have hget : now.preKeys.signedPreKey bundle.signedPreKey.id = some signedPreKey := hresolved
    rw [hsigned, hpair] at hget
    obtain rfl := Option.some.inj hget
    -- The store of now is one of its own, so what it holds under the id is a pair of its own, whole or wiped.
    obtain ⟨_, made, hmade, hlived, hkeeps, _, _⟩ := hnow
    have hwhole := ((InMemoryPreKeyStore.sound_of_run hmade hlived).signed.2 pair ?_).2
    · refine iff_of_false ?_ fun h => hunlocks h.1
      have hother : pair.publicKey ≠ named.publicKey := fun heq => hunlocks (hpublic.mp (heq.trans hnames.symm))
      exact disagreement_of_other lawful separating telling hself hnamed (hsigned ▸ hnames) hwhole hother initiated
    · obtain ⟨_, _, _, _, ⟨hfirstId, _⟩, _⟩ := created.draws
      obtain ⟨_, _, _, _, ⟨hid, _⟩, _⟩ := hmade.draws
      rw [hkeeps.current, hid, ← hfirstId]
      exact hpair

end

end Installation

theorem spelled_telling : spelled.Telling spelledGenerators := by
  rintro own first second hown ⟨hfirst, hfirstPair⟩ ⟨hsecond, hsecondPair⟩ secret h h'
  rw [hfirstPair] at h ⊢
  rw [hsecondPair] at h' ⊢
  generalize first.secretKey.headD 0 = x at *
  generalize second.secretKey.headD 0 = y at *
  obtain ⟨_, hout⟩ := spelled_dh h
  obtain ⟨_, hout'⟩ := spelled_dh h'
  rw [spelledPair_last] at hout hout'
  have hsame : x = y := by
    rcases hout with rfl | rfl <;> rcases hout' with heq | heq <;> simp_all
  rw [hsame]

namespace RestartedDevice

/-- The store that Bob's account was made from. -/
def registered : InMemoryPreKeyStore Bytes := spelledStore bob 13 14 [15, 16] []

/-- The store of Bob's next unlock. -/
def reopened : InMemoryPreKeyStore Bytes := spelledStore bob 23 24 [] []

theorem registered_created : InMemoryPreKeyStore.Created spelled spelledGenerators bob registered := by
  refine ⟨spelledPair 32 13, spelledPair 1568 14, [15, 16].map (spelledPair 32), [], ⟨by decide, rfl⟩,
    spelledPair_kem 14, ?_, List.forall_mem_nil _, ?_⟩
  · intro pair hmem
    obtain ⟨secret, hsecret, rfl⟩ := List.mem_map.mp hmem
    have hne : secret ≠ 0 := by
      rintro rfl
      revert hsecret
      decide
    exact ⟨hne, rfl⟩
  · exact @spelledStore_created bob 13 14 [15, 16] [] (by decide +kernel)

theorem reopened_created : InMemoryPreKeyStore.Created spelled spelledGenerators bob reopened := by
  refine ⟨spelledPair 32 23, spelledPair 1568 24, [], [], ⟨by decide, rfl⟩, spelledPair_kem 24, List.forall_mem_nil _,
    List.forall_mem_nil _, ?_⟩
  exact @spelledStore_created bob 23 24 [] [] (by decide +kernel)

theorem listed_settled : Relay.Settled spelled Relay.plainNumbers bobAddress
    (Relay.encodeSignedPreKey registered.currentSignedPreKey) (Relay.encodeSignedPreKey registered.currentSignedKemPreKey)
    (Relay.listed 1).sent.length (Relay.listed 1) := by
  have hrun : Relation.ReflTransGen (Relay.Step spelled Relay.plainNumbers (fun _ _ => True)) (Relay.built 1) (Relay.listed 1) :=
    Relay.listed_run trivial trivial
  have hfiled : Relay.Filed spelled Relay.plainNumbers (Relay.listed 1) := by
    refine Runs.preserved (P := Relay.Filed spelled Relay.plainNumbers) ?_ hrun (.start ⟨1, rfl⟩)
    rintro relay _ ⟨move, _, _, rfl⟩ h
    exact h.perform move
  have hrecord : (Relay.listed 1).store.recordOf bobAddress = some (Relay.accountRecord bobAddress Relay.bobRegistration) :=
    Relay.recordOf_createAccount
  have hwaiting {item : Relay.Origin × Relay.Handler} (hmem : item ∈ (Relay.listed 1).waiting) :
      item.2 = .registered bobAddress := congrArg Prod.snd (List.mem_singleton.mp hmem)
  refine ⟨hfiled, ?_, fun origin body hmem => ?_, fun place hmem => ?_, fun place taken hmem => ?_, ?_⟩
  · have hbody : Relay.bobRegistration = Relay.registration (publicIdentityOf bob) registered.published := by
      rw [Relay.bobRegistration, registered]
    rw [RelayStore.signedKeys, hrecord, hbody, Option.map_some, Relay.signedKeys_registration]
  · cases hwaiting hmem
  · cases hwaiting hmem
  · cases hwaiting hmem
  · rw [List.drop_length]
    exact List.forall_mem_nil _

end RestartedDevice

/-- Bob locks his device and opens it again. -/
theorem Installation.directory_stays_reopened : ∃ now : Installation Bytes, now.unlocks = 1 ∧
    now.relay.store.signedKeys bobAddress =
      some (Relay.encodeSignedPreKey RestartedDevice.registered.currentSignedPreKey,
        Relay.encodeSignedPreKey RestartedDevice.registered.currentSignedKemPreKey) ∧
    ∃ pair, now.preKeys.signedPreKey RestartedDevice.registered.currentSignedPreKey.id = some pair ∧
      pair.publicKey ≠ RestartedDevice.registered.currentSignedPreKey.publicKey := by
  have hfresh : RestartedDevice.reopened.currentSignedPreKey.publicKey ≠
      RestartedDevice.registered.currentSignedPreKey.publicKey ∧
        RestartedDevice.reopened.currentSignedKemPreKey.publicKey ≠
          RestartedDevice.registered.currentSignedKemPreKey.publicKey := by decide +kernel
  have run := Relation.ReflTransGen.single (@Installation.Step.unlock _ spelled spelledGenerators Relay.plainNumbers bob
    bobAddress RestartedDevice.registered ⟨Relay.listed 1, RestartedDevice.registered, 0⟩ _
    RestartedDevice.reopened_created hfresh.1 hfresh.2 "10.0.0.1" [] 0)
  obtain ⟨hkeys, _, ⟨pair, hpair, hpublic⟩, _⟩ := Installation.directory_stays spelled_lawful spelled_separating
    spelled_telling bob_honest RestartedDevice.registered_created RestartedDevice.listed_settled run
  exact ⟨_, rfl, hkeys, pair, hpair, fun heq => Nat.one_ne_zero (hpublic.mp heq)⟩

end Veil
