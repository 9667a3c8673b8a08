import Mathlib
import Veil.Directory

namespace Veil

inductive KeyKind
  | classical
  | kem
  deriving DecidableEq

namespace KeyKind

def pick {α : Type} (classical kem : α) : KeyKind → α
  | .classical => classical
  | .kem => kem

end KeyKind

/-- The id and the public key of a one-time prekey. -/
def keyOf (key : Json) : Option (Int × Bytes) := do
  let id ← (key.field "id").bind Json.integer?
  let publicKey ← (key.field "publicKey").bind Json.text?
  let bytes ← (fromBase64Url publicKey).toOption
  return (id, bytes)

/-- What `for ... of` finds, if it can run. -/
def Json.values (keys : Json) : List Json := keys.elements.toOption.getD []

def AccountRecord.pool (kind : KeyKind) (account : AccountRecord) : Json :=
  kind.pick account.oneTimePreKeys account.oneTimeKemPreKeys

/-- The key of a kind among the keys that were taken. -/
def takenKey (kind : KeyKind) (taken : Except Failure (Option Json × Option Json)) : Option Json :=
  taken.toOption.bind (fun keys => kind.pick keys.1 keys.2)

theorem values_shifted {pool left : Json} {key : Option Json} (h : shifted pool = .ok (key, left)) :
    pool.values = key.toList ++ left.values := by
  unfold shifted at h
  split at h
  next =>
    cases h
    rfl
  next =>
    cases h
    rfl
  next => cases h

theorem values_pooled {pool more both : Json} (h : pooled pool more = .ok both) :
    both.values.Sublist (pool.values ++ more.values.take (maxOneTimePreKeys - pool.values.length)) := by
  unfold pooled at h
  obtain ⟨old, hold, h⟩ := Outcome.bind_eq_ok_iff.mp h
  obtain ⟨new, hnew, h⟩ := Outcome.bind_eq_ok_iff.mp h
  have hpool : pool.values = old := by rw [Json.values, hold]; rfl
  have hmore : more.values = new := by rw [Json.values, hnew]; rfl
  obtain rfl := Outcome.pure_eq_ok_iff.mp h
  show ((old ++ new).take maxOneTimePreKeys).Sublist _
  rw [hpool, hmore, List.take_append]
  exact (List.take_sublist _ _).append (List.Sublist.refl _)

namespace RelayStore

variable {store : RelayStore} {address : String} {kind : KeyKind}

def pool (kind : KeyKind) (address : String) (store : RelayStore) : List Json :=
  (store.recordOf address).elim [] (fun account => (account.pool kind).values)

theorem pool_of_recordOf {account : AccountRecord} (h : store.recordOf address = some account) :
    store.pool kind address = (account.pool kind).values := by
  rw [pool, h]
  rfl

theorem pool_modifyAccount {f : AccountRecord → AccountRecord} {account : AccountRecord}
    (h : store.recordOf address = some account) :
    (store.modifyAccount address f).pool kind address = ((f account).pool kind).values :=
  pool_of_recordOf (by rw [recordOf_modifyAccount, h]; rfl)

/-- What is taken and what is left were in the pool. -/
theorem pool_takeOneTimePreKeys :
    ((takenKey kind (store.takeOneTimePreKeys address).2).toList ++ (store.takeOneTimePreKeys address).1.pool kind address).Sublist
      (store.pool kind address) := by
  unfold takeOneTimePreKeys
  cases hrecord : store.recordOf address with
  | none =>
    have hfound : (store.getAccount address).bind (fun place => store.records[place]?) = none := hrecord
    rw [hfound]
    cases kind <;> exact List.Sublist.refl _
  | some account =>
    have hfound : (store.getAccount address).bind (fun place => store.records[place]?) = some account := hrecord
    rw [hfound, pool_of_recordOf hrecord]
    dsimp only
    cases hshifted : shifted account.oneTimePreKeys with
    | error e => exact pool_of_recordOf hrecord ▸ List.Sublist.refl _
    | ok shift =>
      obtain ⟨key, left⟩ := shift
      have hvalues := values_shifted hshifted
      cases hkem : shifted account.oneTimeKemPreKeys with
      | error e =>
        dsimp only
        rw [pool_modifyAccount hrecord]
        cases kind with
        | classical =>
          show left.values.Sublist account.oneTimePreKeys.values
          rw [hvalues]
          exact List.sublist_append_right _ _
        | kem => exact List.Sublist.refl _
      | ok kemShift =>
        obtain ⟨kemKey, kemLeft⟩ := kemShift
        have hkemValues := values_shifted hkem
        have hbetween := @recordOf_modifyAccount store address (fun account => { account with oneTimePreKeys := left })
        rw [hrecord] at hbetween
        dsimp only
        rw [pool_modifyAccount hbetween]
        cases kind with
        | classical =>
          show (key.toList ++ left.values).Sublist account.oneTimePreKeys.values
          rw [hvalues]
        | kem =>
          show (kemKey.toList ++ kemLeft.values).Sublist account.oneTimeKemPreKeys.values
          rw [hkemValues]

/-- What an upload leaves of the pool, or puts behind it under the cap. -/
theorem values_uploaded {pool both : Json} {more : Option Json} (h : more.elim (.ok pool) (pooled pool) = .ok both) :
    both.values.Sublist (pool.values ++ (more.elim [] Json.values).take (maxOneTimePreKeys - pool.values.length)) := by
  cases more with
  | none =>
    obtain rfl := Except.ok.inj h
    exact List.sublist_append_left _ _
  | some more => exact values_pooled h

theorem pool_updatePreKeys {update : PreKeyUpdate} :
    ((store.updatePreKeys address update).1.pool kind address).Sublist (store.pool kind address ++
      ((kind.pick update.oneTimePreKeys update.oneTimeKemPreKeys).elim [] Json.values).take
        (maxOneTimePreKeys - (store.pool kind address).length)) := by
  simp only [updatePreKeys]
  cases hrecord : store.recordOf address with
  | none =>
    have hfound : (store.getAccount address).bind (fun place => store.records[place]?) = none := hrecord
    rw [hfound]
    exact List.sublist_append_left _ _
  | some account =>
    have hfound : (store.getAccount address).bind (fun place => store.records[place]?) = some account := hrecord
    rw [hfound, pool_of_recordOf hrecord]
    dsimp only
    have hsigned := @recordOf_modifyAccount store address (fun account => { account with
      signedPreKey := update.signedPreKey.getD account.signedPreKey
      signedKemPreKey := update.signedKemPreKey.getD account.signedKemPreKey })
    rw [hrecord, Option.map_some] at hsigned
    cases hpooled : update.oneTimePreKeys.elim (.ok account.oneTimePreKeys) (pooled account.oneTimePreKeys) with
    | error e =>
      dsimp only
      rw [pool_of_recordOf hsigned]
      cases kind <;> exact List.sublist_append_left _ _
    | ok both =>
      have hvalues := values_uploaded hpooled
      have hclassical := @recordOf_modifyAccount (store.modifyAccount address (fun account =>
          { account with
            signedPreKey := update.signedPreKey.getD account.signedPreKey
            signedKemPreKey := update.signedKemPreKey.getD account.signedKemPreKey })) address (fun account => { account with oneTimePreKeys := both })
      rw [hsigned, Option.map_some] at hclassical
      cases hkem : update.oneTimeKemPreKeys.elim (.ok account.oneTimeKemPreKeys) (pooled account.oneTimeKemPreKeys) with
      | error e =>
        dsimp only
        rw [pool_of_recordOf hclassical]
        cases kind with
        | classical => exact hvalues
        | kem => exact List.sublist_append_left _ _
      | ok kemBoth =>
        have hkemValues := values_uploaded hkem
        dsimp only
        rw [pool_modifyAccount hclassical]
        cases kind with
        | classical => exact hvalues
        | kem => exact hkemValues

end RelayStore

namespace Relay

/-- The one-time prekey of a kind in a bundle for an address. -/
def Sent.key (kind : KeyKind) (address : String) : Sent → Option Json
  | .response (.fetchKeys asked) (.bundle _ _ _ oneTimePreKey oneTimeKemPreKey) =>
    if asked = address then kind.pick oneTimePreKey oneTimeKemPreKey else none
  | _ => none

/-- The one-time prekey of a kind that was taken and is not handed out yet. -/
def Handler.key (kind : KeyKind) (address : String) : Origin × Handler → Option Json
  | (.request (.fetchKeys asked), .takingKeys _ taken) => if asked = address then takenKey kind taken else none
  | _ => none

/-- The one-time prekeys of a kind that bundles for an address have carried. -/
def handed (kind : KeyKind) (address : String) (relay : Relay) : List Json := relay.sent.filterMap (Sent.key kind address)

def inHand (kind : KeyKind) (address : String) (relay : Relay) : List Json := relay.waiting.filterMap (Handler.key kind address)

section

variable {K : Type} (crypto : Cryptography K) (js : NumberText)

/-- What a handler puts into the pool of an address when it goes on. -/
def entering (kind : KeyKind) (address : String) (relay : Relay) : Handler → List Json
  | .registering asked none body => if asked = address then ((accountRecord asked body).pool kind).values else []
  | .uploading asked place body =>
    match relay.account place with
    | none => []
    | some account =>
      match verifyPublishedPreKeys crypto js (claimed account body) with
      | .ok (.ok _) =>
        if asked = address then
          (((kind.pick (uploaded body).oneTimePreKeys (uploaded body).oneTimeKemPreKeys).elim [] Json.values).take
            (maxOneTimePreKeys - (relay.store.pool kind address).length))
        else []
      | _ => []
  | _ => []

/-- What an address has had of its keys when a handler goes on; the first registration begins a new pool. -/
def standing (kind : KeyKind) (address : String) (relay : Relay) : Handler → List Json
  | .registering _ none _ => relay.handed kind address ++ relay.inHand kind address
  | _ => relay.handed kind address ++ relay.inHand kind address ++ relay.store.pool kind address

/-- The keys that enter the pool of the address are distinct, and none is there or was ever taken from it. -/
def Fresh (address : String) (relay : Relay) (move : RelayMove) : Prop :=
  ∀ index random now request handler, move = .resume index random now →
    relay.waiting[index]? = some (.request request, handler) → ∀ kind,
      ((entering crypto js kind address relay handler).map keyOf).Nodup ∧
        ∀ key ∈ (entering crypto js kind address relay handler).map keyOf,
          key ∉ (relay.standing kind address handler).map keyOf

end

/-- How many copies of a key an address has in its pool, in hand and handed out. -/
def copies (kind : KeyKind) (address : String) (key : Option (Int × Bytes)) (relay : Relay) : Nat :=
  ((relay.handed kind address).map keyOf).count key + ((relay.inHand kind address).map keyOf).count key +
    ((relay.store.pool kind address).map keyOf).count key

/-- Accounts are where they are looked up, a fetch has found the account it asks for, and no key is there twice. -/
structure Traded (address : String) (relay : Relay) : Prop where
  placed : ∀ other place, relay.store.getAccount other = some place → relay.store.addressAt place = some other
  asked : ∀ origin place, (origin, Handler.fetchingKeys (some place)) ∈ relay.waiting →
    ∃ asked, origin = .request (.fetchKeys asked) ∧ relay.store.addressAt place = some asked
  once : ∀ kind key, relay.copies kind address key ≤ 1

/-- A move that hands out, takes and adds no key of the address. -/
structure Plain (address : String) (relay next : Relay) : Prop where
  directory : next.store.directory = relay.store.directory
  handed : ∀ kind, next.handed kind address = relay.handed kind address
  inHand : ∀ kind, (next.inHand kind address).Sublist (relay.inHand kind address)
  asked : ∀ origin place, (origin, Handler.fetchingKeys (some place)) ∈ next.waiting →
    (origin, Handler.fetchingKeys (some place)) ∈ relay.waiting ∨
      ∃ asked, origin = .request (.fetchKeys asked) ∧ relay.store.getAccount asked = some place

section

variable {K : Type} {crypto : Cryptography K} {js : NumberText} {relay next : Relay} {connection : Nat} {now : Int}
  {address : String}

/-- A move that grows the relay trades no key. -/
theorem Grows.plain (h : Grows crypto js relay next) : Plain address relay next := by
  obtain ⟨added, hsent, hkeyless⟩ := h.sent
  obtain ⟨kept, begun, hwaiting, hkept, hopens⟩ := h.waiting
  refine ⟨h.directory, fun kind => ?_, fun kind => ?_, fun origin place hmem => ?_⟩
  · have hnone : added.filterMap (Sent.key kind address) = [] := by
      refine List.filterMap_eq_nil_iff.mpr fun sent hmem => ?_
      have hno := hkeyless sent hmem
      unfold Sent.key
      split
      next => exact hno.elim
      next => rfl
    rw [handed, hsent, List.filterMap_append, hnone, List.append_nil, handed]
  · have hnone : begun.filterMap (Handler.key kind address) = [] := by
      refine List.filterMap_eq_nil_iff.mpr fun item hmem => ?_
      have hopen := hopens item hmem
      unfold Handler.key
      split
      next => exact hopen.elim
      next => rfl
    rw [inHand, hwaiting, List.filterMap_append, hnone, List.append_nil]
    exact hkept.filterMap _
  · rw [hwaiting] at hmem
    rcases List.mem_append.mp hmem with hmem | hmem
    · exact Or.inl (hkept.subset hmem)
    · obtain ⟨asked, horigin, hplace⟩ := hopens _ hmem
      exact Or.inr ⟨asked, horigin, hplace.symm⟩

theorem Plain.erase (index : Nat) : Plain address relay { relay with waiting := relay.waiting.eraseIdx index } :=
  ⟨rfl, fun _ => rfl, fun _ => (List.eraseIdx_sublist _ _).filterMap _,
    fun _ _ hmem => Or.inl (List.mem_of_mem_eraseIdx hmem)⟩

theorem handed_emit (kind : KeyKind) (sent : Sent) :
    (relay.emit sent).handed kind address = relay.handed kind address ++ (sent.key kind address).toList := by
  rw [handed, emit, List.filterMap_append, List.filterMap_cons, List.filterMap_nil]
  cases sent.key kind address <;> rfl

theorem inHand_await (kind : KeyKind) (origin : Origin) (handler : Handler) : (relay.await origin handler).inHand kind address =
    relay.inHand kind address ++ (Handler.key kind address (origin, handler)).toList := by
  rw [inHand, Relay.await, List.filterMap_append, List.filterMap_cons, List.filterMap_nil]
  cases Handler.key kind address (origin, handler) <;> rfl

theorem Plain.emit {sent : Sent} (keyless : ∀ kind, sent.key kind address = none) :
    Plain address relay (relay.emit sent) := by
  refine ⟨rfl, fun kind => ?_, fun kind => List.Sublist.refl _, fun origin place hmem => Or.inl hmem⟩
  rw [handed_emit, keyless]
  exact List.append_nil _

/-- A handler that has neither taken a key nor looked for one begins to wait. -/
theorem Plain.await {origin : Origin} {handler : Handler}
    (empty : ∀ kind, Handler.key kind address (origin, handler) = none) (quiet : ∀ place, handler ≠ .fetchingKeys place) :
    Plain address relay (relay.await origin handler) := by
  refine ⟨rfl, fun kind => rfl, fun kind => ?_, fun origin' place hmem => ?_⟩
  · rw [inHand_await, empty]
    exact List.append_nil _ ▸ List.Sublist.refl _
  · rcases List.mem_append.mp hmem with hmem | hmem
    · exact Or.inl hmem
    · exact absurd (Prod.mk.inj (List.mem_singleton.mp hmem)).2.symm (quiet _)

theorem Traded.plain (h : relay.Traded address) (plain : Plain address relay next) : next.Traded address := by
  have haccounts : next.store.accounts = relay.store.accounts := congrArg Prod.snd plain.directory
  have hrecords : next.store.records = relay.store.records := congrArg Prod.fst plain.directory
  have hget (other : String) : next.store.getAccount other = relay.store.getAccount other := by
    rw [RelayStore.getAccount, haccounts, RelayStore.getAccount]
  have hat (place : Nat) : next.store.addressAt place = relay.store.addressAt place := by
    rw [RelayStore.addressAt, hrecords, RelayStore.addressAt]
  have hpool (kind : KeyKind) : next.store.pool kind address = relay.store.pool kind address := by
    rw [RelayStore.pool, RelayStore.recordOf, hget, hrecords]
    rfl
  refine ⟨fun other place hplace => ?_, fun origin place hmem => ?_, fun kind key => ?_⟩
  · rw [hat]
    exact h.placed other place (hget other ▸ hplace)
  · rcases plain.asked origin place hmem with hmem | ⟨asked, horigin, hplace⟩
    · obtain ⟨asked, horigin, haddress⟩ := h.asked origin place hmem
      exact ⟨asked, horigin, by rw [hat, haddress]⟩
    · exact ⟨asked, horigin, by rw [hat, h.placed asked place hplace]⟩
  · have honce := h.once kind key
    have hheld := ((plain.inHand kind).map keyOf).count_le key
    rw [copies] at honce ⊢
    rw [plain.handed, hpool]
    omega

/-- Two addresses have no record in common. -/
theorem Traded.apart (h : relay.Traded address) {other asked : String} (ne : other ≠ asked) {place : Nat}
    (found : relay.store.getAccount asked = some place) : relay.store.getAccount other ≠ some place := by
  intro hsame
  have hother := h.placed other place hsame
  rw [h.placed asked place found] at hother
  exact ne (Option.some.inj hother).symm

theorem recordOf_createAccount {store : RelayStore} {record : AccountRecord} : (store.createAccount record).recordOf record.address =
    some record := by
  rw [RelayStore.recordOf, RelayStore.getAccount, RelayStore.createAccount, OrderedMap.get?_set_self]
  exact List.getElem?_concat_length

theorem Traded.recordOf_create (h : relay.Traded address) {record : AccountRecord} (ne : record.address ≠ address) :
    (relay.store.createAccount record).recordOf address = relay.store.recordOf address := by
  have hget : (relay.store.createAccount record).getAccount address = relay.store.getAccount address :=
    OrderedMap.get?_set_of_ne _ _ (Ne.symm ne)
  rw [RelayStore.recordOf, RelayStore.recordOf, hget]
  cases hplace : relay.store.getAccount address with
  | none => rfl
  | some place =>
    obtain ⟨found, hfound, _⟩ := Option.map_eq_some_iff.mp (h.placed address place hplace)
    have hlt : place < relay.store.records.length := (List.getElem?_eq_some_iff.mp hfound).1
    exact List.getElem?_append_left hlt

/-- A first registration begins a pool with keys that the address has not had in hand or handed out. -/
theorem Traded.create (h : relay.Traded address) (record : AccountRecord)
    (fresh : record.address = address → ∀ kind, ((record.pool kind).values.map keyOf).Nodup ∧
      ∀ key ∈ (record.pool kind).values.map keyOf,
        key ∉ (relay.handed kind address ++ relay.inHand kind address).map keyOf) :
    ({ relay with store := relay.store.createAccount record } : Relay).Traded address := by
  have hold : ∀ place other, relay.store.addressAt place = some other →
      (relay.store.createAccount record).addressAt place = some other := by
    intro place other hother
    rw [RelayStore.addressAt] at hother ⊢
    obtain ⟨found, hfound, _⟩ := Option.map_eq_some_iff.mp hother
    have hlt : place < relay.store.records.length := (List.getElem?_eq_some_iff.mp hfound).1
    rw [RelayStore.createAccount, List.getElem?_append_left hlt]
    exact hother
  refine ⟨fun other place hplace => ?_, fun origin place hmem => ?_, fun kind key => ?_⟩
  · have hset : (relay.store.accounts.set record.address relay.store.records.length).get? other = some place := hplace
    rw [OrderedMap.get?_set] at hset
    split at hset
    next heq =>
      obtain rfl := Option.some.inj hset
      show ((relay.store.records ++ [record])[relay.store.records.length]?).map AccountRecord.address = some other
      rw [List.getElem?_concat_length, heq]
      rfl
    next => exact hold place other (h.placed other place hset)
  · obtain ⟨asked, horigin, haddress⟩ := h.asked origin place hmem
    exact ⟨asked, horigin, hold place asked haddress⟩
  · have honce := h.once kind key
    rw [copies] at honce ⊢
    have hhanded : ({ relay with store := relay.store.createAccount record } : Relay).handed kind address =
        relay.handed kind address := rfl
    have hinHand : ({ relay with store := relay.store.createAccount record } : Relay).inHand kind address =
        relay.inHand kind address := rfl
    rw [hhanded, hinHand]
    by_cases heq : record.address = address
    · obtain ⟨hnodup, hfresh⟩ := fresh heq kind
      have hpool : (relay.store.createAccount record).pool kind address = (record.pool kind).values :=
        RelayStore.pool_of_recordOf (heq ▸ recordOf_createAccount)
      rw [hpool]
      have hle := List.nodup_iff_count_le_one.mp hnodup key
      by_cases hmem : key ∈ (record.pool kind).values.map keyOf
      · have hout := List.count_eq_zero_of_not_mem (hfresh key hmem)
        rw [List.map_append, List.count_append] at hout
        omega
      · have hzero := List.count_eq_zero_of_not_mem hmem
        omega
    · rw [RelayStore.pool, h.recordOf_create heq]
      exact honce

/-- The record of one address is changed in place. -/
theorem Traded.modified (h : relay.Traded address) {asked : String} {changed : RelayStore}
    (modified : relay.store.Modified asked changed)
    (once : asked = address → ∀ kind key, ((relay.handed kind address).map keyOf).count key +
      ((relay.inHand kind address).map keyOf).count key + ((changed.pool kind address).map keyOf).count key ≤ 1) :
    ({ relay with store := changed } : Relay).Traded address := by
  refine ⟨fun other place hplace => ?_, fun origin place hmem => ?_, fun kind key => ?_⟩
  · exact modified.addressAt.trans (h.placed other place (modified.getAccount.symm.trans hplace))
  · obtain ⟨other, horigin, haddress⟩ := h.asked origin place hmem
    exact ⟨other, horigin, modified.addressAt.trans haddress⟩
  · by_cases heq : asked = address
    · exact once heq kind key
    · have hpool : changed.pool kind address = relay.store.pool kind address := by
        rw [RelayStore.pool, modified.recordOf_of_apart fun place hplace => h.apart (Ne.symm heq) hplace]
        rfl
      show _ + _ + ((changed.pool kind address).map keyOf).count key ≤ 1
      rw [hpool]
      exact h.once kind key

/-- A fetch takes a key of each kind out of the pool into its hands. -/
theorem Traded.take (h : relay.Traded address) (asked : String) (place : Nat) :
    (({ relay with store := (relay.store.takeOneTimePreKeys asked).1 } : Relay).await (.request (.fetchKeys asked))
      (.takingKeys place (relay.store.takeOneTimePreKeys asked).2)).Traded address := by
  by_cases heq : asked = address
  · have hcounts (kind : KeyKind) (key : Option (Int × Bytes)) :
        ((takenKey kind (relay.store.takeOneTimePreKeys asked).2).toList.map keyOf).count key +
          (((relay.store.takeOneTimePreKeys asked).1.pool kind address).map keyOf).count key ≤
            ((relay.store.pool kind address).map keyOf).count key := by
      have hsub := (@RelayStore.pool_takeOneTimePreKeys relay.store asked kind).map keyOf
      have hle := hsub.count_le key
      rw [List.map_append, List.count_append, heq] at hle
      rw [heq]
      exact hle
    have hmodified := h.modified (@RelayStore.modified_takeOneTimePreKeys _ asked) fun _ kind key => by
      have honce := h.once kind key
      have hle := hcounts kind key
      rw [copies] at honce
      omega
    refine ⟨hmodified.placed, fun origin place' hmem => ?_, fun kind key => ?_⟩
    · rcases List.mem_append.mp hmem with hmem | hmem
      · exact hmodified.asked origin place' hmem
      · cases List.mem_singleton.mp hmem
    · have honce := h.once kind key
      have hle := hcounts kind key
      have hkey : Handler.key kind address (.request (.fetchKeys asked),
          .takingKeys place (relay.store.takeOneTimePreKeys asked).2) =
            takenKey kind (relay.store.takeOneTimePreKeys asked).2 := if_pos heq
      rw [copies] at honce ⊢
      rw [inHand_await, hkey, List.map_append, List.count_append]
      show ((relay.handed kind address).map keyOf).count key + (((relay.inHand kind address).map keyOf).count key + _) +
        (((relay.store.takeOneTimePreKeys asked).1.pool kind address).map keyOf).count key ≤ 1
      omega
  · have hmodified := h.modified RelayStore.modified_takeOneTimePreKeys fun heq' => absurd heq' heq
    exact hmodified.plain (.await (fun _ => if_neg heq) fun _ => nofun)

theorem inHand_erase (kind : KeyKind) {index : Nat} {item : Origin × Handler} (found : relay.waiting[index]? = some item) :
    (relay.inHand kind address).Perm ((Handler.key kind address item).toList ++
      ({ relay with waiting := relay.waiting.eraseIdx index } : Relay).inHand kind address) := by
  obtain ⟨hlt, rfl⟩ := List.getElem?_eq_some_iff.mp found
  have hperm := (List.getElem_cons_eraseIdx_perm hlt).symm.filterMap (Handler.key kind address)
  rw [List.filterMap_cons] at hperm
  refine hperm.trans ?_
  cases Handler.key kind address relay.waiting[index] <;> exact List.Perm.refl _

theorem count_filter_le (value : Option Json) (p : Json → Bool) (key : Option (Int × Bytes)) :
    ((value.filter p).toList.map keyOf).count key ≤ (value.toList.map keyOf).count key := by
  cases value with
  | none => exact Nat.le_refl _
  | some value =>
    rw [Option.filter_some]
    split
    next => exact Nat.le_refl _
    next => exact Nat.zero_le _

/-- A fetch hands out what it has in hand. -/
theorem Traded.handOut (h : relay.Traded address) {index place : Nat} {request : Request}
    {oneTimePreKey oneTimeKemPreKey : Option Json} (account : AccountRecord)
    (found : relay.waiting[index]? = some (.request request, .takingKeys place (.ok (oneTimePreKey, oneTimeKemPreKey)))) :
    (({ relay with waiting := relay.waiting.eraseIdx index } : Relay).respond request
      (.bundle account.identity account.signedPreKey account.signedKemPreKey
        (oneTimePreKey.filter (fun key => Json.truthy (some key)))
        (oneTimeKemPreKey.filter (fun key => Json.truthy (some key))))).Traded address := by
  have herased : ({ relay with waiting := relay.waiting.eraseIdx index } : Relay).Traded address := h.plain (.erase index)
  by_cases hrequest : request = .fetchKeys address
  · obtain rfl := hrequest
    refine ⟨herased.placed, herased.asked, fun kind key => ?_⟩
    have honce := h.once kind key
    have hperm := (((@inHand_erase _ address) kind found).map keyOf).count_eq key
    have hitem : Handler.key kind address (.request (.fetchKeys address),
        .takingKeys place (.ok (oneTimePreKey, oneTimeKemPreKey))) = kind.pick oneTimePreKey oneTimeKemPreKey := if_pos rfl
    have hsent : (Sent.response (.fetchKeys address) (.bundle account.identity account.signedPreKey account.signedKemPreKey
        (oneTimePreKey.filter (fun key => Json.truthy (some key)))
        (oneTimeKemPreKey.filter (fun key => Json.truthy (some key))))).key kind address =
          (kind.pick oneTimePreKey oneTimeKemPreKey).filter (fun key => Json.truthy (some key)) := by
      cases kind <;> exact if_pos rfl
    have hfiltered := count_filter_le (kind.pick oneTimePreKey oneTimeKemPreKey) (fun key => Json.truthy (some key)) key
    rw [hitem, List.map_append, List.count_append] at hperm
    rw [copies] at honce ⊢
    rw [respond, handed_emit, hsent, List.map_append, List.count_append]
    show (((relay.handed kind address).map keyOf).count key + _) + _ + ((relay.store.pool kind address).map keyOf).count key ≤ 1
    have hkept : (({ relay with waiting := relay.waiting.eraseIdx index } : Relay).emit (.response (.fetchKeys address)
        (.bundle account.identity account.signedPreKey account.signedKemPreKey
          (oneTimePreKey.filter (fun key => Json.truthy (some key)))
          (oneTimeKemPreKey.filter (fun key => Json.truthy (some key)))))).inHand kind address =
            ({ relay with waiting := relay.waiting.eraseIdx index } : Relay).inHand kind address := rfl
    rw [hkept]
    omega
  · refine herased.plain (.emit fun kind => ?_)
    cases request with
    | fetchKeys asked => exact if_neg fun heq => hrequest (congrArg Request.fetchKeys heq)
    | register | challenge | authenticate | uploadKeys | countKeys | sendMessage | fetchMessages | acknowledge => rfl

/-- An upload puts keys behind the pool that the address has not had. -/
theorem Traded.upload (h : relay.Traded address) {asked : String} {update : PreKeyUpdate}
    (fresh : asked = address → ∀ kind,
      ((((kind.pick update.oneTimePreKeys update.oneTimeKemPreKeys).elim [] Json.values).take
        (maxOneTimePreKeys - (relay.store.pool kind address).length)).map keyOf).Nodup ∧
      ∀ key ∈ (((kind.pick update.oneTimePreKeys update.oneTimeKemPreKeys).elim [] Json.values).take
        (maxOneTimePreKeys - (relay.store.pool kind address).length)).map keyOf,
          key ∉ (relay.handed kind address ++ relay.inHand kind address ++ relay.store.pool kind address).map keyOf) :
    ({ relay with store := (relay.store.updatePreKeys asked update).1 } : Relay).Traded address := by
  refine h.modified RelayStore.modified_updatePreKeys fun heq kind key => ?_
  obtain ⟨hnodup, hfresh⟩ := fresh heq kind
  have honce := h.once kind key
  have hsub := (@RelayStore.pool_updatePreKeys relay.store asked kind update).map keyOf
  have hle := hsub.count_le key
  rw [heq] at hle ⊢
  rw [List.map_append, List.count_append] at hle
  rw [copies] at honce
  have hcount := List.nodup_iff_count_le_one.mp hnodup key
  by_cases hmem : key ∈ (((kind.pick update.oneTimePreKeys update.oneTimeKemPreKeys).elim [] Json.values).take
      (maxOneTimePreKeys - (relay.store.pool kind address).length)).map keyOf
  · have hout := List.count_eq_zero_of_not_mem (hfresh key hmem)
    rw [List.map_append, List.map_append, List.count_append, List.count_append] at hout
    omega
  · have hzero := List.count_eq_zero_of_not_mem hmem
    omega

/-- Only a fetch takes keys. -/
theorem Handler.key_of_ne {kind : KeyKind} {origin : Origin} {handler : Handler}
    (h : ∀ place taken, handler ≠ .takingKeys place taken) : Handler.key kind address (origin, handler) = none := by
  unfold Handler.key
  split
  next heq => exact absurd (Prod.mk.inj heq).2 (h _ _)
  next => rfl

/-- What the erased handler held does not count against what enters. -/
theorem not_mem_erased {kind : KeyKind} {index : Nat} {key : Option (Int × Bytes)}
    (h : key ∉ (relay.handed kind address ++ relay.inHand kind address).map keyOf) :
    key ∉ (({ relay with waiting := relay.waiting.eraseIdx index } : Relay).handed kind address ++
      ({ relay with waiting := relay.waiting.eraseIdx index } : Relay).inHand kind address).map keyOf := by
  intro hmem
  have hplain : Plain address relay { relay with waiting := relay.waiting.eraseIdx index } := .erase index
  have hsub := (List.Sublist.refl (relay.handed kind address)).append (hplain.inHand kind)
  exact h ((hsub.map keyOf).subset hmem)

/-- Every move keeps one copy of each key of an address at most, where the keys that enter its pool are fresh. -/
theorem Traded.perform (h : relay.Traded address) {move : RelayMove} (fresh : Fresh crypto js address relay move) :
    (relay.perform crypto js move).Traded address := by
  have hperforms := @perform_performs _ crypto js relay move
  have herased (index : Nat) : ({ relay with waiting := relay.waiting.eraseIdx index } : Relay).Traded address := h.plain (.erase index)
  revert hperforms
  generalize relay.perform crypto js move = next
  intro hperforms
  cases hperforms with
  | grows hgrows => exact h.plain hgrows.plain
  | @create index random now request asked body found =>
    have hcreated := (herased index).create (accountRecord asked body) fun heq kind => by
      have hentering : entering crypto js kind address relay (.registering asked none body) =
          ((accountRecord asked body).pool kind).values := if_pos heq
      obtain ⟨hnodup, hfresh⟩ := fresh index random now request _ rfl found kind
      rw [hentering] at hnodup hfresh
      exact ⟨hnodup, fun key hkey => not_mem_erased (hfresh key hkey)⟩
    exact hcreated.plain (.await (fun _ => Handler.key_of_ne fun _ _ => nofun) fun _ => nofun)
  | @take index random now request place account found record =>
    obtain ⟨asked, horigin, haddress⟩ := h.asked _ place (List.mem_of_getElem? found)
    obtain rfl := Origin.request.inj horigin
    obtain ⟨account', haccount, rfl⟩ := Option.map_eq_some_iff.mp haddress
    obtain rfl := Option.some.inj (record.symm.trans haccount)
    exact (herased index).take account.address place
  | @handOut index random now request place account oneTimePreKey oneTimeKemPreKey found record => exact h.handOut account found
  | @update index random now request asked place body account verified found record verifies =>
    have hupdated := (@Relay.Traded.upload _ _ (herased index) asked) fun heq kind => by
      have haccount : relay.account (some place) = some account := record
      have hentering : entering crypto js kind address relay (.uploading asked (some place) body) =
          ((kind.pick (uploaded body).oneTimePreKeys (uploaded body).oneTimeKemPreKeys).elim [] Json.values).take
            (maxOneTimePreKeys - (relay.store.pool kind address).length) := by
        simp only [entering, haccount, verifies, if_pos heq]
      obtain ⟨hnodup, hfresh⟩ := fresh index random now request _ rfl found kind
      rw [hentering] at hnodup hfresh
      refine ⟨hnodup, fun key hkey hmem => ?_⟩
      have hstanding : relay.standing kind address (.uploading asked (some place) body) =
          relay.handed kind address ++ relay.inHand kind address ++ relay.store.pool kind address := rfl
      have hout := hfresh key hkey
      rw [hstanding, List.map_append, List.mem_append, not_or] at hout
      rw [List.map_append, List.mem_append] at hmem
      exact hmem.elim (not_mem_erased hout.1) hout.2
    exact hupdated.plain (.await (fun _ => Handler.key_of_ne fun _ _ => nofun) fun _ => nofun)

end

/-- Where the keys that enter the pool of an address are fresh, no two bundles for the address carry the same key. -/
theorem one_time_keys_once {K : Type} (crypto : Cryptography K) (js : NumberText) (address : String) (start relay : Relay)
    (hstart : Start start) (run : Relation.ReflTransGen (Step crypto js (Fresh crypto js address)) start relay) :
    ∀ kind, ((relay.handed kind address).map keyOf).Nodup := by
  have htraded : relay.Traded address := by
    refine Runs.preserved (P := fun relay => relay.Traded address) ?_ run ?_
    · rintro relay _ ⟨move, _, fresh, rfl⟩ h
      exact h.perform fresh
    · obtain ⟨limit, rfl⟩ := hstart
      exact ⟨nofun, nofun, fun kind key => Nat.zero_le _⟩
  refine fun kind => List.nodup_iff_count_le_one.mpr fun key => ?_
  have honce := htraded.once kind key
  rw [copies] at honce
  omega

/-- A peer fetches Bob's keys. -/
def fetched (index : Nat) (relay : Relay) : Relay :=
  ((relay.perform spelled plainNumbers (.request "10.0.0.2" (.fetchKeys bobAddress) [] 0)).perform spelled plainNumbers
    (.resume index [] 0)).perform spelled plainNumbers (.resume index [] 0)

/-- The handler that goes on is a fetch. -/
def fetches (index : Nat) (relay : Relay) : Bool :=
  (relay.waiting[index]?).any fun item => match item.2 with
    | .fetchingKeys _ | .takingKeys _ _ => true
    | _ => false

theorem fresh_of_fetches {K : Type} {crypto : Cryptography K} {js : NumberText} {address : String} {relay : Relay}
    {index : Nat} (h : relay.fetches index = true) : Fresh crypto js address relay (.resume index [] 0) := by
  intro index' random now request handler hmove hfound kind
  obtain ⟨rfl, rfl, rfl⟩ := RelayMove.resume.inj hmove
  rw [fetches, hfound] at h
  cases handler with
  | fetchingKeys | takingKeys => exact ⟨List.nodup_nil, nofun⟩
  | registering | registered | authenticating | uploading | uploaded | counting | submitting | enqueued | fetching |
    acknowledged | draining => cases h

theorem fetched_run {allowed : Relay → RelayMove → Prop} {start relay : Relay} {index : Nat}
    (run : Relation.ReflTransGen (Step spelled plainNumbers allowed) start relay)
    (request : ∀ relay, allowed relay (.request "10.0.0.2" (.fetchKeys bobAddress) [] 0))
    (resume : ∀ relay, relay.fetches index = true → allowed relay (.resume index [] 0))
    (asked : (relay.perform spelled plainNumbers (.request "10.0.0.2" (.fetchKeys bobAddress) [] 0)).fetches index = true)
    (taken : ((relay.perform spelled plainNumbers (.request "10.0.0.2" (.fetchKeys bobAddress) [] 0)).perform spelled
      plainNumbers (.resume index [] 0)).fetches index = true) :
    Relation.ReflTransGen (Step spelled plainNumbers allowed) start (fetched index relay) := by
  have hpossible (relay : Relay) (h : relay.fetches index = true) : relay.Possible (.resume index [] 0) := by
    obtain ⟨item, hitem, _⟩ := (Option.any_eq_true _ _).mp h
    exact (List.getElem?_eq_some_iff.mp hitem).1
  exact ((run.tail ⟨.request "10.0.0.2" (.fetchKeys bobAddress) [] 0, trivial, request _, rfl⟩).tail ⟨_, hpossible _ asked, resume _ asked, rfl⟩).tail
    ⟨_, hpossible _ taken, resume _ taken, rfl⟩

theorem two_fetched :
    ((listed 1).perform spelled plainNumbers (.request "10.0.0.2" (.fetchKeys bobAddress) [] 0)).fetches 1 = true ∧
      (((listed 1).perform spelled plainNumbers (.request "10.0.0.2" (.fetchKeys bobAddress) [] 0)).perform spelled
        plainNumbers (.resume 1 [] 0)).fetches 1 = true ∧
      ((fetched 1 (listed 1)).perform spelled plainNumbers
        (.request "10.0.0.2" (.fetchKeys bobAddress) [] 0)).fetches 1 = true ∧
      (((fetched 1 (listed 1)).perform spelled plainNumbers
        (.request "10.0.0.2" (.fetchKeys bobAddress) [] 0)).perform spelled plainNumbers (.resume 1 [] 0)).fetches 1 = true ∧
      (((fetched 1 (fetched 1 (listed 1))).handed .classical bobAddress).map keyOf).length = 2 := by
  decide +kernel

/-- Two peers fetch Bob's keys. -/
theorem one_time_keys_once_fetched :
    (((fetched 1 (fetched 1 (listed 1))).handed .classical bobAddress).map keyOf).length = 2 ∧
      (((fetched 1 (fetched 1 (listed 1))).handed .classical bobAddress).map keyOf).Nodup := by
  obtain ⟨hasked, htaken, hasked', htaken', hlength⟩ := two_fetched
  have run : Relation.ReflTransGen (Step spelled plainNumbers (Fresh spelled plainNumbers bobAddress)) (built 1)
      (fetched 1 (fetched 1 (listed 1))) := by
    refine fetched_run (fetched_run (listed_run (fun _ _ _ _ _ => nofun) ?_) (fun _ _ _ _ _ _ => nofun)
      (fun _ h => fresh_of_fetches h) hasked htaken) (fun _ _ _ _ _ _ => nofun) (fun _ h => fresh_of_fetches h)
      hasked' htaken'
    intro index random now request handler hmove hfound kind
    obtain ⟨rfl, rfl, rfl⟩ := RelayMove.resume.inj hmove
    obtain ⟨_, rfl⟩ := Prod.mk.inj (Option.some.inj hfound)
    have hnodup : ∀ kind, ((entering spelled plainNumbers kind bobAddress (built 1)
        (.registering bobAddress none bobRegistration)).map keyOf).Nodup := fun kind => by cases kind <;> decide +kernel
    exact ⟨hnodup kind, fun _ _ => List.not_mem_nil⟩
  exact ⟨hlength, one_time_keys_once spelled plainNumbers bobAddress _ _ ⟨1, rfl⟩ run .classical⟩

def bobSignature : String :=
  toBase64Url ((spelled.sign bob.signing.secretKey (challengeTranscript bobAddress [5])).toOption.getD [])

def challenged : Relay :=
  (listed 1).perform spelled plainNumbers
    (.request "10.0.0.1" (.challenge (some (.obj [("address", .str bobAddress)]))) [5] 0)

/-- Bob has signed a challenge. -/
def proving : Relay :=
  challenged.perform spelled plainNumbers
    (.request "10.0.0.1" (.authenticate (some (.obj [("address", .str bobAddress),
      ("challenge", .str (toBase64Url [5])), ("signature", .str bobSignature)]))) [] 0)

/-- Bob has a token. -/
def authorized : Relay := proving.perform spelled plainNumbers (.resume 1 [6] 0)

def bobHeader : String := "Bearer " ++ toBase64Url [6]

/-- The one-time prekeys that Bob has registered with. -/
def bobTopUp : Json := topUp (spelledStore bob 13 14 [15, 16] []).published.oneTimePreKeys []

/-- Bob's upload has been taken. -/
def toppedUp : Relay :=
  let relay := { authorized with auth := (authorized.requireAuth (some bobHeader) 0).1 }
  ({ relay with store := (relay.store.updatePreKeys bobAddress (uploaded bobTopUp)).1 } : Relay).await
    (.request (.uploadKeys (some bobHeader) (some bobTopUp)))
    (.uploaded (relay.store.updatePreKeys bobAddress (uploaded bobTopUp)).2)

theorem authorized_facts : (proving.waiting[1]?).all (fun item => !item.2.trades) = true ∧
    proving.Possible (.resume 1 [6] 0) ∧ (authorized.requireAuth (some bobHeader) 0).2 = some bobAddress ∧
      authorized.store.getAccount bobAddress = some 0 := by
  decide +kernel

theorem authorized_record : authorized.store.recordOf bobAddress = some (accountRecord bobAddress bobRegistration) := by
  have hchallenged : Grows spelled plainNumbers (listed 1) challenged := by
    rw [challenged, perform]
    exact handle_grows _ _ _
  have hproving : Grows spelled plainNumbers challenged proving := by
    rw [proving, perform]
    exact handle_grows _ _ _
  have hdirectory : authorized.store.directory = (listed 1).store.directory :=
    ((hchallenged.trans hproving).trans (perform_grows authorized_facts.1)).directory
  have hrecord : (listed 1).store.recordOf bobAddress = some (accountRecord bobAddress bobRegistration) :=
    recordOf_createAccount
  obtain ⟨hrecords, haccounts⟩ := Prod.mk.inj hdirectory
  rw [← hrecord, RelayStore.recordOf, RelayStore.getAccount, hrecords, haccounts]
  rfl

theorem toppedUp_run : Relation.ReflTransGen (Step spelled plainNumbers (fun _ _ => True)) (built 1) toppedUp := by
  obtain ⟨_, hpossible, hgranted, hplace⟩ := authorized_facts
  let granted : Relay := { authorized with auth := (authorized.requireAuth (some bobHeader) 0).1 }
  let request : Request := .uploadKeys (some bobHeader) (some bobTopUp)
  have hasked : authorized.perform spelled plainNumbers (.request "10.0.0.1" request [] 0) =
      granted.await (.request request) (.uploading bobAddress (some 0) bobTopUp) := by
    show authorized.uploadKeys (some bobHeader) (some bobTopUp) 0 = _
    simp only [uploadKeys, hgranted, hplace, Option.getD_some]
    rfl
  have hresumed : (granted.await (.request request) (.uploading bobAddress (some 0) bobTopUp)).perform spelled plainNumbers
      (.resume granted.waiting.length [] 0) = toppedUp := by
    have hrecord := authorized_record
    rw [RelayStore.recordOf, hplace] at hrecord
    have hlooked : granted.account (some 0) = some (accountRecord bobAddress bobRegistration) := hrecord
    rw [perform_resume]
    show granted.resumeRequest spelled plainNumbers request (.uploading bobAddress (some 0) bobTopUp) [] 0 = _
    simp only [resumeRequest, hlooked]
    exact upload_encode bob_accepted bob_address rfl rfl rfl request _ [] granted
  have hchallenged : Step spelled plainNumbers (fun _ _ => True) (listed 1) challenged :=
    ⟨.request "10.0.0.1" (.challenge (some (.obj [("address", .str bobAddress)]))) [5] 0, trivial, trivial, rfl⟩
  have hproving : Step spelled plainNumbers (fun _ _ => True) challenged proving :=
    ⟨.request "10.0.0.1" (.authenticate (some (.obj [("address", .str bobAddress),
      ("challenge", .str (toBase64Url [5])), ("signature", .str bobSignature)]))) [] 0, trivial, trivial, rfl⟩
  have hauthorized : Step spelled plainNumbers (fun _ _ => True) proving authorized :=
    ⟨.resume 1 [6] 0, hpossible, trivial, rfl⟩
  have hwaiting : Step spelled plainNumbers (fun _ _ => True) authorized
      (granted.await (.request request) (.uploading bobAddress (some 0) bobTopUp)) :=
    ⟨.request "10.0.0.1" request [] 0, trivial, trivial, hasked.symm⟩
  have htoppedUp : Step spelled plainNumbers (fun _ _ => True)
      (granted.await (.request request) (.uploading bobAddress (some 0) bobTopUp)) toppedUp :=
    ⟨.resume granted.waiting.length [] 0, by simp [Possible, Relay.await], trivial, hresumed.symm⟩
  exact (((((listed_run trivial trivial).tail hchallenged).tail hproving).tail hauthorized).tail hwaiting).tail htoppedUp

theorem three_fetched :
    (toppedUp.perform spelled plainNumbers (.request "10.0.0.2" (.fetchKeys bobAddress) [] 0)).fetches 2 = true ∧
      ((toppedUp.perform spelled plainNumbers (.request "10.0.0.2" (.fetchKeys bobAddress) [] 0)).perform spelled
        plainNumbers (.resume 2 [] 0)).fetches 2 = true ∧
      ((fetched 2 toppedUp).perform spelled plainNumbers
        (.request "10.0.0.2" (.fetchKeys bobAddress) [] 0)).fetches 2 = true ∧
      (((fetched 2 toppedUp).perform spelled plainNumbers
        (.request "10.0.0.2" (.fetchKeys bobAddress) [] 0)).perform spelled plainNumbers (.resume 2 [] 0)).fetches 2 = true ∧
      ((fetched 2 (fetched 2 toppedUp)).perform spelled plainNumbers
        (.request "10.0.0.2" (.fetchKeys bobAddress) [] 0)).fetches 2 = true ∧
      (((fetched 2 (fetched 2 toppedUp)).perform spelled plainNumbers
        (.request "10.0.0.2" (.fetchKeys bobAddress) [] 0)).perform spelled plainNumbers (.resume 2 [] 0)).fetches 2 = true ∧
      ¬(((fetched 2 (fetched 2 (fetched 2 toppedUp))).handed .classical bobAddress).map keyOf).Nodup := by
  decide +kernel

/-- Three peers fetch Bob's keys after he has uploaded again what he registered with. -/
theorem key_handed_twice : ¬ ∀ (start relay : Relay), Start start →
    Relation.ReflTransGen (Step spelled plainNumbers (fun _ _ => True)) start relay →
      ∀ kind address, ((relay.handed kind address).map keyOf).Nodup := by
  intro claim
  obtain ⟨hasked, htaken, hasked', htaken', hasked'', htaken'', hrepeated⟩ := three_fetched
  have run : Relation.ReflTransGen (Step spelled plainNumbers (fun _ _ => True)) (built 1)
      (fetched 2 (fetched 2 (fetched 2 toppedUp))) :=
    fetched_run (fetched_run (fetched_run toppedUp_run (fun _ => trivial) (fun _ _ => trivial) hasked htaken)
      (fun _ => trivial) (fun _ _ => trivial) hasked' htaken') (fun _ => trivial) (fun _ _ => trivial) hasked'' htaken''
  exact absurd (claim _ _ ⟨1, rfl⟩ run .classical bobAddress) hrepeated

end Relay

end Veil
