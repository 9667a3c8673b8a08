import Veil.Registration

namespace Veil

namespace RelayStore

variable {store : RelayStore} {address other : String}

/-- What the store knows about accounts. -/
def directory (store : RelayStore) : List AccountRecord × OrderedMap String Nat := (store.records, store.accounts)

/-- The address of the record at a place. -/
def addressAt (place : Nat) (store : RelayStore) : Option String := (store.records[place]?).map AccountRecord.address

def recordOf (address : String) (store : RelayStore) : Option AccountRecord :=
  (store.getAccount address).bind (fun place => store.records[place]?)

/-- The record of an address is changed in place, any number of times. -/
inductive Modified (address : String) (store : RelayStore) : RelayStore → Prop
  | same : Modified address store store
  | modify {changed : RelayStore} {f : AccountRecord → AccountRecord} (h : Modified address store changed)
      (keeps : ∀ account, (f account).address = account.address) : Modified address store (changed.modifyAccount address f)

theorem modified_takeOneTimePreKeys : Modified address store (store.takeOneTimePreKeys address).1 := by
  unfold takeOneTimePreKeys
  repeat' split
  · exact .same
  · exact .same
  · exact .modify .same fun _ => rfl
  · exact .modify (.modify .same fun _ => rfl) fun _ => rfl

theorem modified_updatePreKeys {update : PreKeyUpdate} : Modified address store (store.updatePreKeys address update).1 := by
  simp only [updatePreKeys]
  repeat' split
  · exact .same
  · exact .modify .same fun _ => rfl
  · exact .modify (.modify .same fun _ => rfl) fun _ => rfl
  · exact .modify (.modify (.modify .same fun _ => rfl) fun _ => rfl) fun _ => rfl

namespace Modified

variable {changed : RelayStore}

theorem queues (h : Modified address store changed) : changed.queues = store.queues := by
  induction h with
  | same => rfl
  | modify _ _ ih => exact ih

theorem getAccount (h : Modified address store changed) : changed.getAccount other = store.getAccount other := by
  induction h with
  | same => rfl
  | modify _ _ ih => exact ih

theorem addressAt {place : Nat} (h : Modified address store changed) : changed.addressAt place = store.addressAt place := by
  induction h with
  | same => rfl
  | @modify changed f _ keeps ih =>
    rw [← ih]
    unfold RelayStore.addressAt modifyAccount
    cases changed.getAccount address with
    | none => rfl
    | some modified =>
      simp only [Option.elim_some, List.getElem?_modify]
      cases changed.records[place]? with
      | none => rfl
      | some account =>
        simp only [Option.map_some]
        split
        next => exact congrArg some (keeps account)
        next => rfl

theorem recordOf_of_apart (h : Modified address store changed)
    (apart : ∀ place, store.getAccount address = some place → store.getAccount other ≠ some place) :
    changed.recordOf other = store.recordOf other := by
  induction h with
  | same => rfl
  | @modify changed f hchanged _ ih =>
    rw [← ih]
    have hother : (changed.modifyAccount address f).getAccount other = changed.getAccount other := rfl
    rw [recordOf, hother, recordOf]
    cases hplace : changed.getAccount other with
    | none => rfl
    | some place =>
      unfold modifyAccount
      cases hmodified : changed.getAccount address with
      | none => rfl
      | some modified =>
        rw [hchanged.getAccount] at hplace hmodified
        have hne : modified ≠ place := fun heq => apart modified hmodified (heq ▸ hplace)
        simp [List.getElem?_modify, hne]

end Modified

theorem recordOf_modifyAccount {f : AccountRecord → AccountRecord} :
    (store.modifyAccount address f).recordOf address = (store.recordOf address).map f := by
  unfold recordOf modifyAccount getAccount
  cases store.accounts.get? address with
  | none => rfl
  | some place => simp

end RelayStore

namespace Relay

/-- What an upload asks of the store; a falsy field is left out. -/
def uploaded (body : Json) : PreKeyUpdate where
  signedPreKey := (body.field "signedPreKey").filter (fun value => Json.truthy (some value))
  signedKemPreKey := (body.field "signedKemPreKey").filter (fun value => Json.truthy (some value))
  oneTimePreKeys := (body.field "oneTimePreKeys").filter (fun value => Json.truthy (some value))
  oneTimeKemPreKeys := (body.field "oneTimeKemPreKeys").filter (fun value => Json.truthy (some value))

/-- What an upload is checked as. -/
def claimed (account : AccountRecord) (body : Json) : PublishedKeys where
  identity := some account.identity
  signedPreKey := some (orElse (body.field "signedPreKey") account.signedPreKey)
  signedKemPreKey := some (orElse (body.field "signedKemPreKey") account.signedKemPreKey)
  oneTimePreKeys := some (orElse (body.field "oneTimePreKeys") (.arr []))
  oneTimeKemPreKeys := some (orElse (body.field "oneTimeKemPreKeys") (.arr []))

/-- What a handler does to the accounts when it goes on. -/
inductive Directs {K : Type} (crypto : Cryptography K) (js : NumberText) (relay : Relay) : Handler → RelayStore → Prop
  | create {address : String} {body : Json} :
      Directs crypto js relay (.registering address none body) (relay.store.createAccount (accountRecord address body))
  | take {place : Nat} {account : AccountRecord} (found : relay.store.records[place]? = some account) :
      Directs crypto js relay (.fetchingKeys (some place)) (relay.store.takeOneTimePreKeys account.address).1
  | update {address : String} {place : Nat} {body : Json} {account : AccountRecord} {verified : String × PublicIdentity}
      (found : relay.store.records[place]? = some account)
      (verifies : verifyPublishedPreKeys crypto js (claimed account body) = .ok (.ok verified)) :
      Directs crypto js relay (.uploading address (some place) body)
        (relay.store.updatePreKeys address (uploaded body)).1

section

variable {K : Type} {crypto : Cryptography K} {js : NumberText} {relay next : Relay} {connection : Nat} {now : Int}

@[simp] theorem store_send (message : ServerSocketMessage) : (relay.send connection message).store = relay.store := by
  unfold send
  split <;> rfl

@[simp] theorem store_accept (origin : Origin) : (relay.accept origin).store = relay.store := by
  cases origin with
  | request => rfl
  | socket => exact store_send _

theorem store_foldl_send {α : Type} (items : List α) (connection : α → Nat) (message : α → ServerSocketMessage) :
    (items.foldl (fun relay item => relay.send (connection item) (message item)) relay).store = relay.store := by
  induction items generalizing relay with
  | nil => rfl
  | cons item items ih =>
    rw [List.foldl_cons, ih]
    exact store_send _

theorem directory_acknowledge {store : RelayStore} {address : String} {ids : List Json} :
    (store.acknowledge address ids).1.directory = store.directory := by
  unfold RelayStore.acknowledge
  split <;> rfl

theorem onMessage_directory (parsed : Option Json) :
    (relay.onMessage js connection parsed now).store.directory = relay.store.directory := by
  rcases onMessage_cases parsed with
    ⟨_, failure, hthrows⟩ | ⟨_, hserved⟩
  · rw [hthrows]
    rfl
  · revert hserved
    generalize relay.onMessage js connection parsed now = next
    intro hserved
    cases hserved with
    | refused => rw [store_send]
    | authenticated asked resolved =>
      simp only [socketAuthenticate, resolved]
      exact congrArg RelayStore.directory (store_send _)
    | ponged => rw [store_send]
    | submitted => rfl
    | acknowledged => exact directory_acknowledge

theorem handle_directory (ip : String) (request : Request) (random : Bytes) :
    (relay.handle crypto js ip request random now).store.directory = relay.store.directory := by
  cases request <;> simp only [handle, register, challenge, authenticate, uploadKeys, countKeys, sendMessage, fetchMessages,
    acknowledge]
  all_goals repeat' split
  all_goals first
    | rfl
    | exact directory_acknowledge

theorem onClose_directory : (relay.onClose connection).store.directory = relay.store.directory := by
  simp only [onClose]
  repeat' split
  all_goals rfl

theorem upload_directory (request : Request) {address : String} {place : Nat} {account : AccountRecord} {body : Json}
    (found : relay.store.records[place]? = some account) :
    (relay.upload crypto js request address account body).store.directory = relay.store.directory ∨
      Directs crypto js relay (.uploading address (some place) body)
        (relay.upload crypto js request address account body).store := by
  unfold upload
  dsimp only
  split
  next => exact Or.inl rfl
  next => exact Or.inl rfl
  next verified hverifies => exact Or.inr (.update found hverifies)

theorem resumeRequest_directory (request : Request) (handler : Handler) (random : Bytes) :
    (relay.resumeRequest crypto js request handler random now).store.directory = relay.store.directory ∨
      Directs crypto js relay handler (relay.resumeRequest crypto js request handler random now).store := by
  cases handler with
  | registering address existing body =>
    cases existing with
    | some place => exact Or.inl rfl
    | none => exact Or.inr .create
  | fetchingKeys account =>
    cases account with
    | none => exact Or.inl rfl
    | some place =>
      simp only [resumeRequest, account, Option.bind_some]
      cases hfound : relay.store.records[place]? with
      | none => exact Or.inl rfl
      | some record => exact Or.inr (.take hfound)
  | uploading address account body =>
    cases account with
    | none => exact Or.inl rfl
    | some place =>
      simp only [resumeRequest, account, Option.bind_some]
      cases hfound : relay.store.records[place]? with
      | none => exact Or.inl rfl
      | some record => exact upload_directory request hfound
  | uploaded result =>
    cases result with
    | error e => exact Or.inl rfl
    | ok _ => exact Or.inl rfl
  | registered | fetching | acknowledged | submitting | enqueued | draining => exact Or.inl rfl
  | authenticating | takingKeys | counting =>
    simp only [resumeRequest]
    repeat' split
    all_goals exact Or.inl rfl

theorem resume_directory (origin : Origin) (handler : Handler) (random : Bytes) :
    (relay.resume crypto js origin handler random now).store.directory = relay.store.directory ∨
      (∃ request, origin = .request request) ∧
        Directs crypto js relay handler (relay.resume crypto js origin handler random now).store := by
  unfold resume
  split
  next =>
    split
    next => exact Or.inl rfl
    next => exact Or.inl (by rw [store_accept])
  next => exact Or.inl (by rw [store_accept]; exact congrArg RelayStore.directory (store_foldl_send _ id _))
  next => exact Or.inl (congrArg RelayStore.directory (store_foldl_send _ (fun _ => _) _))
  next request _ _ => exact (resumeRequest_directory request handler random).imp_right fun h => ⟨⟨request, rfl⟩, h⟩
  next => exact Or.inl rfl

/-- Only a handler that goes on changes accounts. -/
theorem perform_directory {move : RelayMove} : (relay.perform crypto js move).store.directory = relay.store.directory ∨
    ∃ index random now request handler, move = .resume index random now ∧
      relay.waiting[index]? = some (.request request, handler) ∧
        Directs crypto js relay handler (relay.perform crypto js move).store := by
  cases move with
  | request ip request random now => exact Or.inl (handle_directory ip request random)
  | connect => exact Or.inl rfl
  | message connection parsed now => exact Or.inl (onMessage_directory parsed)
  | close => exact Or.inl onClose_directory
  | housekeeping => exact Or.inl rfl
  | resume index random now =>
    simp only [perform]
    split
    next => exact Or.inl rfl
    next origin handler hfound =>
      rcases resume_directory origin handler random with hsame | ⟨⟨request, rfl⟩, hdirects⟩
      · exact Or.inl hsame
      · refine Or.inr ⟨index, random, now, request, handler, rfl, hfound, ?_⟩
        revert hdirects
        generalize (Relay.resume crypto js _ handler random now _).store = store
        intro hdirects
        cases hdirects with
        | create => exact .create
        | take found => exact .take found
        | update found verifies => exact .update found verifies

/-- An account stays. -/
theorem getAccount_perform {move : RelayMove} {address : String} (h : (relay.store.getAccount address).isSome) :
    ((relay.perform crypto js move).store.getAccount address).isSome := by
  rcases perform_directory with
    hsame | ⟨index, random, now, request, handler, _, _, hdirects⟩
  · rw [RelayStore.getAccount, (Prod.mk.inj hsame).2]
    exact h
  · revert hdirects
    generalize (relay.perform crypto js move).store = store
    intro hdirects
    cases hdirects with
    | create =>
      rw [RelayStore.getAccount, RelayStore.createAccount, OrderedMap.get?_set]
      split
      next => rfl
      next => exact h
    | take found => rwa [RelayStore.modified_takeOneTimePreKeys.getAccount]
    | update found verifies => rwa [RelayStore.modified_updatePreKeys.getAccount]

/-- One-time prekeys of a client that the relay has an account of are taken. -/
theorem upload_encode {identity : PublicIdentity} {keys : PublishedPreKeys} (accepted : verifyPreKeyBundle crypto
      { identity, signedPreKey := keys.signedPreKey, signedKemPreKey := keys.signedKemPreKey } = .ok ())
    {address : String} (haddress : addressOf crypto identity.signingPublicKey = .ok address) {account : AccountRecord}
    (hidentity : account.identity = encodeIdentity identity)
    (hsigned : account.signedPreKey = encodeSignedPreKey keys.signedPreKey)
    (hkem : account.signedKemPreKey = encodeSignedPreKey keys.signedKemPreKey) (request : Request)
    (more moreKem : List OneTimePreKey) (relay : Relay) :
    relay.upload crypto js request address account (topUp more moreKem) =
      ({ relay with store := (relay.store.updatePreKeys address (uploaded (topUp more moreKem))).1 } : Relay).await
        (.request request) (.uploaded (relay.store.updatePreKeys address (uploaded (topUp more moreKem))).2) := by
  have hclaimed : verifyPublishedPreKeys crypto js
      { identity := some account.identity
        signedPreKey := some (orElse ((topUp more moreKem).field "signedPreKey") account.signedPreKey)
        signedKemPreKey := some (orElse ((topUp more moreKem).field "signedKemPreKey") account.signedKemPreKey)
        oneTimePreKeys := some (orElse ((topUp more moreKem).field "oneTimePreKeys") (.arr []))
        oneTimeKemPreKeys := some (orElse ((topUp more moreKem).field "oneTimeKemPreKeys") (.arr [])) } =
          .ok (.ok (address, identity)) := by
    rw [hidentity, hsigned, hkem]
    exact (@verifyPublishedPreKeys_encode _ _ _ _ { keys with oneTimePreKeys := more, oneTimeKemPreKeys := moreKem }) accepted
      haddress
  simp only [Relay.upload, hclaimed]
  rfl

end

end Relay

end Veil
