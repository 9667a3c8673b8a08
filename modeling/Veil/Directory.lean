import Veil.Accounts

namespace Veil

namespace Relay

/-- What a registration is checked as. -/
def published (body : Json) : PublishedKeys where
  identity := body.field "identity"
  signedPreKey := body.field "signedPreKey"
  signedKemPreKey := body.field "signedKemPreKey"
  oneTimePreKeys := body.field "oneTimePreKeys"
  oneTimeKemPreKeys := body.field "oneTimeKemPreKeys"

/-- The handlers that have to do with one-time prekeys when they go on. -/
def Handler.trades : Handler → Bool
  | .registering _ none _ | .fetchingKeys (some _) | .takingKeys _ _ | .uploading _ _ _ => true
  | _ => false

/-- What a handler that begins to wait has looked up and checked. -/
def Opens {K : Type} (crypto : Cryptography K) (js : NumberText) (relay : Relay) : Origin × Handler → Prop
  | (_, .registering address existing body) => existing = relay.store.getAccount address ∧
      ∃ identity, verifyPublishedPreKeys crypto js (published body) = .ok (.ok (address, identity))
  | (_, .authenticating place address _ _) => place = none ∨ place = relay.store.getAccount address
  | (origin, .fetchingKeys place) => ∃ asked, origin = .request (.fetchKeys asked) ∧ place = relay.store.getAccount asked
  | (_, .uploading address place _) => place = relay.store.getAccount address
  | (_, .takingKeys _ _) => False
  | _ => True

/-- Anything but a bundle. -/
def Keyless : Sent → Prop
  | .response _ (.bundle _ _ _ _ _) => False
  | _ => True

/-- A move that leaves the accounts alone and lets out no bundle. -/
structure Grows {K : Type} (crypto : Cryptography K) (js : NumberText) (relay next : Relay) : Prop where
  directory : next.store.directory = relay.store.directory
  sent : ∃ added, next.sent = relay.sent ++ added ∧ ∀ sent ∈ added, Keyless sent
  waiting : ∃ kept added, next.waiting = kept ++ added ∧ kept.Sublist relay.waiting ∧
    ∀ item ∈ added, Opens crypto js relay item

section

variable {K : Type} {crypto : Cryptography K} {js : NumberText} {relay next last : Relay} {connection : Nat} {now : Int}

theorem Opens.of_directory {item : Origin × Handler} (h : Opens crypto js next item)
    (directory : next.store.directory = relay.store.directory) : Opens crypto js relay item := by
  have haccounts : next.store.accounts = relay.store.accounts := congrArg Prod.snd directory
  have hget (address : String) : next.store.getAccount address = relay.store.getAccount address := by
    rw [RelayStore.getAccount, haccounts, RelayStore.getAccount]
  obtain ⟨origin, handler⟩ := item
  revert h
  cases handler <;> simp only [Opens, hget] <;> exact id

namespace Grows

theorem of_eq (directory : next.store.directory = relay.store.directory) (sent : next.sent = relay.sent)
    (waiting : next.waiting = relay.waiting) : Grows crypto js relay next := by
  refine ⟨directory, ⟨[], ?_, List.forall_mem_nil _⟩, ⟨relay.waiting, [], ?_, List.Sublist.refl _, List.forall_mem_nil _⟩⟩
  · rw [sent, List.append_nil]
  · rw [waiting, List.append_nil]

theorem trans (h : Grows crypto js relay next) (h' : Grows crypto js next last) : Grows crypto js relay last := by
  obtain ⟨added, hsent, hkeyless⟩ := h.sent
  obtain ⟨added', hsent', hkeyless'⟩ := h'.sent
  obtain ⟨kept, begun, hwaiting, hkept, hopens⟩ := h.waiting
  obtain ⟨kept', begun', hwaiting', hkept', hopens'⟩ := h'.waiting
  refine ⟨h'.directory.trans h.directory, ⟨added ++ added', ?_, fun sent hmem => ?_⟩, ?_⟩
  · rw [hsent', hsent, List.append_assoc]
  · exact (List.mem_append.mp hmem).elim (hkeyless sent) (hkeyless' sent)
  · rw [hwaiting] at hkept'
    obtain ⟨left, right, rfl, hleft, hright⟩ := List.sublist_append_iff.mp hkept'
    refine ⟨left, right ++ begun', ?_, hleft.trans hkept, fun item hmem => ?_⟩
    · rw [hwaiting', List.append_assoc]
    · rcases List.mem_append.mp hmem with hmem | hmem
      · exact hopens item (hright.subset hmem)
      · exact (hopens' item hmem).of_directory h.directory

theorem emit {sent : Sent} (keyless : Keyless sent) : Grows crypto js relay (relay.emit sent) := by
  refine ⟨rfl, ⟨[sent], rfl, fun other hmem => ?_⟩, ⟨relay.waiting, [], (List.append_nil _).symm, List.Sublist.refl _, List.forall_mem_nil _⟩⟩
  obtain rfl := List.mem_singleton.mp hmem
  exact keyless

theorem await {origin : Origin} {handler : Handler} (opens : Opens crypto js relay (origin, handler)) :
    Grows crypto js relay (relay.await origin handler) := by
  refine ⟨rfl, ⟨[], (List.append_nil _).symm, List.forall_mem_nil _⟩, ⟨relay.waiting, [(origin, handler)], rfl, List.Sublist.refl _, ?_⟩⟩
  intro item hmem
  obtain rfl := List.mem_singleton.mp hmem
  exact opens

theorem respond {request : Request} {response : Response} (keyless : Keyless (.response request response)) :
    Grows crypto js relay (relay.respond request response) := emit keyless

theorem send (message : ServerSocketMessage) : Grows crypto js relay (relay.send connection message) := by
  unfold Relay.send
  split
  next => exact emit trivial
  next => exact of_eq rfl rfl rfl

theorem accept (origin : Origin) : Grows crypto js relay (relay.accept origin) := by
  cases origin with
  | request request => exact respond trivial
  | socket => exact send _

theorem foldl_send {α : Type} (items : List α) (connection : α → Nat) (message : α → ServerSocketMessage) :
    Grows crypto js relay (items.foldl (fun relay item => relay.send (connection item) (message item)) relay) := by
  induction items generalizing relay with
  | nil => exact of_eq rfl rfl rfl
  | cons item items ih => exact (send (message item)).trans ih

theorem with_auth (auth : AuthService) : Grows crypto js relay { relay with auth } := of_eq rfl rfl rfl

theorem erase (index : Nat) : Grows crypto js relay { relay with waiting := relay.waiting.eraseIdx index } :=
  ⟨rfl, ⟨[], (List.append_nil _).symm, List.forall_mem_nil _⟩,
    ⟨relay.waiting.eraseIdx index, [], (List.append_nil _).symm, List.eraseIdx_sublist _ _, List.forall_mem_nil _⟩⟩

theorem submit (origin : Origin) (source : String) (envelope : Json) :
    Grows crypto js relay (relay.submit origin source envelope) := by
  have hrecorded : Grows crypto js relay { relay with
      submissions := if (relay.accountOf (envelope.field "recipient")).isSome then .accepted source :: relay.submissions
        else relay.submissions } := of_eq rfl rfl rfl
  exact hrecorded.trans (await trivial)

end Grows

theorem handle_grows (ip : String) (request : Request) (random : Bytes) :
    Grows crypto js relay (relay.handle crypto js ip request random now) := by
  cases request with
  | fetchKeys asked => exact .await ⟨asked, rfl, rfl⟩
  | register body =>
    simp only [handle, register]
    split
    next body identity hidentity =>
      split
      next => exact .respond trivial
      next =>
        split
        next => exact .respond trivial
        next => exact .respond trivial
        next address verified hverified =>
          refine .await ⟨rfl, verified, ?_⟩
          rw [published, show body.field "identity" = some identity from hidentity]
          exact hverified
    next => exact .respond trivial
  | challenge body =>
    simp only [handle, challenge]
    split
    next => exact .respond trivial
    next => exact (Grows.with_auth _).trans (.respond trivial)
  | authenticate body =>
    simp only [handle, authenticate]
    split
    next address challenge signature haddress hchallenge hsignature =>
      refine .await ?_
      rw [accountOf, Option.bind_some]
      cases address.text? with
      | none => exact Or.inl rfl
      | some text => exact Or.inr rfl
    next => exact .respond trivial
  | uploadKeys | countKeys | fetchMessages =>
    simp only [handle, uploadKeys, countKeys, fetchMessages]
    split
    next => exact (Grows.with_auth _).trans (.respond trivial)
    next =>
      refine (Grows.with_auth _).trans (.await ?_)
      first
        | exact rfl
        | exact trivial
  | sendMessage body =>
    simp only [handle, sendMessage]
    have hallowed : Grows crypto js relay (relay.allow ip now).2 := .of_eq rfl rfl rfl
    split
    next => exact hallowed.trans (.respond trivial)
    next =>
      split
      next => exact hallowed.trans (.respond trivial)
      next => exact hallowed.trans (.respond trivial)
      next => exact hallowed.trans (.respond trivial)
      next => exact hallowed.trans (.submit _ _ _)
  | acknowledge authorization body =>
    simp only [handle, acknowledge]
    split
    next => exact (Grows.with_auth _).trans (.respond trivial)
    next =>
      split
      next =>
        refine (Grows.of_eq ?_ ?_ ?_).trans (.await trivial)
        · exact directory_acknowledge
        · rfl
        · rfl
      next => exact (Grows.with_auth _).trans (.respond trivial)

theorem onMessage_grows (parsed : Option Json) : Grows crypto js relay (relay.onMessage js connection parsed now) := by
  rcases onMessage_cases parsed with
    ⟨_, failure, hthrows⟩ | ⟨_, hserved⟩
  · rw [hthrows]
    exact .emit trivial
  · revert hserved
    generalize relay.onMessage js connection parsed now = next
    intro hserved
    cases hserved with
    | refused => exact (Grows.with_auth _).trans (.send _)
    | authenticated asked resolved =>
      simp only [socketAuthenticate, resolved]
      refine ((Grows.of_eq ?_ ?_ ?_).trans (.send _)).trans (.await trivial)
      · rfl
      · rfl
      · rfl
    | ponged => exact .send _
    | submitted => exact .submit _ _ _
    | acknowledged => exact .of_eq directory_acknowledge rfl rfl

theorem onClose_grows : Grows crypto js relay (relay.onClose connection) := by
  simp only [onClose]
  repeat' split
  all_goals exact .of_eq rfl rfl rfl

theorem resumeRequest_grows (request : Request) {handler : Handler} (quiet : handler.trades = false) (random : Bytes) :
    Grows crypto js relay (relay.resumeRequest crypto js request handler random now) := by
  cases handler with
  | registering address existing body =>
    cases existing with
    | some place => exact .respond trivial
    | none => cases quiet
  | fetchingKeys account =>
    cases account with
    | none => exact .respond trivial
    | some place => cases quiet
  | takingKeys | uploading => cases quiet
  | uploaded result =>
    cases result with
    | error e => exact .respond trivial
    | ok _ => exact .respond trivial
  | registered | fetching | acknowledged => exact .respond trivial
  | submitting | enqueued | draining => exact .of_eq rfl rfl rfl
  | authenticating place address challenge signature =>
    simp only [resumeRequest]
    split
    next => exact .respond trivial
    next =>
      split
      next => exact (Grows.with_auth _).trans (.respond trivial)
      next => exact (Grows.with_auth _).trans (.respond trivial)
  | counting place =>
    simp only [resumeRequest]
    split
    next => exact .respond trivial
    next => exact .respond trivial

theorem resume_grows (origin : Origin) {handler : Handler} (quiet : handler.trades = false) (random : Bytes) :
    Grows crypto js relay (relay.resume crypto js origin handler random now) := by
  unfold resume
  split
  next =>
    split
    next =>
      refine (Grows.of_eq ?_ ?_ ?_).trans (.await trivial)
      · rfl
      · rfl
      · rfl
    next => exact .accept _
  next => exact (Grows.foldl_send _ id _).trans (.accept _)
  next => exact .foldl_send _ (fun _ => _) _
  next => exact resumeRequest_grows _ quiet random
  next => exact .of_eq rfl rfl rfl

theorem resume_socket {handler : Handler} (trades : handler.trades = true) (random : Bytes) :
    relay.resume crypto js (.socket connection) handler random now = relay := by
  cases handler with
  | registering | fetchingKeys | takingKeys | uploading => rfl
  | registered | authenticating | uploaded | counting | submitting | enqueued | fetching | acknowledged | draining =>
    cases trades

theorem resume_request {handler : Handler} (trades : handler.trades = true) (request : Request) (random : Bytes) :
    relay.resume crypto js (.request request) handler random now =
      relay.resumeRequest crypto js request handler random now := by
  cases handler with
  | registering | fetchingKeys | takingKeys | uploading => rfl
  | registered | authenticating | uploaded | counting | submitting | enqueued | fetching | acknowledged | draining =>
    cases trades

end

/-- The relay without the handler at an index, and with another store. -/
def without (index : Nat) (store : RelayStore) (relay : Relay) : Relay :=
  { relay with store, waiting := relay.waiting.eraseIdx index }

/-- What a move does to the accounts, the handlers that wait and the bundles that are let out. -/
inductive Performs {K : Type} (crypto : Cryptography K) (js : NumberText) (relay : Relay) : RelayMove → Relay → Prop
  | grows {move : RelayMove} {next : Relay} (h : Grows crypto js relay next) : Performs crypto js relay move next
  | create {index : Nat} {random : Bytes} {now : Int} {request : Request} {address : String} {body : Json}
      (found : relay.waiting[index]? = some (.request request, .registering address none body)) :
      Performs crypto js relay (.resume index random now)
        ((relay.without index (relay.store.createAccount (accountRecord address body))).await (.request request)
          (.registered address))
  | take {index : Nat} {random : Bytes} {now : Int} {request : Request} {place : Nat} {account : AccountRecord}
      (found : relay.waiting[index]? = some (.request request, .fetchingKeys (some place)))
      (record : relay.store.records[place]? = some account) :
      Performs crypto js relay (.resume index random now)
        ((relay.without index (relay.store.takeOneTimePreKeys account.address).1).await (.request request)
          (.takingKeys place (relay.store.takeOneTimePreKeys account.address).2))
  | handOut {index : Nat} {random : Bytes} {now : Int} {request : Request} {place : Nat} {account : AccountRecord}
      {oneTimePreKey oneTimeKemPreKey : Option Json}
      (found : relay.waiting[index]? = some (.request request, .takingKeys place (.ok (oneTimePreKey, oneTimeKemPreKey))))
      (record : relay.store.records[place]? = some account) :
      Performs crypto js relay (.resume index random now)
        ((relay.without index relay.store).respond request
          (.bundle account.identity account.signedPreKey account.signedKemPreKey
            (oneTimePreKey.filter (fun key => Json.truthy (some key)))
            (oneTimeKemPreKey.filter (fun key => Json.truthy (some key)))))
  | update {index : Nat} {random : Bytes} {now : Int} {request : Request} {address : String} {place : Nat} {body : Json}
      {account : AccountRecord} {verified : String × PublicIdentity}
      (found : relay.waiting[index]? = some (.request request, .uploading address (some place) body))
      (record : relay.store.records[place]? = some account)
      (verifies : verifyPublishedPreKeys crypto js (claimed account body) = .ok (.ok verified)) :
      Performs crypto js relay (.resume index random now)
        ((relay.without index (relay.store.updatePreKeys address (uploaded body)).1).await (.request request)
          (.uploaded (relay.store.updatePreKeys address (uploaded body)).2))

section

variable {K : Type} {crypto : Cryptography K} {js : NumberText} {relay : Relay}

theorem without_grows (index : Nat) : Grows crypto js relay (relay.without index relay.store) := .erase index

theorem performs_upload {index : Nat} {random : Bytes} {now : Int} {request : Request} {address : String} {place : Nat}
    {body : Json} {account : AccountRecord}
    (found : relay.waiting[index]? = some (.request request, .uploading address (some place) body))
    (record : relay.store.records[place]? = some account) :
    Performs crypto js relay (.resume index random now)
      ((relay.without index relay.store).upload crypto js request address account body) := by
  unfold upload
  dsimp only
  split
  next => exact .grows ((without_grows index).trans (.respond trivial))
  next => exact .grows ((without_grows index).trans (.respond trivial))
  next verified hverifies => exact .update found record hverifies

theorem performs_resume {index : Nat} {random : Bytes} {now : Int} {request : Request} {handler : Handler}
    (found : relay.waiting[index]? = some (.request request, handler)) (trades : handler.trades = true) :
    Performs crypto js relay (.resume index random now)
      ((relay.without index relay.store).resumeRequest crypto js request handler random now) := by
  have haccount (place : Option Nat) : (relay.without index relay.store).account place = relay.account place := rfl
  cases handler with
  | registering address existing body =>
    cases existing with
    | some place => cases trades
    | none => exact .create found
  | fetchingKeys account =>
    cases account with
    | none => cases trades
    | some place =>
      simp only [resumeRequest, haccount]
      cases hrecord : relay.account (some place) with
      | none => exact .grows ((without_grows index).trans (.respond trivial))
      | some account => exact .take found hrecord
  | takingKeys place taken =>
    simp only [resumeRequest, haccount]
    cases taken with
    | error e => exact .grows ((without_grows index).trans (.respond trivial))
    | ok keys =>
      obtain ⟨oneTimePreKey, oneTimeKemPreKey⟩ := keys
      cases hrecord : relay.account (some place) with
      | none => exact .grows (without_grows index)
      | some account => exact .handOut found hrecord
  | uploading address place body =>
    simp only [resumeRequest, haccount]
    cases place with
    | none => exact .grows ((without_grows index).trans (.respond trivial))
    | some place =>
      cases hrecord : relay.account (some place) with
      | none => exact .grows ((without_grows index).trans (.respond trivial))
      | some account => exact performs_upload found hrecord
  | registered | authenticating | uploaded | counting | submitting | enqueued | fetching | acknowledged | draining =>
    cases trades

/-- A handler that goes on without one-time prekeys. -/
theorem perform_grows {index : Nat} {random : Bytes} {now : Int}
    (quiet : (relay.waiting[index]?).all (fun item => !item.2.trades) = true) :
    Grows crypto js relay (relay.perform crypto js (.resume index random now)) := by
  simp only [Relay.perform]
  split
  next => exact .of_eq rfl rfl rfl
  next origin handler hfound =>
    rw [hfound] at quiet
    exact (Grows.erase index).trans (resume_grows origin (by simpa using quiet) random)

theorem perform_performs (move : RelayMove) : Performs crypto js relay move (relay.perform crypto js move) := by
  cases move with
  | request ip request random now => exact .grows (handle_grows ip request random)
  | connect => exact .grows (.of_eq rfl rfl rfl)
  | message connection parsed now => exact .grows (onMessage_grows parsed)
  | close connection => exact .grows onClose_grows
  | housekeeping => exact .grows (.of_eq rfl rfl rfl)
  | resume index random now =>
    simp only [Relay.perform]
    split
    next => exact .grows (.of_eq rfl rfl rfl)
    next origin handler hfound =>
      show Performs crypto js relay (.resume index random now)
        ((relay.without index relay.store).resume crypto js origin handler random now)
      cases htrades : handler.trades with
      | false => exact .grows ((without_grows index).trans (resume_grows origin htrades random))
      | true =>
        cases origin with
        | socket connection =>
          rw [resume_socket htrades]
          exact .grows (without_grows index)
        | request request =>
          rw [resume_request htrades]
          exact performs_resume hfound htrades

end

section

variable {K : Type} {crypto : Cryptography K} {js : NumberText}

/-- Why an upload is taken. -/
theorem verifyPublishedPreKeys_eq_ok {keys : PublishedKeys} {address : String} {identity : PublicIdentity}
    (h : verifyPublishedPreKeys crypto js keys = .ok (.ok (address, identity))) :
    ∃ wire signedPreKey signedKemPreKey oneTime oneTimeKem, keys.identity = some wire ∧ decodeIdentity js wire = .ok identity ∧
      keys.signedPreKey.filter (fun key => Json.truthy (some key)) = some signedPreKey ∧
      keys.signedKemPreKey.filter (fun key => Json.truthy (some key)) = some signedKemPreKey ∧
      verifyPublishedBundle crypto js identity signedPreKey signedKemPreKey = .ok () ∧
      (orElse keys.oneTimePreKeys (.arr [])).elements = .ok oneTime ∧ oneTime.findSome? oneTimeError = none ∧
      (orElse keys.oneTimeKemPreKeys (.arr [])).elements = .ok oneTimeKem ∧ oneTimeKem.findSome? oneTimeError = none ∧
      addressOf crypto identity.signingPublicKey = .ok address := by
  unfold verifyPublishedPreKeys at h
  cases hwire : keys.identity with
  | none => simp only [hwire, Option.elim_none, Except.ok.injEq, reduceCtorEq] at h
  | some wire =>
    simp only [hwire, Option.elim_some] at h
    cases hdecoded : decodeIdentity js wire with
    | error e => simp only [hdecoded, Except.ok.injEq, reduceCtorEq] at h
    | ok decoded =>
      simp only [hdecoded] at h
      split at h
      next signedPreKey signedKemPreKey hsigned hkem =>
        split at h
        next => simp only [Except.ok.injEq, reduceCtorEq] at h
        next hbundle =>
          obtain ⟨oneTime, honeTime, h⟩ := Outcome.bind_eq_ok_iff.mp h
          split at h
          next => cases Outcome.pure_eq_ok_iff.mp h
          next hwell =>
            obtain ⟨oneTimeKem, honeTimeKem, h⟩ := Outcome.bind_eq_ok_iff.mp h
            split at h
            next => cases Outcome.pure_eq_ok_iff.mp h
            next hwellKem =>
              obtain ⟨address', haddress, h⟩ := Outcome.bind_eq_ok_iff.mp h
              obtain ⟨rfl, rfl⟩ := Prod.mk.inj (Except.ok.inj (Outcome.pure_eq_ok_iff.mp h))
              exact ⟨wire, signedPreKey, signedKemPreKey, oneTime, oneTimeKem, rfl, hdecoded, hsigned, hkem, hbundle, honeTime, hwell,
                honeTimeKem, hwellKem, haddress⟩
      next => simp only [Except.ok.injEq, reduceCtorEq] at h

end

end Relay

namespace RelayStore

variable {store : RelayStore} {address : String}

/-- Whose record stands at each place. -/
def identities (store : RelayStore) : List (String × Json) := store.records.map fun account => (account.address, account.identity)

theorem identities_modifyAccount {f : AccountRecord → AccountRecord}
    (keeps : ∀ account, ((f account).address, (f account).identity) = (account.address, account.identity)) :
    (store.modifyAccount address f).identities = store.identities := by
  unfold identities modifyAccount
  cases store.getAccount address with
  | none => rfl
  | some place =>
    apply List.ext_getElem?
    intro i
    simp only [Option.elim_some, List.getElem?_map, List.getElem?_modify]
    cases store.records[i]? with
    | none => rfl
    | some account =>
      simp only [Option.map_eq_map, Option.map_some, Option.some.injEq]
      split
      next => exact keeps account
      next => rfl

theorem identities_takeOneTimePreKeys : (store.takeOneTimePreKeys address).1.identities = store.identities := by
  unfold takeOneTimePreKeys
  repeat' split
  · rfl
  · rfl
  · exact identities_modifyAccount fun _ => rfl
  · dsimp only
    rw [identities_modifyAccount, identities_modifyAccount]
    all_goals exact fun _ => rfl

theorem identities_updatePreKeys {update : PreKeyUpdate} :
    (store.updatePreKeys address update).1.identities = store.identities := by
  simp only [updatePreKeys]
  repeat' split
  · rfl
  · exact identities_modifyAccount fun _ => rfl
  · dsimp only
    rw [identities_modifyAccount, identities_modifyAccount]
    all_goals exact fun _ => rfl
  · dsimp only
    rw [identities_modifyAccount, identities_modifyAccount, identities_modifyAccount]
    all_goals exact fun _ => rfl

theorem identities_createAccount {record : AccountRecord} :
    (store.createAccount record).identities = store.identities ++ [(record.address, record.identity)] := List.map_append

theorem accounts_eq {changed : RelayStore} (h : Modified address store changed) : changed.accounts = store.accounts := by
  induction h with
  | same => rfl
  | modify _ _ ih => exact ih

theorem addressAt_eq {place : Nat} : store.addressAt place = store.identities[place]?.map Prod.fst := by
  rw [addressAt, identities, List.getElem?_map, Option.map_map]
  rfl

theorem addressAt_createAccount {record : AccountRecord} {place : Nat} {other : String}
    (h : store.addressAt place = some other) : (store.createAccount record).addressAt place = some other := by
  rw [addressAt_eq] at h ⊢
  obtain ⟨named, hnamed, _⟩ := Option.map_eq_some_iff.mp h
  have hlt : place < store.identities.length := (List.getElem?_eq_some_iff.mp hnamed).1
  rw [identities_createAccount, List.getElem?_append_left hlt]
  exact h

end RelayStore

namespace Relay

/-- A record stays at its place. -/
theorem addressAt_perform {K : Type} {crypto : Cryptography K} {js : NumberText} {relay : Relay} {move : RelayMove} {place : Nat}
    {other : String} (h : relay.store.addressAt place = some other) :
    (relay.perform crypto js move).store.addressAt place = some other := by
  have hperforms := @perform_performs _ crypto js relay move
  revert hperforms
  generalize relay.perform crypto js move = next
  intro hperforms
  cases hperforms with
  | grows hgrows =>
    have hrecords : next.store.records = relay.store.records := congrArg Prod.fst hgrows.directory
    rw [RelayStore.addressAt, hrecords]
    exact h
  | create found => exact RelayStore.addressAt_createAccount h
  | take found record => exact RelayStore.modified_takeOneTimePreKeys.addressAt.trans h
  | handOut found record => exact h
  | update found record verifies => exact RelayStore.modified_updatePreKeys.addressAt.trans h

/-- A record's identity can be read, and its address is that of the identity. -/
def Identified {K : Type} (crypto : Cryptography K) (js : NumberText) (named : String × Json) : Prop :=
  ∃ identity, decodeIdentity js named.2 = .ok identity ∧ addressOf crypto identity.signingPublicKey = .ok named.1

/-- Accounts are where they are looked up and hold the identity their address comes from, and so will those whose
registration waits; an authentication waits with the account of its address. -/
structure Filed {K : Type} (crypto : Cryptography K) (js : NumberText) (relay : Relay) : Prop where
  placed : ∀ address place, relay.store.getAccount address = some place → relay.store.addressAt place = some address
  identified : ∀ named ∈ relay.store.identities, Identified crypto js named
  registering : ∀ origin address existing body, (origin, Handler.registering address existing body) ∈ relay.waiting →
    ∃ identity, verifyPublishedPreKeys crypto js (published body) = .ok (.ok (address, identity))
  authenticating : ∀ origin place address challenge signature,
    (origin, Handler.authenticating (some place) address challenge signature) ∈ relay.waiting →
      relay.store.addressAt place = some address

section

variable {K : Type} {crypto : Cryptography K} {js : NumberText} {relay next : Relay}

theorem Filed.start (h : Start relay) : Filed crypto js relay := by
  obtain ⟨limit, rfl⟩ := h
  exact ⟨nofun, nofun, nofun, nofun⟩

theorem accountRecord_identified {body : Json} {address : String} {identity : PublicIdentity}
    (h : verifyPublishedPreKeys crypto js (published body) = .ok (.ok (address, identity))) :
    Identified crypto js ((accountRecord address body).address, (accountRecord address body).identity) := by
  obtain ⟨wire, _, _, _, _, hwire, hdecoded, _, _, _, _, _, _, _, haddress⟩ := verifyPublishedPreKeys_eq_ok h
  refine ⟨identity, ?_, haddress⟩
  have hfield : body.field "identity" = some wire := hwire
  rw [accountRecord, hfield]
  exact hdecoded

/-- Whose records there are stays, and the handlers that wait were there or open as they should. -/
theorem Filed.keep (h : Filed crypto js relay) (identities : next.store.identities = relay.store.identities)
    (accounts : next.store.accounts = relay.store.accounts)
    (waiting : ∀ item ∈ next.waiting, item ∈ relay.waiting ∨ Opens crypto js relay item ∨
      (∀ address existing body, item.2 ≠ .registering address existing body) ∧
        ∀ place address challenge signature, item.2 ≠ .authenticating place address challenge signature) :
    Filed crypto js next := by
  have hat (place : Nat) : next.store.addressAt place = relay.store.addressAt place := by
    rw [RelayStore.addressAt_eq, identities, RelayStore.addressAt_eq]
  refine ⟨fun address place hplace => ?_, ?_, fun origin address existing body hmem => ?_,
    fun origin place address challenge signature hmem => ?_⟩
  · rw [hat]
    rw [RelayStore.getAccount, accounts] at hplace
    exact h.placed address place hplace
  · rw [identities]
    exact h.identified
  · rcases waiting _ hmem with hmem | ⟨_, hverified⟩ | ⟨hother, _⟩
    · exact h.registering origin address existing body hmem
    · exact hverified
    · exact absurd rfl (hother _ _ _)
  · rw [hat]
    rcases waiting _ hmem with hmem | hopens | ⟨_, hother⟩
    · exact h.authenticating origin place address challenge signature hmem
    · rcases hopens with hnone | hplace
      · cases hnone
      · exact h.placed address place hplace.symm
    · exact absurd rfl (hother _ _ _ _)

/-- A handler has gone on and another begins to wait. -/
theorem mem_without {index : Nat} {store : RelayStore} {origin : Origin} {handler : Handler} {item : Origin × Handler}
    (hmem : item ∈ ((relay.without index store).await origin handler).waiting) : item ∈ relay.waiting ∨ item = (origin, handler) :=
  (List.mem_append.mp hmem).imp List.mem_of_mem_eraseIdx List.mem_singleton.mp

theorem Filed.create (h : Filed crypto js relay) {index : Nat} {request : Request} {address : String} {body : Json}
    (found : relay.waiting[index]? = some (.request request, .registering address none body)) :
    Filed crypto js ((relay.without index (relay.store.createAccount (accountRecord address body))).await (.request request)
      (.registered address)) := by
  obtain ⟨identity, hverified⟩ := h.registering _ _ _ _ (List.mem_of_getElem? found)
  have hold : ∀ place other, relay.store.addressAt place = some other →
      (relay.store.createAccount (accountRecord address body)).addressAt place = some other :=
    fun place other hother => RelayStore.addressAt_createAccount hother
  refine ⟨fun other place hplace => ?_, fun named hmem => ?_, fun origin other existing body' hmem => ?_,
    fun origin place other challenge signature hmem => ?_⟩
  · have hset : (relay.store.accounts.set address relay.store.records.length).get? other = some place := hplace
    rw [OrderedMap.get?_set] at hset
    split at hset
    next heq =>
      obtain rfl := Option.some.inj hset
      show ((relay.store.records ++ [accountRecord address body])[relay.store.records.length]?).map AccountRecord.address = some other
      rw [List.getElem?_concat_length, heq]
      rfl
    next => exact hold place other (h.placed other place hset)
  · have hmem : named ∈ (relay.store.createAccount (accountRecord address body)).identities := hmem
    rw [RelayStore.identities_createAccount] at hmem
    rcases List.mem_append.mp hmem with hmem | hmem
    · exact h.identified named hmem
    · rw [List.mem_singleton.mp hmem]
      exact accountRecord_identified hverified
  · rcases mem_without hmem with hmem | heq
    · exact h.registering origin other existing body' hmem
    · cases heq
  · rcases mem_without hmem with hmem | heq
    · exact hold place other (h.authenticating origin place other challenge signature hmem)
    · cases heq

theorem Filed.perform (h : Filed crypto js relay) (move : RelayMove) : Filed crypto js (relay.perform crypto js move) := by
  have hperforms := @perform_performs _ crypto js relay move
  revert hperforms
  generalize relay.perform crypto js move = next
  intro hperforms
  cases hperforms with
  | grows hgrows =>
    obtain ⟨hrecords, haccounts⟩ := Prod.mk.inj hgrows.directory
    refine h.keep (congrArg (List.map _) hrecords) haccounts fun item hmem => ?_
    obtain ⟨kept, begun, hwaiting, hkept, hopens⟩ := hgrows.waiting
    rw [hwaiting] at hmem
    rcases List.mem_append.mp hmem with hmem | hmem
    · exact Or.inl (hkept.subset hmem)
    · exact Or.inr (Or.inl (hopens item hmem))
  | create found => exact h.create found
  | take found record =>
    refine h.keep RelayStore.identities_takeOneTimePreKeys (RelayStore.accounts_eq RelayStore.modified_takeOneTimePreKeys)
      fun item hmem => ?_
    rcases mem_without hmem with hmem | rfl
    · exact Or.inl hmem
    · exact Or.inr (Or.inr ⟨nofun, nofun⟩)
  | handOut found record => exact h.keep rfl rfl fun item hmem => Or.inl (List.mem_of_mem_eraseIdx hmem)
  | update found record verifies =>
    refine h.keep RelayStore.identities_updatePreKeys (RelayStore.accounts_eq RelayStore.modified_updatePreKeys)
      fun item hmem => ?_
    rcases mem_without hmem with hmem | rfl
    · exact Or.inl hmem
    · exact Or.inr (Or.inr ⟨nofun, nofun⟩)

end

end Relay

end Veil
