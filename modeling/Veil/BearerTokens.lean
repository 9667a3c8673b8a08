import Veil.AuthHistory
import Veil.PreKeyPools

namespace Veil

namespace Relay

/-- The call of the authentication service that a move makes. -/
def authCall (relay : Relay) : RelayMove → Option AuthCall
  | .request _ (.challenge body) random now =>
    ((body.bind (Json.field "address")).filter (fun address => Json.truthy (some address))).map
      (fun address => .issueChallenge address random now)
  | .request _ (.uploadKeys authorization _) _ now | .request _ (.countKeys authorization) _ now |
    .request _ (.fetchMessages authorization) _ now | .request _ (.acknowledge authorization _) _ now =>
    (authorization.bind bearer).map (fun token => .resolve (some (.str token)) now)
  | .message _ (some parsed) now =>
    if (parsed.field "type").bind Json.text? = some "authenticate" then some (.resolve (parsed.field "token") now) else none
  | .resume index random now =>
    match relay.waiting[index]? with
    | some (.request _, .authenticating place address challenge signature) =>
      (relay.account place).map (fun account =>
        .authenticate address challenge (some signature) (account.identity.field "signingPublicKey") random now)
    | _ => none
  | .housekeeping now => some (.prune now)
  | _ => none

section

variable {K : Type} {crypto : Cryptography K} {js : NumberText} {relay : Relay} {connection : Nat} {now : Int}

@[simp] theorem auth_send (message : ServerSocketMessage) : (relay.send connection message).auth = relay.auth := by
  unfold send
  split <;> rfl

@[simp] theorem auth_accept (origin : Origin) : (relay.accept origin).auth = relay.auth := by
  cases origin with
  | request => rfl
  | socket => exact auth_send _

theorem auth_foldl_send {α : Type} (items : List α) (connection : α → Nat) (message : α → ServerSocketMessage) :
    (items.foldl (fun relay item => relay.send (connection item) (message item)) relay).auth = relay.auth := by
  induction items generalizing relay with
  | nil => rfl
  | cons item items ih =>
    rw [List.foldl_cons, ih]
    exact auth_send _

/-- The service after a call, if there is one. -/
def called (crypto : Cryptography K) (js : NumberText) (auth : AuthService) (call : Option AuthCall) : AuthService :=
  call.elim auth (fun call => (auth.call crypto js call).1)

theorem requireAuth_fst (authorization : Option String) : (relay.requireAuth authorization now).1 =
    called crypto js relay.auth ((authorization.bind bearer).map (fun token => .resolve (some (.str token)) now)) := by
  unfold requireAuth called
  cases authorization.bind bearer <;> rfl

theorem handle_auth (ip : String) (request : Request) (random : Bytes) :
    (relay.handle crypto js ip request random now).auth =
      called crypto js relay.auth (relay.authCall (.request ip request random now)) := by
  cases request with
  | register body =>
    simp only [handle, register]
    repeat' split
    all_goals rfl
  | challenge body =>
    simp only [handle, challenge, authCall]
    split
    next hnone =>
      rw [hnone]
      rfl
    next address haddress =>
      rw [haddress]
      rfl
  | authenticate body =>
    simp only [handle, authenticate]
    split <;> rfl
  | fetchKeys => rfl
  | uploadKeys authorization | countKeys authorization | fetchMessages authorization =>
    simp only [handle, uploadKeys, countKeys, fetchMessages]
    split <;> exact requireAuth_fst authorization
  | sendMessage body =>
    simp only [handle, sendMessage]
    repeat' split
    all_goals rfl
  | acknowledge authorization body =>
    simp only [handle, acknowledge]
    repeat' split
    all_goals exact requireAuth_fst authorization

theorem onMessage_auth (parsed : Option Json) : (relay.onMessage js connection parsed now).auth =
    called crypto js relay.auth (relay.authCall (.message connection parsed now)) := by
  cases parsed with
  | none => exact auth_send _
  | some value =>
    by_cases hauthenticate : (value.field "type").bind Json.text? = some "authenticate"
    · have hcall : relay.authCall (.message connection (some value) now) = some (.resolve (value.field "token") now) :=
        if_pos hauthenticate
      rw [hcall, onMessage_authenticate hauthenticate, socketAuthenticate]
      dsimp only
      split
      next => exact auth_send _
      next => exact auth_send _
    · have hcall : relay.authCall (.message connection (some value) now) = none := if_neg hauthenticate
      rw [hcall]
      unfold onMessage
      split
      next heq => cases heq
      next => rfl
      next parsed _ heq =>
        obtain rfl := Option.some.inj heq
        split
        next heq => exact absurd heq hauthenticate
        next => exact auth_send _
        next =>
          unfold socketSend
          repeat' split
          all_goals first
            | exact auth_send _
            | rfl
        next =>
          unfold socketAcknowledge
          repeat' split
          all_goals first
            | exact auth_send _
            | rfl
        next => exact auth_send _

theorem resumeRequest_auth (request : Request) (handler : Handler) (random : Bytes)
    (other : ∀ place address challenge signature, handler ≠ .authenticating place address challenge signature) :
    (relay.resumeRequest crypto js request handler random now).auth = relay.auth := by
  cases handler with
  | authenticating place address challenge signature => exact absurd rfl (other _ _ _ _)
  | registering address existing => cases existing <;> rfl
  | uploaded result => cases result <;> rfl
  | uploading address place body =>
    simp only [resumeRequest, upload]
    repeat' split
    all_goals rfl
  | fetchingKeys | takingKeys | counting =>
    simp only [resumeRequest]
    repeat' split
    all_goals rfl
  | registered | submitting | enqueued | fetching | acknowledged | draining => rfl

theorem resume_auth (origin : Origin) (handler : Handler) (random : Bytes)
    (other : ∀ request place address challenge signature,
      (origin, handler) ≠ (.request request, .authenticating place address challenge signature)) :
    (relay.resume crypto js origin handler random now).auth = relay.auth := by
  unfold resume
  split
  next =>
    split
    next => rfl
    next => exact auth_accept _
  next => exact (auth_accept _).trans (auth_foldl_send _ id _)
  next => exact auth_foldl_send _ (fun _ => _) _
  next request _ _ => exact resumeRequest_auth request handler random fun _ _ _ _ heq => other request _ _ _ _ (by rw [heq])
  next => rfl

/-- The authentication service of the relay is changed by the calls of its routes and of nothing else. -/
theorem perform_auth (move : RelayMove) :
    (relay.perform crypto js move).auth = called crypto js relay.auth (relay.authCall move) := by
  cases move with
  | request ip request random now => exact handle_auth ip request random
  | connect => rfl
  | message connection parsed now => exact onMessage_auth parsed
  | close connection =>
    simp only [perform, onClose]
    repeat' split
    all_goals rfl
  | housekeeping => rfl
  | resume index random now =>
    simp only [perform, authCall]
    cases hfound : relay.waiting[index]? with
    | none => rfl
    | some item =>
      obtain ⟨origin, handler⟩ := item
      dsimp only
      split
      next request place address challenge signature heq =>
        obtain ⟨rfl, rfl⟩ := Prod.mk.inj (Option.some.inj heq)
        have haccount : ({ relay with waiting := relay.waiting.eraseIdx index } : Relay).account place = relay.account place :=
          rfl
        show (resumeRequest crypto js request (.authenticating place address challenge signature) random now _).auth = _
        simp only [resumeRequest, haccount]
        cases relay.account place with
        | none => rfl
        | some account =>
          dsimp only
          split <;> rfl
      next hother =>
        refine resume_auth origin handler random fun request place address challenge signature heq => ?_
        exact hother request place address challenge signature (congrArg some heq)

theorem unrepeated_resume {log : List AuthEvent} {index : Nat} {random : Bytes} {call : AuthCall}
    (h : relay.authCall (.resume index random now) = some call) : Unrepeated log call := by
  simp only [authCall] at h
  split at h
  next =>
    obtain ⟨_, _, rfl⟩ := Option.map_eq_some_iff.mp h
    trivial
  next => cases h

/-- `authenticate` is called when a handler that waits with an account goes on. -/
theorem authCall_authenticate {move : RelayMove} {address : String} {challenge : Json}
    {signature signingPublicKey : Option Json} {random : Bytes}
    (h : relay.authCall move = some (.authenticate address challenge signature signingPublicKey random now)) :
    ∃ index request place account given, move = .resume index random now ∧ signature = some given ∧
      relay.waiting[index]? = some (.request request, .authenticating (some place) address challenge given) ∧
      relay.store.records[place]? = some account ∧ signingPublicKey = account.identity.field "signingPublicKey" := by
  cases move with
  | resume index random' now' =>
    simp only [authCall] at h
    split at h
    next request place address' challenge' signature' hfound =>
      obtain ⟨account, haccount, heq⟩ := Option.map_eq_some_iff.mp h
      obtain ⟨rfl, rfl, rfl, rfl, rfl, rfl⟩ := AuthCall.authenticate.inj heq
      obtain ⟨place, rfl, hrecord⟩ := Option.bind_eq_some_iff.mp haccount
      exact ⟨index, request, place, account, _, rfl, rfl, hfound, hrecord, rfl⟩
    next => cases h
  | request ip request random' now' =>
    cases request with
    | challenge | uploadKeys | countKeys | fetchMessages | acknowledge =>
      obtain ⟨_, _, heq⟩ := Option.map_eq_some_iff.mp h
      cases heq
    | register | authenticate | fetchKeys | sendMessage => cases h
  | message connection parsed now' =>
    cases parsed with
    | none => cases h
    | some parsed =>
      simp only [authCall] at h
      split at h
      next => cases h
      next => cases h
  | connect | close | housekeeping => cases h

/-- A call of `authenticate` is made with the signing key of the account of the address. -/
theorem authCall_registered (h : Filed crypto js relay) {move : RelayMove} {address : String} {challenge : Json}
    {signature signingPublicKey : Option Json} {random : Bytes}
    (hcall : relay.authCall move = some (.authenticate address challenge signature signingPublicKey random now))
    {publicKey : Bytes} (hkey : bytesOf js signingPublicKey = .ok publicKey) :
    RegisteredKey crypto js relay.store.records address publicKey := by
  obtain ⟨index, request, place, account, given, _, _, hfound, hrecord, rfl⟩ := authCall_authenticate hcall
  have hat := h.authenticating _ _ _ _ _ (List.mem_of_getElem? hfound)
  rw [RelayStore.addressAt, hrecord] at hat
  have haddress : account.address = address := Option.some.inj hat
  have hmem : account ∈ relay.store.records := List.mem_of_getElem? hrecord
  obtain ⟨identity, hdecoded, hof⟩ := h.identified (account.address, account.identity) (List.mem_map_of_mem hmem)
  obtain ⟨signing, hsigning, hrest⟩ := Outcome.bind_eq_ok_iff.mp hdecoded
  obtain ⟨exchange, _, hrest⟩ := Outcome.bind_eq_ok_iff.mp hrest
  obtain ⟨binding, _, hrest⟩ := Outcome.bind_eq_ok_iff.mp hrest
  obtain rfl := Outcome.pure_eq_ok_iff.mp hrest
  obtain rfl := Except.ok.inj (hkey.symm.trans hsigning)
  exact ⟨account, hmem, haddress, _, hdecoded, rfl, haddress ▸ hof⟩

end

end Relay

/-- A relay with the calls of its authentication service so far. -/
structure AuthHistory where
  relay : Relay
  log : List AuthEvent := []

namespace AuthHistory

section

variable {K : Type} (crypto : Cryptography K) (js : NumberText)

/-- A call is recorded with what it returns. -/
def events (history : AuthHistory) (call : Option AuthCall) : List AuthEvent :=
  call.toList.map (fun call => ⟨history.relay.store.records, call, (history.relay.auth.call crypto js call).2⟩)

def perform (history : AuthHistory) (move : RelayMove) : AuthHistory where
  relay := history.relay.perform crypto js move
  log := history.log ++ history.events crypto js (history.relay.authCall move)

/-- `revoke` of the relay's service. -/
def revoke (history : AuthHistory) (token : String) : AuthHistory where
  relay := { history.relay with auth := history.relay.auth.revoke token }
  log := history.log ++ history.events crypto js (some (.revoke token))

/-- A move of the relay whose draws are not repetitions, or a token is revoked. -/
inductive Step : AuthHistory → AuthHistory → Prop
  | perform {history : AuthHistory} (move : RelayMove) (possible : history.relay.Possible move)
      (unrepeated : ∀ call, history.relay.authCall move = some call → Unrepeated history.log call) :
      Step history (history.perform crypto js move)
  | revoke {history : AuthHistory} (token : String) : Step history (history.revoke crypto js token)

/-- The accounts are in order, and challenges and tokens are backed by the calls so far. -/
structure Safe (history : AuthHistory) : Prop where
  filed : Relay.Filed crypto js history.relay
  backed : Backed crypto js history.relay.auth history.log

end

section

variable {K : Type} {crypto : Cryptography K} {js : NumberText} {history next : AuthHistory}

theorem Safe.perform (h : history.Safe crypto js) {move : RelayMove}
    (unrepeated : ∀ call, history.relay.authCall move = some call → Unrepeated history.log call) :
    (history.perform crypto js move).Safe crypto js := by
  refine ⟨h.filed.perform move, ?_⟩
  show Backed crypto js (history.relay.perform crypto js move).auth _
  rw [Relay.perform_auth]
  unfold AuthHistory.perform events
  cases hcall : history.relay.authCall move with
  | none =>
    have hsame : history.log ++ (Option.toList none).map (fun call => (⟨history.relay.store.records, call,
        (history.relay.auth.call crypto js call).2⟩ : AuthEvent)) = history.log := List.append_nil _
    rw [hsame]
    exact h.backed
  | some call =>
    refine h.backed.call (unrepeated call hcall) fun address challenge signature signingPublicKey random now heq publicKey hkey => ?_
    subst heq
    exact Relay.authCall_registered h.filed hcall hkey

theorem Safe.revoke (h : history.Safe crypto js) (token : String) : (history.revoke crypto js token).Safe crypto js := by
  refine ⟨?_, h.backed.revoke history.relay.store.records token⟩
  exact h.filed.keep rfl rfl fun item hmem => Or.inl hmem

theorem Safe.step (h : history.Safe crypto js) (step : Step crypto js history next) : next.Safe crypto js := by
  cases step with
  | perform move possible unrepeated => exact h.perform unrepeated
  | revoke token => exact h.revoke token

theorem Safe.start {relay : Relay} (h : Relay.Start relay) : (⟨relay, []⟩ : AuthHistory).Safe crypto js := by
  refine ⟨Relay.Filed.start h, ?_⟩
  obtain ⟨limit, rfl⟩ := h
  exact ⟨nofun, nofun⟩

end

/-- A token that resolves to an address was returned by a call of `authenticate` for the address, with a challenge issued for
it, not presented before and not past its time, and with a signature by the account's key; it has not been revoked since, and
is not past its expiry. -/
theorem bearer_granted {K : Type} (crypto : Cryptography K) (js : NumberText) {start : Relay} (hstart : Relay.Start start)
    {history : AuthHistory} (run : Relation.ReflTransGen (Step crypto js) ⟨start, []⟩ history) {token : Option Json} {now : Int}
    {address : String} (resolves : (history.relay.auth.resolve token now).2 = some address) :
    ∃ text expiresAt before event after, token = some (.str text) ∧ history.log = before ++ event :: after ∧
      Grants crypto js before event address text expiresAt ∧ ¬ Revoked after text ∧ now ≤ expiresAt := by
  have hsafe : history.Safe crypto js := Runs.preserved (fun _ _ step h => h.step step) run (Safe.start hstart)
  obtain ⟨text, expiresAt, htoken, hheld, hexpires⟩ := AuthService.resolve_eq_some resolves
  obtain ⟨before, event, after, hlog, hgrants, hkept⟩ := hsafe.backed.tokens text _ hheld
  exact ⟨text, expiresAt, before, event, after, htoken, hlog, hgrants, hkept, hexpires⟩

/-- Bob has an account. -/
def enrolled : AuthHistory := ⟨Relay.listed 1, []⟩

theorem enrolled_run : Relation.ReflTransGen (Step spelled Relay.plainNumbers) ⟨Relay.built 1, []⟩ enrolled := by
  let waiting : Relay := (Relay.built 1).await (.request (.register (some Relay.bobRegistration)))
    (.registering bobAddress none Relay.bobRegistration)
  have hasked : Step spelled Relay.plainNumbers ⟨Relay.built 1, []⟩ ⟨waiting, []⟩ := by
    have hmove := @Step.perform _ spelled Relay.plainNumbers ⟨Relay.built 1, []⟩
      (.request "10.0.0.1" (.register (some Relay.bobRegistration)) [] 0) trivial fun call hcall => by cases hcall
    have heq : (⟨Relay.built 1, []⟩ : AuthHistory).perform spelled Relay.plainNumbers
        (.request "10.0.0.1" (.register (some Relay.bobRegistration)) [] 0) = ⟨waiting, []⟩ :=
      congrArg (fun relay => (⟨relay, []⟩ : AuthHistory)) (Relay.bob_registers (Relay.built 1))
    rwa [heq] at hmove
  have hcreated : Step spelled Relay.plainNumbers ⟨waiting, []⟩ enrolled :=
    .perform (.resume 0 [] 0) Nat.one_pos fun call hcall => by cases hcall
  exact (Relation.ReflTransGen.single hasked).tail hcreated

/-- Bob asks for a challenge and signs it. -/
def bobProof : List RelayMove :=
  [.request "10.0.0.1" (.challenge (some (.obj [("address", .str bobAddress)]))) [5] 0,
    .request "10.0.0.1" (.authenticate (some (.obj [("address", .str bobAddress),
      ("challenge", .str (toBase64Url [5])), ("signature", .str Relay.bobSignature)]))) [] 0, .resume 1 [6] 0]

def granted : AuthHistory := bobProof.foldl (fun history move => history.perform spelled Relay.plainNumbers move) enrolled

theorem granted_run : Relation.ReflTransGen (Step spelled Relay.plainNumbers) ⟨Relay.built 1, []⟩ granted := by
  have hchallenged := @Step.perform _ spelled Relay.plainNumbers enrolled
    (.request "10.0.0.1" (.challenge (some (.obj [("address", .str bobAddress)]))) [5] 0) trivial fun call hcall => by
      obtain rfl := Option.some.inj hcall
      exact fun ⟨_, hmem, _⟩ => absurd hmem List.not_mem_nil
  refine ((enrolled_run.tail hchallenged).tail (.perform (.request "10.0.0.1" (.authenticate (some (.obj
    [("address", .str bobAddress), ("challenge", .str (toBase64Url [5])), ("signature", .str Relay.bobSignature)]))) [] 0)
      trivial fun call hcall => ?_)).tail (.perform (.resume 1 [6] 0) ?_ fun call hcall => Relay.unrepeated_resume hcall)
  · cases hcall
  · show Relay.proving.Possible (.resume 1 [6] 0)
    decide +kernel

/-- Bob's token. -/
theorem bearer_granted_bob : Relation.ReflTransGen (Step spelled Relay.plainNumbers) ⟨Relay.built 1, []⟩ granted ∧
    (granted.relay.auth.resolve (some (.str (toBase64Url [6]))) 0).2 = some bobAddress ∧
    ∃ expiresAt before event after, granted.log = before ++ event :: after ∧
      Grants spelled Relay.plainNumbers before event bobAddress (toBase64Url [6]) expiresAt := by
  have hresolves : (granted.relay.auth.resolve (some (.str (toBase64Url [6]))) 0).2 = some bobAddress := by
    show (Relay.authorized.auth.resolve (some (.str (toBase64Url [6]))) 0).2 = some bobAddress
    decide +kernel
  obtain ⟨text, expiresAt, before, event, after, htext, hlog, hgrants, _⟩ :=
    bearer_granted spelled Relay.plainNumbers ⟨1, rfl⟩ granted_run hresolves
  obtain rfl := Json.str.inj (Option.some.inj htext)
  exact ⟨granted_run, hresolves, expiresAt, before, event, after, hlog, hgrants⟩

end AuthHistory

end Veil
