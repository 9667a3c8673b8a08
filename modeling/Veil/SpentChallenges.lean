import Veil.BearerTokens

namespace Veil

/-- The event is a call of `authenticate` with the challenge that returned a token. -/
def AuthEvent.redeems (challenge : String) (event : AuthEvent) : Bool :=
  match event.call, event.answer with
  | .authenticate _ (.str presented) _ _ _ _, .token (some _) => presented = challenge
  | _, _ => false

section

variable {K : Type} {crypto : Cryptography K} {js : NumberText} {auth : AuthService} {challenge : String}

/-- A challenge that is presented is out no longer, whatever comes of it. -/
theorem AuthService.authenticate_spends (address : String) (signature signingPublicKey : Option Json) (random : Bytes) (now : Int) :
    (auth.authenticate crypto js address (.str challenge) signature signingPublicKey random now).1.challenges.get? challenge =
      none := by
  unfold authenticate
  cases hfound : (Json.text? (.str challenge)).bind auth.challenges.get? with
  | none => exact hfound
  | some issued =>
    dsimp only
    split
    next => exact OrderedMap.get?_delete_self _ _
    next => exact OrderedMap.get?_delete_self _ _

/-- What is not out stays so until it is issued. -/
theorem AuthService.call_unissued (h : auth.challenges.get? challenge = none) {call : AuthCall}
    (other : ∀ address random now, call = .issueChallenge address random now → toBase64Url random ≠ challenge) :
    (auth.call crypto js call).1.challenges.get? challenge = none := by
  cases call with
  | issueChallenge address random now =>
    show (auth.challenges.set (toBase64Url random) _).get? challenge = none
    rw [OrderedMap.get?_set_of_ne _ _ (other address random now rfl).symm]
    exact h
  | authenticate address presented signature signingPublicKey random now =>
    show (auth.authenticate crypto js address presented signature signingPublicKey random now).1.challenges.get? challenge = none
    have hdeleted (key : String) : (auth.challenges.delete key).get? challenge = none := by
      rw [OrderedMap.get?_delete]
      split
      next => rfl
      next => exact h
    unfold authenticate
    split
    next => exact h
    next =>
      dsimp only
      split
      next => exact hdeleted _
      next => exact hdeleted _
  | resolve token now =>
    show (auth.resolve token now).1.challenges.get? challenge = none
    unfold resolve
    repeat' split
    all_goals exact h
  | revoke token => exact h
  | prune now =>
    show (auth.prune now).challenges.get? challenge = none
    cases hkept : (auth.prune now).challenges.get? challenge with
    | none => rfl
    | some issued => exact absurd (get?_foldl_delete hkept) (by rw [h]; exact fun heq => by cases heq)

/-- A call with a challenge that is not out returns no token. -/
theorem AuthService.call_unredeemed (h : auth.challenges.get? challenge = none) (records : List AccountRecord) (call : AuthCall) :
    AuthEvent.redeems challenge ⟨records, call, (auth.call crypto js call).2⟩ = false := by
  cases call with
  | authenticate address presented signature signingPublicKey random now =>
    cases presented with
    | str text =>
      by_cases heq : text = challenge
      · subst heq
        have hnone : (auth.authenticate crypto js address (.str text) signature signingPublicKey random now).2 = none := by
          unfold authenticate
          rw [show (Json.text? (.str text)).bind auth.challenges.get? = none from h]
        simp only [AuthEvent.redeems, AuthService.call, hnone]
      · unfold AuthEvent.redeems
        split
        next hcall _ =>
          obtain ⟨_, heq', _⟩ := AuthCall.authenticate.inj hcall
          obtain rfl := Json.str.inj heq'
          exact decide_eq_false heq
        next => rfl
    | null | bool | num | arr | obj => rfl
  | issueChallenge | resolve | revoke | prune => rfl

end

namespace AuthHistory

section

variable {K : Type} (crypto : Cryptography K) (js : NumberText)

/-- What a request with an address, a challenge and a signature waits with. -/
def attempt (relay : Relay) (address signature : Json) (challenge : String) : Relay.Handler :=
  .authenticating (relay.accountOf (some address)) (address.text?.getD "") (.str challenge) signature

/-- After the request is answered, whatever happens before and after: `Holds` of how it was when it was answered and how it is
later. -/
def Afterwards (relay : Relay) (ip : String) (body address signature : Json) (challenge : String)
    (Holds : AuthHistory → AuthHistory → Prop) : Prop :=
  ∀ random now mid, Relation.ReflTransGen (Step crypto js)
      ((⟨relay, []⟩ : AuthHistory).perform crypto js (.request ip (.authenticate (some body)) random now)) mid →
    ∀ index random' now', mid.relay.waiting[index]? =
        some (.request (.authenticate (some body)), attempt relay address signature challenge) →
      ∀ later, Relation.ReflTransGen (Step crypto js) (mid.perform crypto js (.resume index random' now')) later →
        Holds (mid.perform crypto js (.resume index random' now')) later

/-- No later call with the challenge returns a token. -/
def Unredeemed (challenge : String) (answered later : AuthHistory) : Prop :=
  ∀ event ∈ later.log.drop answered.log.length, event.redeems challenge = false

/-- The challenge is not out, and no later call with it returns a token. -/
def Spent (challenge : String) (answered later : AuthHistory) : Prop :=
  later.relay.auth.challenges.get? challenge = none ∧ Unredeemed challenge answered later

end

section

variable {K : Type} {crypto : Cryptography K} {js : NumberText} {relay : Relay} {history next answered : AuthHistory}
  {challenge : String}

/-- What holds on from the answer on: the challenge has been presented, so that it is not drawn again. -/
structure Gone (challenge : String) (answered history : AuthHistory) : Prop where
  spent : Spent challenge answered history
  presented : Presented history.log challenge
  longer : answered.log.length ≤ history.log.length

theorem Presented.append {log : List AuthEvent} (h : Presented log challenge) (event : AuthEvent) :
    Presented (log ++ [event]) challenge := presented_append.mpr (Or.inl h)

theorem Gone.call (h : Gone challenge answered history) {call : AuthCall} {auth : AuthService}
    (hauth : auth = (history.relay.auth.call crypto js call).1) (unrepeated : Unrepeated history.log call) (relay : Relay) :
    Gone challenge answered ⟨{ relay with auth }, history.log ++ history.events crypto js (some call)⟩ := by
  have hother : ∀ address random now, call = .issueChallenge address random now → toBase64Url random ≠ challenge := by
    intro address random now heq hsame
    subst heq
    exact unrepeated (hsame ▸ h.presented)
  refine ⟨⟨?_, fun event hmem => ?_⟩, Presented.append h.presented _, ?_⟩
  · show auth.challenges.get? challenge = none
    rw [hauth]
    exact AuthService.call_unissued h.spent.1 hother
  · have hmem : event ∈ (history.log ++ history.events crypto js (some call)).drop answered.log.length := hmem
    rw [List.drop_append_of_le_length h.longer] at hmem
    rcases List.mem_append.mp hmem with hmem | hmem
    · exact h.spent.2 event hmem
    · obtain rfl := List.mem_singleton.mp hmem
      exact AuthService.call_unredeemed h.spent.1 _ _
  · show answered.log.length ≤ (history.log ++ _).length
    have hlonger := h.longer
    rw [List.length_append]
    omega

theorem Gone.step (h : Gone challenge answered history) (step : Step crypto js history next) : Gone challenge answered next := by
  cases step with
  | perform move possible unrepeated =>
    have hauth := @Relay.perform_auth _ crypto js history.relay move
    cases hcall : history.relay.authCall move with
    | none =>
      have hlog : (history.perform crypto js move).log = history.log := by
        show history.log ++ history.events crypto js (history.relay.authCall move) = history.log
        rw [hcall]
        exact List.append_nil _
      rw [hcall] at hauth
      refine ⟨⟨?_, ?_⟩, ?_, ?_⟩
      · show (history.relay.perform crypto js move).auth.challenges.get? challenge = none
        rw [hauth]
        exact h.spent.1
      · unfold Unredeemed
        rw [hlog]
        exact h.spent.2
      · rw [hlog]
        exact h.presented
      · rw [hlog]
        exact h.longer
    | some call =>
      rw [hcall] at hauth
      have hgone := h.call hauth (unrepeated call hcall) (history.relay.perform crypto js move)
      unfold AuthHistory.perform
      rw [hcall]
      exact hgone
  | revoke token =>
    have hauth : history.relay.auth.revoke token = (history.relay.auth.call crypto js (.revoke token)).1 := rfl
    exact h.call hauth trivial history.relay

theorem addressAt_step (step : Step crypto js history next) {place : Nat} {other : String}
    (h : history.relay.store.addressAt place = some other) : next.relay.store.addressAt place = some other := by
  cases step with
  | perform move possible unrepeated => exact Relay.addressAt_perform h
  | revoke token => exact h

/-- A request with the three fields waits for the account of its address. -/
theorem authenticate_given {body address signature : Json} (haddress : body.field "address" = some address)
    (hchallenge : body.field "challenge" = some (.str challenge)) (hsignature : body.field "signature" = some signature)
    (given : Json.truthy (some address) = true ∧ challenge ≠ "" ∧ Json.truthy (some signature) = true) :
    relay.authenticate (some body) =
      relay.await (.request (.authenticate (some body))) (attempt relay address signature challenge) := by
  obtain ⟨htruthy, hne, htruthy'⟩ := given
  have htext : Json.truthy (some (Json.str challenge)) = true := decide_eq_true hne
  simp only [Relay.authenticate, Option.bind_some, haddress, hchallenge, hsignature, Option.filter_some, htruthy, htruthy',
    htext, if_true]
  rfl

/-- The handler goes on with a call of `authenticate`, if the address has an account. -/
theorem authCall_attempt {index : Nat} {request : Relay.Request} {place : Option Nat} {address : String} {given : Json}
    {random : Bytes} {now : Int}
    (found : relay.waiting[index]? = some (.request request, .authenticating place address (.str challenge) given)) :
    relay.authCall (.resume index random now) = (relay.account place).map (fun account =>
      .authenticate address (.str challenge) (some given) (account.identity.field "signingPublicKey") random now) := by
  simp only [Relay.authCall, found]

theorem Gone.answer {index : Nat} {request : Relay.Request} {place : Nat} {address other : String} {given : Json}
    {random : Bytes} {now : Int}
    (found : history.relay.waiting[index]? = some (.request request, .authenticating (some place) address (.str challenge) given))
    (known : history.relay.store.addressAt place = some other) :
    Gone challenge (history.perform crypto js (.resume index random now)) (history.perform crypto js (.resume index random now)) := by
  obtain ⟨account, haccount, _⟩ := Option.map_eq_some_iff.mp known
  have hcall : history.relay.authCall (.resume index random now) = some (.authenticate address (.str challenge) (some given)
      (account.identity.field "signingPublicKey") random now) := by
    rw [authCall_attempt found, show history.relay.account (some place) = some account from haccount]
    rfl
  have hauth := @Relay.perform_auth _ crypto js history.relay (.resume index random now)
  rw [hcall] at hauth
  refine ⟨⟨?_, fun event hmem => ?_⟩, ?_, Nat.le_refl _⟩
  · show (history.relay.perform crypto js (.resume index random now)).auth.challenges.get? challenge = none
    rw [hauth]
    exact AuthService.authenticate_spends _ _ _ _ _
  · rw [List.drop_length] at hmem
    cases hmem
  · show Presented (history.log ++ history.events crypto js (history.relay.authCall (.resume index random now))) challenge
    rw [hcall]
    exact presented_append.mpr (Or.inr rfl)

end

/-- A request with an address, a challenge that is out and a signature spends the challenge if and only if the address has an
account. -/
theorem challenge_spent_iff {K : Type} (crypto : Cryptography K) (js : NumberText) (relay : Relay) (ip : String)
    {body address signature : Json} {challenge : String} (haddress : body.field "address" = some address)
    (hchallenge : body.field "challenge" = some (.str challenge)) (hsignature : body.field "signature" = some signature)
    (given : Json.truthy (some address) = true ∧ challenge ≠ "" ∧ Json.truthy (some signature) = true) {issued : Challenge}
    (outstanding : relay.auth.challenges.get? challenge = some issued) :
    Afterwards crypto js relay ip body address signature challenge (Spent challenge) ↔
      (relay.account (relay.accountOf (some address))).isSome = true := by
  have hasked (random : Bytes) (now : Int) : (⟨relay, []⟩ : AuthHistory).perform crypto js
      (.request ip (.authenticate (some body)) random now) =
        ⟨relay.await (.request (.authenticate (some body))) (attempt relay address signature challenge), []⟩ :=
    congrArg (fun relay => (⟨relay, []⟩ : AuthHistory)) (authenticate_given haddress hchallenge hsignature given)
  constructor
  · intro spends
    by_contra hunknown
    have hnone : relay.account (relay.accountOf (some address)) = none := Option.not_isSome_iff_eq_none.mp hunknown
    have hfound : (relay.await (.request (.authenticate (some body)))
        (attempt relay address signature challenge)).waiting[relay.waiting.length]? =
          some (.request (.authenticate (some body)), attempt relay address signature challenge) := List.getElem?_concat_length
    have hspent := spends [] 0 _ .refl relay.waiting.length [] 0 (by rw [hasked]; exact hfound) _ .refl
    rw [hasked] at hspent
    have hcall := @authCall_attempt _ challenge relay.waiting.length _ _ _ _ [] 0 hfound
    have hlooked : (relay.await (.request (.authenticate (some body))) (attempt relay address signature challenge)).account
        (relay.accountOf (some address)) = none := hnone
    rw [hlooked, Option.map_none] at hcall
    have hauth := @Relay.perform_auth _ crypto js
      (relay.await (.request (.authenticate (some body))) (attempt relay address signature challenge))
      (.resume relay.waiting.length [] 0)
    rw [hcall] at hauth
    have hout : ((relay.await (.request (.authenticate (some body))) (attempt relay address signature challenge)).perform crypto js
        (.resume relay.waiting.length [] 0)).auth.challenges.get? challenge = none := hspent.1
    rw [hauth] at hout
    exact absurd (hout.symm.trans outstanding) nofun
  · intro known random now mid hmid index random' now' hfound later hlater
    obtain ⟨account, haccount⟩ := Option.isSome_iff_exists.mp known
    obtain ⟨place, hplace, hrecord⟩ := Option.bind_eq_some_iff.mp haccount
    have hat : relay.store.addressAt place = some account.address := by
      rw [RelayStore.addressAt, hrecord]
      rfl
    rw [hasked] at hmid
    have hmidAt : mid.relay.store.addressAt place = some account.address :=
      Runs.preserved (P := fun history => history.relay.store.addressAt place = some account.address)
        (fun _ _ step h => addressAt_step step h) hmid hat
    rw [attempt, hplace] at hfound
    have hgone : Gone challenge (mid.perform crypto js (.resume index random' now')) later :=
      Runs.preserved (P := Gone challenge (mid.perform crypto js (.resume index random' now')))
        (fun _ _ step h => h.step step) hlater (Gone.answer hfound hmidAt)
    exact hgone.spent

/-- Someone tries Bob's challenge for an address that nobody has registered. -/
def tried (address : String) : Json :=
  .obj [("address", .str address), ("challenge", .str (toBase64Url [5])), ("signature", .str "AA")]

/-- Tried for Bob's own address, the challenge is gone. -/
theorem challenge_spent_bob : Relay.challenged.auth.challenges.get? (toBase64Url [5]) ≠ none ∧
    Afterwards spelled Relay.plainNumbers Relay.challenged "10.0.0.3" (tried bobAddress) (.str bobAddress) (.str "AA")
      (toBase64Url [5]) (Spent (toBase64Url [5])) := by
  have hout : (Relay.challenged.auth.challenges.get? (toBase64Url [5])).isSome = true := by decide +kernel
  obtain ⟨issued, hissued⟩ := Option.isSome_iff_exists.mp hout
  refine ⟨by rw [hissued]; nofun, (challenge_spent_iff spelled Relay.plainNumbers Relay.challenged "10.0.0.3" rfl rfl rfl
    (by decide +kernel) hissued).mpr ?_⟩
  decide +kernel

/-- Tried for an address without an account, the challenge still gives Bob his token. -/
theorem challenge_kept : ¬ ∀ (relay : Relay) (ip : String) (body address signature : Json) (challenge : String),
    body.field "address" = some address → body.field "challenge" = some (.str challenge) →
    body.field "signature" = some signature →
    Json.truthy (some address) = true ∧ challenge ≠ "" ∧ Json.truthy (some signature) = true →
    (relay.auth.challenges.get? challenge).isSome = true →
    Afterwards spelled Relay.plainNumbers relay ip body address signature challenge (Unredeemed challenge) := by
  intro claim
  let asked : AuthHistory := (⟨Relay.challenged, []⟩ : AuthHistory).perform spelled Relay.plainNumbers
    (.request "10.0.0.3" (.authenticate (some (tried "nobody"))) [] 0)
  let answered : AuthHistory := asked.perform spelled Relay.plainNumbers (.resume 1 [] 0)
  let proving : AuthHistory := answered.perform spelled Relay.plainNumbers (.request "10.0.0.1" (.authenticate (some (.obj
    [("address", .str bobAddress), ("challenge", .str (toBase64Url [5])), ("signature", .str Relay.bobSignature)]))) [] 0)
  have hnone : Relay.challenged.accountOf (some (.str "nobody")) = none := by decide +kernel
  have hfound : asked.relay.waiting[1]? =
      some (.request (.authenticate (some (tried "nobody"))), attempt Relay.challenged (.str "nobody") (.str "AA") (toBase64Url [5])) := by
    rfl
  have hrun : Relation.ReflTransGen (Step spelled Relay.plainNumbers) answered
      (proving.perform spelled Relay.plainNumbers (.resume 1 [6] 0)) := by
    have hproving : Step spelled Relay.plainNumbers answered proving := .perform (.request "10.0.0.1" (.authenticate (some (.obj
      [("address", .str bobAddress), ("challenge", .str (toBase64Url [5])), ("signature", .str Relay.bobSignature)]))) [] 0)
        trivial fun call hcall => by cases hcall
    refine (Relation.ReflTransGen.single hproving).tail
      (.perform (.resume 1 [6] 0) ?_ fun call hcall => Relay.unrepeated_resume hcall)
    show proving.relay.Possible (.resume 1 [6] 0)
    decide +kernel
  have hredeemed := claim Relay.challenged "10.0.0.3" (tried "nobody") (.str "nobody") (.str "AA") (toBase64Url [5]) rfl rfl rfl
    (by decide +kernel) (by decide +kernel) [] 0 asked .refl 1 [] 0 hfound _ hrun
  have hany : ((proving.perform spelled Relay.plainNumbers (.resume 1 [6] 0)).log.drop answered.log.length).any
      (fun event => event.redeems (toBase64Url [5])) = true := by decide +kernel
  obtain ⟨event, hmem, hgrants⟩ := List.any_eq_true.mp hany
  rw [hredeemed event hmem] at hgrants
  cases hgrants

end AuthHistory

end Veil
