import Veil.BearerTokens
import Veil.Pruning
import Veil.SigningContexts

namespace Veil

/-- The token a client of the relay holds. -/
structure RelayClient where
  token : Option String := none
  tokenExpiresAt : Int := 0

namespace RelayClient

/-- A token with more than a minute to go. -/
def live? (client : RelayClient) (now : Int) : Option String :=
  client.token.filter (fun token => token ≠ "" ∧ client.tokenExpiresAt > now + 60000)

/-- `challenge` is what the relay answers to the first request, and `exchange` what it answers to the signature. -/
def authenticate {K : Type} (crypto : Cryptography K) (identity : PrivateIdentity K) (address : String)
    (challenge : Except Failure String) (exchange : String → Except Failure (String × Int)) (now : Int)
    (client : RelayClient) : RelayClient × Except Failure String :=
  match client.live? now with
  | some token => (client, .ok token)
  | none =>
    match (do
      let signature ← Veil.authenticate crypto identity address (← challenge)
      exchange (toBase64Url signature)) with
    | .error e => (client, .error e)
    | .ok (token, expiresAt) => ({ token := some token, tokenExpiresAt := expiresAt }, .ok token)

end RelayClient

/-- The call neither revokes nor draws the token, and reads no later time. -/
def AuthCall.Spares (text : String) (now : Int) : AuthCall → Prop
  | .issueChallenge _ _ _ => True
  | .authenticate _ _ _ _ random _ => toBase64Url random ≠ text
  | .resolve _ read => read ≤ now
  | .revoke other => other ≠ text
  | .prune read => read ≤ now

instance (text : String) (now : Int) : (call : AuthCall) → Decidable (call.Spares text now)
  | .issueChallenge .. => isTrue trivial
  | .authenticate .. | .revoke _ => inferInstanceAs (Decidable (_ ≠ _))
  | .resolve .. | .prune _ => inferInstanceAs (Decidable (_ ≤ _))

/-- The token is there, or its time is over. -/
def AuthService.Lasts (text : String) (record : Token) (now : Int) (auth : AuthService) : Prop :=
  auth.tokens.get? text = some record ∨ (auth.tokens.get? text = none ∧ record.expiresAt < now)

section

variable {K : Type} {crypto : Cryptography K} {js : NumberText} {auth : AuthService} {text : String} {record : Token}
  {now : Int}

namespace AuthService

theorem Lasts.set (lasts : auth.Lasts text record now) {other : String} (hother : other ≠ text) (value : Token)
    (challenges : OrderedMap String Challenge) :
    AuthService.Lasts text record now ⟨challenges, auth.tokens.set other value⟩ := by
  unfold Lasts
  rw [OrderedMap.get?_set_of_ne _ _ hother.symm]
  exact lasts

theorem Lasts.resolve (lasts : auth.Lasts text record now) (token : Option Json) {read : Int} (hread : read ≤ now) :
    (auth.resolve token read).1.Lasts text record now := by
  unfold AuthService.resolve
  repeat' split
  next => exact lasts
  next => exact lasts
  next => exact lasts
  next other _ _ _ found hfound hexpired =>
    unfold Lasts
    rw [OrderedMap.get?_delete]
    by_cases hsame : text = other
    · subst hsame
      rw [if_pos rfl]
      rcases lasts with hheld | ⟨hnone, _⟩
      · obtain rfl := Option.some.inj (hheld.symm.trans hfound)
        exact Or.inr ⟨rfl, hexpired.trans_le hread⟩
      · rw [hnone] at hfound
        cases hfound
    · rw [if_neg hsame]
      exact lasts
  next => exact lasts

theorem Lasts.prune (lasts : auth.Lasts text record now) {read : Int} (hread : read ≤ now) :
    (auth.prune read).Lasts text record now := by
  have hpruned := (PrunedOf.refl auth read).prune.tokens text
  rcases hpruned with hsame | ⟨hgone, value, hvalue, hexpired⟩
  · unfold Lasts
    rw [hsame]
    exact lasts
  · refine Or.inr ⟨hgone, ?_⟩
    rcases lasts with hheld | ⟨hnone, hover⟩
    · obtain rfl := Option.some.inj (hheld.symm.trans hvalue)
      exact hexpired.trans_le hread
    · exact hover

/-- A call that spares the token leaves it there until its time is over. -/
theorem Lasts.call (lasts : auth.Lasts text record now) {call : AuthCall} (spares : call.Spares text now) :
    (auth.call crypto js call).1.Lasts text record now := by
  cases call with
  | issueChallenge address random read => exact lasts
  | authenticate address challenge signature signingPublicKey random read =>
    show (auth.authenticate crypto js address challenge signature signingPublicKey random read).1.Lasts text record now
    unfold AuthService.authenticate
    split
    next => exact lasts
    next =>
      dsimp only
      split
      next => exact lasts.set spares _ _
      next => exact lasts
  | resolve token read => exact lasts.resolve token spares
  | revoke other =>
    show (auth.tokens.delete other).get? text = some record ∨ (auth.tokens.delete other).get? text = none ∧ _
    rw [OrderedMap.get?_delete_of_ne _ (Ne.symm spares)]
    exact lasts
  | prune read => exact lasts.prune spares

/-- A token that lasts resolves exactly until its time is over. -/
theorem Lasts.resolves_iff (lasts : auth.Lasts text record now) (htext : text ≠ "") :
    (auth.resolve (some (.str text)) now).2 = some record.address ↔ now ≤ record.expiresAt := by
  constructor
  · intro h
    obtain ⟨text', expiresAt, htoken, hheld, hexpires⟩ := AuthService.resolve_eq_some h
    obtain rfl := Json.str.inj (Option.some.inj htoken)
    rcases lasts with hheld' | ⟨hnone, _⟩
    · rw [← Option.some.inj (hheld.symm.trans hheld')]
      exact hexpires
    · rw [hnone] at hheld
      cases hheld
  · intro hle
    have hheld : auth.tokens.get? text = some record := by
      rcases lasts with hheld | ⟨_, hover⟩
      · exact hheld
      · omega
    unfold AuthService.resolve
    rw [show (some (Json.str text)).bind Json.text? = some text from rfl]
    dsimp only
    rw [if_neg htext, hheld]
    dsimp only
    rw [if_neg (by omega)]

/-- The token that a proof of the key returns is there afterwards. -/
theorem authenticate_lasts {address : String} {challenge : Json} {signature signingPublicKey : Option Json}
    {random : Bytes} {read expiresAt : Int}
    (h : (auth.authenticate crypto js address challenge signature signingPublicKey random read).2 =
      some (text, expiresAt)) (now : Int) :
    (auth.authenticate crypto js address challenge signature signingPublicKey random read).1.Lasts text
      ⟨address, expiresAt⟩ now := by
  revert h
  unfold AuthService.authenticate
  split
  next => exact nofun
  next =>
    dsimp only
    split
    next =>
      intro h
      obtain ⟨rfl, rfl⟩ := Prod.mk.inj (Option.some.inj h)
      exact Or.inl (OrderedMap.get?_set_self _ _ _)
    next => exact nofun

end AuthService

namespace AuthHistory

variable {answered history next later : AuthHistory}

/-- From an answer on, while every call spares the token, it lasts. -/
def LastsSince (answered : AuthHistory) (text : String) (record : Token) (now : Int) (history : AuthHistory) : Prop :=
  answered.log.length ≤ history.log.length ∧
    ((∀ event ∈ history.log.drop answered.log.length, event.call.Spares text now) →
      history.relay.auth.Lasts text record now)

theorem LastsSince.call (lasts : LastsSince answered text record now history) {call : AuthCall} {relay : Relay}
    (hauth : relay.auth = (history.relay.auth.call crypto js call).1) :
    LastsSince answered text record now ⟨relay, history.log ++ history.events crypto js (some call)⟩ := by
  obtain ⟨hlength, hlasts⟩ := lasts
  have hlog : (history.log ++ history.events crypto js (some call)).drop answered.log.length =
      history.log.drop answered.log.length ++ history.events crypto js (some call) :=
    List.drop_append_of_le_length hlength
  refine ⟨?_, fun spares => ?_⟩
  · show _ ≤ (history.log ++ _).length
    rw [List.length_append]
    omega
  · have spares : ∀ event ∈ history.log.drop answered.log.length ++ history.events crypto js (some call),
        event.call.Spares text now := hlog ▸ spares
    have hbefore := hlasts fun event hmem => spares event (List.mem_append_left _ hmem)
    have hcall := spares _ (List.mem_append_right _ List.mem_cons_self)
    show relay.auth.Lasts text record now
    rw [hauth]
    exact hbefore.call hcall

theorem LastsSince.step (lasts : LastsSince answered text record now history) (step : Step crypto js history next) :
    LastsSince answered text record now next := by
  cases step with
  | perform move possible unrepeated =>
    have hauth := @Relay.perform_auth _ crypto js history.relay move
    cases hcall : history.relay.authCall move with
    | none =>
      rw [hcall] at hauth
      have hlog : (history.perform crypto js move).log = history.log := by
        show history.log ++ history.events crypto js (history.relay.authCall move) = history.log
        rw [hcall]
        exact List.append_nil _
      unfold LastsSince
      rw [hlog, show (history.perform crypto js move).relay.auth = _ from hauth]
      exact lasts
    | some call =>
      rw [hcall] at hauth
      have hperform : history.perform crypto js move =
          ⟨history.relay.perform crypto js move, history.log ++ history.events crypto js (some call)⟩ := by
        rw [AuthHistory.perform, hcall]
      rw [hperform]
      exact lasts.call hauth
  | revoke token => exact lasts.call rfl

theorem LastsSince.run (lasts : LastsSince answered text record now history)
    (run : Relation.ReflTransGen (Step crypto js) history later) : LastsSince answered text record now later :=
  @Runs.preserved _ (Step crypto js) (LastsSince answered text record now) (fun _ _ step h => h.step step) _ _ run lasts

/-- A token that the relay has granted is good for its address exactly until its time is over, whatever else goes on at
the relay, unless it is revoked or drawn again. A client uses the token again while more than a minute is left by its own
clock, and is let in where its request is read within that minute. -/
theorem token_lasts {move : RelayMove} {address : String} {challenge : Json} {signature signingPublicKey : Option Json}
    {random : Bytes} {read expiresAt : Int}
    (called : history.relay.authCall move = some (.authenticate address challenge signature signingPublicKey random read))
    (granted : (history.relay.auth.authenticate crypto js address challenge signature signingPublicKey random read).2 =
      some (text, expiresAt)) (htext : text ≠ "")
    (run : Relation.ReflTransGen (Step crypto js) (history.perform crypto js move) later)
    (spares : ∀ event ∈ later.log.drop (history.perform crypto js move).log.length, event.call.Spares text now) :
    ((later.relay.auth.resolve (some (.str text)) now).2 = some address ↔ now ≤ expiresAt) ∧
    ∀ (identity : PrivateIdentity K) (own : String) (asked : Except Failure String)
      (exchange : String → Except Failure (String × Int)) (clientNow : Int), clientNow + 60000 < expiresAt →
        now ≤ clientNow + 60000 →
          RelayClient.authenticate crypto identity own asked exchange clientNow ⟨some text, expiresAt⟩ =
              (⟨some text, expiresAt⟩, .ok text) ∧
            (later.relay.auth.resolve (some (.str text)) now).2 = some address := by
  have hauth := @Relay.perform_auth _ crypto js history.relay move
  rw [called] at hauth
  have hgranted : (history.perform crypto js move).relay.auth.Lasts text ⟨address, expiresAt⟩ now := by
    show (history.relay.perform crypto js move).auth.Lasts text _ now
    rw [hauth]
    exact AuthService.authenticate_lasts granted now
  have hsince := LastsSince.run ⟨le_rfl, fun _ => hgranted⟩ run
  have hiff := (hsince.2 spares).resolves_iff htext
  refine ⟨hiff, ?_⟩
  intro identity own asked exchange clientNow hleft hclock
  have hlive : RelayClient.live? ⟨some text, expiresAt⟩ clientNow = some text := by
    unfold RelayClient.live?
    rw [Option.filter_some, if_pos (decide_eq_true ⟨htext, hleft⟩)]
  refine ⟨?_, hiff.mpr (show now ≤ expiresAt by omega)⟩
  unfold RelayClient.authenticate
  rw [hlive]

end AuthHistory

end

namespace AuthHistory

/-- Bob's proof waits for his account to be read. -/
def asked : AuthHistory :=
  (bobProof.take 2).foldl (fun history move => history.perform spelled Relay.plainNumbers move) enrolled

/-- The call returns Bob's token. -/
def grantsBob : AuthCall → Bool
  | .authenticate address challenge signature signingPublicKey random read => decide (address = bobAddress) &&
    decide ((asked.relay.auth.authenticate spelled Relay.plainNumbers address challenge signature signingPublicKey
      random read).2 = some (toBase64Url [6], tokenTtlMs))
  | _ => false

def bobGranted : AuthHistory := asked.perform spelled Relay.plainNumbers (.resume 1 [6] 0)

/-- Another challenge, a request with the token and a round of housekeeping. -/
def bobsDay : List RelayMove :=
  [.request "10.0.0.1" (.challenge (some (.obj [("address", .str bobAddress)]))) [7] 3600000,
    .request "10.0.0.1" (.fetchMessages (some ("Bearer " ++ toBase64Url [6]))) [] 7200000, .housekeeping 10800000]

def bobUsed : AuthHistory := bobsDay.foldl (fun history move => history.perform spelled Relay.plainNumbers move) bobGranted

theorem unrepeated_fetchMessages {relay : Relay} {log : List AuthEvent} {ip : String} {authorization : Option String}
    {random : Bytes} {now : Int} {call : AuthCall}
    (h : relay.authCall (.request ip (.fetchMessages authorization) random now) = some call) : Unrepeated log call := by
  unfold Relay.authCall at h
  obtain ⟨token, _, rfl⟩ := Option.map_eq_some_iff.mp h
  trivial

theorem bobUsed_run : Relation.ReflTransGen (Step spelled Relay.plainNumbers) bobGranted bobUsed := by
  have hchallenged := @Step.perform _ spelled Relay.plainNumbers bobGranted
    (.request "10.0.0.1" (.challenge (some (.obj [("address", .str bobAddress)]))) [7] 3600000) trivial fun call hcall => by
      obtain rfl := Option.some.inj hcall
      have hnew : ¬Presented bobGranted.log (toBase64Url [7]) := by
        unfold Presented
        decide +kernel
      exact hnew
  refine ((Relation.ReflTransGen.single hchallenged).tail (.perform
    (.request "10.0.0.1" (.fetchMessages (some ("Bearer " ++ toBase64Url [6]))) [] 7200000) trivial fun call hcall => ?_)).tail
      (.perform (.housekeeping 10800000) trivial fun call hcall => ?_)
  · exact unrepeated_fetchMessages hcall
  · obtain rfl := Option.some.inj hcall
    trivial

/-- After all that, Bob's token is good to the last millisecond. -/
theorem token_lasts_bob :
    (bobUsed.relay.auth.resolve (some (.str (toBase64Url [6]))) tokenTtlMs).2 = some bobAddress ∧
      (bobUsed.log.drop bobGranted.log.length).length = 3 := by
  have hasked : (asked.relay.authCall (.resume 1 [6] 0)).elim false grantsBob = true := by decide +kernel
  have hspares : ∀ event ∈ bobUsed.log.drop bobGranted.log.length, event.call.Spares (toBase64Url [6]) tokenTtlMs := by
    decide +kernel
  cases called : asked.relay.authCall (.resume 1 [6] 0) with
  | none =>
    rw [called] at hasked
    cases hasked
  | some call =>
    rw [called] at hasked
    cases call with
    | authenticate address challenge signature signingPublicKey random read =>
      obtain ⟨haddress, hgranted⟩ := Bool.and_eq_true_iff.mp hasked
      obtain rfl := of_decide_eq_true haddress
      have hlasts := @token_lasts _ spelled Relay.plainNumbers _ tokenTtlMs _ _ _ _ _ _ _ _ _ _ called
        (of_decide_eq_true hgranted) (by decide) bobUsed_run hspares
      exact ⟨hlasts.1.mpr le_rfl, by decide +kernel⟩
    | issueChallenge | resolve | revoke | prune => cases hasked

end AuthHistory

end Veil
