import Veil.Accounts
import Veil.RelayQueues
import Veil.SubmissionPaths

namespace Veil

namespace Relay

/-- The envelopes a handler has in hand; one for an unknown recipient is not looked at again. -/
def Handler.envelopes : Handler → List Json
  | .submitting account envelope => if account.isSome then [envelope] else []
  | .enqueued message => [message.envelope.json]
  | .fetching messages | .draining messages => messages.map (fun message => message.envelope.json)
  | _ => []

def ServerSocketMessage.envelopes : ServerSocketMessage → List Json
  | .deliver message => [message.envelope.json]
  | _ => []

def Response.envelopes : Response → List Json
  | .messages answer => answer.map (fun message => message.envelope.json)
  | _ => []

def Sent.envelopes : Sent → List Json
  | .response _ answer => answer.envelopes
  | .message _ told => told.envelopes
  | .unhandled _ _ => []

/-- The relay has the envelope in a queue or in hand, or has delivered it. -/
inductive Retains (relay : Relay) (envelope : Json) : Prop
  | queued {address : String} {message : QueuedMessage} (mem : message ∈ relay.store.queued address)
      (same : message.envelope.json = envelope)
  | inHand {origin : Origin} {handler : Handler} (mem : (origin, handler) ∈ relay.waiting)
      (held : envelope ∈ handler.envelopes)
  | delivered {sent : Sent} (mem : sent ∈ relay.sent) (shown : envelope ∈ sent.envelopes)

/-- The move submits an envelope that passes the checks of its path. -/
inductive Submitted (js : NumberText) (relay : Relay) : RelayMove → Json → Prop
  | request {ip : String} {body : Option Json} {random : Bytes} {now : Int} {envelope : Json}
      (given : body.bind (Json.field "envelope") = some envelope)
      (passes : Passes js ["recipient", "ciphertext", "ephemeralPublicKey"] relay envelope) :
      Submitted js relay (.request ip (.sendMessage body) random now) envelope
  | socket {connection : Nat} {parsed : Json} {now : Int} {envelope : Json}
      (asked : (parsed.field "type").bind Json.text? = some "send") (given : parsed.field "envelope" = some envelope)
      (passes : Passes js ["recipient", "ciphertext"] relay envelope) :
      Submitted js relay (.message connection (some parsed) now) envelope

/-- What the relay does not check: the envelope has no other field, its ciphertext is a string, and its ephemeral key one
that is not empty. -/
structure Bare (envelope : Json) : Prop where
  fields : ∃ fields, envelope = .obj fields ∧
    (fields.map Prod.fst).Perm ["recipient", "ephemeralPublicKey", "ciphertext"]
  ephemeral : ∃ key, envelope.field "ephemeralPublicKey" = some (.str key) ∧ key ≠ ""
  ciphertext : ∃ text, envelope.field "ciphertext" = some (.str text)

/-- The envelope has the routing fields and no other, within their bounds. -/
structure RoutingOnly (relay : Relay) (envelope : Json) : Prop where
  fields : ∃ fields, envelope = .obj fields ∧
    (fields.map Prod.fst).Perm ["recipient", "ephemeralPublicKey", "ciphertext"]
  recipient : ∃ address, envelope.field "recipient" = some (.str address) ∧ address ≠ "" ∧
    (relay.store.getAccount address).isSome
  ephemeral : ∃ key, envelope.field "ephemeralPublicKey" = some (.str key) ∧ key ≠ ""
  ciphertext : ∃ text, envelope.field "ciphertext" = some (.str text) ∧ text ≠ "" ∧ utf16Length text ≤ maxEnvelopeBytes

section

variable {K : Type} {crypto : Cryptography K} {js : NumberText} {relay next : Relay} {envelope : Json} {connection : Nat}
  {now : Int}

theorem Retains.congr (h : Retains next envelope) (queues : next.store.queues = relay.store.queues)
    (waiting : next.waiting = relay.waiting) (sent : next.sent = relay.sent) : Retains relay envelope := by
  cases h with
  | queued mem same => exact .queued (by rwa [RelayStore.queued, queues] at mem) same
  | inHand mem held => exact .inHand (waiting ▸ mem) held
  | delivered mem shown => exact .delivered (sent ▸ mem) shown

theorem retains_emit {sent : Sent} (h : Retains (relay.emit sent) envelope) :
    Retains relay envelope ∨ envelope ∈ sent.envelopes := by
  cases h with
  | queued mem same => exact Or.inl (.queued mem same)
  | inHand mem held => exact Or.inl (.inHand mem held)
  | delivered mem shown =>
    rcases List.mem_append.mp mem with hmem | hmem
    · exact Or.inl (.delivered hmem shown)
    · obtain rfl := List.mem_singleton.mp hmem
      exact Or.inr shown

theorem retains_await {origin : Origin} {handler : Handler} (h : Retains (relay.await origin handler) envelope) :
    Retains relay envelope ∨ envelope ∈ handler.envelopes := by
  cases h with
  | queued mem same => exact Or.inl (.queued mem same)
  | delivered mem shown => exact Or.inl (.delivered mem shown)
  | inHand mem held =>
    rcases List.mem_append.mp mem with hmem | hmem
    · exact Or.inl (.inHand hmem held)
    · obtain ⟨rfl, rfl⟩ := Prod.mk.inj (List.mem_singleton.mp hmem)
      exact Or.inr held

theorem retains_send {message : ServerSocketMessage} (h : Retains (relay.send connection message) envelope) :
    Retains relay envelope ∨ envelope ∈ message.envelopes := by
  unfold send at h
  split at h
  next => exact retains_emit h
  next => exact Or.inl h

theorem retains_accept {origin : Origin} (h : Retains (relay.accept origin) envelope) : Retains relay envelope := by
  cases origin with
  | request request => exact (retains_emit h).resolve_right List.not_mem_nil
  | socket connection => exact (retains_send h).resolve_right List.not_mem_nil

theorem retains_foldl_send {α : Type} {items : List α} {connection : α → Nat} {message : α → ServerSocketMessage}
    (h : Retains (items.foldl (fun relay item => relay.send (connection item) (message item)) relay) envelope) :
    Retains relay envelope ∨ ∃ item ∈ items, envelope ∈ (message item).envelopes := by
  induction items generalizing relay with
  | nil => exact Or.inl h
  | cons item items ih =>
    rcases ih h with hkept | ⟨other, hmem, hshown⟩
    · exact (retains_send hkept).imp_right fun hshown => ⟨item, List.mem_cons_self, hshown⟩
    · exact Or.inr ⟨other, List.mem_cons_of_mem _ hmem, hshown⟩

/-- Messages that are looked up in a queue are retained. -/
theorem retains_queued {address : String} (h : envelope ∈ (relay.store.queued address).map fun message =>
    message.envelope.json) : Retains relay envelope := by
  obtain ⟨message, hmem, hsame⟩ := List.mem_map.mp h
  exact .queued hmem hsame

theorem retains_acknowledge {address : String} {ids : List Json}
    (h : Retains { relay with store := (relay.store.acknowledge address ids).1 } envelope) : Retains relay envelope := by
  cases h with
  | queued mem same =>
    rcases @RelayStore.queued_call _ _ _ (.acknowledge address ids) mem with hmem | ⟨hcall, _⟩
    · exact .queued hmem same
    · cases hcall
  | inHand mem held => exact .inHand mem held
  | delivered mem shown => exact .delivered mem shown

/-- A submission comes to hold its envelope, when it is for an account. -/
theorem retains_submit {origin : Origin} {source : String} {submitted : Json}
    (h : Retains (relay.submit origin source submitted) envelope) :
    Retains relay envelope ∨ submitted = envelope ∧ (relay.accountOf (submitted.field "recipient")).isSome := by
  rcases retains_await h with h | hheld
  · exact Or.inl (h.congr rfl rfl rfl)
  · rw [Handler.envelopes] at hheld
    split at hheld
    next hknown => exact Or.inr ⟨(List.mem_singleton.mp hheld).symm, hknown⟩
    next => exact absurd hheld List.not_mem_nil

/-- What a message makes the relay retain was retained, or is what the message submits. -/
theorem retains_onMessage {parsed : Option Json} (h : Retains (relay.onMessage js connection parsed now) envelope) :
    Retains relay envelope ∨ Submitted js relay (.message connection parsed now) envelope := by
  rcases onMessage_cases parsed with
    ⟨_, failure, hthrows⟩ | ⟨_, hserved⟩
  · rw [hthrows] at h
    exact Or.inl ((retains_emit h).resolve_right List.not_mem_nil)
  · revert hserved h
    generalize relay.onMessage js connection parsed now = next
    intro h hserved
    cases hserved with
    | refused auth code text =>
      have hkept := (retains_send h).resolve_right List.not_mem_nil
      exact Or.inl (hkept.congr rfl rfl rfl)
    | authenticated asked resolved =>
      rename_i address
      simp only [socketAuthenticate, resolved] at h
      rcases retains_await h with h | hheld
      · have hkept := (retains_send h).resolve_right List.not_mem_nil
        exact Or.inl (hkept.congr rfl rfl rfl)
      · exact Or.inl (retains_queued hheld)
    | ponged asked => exact Or.inl ((retains_send h).resolve_right List.not_mem_nil)
    | submitted asked given passes =>
      rcases retains_submit h with h | ⟨rfl, hknown⟩
      · exact Or.inl h
      · exact Or.inr (.socket asked given ⟨passes, hknown⟩)
    | acknowledged => exact Or.inl (retains_acknowledge h)

theorem retains_sendMessage {ip : String} {body : Option Json} {random : Bytes}
    (h : Retains (relay.sendMessage js ip body now) envelope) :
    Retains relay envelope ∨ Submitted js relay (.request ip (.sendMessage body) random now) envelope := by
  simp only [sendMessage] at h
  split at h
  next => exact Or.inl (((retains_emit h).resolve_right List.not_mem_nil).congr rfl rfl rfl)
  next =>
    split at h
    next => exact Or.inl (((retains_emit h).resolve_right List.not_mem_nil).congr rfl rfl rfl)
    next => exact Or.inl (((retains_emit h).resolve_right List.not_mem_nil).congr rfl rfl rfl)
    next => exact Or.inl (((retains_emit h).resolve_right List.not_mem_nil).congr rfl rfl rfl)
    next hcheck =>
      rcases retains_submit h with h | ⟨hsame, hknown⟩
      · exact Or.inl (h.congr rfl rfl rfl)
      · cases hgiven : body.bind (Json.field "envelope") with
        | none =>
          rw [hgiven] at hcheck
          cases hcheck
        | some submitted =>
          rw [hgiven] at hcheck hsame hknown
          obtain rfl : submitted = envelope := hsame
          exact Or.inr (.request hgiven ⟨hcheck, hknown⟩)

theorem retains_handle {ip : String} {request : Request} {random : Bytes}
    (h : Retains (relay.handle crypto js ip request random now) envelope) :
    Retains relay envelope ∨ Submitted js relay (.request ip request random now) envelope := by
  cases request with
  | sendMessage body => exact retains_sendMessage h
  | fetchMessages authorization =>
    simp only [handle, fetchMessages] at h
    split at h
    next => exact Or.inl (((retains_emit h).resolve_right List.not_mem_nil).congr rfl rfl rfl)
    next =>
      rcases retains_await h with h | hheld
      · exact Or.inl (h.congr rfl rfl rfl)
      · exact Or.inl (retains_queued hheld)
  | acknowledge authorization body =>
    simp only [handle, acknowledge] at h
    split at h
    next => exact Or.inl (((retains_emit h).resolve_right List.not_mem_nil).congr rfl rfl rfl)
    next =>
      split at h
      next =>
        have hkept := (retains_await h).resolve_right List.not_mem_nil
        exact Or.inl (retains_acknowledge (hkept.congr rfl rfl rfl))
      next => exact Or.inl (((retains_emit h).resolve_right List.not_mem_nil).congr rfl rfl rfl)
  | register | challenge | authenticate | fetchKeys | uploadKeys | countKeys =>
    simp only [handle, register, challenge, authenticate, uploadKeys, countKeys] at h
    repeat' split at h
    all_goals first
      | exact Or.inl (((retains_emit h).resolve_right List.not_mem_nil).congr rfl rfl rfl)
      | exact Or.inl (((retains_await h).resolve_right List.not_mem_nil).congr rfl rfl rfl)

theorem retains_enqueue {message : QueuedMessage}
    (h : Retains { relay with store := relay.store.enqueue message } envelope) :
    Retains relay envelope ∨ message.envelope.json = envelope := by
  cases h with
  | queued mem same =>
    rcases @RelayStore.queued_call _ _ _ (.enqueue message) mem with hmem | ⟨hcall, _⟩
    · exact Or.inl (.queued hmem same)
    · obtain rfl := StoreCall.enqueue.inj hcall
      exact Or.inr same
  | inHand mem held => exact Or.inl (.inHand mem held)
  | delivered mem shown => exact Or.inl (.delivered mem shown)

theorem retains_resumeRequest {request : Request} {handler : Handler} {random : Bytes}
    (h : Retains (relay.resumeRequest crypto js request handler random now) envelope) :
    Retains relay envelope ∨ envelope ∈ handler.envelopes := by
  cases handler with
  | fetching messages =>
    refine (retains_emit h).imp_right fun hshown => ?_
    have hsame : (messages.map deliveryOf).map (fun message => message.envelope.json) =
        messages.map (fun message => message.envelope.json) := List.map_map
    have hmem : envelope ∈ (messages.map deliveryOf).map (fun message => message.envelope.json) := hshown
    rwa [hsame] at hmem
  | fetchingKeys account =>
    simp only [resumeRequest] at h
    split at h
    next =>
      have hkept := (retains_await h).resolve_right List.not_mem_nil
      exact Or.inl (hkept.congr RelayStore.modified_takeOneTimePreKeys.queues rfl rfl)
    next => exact Or.inl ((retains_emit h).resolve_right List.not_mem_nil)
  | uploading address account body =>
    simp only [resumeRequest, upload] at h
    repeat' split at h
    all_goals first
      | exact Or.inl ((retains_emit h).resolve_right List.not_mem_nil)
      | exact Or.inl (((retains_await h).resolve_right List.not_mem_nil).congr RelayStore.modified_updatePreKeys.queues rfl rfl)
  | submitting | enqueued | draining => exact Or.inl h
  | registering address existing body =>
    cases existing with
    | some place => exact Or.inl ((retains_emit h).resolve_right List.not_mem_nil)
    | none => exact Or.inl (((retains_await h).resolve_right List.not_mem_nil).congr rfl rfl rfl)
  | uploaded result =>
    cases result with
    | error e => exact Or.inl ((retains_emit h).resolve_right List.not_mem_nil)
    | ok _ => exact Or.inl ((retains_emit h).resolve_right List.not_mem_nil)
  | registered | authenticating | takingKeys | counting | acknowledged =>
    simp only [resumeRequest] at h
    repeat' split at h
    all_goals first
      | exact Or.inl h
      | exact Or.inl (((retains_emit h).resolve_right List.not_mem_nil).congr rfl rfl rfl)

/-- A handler that goes on makes the relay retain what it had in hand at most. -/
theorem retains_resume {origin : Origin} {handler : Handler} {random : Bytes}
    (h : Retains (relay.resume crypto js origin handler random now) envelope) :
    Retains relay envelope ∨ envelope ∈ handler.envelopes := by
  unfold resume at h
  split at h
  next account submitted =>
    split at h
    next place recipient hfield =>
      have hin : submitted ∈ (Handler.submitting (some place) submitted).envelopes := List.mem_singleton.mpr rfl
      rcases retains_await h with h | hheld
      · exact (retains_enqueue h).imp_right fun hsame => by rwa [← hsame]
      · exact Or.inr (List.mem_singleton.mp hheld ▸ hin)
    next => exact Or.inl (retains_accept h)
  next message =>
    rcases retains_foldl_send (retains_accept h) with
      h | ⟨_, _, hshown⟩
    · exact Or.inl h
    · exact Or.inr hshown
  next messages connection =>
    refine (retains_foldl_send h).imp_right fun ⟨message, hmem, hshown⟩ => ?_
    exact List.mem_map.mpr ⟨message, hmem, (List.mem_singleton.mp hshown).symm⟩
  next => exact retains_resumeRequest h
  next => exact Or.inl h

/-- What a move makes the relay retain was retained, or is what the move submits. -/
theorem retains_perform {move : RelayMove} (h : Retains (relay.perform crypto js move) envelope) :
    Retains relay envelope ∨ Submitted js relay move envelope := by
  cases move with
  | request => exact retains_handle h
  | connect => exact Or.inl (h.congr rfl rfl rfl)
  | message => exact retains_onMessage h
  | close connection =>
    simp only [perform, onClose] at h
    repeat' split at h
    all_goals exact Or.inl (h.congr rfl rfl rfl)
  | resume index random now =>
    simp only [perform] at h
    split at h
    next => exact Or.inl h
    next origin handler hfound =>
      have hmem : (origin, handler) ∈ relay.waiting := List.mem_of_getElem? hfound
      rcases retains_resume h with h | hheld
      · cases h with
        | queued mem same => exact Or.inl (.queued mem same)
        | inHand mem held => exact Or.inl (.inHand (List.mem_of_mem_eraseIdx mem) held)
        | delivered mem shown => exact Or.inl (.delivered mem shown)
      · exact Or.inl (.inHand hmem hheld)
  | housekeeping now =>
    cases h with
    | queued mem same =>
      rcases @RelayStore.queued_call _ _ _ (.expire now) mem with hmem | ⟨hcall, _⟩
      · exact Or.inl (.queued hmem same)
      · cases hcall
    | inHand mem held => exact Or.inl (.inHand mem held)
    | delivered mem shown => exact Or.inl (.delivered mem shown)

theorem RoutingOnly.perform {move : RelayMove} (h : RoutingOnly relay envelope) :
    RoutingOnly (relay.perform crypto js move) envelope := by
  obtain ⟨address, hfield, hgiven, hknown⟩ := h.recipient
  exact ⟨h.fields, ⟨address, hfield, hgiven, getAccount_perform hknown⟩, h.ephemeral, h.ciphertext⟩

/-- What the relay checks and what it does not are together the routing fields within their bounds. -/
theorem Bare.routingOnly (h : Bare envelope) {required : List String} (passes : Passes js required relay envelope)
    (recipient : "recipient" ∈ required) (ciphertext : "ciphertext" ∈ required) : RoutingOnly relay envelope := by
  obtain ⟨hchecked, hknown⟩ := passes
  obtain ⟨hall, hsize⟩ := checkEnvelope_none_iff.mp hchecked
  have hgiven (name : String) (hmem : name ∈ required) : Json.truthy (envelope.field name) = true :=
    List.all_eq_true.mp hall name hmem
  refine ⟨h.fields, ?_, h.ephemeral, ?_⟩
  · obtain ⟨place, hplace⟩ := Option.isSome_iff_exists.mp hknown
    obtain ⟨address, haddress, hget⟩ := Option.bind_eq_some_iff.mp hplace
    obtain ⟨value, hvalue, htext⟩ := Option.bind_eq_some_iff.mp haddress
    have hfield : envelope.field "recipient" = some (.str address) := by
      cases value with
      | str text =>
        rw [hvalue]
        exact congrArg (fun text => some (Json.str text)) (Option.some.inj htext)
      | null | bool | num | arr | obj => cases htext
    have htruthy := hgiven "recipient" recipient
    rw [hfield] at htruthy
    exact ⟨address, hfield, of_decide_eq_true htruthy, Option.isSome_iff_exists.mpr ⟨place, hget⟩⟩
  · obtain ⟨text, hfield⟩ := h.ciphertext
    have htruthy := hgiven "ciphertext" ciphertext
    rw [hfield] at htruthy hsize
    have hlarge : decide ((maxEnvelopeBytes : ℚ) < (utf16Length text : ℚ)) = false := Except.ok.inj hsize
    have hbound : ¬ maxEnvelopeBytes < utf16Length text := fun h => of_decide_eq_false hlarge (by exact_mod_cast h)
    exact ⟨text, hfield, of_decide_eq_true htruthy, by omega⟩

end

/-- Every submission that passes the checks of its path has the fields that are stored and no other. -/
def SubmitsBare (js : NumberText) (relay : Relay) (move : RelayMove) : Prop :=
  ∀ envelope, Submitted js relay move envelope → Bare envelope

/-- What a run retains or delivers has the routing fields only. -/
theorem routing_only {K : Type} (crypto : Cryptography K) (js : NumberText) (start relay : Relay) (hstart : Start start)
    (run : Relation.ReflTransGen (Step crypto js (SubmitsBare js)) start relay) :
    ∀ envelope, Retains relay envelope → RoutingOnly relay envelope := by
  refine Runs.preserved (P := fun relay => ∀ envelope, Retains relay envelope → RoutingOnly relay envelope) ?_ run ?_
  · rintro relay _ ⟨move, _, bare, rfl⟩ h envelope hretains
    rcases retains_perform hretains with hkept | hsubmitted
    · exact (h envelope hkept).perform
    · have hbare := bare envelope hsubmitted
      cases hsubmitted with
      | request given passes => exact (hbare.routingOnly passes (by decide) (by decide)).perform
      | socket asked given passes => exact (hbare.routingOnly passes (by decide) (by decide)).perform
  · obtain ⟨limit, rfl⟩ := hstart
    intro envelope hretains
    cases hretains with
    | queued mem => exact absurd mem List.not_mem_nil
    | inHand mem => exact absurd mem List.not_mem_nil
    | delivered mem => exact absurd mem List.not_mem_nil

/-- Bob's message is retained. -/
theorem routing_only_posted : Retains posted envelopeToBob ∧ RoutingOnly posted envelopeToBob := by
  have hbare : Bare envelopeToBob :=
    ⟨⟨_, rfl, List.Perm.refl _⟩, ⟨"a2V5", rfl, by decide⟩, ⟨"aGVsbG8", rfl⟩⟩
  have run : Relation.ReflTransGen (Step spelled plainNumbers (SubmitsBare plainNumbers)) (built 1) posted := by
    refine (listed_run (fun _ => nofun) (fun _ => nofun)).tail
      ⟨.request "10.0.0.1" (.sendMessage (some (.obj [("envelope", envelopeToBob)]))) [] 0, trivial, ?_, rfl⟩
    rintro envelope (⟨given, _⟩ | _)
    obtain rfl : envelopeToBob = envelope := Option.some.inj given
    exact hbare
  have hretains : Retains posted envelopeToBob :=
    .inHand (List.mem_append_right _ (List.mem_singleton.mpr rfl))
      (List.mem_singleton.mpr rfl)
  exact ⟨hretains, routing_only spelled plainNumbers _ _ ⟨1, rfl⟩ run _ hretains⟩

def labelledEnvelope : Json :=
  .obj [("recipient", .str bobAddress), ("ephemeralPublicKey", .str "a2V5"), ("ciphertext", .str "aGVsbG8"),
    ("sender", .str "alice")]

/-- A field that names the sender stays with the message. -/
theorem sender_retained : ¬ ∀ (start relay : Relay), Start start →
    Relation.ReflTransGen (Step spelled plainNumbers (fun _ _ => True)) start relay →
      ∀ address, ∀ message ∈ relay.store.queued address, RoutingOnly relay message.envelope.json := by
  intro claim
  let sent := (listed 1).perform spelled plainNumbers
    (.request "10.0.0.1" (.sendMessage (some (.obj [("envelope", labelledEnvelope)]))) [] 0)
  let queued := sent.perform spelled plainNumbers (.resume 1 [] 0)
  have run : Relation.ReflTransGen (Step spelled plainNumbers (fun _ _ => True)) (built 1) queued :=
    ((listed_run trivial trivial).tail
      ⟨.request "10.0.0.1" (.sendMessage (some (.obj [("envelope", labelledEnvelope)]))) [] 0, trivial, trivial, rfl⟩).tail
        ⟨.resume 1 [] 0, by decide +kernel, trivial, rfl⟩
  have hnamed : (queued.store.queued bobAddress).any (fun message => (message.envelope.json.field "sender").isSome) = true := by
    decide +kernel
  obtain ⟨message, hmem, hsender⟩ := List.any_eq_true.mp hnamed
  obtain ⟨fields, hfields, hperm⟩ := (claim _ _ ⟨1, rfl⟩ run bobAddress message hmem).fields
  rw [hfields] at hsender
  obtain ⟨field, hfield⟩ := Option.isSome_iff_exists.mp hsender
  obtain ⟨entry, hentry, _⟩ := Option.map_eq_some_iff.mp hfield
  have hname : entry.1 = "sender" := by simpa using List.find?_some hentry
  have hlisted : entry.1 ∈ ["recipient", "ephemeralPublicKey", "ciphertext"] :=
    hperm.subset (List.mem_map_of_mem (List.mem_of_find?_eq_some hentry))
  rw [hname] at hlisted
  exact absurd hlisted (by decide)

end Relay

end Veil
