import Veil.Library.Runs
import Veil.Relay

namespace Veil

namespace Json

mutual

/-- An object in the value has a field in place of its way to become a text. -/
def textless : Json → Bool
  | .arr elements => anyTextless elements
  | .obj fields => withoutText fields
  | _ => false

def anyTextless : List Json → Bool
  | [] => false
  | value :: rest => value.textless || anyTextless rest

end

variable (js : NumberText)

theorem joinTexts_cons {value : Json} {rest : List Json} (h : value ≠ .null) :
    joinTexts js (value :: rest) = (do
      let text ← value.toText js
      return text :: (← joinTexts js rest)) := by
  cases value with
  | null => exact absurd rfl h
  | bool | num | str | arr | obj => rfl

mutual

theorem toText_error_iff : (value : Json) → ((∃ e, value.toText js = .error e) ↔ value.textless = true)
  | .null | .bool _ | .num _ | .str _ => by simp [toText, textless]
  | .arr elements => by
    rw [toText, textless, ← joinTexts_error_iff elements]
    cases joinTexts js elements with
    | error e => exact ⟨fun _ => ⟨e, rfl⟩, fun _ => ⟨e, rfl⟩⟩
    | ok texts => exact ⟨fun ⟨_, h⟩ => (by cases h), fun ⟨_, h⟩ => (by cases h)⟩
  | .obj fields => by
    rw [toText, textless]
    split
    next h => exact ⟨fun _ => h, fun _ => ⟨_, rfl⟩⟩
    next h => exact ⟨fun ⟨_, he⟩ => (by cases he), fun ht => absurd ht h⟩

theorem joinTexts_error_iff : (values : List Json) → ((∃ e, joinTexts js values = .error e) ↔ anyTextless values = true)
  | [] => by simp [joinTexts, anyTextless]
  | value :: rest => by
    rw [anyTextless, Bool.or_eq_true, ← toText_error_iff value, ← joinTexts_error_iff rest]
    by_cases hnull : value = .null
    · rw [hnull, joinTexts, toText]
      cases joinTexts js rest with
      | error e => exact ⟨fun _ => Or.inr ⟨e, rfl⟩, fun _ => ⟨e, rfl⟩⟩
      | ok texts => exact ⟨fun ⟨_, h⟩ => (by cases h), fun h => (by rcases h with ⟨_, h⟩ | ⟨_, h⟩ <;> cases h)⟩
    · rw [joinTexts_cons js hnull]
      cases value.toText js with
      | error e => exact ⟨fun _ => Or.inl ⟨e, rfl⟩, fun _ => ⟨e, rfl⟩⟩
      | ok text =>
        cases joinTexts js rest with
        | error e => exact ⟨fun _ => Or.inr ⟨e, rfl⟩, fun _ => ⟨e, rfl⟩⟩
        | ok texts => exact ⟨fun ⟨_, h⟩ => (by cases h), fun h => (by rcases h with ⟨_, h⟩ | ⟨_, h⟩ <;> cases h)⟩

end

theorem toNumber_error_iff (value : Json) : (∃ e, value.toNumber js = .error e) ↔ value.textless = true := by
  rw [← toText_error_iff js value]
  cases value with
  | null | bool | num => exact ⟨fun ⟨_, h⟩ => (by cases h), fun ⟨_, h⟩ => (by cases h)⟩
  | str | arr | obj =>
    simp only [toNumber]
    cases toText js _ with
    | error e => exact ⟨fun _ => ⟨e, rfl⟩, fun _ => ⟨e, rfl⟩⟩
    | ok text => exact ⟨fun ⟨_, h⟩ => (by cases h), fun ⟨_, h⟩ => (by cases h)⟩

theorem exceeds_error_iff (bound : Nat) (value : Option Json) :
    (∃ e, Json.exceeds js bound value = .error e) ↔ value.any textless = true := by
  cases value with
  | none => exact ⟨fun ⟨_, h⟩ => (by cases h), fun h => (by cases h)⟩
  | some value =>
    rw [Option.any_some, ← toNumber_error_iff js value, Json.exceeds]
    cases value.toNumber js with
    | error e => exact ⟨fun _ => ⟨e, rfl⟩, fun _ => ⟨e, rfl⟩⟩
    | ok number => exact ⟨fun ⟨_, h⟩ => (by cases h), fun ⟨_, h⟩ => (by cases h)⟩

/-- What `for ... of` and `new Set` take. -/
def iterable : Json → Bool
  | .arr _ | .str _ => true
  | _ => false

theorem elements_ok {value : Json} (h : value.iterable = true) : ∃ elements, value.elements = .ok elements := by
  cases value with
  | arr | str => exact ⟨_, rfl⟩
  | null | bool | num | obj => cases h

theorem elements_error {value : Json} (h : value.iterable = false) : ∃ e, value.elements = .error e := by
  cases value with
  | arr | str => cases h
  | null | bool | num | obj => exact ⟨_, rfl⟩

end Json

/-- The envelope has what the socket asks for, and a length that cannot be compared. -/
def Incomparable (envelope : Option Json) : Prop :=
  Json.truthy (envelope.bind (Json.field "recipient")) = true ∧ Json.truthy (envelope.bind (Json.field "ciphertext")) = true ∧
    ((envelope.bind (Json.field "ciphertext")).bind Json.length).any Json.textless = true

namespace Relay

/-- The failures nobody handles, on every socket. -/
def unhandled (relay : Relay) : List (Nat × Failure) :=
  relay.sent.filterMap (fun sent => match sent with
    | .unhandled connection failure => some (connection, failure)
    | _ => none)

/-- The messages the handler throws at: `null`, an envelope with a length that cannot be compared, and, on a socket that has
authenticated as an address with a queue, ids that are no list. -/
inductive Chokes (relay : Relay) (connection : Nat) : Option Json → Prop
  | null : Chokes relay connection (some .null)
  | send {parsed : Json} (asked : (parsed.field "type").bind Json.text? = some "send")
      (incomparable : Incomparable (parsed.field "envelope")) : Chokes relay connection (some parsed)
  | acknowledge {parsed : Json} {address : String} (asked : (parsed.field "type").bind Json.text? = some "acknowledge")
      (authenticated : relay.connections[connection]?.bind Connection.address = some address)
      (queued : (relay.store.queues.get? address).isSome)
      (ids : (orElse (parsed.field "ids") (.arr [])).iterable = false) : Chokes relay connection (some parsed)

/-- What the handler does with a message otherwise: it replies with an error, or does what a valid message asks. -/
inductive Served (js : NumberText) (relay : Relay) (connection : Nat) : Option Json → Relay → Prop
  | refused {parsed : Option Json} (auth : AuthService) (code message : String) :
      Served js relay connection parsed (({ relay with auth } : Relay).send connection (.error code message))
  | authenticated {parsed : Json} {now : Int} {address : String}
      (asked : (parsed.field "type").bind Json.text? = some "authenticate")
      (resolved : (relay.auth.resolve (parsed.field "token") now).2 = some address) :
      Served js relay connection (some parsed) (relay.socketAuthenticate connection (parsed.field "token") now)
  | ponged {parsed : Json} (asked : (parsed.field "type").bind Json.text? = some "ping") :
      Served js relay connection (some parsed) (relay.send connection .pong)
  | submitted {parsed envelope : Json} {source : String} (asked : (parsed.field "type").bind Json.text? = some "send")
      (given : parsed.field "envelope" = some envelope)
      (passes : checkEnvelope js ["recipient", "ciphertext"] (some envelope) = none) :
      Served js relay connection (some parsed) (relay.submit (.socket connection) source envelope)
  | acknowledged {parsed : Json} {address : String} {ids : List Json}
      (asked : (parsed.field "type").bind Json.text? = some "acknowledge")
      (authenticated : relay.connections[connection]?.bind Connection.address = some address) :
      Served js relay connection (some parsed) { relay with store := (relay.store.acknowledge address ids).1 }

section

variable {K : Type} {crypto : Cryptography K} {js : NumberText} {relay next : Relay} {connection : Nat} {parsed : Option Json}
  {now : Int}

@[simp] theorem unhandled_send (message : ServerSocketMessage) :
    (relay.send connection message).unhandled = relay.unhandled := by
  unfold send
  split
  next => simp [unhandled, emit]
  next => rfl

@[simp] theorem unhandled_respond (request : Request) (response : Response) :
    (relay.respond request response).unhandled = relay.unhandled := by
  simp [unhandled, respond, emit]

@[simp] theorem unhandled_await (origin : Origin) (handler : Handler) :
    (relay.await origin handler).unhandled = relay.unhandled := rfl

@[simp] theorem unhandled_submit (origin : Origin) (source : String) (envelope : Json) :
    (relay.submit origin source envelope).unhandled = relay.unhandled := rfl

theorem unhandled_emit (failure : Failure) :
    (relay.emit (.unhandled connection failure)).unhandled = relay.unhandled ++ [(connection, failure)] := by
  simp [unhandled, emit]

/-- Serving a message leaves no failure behind. -/
theorem Served.unhandled (h : Served js relay connection parsed next) : next.unhandled = relay.unhandled := by
  cases h with
  | refused => exact unhandled_send _
  | authenticated asked resolved =>
    simp only [socketAuthenticate, resolved]
    exact unhandled_send _
  | ponged => exact unhandled_send _
  | submitted => rfl
  | acknowledged => rfl

/-- What comes of an envelope whose fields are there. -/
theorem socketSend_given {envelope : Option Json} (recipient : Json.truthy (envelope.bind (Json.field "recipient")) = true)
    (ciphertext : Json.truthy (envelope.bind (Json.field "ciphertext")) = true) :
    checkEnvelope js ["recipient", "ciphertext"] envelope =
      match Json.exceeds js maxEnvelopeBytes ((envelope.bind (Json.field "ciphertext")).bind Json.length) with
      | .error e => some (.thrown e)
      | .ok true => some .tooLarge
      | .ok false => none := by
  have hgiven : ["recipient", "ciphertext"].all
      (fun name => Json.truthy (envelope.bind (Json.field name))) = true := by
    rw [List.all_cons, List.all_cons, recipient, ciphertext]
    rfl
  rw [checkEnvelope, hgiven]
  rfl

theorem socketSend_cases (envelope : Option Json) :
    (Incomparable envelope ∧ ∃ failure, relay.socketSend js connection envelope = relay.emit (.unhandled connection failure)) ∨
      ¬Incomparable envelope ∧
        ((∃ code message, relay.socketSend js connection envelope = relay.send connection (.error code message)) ∨
          ∃ sent source, envelope = some sent ∧ checkEnvelope js ["recipient", "ciphertext"] envelope = none ∧
            relay.socketSend js connection envelope = relay.submit (.socket connection) source sent) := by
  by_cases hgiven : Json.truthy (envelope.bind (Json.field "recipient")) = true ∧
      Json.truthy (envelope.bind (Json.field "ciphertext")) = true
  · obtain ⟨hrecipient, hciphertext⟩ := hgiven
    have hcheck := (@socketSend_given js) hrecipient hciphertext
    have herror := Json.exceeds_error_iff js maxEnvelopeBytes
      ((envelope.bind (Json.field "ciphertext")).bind Json.length)
    cases hexceeds : Json.exceeds js maxEnvelopeBytes ((envelope.bind (Json.field "ciphertext")).bind Json.length) with
    | error e =>
      rw [hexceeds] at hcheck herror
      refine Or.inl ⟨⟨hrecipient, hciphertext, herror.mp ⟨e, rfl⟩⟩, e, ?_⟩
      simp only [socketSend, hcheck]
    | ok large =>
      rw [hexceeds] at hcheck herror
      refine Or.inr ⟨fun h => ?_, ?_⟩
      · obtain ⟨e, he⟩ := herror.mpr h.2.2
        cases he
      · cases large with
        | true =>
          refine Or.inl ⟨"too_large", "envelope too large", ?_⟩
          simp only [socketSend, hcheck]
        | false =>
          cases envelope with
          | none => cases hrecipient
          | some sent =>
            refine Or.inr ⟨sent, relay.connections[connection]?.elim "" Connection.ip, rfl, hcheck, ?_⟩
            simp only [socketSend, hcheck, Option.getD_some]
  · have hcheck : checkEnvelope js ["recipient", "ciphertext"] envelope = some .malformed := by
      simp only [checkEnvelope, List.all_cons, List.all_nil, Bool.and_true, Bool.not_eq_true', Bool.and_eq_false_imp]
      refine if_pos (fun hrecipient => ?_)
      exact Bool.not_eq_true _ ▸ fun hciphertext => hgiven ⟨hrecipient, hciphertext⟩
    refine Or.inr ⟨fun h => hgiven ⟨h.1, h.2.1⟩, Or.inl ⟨"malformed", "invalid envelope", ?_⟩⟩
    simp only [socketSend, hcheck]

theorem socketAcknowledge_cases {parsed : Json} (asked : (parsed.field "type").bind Json.text? = some "acknowledge") :
    (relay.Chokes connection (some parsed) ∧
        ∃ failure, relay.socketAcknowledge connection (parsed.field "ids") = relay.emit (.unhandled connection failure)) ∨
      ¬relay.Chokes connection (some parsed) ∧
        Served js relay connection (some parsed) (relay.socketAcknowledge connection (parsed.field "ids")) := by
  have hchokes : relay.Chokes connection (some parsed) → ∃ address,
      relay.connections[connection]?.bind Connection.address = some address ∧
        (relay.store.queues.get? address).isSome ∧ (orElse (parsed.field "ids") (.arr [])).iterable = false := by
    rintro (_ | ⟨asked', _⟩ | ⟨_, authenticated, queued, ids⟩)
    · cases asked
    · rw [asked] at asked'
      exact absurd asked' (by decide)
    · exact ⟨_, authenticated, queued, ids⟩
  cases haddress : relay.connections[connection]?.bind Connection.address with
  | none =>
    refine Or.inr ⟨fun h => ?_, ?_⟩
    · obtain ⟨_, h, _⟩ := hchokes h
      rw [haddress] at h
      cases h
    · simp only [socketAcknowledge, haddress]
      exact .refused relay.auth "unauthorized" "not authenticated"
  | some address =>
    cases hqueue : relay.store.queues.get? address with
    | none =>
      refine Or.inr ⟨fun h => ?_, ?_⟩
      · obtain ⟨_, hauthenticated, hqueued, _⟩ := hchokes h
        obtain rfl := Option.some.inj (haddress.symm.trans hauthenticated)
        rw [hqueue] at hqueued
        cases hqueued
      · have hsame : relay.socketAcknowledge connection (parsed.field "ids") =
            { relay with store := (relay.store.acknowledge address []).1 } := by
          simp [socketAcknowledge, haddress, hqueue, RelayStore.acknowledge]
        rw [hsame]
        exact .acknowledged asked haddress
    | some queue =>
      cases hids : (orElse (parsed.field "ids") (.arr [])).iterable with
      | true =>
        obtain ⟨ids, helements⟩ := Json.elements_ok hids
        refine Or.inr ⟨fun h => ?_, ?_⟩
        · obtain ⟨_, _, _, h⟩ := hchokes h
          rw [hids] at h
          cases h
        have hsame : relay.socketAcknowledge connection (parsed.field "ids") =
            { relay with store := (relay.store.acknowledge address ids).1 } := by
          simp [socketAcknowledge, haddress, hqueue, helements]
        rw [hsame]
        exact .acknowledged asked haddress
      | false =>
        obtain ⟨e, helements⟩ := Json.elements_error hids
        refine Or.inl ⟨.acknowledge asked haddress (by rw [hqueue]; rfl) hids, e, ?_⟩
        simp [socketAcknowledge, haddress, hqueue, helements]

theorem onMessage_authenticate {value : Json} (asked : (value.field "type").bind Json.text? = some "authenticate") :
    relay.onMessage js connection (some value) now = relay.socketAuthenticate connection (value.field "token") now := by
  unfold onMessage
  cases value with
  | obj fields => simp only [asked]
  | null | bool | num | str | arr => cases asked

/-- The handler throws at a message it chokes on, and serves any other. -/
theorem onMessage_cases (parsed : Option Json) :
    (relay.Chokes connection parsed ∧
        ∃ failure, relay.onMessage js connection parsed now = relay.emit (.unhandled connection failure)) ∨
      ¬relay.Chokes connection parsed ∧ Served js relay connection parsed (relay.onMessage js connection parsed now) := by
  unfold onMessage
  split
  next => exact Or.inr ⟨nofun, .refused relay.auth "malformed" "invalid JSON"⟩
  next => exact Or.inl ⟨.null, _, rfl⟩
  next parsed hnull =>
    have hasks : relay.Chokes connection (some parsed) → ((parsed.field "type").bind Json.text? = some "send" ∧
        Incomparable (parsed.field "envelope")) ∨ (parsed.field "type").bind Json.text? = some "acknowledge" := by
      rintro (_ | ⟨asked, incomparable⟩ | ⟨asked, _, _, _⟩)
      · exact absurd rfl hnull
      · exact Or.inl ⟨asked, incomparable⟩
      · exact Or.inr asked
    split
    next asked =>
      rw [asked] at hasks
      refine Or.inr ⟨fun h => (by rcases hasks h with ⟨h, _⟩ | h <;> exact absurd h (by decide)), ?_⟩
      cases hresolve : (relay.auth.resolve (parsed.field "token") now).2 with
      | none =>
        simp only [socketAuthenticate, hresolve]
        exact .refused _ "unauthorized" "invalid token"
      | some address => exact .authenticated asked hresolve
    next asked =>
      rw [asked] at hasks
      exact Or.inr ⟨fun h => (by rcases hasks h with ⟨h, _⟩ | h <;> exact absurd h (by decide)), .ponged asked⟩
    next asked =>
      rcases socketSend_cases (parsed.field "envelope") with
        ⟨hbad, failure, hsend⟩ | ⟨hgood, hsend⟩
      · exact Or.inl ⟨.send asked hbad, failure, hsend⟩
      · refine Or.inr ⟨fun h => ?_, ?_⟩
        · rcases hasks h with ⟨_, hbad⟩ | hother
          · exact hgood hbad
          · rw [asked] at hother
            exact absurd hother (by decide)
        · rcases hsend with ⟨code, message, hsend⟩ | ⟨sent, source, hgiven, hpasses, hsend⟩
          · rw [hsend]
            exact .refused relay.auth code message
          · rw [hsend]
            exact .submitted asked hgiven (hgiven ▸ hpasses)
    next asked => exact socketAcknowledge_cases asked
    next _ hsend hacknowledge =>
      refine Or.inr ⟨fun h => ?_, .refused relay.auth "unknown" "unrecognised message type"⟩
      rcases hasks h with ⟨asked, _⟩ | asked
      · exact hsend asked
      · exact hacknowledge asked

theorem unhandled_foldl_send {α : Type} (items : List α) (connection : α → Nat) (message : α → ServerSocketMessage) :
    (items.foldl (fun relay item => relay.send (connection item) (message item)) relay).unhandled = relay.unhandled := by
  induction items generalizing relay with
  | nil => rfl
  | cons item items ih =>
    rw [List.foldl_cons, ih]
    exact unhandled_send _

theorem handle_unhandled (ip : String) (request : Request) (random : Bytes) :
    (relay.handle crypto js ip request random now).unhandled = relay.unhandled := by
  cases request <;> simp only [handle, register, challenge, authenticate, uploadKeys, countKeys, sendMessage, fetchMessages,
    acknowledge]
  all_goals repeat' split
  all_goals simp only [unhandled_respond, unhandled_await, unhandled_submit]
  all_goals rfl

@[simp] theorem unhandled_accept (origin : Origin) : (relay.accept origin).unhandled = relay.unhandled := by
  cases origin with
  | request => exact unhandled_respond _ _
  | socket => exact unhandled_send _

theorem resume_unhandled (origin : Origin) (handler : Handler) (random : Bytes) :
    (relay.resume crypto js origin handler random now).unhandled = relay.unhandled := by
  unfold resume
  split
  next =>
    split
    next => rfl
    next => exact unhandled_accept _
  next =>
    rw [unhandled_accept]
    exact unhandled_foldl_send _ id _
  next => exact unhandled_foldl_send _ (fun _ => _) _
  next =>
    simp only [resumeRequest, upload]
    repeat' split
    all_goals first | rfl | exact unhandled_respond _ _
  next => rfl

theorem onClose_unhandled : (relay.onClose connection).unhandled = relay.unhandled := by
  simp only [onClose]
  repeat' split
  all_goals rfl

/-- Only a message that the handler chokes on leaves a failure behind. -/
theorem perform_unhandled {move : RelayMove}
    (served : ∀ connection parsed now, move = .message connection parsed now → ¬relay.Chokes connection parsed) :
    (relay.perform crypto js move).unhandled = relay.unhandled := by
  cases move with
  | request ip request random now => exact handle_unhandled ip request random
  | connect ip => rfl
  | message connection parsed now =>
    rcases onMessage_cases parsed with
      ⟨hchokes, _⟩ | ⟨_, hserved⟩
    · exact absurd hchokes (served connection parsed now rfl)
    · exact hserved.unhandled
  | close connection => exact onClose_unhandled
  | resume index random now =>
    simp only [perform]
    split
    next => rfl
    next => exact resume_unhandled _ _ _
  | housekeeping now => rfl

end

/-- No message is one the handler chokes on. -/
def Palatable (relay : Relay) (move : RelayMove) : Prop :=
  ∀ connection parsed now, move = .message connection parsed now → ¬relay.Chokes connection parsed

/-- The message handler leaves no failure behind, and does what it is asked or replies with an error, exactly when it does
not choke on the message; and where it chokes on none, nothing of a whole run leaves one. -/
theorem socket_total {K : Type} (crypto : Cryptography K) (js : NumberText) :
    (∀ (relay : Relay) (connection : Nat) (parsed : Option Json) (now : Int),
      (relay.onMessage js connection parsed now).unhandled = relay.unhandled ∧
          Served js relay connection parsed (relay.onMessage js connection parsed now) ↔
        ¬relay.Chokes connection parsed) ∧
      ∀ start relay : Relay, Start start → Relation.ReflTransGen (Step crypto js Palatable) start relay →
        relay.unhandled = [] := by
  refine ⟨fun relay connection parsed now => ?_, fun start relay hstart run => ?_⟩
  · rcases onMessage_cases parsed with
      ⟨hchokes, failure, hthrows⟩ | ⟨hserves, hserved⟩
    · refine ⟨fun h => ?_, fun h => absurd hchokes h⟩
      have hunhandled := h.1
      rw [hthrows, unhandled_emit] at hunhandled
      exact absurd hunhandled (by simp)
    · exact ⟨fun _ => hserves, fun _ => ⟨hserved.unhandled, hserved⟩⟩
  · refine Runs.preserved (P := fun relay => relay.unhandled = []) ?_ run ?_
    · rintro relay _ ⟨move, _, served, rfl⟩ h
      rw [perform_unhandled served, h]
    · obtain ⟨limit, rfl⟩ := hstart
      rfl

def plainNumbers : NumberText where
  write _ := "0"
  read _ := .nan

/-- A relay with one open socket. -/
def connected : Relay := { sendLimiter := { limit := 120, windowMs := 60000 }, connections := [{ ip := "10.0.0.1" }] }

/-- A ping. -/
theorem socket_total_ping : ({ sendLimiter := { limit := 120, windowMs := 60000 } } : Relay).perform spelled plainNumbers
      (.connect "10.0.0.1") = connected ∧
    (connected.onMessage plainNumbers 0 (some (.obj [("type", .str "ping")])) 0).unhandled = [] := by
  have run : Relation.ReflTransGen (Step spelled plainNumbers Palatable)
      { sendLimiter := { limit := 120, windowMs := 60000 } }
      (connected.onMessage plainNumbers 0 (some (.obj [("type", .str "ping")])) 0) := by
    refine (Relation.ReflTransGen.single (b := connected) ⟨.connect "10.0.0.1", trivial, nofun, rfl⟩).tail
      ⟨.message 0 (some (.obj [("type", .str "ping")])) 0, rfl, ?_, rfl⟩
    rintro connection parsed now ⟨⟩ (_ | ⟨asked, _⟩ | ⟨asked, _, _, _⟩)
    · exact absurd asked (by decide)
    · exact absurd asked (by decide)
  exact ⟨rfl, (socket_total spelled plainNumbers).2 _ _ ⟨120, rfl⟩ run⟩

/-- The text `null`. -/
theorem null_unhandled : ¬ ∀ (relay : Relay) (connection : Nat) (parsed : Option Json) (now : Int),
    relay.connections[connection]?.any Connection.isOpen = true →
      (relay.onMessage plainNumbers connection parsed now).unhandled = relay.unhandled := by
  intro claim
  have hnull := claim connected 0 (some .null) 0 rfl
  exact absurd hnull (by decide)

end Relay

end Veil
