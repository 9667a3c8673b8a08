import Veil.Session

namespace Veil

/-- Where `decryptEnvelope` takes an envelope once the sealed layer is off. -/
inductive Route (K : Type)
  | refused (failure : Failure)
  | live (sender : PublicIdentity) (address : String) (session : Session K) (answered : Bool)
      (message : RatchetMessage)
  | first (sender : PublicIdentity) (address : String) (preamble : PreKeyPreamble) (body : Bytes)

/-- A message that carries no preamble answers ours, so the session stops repeating it. -/
def settle {K : Type} (answered : Bool) (session : Session K) : Session K :=
  if answered then { session with pendingPreKey := none } else session

@[simp] theorem settle_ratchet {K : Type} (answered : Bool) (session : Session K) :
    (settle answered session).ratchet = session.ratchet := by
  cases answered <;> rfl

@[simp] theorem settle_peerIdentity {K : Type} (answered : Bool) (session : Session K) :
    (settle answered session).peerIdentity = session.peerIdentity := by
  cases answered <;> rfl

@[simp] theorem settle_establishedBy {K : Type} (answered : Bool) (session : Session K) :
    (settle answered session).establishedBy = session.establishedBy := by
  cases answered <;> rfl

section

variable {K : Type} (crypto : Cryptography K)

def routeOpened (opened : OpenedEnvelope) (address : String) (session : Option (Session K)) : Route K :=
  if opened.payloadKind = payloadPreKey then
    match decodePreKeyPayload.all opened.payload with
    | .error e => .refused e
    | .ok (preamble, body) =>
      match repeatsHandshake session preamble with
      | some existing =>
        match decodeBody body with
        | .error e => .refused e
        | .ok message => .live opened.senderIdentity address existing false message
      | none => .first opened.senderIdentity address preamble body
  else if opened.payloadKind ≠ payloadRatchet then
    .refused (.malformedInput s!"unknown payload kind {opened.payloadKind}")
  else
    match session with
    | none => .refused (.sessionState
        "no session for this sender; a prekey message is required to establish one")
    | some session =>
      match decodeRatchetMessage.all opened.payload with
      | .error e => .refused e
      | .ok message => .live opened.senderIdentity address session true message

def route (self : PrivateIdentity K) (envelope : SealedEnvelope) (lookupSession : String → Option (Session K))
    (pinnedIdentityKey : String → Option Bytes) : Route K :=
  match openInbound crypto self envelope pinnedIdentityKey with
  | .error e => .refused e
  | .ok (opened, address) => routeOpened opened address (lookupSession address)

/-- Neither the store nor a fresh pair has a say in the route. -/
theorem decryptEnvelope_eq (fresh : KeyPair K) (self : PrivateIdentity K) (envelope : SealedEnvelope)
    (lookupSession : String → Option (Session K)) (preKeys : InMemoryPreKeyStore K)
    (pinnedIdentityKey : String → Option Bytes) :
    decryptEnvelope crypto fresh self envelope lookupSession preKeys pinnedIdentityKey =
      match route crypto self envelope lookupSession pinnedIdentityKey with
      | .refused e => { preKeys, result := .error e }
      | .live sender address session answered message =>
        decryptWith crypto fresh sender address session (settle answered) message preKeys
      | .first sender _ preamble body => decryptFirst crypto fresh self sender preamble body preKeys := by
  unfold decryptEnvelope route
  cases openInbound crypto self envelope pinnedIdentityKey with
  | error e => rfl
  | ok inbound =>
    obtain ⟨opened, address⟩ := inbound
    simp only [routeOpened]
    by_cases hkind : opened.payloadKind = payloadPreKey
    · simp only [if_pos hkind]
      cases decodePreKeyPayload.all opened.payload with
      | error e => rfl
      | ok decoded =>
        obtain ⟨preamble, body⟩ := decoded
        simp only
        cases repeatsHandshake (lookupSession address) preamble with
        | none => rfl
        | some existing =>
          simp only
          cases decodeBody body <;> rfl
    · simp only [if_neg hkind]
      by_cases hratchet : opened.payloadKind = payloadRatchet
      · simp only [ne_eq, hratchet, not_true_eq_false, ↓reduceIte]
        cases lookupSession address with
        | none => rfl
        | some session =>
          simp only
          cases decodeRatchetMessage.all opened.payload <;> rfl
      · simp only [ne_eq, hratchet, not_false_eq_true, ↓reduceIte]

/-- The ratchet message inside a payload, whichever way it is carried. -/
def carried (opened : OpenedEnvelope) : Except Failure RatchetMessage :=
  if opened.payloadKind = payloadPreKey then do
    let (_, body) ← decodePreKeyPayload.all opened.payload
    decodeBody body
  else decodeRatchetMessage.all opened.payload

end

section

variable {K : Type} {crypto : Cryptography K} {self : PrivateIdentity K} {envelope : SealedEnvelope}
  {lookupSession : String → Option (Session K)} {pinnedIdentityKey : String → Option Bytes}

theorem repeatsHandshake_eq_some {session : Option (Session K)} {preamble : PreKeyPreamble} {existing : Session K}
    (h : repeatsHandshake session preamble = some existing) :
    session = some existing ∧ existing.establishedBy = some preamble.ephemeralPublicKey := by
  unfold repeatsHandshake at h
  rw [Option.filter_eq_some_iff] at h
  obtain ⟨hsession, hany⟩ := h
  refine ⟨hsession, ?_⟩
  cases hby : existing.establishedBy with
  | none => simp [hby] at hany
  | some ephemeral =>
    rw [hby, Option.any_some] at hany
    rw [constantTimeEqual_iff.mp hany]

/-- A live session takes the message the envelope carries; a ratchet payload settles our preamble. -/
theorem route_live {sender : PublicIdentity} {address : String} {session : Session K} {answered : Bool}
    {message : RatchetMessage}
    (h : route crypto self envelope lookupSession pinnedIdentityKey = .live sender address session answered message) :
    ∃ opened, openInbound crypto self envelope pinnedIdentityKey = .ok (opened, address) ∧
      sender = opened.senderIdentity ∧ lookupSession address = some session ∧ carried opened = .ok message := by
  unfold route at h
  split at h
  next => simp at h
  next opened address' hopen =>
    unfold routeOpened at h
    split at h
    next hkind =>
      split at h
      next => simp at h
      next preamble body hdecode =>
        split at h
        next existing hrepeats =>
          split at h
          next => simp at h
          next message' hbody =>
            simp only [Route.live.injEq] at h
            obtain ⟨rfl, rfl, rfl, _, rfl⟩ := h
            exact ⟨opened, hopen, rfl, (repeatsHandshake_eq_some hrepeats).1, by
              simp [carried, if_pos hkind, hdecode, hbody]⟩
        next => simp at h
    next hkind =>
      split at h
      next => simp at h
      next =>
        split at h
        next => simp at h
        next session' hlookup =>
          split at h
          next => simp at h
          next message' hdecode =>
            simp only [Route.live.injEq] at h
            obtain ⟨rfl, rfl, rfl, _, rfl⟩ := h
            exact ⟨opened, hopen, rfl, hlookup, by simp [carried, if_neg hkind, hdecode]⟩

theorem route_first {sender : PublicIdentity} {address : String} {preamble : PreKeyPreamble} {body : Bytes}
    (h : route crypto self envelope lookupSession pinnedIdentityKey = .first sender address preamble body) :
    ∃ opened, openInbound crypto self envelope pinnedIdentityKey = .ok (opened, address) ∧
      sender = opened.senderIdentity ∧ opened.payloadKind = payloadPreKey ∧
      decodePreKeyPayload.all opened.payload = .ok (preamble, body) ∧
      repeatsHandshake (lookupSession address) preamble = none := by
  unfold route at h
  split at h
  next => simp at h
  next opened address' hopen =>
    unfold routeOpened at h
    split at h
    next hkind =>
      split at h
      next => simp at h
      next preamble' body' hdecode =>
        split at h
        next => split at h <;> simp at h
        next hrepeats =>
          simp only [Route.first.injEq] at h
          obtain ⟨rfl, rfl, rfl, rfl⟩ := h
          exact ⟨opened, hopen, rfl, hkind, hdecode, hrepeats⟩
    next =>
      split at h
      next => simp at h
      next =>
        split at h
        next => simp at h
        next => split at h <;> simp at h

/-- Pins only decide whether the envelope is let in: what it opens to is the envelope's own. -/
theorem openInbound_unpinned {opened : OpenedEnvelope} {address : String}
    (h : openInbound crypto self envelope pinnedIdentityKey = .ok (opened, address)) :
    openInbound crypto self envelope (fun _ => none) = .ok (opened, address) ∧
      addressOf crypto opened.senderIdentity.signingPublicKey = .ok address := by
  simp only [openInbound, Outcome.bind_eq_ok_iff] at h
  obtain ⟨selfAddress, hself, opened', hopened, address', haddress, h⟩ := h
  have hout : opened' = opened ∧ address' = address := by
    split at h
    next pinned =>
      split at h
      next =>
        obtain ⟨_, _, h⟩ := Outcome.bind_eq_ok_iff.mp h
        cases h
      next => simpa [pure, Except.pure] using h
    next => simpa [pure, Except.pure] using h
  obtain ⟨rfl, rfl⟩ := hout
  refine ⟨?_, haddress⟩
  simp only [openInbound, hself, hopened, haddress, Outcome.ok_bind]
  rfl

variable (crypto self envelope) in
/-- The sender's address and the ratchet message of an envelope addressed to us. -/
def contents : Except Failure (String × RatchetMessage) := do
  let (opened, address) ← openInbound crypto self envelope (fun _ => none)
  let message ← carried opened
  return (address, message)

theorem contents_of_live {sender : PublicIdentity} {address : String} {session : Session K} {answered : Bool}
    {message : RatchetMessage}
    (h : route crypto self envelope lookupSession pinnedIdentityKey = .live sender address session answered message) :
    contents crypto self envelope = .ok (address, message) ∧ lookupSession address = some session ∧
      addressOf crypto sender.signingPublicKey = .ok address := by
  obtain ⟨opened, hopen, rfl, hlookup, hcarried⟩ := route_live h
  obtain ⟨hopen, haddress⟩ := openInbound_unpinned hopen
  refine ⟨?_, hlookup, haddress⟩
  simp only [contents, hopen, hcarried, Outcome.ok_bind]
  rfl

theorem contents_of_first {sender : PublicIdentity} {address : String} {preamble : PreKeyPreamble} {body : Bytes}
    {message : RatchetMessage}
    (h : route crypto self envelope lookupSession pinnedIdentityKey = .first sender address preamble body)
    (hbody : decodeBody body = .ok message) :
    contents crypto self envelope = .ok (address, message) ∧
      addressOf crypto sender.signingPublicKey = .ok address := by
  obtain ⟨opened, hopen, rfl, hkind, hdecode, _⟩ := route_first h
  obtain ⟨hopen, haddress⟩ := openInbound_unpinned hopen
  refine ⟨?_, haddress⟩
  simp only [contents, hopen, carried, if_pos hkind, hdecode, hbody, Outcome.ok_bind]
  rfl

end

end Veil
