import Veil.Issuance
import Veil.OneTimeSpending

namespace Veil

/-- A sealed envelope on its way, with the ratchet message inside and the plaintext its sender gave. -/
structure Parcel where
  recipient : Role
  envelope : SealedEnvelope
  message : RatchetMessage
  plaintext : Bytes

def Parcel.letter (parcel : Parcel) : Letter := ⟨parcel.recipient, parcel.message, pad parcel.plaintext⟩

/-- What `startSession` leaves on the two sides: the preamble, the store that issued the bundle, and the ratchet state
the preamble will lead to there. -/
structure Opening (K : Type) where
  preamble : PreKeyPreamble
  issued : InMemoryPreKeyStore K
  initial : RatchetState K

/-- A session from its first message on: the two stored sessions, the responder's prekeys, the network, the ratchet keys
generated so far, and how many envelopes each side has been delivered. -/
structure EarlyTraffic (K : Type) where
  opening : Opening K
  initiator : Session K
  responder : Option (Session K) := none
  preKeys : InMemoryPreKeyStore K
  inFlight : List Parcel := []
  used : List Bytes
  delivered : Role → Nat := fun _ => 0

section

variable {K : Type} (crypto : Cryptography K) (honest : Generators K) (identity : Role → PrivateIdentity K)
  (address : Role → String)

namespace EarlyTraffic

def session (w : EarlyTraffic K) : Role → Option (Session K)
  | .initiator => some w.initiator
  | .responder => w.responder

def setSession (w : EarlyTraffic K) (r : Role) (session : Session K) : EarlyTraffic K :=
  match r with
  | .initiator => { w with initiator := session }
  | .responder => { w with responder := some session }

/-- The ratchet state a delivery works on. -/
def ratchet (w : EarlyTraffic K) (r : Role) : RatchetState K := ((w.session r).map (fun s => s.ratchet)).getD w.opening.initial

/-- The two ratchets and the messages in flight, without sessions and envelopes. -/
def exchange (w : EarlyTraffic K) : Exchange K where
  state := w.ratchet
  inFlight := w.inFlight.map Parcel.letter
  used := w.used

/-- `encryptMessage` with the stored session. -/
def send (r : Role) (plaintext : Bytes) (ephemeral : KeyPair K) (w : EarlyTraffic K) : EarlyTraffic K :=
  match w.session r with
  | none => w
  | some session =>
    let sent := encryptMessage crypto (identity r) session plaintext ephemeral
    let parcels := match (ratchetEncrypt crypto.toRatchetPrimitives session.ratchet (pad plaintext)).2, sent.2 with
      | .ok message, .ok envelope => [⟨r.other, envelope, message, plaintext⟩]
      | _, _ => []
    { w.setSession r sent.1 with inFlight := w.inFlight ++ parcels }

/-- What the recipient keeps of a call of `decryptEnvelope`. -/
def keep (r : Role) (d : Decryption K) (w : EarlyTraffic K) : EarlyTraffic K :=
  let w := if r = .responder then { w with preKeys := d.preKeys } else w
  match d.result, d.touched with
  | .ok message, _ => w.setSession r message.session
  | .error _, some (_, session) => w.setSession r session
  | .error _, none => w

def receive (fresh : KeyPair K) (parcel : Parcel) (lookupSession : String → Option (Session K))
    (preKeys : InMemoryPreKeyStore K) (pins : String → Option Bytes) (w : EarlyTraffic K) : EarlyTraffic K :=
  { w.keep parcel.recipient
      (decryptEnvelope crypto fresh (identity parcel.recipient) parcel.envelope lookupSession preKeys pins) with
    used := if StartsTurn crypto.toRatchetPrimitives (w.ratchet parcel.recipient) parcel.message.header then
      fresh.publicKey :: w.used else w.used
    delivered := Function.update w.delivered parcel.recipient (w.delivered parcel.recipient + 1) }

/-- How the recipient calls `decryptEnvelope` on a parcel: with the session it has stored for the sender, with its own
prekeys, and with no other key pinned for the sender. -/
structure Calls (w : EarlyTraffic K) (parcel : Parcel) (lookupSession : String → Option (Session K))
    (preKeys : InMemoryPreKeyStore K) (pins : String → Option Bytes) : Prop where
  stored : lookupSession (address parcel.recipient.other) = w.session parcel.recipient
  preKeys : parcel.recipient = .responder → preKeys = w.preKeys
  pinned : ∀ key, pins (address parcel.recipient.other) = some key →
    key = (identity parcel.recipient.other).signing.publicKey

/-- The gaps are within the skip limits, and a ratchet key drawn for the parcel is a new one. -/
structure Fits (w : EarlyTraffic K) (parcel : Parcel) (fresh : KeyPair K) : Prop where
  within : Exchange.WithinSkipLimits (w.ratchet parcel.recipient) parcel.message.header
  draws : StartsTurn crypto.toRatchetPrimitives (w.ratchet parcel.recipient) parcel.message.header →
    honest.dh fresh ∧ fresh.publicKey ∉ w.used

/-- Either side sends, or an envelope in flight is delivered or lost, in any order. -/
inductive Step : EarlyTraffic K → EarlyTraffic K → Prop
  | send (w : EarlyTraffic K) (r : Role) (plaintext : Bytes) {ephemeral : KeyPair K} (he : honest.dh ephemeral) :
      Step w (w.send crypto identity r plaintext ephemeral)
  | deliver (w : EarlyTraffic K) (before : List Parcel) (parcel : Parcel) (after : List Parcel) {fresh : KeyPair K}
      {lookupSession : String → Option (Session K)} {preKeys : InMemoryPreKeyStore K} {pins : String → Option Bytes}
      (inFlight : w.inFlight = before ++ parcel :: after) (calls : w.Calls identity address parcel lookupSession preKeys pins)
      (fits : w.Fits crypto honest parcel fresh) :
      Step w { w.receive crypto identity fresh parcel lookupSession preKeys pins with inFlight := before ++ after }
  | lose (w : EarlyTraffic K) (before : List Parcel) (parcel : Parcel) (after : List Parcel)
      (inFlight : w.inFlight = before ++ parcel :: after) : Step w { w with inFlight := before ++ after }

/-- The initiator has called `startSession` on a bundle the responder's store has issued, before anyone has completed a
handshake with that store. -/
structure Start (w : EarlyTraffic K) (store : InMemoryPreKeyStore K) (ephemeral sending signedPreKey : KeyPair K)
    (coins : Bytes) (handshake : InitiatorHandshake K) : Prop where
  created : ∃ created, InMemoryPreKeyStore.Created crypto honest (identity .responder) created ∧
    Relation.ReflTransGen (InMemoryPreKeyStore.LifeStep crypto honest (identity .responder) (fun _ => True)) created store
  issued : w.opening.issued = (store.issueBundle (publicIdentityOf (identity .responder))).2
  started : ∃ expected, startSession crypto (identity .initiator)
    (store.issueBundle (publicIdentityOf (identity .responder))).1 expected ephemeral coins sending = .ok w.initiator
  initiated : initiateHandshake crypto (identity .initiator) (store.issueBundle (publicIdentityOf (identity .responder))).1
    ephemeral coins = .ok handshake
  preamble : w.opening.preamble = ⟨handshake.ephemeralPublicKey, handshake.kemCiphertext, handshake.keyIds⟩
  held : store.signedPreKey store.currentSignedPreKey.id = some signedPreKey
  initial : w.opening.initial = initialiseResponder handshake.rootSecret signedPreKey handshake.associatedData
  ephemeralHonest : honest.dh ephemeral
  sendingHonest : honest.dh sending
  distinct : signedPreKey.publicKey ≠ sending.publicKey
  used : w.used = [sending.publicKey, signedPreKey.publicKey]
  responder : w.responder = none
  preKeys : w.preKeys = w.opening.issued
  inFlight : w.inFlight = []
  delivered : w.delivered = fun _ => 0

/-- An honest envelope around the message, with the preamble or, once the responder has a session, without it. -/
def Genuine (w : EarlyTraffic K) (parcel : Parcel) : Prop :=
  ∃ kind payload ephemeral, honest.dh ephemeral ∧
    sealEnvelope crypto (publicIdentityOf (identity parcel.recipient.other))
      (crypto.sign (identity parcel.recipient.other).signing.secretKey) (publicIdentityOf (identity parcel.recipient)) kind payload
      ephemeral = .ok parcel.envelope ∧
    ((parcel.recipient = .responder ∧ kind = payloadPreKey ∧ ∃ body,
        decodePreKeyPayload.all payload = .ok (w.opening.preamble, body) ∧ decodeBody body = .ok parcel.message) ∨
      (kind = payloadRatchet ∧ decodeRatchetMessage.all payload = .ok parcel.message ∧ 0 < w.delivered .responder))

/-- The invariant of a run. -/
structure Coherent (w : EarlyTraffic K) : Prop where
  simulated : ∃ start, start.Start crypto.toRatchetPrimitives honest.dh ∧
    Relation.ReflTransGen (Exchange.Step crypto.toRatchetPrimitives honest.dh) start w.exchange
  responds : ∀ body message, decodeBody body = .ok message →
    respondWith crypto (identity .responder) (publicIdentityOf (identity .initiator)) w.opening.preamble body w.opening.issued =
      .ok ({ peerIdentity := publicIdentityOf (identity .initiator), ratchet := w.opening.initial,
             establishedBy := some w.opening.preamble.ephemeralPublicKey }, message)
  peer : w.initiator.peerIdentity = publicIdentityOf (identity .responder)
  pending : w.initiator.pendingPreKey = if w.delivered .initiator = 0 then some w.opening.preamble else none
  established : ∀ s, w.responder = some s → s.peerIdentity = publicIdentityOf (identity .initiator) ∧
    s.pendingPreKey = none ∧ s.establishedBy = some w.opening.preamble.ephemeralPublicKey
  unopened : w.responder = none ↔ w.delivered .responder = 0
  answered : 0 < w.delivered .initiator → 0 < w.delivered .responder
  unspent : w.delivered .responder = 0 → w.preKeys = w.opening.issued
  spent : 0 < w.delivered .responder →
    w.preKeys.oneTimes = (consumeOneTime w.opening.preamble.keyIds w.opening.issued).oneTimes
  genuine : ∀ parcel ∈ w.inFlight, w.Genuine crypto honest identity parcel

/-- The parcel is the first to reach the responder. -/
def Opens (w : EarlyTraffic K) (parcel : Parcel) : Prop := parcel.recipient = .responder ∧ w.delivered .responder = 0

/-- The call returns the plaintext sent. It reports a new session, and takes the one-time prekeys named, for the first
parcel to reach the responder only; any other it decrypts with the session it finds stored. -/
structure Reading (w : EarlyTraffic K) (parcel : Parcel) (lookupSession : String → Option (Session K))
    (preKeys : InMemoryPreKeyStore K) (pins : String → Option Bytes) (d : Decryption K) : Prop where
  result : ∃ message, d.result = .ok message ∧ message.plaintext = parcel.plaintext ∧
    (message.isNewSession = true ↔ w.Opens parcel)
  first : w.Opens parcel → d.preKeys.oneTimes = (consumeOneTime w.opening.preamble.keyIds preKeys).oneTimes
  later : ¬w.Opens parcel → d.preKeys = preKeys ∧ ∃ session answered, w.session parcel.recipient = some session ∧
    route crypto (identity parcel.recipient) parcel.envelope lookupSession pins =
      .live (publicIdentityOf (identity parcel.recipient.other)) (address parcel.recipient.other) session answered
        parcel.message

end EarlyTraffic

end

namespace EarlyTraffic

section

variable {K : Type} {crypto : Cryptography K} {honest : Generators K} {identity : Role → PrivateIdentity K}
  {address : Role → String} {w : EarlyTraffic K} {parcel : Parcel} {fresh : KeyPair K}
  {lookupSession : String → Option (Session K)} {preKeys : InMemoryPreKeyStore K} {pins : String → Option Bytes}

theorem setSession_ratchet (w : EarlyTraffic K) (r : Role) (session : Session K) :
    (w.setSession r session).ratchet = Function.update w.ratchet r session.ratchet := by
  funext s
  cases r <;> cases s <;> rfl

theorem ratchet_of_session {r : Role} {session : Session K} (h : w.session r = some session) :
    w.ratchet r = session.ratchet := by simp only [ratchet, h, Option.map_some, Option.getD_some]

theorem ratchet_unopened (h : w.session .responder = none) : w.ratchet .responder = w.opening.initial := by
  simp only [ratchet, h, Option.map_none, Option.getD_none]

theorem keep_ok {r : Role} {d : Decryption K} {message : DecryptedMessage K} (h : d.result = .ok message) :
    w.keep r d = ({ w with preKeys := if r = .responder then d.preKeys else w.preKeys } : EarlyTraffic K).setSession r
      message.session := by
  cases r <;> simp only [keep, h] <;> rfl

theorem receive_ok {message : DecryptedMessage K}
    (h : (decryptEnvelope crypto fresh (identity parcel.recipient) parcel.envelope lookupSession preKeys pins).result =
      .ok message) :
    w.receive crypto identity fresh parcel lookupSession preKeys pins =
      { ({ w with preKeys := if parcel.recipient = .responder then (decryptEnvelope crypto fresh
            (identity parcel.recipient) parcel.envelope lookupSession preKeys pins).preKeys else w.preKeys } :
            EarlyTraffic K).setSession parcel.recipient message.session with
        used := if StartsTurn crypto.toRatchetPrimitives (w.ratchet parcel.recipient) parcel.message.header then
          fresh.publicKey :: w.used else w.used
        delivered := Function.update w.delivered parcel.recipient (w.delivered parcel.recipient + 1) } := by
  simp only [receive, keep_ok h]

namespace Coherent

/-- The sessions the two sides have stored are with each other. -/
theorem stored (h : w.Coherent crypto honest identity) {r : Role} {session : Session K}
    (opened : w.session r = some session) : session.peerIdentity = publicIdentityOf (identity r.other) ∧
      (r = .responder → session.pendingPreKey = none ∧
        session.establishedBy = some w.opening.preamble.ephemeralPublicKey ∧ 0 < w.delivered .responder) := by
  cases r with
  | initiator =>
    obtain rfl := Option.some.inj opened
    exact ⟨h.peer, nofun⟩
  | responder =>
    obtain ⟨hpeer, hpending, hestablished⟩ := h.established session opened
    refine ⟨hpeer, fun _ => ⟨hpending, hestablished, Nat.pos_of_ne_zero ?_⟩⟩
    intro hzero
    have hnone : w.session .responder = none := h.unopened.mpr hzero
    rw [hnone] at opened
    cases opened

/-- What the ratchet makes of a parcel in flight. -/
theorem opens (lawful : crypto.Lawful honest) (h : w.Coherent crypto honest identity) (mem : parcel ∈ w.inFlight)
    (fits : w.Fits crypto honest parcel fresh) :
    (ratchetDecrypt crypto.toRatchetPrimitives fresh (w.ratchet parcel.recipient) parcel.message).2 =
      .ok (pad parcel.plaintext) := by
  obtain ⟨start, hstart, run⟩ := h.simulated
  exact Exchange.delivers lawful.ratchet hstart run (List.mem_map_of_mem mem) fits.within
    fits.draws

/-- The sealed layer of a parcel in flight. -/
theorem inbound (lawful : crypto.Lawful honest) (hidentity : ∀ r, (identity r).Honest crypto honest)
    (haddress : ∀ r, addressOf crypto (identity r).signing.publicKey = .ok (address r))
    (calls : w.Calls identity address parcel lookupSession preKeys pins) {kind : Nat} {payload : Bytes}
    {ephemeral : KeyPair K} (he : honest.dh ephemeral)
    (sealed' : sealEnvelope crypto (publicIdentityOf (identity parcel.recipient.other))
      (crypto.sign (identity parcel.recipient.other).signing.secretKey) (publicIdentityOf (identity parcel.recipient)) kind payload
      ephemeral = .ok parcel.envelope) :
    route crypto (identity parcel.recipient) parcel.envelope lookupSession pins =
      routeOpened ⟨publicIdentityOf (identity parcel.recipient.other), kind, payload⟩ (address parcel.recipient.other)
        (w.session parcel.recipient) := by
  have hopen := openInbound_honest lawful (hidentity _) (hidentity _) he sealed' (haddress _) calls.pinned
  unfold route
  rw [hopen, ← calls.stored]

/-- A parcel that finds no session is the first of the handshake. -/
theorem route_unopened (lawful : crypto.Lawful honest) (hidentity : ∀ r, (identity r).Honest crypto honest)
    (haddress : ∀ r, addressOf crypto (identity r).signing.publicKey = .ok (address r)) (h : w.Coherent crypto honest identity)
    (mem : parcel ∈ w.inFlight) (calls : w.Calls identity address parcel lookupSession preKeys pins)
    (unopened : w.session parcel.recipient = none) : parcel.recipient = .responder ∧ ∃ body,
      route crypto (identity .responder) parcel.envelope lookupSession pins =
        .first (publicIdentityOf (identity .initiator)) (address .initiator) w.opening.preamble body ∧
      decodeBody body = .ok parcel.message := by
  obtain ⟨kind, payload, ephemeral, he, hsealed, hkind⟩ := h.genuine parcel mem
  have hroute := inbound lawful hidentity haddress calls he hsealed
  have hrecipient : parcel.recipient = .responder := by
    cases hr : parcel.recipient with
    | initiator =>
      rw [hr] at unopened
      cases unopened
    | responder => rfl
  rw [hrecipient] at unopened hroute
  have hdelivered : w.delivered .responder = 0 := h.unopened.mp unopened
  rcases hkind with ⟨_, rfl, body, hdecode, hbody⟩ | ⟨_, _, hpos⟩
  · refine ⟨hrecipient, body, ?_, hbody⟩
    rw [hroute]
    simp only [routeOpened, if_true, hdecode, unopened, repeatsHandshake, Option.filter_none, Role.other]
  · omega

/-- A parcel that finds a session is handled with it. -/
theorem route_opened (lawful : crypto.Lawful honest) (hidentity : ∀ r, (identity r).Honest crypto honest)
    (haddress : ∀ r, addressOf crypto (identity r).signing.publicKey = .ok (address r)) (h : w.Coherent crypto honest identity)
    (mem : parcel ∈ w.inFlight) (calls : w.Calls identity address parcel lookupSession preKeys pins) {session : Session K}
    (opened : w.session parcel.recipient = some session) : ∃ answered,
      (parcel.recipient = .initiator → answered = true) ∧
        route crypto (identity parcel.recipient) parcel.envelope lookupSession pins =
          .live (publicIdentityOf (identity parcel.recipient.other)) (address parcel.recipient.other) session answered
            parcel.message := by
  obtain ⟨kind, payload, ephemeral, he, hsealed, hkind⟩ := h.genuine parcel mem
  have hroute := inbound lawful hidentity haddress calls he hsealed
  rw [opened] at hroute
  rcases hkind with ⟨hrecipient, rfl, body, hdecode, hbody⟩ | ⟨rfl, hdecode, _⟩
  · refine ⟨false, by rw [hrecipient]; nofun, ?_⟩
    rw [hrecipient] at opened
    obtain ⟨_, _, hby⟩ := h.established session opened
    have hrepeats : repeatsHandshake (some session) w.opening.preamble = some session := by
      have hsame := constantTimeEqual_iff.mpr (rfl : w.opening.preamble.ephemeralPublicKey = _)
      simp [repeatsHandshake, hby, hsame]
    rw [hroute]
    simp only [routeOpened, if_true, hdecode, hrepeats, hbody]
  · refine ⟨true, fun _ => rfl, ?_⟩
    rw [hroute]
    simp [routeOpened, payloadRatchet, payloadPreKey, hdecode]

theorem decrypt_unopened (lawful : crypto.Lawful honest) (hidentity : ∀ r, (identity r).Honest crypto honest)
    (haddress : ∀ r, addressOf crypto (identity r).signing.publicKey = .ok (address r)) (h : w.Coherent crypto honest identity)
    (mem : parcel ∈ w.inFlight) (calls : w.Calls identity address parcel lookupSession preKeys pins)
    (fits : w.Fits crypto honest parcel fresh) (unopened : w.session parcel.recipient = none) :
    parcel.recipient = .responder ∧
      (decryptEnvelope crypto fresh (identity .responder) parcel.envelope lookupSession preKeys pins).result =
        .ok { senderIdentity := publicIdentityOf (identity .initiator), plaintext := parcel.plaintext, isNewSession := true,
              session := { peerIdentity := publicIdentityOf (identity .initiator),
                           ratchet := (ratchetDecrypt crypto.toRatchetPrimitives fresh (w.ratchet .responder)
                             parcel.message).1,
                           establishedBy := some w.opening.preamble.ephemeralPublicKey } } ∧
      (decryptEnvelope crypto fresh (identity .responder) parcel.envelope lookupSession preKeys pins).preKeys.oneTimes =
        (consumeOneTime w.opening.preamble.keyIds w.opening.issued).oneTimes := by
  obtain ⟨hrecipient, body, hroute, hbody⟩ := h.route_unopened lawful hidentity haddress mem calls unopened
  have hopens := h.opens lawful mem fits
  rw [hrecipient] at unopened hopens
  rw [ratchet_unopened unopened] at hopens ⊢
  have hstore : preKeys = w.opening.issued := (calls.preKeys hrecipient).trans (h.unspent (h.unopened.mp unopened))
  subst hstore
  have hresponds := h.responds body parcel.message hbody
  rw [decryptEnvelope_eq, hroute]
  refine ⟨hrecipient, ?_⟩
  rcases decryptFirst_exits
    (publicIdentityOf (identity .initiator)) w.opening.preamble body with
    ⟨e, _, _, hnone⟩ | ⟨session, message, padded, hrespond, hopened, hspent, hresult⟩
  · obtain ⟨e, he⟩ := hnone _ _ hresponds
    rw [hopens] at he
    cases he
  · rw [hresponds, Except.ok.injEq, Prod.mk.injEq] at hrespond
    obtain ⟨rfl, rfl⟩ := hrespond
    rw [hopens, Except.ok.injEq] at hopened
    subst hopened
    refine ⟨?_, hspent⟩
    simp only [hresult, unpad_pad, Outcome.ok_bind]
    rfl

theorem decrypt_opened (lawful : crypto.Lawful honest) (hidentity : ∀ r, (identity r).Honest crypto honest)
    (haddress : ∀ r, addressOf crypto (identity r).signing.publicKey = .ok (address r)) (h : w.Coherent crypto honest identity)
    (mem : parcel ∈ w.inFlight) (calls : w.Calls identity address parcel lookupSession preKeys pins)
    (fits : w.Fits crypto honest parcel fresh) {session : Session K} (opened : w.session parcel.recipient = some session) :
    ∃ answered, (parcel.recipient = .initiator → answered = true) ∧
      decryptEnvelope crypto fresh (identity parcel.recipient) parcel.envelope lookupSession preKeys pins =
        let kept := settle answered { session with
          ratchet := (ratchetDecrypt crypto.toRatchetPrimitives fresh (w.ratchet parcel.recipient) parcel.message).1 }
        { touched := some (address parcel.recipient.other, kept), preKeys,
          result := .ok { senderIdentity := publicIdentityOf (identity parcel.recipient.other),
                          plaintext := parcel.plaintext, session := kept, isNewSession := false } } := by
  obtain ⟨answered, hanswered, hroute⟩ := h.route_opened lawful hidentity haddress mem calls opened
  have hopens := h.opens lawful mem fits
  refine ⟨answered, hanswered, ?_⟩
  rw [ratchet_of_session opened] at hopens ⊢
  rw [decryptEnvelope_eq, hroute]
  cases hd : ratchetDecrypt crypto.toRatchetPrimitives fresh session.ratchet parcel.message with
  | mk ratchet result =>
    rw [hd] at hopens
    simp only at hopens
    subst hopens
    simp only [decryptWith, hd, unpad_pad, Outcome.ok_bind]
    rfl

/-- A parcel for the initiator is a reply. -/
theorem replied (h : w.Coherent crypto honest identity) (mem : parcel ∈ w.inFlight)
    (recipient : parcel.recipient = .initiator) : 0 < w.delivered .responder := by
  obtain ⟨kind, payload, ephemeral, _, _, ⟨hresponder, _⟩ | ⟨_, _, hpos⟩⟩ := h.genuine parcel mem
  · rw [recipient] at hresponder
    cases hresponder
  · exact hpos

/-- The invariant after a delivery that leaves the recipient with the session `kept`. -/
theorem delivered (h : w.Coherent crypto honest identity) {r : Role} {kept : Session K} {store : InMemoryPreKeyStore K}
    {used : List Bytes} {inFlight : List Parcel} {w' : EarlyTraffic K}
    (eq : w' = { ({ w with preKeys := store } : EarlyTraffic K).setSession r kept with
      used, inFlight, delivered := Function.update w.delivered r (w.delivered r + 1) })
    (simulated : Exchange.Step crypto.toRatchetPrimitives honest.dh w.exchange w'.exchange)
    (peer : kept.peerIdentity = publicIdentityOf (identity r.other)) (pending : kept.pendingPreKey = none)
    (established : r = .responder → kept.establishedBy = some w.opening.preamble.ephemeralPublicKey)
    (replied : r = .initiator → 0 < w.delivered .responder ∧ store = w.preKeys)
    (spent : r = .responder → store.oneTimes = (consumeOneTime w.opening.preamble.keyIds w.opening.issued).oneTimes)
    (remain : ∀ parcel ∈ inFlight, parcel ∈ w.inFlight) : w'.Coherent crypto honest identity := by
  obtain ⟨start, hstart, run⟩ := h.simulated
  have genuine : ∀ parcel ∈ inFlight, ∀ w' : EarlyTraffic K, w'.opening = w.opening →
      w.delivered .responder ≤ w'.delivered .responder → w'.Genuine crypto honest identity parcel := by
    intro parcel hmem w' hopening hle
    obtain ⟨kind, payload, ephemeral, he, hsealed, hkind⟩ := h.genuine parcel (remain parcel hmem)
    refine ⟨kind, payload, ephemeral, he, hsealed, ?_⟩
    rw [hopening]
    exact hkind.imp_right (fun ⟨hk, hdecode, hpos⟩ => ⟨hk, hdecode, hpos.trans_le hle⟩)
  have simulated := run.tail simulated
  subst eq
  cases r with
  | initiator =>
    obtain ⟨hreplied, hstore⟩ := replied rfl
    subst hstore
    refine ⟨⟨start, hstart, simulated⟩, h.responds, peer, ?_, h.established, h.unopened, fun _ => hreplied, h.unspent,
      h.spent, fun parcel hmem => genuine parcel hmem _ rfl le_rfl⟩
    simp only [setSession, Function.update_self, pending, Nat.add_eq_zero_iff, one_ne_zero, and_false, if_false]
  | responder =>
    refine ⟨⟨start, hstart, simulated⟩, h.responds, h.peer, h.pending, ?_, ?_, ?_, ?_, fun _ => spent rfl,
      fun parcel hmem => genuine parcel hmem _ rfl ?_⟩
    · intro s hs
      obtain rfl := Option.some.inj hs
      exact ⟨peer, pending, established rfl⟩
    · simp [setSession]
    · intro _
      simp
    · intro hzero
      simp at hzero
    · simp

theorem setSession_exchange (w : EarlyTraffic K) (r : Role) (session : Session K) (inFlight : List Parcel) :
    ({ w.setSession r session with inFlight } : EarlyTraffic K).exchange =
      { w.exchange.setState r session.ratchet with inFlight := inFlight.map Parcel.letter } := by
  have hratchet := setSession_ratchet w r session
  cases r
  · exact congrArg (fun state => Exchange.mk state _ _) hratchet
  · exact congrArg (fun state => Exchange.mk state _ _) hratchet

/-- The ratchet layer sees a delivery as one of its own. -/
theorem exchange_delivered {before after : List Parcel} {kept : Session K} {store : InMemoryPreKeyStore K}
    {w' : EarlyTraffic K} (inFlight : w.inFlight = before ++ parcel :: after)
    (fits : w.Fits crypto honest parcel fresh)
    (ratchet : kept.ratchet =
      (ratchetDecrypt crypto.toRatchetPrimitives fresh (w.ratchet parcel.recipient) parcel.message).1)
    (eq : w' = { ({ w with preKeys := store } : EarlyTraffic K).setSession parcel.recipient kept with
      used := if StartsTurn crypto.toRatchetPrimitives (w.ratchet parcel.recipient) parcel.message.header then
        fresh.publicKey :: w.used else w.used
      inFlight := before ++ after
      delivered := Function.update w.delivered parcel.recipient (w.delivered parcel.recipient + 1) }) :
    Exchange.Step crypto.toRatchetPrimitives honest.dh w.exchange w'.exchange := by
  have hstep := Exchange.Step.deliver w.exchange
    (before.map Parcel.letter) parcel.letter (after.map Parcel.letter) fresh
    (by simp only [exchange, inFlight, List.map_append, List.map_cons]) fits.within fits.draws
  convert hstep using 1
  subst eq
  have hstate : (({ w with preKeys := store } : EarlyTraffic K).setSession parcel.recipient kept).ratchet =
      Function.update w.ratchet parcel.recipient
        (ratchetDecrypt crypto.toRatchetPrimitives fresh (w.ratchet parcel.recipient) parcel.message).1 := by
    rw [setSession_ratchet, ratchet]
    rfl
  rw [← List.map_append]
  exact congrArg (fun state => Exchange.mk state _ _) hstate

theorem deliver (lawful : crypto.Lawful honest) (hidentity : ∀ r, (identity r).Honest crypto honest)
    (haddress : ∀ r, addressOf crypto (identity r).signing.publicKey = .ok (address r))
    (h : w.Coherent crypto honest identity) {before after : List Parcel}
    (inFlight : w.inFlight = before ++ parcel :: after)
    (calls : w.Calls identity address parcel lookupSession preKeys pins) (fits : w.Fits crypto honest parcel fresh) :
    Coherent crypto honest identity
      { w.receive crypto identity fresh parcel lookupSession preKeys pins with inFlight := before ++ after } := by
  have mem : parcel ∈ w.inFlight := by simp [inFlight]
  have remain : ∀ parcel ∈ before ++ after, parcel ∈ w.inFlight := by
    intro other hmem
    rw [inFlight]
    exact ((List.sublist_cons_self parcel after).append_left before).subset hmem
  cases hsession : w.session parcel.recipient with
  | none =>
    obtain ⟨hrecipient, hresult, hspent⟩ := h.decrypt_unopened lawful hidentity haddress mem calls fits hsession
    rw [← hrecipient] at hresult hspent
    have eq := congrArg (fun w' : EarlyTraffic K => { w' with inFlight := before ++ after }) (receive_ok (w := w) hresult)
    refine h.delivered eq (exchange_delivered inFlight fits rfl eq) ?_ rfl (fun _ => rfl) ?_ ?_ remain
    · simp only [hrecipient, Role.other]
    · rw [hrecipient]
      intro heq
      cases heq
    · intro _
      rw [if_pos hrecipient, hspent]
  | some session =>
    obtain ⟨answered, hanswered, heq⟩ := h.decrypt_opened lawful hidentity haddress mem calls fits hsession
    have hresult := congrArg Decryption.result heq
    have hstore := congrArg Decryption.preKeys heq
    have eq := congrArg (fun w' : EarlyTraffic K => { w' with inFlight := before ++ after }) (receive_ok (w := w) hresult)
    obtain ⟨hpeer, hresponder⟩ := h.stored hsession
    refine h.delivered eq (exchange_delivered inFlight fits (settle_ratchet _ _) eq) ?_ ?_ ?_ ?_ ?_ remain
    · rw [settle_peerIdentity]
      exact hpeer
    · cases hr : parcel.recipient with
      | initiator => rw [hanswered hr]; rfl
      | responder =>
        obtain ⟨hpending, _⟩ := hresponder hr
        cases answered
        · exact hpending
        · rfl
    · intro hr
      rw [settle_establishedBy]
      exact (hresponder hr).2.1
    · intro hr
      exact ⟨h.replied mem hr, if_neg (by simp [hr])⟩
    · intro hr
      rw [if_pos hr, hstore, calls.preKeys hr]
      exact h.spent (hresponder hr).2.2

/-- The invariant after `r` has sent with its session, whether or not a parcel came of it. -/
theorem sent (h : w.Coherent crypto honest identity) {r : Role} {session : Session K} {ratchet : RatchetState K}
    {inFlight : List Parcel} (opened : w.session r = some session)
    (simulated : Relation.ReflTransGen (Exchange.Step crypto.toRatchetPrimitives honest.dh) w.exchange
      ({ w.setSession r { session with ratchet } with inFlight } : EarlyTraffic K).exchange)
    (genuine : ∀ parcel ∈ inFlight, parcel ∈ w.inFlight ∨ w.Genuine crypto honest identity parcel) :
    Coherent crypto honest identity { w.setSession r { session with ratchet } with inFlight } := by
  obtain ⟨start, hstart, run⟩ := h.simulated
  have genuine : ∀ parcel ∈ inFlight, w.Genuine crypto honest identity parcel :=
    fun parcel hmem => (genuine parcel hmem).elim (h.genuine parcel) id
  cases r with
  | initiator =>
    obtain rfl := Option.some.inj opened
    exact ⟨⟨start, hstart, run.trans simulated⟩, h.responds, h.peer, h.pending, h.established, h.unopened, h.answered,
      h.unspent, h.spent, genuine⟩
  | responder =>
    have hopened : w.responder ≠ none := by
      intro hnone
      rw [show w.session .responder = w.responder from rfl, hnone] at opened
      cases opened
    refine ⟨⟨start, hstart, run.trans simulated⟩, h.responds, h.peer, h.pending, ?_, ?_, h.answered, h.unspent, h.spent,
      genuine⟩
    · intro s hs
      obtain rfl := Option.some.inj hs
      exact h.established session opened
    · exact iff_of_false nofun (fun hzero => hopened (h.unopened.mpr hzero))

/-- What `encryptMessage` seals with a stored session is genuine. -/
theorem genuine_sent (h : w.Coherent crypto honest identity) {r : Role} {session : Session K} {ephemeral : KeyPair K}
    {plaintext : Bytes} {message : RatchetMessage} {envelope : SealedEnvelope} (he : honest.dh ephemeral)
    (opened : w.session r = some session)
    (hmessage : (ratchetEncrypt crypto.toRatchetPrimitives session.ratchet (pad plaintext)).2 = .ok message)
    (henvelope : (encryptMessage crypto (identity r) session plaintext ephemeral).2 = .ok envelope) :
    w.Genuine crypto honest identity ⟨r.other, envelope, message, plaintext⟩ := by
  obtain ⟨message', payload, hmessage', hpayload, hsealed⟩ := encryptMessage_eq_ok henvelope
  obtain rfl := Except.ok.inj (hmessage.symm.trans hmessage')
  obtain ⟨hpeer, hresponder⟩ := h.stored opened
  rw [hpeer] at hsealed
  refine ⟨_, payload, ephemeral, he, by simpa only [Role.other_other] using hsealed, ?_⟩
  cases hpending : session.pendingPreKey with
  | none =>
    have hpos : 0 < w.delivered .responder := by
      cases r with
      | initiator =>
        obtain rfl := Option.some.inj opened
        rw [h.pending] at hpending
        split at hpending
        next => cases hpending
        next hne => exact h.answered (Nat.pos_of_ne_zero hne)
      | responder => exact (hresponder rfl).2.2
    exact Or.inr ⟨rfl, encodePayload_ratchet hpending hpayload, hpos⟩
  | some preamble =>
    cases r with
    | initiator =>
      obtain rfl := Option.some.inj opened
      have hpreamble : preamble = w.opening.preamble := by
        rw [h.pending] at hpending
        split at hpending
        next => exact (Option.some.inj hpending).symm
        next => cases hpending
      subst hpreamble
      obtain ⟨body, hdecode, hbody⟩ := encodePayload_preKey hpending hpayload
      exact Or.inl ⟨rfl, rfl, body, hdecode, hbody⟩
    | responder =>
      rw [(hresponder rfl).1] at hpending
      cases hpending

theorem send (h : w.Coherent crypto honest identity) {r : Role} {plaintext : Bytes} {ephemeral : KeyPair K}
    (he : honest.dh ephemeral) : Coherent crypto honest identity (w.send crypto identity r plaintext ephemeral) := by
  unfold EarlyTraffic.send
  cases opened : w.session r with
  | none => exact h
  | some session =>
    have hstate : w.exchange.state r = session.ratchet := ratchet_of_session opened
    have hencrypt : Exchange.Step crypto.toRatchetPrimitives honest.dh w.exchange
        (w.exchange.encrypt crypto.toRatchetPrimitives r (pad plaintext)) := .encrypt w.exchange r (pad plaintext)
    simp only [Exchange.encrypt, hstate] at hencrypt
    have hsession : (encryptMessage crypto (identity r) session plaintext ephemeral).1 = { session with
        ratchet := (ratchetEncrypt crypto.toRatchetPrimitives session.ratchet (pad plaintext)).1 } := rfl
    simp only [hsession]
    refine h.sent opened ?_ ?_
    · rw [setSession_exchange, List.map_append]
      cases hmessage : (ratchetEncrypt crypto.toRatchetPrimitives session.ratchet (pad plaintext)).2 with
      | error e =>
        rw [hmessage] at hencrypt
        rw [List.map_nil, List.append_nil]
        exact .single hencrypt
      | ok message =>
        rw [hmessage] at hencrypt
        cases henvelope : (encryptMessage crypto (identity r) session plaintext ephemeral).2 with
        | error e =>
          exact (Relation.ReflTransGen.single hencrypt).tail (.lose _ w.exchange.inFlight _ [] rfl)
        | ok envelope => exact .single hencrypt
    · intro parcel hmem
      rcases List.mem_append.mp hmem with hold | hnew
      · exact Or.inl hold
      · split at hnew
        next message envelope hmessage henvelope =>
          obtain rfl := List.mem_singleton.mp hnew
          exact Or.inr (h.genuine_sent he opened hmessage henvelope)
        next => cases hnew

theorem lose (h : w.Coherent crypto honest identity) {before after : List Parcel}
    (inFlight : w.inFlight = before ++ parcel :: after) :
    Coherent crypto honest identity { w with inFlight := before ++ after } := by
  obtain ⟨start, hstart, run⟩ := h.simulated
  have hstep := @Exchange.Step.lose _ crypto.toRatchetPrimitives honest.dh w.exchange
    (before.map Parcel.letter) parcel.letter (after.map Parcel.letter)
    (by simp only [exchange, inFlight, List.map_append, List.map_cons])
  rw [← List.map_append] at hstep
  refine ⟨⟨start, hstart, run.tail hstep⟩, h.responds, h.peer, h.pending, h.established, h.unopened, h.answered,
    h.unspent, h.spent, fun other hmem => h.genuine other ?_⟩
  rw [inFlight]
  exact ((List.sublist_cons_self parcel after).append_left before).subset hmem

theorem reads (lawful : crypto.Lawful honest) (hidentity : ∀ r, (identity r).Honest crypto honest)
    (haddress : ∀ r, addressOf crypto (identity r).signing.publicKey = .ok (address r))
    (h : w.Coherent crypto honest identity) (mem : parcel ∈ w.inFlight)
    (calls : w.Calls identity address parcel lookupSession preKeys pins) (fits : w.Fits crypto honest parcel fresh) :
    w.Reading crypto identity address parcel lookupSession preKeys pins
      (decryptEnvelope crypto fresh (identity parcel.recipient) parcel.envelope lookupSession preKeys pins) := by
  cases hsession : w.session parcel.recipient with
  | none =>
    obtain ⟨hrecipient, hresult, hspent⟩ := h.decrypt_unopened lawful hidentity haddress mem calls fits hsession
    rw [hrecipient] at hsession
    have hopens : w.Opens parcel := ⟨hrecipient, h.unopened.mp hsession⟩
    rw [← hrecipient] at hresult hspent
    refine ⟨⟨_, hresult, rfl, iff_of_true rfl hopens⟩, fun _ => ?_, fun hnot => absurd hopens hnot⟩
    rw [hspent, calls.preKeys hrecipient, h.unspent hopens.2]
  | some session =>
    have hopens : ¬w.Opens parcel := by
      rintro ⟨hrecipient, hzero⟩
      have hpos := ((h.stored hsession).2 hrecipient).2.2
      omega
    obtain ⟨_, _, heq⟩ := h.decrypt_opened lawful hidentity haddress mem calls fits hsession
    obtain ⟨answered, _, hroute⟩ := h.route_opened lawful hidentity haddress mem calls hsession
    rw [heq]
    exact ⟨⟨_, rfl, rfl, iff_of_false nofun hopens⟩, fun hyes => absurd hyes hopens,
      fun _ => ⟨rfl, session, answered, hsession, hroute⟩⟩

end Coherent

section

variable {store : InMemoryPreKeyStore K} {ephemeral sending signedPreKey : KeyPair K} {coins : Bytes}
  {handshake : InitiatorHandshake K} {w₀ : EarlyTraffic K}

theorem Start.serves (h : w.Start crypto honest identity store ephemeral sending signedPreKey coins handshake) :
    ∃ signedKemPreKey, Serves honest w.opening.issued (store.issueBundle (publicIdentityOf (identity .responder))).1
      signedPreKey signedKemPreKey := by
  obtain ⟨created, hcreated, run⟩ := h.created
  obtain ⟨pair, kemPair, serves⟩ := InMemoryPreKeyStore.issued_served hcreated run
    (InMemoryPreKeyStore.Issues.issueBundle store (publicIdentityOf (identity .responder)))
  obtain rfl := Option.some.inj (serves.signed.symm.trans h.held)
  rw [h.issued]
  exact ⟨kemPair, serves.signed, serves.signed_public, serves.signed_honest, serves.kem, serves.kem_public,
    serves.kem_honest, serves.oneTime, serves.oneTimeKem⟩

/-- The one-time prekeys the preamble names are there when the bundle is issued. -/
theorem Start.named (h : w.Start crypto honest identity store ephemeral sending signedPreKey coins handshake) :
    (∀ id, w.opening.preamble.keyIds.oneTimePreKeyId = some id → (w.opening.issued.oneTimePreKey id).isSome) ∧
      ∀ id, w.opening.preamble.keyIds.oneTimeKemPreKeyId = some id →
        (w.opening.issued.oneTimeKemPreKey id).isSome := by
  obtain ⟨_, serves⟩ := h.serves
  rw [h.preamble, initiateHandshake_keyIds h.initiated]
  refine ⟨?_, ?_⟩
  · intro id hid
    obtain ⟨key, hkey, rfl⟩ := Option.map_eq_some_iff.mp hid
    obtain ⟨pair, hpair, _⟩ := serves.oneTime key hkey
    rw [hpair]
    rfl
  · intro id hid
    obtain ⟨key, hkey, rfl⟩ := Option.map_eq_some_iff.mp hid
    obtain ⟨pair, hpair, _⟩ := serves.oneTimeKem key hkey
    rw [hpair]
    rfl

theorem Start.coherent (lawful : crypto.Lawful honest) (hidentity : ∀ r, (identity r).Honest crypto honest)
    (h : w.Start crypto honest identity store ephemeral sending signedPreKey coins handshake) :
    w.Coherent crypto honest identity := by
  obtain ⟨_, serves⟩ := h.serves
  obtain ⟨expected, started⟩ := h.started
  obtain ⟨_, handshake', hinitiated, hratchet, hpeer, hpending, _⟩ := startSession_eq_ok started
  obtain rfl := Except.ok.inj (h.initiated.symm.trans hinitiated)
  have hresponder : w.session .responder = none := h.responder
  refine ⟨⟨w.exchange, ?_, .refl⟩, ?_, hpeer, ?_, ?_, ?_, ?_, ?_, ?_, ?_⟩
  · refine ⟨handshake.rootSecret, handshake.associatedData, signedPreKey, sending, w.initiator.ratchet,
      serves.signed_honest, h.sendingHonest, h.distinct, ?_, rfl, ?_, ?_, h.used⟩
    · rw [serves.signed_public]
      exact hratchet
    · exact (ratchet_unopened hresponder).trans h.initial
    · simp only [exchange, h.inFlight, List.map_nil]
  · intro body message hbody
    have hagrees := respondWith_agrees lawful (hidentity .initiator) (hidentity .responder) rfl serves h.ephemeralHonest
      h.initiated hbody
    rw [h.preamble, h.initial, hagrees, initiateHandshake_ephemeral h.initiated]
  · rw [hpending, h.delivered, if_pos rfl, h.preamble]
  · intro s hs
    rw [h.responder] at hs
    cases hs
  · exact iff_of_true h.responder (by rw [h.delivered])
  · intro hpos
    rw [h.delivered] at hpos
    cases hpos
  · intro _
    exact h.preKeys
  · intro hpos
    rw [h.delivered] at hpos
    cases hpos
  · intro parcel hmem
    rw [h.inFlight] at hmem
    cases hmem

theorem Step.coherent (lawful : crypto.Lawful honest) (hidentity : ∀ r, (identity r).Honest crypto honest)
    (haddress : ∀ r, addressOf crypto (identity r).signing.publicKey = .ok (address r)) {w' : EarlyTraffic K}
    (step : Step crypto honest identity address w w') (h : w.Coherent crypto honest identity) :
    w'.Coherent crypto honest identity := by
  cases step with
  | send r plaintext he => exact h.send he
  | deliver before parcel after inFlight calls fits => exact h.deliver lawful hidentity haddress inFlight calls fits
  | lose before parcel after inFlight => exact h.lose inFlight

theorem setSession_opening (w : EarlyTraffic K) (r : Role) (session : Session K) :
    (w.setSession r session).opening = w.opening := by cases r <;> rfl

theorem Step.opening {w' : EarlyTraffic K} (step : Step crypto honest identity address w w') :
    w'.opening = w.opening := by
  cases step with
  | send r plaintext he =>
    unfold EarlyTraffic.send
    split
    next => rfl
    next => exact setSession_opening _ _ _
  | deliver before parcel after inFlight calls fits =>
    simp only [receive, keep]
    split <;> split <;> simp only [setSession_opening]
  | lose before parcel after inFlight => rfl

end

end

/-- Bob's store with a one-time prekey of each kind. -/
def stockedStore : InMemoryPreKeyStore Bytes := spelledStore bob 13 14 [15] [16]

def addresses : Role → String
  | .initiator => aliceAddress
  | .responder => bobAddress

/-- Alice has opened a session with the bundle of that store. -/
def opened : Except Failure (InitiatorHandshake Bytes × EarlyTraffic Bytes) := do
  let (bundle, issued) := stockedStore.issueBundle (publicIdentityOf bob)
  let handshake ← initiateHandshake spelled alice bundle (spelledPair 32 21) [7]
  let session ← startSession spelled alice bundle none (spelledPair 32 21) [7] (spelledPair 32 22)
  return (handshake,
    { opening :=
        { preamble := ⟨handshake.ephemeralPublicKey, handshake.kemCiphertext, handshake.keyIds⟩, issued
          initial := initialiseResponder handshake.rootSecret (spelledPair 32 13) handshake.associatedData }
      initiator := session
      preKeys := issued
      used := [(spelledPair 32 22).publicKey, (spelledPair 32 13).publicKey] })

end EarlyTraffic

end Veil
