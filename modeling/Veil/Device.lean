import Veil.Consumption
import Veil.HandshakeReuse
import Veil.Library.Runs
import Veil.Routing

namespace Veil

/-- One device as the session layer sees it. `accepted` and `visited` are a record of the run: the envelopes
whose plaintext was returned, and the header keys each sender's sessions have been turned onto. -/
structure Device (K : Type) where
  self : PrivateIdentity K
  sessions : String → Option (Session K)
  preKeys : InMemoryPreKeyStore K
  accepted : List SealedEnvelope := []
  visited : String → List Bytes := fun _ => []

namespace Device

section

variable {K : Type} (crypto : Cryptography K)

/-- The sessions after a call: the looked-up one is mutated, the returned one is stored under its sender. -/
def stored (d : Decryption K) (sessions : String → Option (Session K)) : String → Option (Session K) :=
  let sessions := match d.touched with
    | none => sessions
    | some (address, session) => Function.update sessions address (some session)
  match d.result with
  | .error _ => sessions
  | .ok message =>
    match addressOf crypto message.senderIdentity.signingPublicKey with
    | .error _ => sessions
    | .ok address => Function.update sessions address (some message.session)

def decrypt (fresh : KeyPair K) (pins : String → Option Bytes) (w : Device K) (envelope : SealedEnvelope) :
    Decryption K :=
  decryptEnvelope crypto fresh w.self envelope w.sessions w.preKeys pins

/-- The address and the header key of the turn that handling the envelope makes on a session that stays. -/
def turnedOnto (pins : String → Option Bytes) (w : Device K) (envelope : SealedEnvelope) (accepted : Bool) :
    Option (String × Bytes) :=
  match route crypto w.self envelope w.sessions pins with
  | .refused _ => none
  | .live _ address session _ message =>
    if StartsTurn crypto.toRatchetPrimitives session.ratchet message.header then
      some (address, message.header.ratchetPublicKey)
    else none
  | .first _ address _ body =>
    match decodeBody body with
    | .error _ => none
    | .ok message => if accepted then some (address, message.header.ratchetPublicKey) else none

def handle (fresh : KeyPair K) (pins : String → Option Bytes) (w : Device K) (envelope : SealedEnvelope) : Device K :=
  let d := w.decrypt crypto fresh pins envelope
  { w with
    sessions := stored crypto d w.sessions
    preKeys := d.preKeys
    accepted := if d.result.isOk then envelope :: w.accepted else w.accepted
    visited := match w.turnedOnto crypto pins envelope d.result.isOk with
      | none => w.visited
      | some (address, key) => Function.update w.visited address (key :: w.visited address) }

def setSession (w : Device K) (address : String) (session : Option (Session K)) : Device K :=
  { w with sessions := Function.update w.sessions address session }

/-- The place of an envelope's message among the messages from `address`. -/
def slot (self : PrivateIdentity K) (address : String) (envelope : SealedEnvelope) : Option (Bytes × Nat) :=
  match contents crypto self envelope with
  | .error _ => none
  | .ok (sender, message) =>
    if sender = address then some (message.header.ratchetPublicKey, message.header.messageNumber) else none

def readFrom (w : Device K) (address : String) : List (Bytes × Nat) :=
  w.accepted.filterMap (slot crypto w.self address)

/-- The envelope does not turn the sender's live session back onto a key it was on before. -/
def TurnsOnward (pins : String → Option Bytes) (w : Device K) (envelope : SealedEnvelope) : Prop :=
  match route crypto w.self envelope w.sessions pins with
  | .live _ address session _ message =>
    StartsTurn crypto.toRatchetPrimitives session.ratchet message.header →
      message.header.ratchetPublicKey ∉ w.visited address
  | _ => True

/-- An envelope that opens a session does so under a new header key, and with a handshake that names a one-time
prekey or meets a signed prekey that is still whole. -/
def OpensAfresh (honest : Generators K) (fresh : KeyPair K) (pins : String → Option Bytes) (w : Device K)
    (envelope : SealedEnvelope) : Prop :=
  match route crypto w.self envelope w.sessions pins with
  | .first _ address preamble body =>
    (w.decrypt crypto fresh pins envelope).result.isOk = true → ∀ message, decodeBody body = .ok message →
      message.header.ratchetPublicKey ∉ w.visited address ∧
        (preamble.keyIds.oneTimePreKeyId = none → preamble.keyIds.oneTimeKemPreKeyId = none →
          ∀ pair, w.preKeys.signedPreKey preamble.keyIds.signedPreKeyId = some pair → honest.dh pair)
  | _ => True

instance (pins : String → Option Bytes) (w : Device K) (envelope : SealedEnvelope) :
    Decidable (w.TurnsOnward crypto pins envelope) :=
  decidable_of_iff ((match route crypto w.self envelope w.sessions pins with
    | .live _ address session _ message =>
      !(decide (StartsTurn crypto.toRatchetPrimitives session.ratchet message.header) &&
        decide (message.header.ratchetPublicKey ∈ w.visited address))
    | _ => true) = true) (by
    unfold TurnsOnward
    cases route crypto w.self envelope w.sessions pins <;> simp [imp_iff_not_or])

instance (honest : Generators K) [DecidablePred honest.dh] (fresh : KeyPair K) (pins : String → Option Bytes)
    (w : Device K) (envelope : SealedEnvelope) : Decidable (w.OpensAfresh crypto honest fresh pins envelope) :=
  decidable_of_iff ((match route crypto w.self envelope w.sessions pins with
    | .first _ address preamble body =>
      !(w.decrypt crypto fresh pins envelope).result.isOk || (decodeBody body).toOption.all (fun message =>
        !decide (message.header.ratchetPublicKey ∈ w.visited address) &&
          (preamble.keyIds.oneTimePreKeyId.isSome || preamble.keyIds.oneTimeKemPreKeyId.isSome ||
            (w.preKeys.signedPreKey preamble.keyIds.signedPreKeyId).all (fun pair => decide (honest.dh pair))))
    | _ => true) = true) (by
    unfold OpensAfresh
    cases route crypto w.self envelope w.sessions pins with
    | refused => simp
    | live => simp
    | first sender address preamble body =>
      cases hbody : decodeBody body with
      | error e => simp [Except.toOption, hbody]
      | ok message =>
        simp only [Except.toOption, hbody]
        cases (w.decrypt crypto fresh pins envelope).result.isOk <;> cases preamble.keyIds.oneTimePreKeyId <;>
          cases preamble.keyIds.oneTimeKemPreKeyId <;>
          cases w.preKeys.signedPreKey preamble.keyIds.signedPreKeyId <;> simp)

/-- What happens on a device: envelopes arrive, new or old, under any pins; sessions are used, replaced and
dropped; the prekey store is rotated and topped up. -/
inductive Step (honest : Generators K) : Device K → Device K → Prop
  | handle (w : Device K) (envelope : SealedEnvelope) (fresh : KeyPair K) (pins : String → Option Bytes)
      (turns : w.TurnsOnward crypto pins envelope) (opens : w.OpensAfresh crypto honest fresh pins envelope) :
      Step honest w (w.handle crypto fresh pins envelope)
  | send (w : Device K) (address : String) (session : Session K) (plaintext : Bytes) (ephemeral : KeyPair K)
      (live : w.sessions address = some session) :
      Step honest w
        (w.setSession address (some (encryptMessage crypto w.self session plaintext ephemeral).1))
  | start (w : Device K) (address : String) (bundle : PreKeyBundle) (expected : Option Bytes) (coins : Bytes)
      (ephemeral sending : KeyPair K) (session : Session K)
      (started : startSession crypto w.self bundle expected ephemeral coins sending = .ok session) :
      Step honest w (w.setSession address (some session))
  | drop (w : Device K) (address : String) : Step honest w (w.setSession address none)
  | rotate (w : Device K) (signed kem : KeyPair K) (next : InMemoryPreKeyStore K)
      (rotated : w.preKeys.rotateSignedPreKeys crypto w.self signed kem = .ok next) :
      Step honest w { w with preKeys := next }
  | replenish (w : Device K) (pairs kemPairs : List (KeyPair K)) :
      Step honest w { w with preKeys := w.preKeys.replenishOneTimePreKeys pairs kemPairs }

/-- A device that has not received anything yet. -/
structure Start (w : Device K) : Prop where
  created : ∃ signed kem pairs kemPairs, InMemoryPreKeyStore.create crypto w.self signed kem pairs kemPairs = .ok w.preKeys
  sessions : ∀ address, w.sessions address = none
  accepted : w.accepted = []

end

section

variable {K : Type} {crypto : Cryptography K} {honest : Generators K} {w : Device K} {envelope : SealedEnvelope}
  {fresh : KeyPair K} {pins : String → Option Bytes}

theorem decrypt_live {sender : PublicIdentity} {address : String} {session : Session K} {answered : Bool}
    {message : RatchetMessage}
    (h : route crypto w.self envelope w.sessions pins = .live sender address session answered message) :
    w.decrypt crypto fresh pins envelope =
      decryptWith crypto fresh sender address session (settle answered) message w.preKeys := by
  rw [decrypt, decryptEnvelope_eq, h]

theorem decrypt_first {sender : PublicIdentity} {address : String} {preamble : PreKeyPreamble} {body : Bytes}
    (h : route crypto w.self envelope w.sessions pins = .first sender address preamble body) :
    w.decrypt crypto fresh pins envelope =
      decryptFirst crypto fresh w.self sender preamble body w.preKeys := by
  rw [decrypt, decryptEnvelope_eq, h]

theorem decrypt_refused {failure : Failure}
    (h : route crypto w.self envelope w.sessions pins = .refused failure) :
    w.decrypt crypto fresh pins envelope = { preKeys := w.preKeys, result := .error failure } := by
  rw [decrypt, decryptEnvelope_eq, h]

theorem TurnsOnward.live {sender : PublicIdentity} {address : String} {session : Session K} {answered : Bool}
    {message : RatchetMessage} (h : w.TurnsOnward crypto pins envelope)
    (hroute : route crypto w.self envelope w.sessions pins = .live sender address session answered message)
    (turn : StartsTurn crypto.toRatchetPrimitives session.ratchet message.header) :
    message.header.ratchetPublicKey ∉ w.visited address := by
  rw [TurnsOnward, hroute] at h
  exact h turn

theorem OpensAfresh.first {sender : PublicIdentity} {address : String} {preamble : PreKeyPreamble} {body : Bytes}
    {message : RatchetMessage} (h : w.OpensAfresh crypto honest fresh pins envelope)
    (hroute : route crypto w.self envelope w.sessions pins = .first sender address preamble body)
    (accepted : (w.decrypt crypto fresh pins envelope).result.isOk = true) (hbody : decodeBody body = .ok message) :
    message.header.ratchetPublicKey ∉ w.visited address ∧
      (preamble.keyIds.oneTimePreKeyId = none → preamble.keyIds.oneTimeKemPreKeyId = none →
        ∀ pair, w.preKeys.signedPreKey preamble.keyIds.signedPreKeyId = some pair → honest.dh pair) := by
  rw [OpensAfresh, hroute] at h
  exact h accepted message hbody

/-- A live session ends up in its place with the ratchet the message left, whatever else happens. -/
theorem stored_live {sender : PublicIdentity} {address : String} {session : Session K} {answered : Bool}
    {message : RatchetMessage}
    (h : route crypto w.self envelope w.sessions pins = .live sender address session answered message) :
    ∃ next, stored crypto (w.decrypt crypto fresh pins envelope) w.sessions =
        Function.update w.sessions address (some next) ∧
      next.ratchet = (ratchetDecrypt crypto.toRatchetPrimitives fresh session.ratchet message).1 ∧
      (w.decrypt crypto fresh pins envelope).preKeys = w.preKeys ∧
      ((∃ e, (ratchetDecrypt crypto.toRatchetPrimitives fresh session.ratchet message).2 = .error e ∧
          (w.decrypt crypto fresh pins envelope).result = .error e ∧
          next = { session with ratchet := next.ratchet }) ∨
        ∃ padded, (ratchetDecrypt crypto.toRatchetPrimitives fresh session.ratchet message).2 = .ok padded) := by
  obtain ⟨_, _, haddress⟩ := contents_of_live h
  rw [decrypt_live h]
  unfold decryptWith
  cases hd : ratchetDecrypt crypto.toRatchetPrimitives fresh session.ratchet message with
  | mk ratchet result =>
    cases result with
    | error e =>
      exact ⟨{ session with ratchet }, rfl, rfl, rfl, Or.inl ⟨e, rfl, rfl, rfl⟩⟩
    | ok padded =>
      refine ⟨settle answered { session with ratchet }, ?_, by simp, rfl, Or.inr ⟨padded, rfl⟩⟩
      simp only [stored]
      cases unpad padded with
      | error e => rfl
      | ok plaintext =>
        simp only [Outcome.ok_bind, pure, Except.pure, haddress, Function.update_idem]

/-- The first message of a session either leaves every session alone or opens the new one. -/
theorem stored_first {sender : PublicIdentity} {address : String} {preamble : PreKeyPreamble} {body : Bytes}
    (h : route crypto w.self envelope w.sessions pins = .first sender address preamble body) :
    (InMemoryPreKeyStore.Later crypto w.preKeys (w.decrypt crypto fresh pins envelope).preKeys ∧
        (w.preKeys.Numbered → (w.decrypt crypto fresh pins envelope).preKeys.Numbered)) ∧
      ((stored crypto (w.decrypt crypto fresh pins envelope) w.sessions = w.sessions ∧
          ∃ e, (w.decrypt crypto fresh pins envelope).result = .error e) ∨
        ∃ session message padded, respondWith crypto w.self sender preamble body w.preKeys = .ok (session, message) ∧
          (ratchetDecrypt crypto.toRatchetPrimitives fresh session.ratchet message).2 = .ok padded ∧
          (w.decrypt crypto fresh pins envelope).result.isOk = true ∧
          (w.decrypt crypto fresh pins envelope).preKeys = consumeOneTime preamble.keyIds
            (w.preKeys.wipeSignedPreKey crypto preamble.keyIds.signedPreKeyId) ∧
          stored crypto (w.decrypt crypto fresh pins envelope) w.sessions =
            Function.update w.sessions address (some { session with
              ratchet := (ratchetDecrypt crypto.toRatchetPrimitives fresh session.ratchet message).1 })) := by
  rw [decrypt_first h]
  unfold decryptFirst
  cases hrespond : respondWith crypto w.self sender preamble body w.preKeys with
  | error e => exact ⟨⟨InMemoryPreKeyStore.Later.refl _, fun hn => hn⟩, Or.inl ⟨rfl, e, rfl⟩⟩
  | ok responded =>
    obtain ⟨session, message⟩ := responded
    obtain ⟨hbody, _, _, _, _, _, pair, ad, transcript, dh1, rest, _, _, _, hratchet⟩ := respondWith_eq_ok hrespond
    obtain ⟨_, haddress⟩ := contents_of_first h hbody
    simp only
    have hwiped : InMemoryPreKeyStore.Later crypto w.preKeys
        (if StartsTurn crypto.toRatchetPrimitives session.ratchet message.header then
          w.preKeys.wipeSignedPreKey crypto preamble.keyIds.signedPreKeyId else w.preKeys) := by
      split
      next => exact InMemoryPreKeyStore.wipeSignedPreKey_later _
      next => exact InMemoryPreKeyStore.Later.refl _
    have hnumbered : w.preKeys.Numbered →
        (if StartsTurn crypto.toRatchetPrimitives session.ratchet message.header then
          w.preKeys.wipeSignedPreKey crypto preamble.keyIds.signedPreKeyId else w.preKeys).Numbered := by
      intro hn
      split
      next => exact hn.wipeSignedPreKey _
      next => exact hn
    cases hd : ratchetDecrypt crypto.toRatchetPrimitives fresh session.ratchet message with
    | mk ratchet result =>
      cases result with
      | error e => exact ⟨⟨hwiped, hnumbered⟩, Or.inl ⟨rfl, e, rfl⟩⟩
      | ok padded =>
        refine ⟨⟨hwiped.trans (consumeOneTime_later _), fun hn => consumeOneTime_numbered (hnumbered hn) _⟩, ?_⟩
        simp only
        cases hunpad : unpad padded with
        | error e => exact Or.inl ⟨rfl, e, rfl⟩
        | ok plaintext =>
          have hturn : StartsTurn crypto.toRatchetPrimitives session.ratchet message.header := by
            have hopened : (ratchetDecrypt crypto.toRatchetPrimitives fresh session.ratchet message).2 = .ok padded := by
              rw [hd]
            rw [hratchet] at hopened ⊢
            exact (initialiseResponder_opens hopened).1
          refine Or.inr ⟨session, message, padded, rfl, by rw [hd], rfl, by rw [if_pos hturn], ?_⟩
          simp only [stored, Outcome.ok_bind, pure, Except.pure, haddress, hd]

end

end Device

end Veil
