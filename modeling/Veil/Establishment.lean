import Veil.Handshake
import Veil.RatchetDelivery

namespace Veil

section

variable {K : Type} {crypto : Cryptography K} {honest : Generators K}

theorem checkFingerprint_eq_ok {key presented : Bytes} {u : Unit}
    (h : checkFingerprint crypto (some key) presented = .ok u) : key = presented := by
  unfold checkFingerprint at h
  simp only at h
  split at h
  next heq => exact constantTimeEqual_iff.mp heq
  next => simp [Outcome.bind_eq_ok_iff] at h

/-- What `startSession` returns, step by step. -/
theorem startSession_eq_ok {self : PrivateIdentity K} {bundle : PreKeyBundle} {expected : Option Bytes}
    {ephemeral sending : KeyPair K} {coins : Bytes} {session : Session K}
    (h : startSession crypto self bundle expected ephemeral coins sending = .ok session) :
    (∀ key, expected = some key → key = bundle.identity.signingPublicKey) ∧
      ∃ handshake, initiateHandshake crypto self bundle ephemeral coins = .ok handshake ∧
        initialiseInitiator crypto.toRatchetPrimitives sending handshake.rootSecret bundle.signedPreKey.publicKey
          handshake.associatedData = .ok session.ratchet ∧
        session.peerIdentity = bundle.identity ∧
        session.pendingPreKey =
          some ⟨handshake.ephemeralPublicKey, handshake.kemCiphertext, handshake.keyIds⟩ ∧
        session.establishedBy = none := by
  simp only [startSession, Outcome.bind_eq_ok_iff, Outcome.pure_eq_ok_iff] at h
  obtain ⟨_, hcheck, handshake, hhandshake, ratchet, hratchet, rfl⟩ := h
  exact ⟨fun key hkey => checkFingerprint_eq_ok (hkey ▸ hcheck), handshake, hhandshake, hratchet, rfl, rfl, rfl⟩

/-- The ids are the bundle's. -/
theorem initiateHandshake_keyIds {self : PrivateIdentity K} {bundle : PreKeyBundle} {ephemeral : KeyPair K}
    {coins : Bytes} {handshake : InitiatorHandshake K}
    (h : initiateHandshake crypto self bundle ephemeral coins = .ok handshake) :
    handshake.keyIds = ⟨bundle.signedPreKey.id, bundle.signedKemPreKey.id,
      bundle.oneTimePreKey.map (fun key => key.id), bundle.oneTimeKemPreKey.map (fun key => key.id)⟩ := by
  simp only [initiateHandshake, Outcome.bind_eq_ok_iff, Outcome.pure_eq_ok_iff] at h
  obtain ⟨_, _, _, _, _, _, _, _, _, _, _, _, _, _, _, _, rfl⟩ := h
  rfl

theorem initiateHandshake_ephemeral {self : PrivateIdentity K} {bundle : PreKeyBundle} {ephemeral : KeyPair K}
    {coins : Bytes} {handshake : InitiatorHandshake K}
    (h : initiateHandshake crypto self bundle ephemeral coins = .ok handshake) :
    handshake.ephemeralPublicKey = ephemeral.publicKey := by
  simp only [initiateHandshake, Outcome.bind_eq_ok_iff, Outcome.pure_eq_ok_iff] at h
  obtain ⟨_, _, _, _, _, _, _, _, _, _, _, _, _, _, _, _, rfl⟩ := h
  rfl

theorem unusedOneTime_serves {get : Int → Option (KeyPair K)} {P : KeyPair K → Prop} (kind : String)
    {served : Option OneTimePreKey}
    (h : ∀ key, served = some key → ∃ pair, get key.id = some pair ∧ pair.publicKey = key.publicKey ∧ P pair) :
    ∃ found, unusedOneTime kind get (served.map (fun key => key.id)) = .ok found ∧
      (∀ key, served = some key → ∃ pair, found = some pair ∧ pair.publicKey = key.publicKey ∧ P pair) ∧
      (served = none → found = none) := by
  cases served with
  | none => exact ⟨none, rfl, by simp, fun _ => rfl⟩
  | some key =>
    obtain ⟨pair, hget, hpublic, hp⟩ := h key rfl
    refine ⟨some pair, by simp [unusedOneTime, hget], ?_, by simp⟩
    rintro _ ⟨rfl⟩
    exact ⟨pair, rfl, hpublic, hp⟩

/-- The responder rebuilds from the preamble the other end of the initiator's session. -/
theorem respondWith_agrees (lawful : crypto.Lawful honest) {self peer : PrivateIdentity K}
    (hself : self.Honest crypto honest) (hpeer : peer.Honest crypto honest) {bundle : PreKeyBundle}
    (hbundle : bundle.identity = publicIdentityOf peer) {store : InMemoryPreKeyStore K}
    {signedPreKey signedKemPreKey : KeyPair K} (serves : Serves honest store bundle signedPreKey signedKemPreKey)
    {ephemeral : KeyPair K} (he : honest.dh ephemeral) {coins : Bytes} {handshake : InitiatorHandshake K}
    (h : initiateHandshake crypto self bundle ephemeral coins = .ok handshake) {body : Bytes} {message : RatchetMessage}
    (hbody : decodeBody body = .ok message) :
    respondWith crypto peer (publicIdentityOf self)
      ⟨handshake.ephemeralPublicKey, handshake.kemCiphertext, handshake.keyIds⟩ body store =
      .ok ({ peerIdentity := publicIdentityOf self,
             ratchet := initialiseResponder handshake.rootSecret signedPreKey handshake.associatedData,
             establishedBy := some ephemeral.publicKey }, message) := by
  have hids := initiateHandshake_keyIds h
  have hephemeral := initiateHandshake_ephemeral h
  obtain ⟨oneTime, hone, hpair, hnone⟩ := unusedOneTime_serves (P := honest.dh) "one-time prekey" serves.oneTime
  obtain ⟨oneTimeKem, hkem, hpair', hnone'⟩ :=
    unusedOneTime_serves (P := honest.kem) "one-time ML-KEM prekey" serves.oneTimeKem
  have hagree := respondToHandshake_agrees lawful hself hpeer hbundle serves he h hpair hnone hpair' hnone'
  have hspk : store.signedPreKey handshake.keyIds.signedPreKeyId = some signedPreKey := by
    rw [hids]; exact serves.signed
  have hkpk : store.signedKemPreKey handshake.keyIds.signedKemPreKeyId = some signedKemPreKey := by
    rw [hids]; exact serves.kem
  have hone : unusedOneTime "one-time prekey" store.oneTimePreKey handshake.keyIds.oneTimePreKeyId = .ok oneTime := by
    rw [hids]; exact hone
  have hkem : unusedOneTime "one-time ML-KEM prekey" store.oneTimeKemPreKey handshake.keyIds.oneTimeKemPreKeyId =
      .ok oneTimeKem := by
    rw [hids]; exact hkem
  simp only [respondWith, hspk, hkpk, hone, hkem, Outcome.ok_bind, hagree, hbody]
  rw [hephemeral]
  rfl

/-- An honest envelope passes the sealed layer and the pin check. -/
theorem openInbound_honest (lawful : crypto.Lawful honest) {sender recipient : PrivateIdentity K}
    (hs : sender.Honest crypto honest) (hr : recipient.Honest crypto honest) {ephemeral : KeyPair K}
    (he : honest.dh ephemeral) {kind : Nat} {payload : Bytes} {envelope : SealedEnvelope}
    (h : sealEnvelope crypto (publicIdentityOf sender) (crypto.sign sender.signing.secretKey)
      (publicIdentityOf recipient) kind payload ephemeral = .ok envelope) {address : String}
    (ha : addressOf crypto sender.signing.publicKey = .ok address) {pins : String → Option Bytes}
    (pinned : ∀ key, pins address = some key → key = sender.signing.publicKey) :
    openInbound crypto recipient envelope pins = .ok (⟨publicIdentityOf sender, kind, payload⟩, address) := by
  have hraddress := (@addressOf_eq_ok _ crypto) (lawful.signing_length _ hr.signing)
  have hopen := openEnvelope_sealEnvelope lawful hs hr he h hraddress
  have hself : (publicIdentityOf recipient).signingPublicKey = recipient.signing.publicKey := rfl
  have hsender : (publicIdentityOf sender).signingPublicKey = sender.signing.publicKey := rfl
  simp only [openInbound, hself, hraddress, hopen, hsender, ha, Outcome.ok_bind]
  cases hpin : pins address with
  | none => rfl
  | some key =>
    have heq : constantTimeEqual key sender.signing.publicKey = true :=
      constantTimeEqual_iff.mpr (pinned key hpin)
    simp only [heq, Bool.not_true, Bool.false_eq_true, ↓reduceIte]
    rfl

theorem encryptMessage_eq_ok {self : PrivateIdentity K} {session : Session K} {plaintext : Bytes}
    {ephemeral : KeyPair K} {envelope : SealedEnvelope}
    (h : (encryptMessage crypto self session plaintext ephemeral).2 = .ok envelope) :
    ∃ message payload, (ratchetEncrypt crypto.toRatchetPrimitives session.ratchet (pad plaintext)).2 = .ok message ∧
      encodePayload session message = .ok payload ∧
      sealEnvelope crypto (publicIdentityOf self) (crypto.sign self.signing.secretKey) session.peerIdentity
        (if session.pendingPreKey.isSome then payloadPreKey else payloadRatchet) payload ephemeral = .ok envelope := by
  simp only [encryptMessage, Outcome.bind_eq_ok_iff] at h
  obtain ⟨message, hmessage, payload, hpayload, hsealed⟩ := h
  exact ⟨message, payload, hmessage, hpayload, hsealed⟩

end

end Veil
