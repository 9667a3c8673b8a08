import Veil.Outreach

namespace Veil

namespace KeyRing

variable {K : Type} {crypto : Cryptography K} {around : Surroundings K} {ring ring' : KeyRing K} {address : String}

theorem outreach_enabled (named : String → String → Prop) :
    ring.book.Enabled named ((ring.outreach crypto around address).label address) := by
  cases hout : ring.outreach crypto around address with
  | refused e => trivial
  | live session => trivial
  | flagged contact presented =>
    obtain ⟨hnone, bundle, _, hpresent⟩ := @outreach_presents _ crypto around ring address (by simp [hout]) (by simp [hout])
    obtain ⟨hcontact, _, hne⟩ := present_flagged (hpresent.trans hout)
    exact ⟨by simp [book, entry, hnone], contact.identityKey, by simp [book, entry, hcontact], hne⟩
  | opened bundle session =>
    obtain ⟨hnone, bundle', _, hpresent⟩ := @outreach_presents _ crypto around ring address (by simp [hout]) (by simp [hout])
    obtain ⟨rfl, hcontact, _⟩ := present_opened (hpresent.trans hout)
    refine ⟨by simp [book, entry, hnone], ?_, ?_⟩
    · intro known hknown
      obtain ⟨contact, hget, rfl⟩ := Option.map_eq_some_iff.mp hknown
      exact hcontact contact hget
    · intro hpaired
      obtain ⟨pairing, hpairing, haddress⟩ := @outreach_passes _ crypto around _ address (by simp [hout]) hpaired
      exact ⟨pairing.peerIdentityKey, by simp [book, hpairing, PairingState.peer, haddress]⟩

/-- The ratchets of the sessions do not show in the book. -/
theorem book_congr (sessions : ∀ a, (ring'.sessions.get? a).map Session.key = (ring.sessions.get? a).map Session.key)
    (contacts : ring'.contacts = ring.contacts) (sessionMeta : ring'.sessionMeta = ring.sessionMeta)
    (pairing : ring'.pairing = ring.pairing) (stored : ring'.pairingStore = ring.pairingStore)
    (paired : ring'.paired = ring.paired) : ring'.book = ring.book := by
  refine AddressBook.ext (funext fun a => ?_) (by simp [book, pairing]) (by simp [book, stored]) (by simp [book, paired])
  simp [book, entry, sessions, contacts, sessionMeta]

theorem book_advance {session next : Session K} (hlive : ring.sessions.get? address = some session)
    (hkey : next.key = session.key) : { ring with sessions := ring.sessions.set address next }.book = ring.book := by
  refine book_congr ?_ rfl rfl rfl rfl rfl
  intro a
  rw [OrderedMap.get?_set]
  split
  next heq => rw [heq, hlive, Option.map_some, Option.map_some, hkey]
  next => rfl

end KeyRing

namespace Messenger

open Command

variable {K : Type} {crypto : Cryptography K} {codec : PayloadCodec} {around : Surroundings K} {m m' : Messenger K}
  {address : String}

theorem ensureSession_follows : Follows crypto m.toKeyRing m.dispatched
    ((m.toKeyRing.outreach crypto around address).label address) (ensureSession crypto around address m).1 := by
  have hrun := ensureSession_run crypto around address m
  cases hout : m.toKeyRing.outreach crypto around address with
  | refused e =>
    rw [hout] at hrun
    rw [hrun]
    exact Follows.still rfl rfl
  | live session =>
    rw [hout] at hrun
    rw [hrun]
    exact Follows.still rfl rfl
  | flagged contact presented =>
    rw [hout] at hrun
    obtain ⟨m', hrun, hring, hsent⟩ := hrun
    obtain ⟨_, _, _, hpresent⟩ := @KeyRing.outreach_presents _ crypto around m.toKeyRing address (by simp [hout]) (by simp [hout])
    obtain ⟨hcontact, _, _⟩ := KeyRing.present_flagged (hpresent.trans hout)
    rw [hrun]
    exact ⟨by rw [hring]; exact KeyRing.mark_book presented hcontact, fun _ hmem => Or.inl (hsent ▸ hmem)⟩
  | opened bundle session =>
    rw [hout] at hrun
    obtain ⟨m', hrun, hring, hsent⟩ := hrun
    obtain ⟨_, _, _, hpresent⟩ := @KeyRing.outreach_presents _ crypto around m.toKeyRing address (by simp [hout]) (by simp [hout])
    obtain ⟨rfl, _, hstart⟩ := KeyRing.present_opened (hpresent.trans hout)
    rw [hrun]
    exact ⟨by rw [hring]; exact KeyRing.begin_book (KeyRing.startSession_peer hstart),
      fun _ hmem => Or.inl (hsent ▸ hmem)⟩

/-- The session returned is the one that is live now, and the lock has been passed. -/
theorem ensureSession_live {session : Session K} (h : ensureSession crypto around address m = (m', .ok session)) :
    m'.sessions.get? address = some session ∧ m'.dispatched = m.dispatched ∧
      (m'.paired → ∃ pairing, m'.pairing = some pairing ∧ pairing.peerAddress = address) := by
  have hrun := ensureSession_run crypto around address m
  have hpasses := fun hout => @KeyRing.outreach_passes _ crypto around m.toKeyRing address hout
  cases hout : m.toKeyRing.outreach crypto around address with
  | refused e => simp [hout, h] at hrun
  | live session' =>
    simp only [hout, h, Prod.mk.injEq, Except.ok.injEq] at hrun
    obtain ⟨rfl, rfl⟩ := hrun
    exact ⟨KeyRing.outreach_live hout, rfl, hpasses (by simp [hout])⟩
  | flagged contact presented => simp [hout, h] at hrun
  | opened bundle session' =>
    simp only [hout, h, Prod.mk.injEq, Except.ok.injEq] at hrun
    obtain ⟨m'', ⟨rfl, rfl⟩, hring, hsent⟩ := hrun
    refine ⟨?_, hsent, ?_⟩
    · rw [hring]
      simp [KeyRing.begin]
    · have hsame : m'.paired = m.paired ∧ m'.pairing = m.pairing := by
        rw [hring]
        unfold KeyRing.begin
        split <;> exact ⟨rfl, rfl⟩
      rw [hsame.1, hsame.2]
      exact hpasses (by simp [hout])

theorem encryptMessage_key {self : PrivateIdentity K} {session : Session K} {plaintext : Bytes} {ephemeral : KeyPair K} :
    (encryptMessage crypto self session plaintext ephemeral).1.key = session.key := rfl

theorem sendPayload_follows (payload : Payload) : Follows crypto m.toKeyRing m.dispatched
    ((m.toKeyRing.outreach crypto around address).label address)
    (sendPayload crypto codec around address payload m).1 := by
  have hfollows := @ensureSession_follows _ crypto around m address
  unfold sendPayload
  cases hrun : ensureSession crypto around address m with
  | mk m' r =>
    rw [hrun] at hfollows
    cases r with
    | error e => rwa [bind_error _ hrun]
    | ok session =>
      obtain ⟨hlive, hsent, hlock⟩ := ensureSession_live hrun
      rw [bind_ok _ hrun]
      simp only [get_bind, putSession, modify_bind]
      have hbook := KeyRing.book_advance hlive
        (@encryptMessage_key _ crypto m'.identity _ (codec.encode payload) around.envelopeEphemeral)
      cases hsealed : (encryptMessage crypto m'.identity session (codec.encode payload) around.envelopeEphemeral).2 with
      | error e => exact ⟨hbook.trans hfollows.book, fun _ hmem => Or.inl (hsent ▸ hmem)⟩
      | ok envelope =>
        simp only [lift_ok_bind, modify_bind, lift_run]
        refine ⟨hbook.trans hfollows.book, ?_⟩
        intro dispatch hmem
        rcases List.mem_append.mp hmem with hold | hnew
        · exact Or.inl (hsent ▸ hold)
        · rw [List.mem_singleton] at hnew
          subst hnew
          exact Or.inr ⟨⟨address, by simp [KeyRing.entry, encryptMessage_key], hlock⟩, rfl, _, _, _, hsealed⟩

theorem startConversation_follows : Follows crypto m.toKeyRing m.dispatched
    ((m.toKeyRing.outreach crypto around address).label address) (startConversation crypto around address m).1 :=
  ensureSession_follows.bind_quiet fun _ => Quiet.touchConversation around address "" 0

theorem sendText_follows (body : String) (expires : Option Int) : Follows crypto m.toKeyRing m.dispatched
    ((m.toKeyRing.outreach crypto around address).label address)
    (sendText crypto codec around address body expires m).1 := by
  unfold sendText
  refine Follows.after_quiet (Quiet.putMessage _ _) rfl fun m₁ hring₁ hsent₁ => ?_
  refine Follows.after_quiet (Quiet.emit _) rfl fun m₂ hring₂ hsent₂ => ?_
  refine Follows.bind_quiet (Follows.rescue_quiet ?_ ?_) ?_
  · rw [← hring₁, ← hring₂, ← hsent₁, ← hsent₂]
    exact sendPayload_follows _
  · exact fun e => (Quiet.putMessage _ _).bind fun _ => (Quiet.emit _).bind fun _ => Quiet.fail e
  · exact fun _ => (Quiet.putMessage _ _).bind fun _ => (Quiet.touchConversation around address body 0).bind fun _ =>
      (Quiet.emit _).bind fun _ => Quiet.pure _

theorem sendTyping_follows (typing : Bool) : Follows crypto m.toKeyRing m.dispatched
    (if m.sendTypingIndicators then (m.toKeyRing.outreach crypto around address).label address else .quiet)
    (sendTyping crypto codec around address typing m).1 := by
  unfold sendTyping
  simp only [get_bind]
  split
  next => exact sendPayload_follows _
  next => exact Follows.still rfl rfl

theorem sendReceipt_follows (ids : List String) (receipt : ReceiptKind) : Follows crypto m.toKeyRing m.dispatched
    (if m.sendReceipts ∧ ids ≠ [] then (m.toKeyRing.outreach crypto around address).label address else .quiet)
    (sendReceipt crypto codec around address ids receipt m).1 := by
  unfold sendReceipt
  simp only [get_bind]
  split
  next => exact sendPayload_follows _
  next => exact Follows.still rfl rfl

end Messenger

end Veil
