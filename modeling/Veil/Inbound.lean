import Veil.HandshakeReuse
import Veil.Outbound

namespace Veil

section

variable {K : Type} {crypto : Cryptography K} {fresh : KeyPair K} {self : PrivateIdentity K} {envelope : SealedEnvelope}
  {lookupSession : String → Option (Session K)} {preKeys : InMemoryPreKeyStore K}
  {pinnedIdentityKey : String → Option Bytes}

theorem decryptFirst_touched (sender : PublicIdentity) (preamble : PreKeyPreamble) (body : Bytes) :
    (decryptFirst crypto fresh self sender preamble body preKeys).touched = none := by
  unfold decryptFirst
  split
  next => rfl
  next =>
    dsimp only
    split <;> rfl

/-- A session `decryptEnvelope` has touched is the one on file for that address, with the peer it has there. -/
theorem decryptEnvelope_touched {address : String} {session : Session K}
    (h : (decryptEnvelope crypto fresh self envelope lookupSession preKeys pinnedIdentityKey).touched =
      some (address, session)) :
    ∃ live, lookupSession address = some live ∧ session.peerIdentity = live.peerIdentity := by
  rw [decryptEnvelope_eq] at h
  split at h
  next => cases h
  next sender address' live answered message hroute =>
    obtain ⟨_, _, _, hlookup, _⟩ := route_live hroute
    unfold decryptWith at h
    dsimp only at h
    split at h
    next =>
      obtain ⟨rfl, rfl⟩ := Prod.mk.inj (Option.some.inj h)
      exact ⟨live, hlookup, rfl⟩
    next =>
      obtain ⟨rfl, rfl⟩ := Prod.mk.inj (Option.some.inj h)
      exact ⟨live, hlookup, settle_peerIdentity answered _⟩
  next =>
    rw [decryptFirst_touched] at h
    cases h

/-- A message read is its sender's, either over the session on file or with a new one of the sender. -/
theorem decryptEnvelope_ok {result : DecryptedMessage K}
    (h : (decryptEnvelope crypto fresh self envelope lookupSession preKeys pinnedIdentityKey).result = .ok result) :
    ∃ address, addressOf crypto result.senderIdentity.signingPublicKey = .ok address ∧
      ((result.isNewSession = true ∧ result.session.peerIdentity = result.senderIdentity ∧
          (decryptEnvelope crypto fresh self envelope lookupSession preKeys pinnedIdentityKey).touched = none) ∨
        (result.isNewSession = false ∧ (∃ live, lookupSession address = some live ∧
            result.session.peerIdentity = live.peerIdentity) ∧
          (decryptEnvelope crypto fresh self envelope lookupSession preKeys pinnedIdentityKey).touched =
            some (address, result.session))) := by
  rw [decryptEnvelope_eq] at h ⊢
  split at h
  next => cases h
  next sender address live answered message hroute =>
    obtain ⟨_, hlookup, haddress⟩ := contents_of_live hroute
    unfold decryptWith at h ⊢
    dsimp only at h ⊢
    split at h
    next => cases h
    next padded hratchet =>
      obtain ⟨plaintext, _, h⟩ := Outcome.bind_eq_ok_iff.mp h
      obtain rfl := Outcome.pure_eq_ok_iff.mp h
      exact ⟨address, haddress, Or.inr ⟨rfl, ⟨live, hlookup, settle_peerIdentity answered _⟩, rfl⟩⟩
  next sender address preamble body hroute =>
    rw [decryptFirst_touched]
    unfold decryptFirst at h
    split at h
    next => cases h
    next session message hrespond =>
      have haddress : addressOf crypto sender.signingPublicKey = .ok address := by
        obtain ⟨opened, hopen, rfl, _⟩ := route_first hroute
        exact (openInbound_unpinned hopen).2
      have hpeer : session.peerIdentity = sender := (respondWith_eq_ok hrespond).2.1
      dsimp only at h
      split at h
      next => cases h
      next padded hratchet =>
        obtain ⟨plaintext, _, h⟩ := Outcome.bind_eq_ok_iff.mp h
        obtain rfl := Outcome.pure_eq_ok_iff.mp h
        exact ⟨address, haddress, Or.inl ⟨rfl, hpeer, rfl⟩⟩

end

namespace KeyRing

section

variable {K : Type} (crypto : Cryptography K) (around : Surroundings K)

/-- `decryptEnvelope` as `handleDelivered` calls it. -/
def decrypted (ring : KeyRing K) (envelope : SealedEnvelope) : Decryption K :=
  decryptEnvelope crypto around.replyPair ring.identity envelope ring.sessions.get? ring.preKeys ring.pinnedKeyCache.get?

/-- The pairing lock on a message that was read. -/
def admits (ring : KeyRing K) (address : String) (sender : PublicIdentity) : PairingDecision :=
  if ring.paired then decideInbound ring.pairing address (toBase64Url sender.signingPublicKey) else .allow

/-- What a delivered message comes to: it is read and let in, or it leaves the keys alone. -/
def arrival (ring : KeyRing K) (delivered : DeliveredMessage) : Label :=
  match decodeEnvelope delivered.envelope with
  | .error _ => .quiet
  | .ok envelope =>
    match (ring.decrypted crypto around envelope).result with
    | .error _ => .quiet
    | .ok result =>
      match addressOf crypto result.senderIdentity.signingPublicKey with
      | .error _ => .quiet
      | .ok address =>
        match ring.admits address result.senderIdentity with
        | .refuse _ => .quiet
        | .allow => .changed address (if result.isNewSession then .greeted (toBase64Url result.senderIdentity.signingPublicKey)
            else .answered (toBase64Url result.senderIdentity.signingPublicKey))

/-- The map of sessions and the store after `decryptEnvelope`. -/
def touch (ring : KeyRing K) (decryption : Decryption K) : KeyRing K :=
  { ring with
    preKeys := decryption.preKeys
    sessions := match decryption.touched with
      | none => ring.sessions
      | some (address, session) => ring.sessions.set address session }

/-- What `rememberPeer` files. -/
def remember (ring : KeyRing K) (address : String) (identity : PublicIdentity) : KeyRing K :=
  let presented := toBase64Url identity.signingPublicKey
  let known := if ring.sessionMeta.get? address = none then
      { ring with sessionMeta := ring.sessionMeta.set address (encodeIdentity identity) } else ring
  match ring.contacts.get? address with
  | none => known.meet address presented
  | some contact =>
    if contact.identityKey ≠ presented ∧ contact.verification ≠ .changed then known.mark around address contact else known

end

section

variable {K : Type} {crypto : Cryptography K} {around : Surroundings K} {ring : KeyRing K} {address : String}

theorem touch_book (envelope : SealedEnvelope) : (ring.touch (ring.decrypted crypto around envelope)).book = ring.book := by
  refine book_congr (fun a => ?_) rfl rfl rfl rfl rfl
  unfold touch
  cases htouched : (ring.decrypted crypto around envelope).touched with
  | none => rfl
  | some entry =>
    obtain ⟨address, session⟩ := entry
    obtain ⟨live, hlive, hpeer⟩ := decryptEnvelope_touched htouched
    simp only [OrderedMap.get?_set]
    split
    next heq => rw [heq, hlive, Option.map_some, Option.map_some, Session.key, hpeer, Session.key]
    next => rfl

theorem remember_entry (identity : PublicIdentity) : (ring.remember around address identity).entry address =
    (ring.entry address).heard (toBase64Url identity.signingPublicKey) := by
  unfold remember
  cases hcontact : ring.contacts.get? address with
  | none => cases hmeta : ring.sessionMeta.get? address <;> simp [entry, meet, Entry.heard, hmeta, hcontact, encodeIdentity]
  | some contact =>
    by_cases hkey : contact.identityKey = toBase64Url identity.signingPublicKey
    · cases hmeta : ring.sessionMeta.get? address <;> simp [entry, Entry.heard, hmeta, hcontact, hkey, encodeIdentity]
    · by_cases hchanged : contact.verification = .changed
      · cases hmeta : ring.sessionMeta.get? address <;>
          simp [entry, Entry.heard, hmeta, hcontact, hchanged, encodeIdentity]
      · cases hmeta : ring.sessionMeta.get? address <;>
          simp [entry, mark, Entry.heard, hmeta, hcontact, hkey, hchanged, encodeIdentity]

theorem remember_other (identity : PublicIdentity) {a : String} (h : a ≠ address) :
    (ring.remember around address identity).entry a = ring.entry a := by
  unfold remember
  cases hcontact : ring.contacts.get? address with
  | none => cases hmeta : ring.sessionMeta.get? address <;> simp [entry, meet, OrderedMap.get?_set, h]
  | some contact =>
    dsimp only
    split
    next => cases hmeta : ring.sessionMeta.get? address <;> simp [entry, mark, OrderedMap.get?_set, h]
    next => cases hmeta : ring.sessionMeta.get? address <;> simp [entry, OrderedMap.get?_set, h]

/-- Remembering a sender leaves everything but contacts and records alone. -/
theorem remember_rest (identity : PublicIdentity) :
    (ring.remember around address identity).sessions = ring.sessions ∧
      (ring.remember around address identity).pairing = ring.pairing ∧
      (ring.remember around address identity).pairingStore = ring.pairingStore ∧
      (ring.remember around address identity).paired = ring.paired := by
  unfold remember
  cases hcontact : ring.contacts.get? address with
  | none => cases hmeta : ring.sessionMeta.get? address <;> exact ⟨rfl, rfl, rfl, rfl⟩
  | some contact =>
    dsimp only
    split
    next => cases hmeta : ring.sessionMeta.get? address <;> exact ⟨rfl, rfl, rfl, rfl⟩
    next => cases hmeta : ring.sessionMeta.get? address <;> exact ⟨rfl, rfl, rfl, rfl⟩

/-- A message that is let in is heard under its sender's address, over its session or with a new one. -/
theorem heard_book {envelope : SealedEnvelope} {result : DecryptedMessage K}
    (hresult : (ring.decrypted crypto around envelope).result = .ok result)
    (haddress : addressOf crypto result.senderIdentity.signingPublicKey = .ok address) :
    (({ ring.touch (ring.decrypted crypto around envelope) with
        sessions := (ring.touch (ring.decrypted crypto around envelope)).sessions.set address result.session } :
      KeyRing K).remember around address result.senderIdentity).book =
        ring.book.after (.changed address (if result.isNewSession then .greeted (toBase64Url result.senderIdentity.signingPublicKey)
            else .answered (toBase64Url result.senderIdentity.signingPublicKey))) := by
  set heard : KeyRing K := { ring.touch (ring.decrypted crypto around envelope) with
    sessions := (ring.touch (ring.decrypted crypto around envelope)).sessions.set address result.session } with hheard
  have hrest := @remember_rest _ around heard address result.senderIdentity
  obtain ⟨address', haddress', hkind⟩ := decryptEnvelope_ok hresult
  rw [haddress] at haddress'
  obtain rfl := Except.ok.inj haddress'
  have htouch := @touch_book _ crypto around ring envelope
  have hentry : ∀ a, (ring.touch (ring.decrypted crypto around envelope)).entry a = ring.entry a :=
    fun a => congrFun (congrArg AddressBook.entry htouch) a
  refine book_changed (fun a ha => ?_) ?_ (hrest.2.1.trans ?_) (hrest.2.2.1.trans ?_) (hrest.2.2.2.trans ?_)
  · rw [remember_other _ ha, ← hentry a, hheard]
    simp only [entry, OrderedMap.get?_set_of_ne _ _ ha]
  · rw [remember_entry]
    have hsame : heard.entry address = { ring.entry address with session := some result.session.key } := by
      rw [← hentry address, hheard]
      simp only [entry, OrderedMap.get?_set_self, Option.map_some]
    rw [hsame]
    rcases hkind with ⟨hnew, hpeer, _⟩ | ⟨hold, ⟨live, hlive, hpeer⟩, _⟩
    · rw [hnew, if_pos rfl, Entry.after, Session.key, hpeer]
    · have hkey : (ring.entry address).session = some result.session.key := by
        show (ring.sessions.get? address).map Session.key = _
        rw [hlive, Option.map_some, Session.key, Session.key, hpeer]
      rw [hold, if_neg Bool.false_ne_true, Entry.after, ← hkey]
  · rfl
  · rfl
  · rfl

/-- Whoever is heard has an address of their own and passes the lock; an answer needs a session. -/
theorem arrival_enabled (delivered : DeliveredMessage) :
    ring.book.Enabled (Named crypto) (ring.arrival crypto around delivered) := by
  unfold arrival
  split
  next => trivial
  next envelope henvelope =>
    split
    next => trivial
    next result hresult =>
      split
      next => trivial
      next address haddress =>
        split
        next => trivial
        next hadmits =>
          have hlock : ring.book.locked → ring.book.pairing = some (address, toBase64Url result.senderIdentity.signingPublicKey) := by
            intro hpaired
            unfold admits at hadmits
            rw [if_pos (show ring.paired = true from hpaired)] at hadmits
            obtain ⟨peer, hpairing, hpeer, hkey⟩ := decideInbound_allow hadmits
            simp [book, hpairing, PairingState.peer, hpeer, hkey]
          obtain ⟨address', haddress', hkind⟩ := decryptEnvelope_ok hresult
          rw [haddress] at haddress'
          obtain rfl := Except.ok.inj haddress'
          rcases hkind with ⟨hnew, _, _⟩ | ⟨hold, ⟨live, hlive, _⟩, _⟩
          · rw [hnew, if_pos rfl]
            exact ⟨⟨_, rfl, haddress⟩, hlock⟩
          · rw [hold, if_neg Bool.false_ne_true]
            refine ⟨⟨live.key, ?_⟩, ⟨_, rfl, haddress⟩, hlock⟩
            show (ring.sessions.get? address).map Session.key = _
            rw [hlive, Option.map_some]

end

end KeyRing

namespace Messenger

open Command

section

variable {K : Type} {crypto : Cryptography K} {codec : PayloadCodec} {around : Surroundings K} {m m' : Messenger K}
  {address : String} {ring : KeyRing K} {sent : List (Dispatch K)} {label : Label}

/-- What follows without another change of keys, where nothing was sealed before it. -/
theorem Follows.and_still {last : Messenger K} (book : m.toKeyRing.book = ring.book.after label) (hsent : m.dispatched = sent)
    (h : Follows crypto m.toKeyRing m.dispatched .quiet last) : Follows crypto ring sent label last :=
  ⟨h.book.trans book, fun dispatch hmem => hsent ▸ h.sent dispatch hmem⟩

theorem rememberPeer_run (identity : PublicIdentity) : ∃ m', rememberPeer around address identity m = (m', .ok ()) ∧
    m'.toKeyRing = m.toKeyRing.remember around address identity ∧ m'.dispatched = m.dispatched := by
  unfold rememberPeer KeyRing.remember
  simp only [get_bind]
  cases hmeta : m.sessionMeta.get? address with
  | none =>
    simp only [if_true, putMeta, modify_bind]
    cases hcontact : m.contacts.get? address with
    | none => exact ⟨_, rfl, rfl, rfl⟩
    | some contact =>
      simp only
      split
      next => exact ⟨_, rfl, rfl, rfl⟩
      next => exact ⟨_, rfl, rfl, rfl⟩
  | some stored =>
    simp only [reduceCtorEq, if_false]
    cases hcontact : m.contacts.get? address with
    | none => exact ⟨_, rfl, rfl, rfl⟩
    | some contact =>
      simp only
      split
      next => exact ⟨_, rfl, rfl, rfl⟩
      next => exact ⟨_, rfl, rfl, rfl⟩

/-- Handling a payload changes no keys where the sender has a session. -/
theorem onPayload_follows (live : (m.sessions.get? address).isSome) (payload : Payload) :
    Follows crypto m.toKeyRing m.dispatched .quiet (onPayload crypto codec around address payload m).1 := by
  unfold onPayload
  split
  next messageId body expires =>
    refine Follows.after_quiet (Quiet.putMessage _ _) rfl fun m₁ hring₁ hsent₁ => ?_
    refine Follows.after_quiet (Quiet.touchConversation around address body 1) rfl fun m₂ hring₂ hsent₂ => ?_
    refine Follows.after_quiet (Quiet.emit _) rfl fun m₃ hring₃ hsent₃ => ?_
    have hfollows := @sendReceipt_follows _ crypto codec around m₃ address [messageId] .delivered
    have hquiet : (m₃.toKeyRing.outreach crypto around address).label address = .quiet := by
      rw [hring₃, hring₂, hring₁]
      obtain ⟨session, hlive⟩ := Option.isSome_iff_exists.mp live
      unfold KeyRing.outreach
      rw [hlive]
      split <;> rfl
    rw [hquiet, ite_self] at hfollows
    rw [← hring₁, ← hring₂, ← hring₃, ← hsent₁, ← hsent₂, ← hsent₃]
    exact hfollows
  next ids receipt => exact (Quiet.onReceipt receipt ids).follows
  next typing => exact (Quiet.emit _).follows
  next => exact (Quiet.emit _).follows

/-- A sender that is let in is heard, and its payload handled, even if it cannot be read. -/
theorem acceptInbound_follows {envelope : SealedEnvelope} {result : DecryptedMessage K}
    (hresult : (m.toKeyRing.decrypted crypto around envelope).result = .ok result)
    (haddress : addressOf crypto result.senderIdentity.signingPublicKey = .ok address) :
    Follows crypto m.toKeyRing m.dispatched
      (.changed address (if result.isNewSession then .greeted (toBase64Url result.senderIdentity.signingPublicKey)
        else .answered (toBase64Url result.senderIdentity.signingPublicKey)))
      (acceptInbound crypto codec around address result
        { m with toKeyRing := m.toKeyRing.touch (m.toKeyRing.decrypted crypto around envelope) }).1 := by
  unfold acceptInbound
  simp only [putSession, modify_bind]
  obtain ⟨m', hrun, hring, hsent⟩ := rememberPeer_run
    (m := { m with toKeyRing := { m.toKeyRing.touch (m.toKeyRing.decrypted crypto around envelope) with
      sessions := (m.toKeyRing.touch (m.toKeyRing.decrypted crypto around envelope)).sessions.set address result.session } })
    result.senderIdentity
  have hbook := KeyRing.heard_book hresult haddress
  rw [← hring] at hbook
  refine Follows.and_still hbook hsent ?_
  rw [bind_ok _ hrun]
  cases hpayload : codec.decode result.plaintext with
  | error e => exact Follows.still rfl rfl
  | ok payload =>
    simp only [lift_ok_bind]
    refine onPayload_follows ?_ payload
    rw [hring, (KeyRing.remember_rest _).1]
    simp only [OrderedMap.get?_set_self, Option.isSome_some]

theorem handleDelivered_follows (delivered : DeliveredMessage) : Follows crypto m.toKeyRing m.dispatched
    (m.toKeyRing.arrival crypto around delivered) (handleDelivered crypto codec around delivered m).1 := by
  have hreport : ∀ e, Quiet (do reportFailure e; return (delivered.id, false) : Operation K (String × Bool)) :=
    fun e => (Quiet.reportFailure e).bind fun _ => Quiet.pure _
  unfold handleDelivered
  refine Follows.rescue_quiet ?_ hreport
  unfold KeyRing.arrival
  cases henvelope : decodeEnvelope delivered.envelope with
  | error e => exact Follows.still rfl rfl
  | ok envelope =>
    simp only [lift_ok_bind]
    have htouch := @KeyRing.touch_book _ crypto around m.toKeyRing envelope
    unfold decryptInbound
    simp only [bind_assoc, get_bind, modify_bind]
    change Follows crypto m.toKeyRing m.dispatched _ ((lift (m.toKeyRing.decrypted crypto around envelope).result >>= _)
      { m with toKeyRing := m.toKeyRing.touch (m.toKeyRing.decrypted crypto around envelope) }).1
    cases hresult : (m.toKeyRing.decrypted crypto around envelope).result with
    | error e => exact Follows.still htouch rfl
    | ok result =>
      simp only [lift_ok_bind]
      cases haddress : addressOf crypto result.senderIdentity.signingPublicKey with
      | error e => exact Follows.still htouch rfl
      | ok address =>
        simp only [lift_ok_bind, get_bind]
        have hlock : (if (m.toKeyRing.touch (m.toKeyRing.decrypted crypto around envelope)).paired = true then
            decideInbound (m.toKeyRing.touch (m.toKeyRing.decrypted crypto around envelope)).pairing address
              (toBase64Url result.senderIdentity.signingPublicKey) else .allow) =
            m.toKeyRing.admits address result.senderIdentity := rfl
        rw [hlock]
        cases hadmits : m.toKeyRing.admits address result.senderIdentity with
        | refuse reason =>
          refine Follows.quiet (Follows.still htouch rfl) ?_
          exact (Quiet.emit _).bind fun _ => Quiet.pure _
        | allow =>
          refine Follows.bind_quiet ?_ (fun _ => Quiet.pure _)
          exact acceptInbound_follows hresult haddress

end

end Messenger

end Veil
