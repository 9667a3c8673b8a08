import Veil.Bookkeeping

namespace Veil

/-- What `ensureSession` comes to. -/
inductive Outreach (K : Type)
  | refused (failure : Failure)
  | live (session : Session K)
  | flagged (contact : Contact) (presented : String)
  | opened (bundle : PreKeyBundle) (session : Session K)

def Outreach.label {K : Type} (address : String) : Outreach K → Label
  | .refused _ | .live _ => .quiet
  | .flagged _ presented => .changed address (.flagged presented)
  | .opened bundle _ => .changed address (.opened (toBase64Url bundle.identity.signingPublicKey))

namespace KeyRing

section

variable {K : Type} (crypto : Cryptography K) (around : Surroundings K)

/-- What opening a session on the bundle comes to. -/
def present (ring : KeyRing K) (address : String) (bundle : PreKeyBundle) : Outreach K :=
  let presented := toBase64Url bundle.identity.signingPublicKey
  match (ring.contacts.get? address).filter (fun contact => contact.identityKey ≠ presented) with
  | some contact => .flagged contact presented
  | none =>
    match startSession crypto ring.identity bundle none around.ephemeral around.kemCoins around.sending with
    | .error e => .refused e
    | .ok session => .opened bundle session

/-- The contact whose key does not match is marked. -/
def mark (ring : KeyRing K) (address : String) (contact : Contact) : KeyRing K :=
  let contact := { contact with verification := .changed, identityChangedAt := some around.now }
  { ring with contacts := ring.contacts.set address contact }

def meet (ring : KeyRing K) (address presented : String) : KeyRing K :=
  let created : Contact :=
    { address, displayName := sliceUnits address 8, identityKey := presented, verification := .unverified }
  { ring with contacts := ring.contacts.set address created }

/-- The session is live, its peer is recorded, and a new address becomes a contact. -/
def begin (ring : KeyRing K) (address : String) (bundle : PreKeyBundle) (session : Session K) : KeyRing K :=
  let known := match ring.contacts.get? address with
    | some _ => ring
    | none => ring.meet address (toBase64Url bundle.identity.signingPublicKey)
  { known with
    sessions := ring.sessions.set address session
    sessionMeta := ring.sessionMeta.set address (encodeIdentity bundle.identity) }

def outreach (ring : KeyRing K) (address : String) : Outreach K :=
  match if ring.paired then decideOutbound ring.pairing address else .allow with
  | .refuse reason => .refused (.error (explainRefusal reason))
  | .allow =>
    match ring.sessions.get? address with
    | some session => .live session
    | none =>
      match around.fetchBundle address with
      | .error e => .refused e
      | .ok bundle => ring.present crypto around address bundle

end

section

variable {K : Type} {crypto : Cryptography K} {around : Surroundings K} {ring : KeyRing K} {address : String}

/-- Past the lock there is a pairing with that address. -/
theorem outreach_passes (h : ∀ failure, ring.outreach crypto around address ≠ .refused failure) :
    ring.paired → ∃ pairing, ring.pairing = some pairing ∧ pairing.peerAddress = address := by
  intro hpaired
  unfold outreach at h
  rw [if_pos hpaired] at h
  cases hdecide : decideOutbound ring.pairing address with
  | refuse reason => simp [hdecide] at h
  | allow =>
    obtain ⟨peer, hpeer, haddress⟩ := decideOutbound_allow hdecide
    exact ⟨peer, hpeer, haddress.symm⟩

theorem outreach_live {session : Session K} (h : ring.outreach crypto around address = .live session) :
    ring.sessions.get? address = some session := by
  unfold outreach present at h
  split at h
  next => cases h
  next =>
    split at h
    next existing hlive =>
      cases h
      exact hlive
    next =>
      split at h
      next => cases h
      next =>
        dsimp only at h
        split at h
        next => cases h
        next => split at h <;> cases h

/-- What is not live yet has to be fetched. -/
theorem outreach_presents (passed : ∀ failure, ring.outreach crypto around address ≠ .refused failure)
    (fresh : ∀ session, ring.outreach crypto around address ≠ .live session) :
    ring.sessions.get? address = none ∧ ∃ bundle, around.fetchBundle address = .ok bundle ∧
      ring.present crypto around address bundle = ring.outreach crypto around address := by
  unfold outreach at passed fresh ⊢
  split
  next hdecide => simp [hdecide] at passed
  next hdecide =>
    simp only [hdecide] at passed fresh
    split
    next session hlive => simp [hlive] at fresh
    next hnone =>
      simp only [hnone] at passed
      split
      next e hfetch => simp [hfetch] at passed
      next bundle hfetch => exact ⟨hnone, bundle, hfetch, rfl⟩

theorem present_flagged {bundle : PreKeyBundle} {contact : Contact} {presented : String}
    (h : ring.present crypto around address bundle = .flagged contact presented) :
    ring.contacts.get? address = some contact ∧ presented = toBase64Url bundle.identity.signingPublicKey ∧
      contact.identityKey ≠ presented := by
  unfold present at h
  dsimp only at h
  split at h
  next contact' hfilter =>
    obtain ⟨hcontact, hne⟩ := Option.filter_eq_some_iff.mp hfilter
    cases h
    exact ⟨hcontact, rfl, by simpa using hne⟩
  next => split at h <;> cases h

theorem present_opened {bundle bundle' : PreKeyBundle} {session : Session K}
    (h : ring.present crypto around address bundle' = .opened bundle session) :
    bundle' = bundle ∧
      (∀ contact, ring.contacts.get? address = some contact →
        contact.identityKey = toBase64Url bundle.identity.signingPublicKey) ∧
      startSession crypto ring.identity bundle none around.ephemeral around.kemCoins around.sending = .ok session := by
  unfold present at h
  dsimp only at h
  split at h
  next => cases h
  next hfilter =>
    split at h
    next => cases h
    next session' hstart =>
      cases h
      refine ⟨rfl, ?_, hstart⟩
      intro contact hcontact
      rw [hcontact] at hfilter
      simpa using hfilter

theorem mark_book {contact : Contact} (key : String) (h : ring.contacts.get? address = some contact) :
    (ring.mark around address contact).book = ring.book.after (.changed address (.flagged key)) := by
  refine book_changed ?_ ?_ rfl rfl rfl
  · intro a ha
    simp [entry, mark, OrderedMap.get?_set, ha]
  · simp [entry, mark, Entry.after, h]

theorem begin_book {bundle : PreKeyBundle} {session : Session K} (hpeer : session.peerIdentity = bundle.identity) :
    (ring.begin address bundle session).book =
      ring.book.after (.changed address (.opened (toBase64Url bundle.identity.signingPublicKey))) := by
  refine book_changed ?_ ?_ (by unfold begin; split <;> rfl) (by unfold begin; split <;> rfl)
    (by unfold begin; split <;> rfl)
  · intro a ha
    cases hcontact : ring.contacts.get? address <;> simp [entry, begin, meet, hcontact, OrderedMap.get?_set, ha]
  · cases hcontact : ring.contacts.get? address <;>
      simp [entry, begin, meet, hcontact, Entry.after, Session.key, hpeer, encodeIdentity]

theorem startSession_peer {self : PrivateIdentity K} {bundle : PreKeyBundle} {expected : Option Bytes}
    {ephemeral sending : KeyPair K} {coins : Bytes} {session : Session K}
    (h : startSession crypto self bundle expected ephemeral coins sending = .ok session) :
    session.peerIdentity = bundle.identity := by
  simp only [startSession, Outcome.bind_eq_ok_iff, Outcome.pure_eq_ok_iff] at h
  obtain ⟨_, _, _, _, _, _, rfl⟩ := h
  rfl

end

end KeyRing

namespace Messenger

open Command

section

variable {K : Type} (crypto : Cryptography K) (around : Surroundings K) (address : String) (m : Messenger K)

theorem openSession_run {bundle : PreKeyBundle} (hfetch : around.fetchBundle address = .ok bundle) :
    match m.toKeyRing.present crypto around address bundle with
    | .refused e => openSession crypto around address m = (m, .error e)
    | .live _ => False
    | .flagged contact presented => ∃ m', openSession crypto around address m =
        (m', .error (.identityChanged "the safety number for this contact has changed; verify before sending"
          contact.identityKey presented)) ∧
        m'.toKeyRing = m.toKeyRing.mark around address contact ∧ m'.dispatched = m.dispatched
    | .opened bundle session => ∃ m', openSession crypto around address m = (m', .ok session) ∧
        m'.toKeyRing = m.toKeyRing.begin address bundle session ∧ m'.dispatched = m.dispatched := by
  unfold openSession KeyRing.present KeyRing.begin
  simp only [hfetch, lift_ok_bind, get_bind]
  cases hcontact : m.contacts.get? address with
  | none =>
    simp only [Option.filter_none]
    cases startSession crypto m.identity bundle none around.ephemeral around.kemCoins around.sending with
    | error e => rfl
    | ok session => exact ⟨_, rfl, rfl, rfl⟩
  | some contact =>
    by_cases hkey : contact.identityKey = toBase64Url bundle.identity.signingPublicKey
    · simp only [Option.filter_some, hkey, ne_eq, not_true_eq_false, decide_false, Bool.false_eq_true, if_false]
      cases startSession crypto m.identity bundle none around.ephemeral around.kemCoins around.sending with
      | error e => rfl
      | ok session => exact ⟨_, rfl, rfl, rfl⟩
    · simp only [Option.filter_some, hkey, ne_eq, not_false_eq_true, decide_true, if_true]
      exact ⟨_, rfl, rfl, rfl⟩

theorem ensureSession_run :
    match m.toKeyRing.outreach crypto around address with
    | .refused e => ensureSession crypto around address m = (m, .error e)
    | .live session => ensureSession crypto around address m = (m, .ok session)
    | .flagged contact presented => ∃ m', ensureSession crypto around address m =
        (m', .error (.identityChanged "the safety number for this contact has changed; verify before sending"
          contact.identityKey presented)) ∧
        m'.toKeyRing = m.toKeyRing.mark around address contact ∧ m'.dispatched = m.dispatched
    | .opened bundle session => ∃ m', ensureSession crypto around address m = (m', .ok session) ∧
        m'.toKeyRing = m.toKeyRing.begin address bundle session ∧ m'.dispatched = m.dispatched := by
  unfold ensureSession KeyRing.outreach
  simp only [get_bind]
  cases if m.paired then decideOutbound m.pairing address else .allow with
  | refuse reason => rfl
  | allow =>
    simp only
    cases m.sessions.get? address with
    | some session => rfl
    | none =>
      simp only
      cases hfetch : around.fetchBundle address with
      | error e => simp only [openSession, hfetch, lift_error_bind]
      | ok bundle =>
        have hopen := openSession_run crypto around address m hfetch
        simp only
        cases hpresent : m.toKeyRing.present crypto around address bundle with
        | live session => simp only [hpresent] at hopen
        | refused e => simpa only [hpresent] using hopen
        | flagged contact presented => simpa only [hpresent] using hopen
        | opened bundle' session => simpa only [hpresent] using hopen

end

end Messenger

end Veil
