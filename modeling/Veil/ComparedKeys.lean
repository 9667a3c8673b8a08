import Veil.Fingerprints
import Veil.PairingLock
import Veil.Transport

namespace Veil

namespace Entry

/-- Whoever has a session is recorded. -/
def Filed (entry : Entry) : Prop := entry.session.isSome → entry.record.isSome

/-- A recorded key is the contact's, beyond doubt, and the live session's. -/
def Settled (entry : Entry) : Prop :=
  ∀ key, entry.record = some key →
    entry.contact = some key ∧ entry.changed = false ∧ ∀ live, entry.session = some live → live = key

/-- Where a change finds the entry: a session is opened under no other key than the contact's, and only a peer with
a session answers. -/
def Possible (entry : Entry) : Change → Prop
  | .opened key => entry.session = none ∧ ∀ known, entry.contact = some known → known = key
  | .answered _ => ∃ live, entry.session = some live
  | _ => True

/-- The change presents no second key to an entry that holds one, and none to a contact in doubt. -/
def Agrees (entry : Entry) : Change → Prop
  | .flagged _ => entry.record = none
  | .opened _ => entry.changed = false
  | .greeted key | .answered key => entry.changed = false ∧ ∀ known, entry.contact = some known → known = key
  | .scanned key => ∀ live, entry.session = some live → live = key
  | .verified | .replaced _ | .dropped => True

/-- An entry with no record is settled. -/
theorem Settled.unrecorded {entry : Entry} (record : entry.record = none) : entry.Settled := by
  intro key hkey
  rw [record] at hkey
  cases hkey

theorem Filed.after {entry : Entry} (h : entry.Filed) {change : Change} (possible : entry.Possible change) :
    (entry.after change).Filed := by
  cases change with
  | flagged key => exact h
  | opened key => exact fun _ => rfl
  | greeted key => exact fun _ => rfl
  | answered key => exact fun _ => rfl
  | scanned key => exact fun _ => rfl
  | verified => exact h
  | replaced key => exact fun hlive => (by cases hlive)
  | dropped => exact fun hlive => (by cases hlive)

/-- The one key that is on file after a sender has been heard is the sender's, if it is settled. -/
theorem heard_settled_iff {entry : Entry} {key : String} (session : entry.session = some key)
    (filed : ∀ known, entry.record = some known → entry.contact = some known) :
    (entry.heard key).Settled ↔ entry.changed = false ∧ ∀ known, entry.contact = some known → known = key := by
  constructor
  · intro h
    obtain ⟨hcontact, hchanged, hlive⟩ := h (entry.record.getD key) rfl
    obtain ⟨hbefore, hknown⟩ := Bool.or_eq_false_iff.mp hchanged
    refine ⟨hbefore, fun known hsome => ?_⟩
    rw [hsome, Option.any_some] at hknown
    exact of_not_not (of_decide_eq_false hknown)
  · rintro ⟨hchanged, hknown⟩
    have hcontact : entry.contact.getD key = key := by
      cases hsome : entry.contact with
      | none => rfl
      | some known => exact hknown known hsome
    have hrecord : entry.record.getD key = key := by
      cases hsome : entry.record with
      | none => rfl
      | some known => exact hknown known (filed known hsome)
    intro key' hkey
    obtain rfl : key = key' := by
      rw [← hrecord]
      exact Option.some.inj hkey
    refine ⟨congrArg some hcontact, ?_, ?_⟩
    · rw [heard, hchanged, Bool.false_or, Option.any_eq_false]
      intro known hsome
      simp [hknown known hsome]
    · intro live hlive
      exact Option.some.inj (hlive.symm.trans session)

theorem Settled.after_iff {entry : Entry} (h : entry.Settled) (filed : entry.Filed) {change : Change}
    (possible : entry.Possible change) :
    (entry.after change).Settled ↔ entry.Agrees change := by
  have hfiled : ∀ known, entry.record = some known → entry.contact = some known :=
    fun known hsome => (h known hsome).1
  cases change with
  | flagged key =>
    constructor
    · intro hafter
      by_contra hrecord
      obtain ⟨known, hsome⟩ := Option.ne_none_iff_exists'.mp hrecord
      have hchanged := (hafter known hsome).2.1
      cases hchanged
    · intro hrecord
      exact Settled.unrecorded hrecord
  | opened key =>
    obtain ⟨hnone, hknown⟩ := possible
    have hcontact : entry.contact.getD key = key := by
      cases hsome : entry.contact with
      | none => rfl
      | some known => exact hknown known hsome
    constructor
    · intro hafter
      exact (hafter key rfl).2.1
    · intro hchanged key' hkey
      obtain rfl := Option.some.inj hkey
      exact ⟨congrArg some hcontact, hchanged, fun live hlive => (Option.some.inj hlive).symm⟩
  | greeted key => exact heard_settled_iff rfl hfiled
  | answered key =>
    obtain ⟨live, hlive⟩ := possible
    obtain ⟨known, hrecord⟩ := Option.isSome_iff_exists.mp (filed (by rw [hlive]; rfl))
    obtain ⟨hcontact, hchanged, hsame⟩ := h known hrecord
    -- the session, the contact and the record have one key, so it is that key or another one
    by_cases hkey : known = key
    · subst hkey
      refine heard_settled_iff ?_ hfiled
      rw [hlive, hsame live hlive]
    · refine iff_of_false (fun hafter => ?_) (fun hagrees => hkey (hagrees.2 known hcontact))
      have hdoubt := (hafter known (by simp [Entry.after, heard, hrecord])).2.1
      simp [Entry.after, heard, hcontact, hkey] at hdoubt
  | scanned key =>
    constructor
    · intro hafter live hlive
      exact (hafter key rfl).2.2 live hlive
    · intro hlive key' hkey
      obtain rfl := Option.some.inj hkey
      exact ⟨rfl, rfl, hlive⟩
  | verified =>
    refine iff_of_true (fun key hkey => ?_) trivial
    obtain ⟨hcontact, _, hlive⟩ := h key hkey
    exact ⟨hcontact, rfl, hlive⟩
  | replaced key => exact iff_of_true (Settled.unrecorded rfl) trivial
  | dropped => exact iff_of_true (Settled.unrecorded rfl) trivial

end Entry

namespace AddressBook

def Filed (book : AddressBook) : Prop := ∀ address, (book.entry address).Filed

def Settled (book : AddressBook) : Prop := ∀ address, (book.entry address).Settled

def Agrees (book : AddressBook) : Label → Prop
  | .changed address change => (book.entry address).Agrees change
  | .paired address key => (book.entry address).Agrees (.scanned key)
  | _ => True

theorem edit_iff {p : Entry → Prop} {book : AddressBook} (h : ∀ a, p (book.entry a)) {address : String} {entry : Entry} :
    (∀ a, p ((book.edit address entry).entry a)) ↔ p entry := by
  constructor
  · intro hedit
    simpa [edit] using hedit address
  · intro hentry a
    by_cases ha : a = address
    · subst ha
      simpa [edit] using hentry
    · simpa [edit, ha] using h a

/-- Unpairing clears an entry, if it does anything. -/
theorem unpaired_entry {p : Entry → Prop} {book : AddressBook} (h : ∀ a, p (book.entry a)) (empty : p {}) (a : String) :
    p ((book.after .unpaired).entry a) := by
  cases hpairing : book.pairing with
  | none =>
    have hsame : (book.after .unpaired).entry a = book.entry a := by simp [after, hpairing]
    rw [hsame]
    exact h a
  | some peer =>
    have hsame : (book.after .unpaired).entry a = (book.edit peer.1 {}).entry a := by simp [after, hpairing]
    rw [hsame]
    exact (edit_iff h).mpr empty a

theorem Enabled.possible {named : String → String → Prop} {book : AddressBook} {address : String}
    {change : Entry.Change} (h : book.Enabled named (.changed address change)) :
    (book.entry address).Possible change := by
  cases change with
  | opened key => exact ⟨h.1, h.2.1⟩
  | answered key => exact h.1
  | _ => trivial

theorem Filed.after {named : String → String → Prop} {book : AddressBook} {label : Label} (h : book.Filed)
    (enabled : book.Enabled named label) : (book.after label).Filed := by
  cases label with
  | quiet => exact h
  | changed address change => exact (edit_iff h).mpr ((h address).after enabled.possible)
  | paired address key => exact (edit_iff h).mpr ((h address).after trivial)
  | refiled => exact h
  | unpaired => exact unpaired_entry h fun hlive => (by cases hlive)
  | restarted => exact fun _ hlive => (by cases hlive)

/-- From a settled book, a label leads to one exactly if it agrees with what is on file. -/
theorem Settled.after_iff {named : String → String → Prop} {book : AddressBook} {label : Label} (h : book.Settled)
    (filed : book.Filed) (enabled : book.Enabled named label) : (book.after label).Settled ↔ book.Agrees label := by
  cases label with
  | quiet => exact iff_of_true h trivial
  | changed address change => exact (edit_iff h).trans ((h address).after_iff (filed address) enabled.possible)
  | paired address key => exact (edit_iff h).trans ((h address).after_iff (filed address) trivial)
  | refiled => exact iff_of_true h trivial
  | unpaired => exact iff_of_true (unpaired_entry h (Entry.Settled.unrecorded rfl)) trivial
  | restarted =>
    refine iff_of_true (fun a key hkey => ?_) trivial
    obtain ⟨hcontact, hchanged, _⟩ := h a key hkey
    exact ⟨hcontact, hchanged, fun _ hlive => (by cases hlive)⟩

end AddressBook

namespace KeyRing

section

variable {K : Type} (crypto : Cryptography K)

/-- The relay's bundle for an address is looked at: the lock lets the address through and no session is live. -/
structure Asks (ring : KeyRing K) (around : Surroundings K) (address : String) (bundle : PreKeyBundle) : Prop where
  unlocked : ring.paired → decideOutbound ring.pairing address = .allow
  fresh : ring.sessions.get? address = none
  fetched : around.fetchBundle address = .ok bundle

/-- The request reads the code: it adds its owner as a contact, or pairs with them where there is no pairing. -/
def Scans (ring : KeyRing K) (request : Request K) (code : String) : Prop :=
  (∃ around, request = .addContactFromCode around code) ∨
    ring.pairing = none ∧ ∃ around displayName, request = .pairWithCode around code displayName

/-- What the relay and the senders present under an address that is a contact is the contact's key, and no code
names another key than that of the live session. -/
structure Agrees (ring : KeyRing K) (request : Request K) : Prop where
  other : ∀ around address bundle contact, ring.addressee request = some (around, address) →
    ring.Asks around address bundle → ring.contacts.get? address = some contact →
      contact.identityKey ≠ toBase64Url bundle.identity.signingPublicKey → ring.sessionMeta.get? address = none
  doubted : ∀ around address bundle contact, ring.addressee request = some (around, address) →
    ring.Asks around address bundle → ring.contacts.get? address = some contact →
      contact.identityKey = toBase64Url bundle.identity.signingPublicKey →
        (startSession crypto ring.identity bundle none around.ephemeral around.kemCoins around.sending).isOk →
          contact.verification ≠ .changed
  heard : ∀ around delivered address key contact, request = .handleDelivered around delivered →
    ring.Hears crypto around delivered address key → ring.contacts.get? address = some contact →
      contact.identityKey = key ∧ contact.verification ≠ .changed
  scanned : ∀ code address identity session, ring.Scans request code → ring.scan crypto code = some (address, identity) →
    ring.sessions.get? address = some session → session.peerIdentity.signingPublicKey = identity.signingPublicKey

end

section

variable {K : Type} {crypto : Cryptography K} {around : Surroundings K} {ring : KeyRing K} {request : Request K}
  {address : String}

theorem entry_contact {contact : Contact} (h : ring.contacts.get? address = some contact) :
    (ring.book.entry address).contact = some contact.identityKey ∧
      ((ring.book.entry address).changed = false ↔ contact.verification ≠ .changed) := by
  refine ⟨?_, ?_⟩
  · show (ring.contacts.get? address).map Contact.identityKey = _
    rw [h, Option.map_some]
  · show (ring.contacts.get? address).any _ = false ↔ _
    rw [h, Option.any_some, decide_eq_false_iff_not]

theorem entry_no_contact (h : ring.contacts.get? address = none) :
    (ring.book.entry address).contact = none ∧ (ring.book.entry address).changed = false := by
  refine ⟨?_, ?_⟩
  · show (ring.contacts.get? address).map Contact.identityKey = _
    rw [h, Option.map_none]
  · show (ring.contacts.get? address).any _ = false
    rw [h, Option.any_none]

theorem entry_record_none : (ring.book.entry address).record = none ↔ ring.sessionMeta.get? address = none :=
  Option.map_eq_none_iff

/-- What a look at the relay's bundle comes to. -/
theorem Asks.outreach {bundle : PreKeyBundle} (h : ring.Asks around address bundle) :
    ring.outreach crypto around address = ring.present crypto around address bundle := by
  have hlock : (if ring.paired then decideOutbound ring.pairing address else .allow) = .allow := by
    split
    next hpaired => exact h.unlocked hpaired
    next => rfl
  simp only [KeyRing.outreach, hlock, h.fresh, h.fetched]

/-- Conversely, an outreach that flags or opens has looked at the bundle. -/
theorem asks_of_outreach (passed : ∀ failure, ring.outreach crypto around address ≠ .refused failure)
    (fresh : ∀ session, ring.outreach crypto around address ≠ .live session) : ∃ bundle, ring.Asks around address bundle ∧
      ring.present crypto around address bundle = ring.outreach crypto around address := by
  obtain ⟨hnone, bundle, hfetch, hpresent⟩ := outreach_presents passed fresh
  refine ⟨bundle, ⟨fun hpaired => ?_, hnone, hfetch⟩, hpresent⟩
  obtain ⟨pairing, hpairing, hpeer⟩ := outreach_passes passed hpaired
  simp [decideOutbound, hpairing, hpeer]

theorem present_of_other {bundle : PreKeyBundle} {contact : Contact} (h : ring.contacts.get? address = some contact)
    (hkey : contact.identityKey ≠ toBase64Url bundle.identity.signingPublicKey) :
    ring.present crypto around address bundle = .flagged contact (toBase64Url bundle.identity.signingPublicKey) := by
  have hdoubt : (some contact).filter (fun contact => contact.identityKey ≠ toBase64Url bundle.identity.signingPublicKey) =
      some contact := Option.filter_eq_some_iff.mpr ⟨rfl, decide_eq_true hkey⟩
  rw [present, h]
  rw [hdoubt]

theorem present_of_same {bundle : PreKeyBundle} {contact : Contact} (h : ring.contacts.get? address = some contact)
    (hkey : contact.identityKey = toBase64Url bundle.identity.signingPublicKey)
    (hstart : (startSession crypto ring.identity bundle none around.ephemeral around.kemCoins around.sending).isOk) :
    ∃ session, ring.present crypto around address bundle = .opened bundle session := by
  obtain ⟨session, hstarted⟩ := Outcome.exists_of_isOk hstart
  have hknown : (some contact).filter (fun contact => contact.identityKey ≠ toBase64Url bundle.identity.signingPublicKey) =
      none := by
    rw [Option.filter_some, if_neg]
    simp [hkey]
  refine ⟨session, ?_⟩
  rw [present, h]
  rw [hknown, hstarted]

theorem heard_agrees (h : ring.Agrees crypto request) {key : String} (hheard : ∃ around delivered,
    request = .handleDelivered around delivered ∧ ring.Hears crypto around delivered address key) :
    (ring.book.entry address).changed = false ∧ ∀ known, (ring.book.entry address).contact = some known → known = key := by
  obtain ⟨around, delivered, hrequest, hhears⟩ := hheard
  cases hcontact : ring.contacts.get? address with
  | none =>
    obtain ⟨hnone, hchanged⟩ := entry_no_contact hcontact
    refine ⟨hchanged, fun known hknown => ?_⟩
    rw [hnone] at hknown
    cases hknown
  | some contact =>
    obtain ⟨hsome, hchanged⟩ := entry_contact hcontact
    obtain ⟨hkey, hsure⟩ := h.heard around delivered address key contact hrequest hhears hcontact
    refine ⟨hchanged.mpr hsure, fun known hknown => ?_⟩
    rw [hsome] at hknown
    rw [← Option.some.inj hknown, hkey]

theorem scanned_agrees (h : ring.Agrees crypto request) {code : String} {identity : PublicIdentity}
    (hscans : ring.Scans request code) (hscan : ring.scan crypto code = some (address, identity)) :
    (ring.book.entry address).Agrees (.scanned (toBase64Url identity.signingPublicKey)) := by
  intro live hlive
  obtain ⟨session, hsession, rfl⟩ := Option.map_eq_some_iff.mp hlive
  exact congrArg toBase64Url (h.scanned code address identity session hscans hscan hsession)

/-- A message that is heard is a greeting or an answer. -/
theorem Hears.arrival {delivered : DeliveredMessage} {key : String} (h : ring.Hears crypto around delivered address key) :
    ring.arrival crypto around delivered = .changed address (.greeted key) ∨
      ring.arrival crypto around delivered = .changed address (.answered key) := by
  obtain ⟨envelope, result, henvelope, hresult, haddress, hadmits, rfl⟩ := h
  simp only [KeyRing.arrival, henvelope, hresult, haddress, hadmits]
  cases result.isNewSession with
  | true => exact Or.inl rfl
  | false => exact Or.inr rfl

/-- What a request presents agrees with the keys on file exactly if its label does. -/
theorem agrees_iff (started : Startup K → Bool) :
    ring.Agrees crypto request ↔ ring.book.Agrees (ring.label crypto started request) := by
  constructor
  · intro h
    have hsource := @label_sourced _ crypto ring started request
    cases hlabel : ring.label crypto started request with
    | changed address change =>
      rw [hlabel] at hsource
      cases change with
      | flagged key =>
        obtain ⟨around, contact, hto, hout⟩ := hsource
        obtain ⟨bundle, hasks, hpresent⟩ :=
          @asks_of_outreach _ crypto _ ring address (by rw [hout]; simp) (by rw [hout]; simp)
        obtain ⟨hcontact, rfl, hother⟩ := present_flagged (hpresent.trans hout)
        exact entry_record_none.mpr (h.other around address bundle contact hto hasks hcontact hother)
      | opened key =>
        obtain ⟨around, bundle, session, hto, hout, rfl⟩ := hsource
        obtain ⟨bundle', hasks, hpresent⟩ :=
          @asks_of_outreach _ crypto _ ring address (by rw [hout]; simp) (by rw [hout]; simp)
        obtain ⟨rfl, hmatch, hstart⟩ := present_opened (hpresent.trans hout)
        show (ring.book.entry address).changed = false
        cases hcontact : ring.contacts.get? address with
        | none => exact (entry_no_contact hcontact).2
        | some contact =>
          refine (entry_contact hcontact).2.mpr (h.doubted around address bundle' contact hto hasks hcontact
            (hmatch contact hcontact) ?_)
          rw [hstart]
          rfl
      | greeted key => exact heard_agrees h hsource
      | answered key => exact heard_agrees h hsource
      | scanned key =>
        obtain ⟨code, identity, hscan, rfl, hrequest⟩ := hsource
        exact scanned_agrees h hrequest hscan
      | verified => trivial
      | replaced key => trivial
      | dropped => trivial
    | paired address key =>
      rw [hlabel] at hsource
      obtain ⟨code, identity, hscan, rfl, hnone, hrequest⟩ := hsource
      exact scanned_agrees h (Or.inr ⟨hnone, hrequest⟩) hscan
    | quiet => trivial
    | refiled => trivial
    | unpaired => trivial
    | restarted => trivial
  · intro h
    refine ⟨?_, ?_, ?_, ?_⟩
    · intro around address bundle contact hto hasks hcontact hother
      rw [label_addressee hto, hasks.outreach, present_of_other hcontact hother] at h
      exact entry_record_none.mp h
    · intro around address bundle contact hto hasks hcontact hsame hstart
      obtain ⟨session, hopened⟩ := present_of_same hcontact hsame hstart
      rw [label_addressee hto, hasks.outreach, hopened] at h
      exact (entry_contact hcontact).2.mp h
    · rintro around delivered address key contact rfl hhears hcontact
      have hagrees : (ring.book.entry address).changed = false ∧
          ∀ known, (ring.book.entry address).contact = some known → known = key := by
        rcases hhears.arrival with hlabel | hlabel
        · rwa [label, hlabel] at h
        · rwa [label, hlabel] at h
      exact ⟨hagrees.2 _ (entry_contact hcontact).1, (entry_contact hcontact).2.mp hagrees.1⟩
    · intro code address identity session hscans hscan hlive
      have hagrees : (ring.book.entry address).Agrees (.scanned (toBase64Url identity.signingPublicKey)) := by
        rcases hscans with ⟨around, rfl⟩ | ⟨hnone, around, displayName, rfl⟩
        · rwa [label, hscan] at h
        · rw [label, hnone, if_neg (by simp), hscan] at h
          dsimp only at h
          split at h
          next => exact h
          next => exact h
      refine toBase64Url_injective (hagrees session.key ?_)
      show (ring.sessions.get? address).map Session.key = _
      rw [hlive, Option.map_some]

end

end KeyRing

namespace Messenger

open Command

section

variable {K : Type} (crypto : Cryptography K)

/-- The number returned for the address is computed from this peer. -/
structure Shows (m : Messenger K) (address number : String) (peer : PublicIdentity) : Prop where
  returned : (safetyNumberWith crypto address m).2 = .ok (some number)
  recorded : ∃ stored, m.sessionMeta.get? address = some stored ∧ decodeIdentity stored = .ok peer
  computed : safetyNumber crypto (publicIdentityOf m.identity) peer = .ok number

/-- The peer's key is the one that would be pinned, the one that would be accepted where the contact is marked
changed, whatever the relay answers, and the one of the session that sends. -/
structure Compared (m : Messenger K) (address : String) (peer : PublicIdentity) : Prop where
  pinned : ∃ contact, m.contacts.get? address = some contact ∧
    contact.identityKey = toBase64Url peer.signingPublicKey ∧
    (markVerified address m).1.pinnedKeyCache.get? address = some peer.signingPublicKey
  accepted : ∀ contact, m.contacts.get? address = some contact → contact.verification = .changed →
    ∀ around m', acceptIdentityChange around address m = (m', .ok ()) →
      ∃ contact', m'.contacts.get? address = some contact' ∧ contact'.identityKey = toBase64Url peer.signingPublicKey
  live : ∀ session, m.sessions.get? address = some session →
    session.peerIdentity.signingPublicKey = peer.signingPublicKey

/-- What the user compares is what is pinned, accepted and used. -/
def Compares (m : Messenger K) : Prop :=
  ∀ address number, (safetyNumberWith crypto address m).2 = .ok (some number) →
    ∃ peer, m.Shows crypto address number peer ∧ m.Compared address peer

/-- Every peer on record has a number. -/
def Numbered (m : Messenger K) : Prop :=
  ∀ address stored, m.sessionMeta.get? address = some stored →
    ∃ number, (safetyNumberWith crypto address m).2 = .ok (some number)

/-- The keys on file are texts of keys. -/
def Spelt (book : AddressBook) : Prop :=
  ∀ address, (book.entry address).All fun text => ∃ key, text = toBase64Url key

end

section

variable {K : Type} {crypto : Cryptography K} {codec : PayloadCodec} {m start : Messenger K} {address : String}

theorem safetyNumberWith_eq_some {number : String} : (safetyNumberWith crypto address m).2 = .ok (some number) ↔
    ∃ stored peer, m.sessionMeta.get? address = some stored ∧ decodeIdentity stored = .ok peer ∧
      safetyNumber crypto (publicIdentityOf m.identity) peer = .ok number := by
  unfold safetyNumberWith
  simp only [get_bind]
  cases hstored : m.sessionMeta.get? address with
  | none =>
    refine iff_of_false (fun h => (by cases h)) ?_
    rintro ⟨_, _, hsome, _⟩
    cases hsome
  | some stored =>
    dsimp only
    cases hpeer : decodeIdentity stored with
    | error e =>
      refine iff_of_false (fun h => (by cases h)) ?_
      rintro ⟨_, _, ⟨⟩, hok, _⟩
      cases hpeer.symm.trans hok
    | ok peer =>
      simp only [lift_ok_bind]
      cases hnumber : safetyNumber crypto (publicIdentityOf m.identity) peer with
      | error e =>
        refine iff_of_false (fun h => (by cases h)) ?_
        rintro ⟨_, _, ⟨⟩, hok, hcomputed⟩
        obtain rfl := Except.ok.inj (hpeer.symm.trans hok)
        cases hnumber.symm.trans hcomputed
      | ok computed =>
        constructor
        · intro h
          obtain rfl := Option.some.inj (Except.ok.inj h)
          exact ⟨stored, peer, rfl, hpeer, hnumber⟩
        · rintro ⟨_, _, ⟨⟩, hok, hcomputed⟩
          obtain rfl := Except.ok.inj (hpeer.symm.trans hok)
          obtain rfl := Except.ok.inj (hnumber.symm.trans hcomputed)
          rfl

theorem decodeIdentity_signing {stored : WirePublicIdentity} {peer : PublicIdentity} {key : Bytes}
    (h : decodeIdentity stored = .ok peer) (hkey : stored.signingPublicKey = toBase64Url key) :
    peer.signingPublicKey = key := by
  simp only [decodeIdentity, hkey, fromBase64Url_toBase64Url, Outcome.ok_bind, Outcome.bind_eq_ok_iff,
    Outcome.pure_eq_ok_iff] at h
  obtain ⟨_, _, _, _, rfl⟩ := h
  rfl

theorem markVerified_pins {contact : Contact} {key : Bytes} (h : m.contacts.get? address = some contact)
    (hkey : contact.identityKey = toBase64Url key) :
    (markVerified address m).1.pinnedKeyCache.get? address = some key := by
  unfold markVerified
  simp only [get_bind, h, putContact, modify_bind, hkey, fromBase64Url_toBase64Url, lift_ok_bind]
  exact OrderedMap.get?_set_self _ _ _

/-- Accepting a change installs the key the relay answers with. -/
theorem acceptIdentityChange_installs {around : Surroundings K} {contact : Contact} {bundle : PreKeyBundle}
    (h : m.contacts.get? address = some contact) (hfetch : around.fetchBundle address = .ok bundle) :
    ∃ m' contact', acceptIdentityChange around address m = (m', .ok ()) ∧ m'.contacts.get? address = some contact' ∧
      contact'.identityKey = toBase64Url bundle.identity.signingPublicKey := by
  unfold acceptIdentityChange
  simp only [get_bind, h, modify_bind, hfetch, lift_ok_bind, putContact]
  exact ⟨_, _, rfl, OrderedMap.get?_set_self _ _ _, rfl⟩

/-- A relay that has this bundle for everyone, as the device `m` meets it. -/
def answering (m : Messenger K) (bundle : PreKeyBundle) : Surroundings K where
  fetchBundle _ := .ok bundle
  postMessage _ := .ok ()
  now := 0
  messageId := ""
  ephemeral := m.identity.signing
  kemCoins := []
  sending := m.identity.signing
  envelopeEphemeral := m.identity.signing
  replyPair := m.identity.signing

/-- A contact that is marked changed does not have the key of every answer. -/
theorem Compared.sure {peer : PublicIdentity} (h : m.Compared address peer) {contact : Contact}
    (hcontact : m.contacts.get? address = some contact) : contact.verification ≠ .changed := by
  intro hchanged
  let bundle : PreKeyBundle :=
    { identity := { signingPublicKey := 0 :: peer.signingPublicKey, exchangePublicKey := [], exchangeKeySignature := [] }
      signedPreKey := ⟨0, [], []⟩, signedKemPreKey := ⟨0, [], []⟩, oneTimePreKey := none, oneTimeKemPreKey := none }
  obtain ⟨m', contact', hrun, hinstalled, hkey⟩ :=
    @acceptIdentityChange_installs _ m address (answering m bundle) contact bundle hcontact rfl
  obtain ⟨contact'', hsame, hpeer⟩ := h.accepted contact hcontact hchanged _ m' hrun
  obtain rfl := Option.some.inj (hinstalled.symm.trans hsame)
  have hlonger : 0 :: peer.signingPublicKey = peer.signingPublicKey := toBase64Url_injective (hkey.symm.trans hpeer)
  exact absurd (congrArg List.length hlonger) (by simp)

theorem compares_of_settled (spelt : Spelt m.toKeyRing.book) (settled : m.toKeyRing.book.Settled) : m.Compares crypto := by
  intro address number hnumber
  obtain ⟨stored, peer, hstored, hpeer, hcomputed⟩ := safetyNumberWith_eq_some.mp hnumber
  have hrecord : (m.toKeyRing.book.entry address).record = some stored.signingPublicKey := by
    show (m.sessionMeta.get? address).map WirePublicIdentity.signingPublicKey = _
    rw [hstored, Option.map_some]
  obtain ⟨key, hkey⟩ := (spelt address).record _ hrecord
  have hsigning : peer.signingPublicKey = key := decodeIdentity_signing hpeer hkey
  obtain ⟨hcontact, hchanged, hlive⟩ := settled address _ hrecord
  obtain ⟨contact, hget, hsame⟩ := Option.map_eq_some_iff.mp hcontact
  have hidentity : contact.identityKey = toBase64Url peer.signingPublicKey := by
    rw [hsame, hkey, hsigning]
  refine ⟨peer, ⟨hnumber, ⟨stored, hstored, hpeer⟩, hcomputed⟩,
    ⟨contact, hget, hidentity, markVerified_pins hget hidentity⟩, ?_, ?_⟩
  · intro contact' hget' hdoubt
    exact absurd hdoubt ((KeyRing.entry_contact hget').2.mp hchanged)
  · intro session hsession
    have hopen : (m.toKeyRing.book.entry address).session = some session.key := by
      show (m.sessions.get? address).map Session.key = _
      rw [hsession, Option.map_some]
    refine toBase64Url_injective ?_
    rw [hsigning, ← hkey]
    exact hlive _ hopen

theorem Compares.settled (spelt : Spelt m.toKeyRing.book) (numbered : m.Numbered crypto) (h : m.Compares crypto) :
    m.toKeyRing.book.Settled := by
  intro address text hrecord
  obtain ⟨stored, hstored, rfl⟩ := Option.map_eq_some_iff.mp hrecord
  obtain ⟨number, hnumber⟩ := numbered address stored hstored
  obtain ⟨peer, hshows, hcompared⟩ := h address number hnumber
  obtain ⟨stored', hstored', hpeer⟩ := hshows.recorded
  obtain rfl := Option.some.inj (hstored.symm.trans hstored')
  obtain ⟨key, hkey⟩ := (spelt address).record _ hrecord
  have hsigning : peer.signingPublicKey = key := decodeIdentity_signing hpeer hkey
  obtain ⟨contact, hget, hidentity, _⟩ := hcompared.pinned
  obtain ⟨hcontact, hchanged⟩ := @KeyRing.entry_contact _ m.toKeyRing _ _ hget
  refine ⟨?_, hchanged.mpr (hcompared.sure hget), ?_⟩
  · rw [hcontact, hidentity, hsigning, hkey]
  · intro live hlive
    obtain ⟨session, hsession, rfl⟩ := Option.map_eq_some_iff.mp hlive
    rw [Session.key, hcompared.live session hsession, hsigning, hkey]

/-- A label puts texts of keys on file. -/
theorem introduces_spelt {ring : KeyRing K} {started : Startup K → Bool} {request : Request K} {text : String}
    (h : (ring.label crypto started request).introduces = some (address, text)) : ∃ key, text = toBase64Url key := by
  have hsource := @KeyRing.label_sourced _ crypto ring started request
  cases hlabel : ring.label crypto started request with
  | changed a change =>
    rw [hlabel] at h hsource
    obtain ⟨_, hchange, heq⟩ := Option.map_eq_some_iff.mp h
    obtain ⟨rfl, rfl⟩ := Prod.mk.inj heq
    cases change with
    | opened _ =>
      obtain rfl := Option.some.inj hchange
      obtain ⟨_, bundle, _, _, _, rfl⟩ := hsource
      exact ⟨_, rfl⟩
    | greeted _ =>
      obtain rfl := Option.some.inj hchange
      obtain ⟨_, _, _, _, _, _, _, _, _, rfl⟩ := hsource
      exact ⟨_, rfl⟩
    | answered _ =>
      obtain rfl := Option.some.inj hchange
      obtain ⟨_, _, _, _, _, _, _, _, _, rfl⟩ := hsource
      exact ⟨_, rfl⟩
    | scanned _ =>
      obtain rfl := Option.some.inj hchange
      obtain ⟨_, identity, _, rfl, _⟩ := hsource
      exact ⟨_, rfl⟩
    | replaced _ =>
      obtain rfl := Option.some.inj hchange
      obtain ⟨_, bundle, _, _, _, rfl⟩ := hsource
      exact ⟨_, rfl⟩
    | flagged _ => cases hchange
    | verified => cases hchange
    | dropped => cases hchange
  | paired a key =>
    rw [hlabel] at h hsource
    obtain ⟨rfl, rfl⟩ := Prod.mk.inj (Option.some.inj h)
    obtain ⟨_, identity, _, rfl, _⟩ := hsource
    exact ⟨_, rfl⟩
  | quiet => rw [hlabel] at h; cases h
  | refiled => rw [hlabel] at h; cases h
  | unpaired => rw [hlabel] at h; cases h
  | restarted => rw [hlabel] at h; cases h

/-- What is kept along a run. -/
structure Kept (book : AddressBook) : Prop where
  spelt : Spelt book
  filed : book.Filed
  settled : book.Settled

theorem spelt_after {ring : KeyRing K} (h : Spelt ring.book) (started : Startup K → Bool) (request : Request K) :
    Spelt (ring.book.after (ring.label crypto started request)) :=
  AddressBook.meets_after (p := fun _ text => ∃ key, text = toBase64Url key) h _ fun _ _ hin => introduces_spelt hin

theorem Kept.after {ring : KeyRing K} (h : Kept ring.book) (started : Startup K → Bool) {request : Request K}
    (agrees : ring.Agrees crypto request) : Kept (ring.book.after (ring.label crypto started request)) where
  spelt := spelt_after h.spelt started request
  filed := h.filed.after (KeyRing.label_enabled started request)
  settled := (h.settled.after_iff h.filed (KeyRing.label_enabled started request)).mpr
    ((KeyRing.agrees_iff started).mp agrees)

/-- While every request agrees with the keys on file, the key behind a number is the one that is pinned, accepted and
used; and where every peer on record has a number, the first request that does not agree ends this. -/
theorem compared_is_used (blank : start.Blank)
    (run : Relation.ReflTransGen (Step crypto codec (KeyRing.Agrees crypto)) start m) :
    m.Compares crypto ∧ ∀ request, (m.perform crypto codec request).Numbered crypto →
      ((m.perform crypto codec request).Compares crypto ↔ m.toKeyRing.Agrees crypto request) := by
  have hkept : Kept m.toKeyRing.book := by
    refine run_keeps (P := Kept) (fun m request hagrees h => h.after _ hagrees) run ?_
    rw [blank.book]
    exact ⟨fun _ => Entry.All.empty _, fun _ hlive => (by cases hlive), fun _ => Entry.Settled.unrecorded rfl⟩
  refine ⟨compares_of_settled hkept.spelt hkept.settled, fun request hnumbered => ?_⟩
  have hbook := (@perform_follows _ crypto codec m request).book
  have hspelt : Spelt (m.perform crypto codec request).toKeyRing.book := by
    rw [hbook]
    exact spelt_after hkept.spelt _ request
  have hsettled := hkept.settled.after_iff hkept.filed
    (@KeyRing.label_enabled _ crypto m.toKeyRing (m.starts crypto) request)
  rw [← hbook] at hsettled
  rw [KeyRing.agrees_iff (m.starts crypto), ← hsettled]
  exact ⟨fun h => h.settled hspelt hnumbered, compares_of_settled hspelt⟩

end

section

variable {K : Type} {crypto : Cryptography K} {codec : PayloadCodec} {m start : Messenger K} {ring : KeyRing K}
  {request : Request K}

/-- Whatever the relay answers to the request, it is the key of the address that was asked for. -/
def AnswersTruly (crypto : Cryptography K) (ring : KeyRing K) (request : Request K) : Prop :=
  ∀ around address bundle,
    ring.addressee request = some (around, address) ∨ request = .acceptIdentityChange around address →
    around.fetchBundle address = .ok bundle → addressOf crypto bundle.identity.signingPublicKey = .ok address

/-- Every key under an address is its own, and no contact is in doubt. -/
structure Undisputed (crypto : Cryptography K) (book : AddressBook) : Prop where
  named : ∀ address, (book.entry address).All (Named crypto address)
  sure : ∀ address, (book.entry address).changed = false

/-- Two texts of keys under one address are one, where addresses tell keys apart. -/
theorem named_unique (distinct : ∀ address key key', addressOf crypto key = .ok address →
      addressOf crypto key' = .ok address → key = key') {address text text' : String}
    (h : Named crypto address text) (h' : Named crypto address text') : text = text' := by
  obtain ⟨key, rfl, hkey⟩ := h
  obtain ⟨key', rfl, hkey'⟩ := h'
  rw [distinct address key key' hkey hkey']

theorem Undisputed.agrees (distinct : ∀ address key key', addressOf crypto key = .ok address →
      addressOf crypto key' = .ok address → key = key') (h : Undisputed crypto ring.book)
    (truly : AnswersTruly crypto ring request) : ring.Agrees crypto request := by
  have hcontact : ∀ {address : String} {contact : Contact}, ring.contacts.get? address = some contact →
      Named crypto address contact.identityKey ∧ contact.verification ≠ .changed := by
    intro address contact hget
    obtain ⟨hsome, hchanged⟩ := KeyRing.entry_contact hget
    exact ⟨(h.named address).contact _ hsome, hchanged.mp (h.sure address)⟩
  refine ⟨?_, ?_, ?_, ?_⟩
  · intro around address bundle contact hto hasks hget hother
    have hbundle := named_iff.mpr (truly around address bundle (Or.inl hto) hasks.fetched)
    exact absurd (named_unique distinct (hcontact hget).1 hbundle) hother
  · intro around address bundle contact _ _ hget _ _
    exact (hcontact hget).2
  · rintro around delivered address key contact _ ⟨_, result, _, _, haddress, _, rfl⟩ hget
    exact ⟨named_unique distinct (hcontact hget).1 (named_iff.mpr haddress), (hcontact hget).2⟩
  · intro code address identity session _ hscan hlive
    have hopen : (ring.book.entry address).session = some session.key := by
      show (ring.sessions.get? address).map Session.key = _
      rw [hlive, Option.map_some]
    exact toBase64Url_injective
      (named_unique distinct ((h.named address).session _ hopen) (KeyRing.scan_named hscan))

theorem Undisputed.after (distinct : ∀ address key key', addressOf crypto key = .ok address →
      addressOf crypto key' = .ok address → key = key') (h : Undisputed crypto ring.book)
    (truly : AnswersTruly crypto ring request) (started : Startup K → Bool) :
    Undisputed crypto (ring.book.after (ring.label crypto started request)) := by
  have hagrees := h.agrees distinct truly
  have hcertifies : ring.Certifies crypto request := by
    rintro address bundle (⟨around, hto, hmeets⟩ | ⟨around, hrequest, _, hfetch⟩)
    · exact truly around address bundle (Or.inl hto) hmeets.fetched
    · exact truly around address bundle (Or.inr hrequest) hfetch
  refine ⟨AddressBook.meets_after h.named _ fun _ _ hin =>
    hcertifies.introduces started (KeyRing.certified_iff.mpr h.named) hin, ?_⟩
  have hedit : ∀ {address : String} {entry : Entry}, entry.changed = false →
      ∀ a, ((ring.book.edit address entry).entry a).changed = false :=
    fun hentry => (AddressBook.edit_iff (p := fun entry => entry.changed = false) h.sure).mpr hentry
  have hheard : ∀ {entry : Entry} {key : String},
      entry.changed = false ∧ (∀ known, entry.contact = some known → known = key) →
        (entry.heard key).changed = false := by
    rintro entry key ⟨hsure, hknown⟩
    rw [Entry.heard, hsure, Bool.false_or, Option.any_eq_false]
    intro known hsome
    simp [hknown known hsome]
  have hsource := @KeyRing.label_sourced _ crypto ring started request
  have hlabel := (@KeyRing.agrees_iff _ crypto ring request started).mp hagrees
  cases hcase : ring.label crypto started request with
  | quiet => exact h.sure
  | refiled => exact h.sure
  | unpaired => exact AddressBook.unpaired_entry (p := fun entry => entry.changed = false) h.sure rfl
  | restarted => exact h.sure
  | paired address key => exact hedit rfl
  | changed address change =>
    rw [hcase] at hsource hlabel
    refine hedit ?_
    cases change with
    | flagged key =>
      obtain ⟨around, contact, hto, hout⟩ := hsource
      obtain ⟨bundle, hasks, hpresent⟩ :=
        @KeyRing.asks_of_outreach _ crypto _ ring address (by rw [hout]; simp) (by rw [hout]; simp)
      obtain ⟨hget, rfl, hother⟩ := KeyRing.present_flagged (hpresent.trans hout)
      have hnamed := (h.named address).contact _ (KeyRing.entry_contact hget).1
      have hbundle := named_iff.mpr (truly around address bundle (Or.inl hto) hasks.fetched)
      exact absurd (named_unique distinct hnamed hbundle) hother
    | opened key => exact h.sure address
    | greeted key => exact hheard hlabel
    | answered key => exact hheard hlabel
    | scanned key => rfl
    | verified => rfl
    | replaced key => rfl
    | dropped => exact h.sure address

/-- A relay that answers every address with its own key gives no request that disagrees, where addresses tell keys
apart. -/
theorem agrees_of_truly (distinct : ∀ address key key', addressOf crypto key = .ok address →
      addressOf crypto key' = .ok address → key = key') (blank : start.Blank)
    (run : Relation.ReflTransGen (Step crypto codec (AnswersTruly crypto)) start m) :
    Relation.ReflTransGen (Step crypto codec (KeyRing.Agrees crypto)) start m ∧ Undisputed crypto m.toKeyRing.book := by
  induction run with
  | refl =>
    refine ⟨.refl, ?_⟩
    rw [blank.book]
    exact ⟨fun _ => Entry.All.empty _, fun _ => rfl⟩
  | tail _ step ih =>
    obtain ⟨hrun, hundisputed⟩ := ih
    obtain ⟨request, truly⟩ := step
    refine ⟨hrun.tail (.perform _ request (hundisputed.agrees distinct truly)), ?_⟩
    rw [(perform_follows request).book]
    exact hundisputed.after distinct truly _

end

/-- A fingerprint takes thirty bytes of a digest, which is no shorter than the key. -/
theorem identityFingerprint_spelled {key : Bytes} (h : key.length = 32) :
    ∃ text, identityFingerprint spelled key = .ok text := by
  have hlong : ∀ digest : Bytes, 5 * ((digitsPerParty + 4) / 5) ≤ (spelled.hash512 (digest ++ key)).length := by
    intro digest
    have hlength : (spelled.hash512 (digest ++ key)).length = digest.length + 32 := by
      show (digest ++ key).reverse.length = _
      rw [List.length_reverse, List.length_append, h]
    have hneeded : 5 * ((digitsPerParty + 4) / 5) = 30 := rfl
    omega
  obtain ⟨digest, hdigest, hholds⟩ : ∃ digest, iteratedFingerprint spelled key = .ok digest ∧
      5 * ((digitsPerParty + 4) / 5) ≤ digest.length := by
    refine ⟨_, if_neg (not_not_intro h), ?_⟩
    have hrounds : fingerprintIterations = 5199 + 1 := rfl
    rw [hrounds, Function.iterate_succ_apply']
    exact hlong _
  obtain ⟨text, hok, _⟩ := encodeDigits_ok hholds
  refine ⟨text, ?_⟩
  rw [identityFingerprint, hdigest]
  exact hok

/-- A device that has just started and opens a conversation with Bob. -/
theorem compared_is_used_bob : ((opened false).perform spelled (textCodec hello)
    (.startConversation (relayed bobBundle) bobAddress)).Compares spelled := by
  have hstart : (unopened false).toKeyRing.Agrees spelled (.start aliceStartup) := by
    refine ⟨fun _ _ _ _ hto => (by cases hto), fun _ _ _ _ hto => (by cases hto),
      fun _ _ _ _ _ heq => (by cases heq), ?_⟩
    rintro _ _ _ _ (⟨_, heq⟩ | ⟨_, _, _, heq⟩) <;> cases heq
  have hnone : (opened false).contacts.get? bobAddress = none := by decide +kernel
  have hopen : (opened false).toKeyRing.Agrees spelled (.startConversation (relayed bobBundle) bobAddress) := by
    refine ⟨?_, ?_, fun _ _ _ _ _ heq => (by cases heq), ?_⟩
    · rintro _ _ _ _ ⟨⟩ _ hget
      cases hnone.symm.trans hget
    · rintro _ _ _ _ ⟨⟩ _ hget
      cases hnone.symm.trans hget
    · rintro _ _ _ _ (⟨_, heq⟩ | ⟨_, _, _, heq⟩) <;> cases heq
  have run : Relation.ReflTransGen (Step spelled (textCodec hello) (KeyRing.Agrees spelled)) (unopened false) _ :=
    (Relation.ReflTransGen.single (.perform _ _ hstart)).tail (.perform _ _ hopen)
  exact (compared_is_used (unopened_blank false) run).1

/-- Alice's device after a conversation opened on another's bundle and a look at Bob's code. -/
def scannedBob : Messenger Bytes :=
  ((opened false).perform spelled (textCodec hello) (.startConversation (relayed malloryBundle) bobAddress)).perform
    spelled (textCodec hello) (.addContactFromCode (relayed malloryBundle) bobCode)

/-- The number is Bob's and so is the pin, but the session that sends is Mallory's. -/
theorem scanned_over_session : ¬ ∀ (start m : Messenger Bytes), start.Blank →
    Relation.ReflTransGen (Step spelled (textCodec hello) (fun _ _ => True)) start m → m.Compares spelled := by
  intro claim
  have run : Relation.ReflTransGen (Step spelled (textCodec hello) (fun _ _ => True)) (unopened false) scannedBob :=
    ((Relation.ReflTransGen.single (.perform (unopened false) (.start aliceStartup) trivial)).tail
      (.perform (opened false) _ trivial)).tail (.perform _ _ trivial)
  have hcompares := claim (unopened false) scannedBob (unopened_blank false) run
  have hkeys : scannedBob.sessionMeta.get? bobAddress = some (encodeIdentity (publicIdentityOf bob)) ∧
      (scannedBob.sessions.get? bobAddress).map (fun session => session.peerIdentity.signingPublicKey) =
        some (publicIdentityOf mallory).signingPublicKey ∧
      (publicIdentityOf scannedBob.identity).signingPublicKey.length = 32 ∧
      (publicIdentityOf bob).signingPublicKey.length = 32 ∧
      (publicIdentityOf mallory).signingPublicKey ≠ (publicIdentityOf bob).signingPublicKey := by
    decide +kernel
  obtain ⟨hmeta, hsession, hself, hbob, hother⟩ := hkeys
  obtain ⟨fa, hfa⟩ := identityFingerprint_spelled hself
  obtain ⟨fb, hfb⟩ := identityFingerprint_spelled hbob
  have hnumber := safetyNumber_eq hfa hfb
  have hdecoded := Protocol.decodeIdentity_encodeIdentity (publicIdentityOf bob)
  obtain ⟨peer, hshows, hcompared⟩ :=
    hcompares bobAddress _ (safetyNumberWith_eq_some.mpr ⟨_, _, hmeta, hdecoded, hnumber⟩)
  obtain ⟨stored, hstored, hpeer⟩ := hshows.recorded
  obtain rfl := Option.some.inj (hmeta.symm.trans hstored)
  obtain rfl := Except.ok.inj (hdecoded.symm.trans hpeer)
  obtain ⟨session, hlive, hkey⟩ := Option.map_eq_some_iff.mp hsession
  exact hother (hkey.symm.trans (hcompared.live session hlive))

end Messenger

end Veil
