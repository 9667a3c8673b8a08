import Veil.Requests
import Veil.Spelled

namespace Veil

theorem named_iff {K : Type} {crypto : Cryptography K} {address : String} {signingPublicKey : Bytes} :
    Named crypto address (toBase64Url signingPublicKey) ↔ addressOf crypto signingPublicKey = .ok address := by
  refine ⟨?_, fun h => ⟨_, rfl, h⟩⟩
  rintro ⟨key, heq, h⟩
  rwa [toBase64Url_injective heq]

namespace KeyRing

section

variable {K : Type} (crypto : Cryptography K)

/-- Every key stored under an address hashes to it. -/
structure Certified (ring : KeyRing K) : Prop where
  session : ∀ address session, ring.sessions.get? address = some session →
    addressOf crypto session.peerIdentity.signingPublicKey = .ok address
  contact : ∀ address contact, ring.contacts.get? address = some contact → Named crypto address contact.identityKey
  record : ∀ address stored, ring.sessionMeta.get? address = some stored → Named crypto address stored.signingPublicKey

/-- A call of `ensureSession` gets as far as a session with the bundle, the first key known for the address. -/
structure Meets (ring : KeyRing K) (around : Surroundings K) (address : String) (bundle : PreKeyBundle) : Prop where
  unlocked : ring.paired → decideOutbound ring.pairing address = .allow
  fresh : ring.sessions.get? address = none
  fetched : around.fetchBundle address = .ok bundle
  unknown : ring.contacts.get? address = none
  started : (startSession crypto ring.identity bundle none around.ephemeral around.kemCoins around.sending).isOk

/-- The request takes the key of an address from the relay's bundle: on first contact, or in place of the old key. -/
def Adopts (ring : KeyRing K) (request : Request K) (address : String) (bundle : PreKeyBundle) : Prop :=
  (∃ around, ring.addressee request = some (around, address) ∧ ring.Meets crypto around address bundle) ∨
    ∃ around, request = .acceptIdentityChange around address ∧ ring.contacts.get? address ≠ none ∧
      around.fetchBundle address = .ok bundle

/-- The relay answers such a request with a key that hashes to the address. -/
def Certifies (ring : KeyRing K) (request : Request K) : Prop :=
  ∀ address bundle, ring.Adopts crypto request address bundle →
    addressOf crypto bundle.identity.signingPublicKey = .ok address

end

section

variable {K : Type} {crypto : Cryptography K} {around : Surroundings K} {ring : KeyRing K} {address : String}

theorem certified_iff : ring.Certified crypto ↔ ∀ a, (ring.book.entry a).All (Named crypto a) := by
  constructor
  · intro h a
    refine ⟨?_, ?_, ?_⟩
    · intro key hkey
      obtain ⟨session, hsession, rfl⟩ := Option.map_eq_some_iff.mp hkey
      exact named_iff.mpr (h.session a session hsession)
    · intro key hkey
      obtain ⟨contact, hcontact, rfl⟩ := Option.map_eq_some_iff.mp hkey
      exact h.contact a contact hcontact
    · intro key hkey
      obtain ⟨stored, hstored, rfl⟩ := Option.map_eq_some_iff.mp hkey
      exact h.record a stored hstored
  · intro h
    refine ⟨?_, ?_, ?_⟩
    · intro a session hsession
      refine named_iff.mp ((h a).session _ ?_)
      show (ring.sessions.get? a).map Session.key = _
      rw [hsession, Option.map_some, Session.key]
    · intro a contact hcontact
      refine (h a).contact _ ?_
      show (ring.contacts.get? a).map Contact.identityKey = _
      rw [hcontact, Option.map_some]
    · intro a stored hstored
      refine (h a).record _ ?_
      show (ring.sessionMeta.get? a).map WirePublicIdentity.signingPublicKey = _
      rw [hstored, Option.map_some]

/-- A session that `ensureSession` opens is the first contact, or has the contact's key. -/
theorem outreach_opened {bundle : PreKeyBundle} {session : Session K}
    (h : ring.outreach crypto around address = .opened bundle session) :
    around.fetchBundle address = .ok bundle ∧
      ((∃ contact, ring.contacts.get? address = some contact ∧
          contact.identityKey = toBase64Url bundle.identity.signingPublicKey) ∨
        ring.Meets crypto around address bundle) := by
  obtain ⟨hnone, bundle', hfetch, hpresent⟩ := outreach_presents (by rw [h]; simp) (by rw [h]; simp)
  rw [h] at hpresent
  obtain ⟨rfl, hmatch, hstart⟩ := present_opened hpresent
  refine ⟨hfetch, ?_⟩
  cases hcontact : ring.contacts.get? address with
  | some contact => exact Or.inl ⟨contact, rfl, hmatch contact hcontact⟩
  | none =>
    refine Or.inr ⟨fun hpaired => ?_, hnone, hfetch, hcontact, by rw [hstart]; rfl⟩
    have hpass := outreach_passes
      (by rw [h]; simp) hpaired
    obtain ⟨pairing, hpairing, hpeer⟩ := hpass
    simp [decideOutbound, hpairing, hpeer]

theorem Meets.outreach {bundle : PreKeyBundle} (h : ring.Meets crypto around address bundle) :
    ∃ session, ring.outreach crypto around address = .opened bundle session := by
  obtain ⟨session, hstart⟩ : ∃ session,
      startSession crypto ring.identity bundle none around.ephemeral around.kemCoins around.sending = .ok session := by
    have hok := h.started
    cases hstart : startSession crypto ring.identity bundle none around.ephemeral around.kemCoins around.sending with
    | error e =>
      rw [hstart] at hok
      cases hok
    | ok session => exact ⟨session, rfl⟩
  refine ⟨session, ?_⟩
  have hlock : (if ring.paired then decideOutbound ring.pairing address else .allow) = .allow := by
    split
    next hpaired => exact h.unlocked hpaired
    next => rfl
  simp only [KeyRing.outreach, hlock, h.fresh, h.fetched, present, h.unknown, Option.filter_none, hstart]

/-- Whatever a request brings to a certified device hashes to its address, if the relay answers as it should. -/
theorem Certifies.introduces {request : Request K} (started : Startup K → Bool) (hcertified : ring.Certified crypto)
    (h : ring.Certifies crypto request) {key : String}
    (hkey : (ring.label crypto started request).introduces = some (address, key)) : Named crypto address key := by
  have henabled := @label_enabled _ crypto ring started request
  have hsource := @label_sourced _ crypto ring started request
  cases hlabel : ring.label crypto started request with
  | quiet => simp [hlabel, Label.introduces] at hkey
  | refiled => simp [hlabel, Label.introduces] at hkey
  | unpaired => simp [hlabel, Label.introduces] at hkey
  | restarted => simp [hlabel, Label.introduces] at hkey
  | paired a k =>
    simp only [hlabel, Label.introduces, Option.some.injEq, Prod.mk.injEq] at hkey
    obtain ⟨rfl, rfl⟩ := hkey
    rw [hlabel] at henabled
    exact henabled.1
  | changed a change =>
    rw [hlabel] at henabled hsource hkey
    simp only [Label.introduces, Option.map_eq_some_iff, Prod.mk.injEq] at hkey
    obtain ⟨_, hchange, rfl, rfl⟩ := hkey
    cases change with
    | flagged _ => cases hchange
    | verified => cases hchange
    | dropped => cases hchange
    | greeted _ =>
      obtain rfl := Option.some.inj hchange
      exact henabled.1
    | answered _ =>
      obtain rfl := Option.some.inj hchange
      exact henabled.2.1
    | scanned _ =>
      obtain rfl := Option.some.inj hchange
      exact henabled
    | opened _ =>
      obtain rfl := Option.some.inj hchange
      obtain ⟨around, bundle, session, hto, hout, rfl⟩ := hsource
      rcases (outreach_opened hout).2 with ⟨contact, hcontact, hsame⟩ | hmeets
      · rw [← hsame]
        exact hcertified.contact _ contact hcontact
      · exact named_iff.mpr (h _ bundle (Or.inl ⟨around, hto, hmeets⟩))
    | replaced _ =>
      obtain rfl := Option.some.inj hchange
      obtain ⟨around, bundle, rfl, hcontact, hfetch, rfl⟩ := hsource
      exact named_iff.mpr (h _ bundle (Or.inr ⟨around, rfl, hcontact, hfetch⟩))

theorem Certified.after_iff {started : Startup K → Bool} {request : Request K} {ring' : KeyRing K}
    (hcertified : ring.Certified crypto) (hafter : ring'.book = ring.book.after (ring.label crypto started request)) :
    ring'.Certified crypto ↔ ring.Certifies crypto request := by
  rw [certified_iff, hafter]
  constructor
  · intro h a bundle hadopts
    rcases hadopts with ⟨around, hto, hmeets⟩ | ⟨around, rfl, hcontact, hfetch⟩
    · obtain ⟨session, hout⟩ := hmeets.outreach
      rw [label_addressee hto, hout] at h
      refine named_iff.mp ((h a).session _ ?_)
      simp [Outreach.label, AddressBook.after, AddressBook.edit, Entry.after]
    · have hlabel : ring.label crypto started (.acceptIdentityChange around a) =
          .changed a (.replaced (toBase64Url bundle.identity.signingPublicKey)) := by
        simp only [label, if_neg hcontact, hfetch]
      rw [hlabel] at h
      refine named_iff.mp ((h a).contact _ ?_)
      simp [AddressBook.after, AddressBook.edit, Entry.after]
  · intro h
    exact AddressBook.meets_after (certified_iff.mp hcertified) _ fun a key hkey => h.introduces started hcertified hkey

end

end KeyRing

namespace Messenger

section

variable {K : Type} (crypto : Cryptography K) (codec : PayloadCodec)

/-- `ensureSession` throws and stores no key, or the session under the address has a key that hashes to it. -/
structure Ensures (around : Surroundings K) (address : String) (m : Messenger K) : Prop where
  thrown : ∀ m' e, ensureSession crypto around address m = (m', .error e) →
    m'.sessions = m.sessions ∧ m'.sessionMeta = m.sessionMeta ∧
      ∀ a, (m'.contacts.get? a).map Contact.identityKey = (m.contacts.get? a).map Contact.identityKey
  returned : ∀ m' session, ensureSession crypto around address m = (m', .ok session) →
    m'.sessions.get? address = some session ∧ addressOf crypto session.peerIdentity.signingPublicKey = .ok address

end

section

variable {K : Type} {crypto : Cryptography K} {codec : PayloadCodec} {around : Surroundings K} {m start : Messenger K}
  {address : String}

theorem ensures_iff (hcertified : m.toKeyRing.Certified crypto) : m.Ensures crypto around address ↔
    ∀ bundle, m.toKeyRing.Meets crypto around address bundle →
      addressOf crypto bundle.identity.signingPublicKey = .ok address := by
  have hrun := ensureSession_run crypto around address m
  cases hout : m.toKeyRing.outreach crypto around address with
  | refused e =>
    simp only [hout] at hrun
    refine ⟨fun _ bundle hmeets => ?_, fun _ => ⟨?_, ?_⟩⟩
    · obtain ⟨session, hopened⟩ := hmeets.outreach
      simp [hout] at hopened
    · intro m' e' heq
      obtain ⟨rfl, _⟩ := Prod.mk.inj (hrun.symm.trans heq)
      exact ⟨rfl, rfl, fun _ => rfl⟩
    · intro m' session heq
      cases (Prod.mk.inj (hrun.symm.trans heq)).2
  | live session =>
    simp only [hout] at hrun
    have hlive := KeyRing.outreach_live hout
    refine ⟨fun _ bundle hmeets => ?_, fun _ => ⟨?_, ?_⟩⟩
    · obtain ⟨session, hopened⟩ := hmeets.outreach
      simp [hout] at hopened
    · intro m' e heq
      cases (Prod.mk.inj (hrun.symm.trans heq)).2
    · intro m' session' heq
      obtain ⟨rfl, hsame⟩ := Prod.mk.inj (hrun.symm.trans heq)
      obtain rfl := Except.ok.inj hsame
      exact ⟨hlive, hcertified.session address session hlive⟩
  | flagged contact presented =>
    simp only [hout] at hrun
    obtain ⟨m₁, hrun, hring, _⟩ := hrun
    refine ⟨fun _ bundle hmeets => ?_, fun _ => ⟨?_, ?_⟩⟩
    · obtain ⟨session, hopened⟩ := hmeets.outreach
      simp [hout] at hopened
    · intro m' e heq
      obtain ⟨rfl, _⟩ := Prod.mk.inj (hrun.symm.trans heq)
      have hknown : m.contacts.get? address = some contact := by
        obtain ⟨_, bundle, _, hpresent⟩ := KeyRing.outreach_presents (by rw [hout]; simp) (by rw [hout]; simp)
        rw [hout] at hpresent
        exact (KeyRing.present_flagged hpresent).1
      rw [hring]
      refine ⟨rfl, rfl, fun a => ?_⟩
      simp only [KeyRing.mark, OrderedMap.get?_set]
      split
      next heq => rw [heq, hknown, Option.map_some, Option.map_some]
      next => rfl
    · intro m' session heq
      cases (Prod.mk.inj (hrun.symm.trans heq)).2
  | opened bundle session =>
    simp only [hout] at hrun
    obtain ⟨m₁, hrun, hring, _⟩ := hrun
    obtain ⟨hfetch, hknown⟩ := KeyRing.outreach_opened hout
    have hpeer : session.peerIdentity = bundle.identity := by
      obtain ⟨_, bundle', _, hpresent⟩ := KeyRing.outreach_presents (by rw [hout]; simp) (by rw [hout]; simp)
      rw [hout] at hpresent
      exact KeyRing.startSession_peer (KeyRing.present_opened hpresent).2.2
    refine ⟨fun h bundle' hmeets => ?_, fun h => ⟨?_, ?_⟩⟩
    · obtain rfl := Except.ok.inj (hfetch.symm.trans hmeets.fetched)
      rw [← hpeer]
      exact (h.returned m₁ session hrun).2
    · intro m' e heq
      cases (Prod.mk.inj (hrun.symm.trans heq)).2
    · intro m' session' heq
      obtain ⟨rfl, hsame⟩ := Prod.mk.inj (hrun.symm.trans heq)
      obtain rfl := Except.ok.inj hsame
      refine ⟨by rw [hring]; simp [KeyRing.begin], ?_⟩
      rw [hpeer]
      rcases hknown with ⟨contact, hcontact, hsame⟩ | hmeets
      · refine named_iff.mp ?_
        rw [← hsame]
        exact hcertified.contact address contact hcontact
      · exact h bundle hmeets

/-- Where the relay answers every first contact and every accepted change with a key that hashes to the address,
every key on file does; a request that meets another answer, and no other, puts a wrong key on file, and
`ensureSession` gives the session of another identity on first contact only. -/
theorem self_certifying (blank : start.Blank)
    (run : Relation.ReflTransGen (Step crypto codec (KeyRing.Certifies crypto)) start m) :
    m.toKeyRing.Certified crypto ∧
      (∀ request, (m.perform crypto codec request).toKeyRing.Certified crypto ↔ m.toKeyRing.Certifies crypto request) ∧
      ∀ around address, m.Ensures crypto around address ↔ ∀ bundle, m.toKeyRing.Meets crypto around address bundle →
        addressOf crypto bundle.identity.signingPublicKey = .ok address := by
  have hcertified : m.toKeyRing.Certified crypto := by
    refine KeyRing.certified_iff.mpr (run_keeps (P := fun book => ∀ a, (book.entry a).All (Named crypto a)) ?_ run ?_)
    · intro m request hmeets hbook
      have hring := KeyRing.certified_iff.mpr hbook
      have hbook' := (@perform_follows _ crypto codec m request).book
      rw [← hbook']
      exact KeyRing.certified_iff.mp ((hring.after_iff hbook').mpr hmeets)
    · rw [blank.book]
      exact fun a => Entry.All.empty _
  exact ⟨hcertified, fun request => hcertified.after_iff (perform_follows request).book,
    fun around address => ensures_iff hcertified⟩

end

/-- Alice's device before its first start. -/
def unopened (paired : Bool) : Messenger Bytes := { identity := alice, address := "", preKeys := {}, paired }

theorem unopened_blank (paired : Bool) : (unopened paired).Blank := ⟨rfl, rfl, rfl, rfl, rfl, rfl⟩

def aliceStartup : Startup Bytes where
  signing := spelledPair 32 1
  exchange := spelledPair 32 2
  signedPreKey := spelledPair 32 3
  signedKemPreKey := spelledPair 1568 4
  oneTimePreKeys := []
  oneTimeKemPreKeys := []
  register _ _ := .ok ()
  authenticate _ := .ok ()

/-- The relay answers every request for a bundle with this one. -/
def relayed (bundle : PreKeyBundle) : Surroundings Bytes where
  fetchBundle _ := .ok bundle
  postMessage _ := .ok ()
  now := 0
  messageId := "m"
  ephemeral := spelledPair 32 21
  kemCoins := [7]
  sending := spelledPair 32 22
  envelopeEphemeral := spelledPair 32 23
  replyPair := spelledPair 32 24

/-- A codec that knows one payload. -/
def textCodec (payload : Payload) : PayloadCodec where
  encode other := if other = payload then [1] else [0]
  decode bytes := if bytes = [1] then .ok payload else .error (.malformedInput "unknown payload")

def hello : Payload := .text "m" "hello" none

def opened (paired : Bool) : Messenger Bytes := (unopened paired).perform spelled (textCodec hello) (.start aliceStartup)

def carolAddress : String := "d6aaaaaaaaaaaaaaaaaaaaaaaa"

theorem bobBundle_address : addressOf spelled bobBundle.identity.signingPublicKey = .ok bobAddress := by
  have hlength : bobBundle.identity.signingPublicKey.length = ed25519PublicLen := by decide +kernel
  have hhash : toBase32 ((spelled.hash256 (utf8 "Veil/v1/Address" ++ bobBundle.identity.signingPublicKey)).take
      addressBytes) = bobAddress := by decide +kernel
  rw [addressOf, if_neg (not_not.mpr hlength), hhash]

/-- A device that has just started and opens a conversation with Bob. -/
theorem self_certifying_bob : ((opened false).perform spelled (textCodec hello)
    (.startConversation (relayed bobBundle) bobAddress)).toKeyRing.Certified spelled := by
  have hstart : (unopened false).toKeyRing.Certifies spelled (.start aliceStartup) := by
    rintro address bundle (⟨around, hto, _⟩ | ⟨around, heq, _⟩)
    · cases hto
    · cases heq
  have hopen : (opened false).toKeyRing.Certifies spelled (.startConversation (relayed bobBundle) bobAddress) := by
    rintro address bundle (⟨around, hto, hmeets⟩ | ⟨around, heq, _⟩)
    · obtain ⟨rfl, rfl⟩ := Prod.mk.inj (Option.some.inj hto)
      obtain rfl := Except.ok.inj hmeets.fetched
      exact bobBundle_address
    · cases heq
  have run : Relation.ReflTransGen (Step spelled (textCodec hello) (KeyRing.Certifies spelled)) (unopened false) _ :=
    (Relation.ReflTransGen.single (.perform _ _ hstart)).tail (.perform _ _ hopen)
  exact (self_certifying (unopened_blank false) run).1

/-- The relay answers a first contact with Carol by Bob's bundle. -/
theorem ensureSession_substituted : ¬ ∀ (start m : Messenger Bytes), start.Blank →
    Relation.ReflTransGen (Step spelled (textCodec hello) (fun _ _ => True)) start m →
      m.toKeyRing.Certified spelled ∧ ∀ around address, m.Ensures spelled around address := by
  intro claim
  have run : Relation.ReflTransGen (Step spelled (textCodec hello) (fun _ _ => True)) (unopened false) (opened false) :=
    .single (.perform (unopened false) (.start aliceStartup) trivial)
  obtain ⟨_, hensures⟩ := claim (unopened false) (opened false) (unopened_blank false) run
  have hkey : (ensureSession spelled (relayed bobBundle) carolAddress (opened false)).2.toOption.map
      (fun session => session.peerIdentity.signingPublicKey) = some bobBundle.identity.signingPublicKey := by
    decide +kernel
  cases hrun : ensureSession spelled (relayed bobBundle) carolAddress (opened false) with
  | mk m' r =>
    rw [hrun] at hkey
    cases r with
    | error e => cases hkey
    | ok session =>
      have hsame : session.peerIdentity.signingPublicKey = bobBundle.identity.signingPublicKey := Option.some.inj hkey
      have haddress := ((hensures (relayed bobBundle) carolAddress).returned m' session hrun).2
      rw [hsame, bobBundle_address] at haddress
      exact absurd (Except.ok.inj haddress) (by decide)

end Messenger

end Veil
