import Veil.SelfCertifying

namespace Veil

namespace AddressBook

/-- Nobody but the paired peer has a session, and the paired peer's contact has the pinned key. -/
structure Pinned (book : AddressBook) : Prop where
  stored : book.stored = book.pairing
  session : ∀ address key, (book.entry address).session = some key → book.pairing = some (address, key)
  contact : ∀ address key, book.pairing = some (address, key) → (book.entry address).contact = some key

/-- The label puts no other key in place of the pinned one. -/
def KeepsPin (book : AddressBook) : Label → Prop
  | .changed address (.replaced key) | .changed address (.scanned key) =>
    ∀ pinned, book.pairing = some (address, pinned) → key = pinned
  | _ => True

theorem Pinned.edit {book : AddressBook} (h : book.Pinned) {address : String} {entry : Entry}
    (session : ∀ key, entry.session = some key → book.pairing = some (address, key))
    (contact : ∀ key, book.pairing = some (address, key) → entry.contact = some key) :
    (book.edit address entry).Pinned := by
  refine ⟨h.stored, fun a key hkey => ?_, fun a key hkey => ?_⟩
  · by_cases ha : a = address
    · subst ha
      exact session key (by simpa [AddressBook.edit] using hkey)
    · exact h.session a key (by simpa [AddressBook.edit, ha] using hkey)
  · by_cases ha : a = address
    · subst ha
      simpa [AddressBook.edit] using contact key hkey
    · simpa [AddressBook.edit, ha] using h.contact a key hkey

theorem Pinned.changed {named : String → String → Prop} {book : AddressBook} {address : String} {change : Entry.Change}
    (h : book.Pinned) (locked : book.locked = true) (enabled : book.Enabled named (.changed address change))
    (keeps : book.KeepsPin (.changed address change)) : (book.after (.changed address change)).Pinned := by
  -- sessions begin under the paired address only, with the contact's key or with the one the lock has compared
  cases change with
  | flagged key => exact h.edit (h.session address) (h.contact address)
  | opened key =>
    obtain ⟨_, hknown, hlock⟩ := enabled
    obtain ⟨pinned, hpairing⟩ := hlock locked
    have hkey : pinned = key := hknown pinned (h.contact address pinned hpairing)
    refine h.edit ?_ ?_
    · rintro _ ⟨⟩
      rw [hpairing, hkey]
    · intro pinned' hpairing'
      simp [Entry.after, h.contact address pinned' hpairing']
  | greeted key =>
    have hpairing := enabled.2 locked
    refine h.edit ?_ ?_
    · rintro _ ⟨⟩
      exact hpairing
    · intro pinned hpinned
      simp [Entry.after, Entry.heard, h.contact address pinned hpinned]
  | answered key =>
    refine h.edit (fun key' hkey => h.session address key' hkey) ?_
    intro pinned hpinned
    simp [Entry.after, Entry.heard, h.contact address pinned hpinned]
  | scanned key =>
    refine h.edit (fun key' hkey => h.session address key' hkey) ?_
    intro pinned hpinned
    rw [Entry.after, keeps pinned hpinned]
  | verified => exact h.edit (h.session address) (h.contact address)
  | replaced key =>
    refine h.edit (fun _ hkey => by cases hkey) ?_
    intro pinned hpinned
    rw [Entry.after, keeps pinned hpinned]
  | dropped => exact h.edit (fun _ hkey => by cases hkey) (h.contact address)

theorem Pinned.after {named : String → String → Prop} {book : AddressBook} {label : Label} (h : book.Pinned)
    (locked : book.locked = true) (enabled : book.Enabled named label) (keeps : book.KeepsPin label) :
    (book.after label).Pinned := by
  cases label with
  | quiet => exact h
  | changed address change => exact h.changed locked enabled keeps
  | paired address key =>
    have hnone : book.pairing = none := enabled.2
    refine ⟨rfl, fun a key' hkey => ?_, fun a key' hkey => ?_⟩
    · have hlive : (book.entry a).session = some key' := by
        by_cases ha : a = address
        · subst ha
          simpa [AddressBook.after, AddressBook.edit, Entry.after] using hkey
        · simpa [AddressBook.after, AddressBook.edit, ha] using hkey
      cases hnone.symm.trans (h.session a key' hlive)
    · obtain ⟨rfl, rfl⟩ := Prod.mk.inj (Option.some.inj hkey)
      simp [AddressBook.after, AddressBook.edit, Entry.after]
  | refiled => exact ⟨rfl, h.session, h.contact⟩
  | unpaired =>
    refine ⟨rfl, fun a key hkey => ?_, fun _ _ hkey => (by cases hkey)⟩
    -- the one session there was is gone with its entry
    cases hpairing : book.pairing with
    | none =>
      have hlive : (book.entry a).session = some key := by simpa [AddressBook.after, hpairing] using hkey
      cases hpairing.symm.trans (h.session a key hlive)
    | some peer =>
      obtain ⟨address, pinned⟩ := peer
      by_cases ha : a = address
      · simp [AddressBook.after, hpairing, AddressBook.edit, ha] at hkey
      · have hlive : (book.entry a).session = some key := by
          simpa [AddressBook.after, hpairing, AddressBook.edit, ha] using hkey
        have hpaired := hpairing.symm.trans (h.session a key hlive)
        exact absurd (Prod.mk.inj (Option.some.inj hpaired)).1.symm ha
  | restarted =>
    refine ⟨rfl, fun _ _ hkey => (by cases hkey), fun a key hkey => ?_⟩
    exact h.contact a key (h.stored ▸ hkey)

end AddressBook

namespace KeyRing

section

variable {K : Type} (crypto : Cryptography K)

/-- The request does not put another key under the paired address: not the relay's in place of the contact's, nor that
of a verification code whose key has the same address. -/
def KeepsPin (ring : KeyRing K) (request : Request K) : Prop :=
  ∀ pairing, ring.pairing = some pairing →
    (∀ around bundle, request = .acceptIdentityChange around pairing.peerAddress →
      around.fetchBundle pairing.peerAddress = .ok bundle →
        toBase64Url bundle.identity.signingPublicKey = pairing.peerIdentityKey) ∧
    ∀ around code bytes identity, request = .addContactFromCode around code → fromBase64Url code = .ok bytes →
      parseVerificationQrPayload crypto bytes = .ok identity →
        addressOf crypto identity.signingPublicKey = .ok pairing.peerAddress →
          toBase64Url identity.signingPublicKey = pairing.peerIdentityKey

end

section

variable {K : Type} {crypto : Cryptography K} {ring : KeyRing K} {request : Request K}

theorem KeepsPin.label (h : ring.KeepsPin crypto request) (started : Startup K → Bool) :
    ring.book.KeepsPin (ring.label crypto started request) := by
  have hsource := @label_sourced _ crypto ring started request
  have hpeer : ∀ {address pinned}, ring.book.pairing = some (address, pinned) →
      ∃ pairing, ring.pairing = some pairing ∧ pairing.peerAddress = address ∧ pairing.peerIdentityKey = pinned := by
    intro address pinned hpairing
    obtain ⟨pairing, hsome, heq⟩ := Option.map_eq_some_iff.mp hpairing
    obtain ⟨rfl, rfl⟩ := Prod.mk.inj heq
    exact ⟨pairing, hsome, rfl, rfl⟩
  cases hlabel : ring.label crypto started request with
  | changed address change =>
    rw [hlabel] at hsource
    cases change with
    | scanned key =>
      intro pinned hpairing
      obtain ⟨pairing, hsome, rfl, rfl⟩ := hpeer hpairing
      obtain ⟨code, identity, hscan, rfl, hadd | ⟨hnone, _⟩⟩ := hsource
      · obtain ⟨around, rfl⟩ := hadd
        obtain ⟨bytes, hbytes, hidentity, haddress, _⟩ := scan_eq_some hscan
        exact (h pairing hsome).2 around code bytes identity rfl hbytes hidentity haddress
      · cases hnone.symm.trans hsome
    | replaced key =>
      intro pinned hpairing
      obtain ⟨pairing, hsome, rfl, rfl⟩ := hpeer hpairing
      obtain ⟨around, bundle, rfl, _, hfetch, rfl⟩ := hsource
      exact (h pairing hsome).1 around bundle rfl hfetch
    | _ => trivial
  | _ => trivial

end

end KeyRing

namespace Messenger

section

variable {K : Type} {crypto : Cryptography K} {codec : PayloadCodec} {m start : Messenger K}

/-- The envelope was sealed by a session with the pinned key of the pairing in force. -/
structure SealedToPin (crypto : Cryptography K) (dispatch : Dispatch K) : Prop where
  pinned : ∃ pairing, dispatch.pairing = some pairing ∧
    toBase64Url dispatch.session.peerIdentity.signingPublicKey = pairing.peerIdentityKey
  encrypted : ∃ self plaintext ephemeral,
    (encryptMessage crypto self dispatch.session plaintext ephemeral).2 = .ok dispatch.envelope

/-- The paired device after a run. -/
structure Locked (crypto : Cryptography K) (m : Messenger K) : Prop where
  locked : m.paired = true
  pinned : m.toKeyRing.book.Pinned
  dispatched : ∀ dispatch ∈ m.dispatched, SealedToPin crypto dispatch

theorem Locked.perform (h : m.Locked crypto) {request : Request K} (keeps : m.toKeyRing.KeepsPin crypto request) :
    (m.perform crypto codec request).Locked crypto := by
  have hfollows := @perform_follows _ crypto codec m request
  have hpinned : (m.perform crypto codec request).toKeyRing.book.Pinned := by
    rw [hfollows.book]
    exact h.pinned.after h.locked (KeyRing.label_enabled _ request) (keeps.label _)
  have hlocked : (m.perform crypto codec request).paired = true := by
    have hbook := congrArg AddressBook.locked hfollows.book
    rw [AddressBook.after_locked] at hbook
    exact hbook.trans h.locked
  refine ⟨hlocked, hpinned, fun dispatch hmem => ?_⟩
  rcases hfollows.sent dispatch hmem with hold | hsealed
  · exact h.dispatched dispatch hold
  · obtain ⟨address, hlive, hlock⟩ := hsealed.live
    obtain ⟨pairing, hpairing, hpeer⟩ := hlock hlocked
    have hpaired := hpinned.session address _ hlive
    have hkey : some pairing.peer = some (address, dispatch.session.key) := by
      rw [← hpaired]
      simp [KeyRing.book, hpairing]
    refine ⟨⟨pairing, hsealed.pairing.trans hpairing, ?_⟩, hsealed.encrypted⟩
    exact (Prod.mk.inj (Option.some.inj hkey)).2.symm

end

def mallory : PrivateIdentity Bytes := spelledIdentity 41 42

def malloryBundle : PreKeyBundle := ((spelledStore mallory 43 44 [] []).issueBundle (publicIdentityOf mallory)).1

def bobCode : String := ((verificationQrPayload (publicIdentityOf bob)).toOption.map toBase64Url).getD ""

def pairedWithBob : Messenger Bytes :=
  (opened true).perform spelled (textCodec hello) (.pairWithCode (relayed bobBundle) bobCode "Bob")

theorem Quiet.dispatched {K α : Type} {c : Operation K α} (hc : Quiet c) (m : Messenger K) :
    (c m).1.dispatched = m.dispatched := (hc m.toKeyRing m.dispatched m ⟨rfl, rfl⟩).2

end Messenger

end Veil
