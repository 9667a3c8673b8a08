import Veil.AddressBook
import Veil.Messenger
import Veil.Routing

namespace Veil

def Session.key {K : Type} (session : Session K) : String := toBase64Url session.peerIdentity.signingPublicKey

def PairingState.peer (pairing : PairingState) : String × String := (pairing.peerAddress, pairing.peerIdentityKey)

/-- The address is the one the stored key hashes to. -/
def Named {K : Type} (crypto : Cryptography K) (address key : String) : Prop :=
  ∃ signingPublicKey, key = toBase64Url signingPublicKey ∧ addressOf crypto signingPublicKey = .ok address

namespace KeyRing

variable {K : Type}

def entry (ring : KeyRing K) (address : String) : Entry where
  session := (ring.sessions.get? address).map Session.key
  contact := (ring.contacts.get? address).map Contact.identityKey
  changed := (ring.contacts.get? address).any (fun contact => contact.verification = .changed)
  record := (ring.sessionMeta.get? address).map WirePublicIdentity.signingPublicKey

/-- The keys a device goes by. -/
def book (ring : KeyRing K) : AddressBook where
  entry := ring.entry
  pairing := ring.pairing.map PairingState.peer
  stored := ring.pairingStore.map PairingState.peer
  locked := ring.paired

/-- A change under one address shows in that entry only. -/
theorem book_changed {ring ring' : KeyRing K} {address : String} {change : Entry.Change}
    (off : ∀ a ≠ address, ring'.entry a = ring.entry a)
    (here : ring'.entry address = (ring.entry address).after change) (pairing : ring'.pairing = ring.pairing)
    (stored : ring'.pairingStore = ring.pairingStore) (paired : ring'.paired = ring.paired) :
    ring'.book = ring.book.after (.changed address change) := by
  refine AddressBook.ext (funext fun a => ?_) (by simp [book, AddressBook.after, AddressBook.edit, pairing])
    (by simp [book, AddressBook.after, AddressBook.edit, stored])
    (by simp [book, AddressBook.after, AddressBook.edit, paired])
  by_cases ha : a = address
  · subst ha
    simp [book, AddressBook.after, AddressBook.edit, here]
  · simp [book, AddressBook.after, AddressBook.edit, ha, off a ha]

/-- The dispatch went out under the session that is live now, to a peer the lock lets through. -/
structure Sealed (crypto : Cryptography K) (ring : KeyRing K) (dispatch : Dispatch K) : Prop where
  live : ∃ address, (ring.entry address).session = some dispatch.session.key ∧
    (ring.paired → ∃ pairing, ring.pairing = some pairing ∧ pairing.peerAddress = address)
  pairing : dispatch.pairing = ring.pairing
  encrypted : ∃ self plaintext ephemeral,
    (encryptMessage crypto self dispatch.session plaintext ephemeral).2 = .ok dispatch.envelope

end KeyRing

namespace Messenger

open Command

section

variable {K α β : Type}

/-- The state after an operation that began at `ring`, with `sent` sealed by then, and did what the label says. -/
structure Follows (crypto : Cryptography K) (ring : KeyRing K) (sent : List (Dispatch K)) (label : Label)
    (m : Messenger K) : Prop where
  book : m.toKeyRing.book = ring.book.after label
  sent : ∀ dispatch ∈ m.dispatched, dispatch ∈ sent ∨ m.toKeyRing.Sealed crypto dispatch

/-- The operation touches history and events only. -/
def Quiet (c : Operation K α) : Prop :=
  ∀ ring sent, Keeps (fun m : Messenger K => m.toKeyRing = ring ∧ m.dispatched = sent) c

namespace Quiet

theorem pure (a : α) : Quiet (Pure.pure a : Operation K α) := fun _ _ => Keeps.pure a

theorem get : Quiet (Command.get : Operation K (Messenger K)) := fun _ _ => Keeps.get

theorem fail (e : Failure) : Quiet (Command.fail e : Operation K α) := fun _ _ => Keeps.fail e

theorem lift (x : Except Failure α) : Quiet (Command.lift x : Operation K α) := fun _ _ => Keeps.lift x

theorem modify {f : Messenger K → Messenger K} (ring : ∀ m, (f m).toKeyRing = m.toKeyRing)
    (sent : ∀ m, (f m).dispatched = m.dispatched) : Quiet (Command.modify f) :=
  fun _ _ => Keeps.modify fun m hm => ⟨(ring m).trans hm.1, (sent m).trans hm.2⟩

theorem bind {c : Operation K α} {f : α → Operation K β} (h : Quiet c) (hf : ∀ a, Quiet (f a)) :
    Quiet (c >>= f) :=
  fun ring sent => (h ring sent).bind fun a => hf a ring sent

theorem emit (event : MessengerEvent) : Quiet (emit event : Operation K Unit) := modify (fun _ => rfl) (fun _ => rfl)

theorem putMessage (id : String) (message : Message) : Quiet (putMessage id message : Operation K Unit) :=
  modify (fun _ => rfl) (fun _ => rfl)

theorem keepMessages (keep : Message → Bool) : Quiet (keepMessages keep : Operation K Unit) :=
  modify (fun _ => rfl) (fun _ => rfl)

theorem touchConversation (around : Surroundings K) (address preview : String) (unreadDelta : Int) :
    Quiet (touchConversation around address preview unreadDelta) :=
  get.bind fun _ => (modify (by intro; rfl) (by intro; rfl)).bind fun _ => emit _

theorem reportFailure (e : Failure) : Quiet (reportFailure e : Operation K Unit) := by
  cases e <;> first | exact emit _ | exact pure ()

theorem onReceipt (receipt : ReceiptKind) (ids : List String) : Quiet (onReceipt receipt ids : Operation K Unit) := by
  induction ids with
  | nil => exact pure ()
  | cons id ids ih =>
    refine get.bind fun m => ?_
    cases m.messages.get? id with
    | none => exact ih
    | some message =>
      dsimp only
      split
      next => exact (putMessage _ _).bind fun _ => (emit _).bind fun _ => ih
      next => exact ih

theorem setDisappearTimer (address : String) (seconds : Int) :
    Quiet (setDisappearTimer address seconds : Operation K Unit) := by
  refine get.bind fun m => ?_
  cases m.conversations.get? address with
  | none => exact pure ()
  | some conversation =>
    dsimp only
    exact (modify (by intro; rfl) (by intro; rfl)).bind fun _ => emit _

theorem markRead (address : String) : Quiet (markRead address : Operation K Unit) := by
  refine get.bind fun m => ?_
  cases m.conversations.get? address with
  | none => exact pure ()
  | some conversation =>
    dsimp only
    exact (modify (by intro; rfl) (by intro; rfl)).bind fun _ => emit _

theorem history (around : Surroundings K) (address : String) : Quiet (history around address) :=
  (keepMessages _).bind fun _ => get.bind fun _ => pure _

theorem purgeExpired (around : Surroundings K) : Quiet (purgeExpired around) := keepMessages _

theorem safetyNumberWith (crypto : Cryptography K) (address : String) : Quiet (safetyNumberWith crypto address) := by
  refine get.bind fun m => ?_
  cases m.sessionMeta.get? address with
  | none => exact pure none
  | some stored => exact (lift _).bind fun _ => (lift _).bind fun _ => pure _

end Quiet

variable {crypto : Cryptography K} {ring : KeyRing K} {sent : List (Dispatch K)} {label : Label} {m : Messenger K}

theorem Follows.quiet {c : Operation K α} (h : Follows crypto ring sent label m) (hc : Quiet c) :
    Follows crypto ring sent label (c m).1 := by
  obtain ⟨hring, hsent⟩ := hc m.toKeyRing m.dispatched m ⟨rfl, rfl⟩
  exact ⟨by rw [hring]; exact h.book, by rw [hring, hsent]; exact h.sent⟩

theorem Follows.bind_quiet {c : Operation K α} {f : α → Operation K β} (h : Follows crypto ring sent label (c m).1)
    (hf : ∀ a, Quiet (f a)) : Follows crypto ring sent label ((c >>= f) m).1 := by
  cases hrun : c m with
  | mk m' r =>
    rw [hrun] at h
    cases r with
    | error e => rwa [bind_error f hrun]
    | ok a =>
      rw [bind_ok f hrun]
      exact h.quiet (hf a)

theorem Follows.rescue_quiet {c : Operation K α} {handler : Failure → Operation K α}
    (h : Follows crypto ring sent label (c m).1) (hh : ∀ e, Quiet (handler e)) :
    Follows crypto ring sent label (c.rescue handler m).1 := by
  unfold rescue
  cases hrun : c m with
  | mk m' r =>
    rw [hrun] at h
    cases r with
    | error e => exact h.quiet (hh e)
    | ok a => exact h

/-- A quiet operation that does not throw can come first. -/
theorem Follows.after_quiet {c : Operation K α} {f : α → Operation K β} {a : α} (hc : Quiet c) (hok : (c m).2 = .ok a)
    (h : ∀ m', m'.toKeyRing = m.toKeyRing → m'.dispatched = m.dispatched →
      Follows crypto ring sent label (f a m').1) : Follows crypto ring sent label ((c >>= f) m).1 := by
  obtain ⟨hring, hsent⟩ := hc m.toKeyRing m.dispatched m ⟨rfl, rfl⟩
  cases hrun : c m with
  | mk m' r =>
    rw [hrun] at hok hring hsent
    obtain rfl : r = .ok a := hok
    rw [bind_ok f hrun]
    exact h m' hring hsent

/-- An operation that leaves the keys alone follows the quiet label. -/
theorem Follows.still (book : m.toKeyRing.book = ring.book) (hsent : m.dispatched = sent) :
    Follows crypto ring sent .quiet m :=
  ⟨book, fun _ hmem => Or.inl (hsent ▸ hmem)⟩

theorem Quiet.follows {c : Operation K α} (hc : Quiet c) :
    Follows crypto m.toKeyRing m.dispatched .quiet (c m).1 :=
  (Follows.still rfl rfl).quiet hc

end

end Messenger

end Veil
