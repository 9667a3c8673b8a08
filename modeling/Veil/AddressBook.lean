import Mathlib
import Veil.Library.Runs

namespace Veil

/-- The keys on file under one address: the live session's, the contact's with its mark, and the one safety
numbers are computed from. -/
@[ext] structure Entry where
  session : Option String := none
  contact : Option String := none
  changed : Bool := false
  record : Option String := none

namespace Entry

/-- What can happen to the keys under an address. -/
inductive Change
  | flagged (key : String)
  | opened (key : String)
  | greeted (key : String)
  | answered (key : String)
  | scanned (key : String)
  | verified
  | replaced (key : String)
  | dropped

/-- The key a change puts on file. -/
def Change.introduces : Change → Option String
  | .opened key | .greeted key | .answered key | .scanned key | .replaced key => some key
  | .flagged _ | .verified | .dropped => none

/-- A sender is remembered under the key it has presented, unless one is on file already. -/
def heard (key : String) (entry : Entry) : Entry where
  session := entry.session
  contact := some (entry.contact.getD key)
  changed := entry.changed || entry.contact.any (fun known => known ≠ key)
  record := some (entry.record.getD key)

def after : Change → Entry → Entry
  | .flagged _, entry => { entry with changed := true }
  | .opened key, entry =>
    { entry with session := some key, contact := some (entry.contact.getD key), record := some key }
  | .greeted key, entry => { entry with session := some key }.heard key
  | .answered key, entry => entry.heard key
  | .scanned key, entry => { entry with contact := some key, changed := false, record := some key }
  | .verified, entry => { entry with changed := false }
  | .replaced key, _ => { contact := some key }
  | .dropped, entry => { entry with session := none, record := none }

/-- Every key on file meets `p`. -/
structure All (p : String → Prop) (entry : Entry) : Prop where
  session : ∀ key, entry.session = some key → p key
  contact : ∀ key, entry.contact = some key → p key
  record : ∀ key, entry.record = some key → p key

theorem All.empty (p : String → Prop) : All p {} :=
  ⟨fun _ h => (by cases h), fun _ h => (by cases h), fun _ h => (by cases h)⟩

theorem getD_meets {p : String → Prop} {known : Option String} {key key' : String} (h : ∀ k, known = some k → p k)
    (hkey : p key) (heq : some (known.getD key) = some key') : p key' := by
  cases known with
  | none => exact Option.some.inj heq ▸ hkey
  | some k => exact h key' heq

theorem All.heard {p : String → Prop} {entry : Entry} {key : String} (h : All p entry) (hkey : p key) :
    All p (entry.heard key) :=
  ⟨h.session, fun _ heq => getD_meets h.contact hkey heq, fun _ heq => getD_meets h.record hkey heq⟩

/-- Only the key a change introduces has to be looked at. -/
theorem All.after {p : String → Prop} {entry : Entry} (h : All p entry) (change : Change)
    (hkey : ∀ key, change.introduces = some key → p key) : All p (entry.after change) := by
  cases change with
  | flagged key => exact ⟨h.session, h.contact, h.record⟩
  | opened key =>
    have hp := hkey key rfl
    exact ⟨fun _ heq => Option.some.inj heq ▸ hp, fun _ heq => getD_meets h.contact hp heq,
      fun _ heq => Option.some.inj heq ▸ hp⟩
  | greeted key =>
    have hp := hkey key rfl
    exact All.heard ⟨fun _ heq => Option.some.inj heq ▸ hp, h.contact, h.record⟩ hp
  | answered key => exact h.heard (hkey key rfl)
  | scanned key =>
    have hp := hkey key rfl
    exact ⟨h.session, fun _ heq => Option.some.inj heq ▸ hp, fun _ heq => Option.some.inj heq ▸ hp⟩
  | verified => exact ⟨h.session, h.contact, h.record⟩
  | replaced key =>
    have hp := hkey key rfl
    exact ⟨fun _ heq => (by cases heq), fun _ heq => Option.some.inj heq ▸ hp, fun _ heq => (by cases heq)⟩
  | dropped => exact ⟨fun _ heq => (by cases heq), h.contact, fun _ heq => (by cases heq)⟩

end Entry

/-- Which keys a device uses, trusts and shows. `stored` is the pairing a restart reads back. -/
@[ext] structure AddressBook where
  entry : String → Entry := fun _ => {}
  pairing : Option (String × String) := none
  stored : Option (String × String) := none
  locked : Bool

inductive Label
  | quiet
  | changed (address : String) (change : Entry.Change)
  | paired (address key : String)
  | refiled
  | unpaired
  | restarted

/-- The key a label puts on file, and where. -/
def Label.introduces : Label → Option (String × String)
  | .changed address change => change.introduces.map (fun key => (address, key))
  | .paired address key => some (address, key)
  | _ => none

namespace AddressBook

def edit (book : AddressBook) (address : String) (entry : Entry) : AddressBook :=
  { book with entry := Function.update book.entry address entry }

def after (book : AddressBook) : Label → AddressBook
  | .quiet => book
  | .changed address change => book.edit address ((book.entry address).after change)
  | .paired address key =>
    { book.edit address ((book.entry address).after (.scanned key)) with
      pairing := some (address, key), stored := some (address, key) }
  | .refiled => { book with stored := book.pairing }
  | .unpaired =>
    { (match book.pairing with
        | none => book
        | some (address, _) => book.edit address {}) with
      pairing := none, stored := none }
  | .restarted =>
    { book with entry := fun address => { book.entry address with session := none }, pairing := book.stored }

/-- What stands in the way of a label, whatever the relay and the senders do. `named address key` says that the
address is the one the key hashes to. -/
def Enabled (named : String → String → Prop) (book : AddressBook) : Label → Prop
  | .changed address (.flagged key) =>
    (book.entry address).session = none ∧ ∃ known, (book.entry address).contact = some known ∧ known ≠ key
  | .changed address (.opened key) =>
    (book.entry address).session = none ∧ (∀ known, (book.entry address).contact = some known → known = key) ∧
      (book.locked → ∃ pinned, book.pairing = some (address, pinned))
  | .changed address (.greeted key) => named address key ∧ (book.locked → book.pairing = some (address, key))
  | .changed address (.answered key) =>
    (∃ live, (book.entry address).session = some live) ∧ named address key ∧
      (book.locked → book.pairing = some (address, key))
  | .changed address (.scanned key) => named address key
  | .paired address key => named address key ∧ book.pairing = none
  | _ => True

theorem after_locked (book : AddressBook) (label : Label) : (book.after label).locked = book.locked := by
  cases label with
  | unpaired => cases hpairing : book.pairing <;> simp [after, hpairing, edit]
  | _ => rfl

/-- Only the key a label introduces has to be looked at. -/
theorem meets_after {p : String → String → Prop} {book : AddressBook} (h : ∀ a, (book.entry a).All (p a)) (label : Label)
    (hkey : ∀ a key, label.introduces = some (a, key) → p a key) (a : String) :
    ((book.after label).entry a).All (p a) := by
  have hedit : ∀ address change, (∀ key, Entry.Change.introduces change = some key → p address key) →
      ((book.edit address ((book.entry address).after change)).entry a).All (p a) := by
    intro address change hchange
    by_cases ha : a = address
    · subst ha
      simpa [edit] using (h a).after change hchange
    · simpa [edit, ha] using h a
  cases label with
  | quiet => exact h a
  | changed address change => exact hedit address change fun key hin => hkey address key (by simp [Label.introduces, hin])
  | paired address key =>
    refine hedit address (.scanned key) fun key' hin => hkey address key' ?_
    obtain rfl := Option.some.inj hin
    rfl
  | refiled => exact h a
  | unpaired =>
    cases hpairing : book.pairing with
    | none => simpa [after, hpairing] using h a
    | some peer =>
      obtain ⟨address, pinned⟩ := peer
      by_cases ha : a = address
      · subst ha
        simpa [after, hpairing, edit] using Entry.All.empty (p a)
      · simpa [after, hpairing, edit, ha] using h a
  | restarted => exact ⟨fun _ heq => (by cases heq), (h a).contact, (h a).record⟩

end AddressBook

end Veil
