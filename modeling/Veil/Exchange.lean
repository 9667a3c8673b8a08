import Veil.Rejection
import Veil.Library.Runs

namespace Veil

inductive Role
  | initiator
  | responder
  deriving DecidableEq, Repr

def Role.other : Role → Role
  | .initiator => .responder
  | .responder => .initiator

@[simp] theorem Role.other_other (r : Role) : r.other.other = r := by cases r <;> rfl

theorem Role.other_ne (r : Role) : r.other ≠ r := by cases r <;> decide

theorem Role.eq_or_eq_other (r s : Role) : s = r ∨ s = r.other := by cases r <;> cases s <;> decide

/-- A sealed message on its way, with the plaintext its sender gave. -/
structure Letter where
  recipient : Role
  message : RatchetMessage
  plaintext : Bytes
  deriving DecidableEq

/-- Two ratchet states and the network between them; `used` lists the ratchet keys generated so far. -/
structure Exchange (K : Type) where
  state : Role → RatchetState K
  inFlight : List Letter
  used : List Bytes

section

variable {K : Type} (prim : RatchetPrimitives K) (generated : KeyPair K → Prop)

namespace Exchange

def setState (w : Exchange K) (r : Role) (state : RatchetState K) : Exchange K :=
  { w with state := Function.update w.state r state }

/-- `r` calls `ratchetEncrypt`; what it returns is put on the network. -/
def encrypt (w : Exchange K) (r : Role) (plaintext : Bytes) : Exchange K :=
  let (state, result) := ratchetEncrypt prim (w.state r) plaintext
  match result with
  | .ok message => { w.setState r state with inFlight := w.inFlight ++ [⟨r.other, message, plaintext⟩] }
  | .error _ => w.setState r state

/-- `r` calls `ratchetDecrypt` on a message. -/
def decrypt (w : Exchange K) (r : Role) (fresh : KeyPair K) (message : RatchetMessage) : Exchange K :=
  { w.setState r (ratchetDecrypt prim fresh (w.state r) message).1 with
    used := if StartsTurn prim (w.state r) message.header then fresh.publicKey :: w.used else w.used }

/-- No catch-up over the limit and no more cached keys than the cache holds. -/
def WithinSkipLimits (state : RatchetState K) (header : RatchetHeader) : Prop :=
  CatchUpBounded state header ∧ CacheHasRoom state header

instance (state : RatchetState K) (header : RatchetHeader) : Decidable (WithinSkipLimits state header) :=
  inferInstanceAs (Decidable (_ ∧ _))

/-- A pair that `generateDhKeyPair` may return now: honest, and unlike every earlier one. -/
def Generates (w : Exchange K) (fresh : KeyPair K) : Prop := generated fresh ∧ fresh.publicKey ∉ w.used

/-- Either party encrypts, or a message in flight is delivered or lost, in any order. -/
inductive Step : Exchange K → Exchange K → Prop
  | encrypt (w : Exchange K) (r : Role) (plaintext : Bytes) : Step w (w.encrypt prim r plaintext)
  | deliver (w : Exchange K) (before : List Letter) (letter : Letter) (after : List Letter) (fresh : KeyPair K)
      (inFlight : w.inFlight = before ++ letter :: after)
      (within : WithinSkipLimits (w.state letter.recipient) letter.message.header)
      (draws : StartsTurn prim (w.state letter.recipient) letter.message.header → w.Generates generated fresh) :
      Step w { w.decrypt prim letter.recipient fresh letter.message with inFlight := before ++ after }
  | lose (w : Exchange K) (before : List Letter) (letter : Letter) (after : List Letter)
      (inFlight : w.inFlight = before ++ letter :: after) : Step w { w with inFlight := before ++ after }

/-- `initialiseInitiator` and `initialiseResponder` under one root secret and one associated data. -/
def Start (w : Exchange K) : Prop :=
  ∃ rootSecret associatedData signedPreKey sending state, generated signedPreKey ∧ generated sending ∧
    signedPreKey.publicKey ≠ sending.publicKey ∧
    initialiseInitiator prim sending rootSecret signedPreKey.publicKey associatedData = .ok state ∧
    w.state .initiator = state ∧
    w.state .responder = initialiseResponder rootSecret signedPreKey associatedData ∧
    w.inFlight = [] ∧ w.used = [sending.publicKey, signedPreKey.publicKey]

/-- A letter is message `n` of turn `e` of its sender. -/
def Sealed (c : Conversation K) (p : Progress) (turn : Role → Nat) (letter : Letter) (e n : Nat) : Prop :=
  e ≤ turn letter.recipient.other ∧ e % 2 = turn letter.recipient.other % 2 ∧ n < p.sent e ∧
    c.compose prim p e n letter.plaintext = .ok letter.message

def slot (letter : Letter) : Bytes × Nat :=
  (letter.message.header.ratchetPublicKey, letter.message.header.messageNumber)

/-- The two states are the ends of one conversation, and the network carries only its messages. -/
structure Tracked (w : Exchange K) (c : Conversation K) (p : Progress) (turn : Role → Nat) : Prop where
  synced : ∀ r, Synced prim generated c p (turn r) (turn r.other) (w.state r) (w.state r.other)
  used : ∀ e ≤ c.top, (c.pair e).publicKey ∈ w.used
  genuine : ∀ letter ∈ w.inFlight, ∃ e n, Sealed prim c p turn letter e n

/-- Every message is on the network at most once, and its key is still there. -/
structure Consistent (w : Exchange K) (c : Conversation K) (p : Progress) (turn : Role → Nat) : Prop
    extends Tracked prim generated w c p turn where
  read : ∀ e n, p.taken e n → n < p.sent e
  unread : ∀ letter ∈ w.inFlight, ∀ e n, Sealed prim c p turn letter e n → ¬ p.taken e n
  once : (w.inFlight.map slot).Nodup

end Exchange

end

end Veil
