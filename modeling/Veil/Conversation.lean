import Veil.RatchetSteps
import Veil.Library.Outcome

namespace Veil

/-- The turns of one conversation. Turn 0 is the responder's signed prekey, turn 1 the initiator's
first ratchet pair, and each later turn the pair generated in reply to the one before it. -/
structure Conversation (K : Type) where
  pair : Nat → KeyPair K
  rootKey : Nat → K
  chainKey : Nat → K
  top : Nat
  associatedData : Bytes

/-- How far the chain of each turn has been used: keys sent, keys the receiver has passed, and the
messages it has read. -/
structure Progress where
  sent : Nat → Nat
  passed : Nat → Nat
  taken : Nat → Nat → Prop

namespace Progress

def previous (p : Progress) : Nat → Nat
  | 0 => 0
  | 1 => 0
  | e + 2 => p.sent e

def send (p : Progress) (e : Nat) : Progress :=
  { p with sent := Function.update p.sent e (p.sent e + 1) }

def pass (p : Progress) (e n : Nat) : Progress := { p with passed := Function.update p.passed e n }

def take (p : Progress) (e n : Nat) : Progress :=
  { p with taken := fun e' n' => (e' = e ∧ n' = n) ∨ p.taken e' n' }

end Progress

section

variable {K : Type} (prim : RatchetPrimitives K) (generated : KeyPair K → Prop)

/-- What the ratchet relies on in the cryptographic library: agreement between honest pairs, 32-byte
public keys, and an AEAD that opens what it sealed. -/
structure RatchetPrimitives.Lawful : Prop where
  dh_agree : ∀ a b, generated a → generated b →
    ∃ s, prim.dh a.secretKey b.publicKey = .ok s ∧ prim.dh b.secretKey a.publicKey = .ok s
  publicKey_length : ∀ a, generated a → a.publicKey.length = 32
  aead : ∀ key nonce plaintext ad ciphertext, prim.aeadEncrypt key nonce plaintext ad = .ok ciphertext →
    prim.aeadDecrypt key nonce ciphertext ad = .ok plaintext

namespace Conversation

variable {prim generated}

/-- Every turn's root and chain key come from the turn before it. -/
structure Linked (prim : RatchetPrimitives K) (generated : KeyPair K → Prop) (c : Conversation K) : Prop where
  link : ∀ e < c.top, ∃ s, prim.dh (c.pair e).secretKey (c.pair (e + 1)).publicKey = .ok s ∧
    prim.advanceRootChain (c.rootKey e) s = ⟨c.rootKey (e + 1), c.chainKey (e + 1)⟩
  honest : ∀ e ≤ c.top, generated (c.pair e)
  distinct : ∀ i ≤ c.top, ∀ j ≤ c.top, (c.pair i).publicKey = (c.pair j).publicKey → i = j

def header (c : Conversation K) (p : Progress) (e n : Nat) : RatchetHeader :=
  { ratchetPublicKey := (c.pair e).publicKey, previousChainLength := p.previous e, messageNumber := n }

variable (prim) in
def messageKey (c : Conversation K) (e n : Nat) : K := messageKeyAfter prim (c.chainKey e) n

variable (prim) in
/-- Message `n` of turn `e`, as its sender seals it. -/
def compose (c : Conversation K) (p : Progress) (e n : Nat) (plaintext : Bytes) : Except Failure RatchetMessage := do
  let keys := prim.deriveMessageKeys (c.messageKey prim e n)
  let ad ← aeadAssociatedData c.associatedData (c.header p e n)
  let ciphertext ← prim.aeadEncrypt keys.key keys.nonce plaintext ad
  return { header := c.header p e n, ciphertext }

def cacheId (c : Conversation K) (e n : Nat) : String := skippedKeyId (c.pair e).publicKey n

variable (prim) in
/-- The ratchet state of the party whose latest turn is `l`. -/
def endpoint (c : Conversation K) (p : Progress) (skipped : OrderedMap String (SkippedKey K))
    (sequence : Nat) : Nat → RatchetState K
  | 0 => { rootKey := c.rootKey 0, sending := c.pair 0, skipped, skippedSequence := sequence,
           associatedData := c.associatedData }
  | 1 => { rootKey := c.rootKey 1, sending := c.pair 1, receiving := some (c.pair 0).publicKey,
           sendingChainKey := some (chainKeyAfter prim (c.chainKey 1) (p.sent 1)), sentCount := p.sent 1,
           skipped, skippedSequence := sequence, associatedData := c.associatedData }
  | l + 2 => { rootKey := c.rootKey (l + 2), sending := c.pair (l + 2),
               receiving := some (c.pair (l + 1)).publicKey,
               sendingChainKey := some (chainKeyAfter prim (c.chainKey (l + 2)) (p.sent (l + 2))),
               receivingChainKey := some (chainKeyAfter prim (c.chainKey (l + 1)) (p.passed (l + 1))),
               sentCount := p.sent (l + 2), receivedCount := p.passed (l + 1),
               previousSentCount := p.sent l, skipped, skippedSequence := sequence,
               associatedData := c.associatedData }

/-- The next turn: the party at `top - 1` answers `top` with a fresh pair. -/
def extend (c : Conversation K) (fresh : KeyPair K) (step : RootStep K) : Conversation K :=
  { c with
    pair := Function.update c.pair (c.top + 1) fresh
    rootKey := Function.update c.rootKey (c.top + 1) step.rootKey
    chainKey := Function.update c.chainKey (c.top + 1) step.chainKey
    top := c.top + 1 }

theorem Linked.cacheId_inj {c : Conversation K} (linked : c.Linked prim generated) {e e' n n' : Nat}
    (he : e ≤ c.top) (he' : e' ≤ c.top) (h : c.cacheId e n = c.cacheId e' n') : e = e' ∧ n = n' := by
  obtain ⟨hk, hn⟩ := skippedKeyId_inj h
  exact ⟨linked.distinct e he e' he' hk, hn⟩

theorem compose_eq_ok_iff {c : Conversation K} {p : Progress} {e n : Nat} {plaintext : Bytes}
    {message : RatchetMessage} :
    c.compose prim p e n plaintext = .ok message ↔ message.header = c.header p e n ∧
      ∃ ad, aeadAssociatedData c.associatedData (c.header p e n) = .ok ad ∧
        prim.aeadEncrypt (prim.deriveMessageKeys (c.messageKey prim e n)).key
          (prim.deriveMessageKeys (c.messageKey prim e n)).nonce plaintext ad = .ok message.ciphertext := by
  simp only [compose, Outcome.bind_eq_ok_iff, Outcome.pure_eq_ok_iff]
  constructor
  · rintro ⟨ad, had, ciphertext, hc, rfl⟩
    exact ⟨rfl, ad, had, hc⟩
  · rintro ⟨hh, ad, had, hc⟩
    exact ⟨ad, had, message.ciphertext, hc, by cases message; simp_all⟩

/-- Under its own message key a composed message opens to what was put in. -/
theorem openWith_compose (lawful : prim.Lawful generated) {c : Conversation K} {p : Progress} {e n : Nat}
    {plaintext : Bytes} {message : RatchetMessage} (h : c.compose prim p e n plaintext = .ok message) :
    openWith prim (c.messageKey prim e n) c.associatedData message = .ok plaintext := by
  obtain ⟨hh, ad, had, hc⟩ := compose_eq_ok_iff.mp h
  simpa [openWith, hh, had] using lawful.aead _ _ _ _ _ hc

theorem endpoint_encrypt (c : Conversation K) (p : Progress)
    (skipped : OrderedMap String (SkippedKey K)) (sequence l : Nat) (plaintext : Bytes) :
    ratchetEncrypt prim (c.endpoint prim p skipped sequence (l + 1)) plaintext =
      (c.endpoint prim (p.send (l + 1)) skipped sequence (l + 1),
        c.compose prim p (l + 1) (p.sent (l + 1)) plaintext) := by
  cases l with
  | zero =>
    simp only [ratchetEncrypt, endpoint, Progress.send, Function.update_self, chainKeyAfter_succ]
    rfl
  | succ l =>
    have hne : l ≠ l + 1 + 1 := by omega
    simp only [ratchetEncrypt, endpoint, Progress.send, Function.update_self, chainKeyAfter_succ,
      Function.update_of_ne hne]
    rfl

theorem endpoint_encrypt_zero (c : Conversation K) (p : Progress)
    (skipped : OrderedMap String (SkippedKey K)) (sequence : Nat) (plaintext : Bytes) :
    ratchetEncrypt prim (c.endpoint prim p skipped sequence 0) plaintext =
      (c.endpoint prim p skipped sequence 0, .error (.sessionState
        "no sending chain: the responder must receive one message before sending")) := rfl

end Conversation

end

end Veil
