import Veil.Library.Derivation
import Veil.RatchetMoves

namespace Veil

open Derivation

section

variable {K : Type} (prim : RatchetPrimitives K)

/-- What the key schedule and the agreement let anyone compute; public keys are free. -/
inductive KeyRule : List K → K → Prop
  | rootKey (rootKey dhOutput : K) : KeyRule [rootKey, dhOutput] (prim.advanceRootChain rootKey dhOutput).rootKey
  | chainKey (rootKey dhOutput : K) : KeyRule [rootKey, dhOutput] (prim.advanceRootChain rootKey dhOutput).chainKey
  | messageKey (chainKey : K) : KeyRule [chainKey] (prim.advanceChain chainKey).messageKey
  | nextChainKey (chainKey : K) : KeyRule [chainKey] (prim.advanceChain chainKey).nextChainKey
  | aeadKey (messageKey : K) : KeyRule [messageKey] (prim.deriveMessageKeys messageKey).key
  | aeadNonce (messageKey : K) : KeyRule [messageKey] (prim.deriveMessageKeys messageKey).nonce
  | dh {secretKey dhOutput : K} {publicKey : Bytes} (h : prim.dh secretKey publicKey = .ok dhOutput) :
      KeyRule [secretKey] dhOutput

/-- Everything secret in a ratchet state. -/
inductive Held (state : RatchetState K) : K → Prop
  | rootKey : Held state state.rootKey
  | sending : Held state state.sending.secretKey
  | sendingChainKey {chainKey : K} (h : state.sendingChainKey = some chainKey) : Held state chainKey
  | receivingChainKey {chainKey : K} (h : state.receivingChainKey = some chainKey) : Held state chainKey
  | skipped {id : String} {entry : SkippedKey K} (h : state.skipped.get? id = some entry) : Held state entry.messageKey

/-- What someone who sees the state and has every generated private key can compute. -/
def Exposed (generated : K → Prop) (state : RatchetState K) : K → Prop :=
  Derives (KeyRule prim) (fun key => Held state key ∨ generated key)

end

section

variable {K : Type} {prim : RatchetPrimitives K} {generated : K → Prop} {fresh : KeyPair K}
  {state next : RatchetState K}

namespace Exposed

theorem held {key : K} (h : Held state key) : Exposed prim generated state key := .known (Or.inl h)

theorem step {premise key : K} (h : Exposed prim generated state premise) (rule : KeyRule prim [premise] key) :
    Exposed prim generated state key :=
  .apply rule (fun _ hp => List.mem_singleton.mp hp ▸ h)

theorem step₂ {premise premise' key : K} (h : Exposed prim generated state premise)
    (h' : Exposed prim generated state premise') (rule : KeyRule prim [premise, premise'] key) :
    Exposed prim generated state key := by
  refine .apply rule (fun p hp => ?_)
  rcases List.mem_cons.mp hp with rfl | hp
  · exact h
  · exact List.mem_singleton.mp hp ▸ h'

/-- What the state after a move holds could be computed before it. -/
theorem of_move (hfresh : generated fresh.secretKey) (move : RatchetMove prim fresh state next) {key : K}
    (h : Held next key) : Exposed prim generated state key := by
  cases move with
  | @skip receiving chainKey hr hc =>
    simp only [skipOne, hc, rememberSkipped] at h
    have hchain : Exposed prim generated state chainKey := held (.receivingChainKey hc)
    cases h with
    | rootKey => exact held .rootKey
    | sending => exact held .sending
    | sendingChainKey h => exact held (.sendingChainKey h)
    | receivingChainKey h => exact Option.some.inj h ▸ hchain.step (.nextChainKey chainKey)
    | skipped h =>
      simp only [OrderedMap.get?_set] at h
      split at h
      next => exact Option.some.inj h ▸ hchain.step (.messageKey chainKey)
      next => exact held (.skipped (evictOldest_get? h))
  | @turn header receivingDh hd =>
    have hdh : Exposed prim generated state receivingDh := (held .sending).step (.dh hd)
    have hroot : Exposed prim generated state state.rootKey := held .rootKey
    cases h with
    | rootKey => exact hroot.step₂ hdh (.rootKey _ _)
    | sending => exact .known (Or.inr hfresh)
    | sendingChainKey h => exact held (.sendingChainKey h)
    | receivingChainKey h => exact Option.some.inj h ▸ hroot.step₂ hdh (.chainKey _ _)
    | skipped h => exact held (.skipped h)
  | @reply publicKey sendingDh hd =>
    have hdh : Exposed prim generated state sendingDh := (held .sending).step (.dh hd)
    have hroot : Exposed prim generated state state.rootKey := held .rootKey
    cases h with
    | rootKey => exact hroot.step₂ hdh (.rootKey _ _)
    | sending => exact held .sending
    | sendingChainKey h => exact Option.some.inj h ▸ hroot.step₂ hdh (.chainKey _ _)
    | receivingChainKey h => exact held (.receivingChainKey h)
    | skipped h => exact held (.skipped h)
  | drop id =>
    cases h with
    | rootKey => exact held .rootKey
    | sending => exact held .sending
    | sendingChainKey h => exact held (.sendingChainKey h)
    | receivingChainKey h => exact held (.receivingChainKey h)
    | skipped h =>
      simp only [OrderedMap.get?_delete] at h
      split at h
      next => cases h
      next => exact held (.skipped h)
  | @take chainKey hc =>
    cases h with
    | rootKey => exact held .rootKey
    | sending => exact held .sending
    | sendingChainKey h => exact held (.sendingChainKey h)
    | receivingChainKey h => exact Option.some.inj h ▸ (held (.receivingChainKey hc)).step (.nextChainKey chainKey)
    | skipped h => exact held (.skipped h)

theorem of_encrypt (plaintext : Bytes) {key : K} (h : Held (ratchetEncrypt prim state plaintext).1 key) :
    Exposed prim generated state key := by
  unfold ratchetEncrypt at h
  split at h
  next => exact held h
  next chainKey hc =>
    cases h with
    | rootKey => exact held .rootKey
    | sending => exact held .sending
    | sendingChainKey h => exact Option.some.inj h ▸ (held (.sendingChainKey hc)).step (.nextChainKey chainKey)
    | receivingChainKey h => exact held (.receivingChainKey h)
    | skipped h => exact held (.skipped h)

/-- What can be computed later could be computed before. -/
theorem earlier {key : K} (h : Exposed prim generated next key)
    (held : ∀ k, Held next k → Exposed prim generated state k) : Exposed prim generated state key := by
  refine h.cut (fun k hk => ?_)
  rcases hk with hk | hk
  · exact held k hk
  · exact .known (Or.inr hk)

theorem before_moves (hfresh : generated fresh.secretKey) (moves : RatchetMoves prim fresh state next) {key : K}
    (h : Exposed prim generated next key) : Exposed prim generated state key := by
  induction moves with
  | refl => exact h
  | tail _ move ih => exact ih (h.earlier (fun _ hk => of_move hfresh move hk))

end Exposed

end

/-- Free terms: atoms for what is generated or handed in, and one constructor for each output of the key schedule. -/
inductive Secret
  | handshake
  | generated (n : Nat)
  | shared (n : Nat)
  | root (rootKey dhOutput : Secret)
  | chain (rootKey dhOutput : Secret)
  | next (chainKey : Secret)
  | message (chainKey : Secret)
  | key (messageKey : Secret)
  | nonce (messageKey : Secret)
  deriving DecidableEq

/-- What the terms leave open: which agreements come out equal, which public keys are refused, and the AEAD. -/
structure SymbolicSetting where
  publicKeyOf : Secret → Bytes
  agree : Secret → Bytes → Nat
  degenerate : Bytes → Bool
  aeadEncrypt : Secret → Secret → Bytes → Bytes → Except Failure Bytes
  aeadDecrypt : Secret → Secret → Bytes → Bytes → Except Failure Bytes

def symbolic (world : SymbolicSetting) : RatchetPrimitives Secret where
  publicKeyOf := world.publicKeyOf
  dh secretKey publicKey :=
    if world.degenerate publicKey then
      .error (.malformedInput "X25519 agreement failed (degenerate or invalid peer public key)")
    else .ok (.shared (world.agree secretKey publicKey))
  advanceRootChain rootKey dhOutput := ⟨.root rootKey dhOutput, .chain rootKey dhOutput⟩
  advanceChain chainKey := ⟨.message chainKey, .next chainKey⟩
  deriveMessageKeys messageKey := ⟨.key messageKey, .nonce messageKey⟩
  aeadEncrypt := world.aeadEncrypt
  aeadDecrypt := world.aeadDecrypt

namespace Secret

def IsGenerated (s : Secret) : Prop := ∃ n, s = generated n

/-- A secret with the keys it was derived from, DH outputs apart. -/
def origins : Secret → List Secret
  | root rootKey dhOutput => root rootKey dhOutput :: rootKey.origins
  | chain rootKey dhOutput => chain rootKey dhOutput :: rootKey.origins
  | next chainKey => next chainKey :: chainKey.origins
  | message chainKey => message chainKey :: chainKey.origins
  | key messageKey => key messageKey :: messageKey.origins
  | nonce messageKey => nonce messageKey :: messageKey.origins
  | s => [s]

/-- A root key of the session. -/
inductive IsRoot : Secret → Prop
  | handshake : IsRoot handshake
  | root {rootKey : Secret} (h : IsRoot rootKey) (dhOutput : Secret) : IsRoot (root rootKey dhOutput)

/-- A chain key of the session. -/
inductive IsChain : Secret → Prop
  | chain {rootKey : Secret} (h : IsRoot rootKey) (dhOutput : Secret) : IsChain (chain rootKey dhOutput)
  | next {chainKey : Secret} (h : IsChain chainKey) : IsChain (next chainKey)

/-- The number of root steps behind a key. -/
def depth : Secret → Nat
  | root rootKey _ => rootKey.depth + 1
  | chain rootKey _ => rootKey.depth + 1
  | next chainKey => chainKey.depth
  | message chainKey => chainKey.depth
  | _ => 0

/-- The place of a key in its chain. -/
def index : Secret → Nat
  | next chainKey => chainKey.index + 1
  | message chainKey => chainKey.index
  | _ => 0

theorem mem_origins_self (s : Secret) : s ∈ s.origins := by
  cases s <;> exact List.mem_cons_self

theorem origins_trans {a b s : Secret} (h : a ∈ b.origins) (h' : b ∈ s.origins) : a ∈ s.origins := by
  induction s with
  | handshake => exact List.mem_singleton.mp h' ▸ h
  | generated n => exact List.mem_singleton.mp h' ▸ h
  | shared n => exact List.mem_singleton.mp h' ▸ h
  | root rootKey dhOutput ih _ | chain rootKey dhOutput ih _ =>
    rcases List.mem_cons.mp h' with rfl | h'
    · exact h
    · exact List.mem_cons_of_mem _ (ih h')
  | next s ih | message s ih | key s ih | nonce s ih =>
    rcases List.mem_cons.mp h' with rfl | h'
    · exact h
    · exact List.mem_cons_of_mem _ (ih h')

theorem IsRoot.origins {s r : Secret} (hr : IsRoot r) (h : s ∈ r.origins) : IsRoot s ∧ s.depth ≤ r.depth := by
  induction hr with
  | handshake =>
    obtain rfl := List.mem_singleton.mp h
    exact ⟨.handshake, le_rfl⟩
  | root hr dhOutput ih =>
    rcases List.mem_cons.mp h with rfl | h
    · exact ⟨.root hr dhOutput, le_rfl⟩
    · exact ⟨(ih h).1, (ih h).2.trans (Nat.le_succ _)⟩

/-- Behind a chain key stand the earlier keys of its chain and shallower root keys. -/
theorem IsChain.origins {s c : Secret} (hc : IsChain c) (h : s ∈ c.origins) :
    IsChain s ∧ s.depth = c.depth ∧ s.index ≤ c.index ∨ IsRoot s ∧ s.depth < c.depth := by
  induction hc with
  | chain hr dhOutput =>
    rcases List.mem_cons.mp h with rfl | h
    · exact Or.inl ⟨.chain hr dhOutput, rfl, le_rfl⟩
    · exact Or.inr ⟨(hr.origins h).1, Nat.lt_succ_of_le (hr.origins h).2⟩
  | next hc ih =>
    rcases List.mem_cons.mp h with rfl | h
    · exact Or.inl ⟨.next hc, rfl, le_rfl⟩
    · rcases ih h with ⟨hs, hdepth, hindex⟩ | hs
      · exact Or.inl ⟨hs, hdepth, hindex.trans (Nat.le_succ _)⟩
      · exact Or.inr hs

theorem IsRoot.not_isChain {s : Secret} (h : IsRoot s) : ¬IsChain s := by
  intro hc
  cases h <;> cases hc

theorem not_isRoot_message (c : Secret) : ¬IsRoot (message c) := nofun

theorem not_isChain_message (c : Secret) : ¬IsChain (message c) := nofun

theorem IsGenerated.ne_message {s : Secret} (h : IsGenerated s) (c : Secret) : s ≠ message c := by
  obtain ⟨n, rfl⟩ := h
  nofun

theorem IsGenerated.not_isRoot {s : Secret} (h : IsGenerated s) : ¬IsRoot s := by
  obtain ⟨n, rfl⟩ := h
  nofun

theorem IsGenerated.not_isChain {s : Secret} (h : IsGenerated s) : ¬IsChain s := by
  obtain ⟨n, rfl⟩ := h
  nofun

/-- Nobody reaches a message key from outside its origins. -/
theorem origins_closed {world : SymbolicSetting} {c : Secret} (hc : IsChain c) {premises : List Secret} {a : Secret}
    (rule : KeyRule (symbolic world) premises a) (h : a ∈ (message c).origins) :
    ∃ p ∈ premises, p ∈ (message c).origins := by
  cases rule with
  | rootKey r d =>
    refine ⟨r, by simp, origins_trans ?_ h⟩
    exact List.mem_cons_of_mem _ r.mem_origins_self
  | chainKey r d =>
    refine ⟨r, by simp, origins_trans ?_ h⟩
    exact List.mem_cons_of_mem _ r.mem_origins_self
  | messageKey c =>
    refine ⟨c, by simp, origins_trans ?_ h⟩
    exact List.mem_cons_of_mem _ c.mem_origins_self
  | nextChainKey c =>
    refine ⟨c, by simp, origins_trans ?_ h⟩
    exact List.mem_cons_of_mem _ c.mem_origins_self
  | aeadKey m =>
    refine ⟨m, by simp, origins_trans ?_ h⟩
    exact List.mem_cons_of_mem _ m.mem_origins_self
  | aeadNonce m =>
    refine ⟨m, by simp, origins_trans ?_ h⟩
    exact List.mem_cons_of_mem _ m.mem_origins_self
  | dh hd =>
    simp only [symbolic] at hd
    split at hd
    next => cases hd
    next =>
      obtain rfl := Except.ok.inj hd
      rcases List.mem_cons.mp h with h | h
      · cases h
      · rcases hc.origins h with ⟨hs, _⟩ | ⟨hs, _⟩ <;> cases hs

end Secret

/-- A setting with an AEAD that does nothing. -/
def bareSetting : SymbolicSetting where
  publicKeyOf _ := []
  agree _ publicKey := publicKey.length
  degenerate publicKey := publicKey = []
  aeadEncrypt _ _ plaintext _ := .ok plaintext
  aeadDecrypt _ _ ciphertext _ := .ok ciphertext

/-- What `initialiseInitiator` returns there, with 32 the label of every agreement on a key of that length. -/
def bareInitiator : RatchetState Secret where
  rootKey := .root .handshake (.shared 32)
  sending := ⟨List.replicate 32 1, .generated 1⟩
  receiving := some (List.replicate 32 2)
  sendingChainKey := some (.chain .handshake (.shared 32))
  associatedData := []

end Veil
