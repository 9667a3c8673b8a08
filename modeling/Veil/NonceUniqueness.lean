import Veil.Exchange
import Veil.Symbolic

namespace Veil

open Secret

section

variable (world : SymbolicSetting)

/-- The two ends of a session, with every key and nonce a call of `ratchetEncrypt` has used. -/
structure SessionEnds where
  state : Role → RatchetState Secret
  used : List (Secret × Secret) := []

namespace SessionEnds

def encrypt (r : Role) (plaintext : Bytes) (w : SessionEnds) : SessionEnds where
  state := Function.update w.state r (ratchetEncrypt (symbolic world) (w.state r) plaintext).1
  used := ((sendingMessageKey (symbolic world) (w.state r)).map (fun messageKey =>
    let keys := (symbolic world).deriveMessageKeys messageKey
    (keys.key, keys.nonce))).toList ++ w.used

def decrypt (r : Role) (fresh : KeyPair Secret) (message : RatchetMessage) (w : SessionEnds) : SessionEnds :=
  { w with state := Function.update w.state r (ratchetDecrypt (symbolic world) fresh (w.state r) message).1 }

/-- Either end seals anything, or is given anything. -/
inductive Step : SessionEnds → SessionEnds → Prop
  | encrypt (w : SessionEnds) (r : Role) (plaintext : Bytes) : Step w (w.encrypt world r plaintext)
  | decrypt (w : SessionEnds) (r : Role) {fresh : KeyPair Secret} (hfresh : IsGenerated fresh.secretKey)
      (message : RatchetMessage) : Step w (w.decrypt world r fresh message)

/-- `initialiseInitiator` and `initialiseResponder` on the secret of one handshake. -/
def Start (w : SessionEnds) : Prop :=
  ∃ sending signedPreKey associatedData, IsGenerated sending.secretKey ∧ IsGenerated signedPreKey.secretKey ∧
    initialiseInitiator (symbolic world) sending handshake signedPreKey.publicKey associatedData =
      .ok (w.state .initiator) ∧
    w.state .responder = initialiseResponder handshake signedPreKey associatedData ∧ w.used = []

end SessionEnds

end

/-- The initiator sends on chains of odd depth, the responder on chains of even depth. -/
def Role.parity : Role → Nat
  | .initiator => 1
  | .responder => 0

theorem Role.parity_inj {r s : Role} (h : r.parity = s.parity) : r = s := by
  cases r <;> cases s <;> first | rfl | cases h

/-- The root key is at the role's depth, and the sending chain was made with it. -/
structure InTurn (r : Role) (state : RatchetState Secret) : Prop where
  parity : state.rootKey.depth % 2 = r.parity
  sending : ∀ c, state.sendingChainKey = some c → c.depth = state.rootKey.depth

/-- A key behind everything this end can still send with. -/
def Passed (state : RatchetState Secret) (key : Secret) : Prop :=
  key.depth < state.rootKey.depth ∨
    ∃ c, state.sendingChainKey = some c ∧ key.depth = c.depth ∧ key.index < c.index

section

variable {world : SymbolicSetting} {fresh : KeyPair Secret} {state next : RatchetState Secret} {r : Role} {key : Secret}

theorem receiveInChain_same {K : Type} (prim : RatchetPrimitives K) (state : RatchetState K) (message : RatchetMessage) :
    (receiveInChain prim state message).1.rootKey = state.rootKey ∧
      (receiveInChain prim state message).1.sendingChainKey = state.sendingChainKey := by
  unfold receiveInChain
  split
  next => exact ⟨rfl, rfl⟩
  next closed hskip =>
    have hroot : closed.rootKey = state.rootKey := by rw [skipReceivingKeys_same hskip]
    have hsending : closed.sendingChainKey = state.sendingChainKey := by rw [skipReceivingKeys_same hskip]
    split
    next => exact ⟨hroot, hsending⟩
    next =>
      split
      next => exact ⟨hroot, hsending⟩
      next =>
        simp only
        split <;> exact ⟨hroot, hsending⟩

/-- A ratchet step is taken whole or not at all, since it is the public key alone that can be refused. -/
theorem performDhRatchet_whole (header : RatchetHeader) :
    (performDhRatchet (symbolic world) fresh state header).1 = state ∨ ∃ d d',
      (performDhRatchet (symbolic world) fresh state header).1.rootKey = .root (.root state.rootKey d) d' ∧
        (performDhRatchet (symbolic world) fresh state header).1.sendingChainKey =
          some (.chain (.root state.rootKey d) d') := by
  cases hrefused : world.degenerate header.ratchetPublicKey with
  | true => exact Or.inl (by simp [performDhRatchet, symbolic, hrefused])
  | false =>
    have hdh : ∀ secretKey, (symbolic world).dh secretKey header.ratchetPublicKey =
        .ok (.shared (world.agree secretKey header.ratchetPublicKey)) := fun _ => by simp [symbolic, hrefused]
    unfold performDhRatchet
    rw [hdh]
    simp only
    split
    next => exact Or.inl rfl
    next closed hskip =>
      have hroot : closed.rootKey = state.rootKey := by rw [skipReceivingKeys_same hskip]
      rw [hdh]
      simp only [turnReceiving, hroot]
      exact Or.inr ⟨_, _, rfl, rfl⟩

/-- What a delivery can do to the sending side. -/
theorem ratchetDecrypt_sending (message : RatchetMessage) :
    ((ratchetDecrypt (symbolic world) fresh state message).1.rootKey = state.rootKey ∧
        (ratchetDecrypt (symbolic world) fresh state message).1.sendingChainKey = state.sendingChainKey) ∨
      ∃ d d', (ratchetDecrypt (symbolic world) fresh state message).1.rootKey = .root (.root state.rootKey d) d' ∧
        (ratchetDecrypt (symbolic world) fresh state message).1.sendingChainKey =
          some (.chain (.root state.rootKey d) d') := by
  have hwhole := @performDhRatchet_whole world fresh state message.header
  rcases ratchetDecrypt_cases (symbolic world) fresh state message with
    ⟨e, h⟩ | ⟨entry, plaintext, _, _, h⟩ | ⟨_, (⟨_, h⟩ | ⟨_, (⟨turned, e, hturned, h⟩ | ⟨turned, hturned, h⟩)⟩)⟩
  · exact Or.inl (by rw [h]; exact ⟨rfl, rfl⟩)
  · exact Or.inl (by rw [h]; exact ⟨rfl, rfl⟩)
  · rw [h]
    exact Or.inl (receiveInChain_same _ _ _)
  · rw [hturned] at hwhole
    rw [h]
    exact hwhole.imp_left (fun hsame => by rw [hsame]; exact ⟨rfl, rfl⟩)
  · rw [hturned] at hwhole
    obtain ⟨hroot, hsending⟩ := receiveInChain_same (symbolic world) turned message
    rw [h, hroot, hsending]
    exact hwhole.imp_left (fun hsame => ⟨congrArg _ hsame, congrArg _ hsame⟩)

theorem InTurn.encrypt (h : InTurn r state) (plaintext : Bytes) :
    InTurn r (ratchetEncrypt (symbolic world) state plaintext).1 := by
  unfold ratchetEncrypt
  split
  next => exact h
  next c hc =>
    refine ⟨h.parity, ?_⟩
    rintro _ ⟨rfl⟩
    exact h.sending c hc

theorem InTurn.decrypt (h : InTurn r state) (message : RatchetMessage) :
    InTurn r (ratchetDecrypt (symbolic world) fresh state message).1 := by
  rcases @ratchetDecrypt_sending _ _ state message with
    ⟨hroot, hsending⟩ | ⟨d, d', hroot, hsending⟩
  · refine ⟨hroot ▸ h.parity, ?_⟩
    rw [hroot, hsending]
    exact h.sending
  · refine ⟨?_, ?_⟩
    · rw [hroot]
      have := h.parity
      simp only [depth]
      omega
    · rw [hroot, hsending]
      rintro _ ⟨rfl⟩
      rfl

theorem Passed.encrypt (h : Passed state key) (plaintext : Bytes) :
    Passed (ratchetEncrypt (symbolic world) state plaintext).1 key := by
  unfold ratchetEncrypt
  split
  next => exact h
  next c hc =>
    refine h.imp_right ?_
    rintro ⟨c', hc', hdepth, hindex⟩
    obtain rfl := Option.some.inj (hc.symm.trans hc')
    exact ⟨_, rfl, hdepth, hindex.trans (Nat.lt_succ_self _)⟩

theorem Passed.decrypt (h : Passed state key) (turn : InTurn r state) (message : RatchetMessage) :
    Passed (ratchetDecrypt (symbolic world) fresh state message).1 key := by
  rcases ratchetDecrypt_sending message with
    ⟨hroot, hsending⟩ | ⟨d, d', hroot, _⟩
  · unfold Passed
    rw [hroot, hsending]
    exact h
  · refine Or.inl ?_
    rw [hroot]
    simp only [depth]
    rcases h with hlt | ⟨c, hc, hdepth, _⟩
    · omega
    · have := turn.sending c hc
      omega

namespace SessionEnds

/-- The invariant: no pair twice, and each was made from a message key its end has passed. -/
structure Apart (w : SessionEnds) : Prop where
  turn : ∀ r, InTurn r (w.state r)
  once : w.used.Nodup
  passed : ∀ pair ∈ w.used, ∃ r m, pair = (.key m, .nonce m) ∧ m.depth % 2 = r.parity ∧ Passed (w.state r) m

variable {w : SessionEnds}

theorem Start.apart (h : Start world w) : w.Apart := by
  obtain ⟨sending, signedPreKey, ad, _, _, hinit, hresponder, hused⟩ := h
  simp only [initialiseInitiator, Outcome.bind_eq_ok_iff, Outcome.pure_eq_ok_iff] at hinit
  obtain ⟨dhOutput, _, hinit⟩ := hinit
  refine ⟨?_, hused ▸ List.nodup_nil, hused ▸ nofun⟩
  intro r
  cases r with
  | initiator =>
    rw [← hinit]
    refine ⟨rfl, ?_⟩
    rintro _ ⟨rfl⟩
    rfl
  | responder =>
    rw [hresponder]
    exact ⟨rfl, nofun⟩

theorem Apart.encrypt (h : w.Apart) (r : Role) (plaintext : Bytes) : (w.encrypt world r plaintext).Apart := by
  have hturn : ∀ s, InTurn s ((w.encrypt world r plaintext).state s) := by
    intro s
    simp only [SessionEnds.encrypt, Function.update_apply]
    split
    next heq => exact heq ▸ (h.turn r).encrypt plaintext
    next => exact h.turn s
  have hpassed : ∀ pair ∈ w.used, ∃ s m, pair = (.key m, .nonce m) ∧ m.depth % 2 = s.parity ∧
      Passed ((w.encrypt world r plaintext).state s) m := by
    intro pair hmem
    obtain ⟨s, m, hpair, hparity, hm⟩ := h.passed pair hmem
    refine ⟨s, m, hpair, hparity, ?_⟩
    simp only [SessionEnds.encrypt, Function.update_apply]
    split
    next heq => exact (heq ▸ hm).encrypt plaintext
    next => exact hm
  cases hc : (w.state r).sendingChainKey with
  | none =>
    have hused : (w.encrypt world r plaintext).used = w.used := by simp [SessionEnds.encrypt, sendingMessageKey, hc]
    exact ⟨hturn, hused ▸ h.once, hused ▸ hpassed⟩
  | some c =>
    have hused : (w.encrypt world r plaintext).used = (.key (message c), .nonce (message c)) :: w.used := by
      simp [SessionEnds.encrypt, sendingMessageKey, hc, symbolic]
    have hdepth := (h.turn r).sending c hc
    have hnew : (Secret.key (message c), Secret.nonce (message c)) ∉ w.used := by
      intro hmem
      obtain ⟨s, m, hpair, hparity, hm⟩ := h.passed _ hmem
      obtain rfl : message c = m := Secret.key.inj (Prod.mk.inj hpair).1
      have hmessage : (message c).depth = c.depth := rfl
      have hplace : (message c).index = c.index := rfl
      obtain rfl : s = r := Role.parity_inj (by rw [← hparity, hmessage, hdepth, (h.turn r).parity])
      rcases hm with hlt | ⟨c', hc', _, hlt⟩
      · omega
      · obtain rfl := Option.some.inj (hc.symm.trans hc')
        omega
    refine ⟨hturn, ?_, ?_⟩
    · rw [hused]
      exact List.nodup_cons.mpr ⟨hnew, h.once⟩
    · rw [hused]
      intro pair hmem
      rcases List.mem_cons.mp hmem with rfl | hmem
      · refine ⟨r, message c, rfl, ?_, Or.inr ⟨c.next, ?_, rfl, Nat.lt_succ_self _⟩⟩
        · have hmessage : (message c).depth = c.depth := rfl
          rw [hmessage, hdepth, (h.turn r).parity]
        · simp [SessionEnds.encrypt, ratchetEncrypt, hc, symbolic]
      · exact hpassed pair hmem

theorem Apart.decrypt (h : w.Apart) (r : Role) (fresh : KeyPair Secret) (message : RatchetMessage) :
    (w.decrypt world r fresh message).Apart := by
  refine ⟨?_, h.once, ?_⟩
  · intro s
    simp only [SessionEnds.decrypt, Function.update_apply]
    split
    next heq => exact heq ▸ (h.turn r).decrypt message
    next => exact h.turn s
  · intro pair hmem
    obtain ⟨s, m, hpair, hparity, hm⟩ := h.passed pair hmem
    refine ⟨s, m, hpair, hparity, ?_⟩
    simp only [SessionEnds.decrypt, Function.update_apply]
    split
    next heq => exact (heq ▸ hm).decrypt (h.turn r) message
    next => exact hm

theorem Step.apart {w next : SessionEnds} (step : Step world w next) (h : w.Apart) : next.Apart := by
  cases step with
  | encrypt r plaintext => exact h.encrypt r plaintext
  | decrypt r hfresh message => exact h.decrypt r _ message

/-- In every run of the two ends, whatever is delivered to them, no key and nonce are used for two encryptions; and
what `ratchetEncrypt` returns was sealed under a pair that counts as used. -/
theorem nonces_unique {start w : SessionEnds} (hstart : Start world start)
    (run : Relation.ReflTransGen (Step world) start w) :
    w.used.Nodup ∧ ∀ r plaintext next sealed,
      ratchetEncrypt (symbolic world) (w.state r) plaintext = (next, .ok sealed) →
        ∃ key nonce associatedData, (key, nonce) ∈ (w.encrypt world r plaintext).used ∧ (key, nonce) ∉ w.used ∧
          world.aeadEncrypt key nonce plaintext associatedData = .ok sealed.ciphertext := by
  have hapart := Runs.preserved (P := Apart) (fun _ _ step h => step.apart h) run hstart.apart
  refine ⟨hapart.once, ?_⟩
  intro r plaintext next sealed henc
  obtain ⟨c, ad, hc, hseal, _⟩ := ratchetEncrypt_spends henc
  have hused : (w.encrypt world r plaintext).used = (.key (message c), .nonce (message c)) :: w.used := by
    simp [SessionEnds.encrypt, sendingMessageKey, hc, symbolic]
  have honce := (@Apart.encrypt world _ hapart r plaintext).once
  rw [hused] at honce ⊢
  exact ⟨_, _, ad, List.mem_cons_self, (List.nodup_cons.mp honce).1, hseal⟩

end SessionEnds

end

namespace SessionEnds

def freshEnds : SessionEnds where
  state
    | .initiator => bareInitiator
    | .responder => initialiseResponder .handshake ⟨List.replicate 32 2, .generated 2⟩ []

theorem freshEnds_start : Start bareSetting freshEnds :=
  ⟨⟨List.replicate 32 1, .generated 1⟩, ⟨List.replicate 32 2, .generated 2⟩, [], ⟨1, rfl⟩, ⟨2, rfl⟩, rfl, rfl, rfl⟩

/-- Two messages of the initiator. -/
theorem nonces_unique_two : ((freshEnds.encrypt bareSetting .initiator [1]).encrypt bareSetting
    .initiator [2]).used.Nodup :=
  (nonces_unique freshEnds_start (.tail (.single (.encrypt freshEnds .initiator [1])) (.encrypt _ .initiator [2]))).1

end SessionEnds

end Veil
