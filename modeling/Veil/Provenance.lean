import Veil.Rejection

namespace Veil

section

variable {K : Type} {prim : RatchetPrimitives K} {Good : K → Prop}

/-- Message key `n` of a chain that was rooted in a good root key. -/
def Rooted (prim : RatchetPrimitives K) (Good : K → Prop) (n : Nat) (messageKey : K) : Prop :=
  ∃ rootKey dhOutput, Good rootKey ∧
    messageKey = messageKeyAfter prim (prim.advanceRootChain rootKey dhOutput).chainKey n

/-- Every receiving key a state holds comes from a good root key. -/
structure Traced (prim : RatchetPrimitives K) (Good : K → Prop) (state : RatchetState K) : Prop where
  root : Good state.rootKey
  current : state.receivingChainKey.isSome → state.receiving.isSome
  chain : ∀ chainKey, state.receivingChainKey = some chainKey → ∃ rootKey dhOutput, Good rootKey ∧
    chainKey = chainKeyAfter prim (prim.advanceRootChain rootKey dhOutput).chainKey state.receivedCount
  cached : ∀ key n entry, state.skipped.get? (skippedKeyId key n) = some entry → Rooted prim Good n entry.messageKey

namespace Traced

variable {state next : RatchetState K}

theorem mono {Good' : K → Prop} (h : Traced prim Good state) (sub : ∀ k, Good k → Good' k) :
    Traced prim Good' state where
  root := sub _ h.root
  current := h.current
  chain := by
    intro chainKey hc
    obtain ⟨r, d, hg, heq⟩ := h.chain chainKey hc
    exact ⟨r, d, sub r hg, heq⟩
  cached := by
    intro key n entry hget
    obtain ⟨r, d, hg, heq⟩ := h.cached key n entry hget
    exact ⟨r, d, sub r hg, heq⟩

theorem caughtUp (h : Traced prim Good state) {receiving : Bytes} {chainKey : K}
    (hr : state.receiving = some receiving) (hc : state.receivingChainKey = some chainKey) (n : Nat) :
    Traced prim Good (caughtUp prim state receiving chainKey n) := by
  obtain ⟨r, d, hg, rfl⟩ := h.chain chainKey hc
  refine ⟨h.root, fun _ => by simp [Veil.caughtUp, hr], ?_, ?_⟩
  · rintro _ ⟨rfl⟩
    exact ⟨r, d, hg, (chainKeyAfter_add prim _ _ _).symm⟩
  · intro key m entry hget
    rcases rememberChain_sound prim _ _ _ _ hget with hold | ⟨i, _, hid, rfl⟩
    · exact h.cached key m entry hold
    · obtain ⟨_, rfl⟩ := skippedKeyId_inj hid
      exact ⟨r, d, hg, by simp only [messageKeyAfter, chainKeyAfter_add]⟩

theorem skip (h : Traced prim Good state) {target : Nat} (hs : skipReceivingKeys prim state target = .ok next) :
    Traced prim Good next := by
  cases hc : state.receivingChainKey with
  | none =>
    rw [skipReceivingKeys_without_chain prim hc] at hs
    exact Except.ok.inj hs ▸ h
  | some chainKey =>
    obtain ⟨receiving, hr⟩ := Option.isSome_iff_exists.mp (h.current (by rw [hc]; rfl))
    rw [skipReceivingKeys_eq prim hr hc] at hs
    split at hs
    next => simp at hs
    next => exact Except.ok.inj hs ▸ h.caughtUp hr hc _

theorem perform (advances : ∀ r d, Good (prim.advanceRootChain r d).rootKey) (h : Traced prim Good state)
    {fresh : KeyPair K} {header : RatchetHeader} {result : Except Failure Unit}
    (hp : performDhRatchet prim fresh state header = (next, result)) :
    Traced prim Good next ∧ next.associatedData = state.associatedData ∧
      (result = .ok () → next.receiving = some header.ratchetPublicKey ∧ next.receivingChainKey.isSome) := by
  unfold performDhRatchet at hp
  split at hp
  next =>
    obtain ⟨rfl, rfl⟩ := Prod.mk.inj hp
    exact ⟨h, rfl, by simp⟩
  next receivingDh _ =>
    split at hp
    next =>
      obtain ⟨rfl, rfl⟩ := Prod.mk.inj hp
      exact ⟨h, rfl, by simp⟩
    next closed hskip =>
      have hclosed := h.skip hskip
      have had : closed.associatedData = state.associatedData := by
        cases hc : state.receivingChainKey with
        | none =>
          rw [skipReceivingKeys_without_chain prim hc] at hskip
          rw [Except.ok.inj hskip]
        | some chainKey =>
          obtain ⟨receiving, hr⟩ := Option.isSome_iff_exists.mp (h.current (by rw [hc]; rfl))
          rw [skipReceivingKeys_eq prim hr hc] at hskip
          split at hskip
          next => simp at hskip
          next => rw [← Except.ok.inj hskip]; rfl
      have hchain : ∀ chainKey, some (prim.advanceRootChain closed.rootKey receivingDh).chainKey = some chainKey →
          ∃ r d, Good r ∧ chainKey = chainKeyAfter prim (prim.advanceRootChain r d).chainKey 0 := by
        rintro _ ⟨rfl⟩
        exact ⟨closed.rootKey, receivingDh, hclosed.root, rfl⟩
      simp only at hp
      split at hp
      next =>
        obtain ⟨rfl, rfl⟩ := Prod.mk.inj hp
        exact ⟨⟨advances _ _, fun _ => rfl, hchain, hclosed.cached⟩, had, by simp⟩
      next =>
        obtain ⟨rfl, rfl⟩ := Prod.mk.inj hp
        exact ⟨⟨advances _ _, fun _ => rfl, hchain, hclosed.cached⟩, had, fun _ => ⟨rfl, rfl⟩⟩

theorem inChain (h : Traced prim Good state) {message : RatchetMessage}
    (hr : state.receiving = some message.header.ratchetPublicKey) :
    Traced prim Good (receiveInChain prim state message).1 ∧
      ∀ plaintext, (receiveInChain prim state message).2 = .ok plaintext →
        ∃ messageKey, Rooted prim Good message.header.messageNumber messageKey ∧
          openWith prim messageKey state.associatedData message = .ok plaintext := by
  cases hc : state.receivingChainKey with
  | none =>
    rw [receiveInChain_without_chain hc]
    refine ⟨h, ?_⟩
    intro plaintext ok
    simp [receiveInChain, skipReceivingKeys_without_chain prim hc, hc] at ok
  | some chainKey =>
    cases hresult : (receiveInChain prim state message).2 with
    | error e =>
      refine ⟨?_, by simp⟩
      rcases receiveInChain_error hr hc hresult with hsame | ⟨_, _, hnext⟩
      · rw [hsame]; exact h
      · rw [hnext]; exact h.caughtUp hr hc _
    | ok opened =>
      rcases Nat.lt_or_ge maxSkipPerChain (message.header.messageNumber - state.receivedCount) with far | near
      · simp [receiveInChain_too_far prim hr hc far] at hresult
      rcases Nat.lt_or_ge message.header.messageNumber state.receivedCount with replay | ahead
      · simp [receiveInChain_replay prim hr hc replay] at hresult
      rw [receiveInChain_eq prim hr hc ahead near] at hresult ⊢
      simp only at hresult ⊢
      split at hresult
      next => simp at hresult
      next plaintext hopen =>
        rw [Except.ok.injEq] at hresult
        subst hresult
        obtain ⟨r, d, hg, rfl⟩ := h.chain chainKey hc
        have hn : state.receivedCount + (message.header.messageNumber - state.receivedCount) =
          message.header.messageNumber := by omega
        have hcaught := h.caughtUp hr hc (message.header.messageNumber - state.receivedCount)
        refine ⟨⟨hcaught.root, fun _ => hcaught.current rfl, ?_, hcaught.cached⟩, ?_⟩
        · rintro _ ⟨rfl⟩
          refine ⟨r, d, hg, ?_⟩
          rw [← chainKeyAfter_add]
          congr 1
          simp only
          omega
        · rintro _ ⟨rfl⟩
          refine ⟨_, ⟨r, d, hg, rfl⟩, ?_⟩
          rw [← hopen]
          simp only [messageKeyAfter, ← chainKeyAfter_add, hn]

/-- Whatever a state is given to decrypt, it stays traced, and what it opens it opens under a rooted key. -/
theorem decrypt (advances : ∀ r d, Good (prim.advanceRootChain r d).rootKey) (h : Traced prim Good state)
    {message : RatchetMessage} {fresh : KeyPair K} :
    Traced prim Good (ratchetDecrypt prim fresh state message).1 ∧
      ∀ plaintext, (ratchetDecrypt prim fresh state message).2 = .ok plaintext →
        ∃ messageKey, Rooted prim Good message.header.messageNumber messageKey ∧
          openWith prim messageKey state.associatedData message = .ok plaintext := by
  by_cases hlength : message.header.ratchetPublicKey.length = 32
  swap
  · exact ⟨by simpa [ratchetDecrypt, hlength] using h, by simp [ratchetDecrypt, hlength]⟩
  cases hget : state.skipped.get? (skippedKeyId message.header.ratchetPublicKey message.header.messageNumber) with
  | some entry =>
    have hrooted := h.cached _ _ _ hget
    cases hopen : openWith prim entry.messageKey state.associatedData message with
    | error e =>
      rw [ratchetDecrypt_cached_error hlength hget hopen]
      exact ⟨h, by simp⟩
    | ok opened =>
      rw [ratchetDecrypt_cached hlength hget hopen]
      refine ⟨⟨h.root, h.current, h.chain, ?_⟩, ?_⟩
      · intro key n entry' hsome
        simp only [OrderedMap.get?_delete] at hsome
        split at hsome
        next => simp at hsome
        next => exact h.cached key n entry' hsome
      · rintro _ ⟨rfl⟩
        exact ⟨_, hrooted, hopen⟩
  | none =>
    have huncached : ¬ Cached state message.header := by simp [Cached, hget]
    cases hnew : isNewRatchetKey state message.header with
    | false =>
      rw [ratchetDecrypt_current hlength huncached hnew]
      exact h.inChain (isNewRatchetKey_eq_false_iff.mp hnew)
    | true =>
      cases hperform : performDhRatchet prim fresh state message.header with
      | mk turned result =>
        obtain ⟨hturned, had, hok⟩ := h.perform advances hperform
        cases result with
        | error e =>
          rw [ratchetDecrypt_turn_error hlength huncached hnew hperform]
          exact ⟨hturned, by simp⟩
        | ok u =>
          rw [ratchetDecrypt_turned hlength huncached hnew hperform, ← had]
          exact hturned.inChain (hok rfl).1

end Traced

end

end Veil
