import Veil.SkippedKeys

namespace Veil

section

variable {K : Type} (prim : RatchetPrimitives K)

/-- A receiving chain advanced by `n` keys, all of them put in the cache. -/
def caughtUp (state : RatchetState K) (receiving : Bytes) (chainKey : K) (n : Nat) : RatchetState K :=
  { state with
    receivingChainKey := some (chainKeyAfter prim chainKey n)
    receivedCount := state.receivedCount + n
    skipped := rememberChain prim receiving chainKey state.receivedCount state.skippedSequence
      state.skipped n
    skippedSequence := state.skippedSequence + n }

theorem caughtUp_zero {state : RatchetState K} {receiving : Bytes} {chainKey : K}
    (hc : state.receivingChainKey = some chainKey) : caughtUp prim state receiving chainKey 0 = state := by
  simp [caughtUp, rememberChain, ← hc]

theorem skipReceivingKeys_eq {state : RatchetState K} {receiving : Bytes} {chainKey : K}
    (hr : state.receiving = some receiving) (hc : state.receivingChainKey = some chainKey) (target : Nat) :
    skipReceivingKeys prim state target =
      if target - state.receivedCount > maxSkipPerChain then
        .error (.sessionState s!"message number {target} skips more than {maxSkipPerChain} keys; refusing")
      else .ok (caughtUp prim state receiving chainKey (target - state.receivedCount)) := by
  simp only [skipReceivingKeys, hr, hc]
  by_cases hlt : target < state.receivedCount
  · have hz : target - state.receivedCount = 0 := by omega
    simp [hlt, hz, caughtUp_zero prim hc]
  · simp only [hlt, ↓reduceIte, skipOne_iterate prim receiving hc]
    rfl

theorem skipReceivingKeys_without_chain {state : RatchetState K} (hc : state.receivingChainKey = none)
    (target : Nat) : skipReceivingKeys prim state target = .ok state := by
  simp [skipReceivingKeys, hc]

/-- A message key not used up is reached through the catch-up and authenticates the message. -/
theorem receiveInChain_eq {state : RatchetState K} {receiving : Bytes} {chainKey : K}
    {message : RatchetMessage}
    (hr : state.receiving = some receiving) (hc : state.receivingChainKey = some chainKey)
    (hle : state.receivedCount ≤ message.header.messageNumber)
    (bound : message.header.messageNumber - state.receivedCount ≤ maxSkipPerChain) :
    receiveInChain prim state message =
      let skip := message.header.messageNumber - state.receivedCount
      let next := caughtUp prim state receiving chainKey skip
      match openWith prim (messageKeyAfter prim chainKey skip) state.associatedData message with
      | .error e => (next, .error e)
      | .ok plaintext =>
        ({ next with receivingChainKey := some (chainKeyAfter prim chainKey (skip + 1))
                     receivedCount := message.header.messageNumber + 1 }, .ok plaintext) := by
  have hn : state.receivedCount + (message.header.messageNumber - state.receivedCount) =
      message.header.messageNumber := by omega
  cases hopen : openWith prim (messageKeyAfter prim chainKey (message.header.messageNumber - state.receivedCount))
      state.associatedData message with
  | error e =>
    simp only [messageKeyAfter] at hopen
    simp only [receiveInChain, skipReceivingKeys_eq prim hr hc, Nat.not_lt.mpr bound, ↓reduceIte, caughtUp,
      hn, ne_eq, not_true_eq_false, messageKeyAfter, hopen]
  | ok plaintext =>
    simp only [messageKeyAfter] at hopen
    simp only [receiveInChain, skipReceivingKeys_eq prim hr hc, Nat.not_lt.mpr bound, ↓reduceIte, caughtUp,
      hn, ne_eq, not_true_eq_false, chainKeyAfter_succ, messageKeyAfter, hopen]

theorem receiveInChain_opens {state : RatchetState K} {receiving : Bytes} {chainKey : K}
    {message : RatchetMessage} {plaintext : Bytes}
    (hr : state.receiving = some receiving) (hc : state.receivingChainKey = some chainKey)
    (hle : state.receivedCount ≤ message.header.messageNumber)
    (bound : message.header.messageNumber - state.receivedCount ≤ maxSkipPerChain)
    (hopen : openWith prim (messageKeyAfter prim chainKey (message.header.messageNumber - state.receivedCount))
      state.associatedData message = .ok plaintext) :
    receiveInChain prim state message =
      ({ caughtUp prim state receiving chainKey (message.header.messageNumber - state.receivedCount) with
          receivingChainKey :=
            some (chainKeyAfter prim chainKey (message.header.messageNumber - state.receivedCount + 1))
          receivedCount := message.header.messageNumber + 1 }, .ok plaintext) := by
  rw [receiveInChain_eq prim hr hc hle bound]
  simp only [hopen]

theorem receiveInChain_replay {state : RatchetState K} {receiving : Bytes} {chainKey : K}
    {message : RatchetMessage}
    (hr : state.receiving = some receiving) (hc : state.receivingChainKey = some chainKey)
    (hlt : message.header.messageNumber < state.receivedCount) :
    receiveInChain prim state message = (state, .error (.sessionState
      s!"message {message.header.messageNumber} was already consumed (replay?)")) := by
  have hz : message.header.messageNumber - state.receivedCount = 0 := by omega
  simp [receiveInChain, skipReceivingKeys_eq prim hr hc, hz, caughtUp_zero prim hc, hc,
    Nat.ne_of_lt hlt]

theorem receiveInChain_too_far {state : RatchetState K} {receiving : Bytes} {chainKey : K}
    {message : RatchetMessage}
    (hr : state.receiving = some receiving) (hc : state.receivingChainKey = some chainKey)
    (far : maxSkipPerChain < message.header.messageNumber - state.receivedCount) :
    receiveInChain prim state message = (state, .error (.sessionState
      s!"message number {message.header.messageNumber} skips more than {maxSkipPerChain} keys; refusing")) := by
  simp [receiveInChain, skipReceivingKeys_eq prim hr hc, far]

theorem isNewRatchetKey_eq_false_iff {state : RatchetState K} {header : RatchetHeader} :
    isNewRatchetKey state header = false ↔ state.receiving = some header.ratchetPublicKey := by
  unfold isNewRatchetKey
  split
  next h => simp [h]
  next receiving h =>
    simp only [ne_eq, decide_not, Bool.not_eq_false', decide_eq_true_eq, h, Option.some.injEq]
    exact ⟨toHex_injective, congrArg toHex⟩

/-- The state a completed DH ratchet step leaves. -/
def turned (fresh : KeyPair K) (state : RatchetState K) (ratchetPublicKey : Bytes)
    (receivingDh sendingDh : K) : RatchetState K :=
  let receivingStep := prim.advanceRootChain state.rootKey receivingDh
  let sendingStep := prim.advanceRootChain receivingStep.rootKey sendingDh
  { state with
    rootKey := sendingStep.rootKey, sending := fresh, receiving := some ratchetPublicKey
    sendingChainKey := some sendingStep.chainKey, receivingChainKey := some receivingStep.chainKey
    sentCount := 0, receivedCount := 0, previousSentCount := state.sentCount }

theorem performDhRatchet_eq {fresh : KeyPair K} {state closed : RatchetState K} {header : RatchetHeader}
    {receivingDh sendingDh : K}
    (hreceive : prim.dh state.sending.secretKey header.ratchetPublicKey = .ok receivingDh)
    (hskip : skipReceivingKeys prim state header.previousChainLength = .ok closed)
    (hsend : prim.dh fresh.secretKey header.ratchetPublicKey = .ok sendingDh) :
    performDhRatchet prim fresh state header =
      (turned prim fresh closed header.ratchetPublicKey receivingDh sendingDh, .ok ()) := by
  simp [performDhRatchet, hreceive, hskip, hsend, turned, turnReceiving]

end

end Veil
