import Veil.Delivery
import Veil.Library.Runs

namespace Veil

section

variable {K : Type} (prim : RatchetPrimitives K)

/-- The elementary changes one call of `ratchetDecrypt` is made of. -/
inductive RatchetMove (fresh : KeyPair K) : RatchetState K → RatchetState K → Prop
  | skip {state : RatchetState K} {receiving : Bytes} {chainKey : K} (hr : state.receiving = some receiving)
      (hc : state.receivingChainKey = some chainKey) : RatchetMove fresh state (skipOne prim receiving state)
  | turn {state : RatchetState K} {header : RatchetHeader} {receivingDh : K}
      (hd : prim.dh state.sending.secretKey header.ratchetPublicKey = .ok receivingDh) :
      RatchetMove fresh state (turnReceiving prim fresh state header receivingDh)
  | reply {state : RatchetState K} {publicKey : Bytes} {sendingDh : K}
      (hd : prim.dh state.sending.secretKey publicKey = .ok sendingDh) :
      RatchetMove fresh state { state with
        rootKey := (prim.advanceRootChain state.rootKey sendingDh).rootKey
        sendingChainKey := some (prim.advanceRootChain state.rootKey sendingDh).chainKey }
  | drop (state : RatchetState K) (id : String) :
      RatchetMove fresh state { state with skipped := state.skipped.delete id }
  | take {state : RatchetState K} {chainKey : K} (hc : state.receivingChainKey = some chainKey) :
      RatchetMove fresh state { state with receivingChainKey := some (prim.advanceChain chainKey).nextChainKey
                                           receivedCount := state.receivedCount + 1 }

abbrev RatchetMoves (fresh : KeyPair K) : RatchetState K → RatchetState K → Prop :=
  Relation.ReflTransGen (RatchetMove prim fresh)

/-- The message key the next `ratchetEncrypt` uses. -/
def sendingMessageKey (state : RatchetState K) : Option K :=
  state.sendingChainKey.map (fun chainKey => (prim.advanceChain chainKey).messageKey)

/-- The message key `ratchetDecrypt` tries on a message. -/
def receivingMessageKey (fresh : KeyPair K) (state : RatchetState K) (message : RatchetMessage) : Option K :=
  match state.skipped.get? (skippedKeyId message.header.ratchetPublicKey message.header.messageNumber) with
  | some entry => some entry.messageKey
  | none =>
    let current := if isNewRatchetKey state message.header then (performDhRatchet prim fresh state message.header).1 else state
    match skipReceivingKeys prim current message.header.messageNumber with
    | .error _ => none
    | .ok caughtUp => caughtUp.receivingChainKey.map (fun chainKey => (prim.advanceChain chainKey).messageKey)

end

section

variable {K : Type} {prim : RatchetPrimitives K} {fresh : KeyPair K} {state next : RatchetState K}

theorem RatchetMove.associatedData (h : RatchetMove prim fresh state next) :
    next.associatedData = state.associatedData := by
  cases h with
  | skip hr hc => simp only [skipOne, hc, rememberSkipped]
  | turn hd => rfl
  | reply hd => rfl
  | drop id => rfl
  | take hc => rfl

theorem RatchetMoves.associatedData (h : RatchetMoves prim fresh state next) :
    next.associatedData = state.associatedData :=
  Runs.preserved (P := fun s => s.associatedData = state.associatedData)
    (fun _ _ move hs => move.associatedData.trans hs) h rfl

theorem skipOne_moves {receiving : Bytes} {chainKey : K} (hr : state.receiving = some receiving)
    (hc : state.receivingChainKey = some chainKey) (n : Nat) :
    RatchetMoves prim fresh state ((skipOne prim receiving)^[n] state) := by
  induction n with
  | zero => exact .refl
  | succ n ih =>
    rw [Function.iterate_succ_apply']
    refine ih.tail (@RatchetMove.skip _ _ _ _ _ (chainKeyAfter prim chainKey n) ?_ ?_)
    · rw [skipOne_iterate prim receiving hc]
      exact hr
    · rw [skipOne_iterate prim receiving hc]

theorem skipReceivingKeys_moves {target : Nat} (h : skipReceivingKeys prim state target = .ok next) :
    RatchetMoves prim fresh state next := by
  unfold skipReceivingKeys at h
  split at h
  next chainKey receiving hc hr =>
    split at h
    next => exact Except.ok.inj h ▸ .refl
    next =>
      split at h
      next => cases h
      next =>
        obtain rfl := Except.ok.inj h
        exact skipOne_moves hr hc _
  next => exact Except.ok.inj h ▸ .refl

/-- Catching up touches the receiving chain and the cache only. -/
theorem skipReceivingKeys_same {target : Nat} (h : skipReceivingKeys prim state target = .ok next) :
    next = { state with
      receivingChainKey := next.receivingChainKey, receivedCount := next.receivedCount
      skipped := next.skipped, skippedSequence := next.skippedSequence } := by
  unfold skipReceivingKeys at h
  split at h
  next chainKey receiving hc hr =>
    split at h
    next => exact Except.ok.inj h ▸ rfl
    next =>
      split at h
      next => cases h
      next =>
        obtain rfl := Except.ok.inj h
        rw [skipOne_iterate prim receiving hc]
  next => exact Except.ok.inj h ▸ rfl

theorem performDhRatchet_moves (header : RatchetHeader) :
    RatchetMoves prim fresh state (performDhRatchet prim fresh state header).1 := by
  unfold performDhRatchet
  split
  next => exact .refl
  next receivingDh hreceive =>
    split
    next => exact .refl
    next closed hskip =>
      have hsending : closed.sending = state.sending := by rw [skipReceivingKeys_same hskip]
      have hturn : RatchetMoves prim fresh state (turnReceiving prim fresh closed header receivingDh) :=
        (skipReceivingKeys_moves hskip).tail (.turn (by rw [hsending]; exact hreceive))
      simp only
      split
      next => exact hturn
      next sendingDh hsend => exact hturn.tail (.reply hsend)

theorem receiveInChain_moves (message : RatchetMessage) :
    RatchetMoves prim fresh state (receiveInChain prim state message).1 := by
  unfold receiveInChain
  split
  next => exact .refl
  next closed hskip =>
    have hmoves := (@skipReceivingKeys_moves _ _ fresh) hskip
    split
    next => exact hmoves
    next chainKey hc =>
      split
      next => exact hmoves
      next =>
        simp only
        split
        next => exact hmoves
        next => exact hmoves.tail (.take hc)

/-- The five ways a call of `ratchetDecrypt` can go. -/
theorem ratchetDecrypt_cases (prim : RatchetPrimitives K) (fresh : KeyPair K) (state : RatchetState K)
    (message : RatchetMessage) :
    (∃ e, ratchetDecrypt prim fresh state message = (state, .error e)) ∨
      (∃ entry plaintext, state.skipped.get?
            (skippedKeyId message.header.ratchetPublicKey message.header.messageNumber) = some entry ∧
          openWith prim entry.messageKey state.associatedData message = .ok plaintext ∧
          ratchetDecrypt prim fresh state message = ({ state with
            skipped := state.skipped.delete
              (skippedKeyId message.header.ratchetPublicKey message.header.messageNumber) }, .ok plaintext)) ∨
      state.skipped.get? (skippedKeyId message.header.ratchetPublicKey message.header.messageNumber) = none ∧
        (isNewRatchetKey state message.header = false ∧
            ratchetDecrypt prim fresh state message = receiveInChain prim state message ∨
          isNewRatchetKey state message.header = true ∧
            ((∃ turned e, performDhRatchet prim fresh state message.header = (turned, .error e) ∧
                ratchetDecrypt prim fresh state message = (turned, .error e)) ∨
              ∃ turned, performDhRatchet prim fresh state message.header = (turned, .ok ()) ∧
                ratchetDecrypt prim fresh state message = receiveInChain prim turned message)) := by
  by_cases hlength : message.header.ratchetPublicKey.length = 32
  swap
  · refine Or.inl ⟨.malformedInput "ratchet header public key has wrong length", ?_⟩
    simp [ratchetDecrypt, hlength]
  cases hget : state.skipped.get? (skippedKeyId message.header.ratchetPublicKey message.header.messageNumber) with
  | some entry =>
    cases hopen : openWith prim entry.messageKey state.associatedData message with
    | error e => exact Or.inl ⟨e, ratchetDecrypt_cached_error hlength hget hopen⟩
    | ok plaintext =>
      exact Or.inr (Or.inl ⟨entry, plaintext, rfl, hopen, ratchetDecrypt_cached hlength hget hopen⟩)
  | none =>
    have huncached : ¬ Cached state message.header := by simp [Cached, hget]
    refine Or.inr (Or.inr ⟨rfl, ?_⟩)
    cases hnew : isNewRatchetKey state message.header with
    | false => exact Or.inl ⟨rfl, ratchetDecrypt_current hlength huncached hnew⟩
    | true =>
      refine Or.inr ⟨rfl, ?_⟩
      cases hperform : performDhRatchet prim fresh state message.header with
      | mk turned result =>
        cases result with
        | error e => exact Or.inl ⟨turned, e, rfl, ratchetDecrypt_turn_error hlength huncached hnew hperform⟩
        | ok _ => exact Or.inr ⟨turned, rfl, ratchetDecrypt_turned hlength huncached hnew hperform⟩

/-- Every call of `ratchetDecrypt`, whatever it is given and however it ends, is a run of moves. -/
theorem ratchetDecrypt_moves (message : RatchetMessage) :
    RatchetMoves prim fresh state (ratchetDecrypt prim fresh state message).1 := by
  have hperform := @performDhRatchet_moves _ prim fresh state message.header
  rcases ratchetDecrypt_cases prim fresh state message with
    ⟨e, h⟩ | ⟨entry, plaintext, _, _, h⟩ | ⟨_, (⟨_, h⟩ | ⟨_, (⟨turned, e, hturned, h⟩ | ⟨turned, hturned, h⟩)⟩)⟩
  · rw [h]
  · rw [h]
    exact .single (.drop state _)
  · rw [h]
    exact receiveInChain_moves message
  · rw [h]
    rwa [hturned] at hperform
  · rw [h]
    rw [hturned] at hperform
    exact hperform.trans (receiveInChain_moves message)

/-- A message that is sealed is sealed under the sending chain's key, and the chain has moved on. -/
theorem ratchetEncrypt_spends {plaintext : Bytes} {message : RatchetMessage}
    (h : ratchetEncrypt prim state plaintext = (next, .ok message)) : ∃ chainKey associatedData,
      state.sendingChainKey = some chainKey ∧
        prim.aeadEncrypt (prim.deriveMessageKeys (prim.advanceChain chainKey).messageKey).key
          (prim.deriveMessageKeys (prim.advanceChain chainKey).messageKey).nonce plaintext associatedData =
            .ok message.ciphertext ∧
        next = { state with sendingChainKey := some (prim.advanceChain chainKey).nextChainKey
                            sentCount := state.sentCount + 1 } := by
  unfold ratchetEncrypt at h
  split at h
  next => cases h
  next chainKey hc =>
    obtain ⟨rfl, hmessage⟩ := Prod.mk.inj h
    simp only [Outcome.bind_eq_ok_iff, Outcome.pure_eq_ok_iff] at hmessage
    obtain ⟨ad, _, ciphertext, hseal, rfl⟩ := hmessage
    exact ⟨chainKey, ad, hc, hseal, rfl⟩

/-- The state after the current message of a chain has been opened. -/
theorem receiveInChain_eq_ok {message : RatchetMessage} {plaintext : Bytes}
    (h : receiveInChain prim state message = (next, .ok plaintext)) : ∃ caughtUp chainKey,
      skipReceivingKeys prim state message.header.messageNumber = .ok caughtUp ∧
        caughtUp.receivingChainKey = some chainKey ∧
        openWith prim (prim.advanceChain chainKey).messageKey state.associatedData message = .ok plaintext ∧
        next = { caughtUp with receivingChainKey := some (prim.advanceChain chainKey).nextChainKey
                               receivedCount := caughtUp.receivedCount + 1 } := by
  unfold receiveInChain at h
  split at h
  next => cases h
  next closed hskip =>
    split at h
    next => cases h
    next chainKey hc =>
      split at h
      next => cases h
      next =>
        simp only at h
        split at h
        next => cases h
        next opened hopen =>
          obtain ⟨rfl, hplaintext⟩ := Prod.mk.inj h
          obtain rfl := Except.ok.inj hplaintext
          refine ⟨closed, chainKey, hskip, hc, ?_, rfl⟩
          rwa [skipReceivingKeys_same hskip] at hopen

/-- A message that opens has opened under the key tried on it, and that key has left the state: it was in the cache
and is deleted, or the receiving chain stood at it and has moved on. -/
theorem ratchetDecrypt_spends {message : RatchetMessage} {plaintext : Bytes}
    (h : ratchetDecrypt prim fresh state message = (next, .ok plaintext)) :
    ∃ messageKey, receivingMessageKey prim fresh state message = some messageKey ∧
      openWith prim messageKey state.associatedData message = .ok plaintext ∧
      ((∃ id entry, state.skipped.get? id = some entry ∧ messageKey = entry.messageKey ∧
          next = { state with skipped := state.skipped.delete id }) ∨
        ∃ before chainKey, RatchetMoves prim fresh state before ∧ before.receivingChainKey = some chainKey ∧
          messageKey = (prim.advanceChain chainKey).messageKey ∧
          next = { before with receivingChainKey := some (prim.advanceChain chainKey).nextChainKey
                               receivedCount := before.receivedCount + 1 }) := by
  have hmoves := @performDhRatchet_moves _ prim fresh state message.header
  unfold receivingMessageKey
  rcases ratchetDecrypt_cases prim fresh state message with
    ⟨e, hd⟩ | ⟨entry, opened, hget, hopen, hd⟩ |
      ⟨hget, (⟨hnew, hd⟩ | ⟨hnew, (⟨turned, e, hturned, hd⟩ | ⟨turned, hturned, hd⟩)⟩)⟩
  · rw [hd] at h
    cases h
  · rw [hd] at h
    obtain ⟨rfl, hplaintext⟩ := Prod.mk.inj h
    obtain rfl := Except.ok.inj hplaintext
    rw [hget]
    exact ⟨entry.messageKey, rfl, hopen, Or.inl ⟨_, entry, hget, rfl, rfl⟩⟩
  · rw [hd] at h
    obtain ⟨closed, chainKey, hskip, hc, hopen, rfl⟩ := receiveInChain_eq_ok h
    refine ⟨_, ?_, hopen, Or.inr ⟨closed, chainKey, skipReceivingKeys_moves hskip, hc, rfl, rfl⟩⟩
    simp only [hget, hnew, Bool.false_eq_true, if_false, hskip, hc, Option.map_some]
  · rw [hd] at h
    cases h
  · rw [hd] at h
    rw [hturned] at hmoves
    obtain ⟨closed, chainKey, hskip, hc, hopen, rfl⟩ := receiveInChain_eq_ok h
    rw [RatchetMoves.associatedData hmoves] at hopen
    refine ⟨_, ?_, hopen, Or.inr ⟨closed, chainKey, hmoves.trans (skipReceivingKeys_moves hskip), hc, rfl, rfl⟩⟩
    simp only [hget, hnew, if_true, hturned, hskip, hc, Option.map_some]

end

end Veil
