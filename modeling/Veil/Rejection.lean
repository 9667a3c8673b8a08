import Veil.Reception

namespace Veil

section

variable {K : Type} {prim : RatchetPrimitives K} {generated : KeyPair K → Prop}

/-- The exits of `receiveInChain` that throw, with the state each of them leaves. -/
theorem receiveInChain_error {state : RatchetState K} {message : RatchetMessage} {e : Failure}
    {receiving : Bytes} {chainKey : K} (hr : state.receiving = some receiving)
    (hc : state.receivingChainKey = some chainKey)
    (thrown : (receiveInChain prim state message).2 = .error e) :
    (receiveInChain prim state message).1 = state ∨
      (state.receivedCount ≤ message.header.messageNumber ∧
        message.header.messageNumber - state.receivedCount ≤ maxSkipPerChain ∧
        (receiveInChain prim state message).1 =
          caughtUp prim state receiving chainKey (message.header.messageNumber - state.receivedCount)) := by
  rcases Nat.lt_or_ge maxSkipPerChain (message.header.messageNumber - state.receivedCount) with far | near
  · exact Or.inl (by rw [receiveInChain_too_far prim hr hc far])
  rcases Nat.lt_or_ge message.header.messageNumber state.receivedCount with replay | ahead
  · exact Or.inl (by rw [receiveInChain_replay prim hr hc replay])
  · refine Or.inr ⟨ahead, near, ?_⟩
    rw [receiveInChain_eq prim hr hc ahead near] at thrown ⊢
    simp only at thrown ⊢
    split
    next => rfl
    next plaintext hopen => simp [hopen] at thrown

theorem receiveInChain_without_chain {state : RatchetState K} {message : RatchetMessage}
    (hc : state.receivingChainKey = none) : (receiveInChain prim state message).1 = state := by
  simp [receiveInChain, skipReceivingKeys_without_chain prim hc, hc]

namespace Synced

open Conversation

variable {c : Conversation K} {p : Progress} {me peer : Nat} {mine theirs : RatchetState K}

/-- A DH ratchet step that does not complete leaves the state alone. -/
theorem performDhRatchet_error (h : Synced prim generated c p me peer mine theirs) {header : RatchetHeader}
    {fresh : KeyPair K} (new : isNewRatchetKey mine header = true)
    (failed : ¬ ((prim.dh mine.sending.secretKey header.ratchetPublicKey).isOk = true ∧
      previousGap mine header ≤ maxSkipPerChain)) :
    ∃ e, performDhRatchet prim fresh mine header = (mine, .error e) := by
  cases hdh : prim.dh mine.sending.secretKey header.ratchetPublicKey with
  | error e => exact ⟨e, by simp [performDhRatchet, hdh]⟩
  | ok s =>
    have hgap : maxSkipPerChain < previousGap mine header := by
      by_contra hle
      exact failed ⟨by rw [hdh]; rfl, by omega⟩
    rcases me with _ | _ | me
    · simp [previousGap, h.receivingChain_none (by omega)] at hgap
    · simp [previousGap, h.receivingChain_none (by omega)] at hgap
    · have far : header.previousChainLength - mine.receivedCount > maxSkipPerChain := by
        rwa [previousGap, if_pos ⟨by rw [h.receivingChain]; rfl, new⟩] at hgap
      refine ⟨.sessionState
        s!"message number {header.previousChainLength} skips more than {maxSkipPerChain} keys; refusing", ?_⟩
      simp only [performDhRatchet, hdh, skipReceivingKeys_eq prim h.receiving_succ h.receivingChain, if_pos far]

theorem previousSentCount (h : Synced prim generated c p me peer mine theirs) :
    mine.previousSentCount = p.previous me := by
  rw [h.mine.shape]
  match me with
  | 0 => rfl
  | 1 => rfl
  | me + 2 => rfl

/-- Rejecting within the current chain can only catch up. -/
theorem rejectInChain (h : Synced prim generated c p (me + 2) peer mine theirs) {message : RatchetMessage}
    {e : Failure} (thrown : (receiveInChain prim mine message).2 = .error e)
    (room : message.header.messageNumber - mine.receivedCount ≤ maxSkipPerChain →
      mine.skipped.size + (message.header.messageNumber - mine.receivedCount) ≤ maxSkippedKeys) :
    ∃ p', p.Onward p' ∧ p'.taken = p.taken ∧
      Synced prim generated c p' (me + 2) peer (receiveInChain prim mine message).1 theirs := by
  rcases receiveInChain_error h.receiving_succ h.receivingChain thrown with hsame | ⟨hle, near, hnext⟩
  · rw [hsame]
    exact ⟨p, .refl p, rfl, h⟩
  · rw [hnext]
    obtain ⟨q, honward, _, htaken, hq⟩ := h.catchUp (message.header.messageNumber - mine.receivedCount)
    exact ⟨q, honward, htaken (room near), hq⟩

/-- A safe rejection leaves two ends of one conversation. -/
theorem reject (lawful : prim.Lawful generated) (h : Synced prim generated c p me peer mine theirs)
    {message : RatchetMessage} {fresh : KeyPair K} {e : Failure}
    (hf : StartsTurn prim mine message.header → c.Fresh generated fresh)
    (thrown : (ratchetDecrypt prim fresh mine message).2 = .error e)
    (safe : TurnSafe prim mine theirs message.header) (fits : EvictsNothing prim mine message.header) :
    ∃ c' p' me', c.Later (StartsTurn prim mine message.header) fresh p me c' p' me' ∧ p'.taken = p.taken ∧
      Synced prim generated c' p' me' peer (ratchetDecrypt prim fresh mine message).1 theirs := by
  have stays : (ratchetDecrypt prim fresh mine message).1 = mine →
      ∃ c' p' me', c.Later (StartsTurn prim mine message.header) fresh p me c' p' me' ∧ p'.taken = p.taken ∧
        Synced prim generated c' p' me' peer (ratchetDecrypt prim fresh mine message).1 theirs := by
    intro hsame
    rw [hsame]
    exact ⟨c, p, me, ⟨.refl p, Or.inl ⟨rfl, rfl⟩⟩, rfl, h⟩
  by_cases hlength : message.header.ratchetPublicKey.length = 32
  swap
  · exact stays (by simp [ratchetDecrypt, hlength])
  cases hget : mine.skipped.get? (skippedKeyId message.header.ratchetPublicKey message.header.messageNumber) with
  | some entry =>
    cases hopen : openWith prim entry.messageKey mine.associatedData message with
    | error e' => exact stays (by rw [ratchetDecrypt_cached_error hlength hget hopen])
    | ok plaintext => simp [ratchetDecrypt_cached hlength hget hopen] at thrown
  | none =>
    have huncached : ¬ Cached mine message.header := by simp [Cached, hget]
    have room := fits hlength huncached
    cases hnew : isNewRatchetKey mine message.header with
    | false =>
      rw [ratchetDecrypt_current hlength huncached hnew] at thrown stays ⊢
      rcases me with _ | _ | me
      · exact stays (receiveInChain_without_chain (h.receivingChain_none (by omega)))
      · exact stays (receiveInChain_without_chain (h.receivingChain_none (by omega)))
      · obtain ⟨p', honward, htaken, hsynced⟩ := h.rejectInChain thrown (by
          intro near
          have hgap : currentGap mine message.header = message.header.messageNumber - mine.receivedCount := by
            simp [currentGap, hnew, h.receivingChain]
          simpa [derivedUnauthenticated, hnew, StartsTurn, hgap, near] using room)
        exact ⟨c, p', me + 2, ⟨honward, Or.inl ⟨rfl, rfl⟩⟩, htaken, hsynced⟩
    | true =>
      by_cases hturn : StartsTurn prim mine message.header
      swap
      · obtain ⟨e', herror⟩ := h.performDhRatchet_error hnew (fun hok =>
          hturn ⟨hlength, huncached, hnew, hok⟩)
        exact stays (by rw [ratchetDecrypt_turn_error hlength huncached hnew herror])
      obtain ⟨hkey, hreaches⟩ := safe hturn
      rw [h.symm.sending] at hkey
      have hpeer : peer = me + 1 := by
        rcases h.adjacent with rfl | hpeer
        · rw [h.isNew_iff.mpr hkey] at hnew
          simp at hnew
        · exact hpeer
      subst hpeer
      rw [h.symm.previousSentCount] at hreaches
      have hderived : derivedUnauthenticated prim mine message.header = previousGap mine message.header +
          (if message.header.messageNumber ≤ maxSkipPerChain then message.header.messageNumber else 0) := by
        simp [derivedUnauthenticated, hturn, currentGap, hnew]
      obtain ⟨next, hturned, _, _, hcount, _, hsize, hsynced⟩ := h.turnChain lawful hkey hturn (hf hturn)
      obtain ⟨c', q, hlater, htaken, hq⟩ := hsynced hreaches
      rw [ratchetDecrypt_turned hlength huncached hnew hturned] at thrown ⊢
      obtain ⟨p', honward, htaken', hp'⟩ := hq.rejectInChain thrown (by
        intro near
        rw [hcount, Nat.sub_zero] at near ⊢
        rw [hderived, if_pos near] at room
        omega)
      exact ⟨c', p', me + 2, ⟨hlater.onward.trans honward, hlater.turn⟩, htaken'.trans (htaken (by omega)), hp'⟩

end Synced

end

end Veil
