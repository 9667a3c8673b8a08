import Veil.SynchronySteps

namespace Veil

section

variable {K : Type} {prim : RatchetPrimitives K} {generated : KeyPair K → Prop}

theorem ratchetDecrypt_cached {fresh : KeyPair K} {state : RatchetState K} {message : RatchetMessage}
    {entry : SkippedKey K} {plaintext : Bytes} (length : message.header.ratchetPublicKey.length = 32)
    (hget : state.skipped.get? (skippedKeyId message.header.ratchetPublicKey message.header.messageNumber) =
      some entry)
    (hopen : openWith prim entry.messageKey state.associatedData message = .ok plaintext) :
    ratchetDecrypt prim fresh state message =
      ({ state with
          skipped := state.skipped.delete
            (skippedKeyId message.header.ratchetPublicKey message.header.messageNumber) }, .ok plaintext) := by
  simp [ratchetDecrypt, length, tryDecryptWithSkipped, hget, hopen]

theorem ratchetDecrypt_cached_error {fresh : KeyPair K} {state : RatchetState K} {message : RatchetMessage}
    {entry : SkippedKey K} {e : Failure} (length : message.header.ratchetPublicKey.length = 32)
    (hget : state.skipped.get? (skippedKeyId message.header.ratchetPublicKey message.header.messageNumber) =
      some entry)
    (hopen : openWith prim entry.messageKey state.associatedData message = .error e) :
    ratchetDecrypt prim fresh state message = (state, .error e) := by
  simp [ratchetDecrypt, length, tryDecryptWithSkipped, hget, hopen]

theorem ratchetDecrypt_current {fresh : KeyPair K} {state : RatchetState K} {message : RatchetMessage}
    (length : message.header.ratchetPublicKey.length = 32) (uncached : ¬ Cached state message.header)
    (same : isNewRatchetKey state message.header = false) :
    ratchetDecrypt prim fresh state message = receiveInChain prim state message := by
  have hget : state.skipped.get? (skippedKeyId message.header.ratchetPublicKey message.header.messageNumber) =
      none := by simpa [Cached] using uncached
  simp [ratchetDecrypt, length, tryDecryptWithSkipped, hget, same]

theorem ratchetDecrypt_turned {fresh : KeyPair K} {state next : RatchetState K} {message : RatchetMessage}
    (length : message.header.ratchetPublicKey.length = 32) (uncached : ¬ Cached state message.header)
    (new : isNewRatchetKey state message.header = true)
    (turn : performDhRatchet prim fresh state message.header = (next, .ok ())) :
    ratchetDecrypt prim fresh state message = receiveInChain prim next message := by
  have hget : state.skipped.get? (skippedKeyId message.header.ratchetPublicKey message.header.messageNumber) =
      none := by simpa [Cached] using uncached
  simp [ratchetDecrypt, length, tryDecryptWithSkipped, hget, new, turn]

theorem ratchetDecrypt_turn_error {fresh : KeyPair K} {state next : RatchetState K} {message : RatchetMessage}
    {e : Failure} (length : message.header.ratchetPublicKey.length = 32)
    (uncached : ¬ Cached state message.header) (new : isNewRatchetKey state message.header = true)
    (turn : performDhRatchet prim fresh state message.header = (next, .error e)) :
    ratchetDecrypt prim fresh state message = (next, .error e) := by
  have hget : state.skipped.get? (skippedKeyId message.header.ratchetPublicKey message.header.messageNumber) =
      none := by simpa [Cached] using uncached
  simp [ratchetDecrypt, length, tryDecryptWithSkipped, hget, new, turn]

namespace Synced

open Conversation

variable {c : Conversation K} {p : Progress} {me peer : Nat} {mine theirs : RatchetState K}

theorem associatedData (h : Synced prim generated c p me peer mine theirs) :
    mine.associatedData = c.associatedData := by
  rw [h.mine.shape]
  match me with
  | 0 => rfl
  | 1 => rfl
  | me + 2 => rfl

theorem sending (h : Synced prim generated c p me peer mine theirs) : mine.sending = c.pair me := by
  rw [h.mine.shape]
  match me with
  | 0 => rfl
  | 1 => rfl
  | me + 2 => rfl

theorem receiving_succ (h : Synced prim generated c p (me + 1) peer mine theirs) :
    mine.receiving = some (c.pair me).publicKey := by
  rw [h.mine.shape]
  match me with
  | 0 => rfl
  | me + 1 => rfl

theorem receivedCount (h : Synced prim generated c p (me + 2) peer mine theirs) :
    mine.receivedCount = p.passed (me + 1) := by
  rw [h.mine.shape]
  rfl

theorem receivingChain (h : Synced prim generated c p (me + 2) peer mine theirs) :
    mine.receivingChainKey = some (chainKeyAfter prim (c.chainKey (me + 1)) (p.passed (me + 1))) := by
  rw [h.mine.shape]
  rfl

theorem receivingChain_none (h : Synced prim generated c p me peer mine theirs) (hme : me ≤ 1) :
    mine.receivingChainKey = none := by
  rw [h.mine.shape]
  match me with
  | 0 => rfl
  | 1 => rfl

theorem isNew_iff (h : Synced prim generated c p (me + 1) peer mine theirs) {header : RatchetHeader} :
    isNewRatchetKey mine header = false ↔ header.ratchetPublicKey = (c.pair me).publicKey := by
  rw [isNewRatchetKey_eq_false_iff, h.receiving_succ, Option.some.injEq, eq_comm]

/-- The peer's newest key is new to a party that has not answered it yet. -/
theorem isNew_newest (h : Synced prim generated c p me (me + 1) mine theirs) {header : RatchetHeader}
    (hk : header.ratchetPublicKey = (c.pair (me + 1)).publicKey) : isNewRatchetKey mine header = true := by
  have htop := h.top
  match me with
  | 0 =>
    have hr : mine.receiving = none := by rw [h.mine.shape]; rfl
    simp [isNewRatchetKey, hr]
  | me + 1 =>
    by_contra hn
    have heq := (h.isNew_iff.mp (by simpa using hn)).symm.trans hk
    have := h.linked.distinct me (by omega) (me + 1 + 1) (by omega) heq
    omega

/-- Where an undelivered message stands with its receiver. -/
theorem position (h : Synced prim generated c p me peer mine theirs) {e n : Nat} (le : e ≤ peer)
    (parity : e % 2 = peer % 2) (sent : n < p.sent e) (untaken : ¬ p.taken e n) :
    (∃ entry, mine.skipped.get? (c.cacheId e n) = some entry ∧
        entry.messageKey = c.messageKey prim e n ∧ e < me ∧ n < p.passed e) ∨
      (mine.skipped.get? (c.cacheId e n) = none ∧ p.passed e ≤ n ∧ (me = e + 1 ∨ (e = me + 1 ∧ peer = me + 1))) := by
  have hadj := h.adjacent
  have htop := h.top
  cases hget : mine.skipped.get? (c.cacheId e n) with
  | some entry =>
    obtain ⟨e', n', hlt, hpar, hid, hpassed, _, hkey⟩ := h.mine.cache.sound _ _ hget
    obtain ⟨rfl, rfl⟩ := h.linked.cacheId_inj (by omega) (by omega) hid
    exact Or.inl ⟨entry, rfl, hkey, hlt, hpassed⟩
  | none =>
    refine Or.inr ⟨rfl, ?_⟩
    have hle : p.passed e ≤ n := by
      by_contra hlt
      rcases (show e < me ∨ me ≤ e by omega) with hem | hem
      · have := h.mine.cache.full e n hem (by omega) (by omega) untaken
        simp [hget] at this
      · have := h.mine.settled.future e hem (by omega)
        omega
    refine ⟨hle, ?_⟩
    rcases (show me = e + 1 ∨ (e = me + 1 ∧ peer = me + 1) ∨ e + 3 ≤ me by omega) with h' | h' | h'
    · exact Or.inl h'
    · exact Or.inr h'
    · have := h.mine.settled.closed e h' (by omega)
      omega

/-- Closing the current chain before a turn succeeds whenever it is within the skip bound. -/
theorem close (h : Synced prim generated c p me peer mine theirs) {target : Nat}
    (bound : mine.receivingChainKey.isSome → target - mine.receivedCount ≤ maxSkipPerChain) :
    ∃ closed, skipReceivingKeys prim mine target = .ok closed ∧ closed.rootKey = mine.rootKey ∧
      closed.associatedData = mine.associatedData ∧
      closed.skipped.size ≤
        mine.skipped.size + (if mine.receivingChainKey.isSome then target - mine.receivedCount else 0) ∧
      ∃ q, p.Onward q ∧ (∀ e, e + 1 = me → e = 0 ∨ target ≤ q.passed e) ∧
        (mine.skipped.size + (if mine.receivingChainKey.isSome then target - mine.receivedCount else 0) ≤
          maxSkippedKeys → q.taken = p.taken) ∧
        Synced prim generated c q me peer closed theirs := by
  match me with
  | 0 =>
    have hc := h.receivingChain_none (by omega)
    exact ⟨mine, skipReceivingKeys_without_chain prim hc target, rfl, rfl, by omega, p, .refl p, by omega,
      fun _ => rfl, h⟩
  | 1 =>
    have hc := h.receivingChain_none (by omega)
    exact ⟨mine, skipReceivingKeys_without_chain prim hc target, rfl, rfl, by omega, p, .refl p, by omega,
      fun _ => rfl, h⟩
  | me + 2 =>
    have hc := h.receivingChain
    have hsome : mine.receivingChainKey.isSome := by simp [hc]
    have hb := bound hsome
    obtain ⟨q, honward, hpassed, htaken, hq⟩ := h.catchUp (target - mine.receivedCount)
    refine ⟨caughtUp prim mine (c.pair (me + 1)).publicKey
      (chainKeyAfter prim (c.chainKey (me + 1)) (p.passed (me + 1))) (target - mine.receivedCount), ?_, rfl, rfl,
      ?_, q, honward, ?_, ?_, hq⟩
    · rw [skipReceivingKeys_eq prim h.receiving_succ hc, if_neg (by omega)]
    · simp only [hsome, ↓reduceIte]
      exact rememberChain_size_le prim _ _ _ _ _ _
    · intro e he
      have he' : e = me + 1 := by omega
      subst he'
      have := h.receivedCount
      right
      omega
    · simpa only [hsome, ↓reduceIte] using htaken

/-- A key of the current chain opens its message, and the ends stay together. -/
theorem inChain (lawful : prim.Lawful generated) (h : Synced prim generated c p (me + 2) peer mine theirs)
    {q : Progress} {n : Nat} {plaintext : Bytes} {message : RatchetMessage} (hle : p.passed (me + 1) ≤ n)
    (hm : c.compose prim q (me + 1) n plaintext = .ok message)
    (bound : n - p.passed (me + 1) ≤ maxSkipPerChain) :
    (receiveInChain prim mine message).2 = .ok plaintext ∧
      ∃ p', p.Onward p' ∧ p'.taken (me + 1) n ∧
        (mine.skipped.size + (n - p.passed (me + 1)) ≤ maxSkippedKeys → p'.taken = (p.take (me + 1) n).taken) ∧
        Synced prim generated c p' (me + 2) peer (receiveInChain prim mine message).1 theirs := by
  have hnumber : message.header.messageNumber = n := by rw [(compose_eq_ok_iff.mp hm).1]; rfl
  have hcount := h.receivedCount
  have hn : p.passed (me + 1) + (n - p.passed (me + 1)) = n := by omega
  have hopen : openWith prim (messageKeyAfter prim (chainKeyAfter prim (c.chainKey (me + 1)) (p.passed (me + 1)))
      (message.header.messageNumber - mine.receivedCount)) mine.associatedData message = .ok plaintext := by
    rw [chainKey_rest, hnumber, hcount, hn, h.associatedData]
    exact openWith_compose lawful hm
  rw [receiveInChain_opens prim h.receiving_succ h.receivingChain (by omega) (by omega) hopen]
  obtain ⟨p', honward, hpassed, htaken, hsynced⟩ := h.catchUp (n - p.passed (me + 1))
  rw [hn] at hpassed
  have hnext := hsynced.readNext
  rw [hpassed] at hnext
  refine ⟨rfl, (p'.pass (me + 1) (n + 1)).take (me + 1) n, honward.trans ⟨rfl, ?_, fun _ _ => Or.inr⟩,
    Or.inl ⟨rfl, rfl⟩, ?_, ?_⟩
  · exact p'.passed_le_pass (by omega)
  · intro room
    simp only [Progress.take, Progress.pass, htaken room]
  · have hchain : chainKeyAfter prim (chainKeyAfter prim (c.chainKey (me + 1)) (p.passed (me + 1)))
        (n - p.passed (me + 1) + 1) = chainKeyAfter prim (c.chainKey (me + 1)) (n + 1) := by
      rw [← chainKeyAfter_add]
      congr 1
      omega
    simp only [hnumber, hcount, hchain]
    exact hnext

end Synced

end

end Veil
