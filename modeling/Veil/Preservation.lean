import Veil.Rejection

namespace Veil

section

variable {K : Type} {prim : RatchetPrimitives K} {generated : KeyPair K → Prop}

theorem performDhRatchet_ok {fresh : KeyPair K} {state next : RatchetState K} {header : RatchetHeader}
    (h : performDhRatchet prim fresh state header = (next, .ok ())) :
    next.receivedCount = 0 ∧ next.receiving = some header.ratchetPublicKey ∧
      ∃ chainKey, next.receivingChainKey = some chainKey := by
  unfold performDhRatchet at h
  split at h
  next => simp at h
  next receivingDh _ =>
    split at h
    next => simp at h
    next caughtUp _ =>
      simp only at h
      split at h
      next => simp at h
      next sendingDh _ =>
        obtain ⟨rfl, _⟩ := Prod.mk.inj h
        exact ⟨rfl, rfl, _, rfl⟩

namespace Synced

open Conversation

variable {c c' : Conversation K} {p p' : Progress} {me me' peer : Nat} {mine next theirs : RatchetState K}

/-- What decrypts was within the catch-up limits. -/
theorem bounded_of_ok (h : Synced prim generated c p me peer mine theirs) {message : RatchetMessage}
    {fresh : KeyPair K} {plaintext : Bytes} (ok : (ratchetDecrypt prim fresh mine message).2 = .ok plaintext) :
    CatchUpBounded mine message.header := by
  by_cases hlength : message.header.ratchetPublicKey.length = 32
  swap
  · simp [ratchetDecrypt, hlength] at ok
  by_cases huncached : Cached mine message.header
  · exact Or.inl huncached
  refine Or.inr ?_
  cases hnew : isNewRatchetKey mine message.header with
  | false =>
    rw [ratchetDecrypt_current hlength huncached hnew] at ok
    rcases me with _ | _ | me
    · simp [receiveInChain, skipReceivingKeys_without_chain, h.receivingChain_none] at ok
    · simp [receiveInChain, skipReceivingKeys_without_chain, h.receivingChain_none] at ok
    · refine ⟨by simp [previousGap, hnew], ?_⟩
      by_contra far
      simp only [currentGap, hnew, h.receivingChain, Option.isSome_some, Bool.false_eq_true, ↓reduceIte,
        Nat.not_le] at far
      simp [receiveInChain_too_far prim h.receiving_succ h.receivingChain far] at ok
  | true =>
    by_cases hturn : (prim.dh mine.sending.secretKey message.header.ratchetPublicKey).isOk = true ∧
        previousGap mine message.header ≤ maxSkipPerChain
    swap
    · obtain ⟨e, herror⟩ := @Synced.performDhRatchet_error _ _ _ _ _ _ _ _ _ h _ fresh hnew hturn
      simp [ratchetDecrypt_turn_error hlength huncached hnew herror] at ok
    refine ⟨hturn.2, ?_⟩
    cases hperform : performDhRatchet prim fresh mine message.header with
    | mk turned result =>
      cases result with
      | error e => simp [ratchetDecrypt_turn_error hlength huncached hnew hperform] at ok
      | ok u =>
        obtain ⟨hcount, hr, chainKey, hc⟩ := performDhRatchet_ok hperform
        rw [ratchetDecrypt_turned hlength huncached hnew hperform] at ok
        by_contra far
        simp only [currentGap, hnew, ↓reduceIte, Nat.not_le] at far
        simp [receiveInChain_too_far prim hr hc (by rw [hcount]; exact far)] at ok

/-- A genuine message needs no more catching up at a later moment than it did before. -/
theorem bounded_later (h : Synced prim generated c p me peer mine theirs)
    (h' : Synced prim generated c' p' me' peer next theirs) {turns : Prop} {fresh : KeyPair K}
    (later : c.Later turns fresh p me c' p' me') {e n : Nat} {plaintext : Bytes} {message : RatchetMessage}
    (le : e ≤ peer) (parity : e % 2 = peer % 2) (sent : n < p.sent e) (untaken : ¬ p.taken e n)
    (untaken' : ¬ p'.taken e n) (hm : c.compose prim p e n plaintext = .ok message)
    (bound : CatchUpBounded mine message.header) : CatchUpBounded next message.header := by
  have hheader := (compose_eq_ok_iff.mp hm).1
  have hnumber : message.header.messageNumber = n := by rw [hheader]; rfl
  have htop := h.top
  have hkey : message.header.ratchetPublicKey = (c.pair e).publicKey := by rw [hheader]; rfl
  have hkey' : message.header.ratchetPublicKey = (c'.pair e).publicKey := by
    rw [hkey, later.ext.pair e (by omega)]
  have hid : skippedKeyId message.header.ratchetPublicKey message.header.messageNumber = c.cacheId e n := by
    rw [hkey, hnumber]; rfl
  have hid' : skippedKeyId message.header.ratchetPublicKey message.header.messageNumber = c'.cacheId e n := by
    rw [hkey', hnumber]; rfl
  rcases h'.position le parity (by rw [later.onward.sent]; exact sent) untaken' with ⟨entry, hget, _⟩ | ⟨_, hle', hturn'⟩
  · exact Or.inl (by simp [Cached, hid', hget])
  refine Or.inr ?_
  have hpassed := later.onward.passed e
  rcases h.position le parity sent untaken with ⟨_, _, _, _, hlt⟩ | ⟨hget, hle, hturn⟩
  · omega
  rw [catchUpBounded_iff (by simp [Cached, hid, hget])] at bound
  rcases hturn' with rfl | ⟨rfl, rfl⟩
  · cases e with
    | zero =>
      have := h.sent_zero
      omega
    | succ e =>
      have hsame := h'.isNew_iff.mpr hkey'
      have hgap : currentGap next message.header = n - p'.passed (e + 1) := by
        simp [currentGap, hsame, h'.receivingChain, h'.receivedCount, hnumber]
      refine ⟨by simp [previousGap, hsame], ?_⟩
      rw [hgap]
      rcases hturn with rfl | ⟨hme, _⟩
      · have hsame := h.isNew_iff.mpr hkey
        have : currentGap mine message.header = n - p.passed (e + 1) := by
          simp [currentGap, hsame, h.receivingChain, h.receivedCount, hnumber]
        omega
      · rw [hme] at hkey
        have hpeer : peer = me + 1 := by
          have := h.adjacent
          omega
        subst hpeer
        have : currentGap mine message.header = n := by simp [currentGap, h.isNew_newest hkey, hnumber]
        omega
  · have hme : me' = me := by
      rcases later.turn with ⟨_, hme⟩ | ⟨_, hme, _⟩
      · exact hme
      · have := h.adjacent
        omega
    subst hme
    have hnew := h.isNew_newest hkey
    have hnew' := h'.isNew_newest hkey'
    simp only [currentGap, hnew, hnew', ↓reduceIte] at bound ⊢
    refine ⟨?_, bound.2⟩
    rcases me' with _ | _ | me
    · simp [previousGap, h'.receivingChain_none]
    · simp [previousGap, h'.receivingChain_none]
    · have hgap := bound.1
      simp only [previousGap, hnew, hnew', h.receivingChain, h'.receivingChain, h.receivedCount, h'.receivedCount,
        Option.isSome_some, and_self, ↓reduceIte] at hgap ⊢
      have := later.onward.passed (me + 1)
      omega

/-- The message a party would send next is no further ahead of the peer at a later moment. -/
theorem next_bounded_later (h : Synced prim generated c p (me + 1) peer mine theirs)
    (h' : Synced prim generated c' p' me' peer next theirs) {turns : Prop} {fresh : KeyPair K}
    (later : c.Later turns fresh p (me + 1) c' p' me')
    (bound : CatchUpBounded theirs (c.header p (me + 1) (p.sent (me + 1)))) :
    CatchUpBounded theirs (c'.header p' me' (p'.sent me')) := by
  have hs := h.symm
  have hs' := h'.symm
  rcases later.turn with ⟨rfl, rfl⟩ | ⟨_, rfl, _⟩
  · have hheader : c'.header p' (me + 1) (p'.sent (me + 1)) = c'.header p (me + 1) (p.sent (me + 1)) := by
      simp only [header, later.onward.sent, later.previous]
    rwa [hheader]
  have hpeer : peer = me + 2 := by
    have := h.adjacent
    have := h'.adjacent
    omega
  subst hpeer
  have hzero : p'.sent (me + 1 + 2) = 0 := by
    rw [later.onward.sent]
    exact h.unsent _ (by have := h.top; omega)
  have hnew : isNewRatchetKey theirs (c'.header p' (me + 1 + 2) (p'.sent (me + 1 + 2))) = true :=
    hs'.isNew_newest rfl
  refine Or.inr ⟨?_, ?_⟩
  swap
  · simp only [currentGap, hnew, ↓reduceIte]
    simp only [header, hzero, Nat.zero_le]
  have hgap : previousGap theirs (c'.header p' (me + 1 + 2) (p'.sent (me + 1 + 2))) =
      p.sent (me + 1) - p.passed (me + 1) := by
    simp only [previousGap, hnew, hs.receivingChain, hs.receivedCount, Option.isSome_some, and_self, ↓reduceIte]
    simp only [header, Progress.previous, later.onward.sent]
  rw [hgap]
  have hsame : isNewRatchetKey theirs (c.header p (me + 1) (p.sent (me + 1))) = false := hs.isNew_iff.mpr rfl
  rcases bound with hcached | hbound
  · obtain ⟨entry, hentry⟩ := Option.isSome_iff_exists.mp hcached
    obtain ⟨e, n, hlt, hpar, hid, hpassed, _⟩ := hs.mine.cache.sound _ _ hentry
    obtain ⟨rfl, hn⟩ := h.linked.cacheId_inj (e := me + 1) (by have := h.top; omega)
      (by have := h.top; omega) hid
    simp only [header] at hn
    omega
  · have hcurrent := hbound.2
    simp only [currentGap, hsame, hs.receivingChain, hs.receivedCount, Option.isSome_some, Bool.false_eq_true,
      ↓reduceIte] at hcurrent
    exact hcurrent

/-- A message that decrypts without a stray turn still had its key. -/
theorem unspent_of_ok (h : Synced prim generated c p me peer mine theirs) {e n : Nat} {q : Progress}
    {plaintext opened : Bytes} {message : RatchetMessage} {fresh : KeyPair K} (le : e ≤ peer)
    (parity : e % 2 = peer % 2) (hm : c.compose prim q e n plaintext = .ok message)
    (safe : TurnSafe prim mine theirs message.header)
    (ok : (ratchetDecrypt prim fresh mine message).2 = .ok opened) : ¬ p.taken e n := by
  intro ht
  have hlt := h.taken_lt e n ht
  have hadj := h.adjacent
  have htop := h.top
  have hheader := (compose_eq_ok_iff.mp hm).1
  have hnumber : message.header.messageNumber = n := by rw [hheader]; rfl
  have hkey : message.header.ratchetPublicKey = (c.pair e).publicKey := by rw [hheader]; rfl
  have hid : skippedKeyId message.header.ratchetPublicKey message.header.messageNumber = c.cacheId e n := by
    rw [hkey, hnumber]; rfl
  by_cases hlength : message.header.ratchetPublicKey.length = 32
  swap
  · simp [ratchetDecrypt, hlength] at ok
  have huncached : ¬ Cached mine message.header := by
    intro hc
    obtain ⟨entry, hget⟩ := Option.isSome_iff_exists.mp hc
    rw [hid] at hget
    obtain ⟨e', n', hel, hpar, hid', _, htaken, _⟩ := h.mine.cache.sound _ _ hget
    obtain ⟨rfl, rfl⟩ := h.linked.cacheId_inj (by omega) (by omega) hid'
    exact htaken ht
  have hem : e < me := by
    by_contra hge
    have := h.mine.settled.future e (by omega) (by omega)
    omega
  cases me with
  | zero => omega
  | succ me =>
    cases hnew : isNewRatchetKey mine message.header with
    | false =>
      have he : e = me := h.linked.distinct e (by omega) me (by omega) (hkey.symm.trans (h.isNew_iff.mp hnew))
      subst he
      cases e with
      | zero =>
        simp [ratchetDecrypt_current hlength huncached hnew, receiveInChain, skipReceivingKeys_without_chain,
          h.receivingChain_none] at ok
      | succ e =>
        rw [ratchetDecrypt_current hlength huncached hnew, receiveInChain_replay prim h.receiving_succ h.receivingChain
          (by rw [h.receivedCount, hnumber]; exact hlt)] at ok
        simp at ok
    | true =>
      by_cases hturn : (prim.dh mine.sending.secretKey message.header.ratchetPublicKey).isOk = true ∧
          previousGap mine message.header ≤ maxSkipPerChain
      · have hkey' := (safe ⟨hlength, huncached, hnew, hturn⟩).1
        rw [h.symm.sending, hkey] at hkey'
        have he := h.linked.distinct e (by omega) peer (by omega) hkey'
        subst he
        have hcurrent : e = me := by omega
        subst hcurrent
        rw [h.isNew_iff.mpr hkey] at hnew
        simp at hnew
      · obtain ⟨failure, herror⟩ := @Synced.performDhRatchet_error _ _ _ _ _ _ _ _ _ h _ fresh hnew hturn
        simp [ratchetDecrypt_turn_error hlength huncached hnew herror] at ok

/-- A party's next message asks its peer for no turn but the right one. -/
theorem next_turnSafe (h : Synced prim generated c p me peer mine theirs) {q : Progress} {n : Nat}
    (hq : q.previous me = p.previous me) : TurnSafe prim theirs mine (c.header q me n) := by
  intro _
  rw [h.sending, h.previousSentCount]
  exact ⟨rfl, Nat.le_of_eq hq.symm⟩

end Synced

end

end Veil
