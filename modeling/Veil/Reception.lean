import Veil.Delivery

namespace Veil

section

variable {K : Type} {prim : RatchetPrimitives K} {generated : KeyPair K → Prop}

/-- A later moment of the same conversation in which nothing more was sent: the party at `me` may have
passed further keys, and may have turned with the pair `fresh` if the message it handled asks for that. -/
structure Conversation.Later (turns : Prop) (fresh : KeyPair K) (c : Conversation K) (p : Progress) (me : Nat)
    (c' : Conversation K) (p' : Progress) (me' : Nat) : Prop where
  onward : p.Onward p'
  turn : (c' = c ∧ me' = me) ∨ (turns ∧ me' = me + 2 ∧ ∃ step, c' = c.extend fresh step)

theorem Conversation.Later.ext {turns : Prop} {fresh : KeyPair K} {c c' : Conversation K} {p p' : Progress}
    {me me' : Nat} (h : c.Later turns fresh p me c' p' me') : c'.Extends c := by
  rcases h.turn with ⟨rfl, _⟩ | ⟨_, _, step, rfl⟩
  · exact Extends.refl _
  · exact c.extend_extends fresh step

namespace Conversation

theorem compose_congr {c : Conversation K} {p q : Progress} {e : Nat} (h : q.previous e = p.previous e) (n : Nat)
    (plaintext : Bytes) : c.compose prim q e n plaintext = c.compose prim p e n plaintext := by
  simp only [compose, header, h]

theorem Later.previous {turns : Prop} {fresh : KeyPair K} {c c' : Conversation K} {p p' : Progress} {me me' : Nat}
    (h : c.Later turns fresh p me c' p' me') (e : Nat) : p'.previous e = p.previous e := by
  match e with
  | 0 => rfl
  | 1 => rfl
  | e + 2 => simp only [Progress.previous, h.onward.sent]

theorem Later.compose {turns : Prop} {fresh : KeyPair K} {c c' : Conversation K} {p p' : Progress} {me me' : Nat}
    (h : c.Later turns fresh p me c' p' me') {e : Nat}
    (he : e ≤ c.top) (n : Nat) (plaintext : Bytes) :
    c'.compose prim p' e n plaintext = c.compose prim p e n plaintext := by
  rw [h.ext.compose p' he, compose_congr (h.previous e)]

theorem Later.le {turns : Prop} {fresh : KeyPair K} {c c' : Conversation K} {p p' : Progress} {me me' : Nat}
    (h : c.Later turns fresh p me c' p' me') : me ≤ me' ∧ me' % 2 = me % 2 := by
  rcases h.turn with ⟨_, rfl⟩ | ⟨_, rfl, _⟩ <;> omega

theorem Later.drawn {turns : Prop} {fresh : KeyPair K} {c c' : Conversation K} {p p' : Progress} {me me' : Nat}
    (h : c.Later turns fresh p me c' p' me') {e : Nat} (hlt : c.top < e) (hle : e ≤ c'.top) :
    turns ∧ c'.pair e = fresh := by
  rcases h.turn with ⟨rfl, _⟩ | ⟨hturns, _, step, rfl⟩
  · omega
  · have he : e = c.top + 1 := by
      simp only [extend] at hle
      omega
    exact ⟨hturns, by simp [extend, he]⟩

end Conversation

theorem Progress.previous_send (p : Progress) {e e' : Nat} (h : e' ≠ e + 2) :
    (p.send e).previous e' = p.previous e' := by
  match e' with
  | 0 => rfl
  | 1 => rfl
  | e' + 2 => exact Function.update_of_ne (by omega) _ _

/-- The fresh pair of a call is honestly generated and was never used before. -/
structure Conversation.Fresh (generated : KeyPair K → Prop) (c : Conversation K) (fresh : KeyPair K) : Prop where
  honest : generated fresh
  new : ∀ e ≤ c.top, (c.pair e).publicKey ≠ fresh.publicKey

namespace Synced

open Conversation

variable {c : Conversation K} {p : Progress} {me peer : Nat} {mine theirs : RatchetState K}

theorem catchUpBounded_iff {header : RatchetHeader} (uncached : ¬ Cached mine header) :
    CatchUpBounded mine header ↔
      previousGap mine header ≤ maxSkipPerChain ∧ currentGap mine header ≤ maxSkipPerChain := by
  simp [CatchUpBounded, uncached]

theorem cacheHasRoom_iff {header : RatchetHeader} (uncached : ¬ Cached mine header) :
    CacheHasRoom mine header ↔
      mine.skipped.size + previousGap mine header + currentGap mine header ≤ maxSkippedKeys := by
  simp [CacheHasRoom, uncached]

theorem dh_newest (h : Synced prim generated c p me (me + 1) mine theirs) :
    (prim.dh mine.sending.secretKey (c.pair (me + 1)).publicKey).isOk = true := by
  obtain ⟨receivingDh, hreceive, _⟩ := h.linked.link me (by have := h.top; omega)
  rw [h.sending, hreceive]
  rfl

/-- A turn onto the peer's newest key, up to the receiving chain of that key. -/
theorem turnChain (lawful : prim.Lawful generated) (h : Synced prim generated c p me (me + 1) mine theirs)
    {header : RatchetHeader} (hk : header.ratchetPublicKey = (c.pair (me + 1)).publicKey)
    (turns : StartsTurn prim mine header) {fresh : KeyPair K} (hf : c.Fresh generated fresh) :
    ∃ next, performDhRatchet prim fresh mine header = (next, .ok ()) ∧
      next.receiving = some (c.pair (me + 1)).publicKey ∧
      next.receivingChainKey = some (c.chainKey (me + 1)) ∧ next.receivedCount = 0 ∧
      next.associatedData = c.associatedData ∧
      next.skipped.size ≤ mine.skipped.size + previousGap mine header ∧
      (p.previous (me + 1) ≤ header.previousChainLength →
        ∃ c' p', c.Later (StartsTurn prim mine header) fresh p me c' p' (me + 2) ∧
          (mine.skipped.size + previousGap mine header ≤ maxSkippedKeys → p'.taken = p.taken) ∧
          Synced prim generated c' p' (me + 2) (me + 1) next theirs) := by
  have hnew := h.isNew_newest hk
  have bound := turns.2.2.2.2
  have hgap : previousGap mine header =
      if mine.receivingChainKey.isSome then header.previousChainLength - mine.receivedCount else 0 := by
    simp [previousGap, hnew]
  rw [hgap] at bound ⊢
  obtain ⟨receivingDh, hreceive, hstep⟩ := h.linked.link me (by have := h.top; omega)
  obtain ⟨sendingDh, hsend, _⟩ := lawful.dh_agree fresh (c.pair (me + 1)) hf.honest
    (h.linked.honest (me + 1) (by have := h.top; omega))
  obtain ⟨closed, hskip, hroot, had, hsize, q, honward, hclosed, htaken, hq⟩ := h.close (by
    intro hsome
    simpa [hsome] using bound)
  have hmine : mine.rootKey = c.rootKey me := by
    rw [h.mine.shape]
    match me with
    | 0 => rfl
    | 1 => rfl
    | me + 2 => rfl
  refine ⟨turned prim fresh closed header.ratchetPublicKey receivingDh sendingDh, ?_, ?_, ?_, rfl, ?_, hsize, ?_⟩
  · exact performDhRatchet_eq prim (by rw [h.sending, hk]; exact hreceive) hskip (by rw [hk]; exact hsend)
  · simp [turned, hk]
  · simp [turned, hroot, hmine, hstep]
  · simp only [turned, had, h.associatedData]
  · intro reaches
    obtain ⟨receivingDh', sendingDh', hreceive', hsend', hturn⟩ := hq.turn lawful (by
      intro e he
      rw [honward.sent]
      rcases hclosed e he with rfl | hle
      · rw [h.sent_zero]; omega
      · subst he
        exact Nat.le_trans reaches hle) hf.honest hf.new
    have heq : receivingDh' = receivingDh := Except.ok.inj (hreceive'.symm.trans hreceive)
    have heq' : sendingDh' = sendingDh := Except.ok.inj (hsend'.symm.trans hsend)
    subst heq heq'
    rw [hk]
    exact ⟨_, q, ⟨honward, Or.inr ⟨turns, rfl, _, rfl⟩⟩, htaken, hturn⟩

/-- A genuine message its receiver has not read yet decrypts to what was sealed. -/
theorem receive (lawful : prim.Lawful generated) (h : Synced prim generated c p me peer mine theirs) {e n : Nat}
    {plaintext : Bytes} {message : RatchetMessage} (le : e ≤ peer) (parity : e % 2 = peer % 2)
    (sent : n < p.sent e) (untaken : ¬ p.taken e n) (hm : c.compose prim p e n plaintext = .ok message)
    (bound : CatchUpBounded mine message.header) {fresh : KeyPair K}
    (hf : StartsTurn prim mine message.header → c.Fresh generated fresh) :
    (ratchetDecrypt prim fresh mine message).2 = .ok plaintext ∧
      ∃ c' p' me', c.Later (StartsTurn prim mine message.header) fresh p me c' p' me' ∧ p'.taken e n ∧
        (CacheHasRoom mine message.header → p'.taken = (p.take e n).taken) ∧
        Synced prim generated c' p' me' peer (ratchetDecrypt prim fresh mine message).1 theirs := by
  have hheader := (compose_eq_ok_iff.mp hm).1
  have hkey : message.header.ratchetPublicKey = (c.pair e).publicKey := by rw [hheader]; rfl
  have hnumber : message.header.messageNumber = n := by rw [hheader]; rfl
  have htop := h.top
  have hlength : message.header.ratchetPublicKey.length = 32 := by
    rw [hkey]
    exact lawful.publicKey_length _ (h.linked.honest e (by omega))
  have hid : skippedKeyId message.header.ratchetPublicKey message.header.messageNumber = c.cacheId e n := by
    rw [hkey, hnumber]; rfl
  rcases h.position le parity sent untaken with ⟨entry, hget, hentry, hlt, hpassed⟩ | ⟨hget, hle, hturn⟩
  · have hopen : openWith prim entry.messageKey mine.associatedData message = .ok plaintext := by
      rw [hentry, h.associatedData]
      exact openWith_compose lawful hm
    rw [ratchetDecrypt_cached hlength (by rw [hid]; exact hget) hopen, hid]
    have hadj := h.adjacent
    exact ⟨rfl, c, p.take e n, me, ⟨⟨rfl, fun _ => Nat.le_refl _, fun _ _ => Or.inr⟩, Or.inl ⟨rfl, rfl⟩⟩,
      Or.inl ⟨rfl, rfl⟩, fun _ => rfl, h.readCached hlt (by omega) hpassed⟩
  have huncached : ¬ Cached mine message.header := by simp [Cached, hid, hget]
  rw [catchUpBounded_iff huncached] at bound
  rw [cacheHasRoom_iff huncached]
  rcases hturn with rfl | ⟨rfl, rfl⟩
  · cases e with
    | zero =>
      have := h.sent_zero
      omega
    | succ e =>
      have hsame := h.isNew_iff.mpr hkey
      have hgap : currentGap mine message.header = n - p.passed (e + 1) := by
        simp [currentGap, hsame, h.receivingChain, h.receivedCount, hnumber]
      rw [ratchetDecrypt_current hlength huncached hsame]
      obtain ⟨hok, p', honward, hread, htaken, hsynced⟩ := h.inChain lawful hle hm (by omega)
      exact ⟨hok, c, p', e + 1 + 1, ⟨honward, Or.inl ⟨rfl, rfl⟩⟩, hread, fun room => htaken (by omega), hsynced⟩
  · have hnew := h.isNew_newest hkey
    have hgap : currentGap mine message.header = n := by simp [currentGap, hnew, hnumber]
    have hdh := h.dh_newest
    rw [← hkey] at hdh
    have hturns : StartsTurn prim mine message.header := ⟨hlength, huncached, hnew, hdh, bound.1⟩
    obtain ⟨next, hturned, hr, hc, hcount, had, hsize, hsynced⟩ :=
      h.turnChain lawful hkey hturns (hf hturns)
    rw [ratchetDecrypt_turned hlength huncached hnew hturned]
    have hopen : openWith prim (messageKeyAfter prim (c.chainKey (me + 1))
        (message.header.messageNumber - next.receivedCount)) next.associatedData message = .ok plaintext := by
      rw [hnumber, hcount, had]
      exact openWith_compose lawful hm
    refine ⟨by rw [receiveInChain_opens prim hr hc (by omega) (by omega) hopen], ?_⟩
    have hprevious : message.header.previousChainLength = p.previous (me + 1) := by rw [hheader]; rfl
    obtain ⟨c', q, hlater, htaken, hq⟩ := hsynced (by omega)
    have hzero : q.passed (me + 1) = 0 := by rw [← hq.receivedCount, hcount]
    have hm' : c'.compose prim p (me + 1) n plaintext = .ok message := by
      rw [hlater.ext.compose p (by omega)]
      exact hm
    obtain ⟨_, p', honward, hread, htaken', hp'⟩ := hq.inChain lawful (n := n) (by omega) hm' (by omega)
    refine ⟨c', p', me + 2, ⟨hlater.onward.trans honward, hlater.turn⟩, hread, ?_, hp'⟩
    intro room
    rw [htaken' (by omega)]
    simp only [Progress.take, htaken (by omega)]

end Synced

end

end Veil
