import Veil.Synchrony

namespace Veil

section

variable {K : Type} {prim : RatchetPrimitives K} {generated : KeyPair K → Prop}

/-- A later conversation keeps every turn of an earlier one. -/
structure Conversation.Extends (c' c : Conversation K) : Prop where
  top : c.top ≤ c'.top
  pair : ∀ e ≤ c.top, c'.pair e = c.pair e
  rootKey : ∀ e ≤ c.top, c'.rootKey e = c.rootKey e
  chainKey : ∀ e ≤ c.top, c'.chainKey e = c.chainKey e
  associatedData : c'.associatedData = c.associatedData

namespace Conversation

theorem Extends.refl (c : Conversation K) : c.Extends c :=
  ⟨Nat.le_refl _, fun _ _ => rfl, fun _ _ => rfl, fun _ _ => rfl, rfl⟩

theorem extend_extends (c : Conversation K) (fresh : KeyPair K) (step : RootStep K) :
    (c.extend fresh step).Extends c where
  top := Nat.le_succ _
  pair := fun e he => Function.update_of_ne (by omega) _ _
  rootKey := fun e he => Function.update_of_ne (by omega) _ _
  chainKey := fun e he => Function.update_of_ne (by omega) _ _
  associatedData := rfl

theorem Extends.cacheId {c c' : Conversation K} (h : c'.Extends c) {e : Nat} (he : e ≤ c.top) (n : Nat) :
    c'.cacheId e n = c.cacheId e n := by
  simp [Conversation.cacheId, h.pair e he]

theorem Extends.messageKey {c c' : Conversation K} (h : c'.Extends c) {e : Nat} (he : e ≤ c.top) (n : Nat) :
    c'.messageKey prim e n = c.messageKey prim e n := by
  simp [Conversation.messageKey, h.chainKey e he]

theorem Extends.compose {c c' : Conversation K} (h : c'.Extends c) (p : Progress) {e : Nat} (he : e ≤ c.top)
    (n : Nat) (plaintext : Bytes) : c'.compose prim p e n plaintext = c.compose prim p e n plaintext := by
  simp only [Conversation.compose, header, h.pair e he, h.messageKey he, h.associatedData]

theorem Extends.endpoint {c c' : Conversation K} (h : c'.Extends c) (p : Progress)
    (skipped : OrderedMap String (SkippedKey K)) (sequence : Nat) {l : Nat} (hl : l ≤ c.top) :
    c'.endpoint prim p skipped sequence l = c.endpoint prim p skipped sequence l := by
  match l with
  | 0 => simp only [Conversation.endpoint, h.pair 0 hl, h.rootKey 0 hl, h.associatedData]
  | 1 => simp only [Conversation.endpoint, h.pair 0 (by omega), h.pair 1 hl, h.rootKey 1 hl,
      h.chainKey 1 hl, h.associatedData]
  | l + 2 => simp only [Conversation.endpoint, h.pair (l + 1) (by omega), h.pair (l + 2) hl,
      h.rootKey (l + 2) hl, h.chainKey (l + 1) (by omega), h.chainKey (l + 2) hl, h.associatedData]

theorem Cache.extends {c c' : Conversation K} (h : c'.Extends c) {p : Progress} {l : Nat} (hl : l ≤ c.top + 1)
    {skipped : OrderedMap String (SkippedKey K)} (cache : c.Cache prim p l skipped) :
    c'.Cache prim p l skipped := by
  constructor
  · intro id entry hget
    obtain ⟨e, n, hel, hpar, hid, hlt, htaken, hkey⟩ := cache.sound id entry hget
    exact ⟨e, n, hel, hpar, by rw [h.cacheId (by omega), hid], hlt, htaken, by rw [h.messageKey (by omega), hkey]⟩
  · intro e n hel hpar hlt htaken
    rw [h.cacheId (by omega)]
    exact cache.full e n hel hpar hlt htaken

theorem Holds.extends {c c' : Conversation K} (h : c'.Extends c) {p : Progress} {l : Nat} (hl : l ≤ c.top)
    {state : RatchetState K} (holds : c.Holds prim p l state) : c'.Holds prim p l state :=
  ⟨holds.shape.trans (h.endpoint _ _ _ hl).symm, holds.cache.extends h (by omega), holds.settled⟩

/-- Turning leaves the old cache as good as it was: the new chain has no keys passed yet. -/
theorem Cache.turn {c : Conversation K} {p : Progress} {l : Nat} {skipped : OrderedMap String (SkippedKey K)}
    (cache : c.Cache prim p l skipped) (future : p.passed (l + 1) = 0) : c.Cache prim p (l + 2) skipped := by
  constructor
  · intro id entry h
    obtain ⟨e, n, hel, hpar, hid, hlt, htaken, hkey⟩ := cache.sound id entry h
    exact ⟨e, n, by omega, by omega, hid, hlt, htaken, hkey⟩
  · intro e n hel hpar hlt htaken
    have he : e < l := by
      rcases (show e < l ∨ e = l ∨ e = l + 1 by omega) with he | rfl | rfl
      · exact he
      · omega
      · omega
    exact cache.full e n he (by omega) hlt htaken

theorem Linked.extend {c : Conversation K} (linked : c.Linked prim generated) {fresh : KeyPair K}
    (honest : generated fresh) (new : ∀ e ≤ c.top, (c.pair e).publicKey ≠ fresh.publicKey) {s : K}
    (agree : prim.dh (c.pair c.top).secretKey fresh.publicKey = .ok s) :
    (c.extend fresh (prim.advanceRootChain (c.rootKey c.top) s)).Linked prim generated := by
  have ext := c.extend_extends fresh (prim.advanceRootChain (c.rootKey c.top) s)
  constructor
  · intro e he
    rcases (show e < c.top ∨ e = c.top by simp only [Conversation.extend] at he; omega) with hlt | rfl
    · obtain ⟨s', hs, hstep⟩ := linked.link e hlt
      refine ⟨s', ?_, ?_⟩
      · rw [ext.pair e (by omega), ext.pair (e + 1) (by omega), hs]
      · rw [ext.rootKey e (by omega), ext.rootKey (e + 1) (by omega), ext.chainKey (e + 1) (by omega), hstep]
    · refine ⟨s, ?_, ?_⟩
      · rw [ext.pair c.top (Nat.le_refl _)]
        simpa [Conversation.extend] using agree
      · rw [ext.rootKey c.top (Nat.le_refl _)]
        simp [Conversation.extend]
  · intro e he
    rcases (show e ≤ c.top ∨ e = c.top + 1 by simp only [Conversation.extend] at he; omega) with hle | rfl
    · rw [ext.pair e hle]; exact linked.honest e hle
    · simpa [Conversation.extend] using honest
  · have hnew : ((c.extend fresh (prim.advanceRootChain (c.rootKey c.top) s)).pair (c.top + 1)) = fresh := by
      simp [Conversation.extend]
    intro i hi j hj heq
    rcases (show i ≤ c.top ∨ i = c.top + 1 by simp only [Conversation.extend] at hi; omega) with hi | rfl <;>
      rcases (show j ≤ c.top ∨ j = c.top + 1 by simp only [Conversation.extend] at hj; omega) with hj | rfl
    · rw [ext.pair i hi, ext.pair j hj] at heq
      exact linked.distinct i hi j hj heq
    · rw [ext.pair i hi, hnew] at heq
      exact absurd heq (new i hi)
    · rw [ext.pair j hj, hnew] at heq
      exact absurd heq.symm (new j hj)
    · rfl

end Conversation

namespace Synced

open Conversation

variable {c : Conversation K} {p : Progress} {me peer : Nat} {mine theirs : RatchetState K}

theorem encrypt (h : Synced prim generated c p (me + 1) peer mine theirs) (plaintext : Bytes) :
    (ratchetEncrypt prim mine plaintext).2 = c.compose prim p (me + 1) (p.sent (me + 1)) plaintext ∧
      Synced prim generated c (p.send (me + 1)) (me + 1) peer (ratchetEncrypt prim mine plaintext).1 theirs := by
  have hadj := h.adjacent
  have hshape := h.mine.shape
  have heq := @endpoint_encrypt _ prim c p mine.skipped mine.skippedSequence me plaintext
  rw [← hshape] at heq
  rw [heq]
  have hskip : (c.endpoint prim (p.send (me + 1)) mine.skipped mine.skippedSequence (me + 1)).skipped =
      mine.skipped := by cases me <;> rfl
  have hseq : (c.endpoint prim (p.send (me + 1)) mine.skipped mine.skippedSequence (me + 1)).skippedSequence =
      mine.skippedSequence := by cases me <;> rfl
  have sent_ne : ∀ e, e ≠ me + 1 → (p.send (me + 1)).sent e = p.sent e := by
    intro e he
    exact Function.update_of_ne he _ _
  refine ⟨rfl, h.linked, h.adjacent, h.top, ?_, ?_, h.taken_lt, ⟨?_, ?_, ?_⟩, ?_⟩
  · rw [sent_ne 0 (by omega), h.sent_zero]
  · intro e he
    have := h.top
    rw [sent_ne e (by omega), h.unsent e he]
  · rw [hskip, hseq]
  · rw [hskip]; exact h.mine.cache.congr (fun _ _ => rfl) (fun _ _ _ => Iff.rfl)
  · exact ⟨fun e he hpar => by rw [sent_ne e (by omega)]; exact h.mine.settled.closed e he hpar,
      h.mine.settled.future⟩
  · refine h.theirs.congr ?_ (fun _ _ => rfl) (fun _ _ _ => Iff.rfl)
    intro e he
    exact sent_ne e (by omega)

/-- Catching up in the current chain keeps the two ends together; without eviction no key is lost. -/
theorem catchUp (h : Synced prim generated c p (me + 2) peer mine theirs) (n : Nat) :
    ∃ q, p.Onward q ∧ q.passed (me + 1) = p.passed (me + 1) + n ∧
      (mine.skipped.size + n ≤ maxSkippedKeys → q.taken = p.taken) ∧
      Synced prim generated c q (me + 2) peer
        (caughtUp prim mine (c.pair (me + 1)).publicKey
          (chainKeyAfter prim (c.chainKey (me + 1)) (p.passed (me + 1))) n) theirs := by
  have hadj := h.adjacent
  have hshape : caughtUp prim mine (c.pair (me + 1)).publicKey
      (chainKeyAfter prim (c.chainKey (me + 1)) (p.passed (me + 1))) n = _ :=
    (congrArg (fun s => caughtUp prim s _ _ n) h.mine.shape).trans (endpoint_caughtUp c p _ _ me n)
  have passed_ne : ∀ e, e ≠ me + 1 → (p.pass (me + 1) (p.passed (me + 1) + n)).passed e = p.passed e :=
    fun e he => Function.update_of_ne he _ _
  have passed_le := p.passed_le_pass (e := me + 1) (n := p.passed (me + 1) + n) (by omega)
  have hskipped : (caughtUp prim mine (c.pair (me + 1)).publicKey
      (chainKeyAfter prim (c.chainKey (me + 1)) (p.passed (me + 1))) n).skipped =
      rememberChain prim (c.pair (me + 1)).publicKey (chainKeyAfter prim (c.chainKey (me + 1)) (p.passed (me + 1)))
        (p.passed (me + 1)) mine.skippedSequence mine.skipped n := by
    rw [hshape]; rfl
  generalize caughtUp prim mine (c.pair (me + 1)).publicKey
    (chainKeyAfter prim (c.chainKey (me + 1)) (p.passed (me + 1))) n = next at hshape hskipped ⊢
  refine ⟨(p.pass (me + 1) (p.passed (me + 1) + n)).forget c (me + 2) next.skipped,
    ⟨rfl, passed_le, fun _ _ ht => Or.inl ht⟩, by simp [Progress.forget, Progress.pass], ?_, h.linked, h.adjacent, h.top, h.sent_zero, h.unsent, ?_, ⟨?_, ?_, ?_⟩, ?_⟩
  · intro room
    rw [hskipped, (h.mine.cache.catchUp h.taken_lt mine.skippedSequence room).forget_eq]
    rfl
  · rintro e m (ht | ⟨_, _, hlt, _⟩)
    · exact Nat.lt_of_lt_of_le (h.taken_lt e m ht) (passed_le e)
    · exact hlt
  · rw [hshape]; rfl
  · apply Cache.forget
    rw [hskipped]
    intro id entry hget
    exact h.mine.cache.catchUp_sound h.taken_lt mine.skippedSequence n hget
  · refine ⟨?_, ?_⟩
    · intro e he hpar
      exact Nat.le_trans (h.mine.settled.closed e he hpar) (passed_le e)
    · intro e he hpar
      exact (passed_ne e (by omega)).trans (h.mine.settled.future e he hpar)
  · refine h.theirs.congr (fun _ _ => rfl) (fun e he => passed_ne e (by omega)) ?_
    intro e m hpar
    refine ⟨?_, Or.inl⟩
    rintro (ht | ⟨_, hne, _, _⟩)
    · exact ht
    · omega

theorem readNext (h : Synced prim generated c p (me + 2) peer mine theirs) :
    Synced prim generated c ((p.pass (me + 1) (p.passed (me + 1) + 1)).take (me + 1) (p.passed (me + 1)))
      (me + 2) peer
      { mine with
        receivingChainKey := some (chainKeyAfter prim (c.chainKey (me + 1)) (p.passed (me + 1) + 1))
        receivedCount := p.passed (me + 1) + 1 } theirs := by
  have hadj := h.adjacent
  have passed_ne : ∀ e, e ≠ me + 1 → ((p.pass (me + 1) (p.passed (me + 1) + 1)).take (me + 1)
      (p.passed (me + 1))).passed e = p.passed e := fun e he => Function.update_of_ne he _ _
  have passed_self : ((p.pass (me + 1) (p.passed (me + 1) + 1)).take (me + 1)
      (p.passed (me + 1))).passed (me + 1) = p.passed (me + 1) + 1 := Function.update_self _ _ _
  refine ⟨h.linked, h.adjacent, h.top, h.sent_zero, h.unsent, ?_, ⟨?_, h.mine.cache.readNext, ?_⟩, ?_⟩
  · rintro e n (⟨rfl, rfl⟩ | ht)
    · rw [passed_self]; omega
    · have := h.taken_lt e n ht
      by_cases he : e = me + 1
      · subst he; rw [passed_self]; omega
      · rw [passed_ne e he]; exact this
  · have hs := h.mine.shape
    simp only [endpoint] at hs ⊢
    rw [hs]
    simp [Progress.take, Progress.pass]
  · refine ⟨?_, ?_⟩
    · intro e he hpar
      rw [passed_ne e (by omega)]
      exact h.mine.settled.closed e he hpar
    · intro e he hpar
      rw [passed_ne e (by omega)]
      exact h.mine.settled.future e he hpar
  · refine h.theirs.congr (fun _ _ => rfl) (fun e he => passed_ne e (by omega)) ?_
    intro e n hpar
    refine ⟨?_, Or.inr⟩
    rintro (⟨rfl, _⟩ | ht)
    · omega
    · exact ht

theorem readCached (h : Synced prim generated c p me peer mine theirs) {e n : Nat} (he : e < me)
    (parity : e % 2 ≠ me % 2) (passed : n < p.passed e) :
    Synced prim generated c (p.take e n) me peer
      { mine with skipped := mine.skipped.delete (c.cacheId e n) } theirs := by
  have hadj := h.adjacent
  have htop := h.top
  refine ⟨h.linked, h.adjacent, h.top, h.sent_zero, h.unsent, ?_, ⟨?_, ?_, ?_⟩, ?_⟩
  · rintro e' n' (⟨rfl, rfl⟩ | ht)
    · exact passed
    · exact h.taken_lt e' n' ht
  · have hs := h.mine.shape
    match me with
    | 0 => simp only [endpoint] at hs ⊢; rw [hs]
    | 1 => simp only [endpoint] at hs ⊢; rw [hs]; rfl
    | me + 2 => simp only [endpoint] at hs ⊢; rw [hs]; rfl
  · exact h.mine.cache.delete h.linked (by omega) he
  · exact ⟨h.mine.settled.closed, h.mine.settled.future⟩
  · refine h.theirs.congr (fun _ _ => rfl) (fun _ _ => rfl) ?_
    intro e' n' hpar
    refine ⟨?_, Or.inr⟩
    rintro (⟨rfl, _⟩ | ht)
    · omega
    · exact ht

/-- The state a party is in once it has answered the peer's newest turn with a fresh pair. -/
theorem turn (lawful : prim.Lawful generated)
    (h : Synced prim generated c p me (me + 1) mine theirs)
    (closed : ∀ e, e + 1 = me → p.sent e ≤ p.passed e)
    {fresh : KeyPair K} (honest : generated fresh)
    (new : ∀ e ≤ c.top, (c.pair e).publicKey ≠ fresh.publicKey) :
    ∃ receivingDh sendingDh, prim.dh (c.pair me).secretKey (c.pair (me + 1)).publicKey = .ok receivingDh ∧
      prim.dh fresh.secretKey (c.pair (me + 1)).publicKey = .ok sendingDh ∧
      Synced prim generated (c.extend fresh (prim.advanceRootChain (c.rootKey (me + 1)) sendingDh)) p
        (me + 2) (me + 1)
        (turned prim fresh mine (c.pair (me + 1)).publicKey receivingDh sendingDh) theirs := by
  have htop : c.top = me + 1 := by have := h.top; omega
  obtain ⟨receivingDh, hreceive, hstep⟩ := h.linked.link me (by omega)
  obtain ⟨sendingDh, hsend, hagree⟩ := lawful.dh_agree fresh (c.pair (me + 1)) honest
    (h.linked.honest (me + 1) (by omega))
  refine ⟨receivingDh, sendingDh, hreceive, hsend, ?_⟩
  have hlinked := h.linked.extend honest new (s := sendingDh) (by rw [htop]; exact hagree)
  rw [htop] at hlinked
  have ext := c.extend_extends fresh (prim.advanceRootChain (c.rootKey (me + 1)) sendingDh)
  have hunsent : p.sent (me + 2) = 0 := h.unsent (me + 2) (by omega)
  have hfuture : p.passed (me + 1) = 0 := h.mine.settled.future (me + 1) (by omega) (by omega)
  have hsame : (turned prim fresh mine (c.pair (me + 1)).publicKey receivingDh sendingDh).skipped = mine.skipped :=
    rfl
  refine ⟨hlinked, Or.inl rfl, ?_, h.sent_zero, ?_, h.taken_lt, ⟨?_, ?_, ?_⟩, h.theirs.extends ext (by omega)⟩
  · simp only [Conversation.extend]; omega
  · intro e he
    exact h.unsent e (by simp only [Conversation.extend] at he; omega)
  · have hsent : mine.sentCount = p.sent me := by
      rw [h.mine.shape]
      match me with
      | 0 => exact h.sent_zero.symm
      | 1 => rfl
      | me + 2 => rfl
    have hroot : mine.rootKey = c.rootKey me := by
      rw [h.mine.shape]
      match me with
      | 0 => rfl
      | 1 => rfl
      | me + 2 => rfl
    have had : mine.associatedData = c.associatedData := by
      rw [h.mine.shape]
      match me with
      | 0 => rfl
      | 1 => rfl
      | me + 2 => rfl
    have hne : me + 1 ≠ me + 2 := by omega
    simp only [turned, endpoint, hroot, hstep, hsent, had, hunsent, hfuture, Conversation.extend, htop,
      Function.update_self, Function.update_of_ne hne, chainKeyAfter_zero]
  · rw [hsame]
    exact (h.mine.cache.turn hfuture).extends ext (by omega)
  · refine ⟨?_, ?_⟩
    · intro e he hpar
      rcases (show e + 1 = me ∨ e + 3 ≤ me by omega) with he' | he'
      · exact closed e he'
      · exact h.mine.settled.closed e he' (by omega)
    · intro e he hpar
      exact h.mine.settled.future e (by omega) (by omega)

end Synced

end

end Veil
