import Mathlib
import Veil.Conversation

namespace Veil

section

variable {K : Type}

def Cached (state : RatchetState K) (header : RatchetHeader) : Prop :=
  (state.skipped.get? (skippedKeyId header.ratchetPublicKey header.messageNumber)).isSome

instance (state : RatchetState K) (header : RatchetHeader) : Decidable (Cached state header) :=
  inferInstanceAs (Decidable (_ = true))

/-- Keys a message needs from the chain its ratchet key closes. -/
def previousGap (state : RatchetState K) (header : RatchetHeader) : Nat :=
  if state.receivingChainKey.isSome ∧ isNewRatchetKey state header then
    header.previousChainLength - state.receivedCount
  else 0

/-- Keys a message needs from the chain it belongs to. -/
def currentGap (state : RatchetState K) (header : RatchetHeader) : Nat :=
  if isNewRatchetKey state header then header.messageNumber
  else if state.receivingChainKey.isSome then header.messageNumber - state.receivedCount
  else 0

def CatchUpBounded (state : RatchetState K) (header : RatchetHeader) : Prop :=
  Cached state header ∨
    (previousGap state header ≤ maxSkipPerChain ∧ currentGap state header ≤ maxSkipPerChain)

def CacheHasRoom (state : RatchetState K) (header : RatchetHeader) : Prop :=
  Cached state header ∨
    state.skipped.size + previousGap state header + currentGap state header ≤ maxSkippedKeys

/-- The header makes `ratchetDecrypt` complete a DH ratchet step. -/
def StartsTurn (prim : RatchetPrimitives K) (state : RatchetState K) (header : RatchetHeader) : Prop :=
  header.ratchetPublicKey.length = 32 ∧ ¬ Cached state header ∧ isNewRatchetKey state header = true ∧
    (prim.dh state.sending.secretKey header.ratchetPublicKey).isOk = true ∧
    previousGap state header ≤ maxSkipPerChain

instance (prim : RatchetPrimitives K) (state : RatchetState K) (header : RatchetHeader) :
    Decidable (StartsTurn prim state header) := inferInstanceAs (Decidable (_ ∧ _ ∧ _ ∧ _ ∧ _))

/-- Keys that `ratchetDecrypt` puts in the cache for a header before it has authenticated anything. -/
def derivedUnauthenticated (prim : RatchetPrimitives K) (state : RatchetState K) (header : RatchetHeader) : Nat :=
  (if StartsTurn prim state header then previousGap state header else 0) +
    (if (isNewRatchetKey state header = true → StartsTurn prim state header) ∧
        currentGap state header ≤ maxSkipPerChain then currentGap state header else 0)

/-- A turn the header makes is the one the peer's newest key calls for, closing the old chain no earlier
than the peer does. -/
def TurnSafe (prim : RatchetPrimitives K) (mine theirs : RatchetState K) (header : RatchetHeader) : Prop :=
  StartsTurn prim mine header → header.ratchetPublicKey = theirs.sending.publicKey ∧
    theirs.previousSentCount ≤ header.previousChainLength

/-- The keys derived for the header leave every cached key in place. -/
def EvictsNothing (prim : RatchetPrimitives K) (state : RatchetState K) (header : RatchetHeader) : Prop :=
  header.ratchetPublicKey.length = 32 → ¬ Cached state header →
    state.skipped.size + derivedUnauthenticated prim state header ≤ maxSkippedKeys

instance (state : RatchetState K) (header : RatchetHeader) : Decidable (CatchUpBounded state header) :=
  inferInstanceAs (Decidable (_ ∨ _))

instance (state : RatchetState K) (header : RatchetHeader) : Decidable (CacheHasRoom state header) :=
  inferInstanceAs (Decidable (_ ∨ _))

end

section

variable {K : Type} {prim : RatchetPrimitives K} {generated : KeyPair K → Prop}

/-- The cache of the party at turn `l` holds exactly the keys passed over and not yet used. -/
structure Conversation.Cache (prim : RatchetPrimitives K) (c : Conversation K) (p : Progress) (l : Nat)
    (skipped : OrderedMap String (SkippedKey K)) : Prop where
  sound : ∀ id entry, skipped.get? id = some entry → ∃ e n, e < l ∧ e % 2 ≠ l % 2 ∧
    id = c.cacheId e n ∧ n < p.passed e ∧ ¬ p.taken e n ∧ entry.messageKey = c.messageKey prim e n
  full : ∀ e n, e < l → e % 2 ≠ l % 2 → n < p.passed e → ¬ p.taken e n →
    (skipped.get? (c.cacheId e n)).isSome

/-- Closed chains were passed to their end and later ones are untouched. -/
structure Progress.Settled (p : Progress) (l : Nat) : Prop where
  closed : ∀ e, e + 3 ≤ l → e % 2 ≠ l % 2 → p.sent e ≤ p.passed e
  future : ∀ e, l ≤ e → e % 2 ≠ l % 2 → p.passed e = 0

structure Conversation.Holds (prim : RatchetPrimitives K) (c : Conversation K) (p : Progress) (l : Nat)
    (state : RatchetState K) : Prop where
  shape : state = c.endpoint prim p state.skipped state.skippedSequence l
  cache : c.Cache prim p l state.skipped
  settled : p.Settled l

/-- Two ratchet states are the ends of one conversation: `mine` at turn `me`, `theirs` at turn `peer`. -/
structure Synced (prim : RatchetPrimitives K) (generated : KeyPair K → Prop) (c : Conversation K)
    (p : Progress) (me peer : Nat) (mine theirs : RatchetState K) : Prop where
  linked : c.Linked prim generated
  adjacent : me = peer + 1 ∨ peer = me + 1
  top : c.top = max me peer
  sent_zero : p.sent 0 = 0
  unsent : ∀ e, c.top < e → p.sent e = 0
  taken_lt : ∀ e n, p.taken e n → n < p.passed e
  mine : c.Holds prim p me mine
  theirs : c.Holds prim p peer theirs

theorem Synced.symm {c : Conversation K} {p : Progress} {me peer : Nat} {mine theirs : RatchetState K}
    (h : Synced prim generated c p me peer mine theirs) :
    Synced prim generated c p peer me theirs mine :=
  ⟨h.linked, h.adjacent.symm, by rw [h.top, max_comm], h.sent_zero, h.unsent, h.taken_lt, h.theirs, h.mine⟩

theorem Progress.passed_le_pass (p : Progress) {e n : Nat} (h : p.passed e ≤ n) (e' : Nat) :
    p.passed e' ≤ (p.pass e n).passed e' := by
  by_cases he : e' = e
  · subst he
    simpa [Progress.pass] using h
  · simp [Progress.pass, Function.update_of_ne he]

/-- `q` is a later moment than `p` with nothing more sent. -/
structure Progress.Onward (p q : Progress) : Prop where
  sent : q.sent = p.sent
  passed : ∀ e, p.passed e ≤ q.passed e
  taken : ∀ e n, p.taken e n → q.taken e n

theorem Progress.Onward.refl (p : Progress) : p.Onward p :=
  ⟨rfl, fun _ => Nat.le_refl _, fun _ _ h => h⟩

theorem Progress.Onward.trans {p q r : Progress} (h : p.Onward q) (h' : q.Onward r) : p.Onward r :=
  ⟨h'.sent.trans h.sent, fun e => Nat.le_trans (h.passed e) (h'.passed e), fun e n ht => h'.taken e n (h.taken e n ht)⟩

def Progress.forget (p : Progress) (c : Conversation K) (l : Nat) (skipped : OrderedMap String (SkippedKey K)) :
    Progress :=
  { p with
    taken := fun e n => p.taken e n ∨
      (e < l ∧ e % 2 ≠ l % 2 ∧ n < p.passed e ∧ skipped.get? (c.cacheId e n) = none) }

namespace Conversation

theorem chainKey_rest (c : Conversation K) (e m n : Nat) :
    messageKeyAfter prim (chainKeyAfter prim (c.chainKey e) m) n = c.messageKey prim e (m + n) := by
  simp only [messageKey, messageKeyAfter, chainKeyAfter_add]

theorem endpoint_caughtUp (c : Conversation K) (p : Progress) (skipped : OrderedMap String (SkippedKey K))
    (sequence l n : Nat) :
    caughtUp prim (c.endpoint prim p skipped sequence (l + 2)) (c.pair (l + 1)).publicKey
        (chainKeyAfter prim (c.chainKey (l + 1)) (p.passed (l + 1))) n =
      c.endpoint prim (p.pass (l + 1) (p.passed (l + 1) + n))
        (rememberChain prim (c.pair (l + 1)).publicKey
          (chainKeyAfter prim (c.chainKey (l + 1)) (p.passed (l + 1))) (p.passed (l + 1)) sequence skipped n)
        (sequence + n) (l + 2) := by
  simp [caughtUp, endpoint, Progress.pass, chainKeyAfter_add]

theorem Cache.catchUp_sound {c : Conversation K} {p : Progress} {l : Nat}
    {skipped : OrderedMap String (SkippedKey K)} (cache : c.Cache prim p (l + 2) skipped)
    (taken_lt : ∀ e n, p.taken e n → n < p.passed e) (sequence n : Nat) {id : String} {entry : SkippedKey K}
    (h : (rememberChain prim (c.pair (l + 1)).publicKey (chainKeyAfter prim (c.chainKey (l + 1)) (p.passed (l + 1)))
      (p.passed (l + 1)) sequence skipped n).get? id = some entry) :
    ∃ e m, e < l + 2 ∧ e % 2 ≠ (l + 2) % 2 ∧ id = c.cacheId e m ∧
      m < (p.pass (l + 1) (p.passed (l + 1) + n)).passed e ∧ ¬ p.taken e m ∧
      entry.messageKey = c.messageKey prim e m := by
  rcases rememberChain_sound prim _ _ _ _ h with hold | ⟨i, hi, hid, hentry⟩
  · obtain ⟨e, m, hel, hpar, hid, hlt, htaken, hkey⟩ := cache.sound id entry hold
    exact ⟨e, m, hel, hpar, hid, Nat.lt_of_lt_of_le hlt (p.passed_le_pass (by omega) e), htaken, hkey⟩
  · refine ⟨l + 1, p.passed (l + 1) + i, by omega, by omega, hid, by simp [Progress.pass, hi], ?_, ?_⟩
    · intro ht
      have := taken_lt _ _ ht
      omega
    · rw [hentry, chainKey_rest]

theorem Cache.catchUp {c : Conversation K} {p : Progress} {l : Nat}
    {skipped : OrderedMap String (SkippedKey K)} (cache : c.Cache prim p (l + 2) skipped)
    (taken_lt : ∀ e n, p.taken e n → n < p.passed e) (sequence : Nat) {n : Nat}
    (room : skipped.size + n ≤ maxSkippedKeys) :
    c.Cache prim (p.pass (l + 1) (p.passed (l + 1) + n)) (l + 2)
      (rememberChain prim (c.pair (l + 1)).publicKey
        (chainKeyAfter prim (c.chainKey (l + 1)) (p.passed (l + 1))) (p.passed (l + 1)) sequence skipped n) where
  sound := fun _ _ h => cache.catchUp_sound taken_lt sequence n h
  full := by
    intro e m hel hpar hlt htaken
    rcases rememberChain_get? prim (c.pair (l + 1)).publicKey
      (chainKeyAfter prim (c.chainKey (l + 1)) (p.passed (l + 1))) (p.passed (l + 1)) sequence room
      (c.cacheId e m) with ⟨hget, hne⟩ | ⟨i, hi, hid, hget⟩
    · rw [hget]
      apply cache.full e m hel hpar _ htaken
      by_cases he : e = l + 1
      · subst he
        by_contra hge
        simp only [Progress.pass, Function.update_self] at hlt
        have hm : p.passed (l + 1) + (m - p.passed (l + 1)) = m := by omega
        exact hne (m - p.passed (l + 1)) (by omega) (by rw [hm]; rfl)
      · simpa [Progress.pass, Function.update_of_ne he] using hlt
    · simp [hget]

/-- Keys that were passed and are not in the cache are gone: read, or evicted. -/
theorem Cache.forget {c : Conversation K} {p : Progress} {l : Nat} {skipped : OrderedMap String (SkippedKey K)}
    (sound : ∀ id entry, skipped.get? id = some entry → ∃ e n, e < l ∧ e % 2 ≠ l % 2 ∧
      id = c.cacheId e n ∧ n < p.passed e ∧ ¬ p.taken e n ∧ entry.messageKey = c.messageKey prim e n) :
    c.Cache prim (p.forget c l skipped) l skipped where
  sound := by
    intro id entry h
    obtain ⟨e, n, hel, hpar, hid, hlt, htaken, hkey⟩ := sound id entry h
    refine ⟨e, n, hel, hpar, hid, hlt, ?_, hkey⟩
    rintro (ht | ⟨_, _, _, hnone⟩)
    · exact htaken ht
    · simp [← hid, h] at hnone
  full := by
    intro e n hel hpar hlt htaken
    by_contra hnone
    exact htaken (Or.inr ⟨hel, hpar, hlt, by simpa using hnone⟩)

theorem Cache.forget_eq {c : Conversation K} {p : Progress} {l : Nat} {skipped : OrderedMap String (SkippedKey K)}
    (cache : c.Cache prim p l skipped) : p.forget c l skipped = p := by
  have htaken : (p.forget c l skipped).taken = p.taken := by
    funext e n
    refine propext ⟨?_, Or.inl⟩
    rintro (ht | ⟨hel, hpar, hlt, hnone⟩)
    · exact ht
    · by_contra ht
      have := cache.full e n hel hpar hlt ht
      simp [hnone] at this
  exact congrArg (fun taken => { p with taken }) htaken

theorem Cache.congr {c : Conversation K} {p q : Progress} {l : Nat}
    {skipped : OrderedMap String (SkippedKey K)} (cache : c.Cache prim p l skipped)
    (passed : ∀ e, e % 2 ≠ l % 2 → q.passed e = p.passed e)
    (taken : ∀ e n, e % 2 ≠ l % 2 → (q.taken e n ↔ p.taken e n)) : c.Cache prim q l skipped := by
  constructor
  · intro id entry h
    obtain ⟨e, n, hel, hpar, hid, hlt, htaken, hkey⟩ := cache.sound id entry h
    exact ⟨e, n, hel, hpar, hid, by rw [passed e hpar]; exact hlt, by rw [taken e n hpar]; exact htaken, hkey⟩
  · intro e n hel hpar hlt htaken
    exact cache.full e n hel hpar (by rw [← passed e hpar]; exact hlt) (by rw [← taken e n hpar]; exact htaken)

theorem Cache.delete {c : Conversation K} (linked : c.Linked prim generated) {p : Progress} {l e n : Nat}
    {skipped : OrderedMap String (SkippedKey K)} (cache : c.Cache prim p l skipped) (hl : l ≤ c.top)
    (he : e < l) : c.Cache prim (p.take e n) l (skipped.delete (c.cacheId e n)) := by
  constructor
  · intro id entry h
    rw [OrderedMap.get?_delete] at h
    split at h
    next => simp at h
    next hne =>
      obtain ⟨e', n', hel, hpar, hid, hlt, htaken, hkey⟩ := cache.sound id entry h
      refine ⟨e', n', hel, hpar, hid, hlt, ?_, hkey⟩
      rintro (⟨rfl, rfl⟩ | ht)
      · exact hne hid
      · exact htaken ht
  · intro e' n' hel hpar hlt htaken
    have hne : c.cacheId e' n' ≠ c.cacheId e n := by
      intro heq
      obtain ⟨rfl, rfl⟩ := linked.cacheId_inj (by omega) (by omega) heq
      exact htaken (Or.inl ⟨rfl, rfl⟩)
    rw [OrderedMap.get?_delete_of_ne _ hne]
    exact cache.full e' n' hel hpar hlt (fun ht => htaken (Or.inr ht))

/-- Reading the next message of the chain uses its key at once, so the cache stays as it is. -/
theorem Cache.readNext {c : Conversation K} {p : Progress} {l : Nat}
    {skipped : OrderedMap String (SkippedKey K)} (cache : c.Cache prim p (l + 2) skipped) :
    c.Cache prim ((p.pass (l + 1) (p.passed (l + 1) + 1)).take (l + 1) (p.passed (l + 1))) (l + 2) skipped := by
  constructor
  · intro id entry h
    obtain ⟨e, n, hel, hpar, hid, hlt, htaken, hkey⟩ := cache.sound id entry h
    refine ⟨e, n, hel, hpar, hid, ?_, ?_, hkey⟩
    · by_cases he : e = l + 1
      · subst he; simp only [Progress.take, Progress.pass, Function.update_self]; omega
      · simpa [Progress.take, Progress.pass, Function.update_of_ne he] using hlt
    · rintro (⟨rfl, rfl⟩ | ht)
      · omega
      · exact htaken ht
  · intro e n hel hpar hlt htaken
    apply cache.full e n hel hpar _ (fun ht => htaken (Or.inr ht))
    by_cases he : e = l + 1
    · subst he
      simp only [Progress.take, Progress.pass, Function.update_self] at hlt htaken
      rcases (show n = p.passed (l + 1) ∨ n < p.passed (l + 1) by omega) with heq | hlt'
      · exact absurd (Or.inl ⟨trivial, heq⟩) htaken
      · exact hlt'
    · simpa [Progress.take, Progress.pass, Function.update_of_ne he] using hlt

theorem endpoint_congr {c : Conversation K} {p q : Progress} (skipped : OrderedMap String (SkippedKey K))
    (sequence : Nat) {l : Nat} (sent : ∀ e, e % 2 = l % 2 → q.sent e = p.sent e)
    (passed : ∀ e, e % 2 ≠ l % 2 → q.passed e = p.passed e) :
    c.endpoint prim q skipped sequence l = c.endpoint prim p skipped sequence l := by
  match l with
  | 0 => rfl
  | 1 => simp only [endpoint, sent 1 rfl]
  | l + 2 =>
    simp only [endpoint, sent (l + 2) rfl, sent l (by omega), passed (l + 1) (by omega)]

/-- What the other party does leaves a party's own view as it was. -/
theorem Holds.congr {c : Conversation K} {p q : Progress} {l : Nat} {state : RatchetState K}
    (h : c.Holds prim p l state) (sent : ∀ e, e % 2 = l % 2 ∨ e + 3 ≤ l → q.sent e = p.sent e)
    (passed : ∀ e, e % 2 ≠ l % 2 → q.passed e = p.passed e)
    (taken : ∀ e n, e % 2 ≠ l % 2 → (q.taken e n ↔ p.taken e n)) : c.Holds prim q l state where
  shape := h.shape.trans (endpoint_congr _ _ (fun e he => sent e (Or.inl he)) passed).symm
  cache := h.cache.congr passed taken
  settled :=
    { closed := fun e he hpar => by
        rw [sent e (Or.inr he), passed e hpar]; exact h.settled.closed e he hpar
      future := fun e he hpar => by rw [passed e hpar]; exact h.settled.future e he hpar }

end Conversation

end

end Veil
