import Veil.Rejection

namespace Veil

section

variable {K : Type} {prim : RatchetPrimitives K}

/-- No key for message `n` under `key` is left: it is not cached, and the chain of `key`, if that is the
current one, is past it. -/
def Spent (state : RatchetState K) (key : Bytes) (n : Nat) : Prop :=
  state.skipped.get? (skippedKeyId key n) = none ∧
    (state.receiving = some key → state.receivingChainKey = none ∨ n < state.receivedCount)

/-- Cached keys belong to ratchet keys in `visited`, those of the current chain lie behind it, and what is in
`read` is spent. -/
structure Tidy (visited : List Bytes) (read : List (Bytes × Nat)) (state : RatchetState K) : Prop where
  cached : ∀ key n, (state.skipped.get? (skippedKeyId key n)).isSome → key ∈ visited ∧
    (state.receiving = some key → state.receivingChainKey = none ∨ n < state.receivedCount)
  current : state.receivingChainKey.isSome → ∃ key ∈ visited, state.receiving = some key
  spent : ∀ key n, (key, n) ∈ read → key ∈ visited ∧ Spent state key n

/-- A spent message is turned away, and the state stays as it is, unless it starts a turn. -/
theorem Spent.rejects {state : RatchetState K} {message : RatchetMessage} {fresh : KeyPair K}
    (h : Spent state message.header.ratchetPublicKey message.header.messageNumber)
    (current : state.receivingChainKey.isSome → state.receiving.isSome)
    (turns : ¬ StartsTurn prim state message.header) :
    ∃ e, ratchetDecrypt prim fresh state message = (state, .error e) := by
  by_cases hlength : message.header.ratchetPublicKey.length = 32
  swap
  · exact ⟨_, by simp only [ratchetDecrypt, hlength, ne_eq, not_false_eq_true, ↓reduceIte]; rfl⟩
  have huncached : ¬ Cached state message.header := by simp [Cached, h.1]
  cases hnew : isNewRatchetKey state message.header with
  | false =>
    have hr := isNewRatchetKey_eq_false_iff.mp hnew
    rw [ratchetDecrypt_current hlength huncached hnew]
    cases hc : state.receivingChainKey with
    | none => exact ⟨_, by simp only [receiveInChain, skipReceivingKeys_without_chain prim hc, hc]; rfl⟩
    | some chainKey =>
      rcases h.2 hr with hnone | hlt
      · simp [hc] at hnone
      · exact ⟨_, receiveInChain_replay prim hr hc hlt⟩
  | true =>
    cases hdh : prim.dh state.sending.secretKey message.header.ratchetPublicKey with
    | error e =>
      have herror : performDhRatchet prim fresh state message.header = (state, .error e) := by
        simp [performDhRatchet, hdh]
      exact ⟨e, ratchetDecrypt_turn_error hlength huncached hnew herror⟩
    | ok s =>
      have far : maxSkipPerChain < previousGap state message.header := by
        by_contra hle
        exact turns ⟨hlength, huncached, hnew, by rw [hdh]; rfl, by omega⟩
      cases hc : state.receivingChainKey with
      | none => simp [previousGap, hc] at far
      | some chainKey =>
        obtain ⟨receiving, hr⟩ := Option.isSome_iff_exists.mp (current (by rw [hc]; rfl))
        rw [previousGap, if_pos ⟨by rw [hc]; rfl, hnew⟩] at far
        have herror : performDhRatchet prim fresh state message.header = (state, .error (.sessionState
            s!"message number {message.header.previousChainLength} skips more than {maxSkipPerChain} keys; refusing")) := by
          simp only [performDhRatchet, hdh, skipReceivingKeys_eq prim hr hc, if_pos far]
        exact ⟨_, ratchetDecrypt_turn_error hlength huncached hnew herror⟩

namespace Tidy

variable {visited : List Bytes} {read : List (Bytes × Nat)} {state next : RatchetState K}

theorem mono {visited' : List Bytes} {read' : List (Bytes × Nat)} (h : Tidy visited read state)
    (wider : ∀ key ∈ visited, key ∈ visited') (fewer : ∀ slot ∈ read', slot ∈ read) : Tidy visited' read' state where
  cached key n hget := ⟨wider key (h.cached key n hget).1, (h.cached key n hget).2⟩
  current := by
    intro hc
    obtain ⟨key, hv, hr⟩ := h.current hc
    exact ⟨key, wider key hv, hr⟩
  spent key n hmem := ⟨wider key (h.spent key n (fewer _ hmem)).1, (h.spent key n (fewer _ hmem)).2⟩

/-- Only the cache and the receiving chain matter. -/
theorem congr (h : Tidy visited read state) (skipped : next.skipped = state.skipped)
    (receiving : next.receiving = state.receiving) (chain : next.receivingChainKey = state.receivingChainKey)
    (count : next.receivedCount = state.receivedCount) : Tidy visited read next := by
  refine ⟨?_, ?_, ?_⟩
  · rw [skipped, receiving, chain, count]; exact h.cached
  · rw [receiving, chain]; exact h.current
  · intro key n hmem
    obtain ⟨hv, hs⟩ := h.spent key n hmem
    unfold Spent at hs ⊢
    rw [skipped, receiving, chain, count]
    exact ⟨hv, hs⟩

theorem caughtUp (h : Tidy visited read state) {receiving : Bytes} {chainKey : K}
    (hr : state.receiving = some receiving) (hc : state.receivingChainKey = some chainKey) (n : Nat) :
    Tidy visited read (caughtUp prim state receiving chainKey n) := by
  have hmem : receiving ∈ visited := by
    obtain ⟨key, hv, hkey⟩ := h.current (by rw [hc]; rfl)
    rw [hr, Option.some.injEq] at hkey
    rwa [hkey]
  have behind : ∀ key m, (state.receiving = some key → state.receivingChainKey = none ∨ m < state.receivedCount) →
      key = receiving → m < state.receivedCount := by
    rintro key m hb rfl
    rcases hb hr with hnone | hlt
    · simp [hc] at hnone
    · exact hlt
  refine ⟨?_, fun _ => ⟨receiving, hmem, hr⟩, ?_⟩
  · intro key m hget
    obtain ⟨entry, hentry⟩ := Option.isSome_iff_exists.mp hget
    rcases rememberChain_sound prim _ _ _ _ hentry with hold | ⟨i, hi, hid, _⟩
    · obtain ⟨hv, hb⟩ := h.cached key m (by rw [hold]; rfl)
      refine ⟨hv, fun hkey => Or.inr ?_⟩
      have := behind key m hb (Option.some.inj (hkey.symm.trans hr))
      simp only [Veil.caughtUp]
      omega
    · obtain ⟨rfl, rfl⟩ := skippedKeyId_inj hid
      exact ⟨hmem, fun _ => Or.inr (by simp only [Veil.caughtUp]; omega)⟩
  · intro key m hread
    obtain ⟨hv, hnone, hb⟩ := h.spent key m hread
    refine ⟨hv, ?_, fun hkey => Or.inr ?_⟩
    · by_contra hsome
      obtain ⟨entry, hentry⟩ := Option.ne_none_iff_exists'.mp hsome
      rcases rememberChain_sound prim _ _ _ _ hentry with hold | ⟨i, hi, hid, _⟩
      · simp [hnone] at hold
      · obtain ⟨hkey, hm⟩ := skippedKeyId_inj hid
        have := behind key m hb hkey
        omega
    · have := behind key m hb (Option.some.inj (hkey.symm.trans hr))
      simp only [Veil.caughtUp]
      omega

theorem skip (h : Tidy visited read state) {target : Nat} (hs : skipReceivingKeys prim state target = .ok next) :
    Tidy visited read next := by
  cases hc : state.receivingChainKey with
  | none =>
    rw [skipReceivingKeys_without_chain prim hc] at hs
    exact Except.ok.inj hs ▸ h
  | some chainKey =>
    obtain ⟨receiving, _, hr⟩ := h.current (by rw [hc]; rfl)
    rw [skipReceivingKeys_eq prim hr hc] at hs
    split at hs
    next => simp at hs
    next => exact Except.ok.inj hs ▸ h.caughtUp hr hc _

/-- A turn onto a key that was never a receiving key before. -/
theorem turn (h : Tidy visited read state) {key : Bytes} (new : key ∉ visited)
    (skipped : next.skipped = state.skipped) (receiving : next.receiving = some key) :
    Tidy (key :: visited) read next := by
  refine ⟨?_, fun _ => ⟨key, List.mem_cons_self, receiving⟩, ?_⟩
  · intro key' n hget
    rw [skipped] at hget
    have hv := (h.cached key' n hget).1
    refine ⟨List.mem_cons_of_mem _ hv, fun hkey => ?_⟩
    rw [receiving, Option.some.injEq] at hkey
    exact absurd (hkey ▸ hv) new
  · intro key' n hread
    obtain ⟨hv, hnone, _⟩ := h.spent key' n hread
    refine ⟨List.mem_cons_of_mem _ hv, by rw [skipped]; exact hnone, fun hkey => ?_⟩
    rw [receiving, Option.some.injEq] at hkey
    exact absurd (hkey ▸ hv) new

theorem perform (h : Tidy visited read state) {fresh : KeyPair K} {header : RatchetHeader}
    {result : Except Failure Unit} (hp : performDhRatchet prim fresh state header = (next, result)) :
    next = state ∧ (∃ e, result = .error e) ∨
      (prim.dh state.sending.secretKey header.ratchetPublicKey).isOk = true ∧
        previousGap state header ≤ maxSkipPerChain ∧ next.receiving = some header.ratchetPublicKey ∧
        (∃ chainKey, next.receivingChainKey = some chainKey) ∧
        (header.ratchetPublicKey ∉ visited → Tidy (header.ratchetPublicKey :: visited) read next) := by
  unfold performDhRatchet at hp
  split at hp
  next e _ =>
    obtain ⟨rfl, rfl⟩ := Prod.mk.inj hp
    exact Or.inl ⟨rfl, e, rfl⟩
  next receivingDh hdh =>
    split at hp
    next e _ =>
      obtain ⟨rfl, rfl⟩ := Prod.mk.inj hp
      exact Or.inl ⟨rfl, e, rfl⟩
    next closed hskip =>
      have hgap : previousGap state header ≤ maxSkipPerChain := by
        unfold previousGap
        split
        next hsome =>
          obtain ⟨chainKey, hc⟩ := Option.isSome_iff_exists.mp hsome.1
          obtain ⟨receiving, _, hr⟩ := h.current hsome.1
          rw [skipReceivingKeys_eq prim hr hc] at hskip
          by_contra far
          rw [if_pos (by omega)] at hskip
          simp at hskip
        next => omega
      have hclosed := h.skip hskip
      simp only at hp
      split at hp
      all_goals
        obtain ⟨rfl, rfl⟩ := Prod.mk.inj hp
        exact Or.inr ⟨by rw [hdh]; rfl, hgap, rfl, ⟨_, rfl⟩, fun new => hclosed.turn new rfl rfl⟩

theorem inChain (h : Tidy visited read state) {message : RatchetMessage}
    (hr : state.receiving = some message.header.ratchetPublicKey) :
    Tidy visited read (receiveInChain prim state message).1 ∧
      ∀ plaintext, (receiveInChain prim state message).2 = .ok plaintext →
        Tidy visited ((message.header.ratchetPublicKey, message.header.messageNumber) :: read)
          (receiveInChain prim state message).1 := by
  cases hc : state.receivingChainKey with
  | none =>
    rw [receiveInChain_without_chain hc]
    refine ⟨h, ?_⟩
    intro plaintext ok
    simp [receiveInChain, skipReceivingKeys_without_chain prim hc, hc] at ok
  | some chainKey =>
    cases hresult : (receiveInChain prim state message).2 with
    | error e =>
      refine ⟨?_, by simp⟩
      rcases receiveInChain_error hr hc hresult with hsame | ⟨_, _, hnext⟩
      · rw [hsame]; exact h
      · rw [hnext]; exact h.caughtUp hr hc _
    | ok plaintext =>
      rcases Nat.lt_or_ge maxSkipPerChain (message.header.messageNumber - state.receivedCount) with far | near
      · simp [receiveInChain_too_far prim hr hc far] at hresult
      rcases Nat.lt_or_ge message.header.messageNumber state.receivedCount with replay | ahead
      · simp [receiveInChain_replay prim hr hc replay] at hresult
      rw [receiveInChain_eq prim hr hc ahead near] at hresult ⊢
      simp only at hresult ⊢
      split at hresult
      next => simp at hresult
      next opened hopen =>
        have hcaught := @Tidy.caughtUp _ prim _ _ _ h _ _ hr hc (message.header.messageNumber - state.receivedCount)
        obtain ⟨key, hv, hkey⟩ := h.current (by rw [hc]; rfl)
        rw [hr, Option.some.injEq] at hkey
        subst hkey
        have behind : ∀ key m, (state.receiving = some key → some (chainKeyAfter prim chainKey
            (message.header.messageNumber - state.receivedCount)) = none ∨ m < state.receivedCount +
              (message.header.messageNumber - state.receivedCount)) →
            (state.receiving = some key → m < message.header.messageNumber) := by
          intro key m hb hkey
          rcases hb hkey with hnone | hlt
          · simp at hnone
          · omega
        have hcached : ∀ key m, ((Veil.caughtUp prim state message.header.ratchetPublicKey chainKey
              (message.header.messageNumber - state.receivedCount)).skipped.get? (skippedKeyId key m)).isSome →
            key ∈ visited ∧ (state.receiving = some key → m < message.header.messageNumber) := by
          intro key m hget
          obtain ⟨hv, hb⟩ := hcaught.cached key m hget
          exact ⟨hv, behind key m hb⟩
        have hread : Tidy visited ((message.header.ratchetPublicKey, message.header.messageNumber) :: read)
            { Veil.caughtUp prim state message.header.ratchetPublicKey chainKey
                (message.header.messageNumber - state.receivedCount) with
              receivingChainKey :=
                some (chainKeyAfter prim chainKey (message.header.messageNumber - state.receivedCount + 1))
              receivedCount := message.header.messageNumber + 1 } := by
          refine ⟨?_, fun _ => ⟨_, hv, hr⟩, ?_⟩
          · intro key m hget
            obtain ⟨hv, hb⟩ := hcached key m hget
            exact ⟨hv, fun hkey => Or.inr (by have := hb hkey; simp only; omega)⟩
          · intro key m hmem
            rcases List.mem_cons.mp hmem with heq | hmem
            · obtain ⟨rfl, rfl⟩ := Prod.mk.inj heq
              refine ⟨hv, ?_, fun _ => Or.inr (Nat.lt_succ_self _)⟩
              by_contra hsome
              have := (hcached _ _ (Option.isSome_iff_ne_none.mpr hsome)).2 hr
              omega
            · obtain ⟨hv, hnone, hb⟩ := hcaught.spent key m hmem
              exact ⟨hv, hnone, fun hkey => Or.inr (by have := behind key m hb hkey; simp only; omega)⟩
        exact ⟨hread.mono (fun _ hv => hv) (fun _ hmem => List.mem_cons_of_mem _ hmem), fun _ _ => hread⟩

/-- Handling any message keeps the state tidy as long as it makes no turn back; what was opened is spent. -/
theorem decrypt (h : Tidy visited read state) {message : RatchetMessage} {fresh : KeyPair K}
    (new : StartsTurn prim state message.header → message.header.ratchetPublicKey ∉ visited) :
    ∃ visited', (∀ key ∈ visited, key ∈ visited') ∧
      (∀ key ∈ visited', key ∈ visited ∨ (StartsTurn prim state message.header ∧
        key = message.header.ratchetPublicKey)) ∧
      Tidy visited' read (ratchetDecrypt prim fresh state message).1 ∧
      ∀ plaintext, (ratchetDecrypt prim fresh state message).2 = .ok plaintext →
        Tidy visited' ((message.header.ratchetPublicKey, message.header.messageNumber) :: read)
          (ratchetDecrypt prim fresh state message).1 := by
  have keeps : ∀ key ∈ visited, key ∈ visited ∨ (StartsTurn prim state message.header ∧
      key = message.header.ratchetPublicKey) := fun _ hv => Or.inl hv
  by_cases hlength : message.header.ratchetPublicKey.length = 32
  swap
  · refine ⟨visited, fun _ hv => hv, keeps, ?_, ?_⟩
    · simpa [ratchetDecrypt, hlength] using h
    · intro plaintext ok
      simp [ratchetDecrypt, hlength] at ok
  cases hget : state.skipped.get? (skippedKeyId message.header.ratchetPublicKey message.header.messageNumber) with
  | some entry =>
    obtain ⟨hv, hb⟩ := h.cached _ _ (by rw [hget]; rfl)
    cases hopen : openWith prim entry.messageKey state.associatedData message with
    | error e =>
      rw [ratchetDecrypt_cached_error hlength hget hopen]
      exact ⟨visited, fun _ hv => hv, keeps, h, by simp⟩
    | ok opened =>
      rw [ratchetDecrypt_cached hlength hget hopen]
      have hread : Tidy visited ((message.header.ratchetPublicKey, message.header.messageNumber) :: read)
          { state with
            skipped := state.skipped.delete
              (skippedKeyId message.header.ratchetPublicKey message.header.messageNumber) } := by
        refine ⟨?_, h.current, ?_⟩
        · intro key n hsome
          simp only [OrderedMap.get?_delete] at hsome
          split at hsome
          next => simp at hsome
          next => exact h.cached key n hsome
        · intro key n hmem
          rcases List.mem_cons.mp hmem with heq | hmem
          · obtain ⟨rfl, rfl⟩ := Prod.mk.inj heq
            exact ⟨hv, OrderedMap.get?_delete_self _ _, hb⟩
          · obtain ⟨hv, hnone, hb⟩ := h.spent key n hmem
            refine ⟨hv, ?_, hb⟩
            simp only [OrderedMap.get?_delete, hnone, ite_self]
      exact ⟨visited, fun _ hv => hv, keeps,
        hread.mono (fun _ hv => hv) (fun _ hmem => List.mem_cons_of_mem _ hmem), fun _ _ => hread⟩
  | none =>
    have huncached : ¬ Cached state message.header := by simp [Cached, hget]
    cases hnew : isNewRatchetKey state message.header with
    | false =>
      rw [ratchetDecrypt_current hlength huncached hnew]
      obtain ⟨hkept, hread⟩ := h.inChain (isNewRatchetKey_eq_false_iff.mp hnew)
      exact ⟨visited, fun _ hv => hv, keeps, hkept, hread⟩
    | true =>
      cases hperform : performDhRatchet prim fresh state message.header with
      | mk turned result =>
        rcases h.perform hperform with ⟨rfl, e, rfl⟩ | ⟨hdh, hgap, hr, _, hturned⟩
        · rw [ratchetDecrypt_turn_error hlength huncached hnew hperform]
          exact ⟨visited, fun _ hv => hv, keeps, h, by simp⟩
        · have hstarts : StartsTurn prim state message.header := ⟨hlength, huncached, hnew, hdh, hgap⟩
          have hturned := hturned (new hstarts)
          have grown : ∀ key ∈ message.header.ratchetPublicKey :: visited, key ∈ visited ∨
              (StartsTurn prim state message.header ∧ key = message.header.ratchetPublicKey) := by
            intro key hmem
            rcases List.mem_cons.mp hmem with rfl | hmem
            · exact Or.inr ⟨hstarts, rfl⟩
            · exact Or.inl hmem
          refine ⟨message.header.ratchetPublicKey :: visited, fun _ hv => List.mem_cons_of_mem _ hv, grown, ?_⟩
          cases result with
          | error e =>
            rw [ratchetDecrypt_turn_error hlength huncached hnew hperform]
            exact ⟨hturned, by simp⟩
          | ok u =>
            rw [ratchetDecrypt_turned hlength huncached hnew hperform]
            exact hturned.inChain hr

end Tidy

end

end Veil
