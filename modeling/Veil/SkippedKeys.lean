import Mathlib
import Veil.Codec
import Veil.DoubleRatchet

namespace Veil

theorem skippedKeyId_inj {a b : Bytes} {m n : Nat} (h : skippedKeyId a m = skippedKeyId b n) :
    a = b ∧ m = n := by
  have hl := congrArg String.toList h
  simp only [skippedKeyId, String.toList_append, List.append_assoc] at hl
  obtain ⟨hex, digits⟩ := append_cons_inj_of_not_mem (colon_not_mem_toHex a) (colon_not_mem_toHex b) hl
  exact ⟨toHex_injective (String.toList_inj.mp hex), Nat.repr_inj.mp (String.toList_inj.mp digits)⟩

section

variable {K : Type} (prim : RatchetPrimitives K)

/-- The chain key after `n` symmetric steps. -/
def chainKeyAfter (chainKey : K) (n : Nat) : K := (fun k => (prim.advanceChain k).nextChainKey)^[n] chainKey

def messageKeyAfter (chainKey : K) (n : Nat) : K := (prim.advanceChain (chainKeyAfter prim chainKey n)).messageKey

@[simp] theorem chainKeyAfter_zero (chainKey : K) : chainKeyAfter prim chainKey 0 = chainKey := rfl

theorem chainKeyAfter_succ (chainKey : K) (n : Nat) :
    chainKeyAfter prim chainKey (n + 1) = (prim.advanceChain (chainKeyAfter prim chainKey n)).nextChainKey := by
  simp only [chainKeyAfter, Function.iterate_succ_apply']

theorem chainKeyAfter_add (chainKey : K) (m n : Nat) :
    chainKeyAfter prim chainKey (m + n) = chainKeyAfter prim (chainKeyAfter prim chainKey m) n := by
  simp only [chainKeyAfter, Nat.add_comm m n, Function.iterate_add_apply]

/-- The cache after the catch-up loop has run `n` rounds from message `number` on. -/
def rememberChain (receiving : Bytes) (chainKey : K) (number sequence : Nat)
    (skipped : OrderedMap String (SkippedKey K)) : Nat → OrderedMap String (SkippedKey K)
  | 0 => skipped
  | n + 1 =>
    (evictOldest (rememberChain receiving chainKey number sequence skipped n)).set
      (skippedKeyId receiving (number + n)) ⟨sequence + n, messageKeyAfter prim chainKey n⟩

/-- Everything the catch-up loop does, in one equation. -/
theorem skipOne_iterate {state : RatchetState K} {chainKey : K} (receiving : Bytes)
    (hc : state.receivingChainKey = some chainKey) (n : Nat) :
    (skipOne prim receiving)^[n] state =
      { state with
        receivingChainKey := some (chainKeyAfter prim chainKey n)
        receivedCount := state.receivedCount + n
        skipped := rememberChain prim receiving chainKey state.receivedCount state.skippedSequence
          state.skipped n
        skippedSequence := state.skippedSequence + n } := by
  induction n with
  | zero => simp [rememberChain, ← hc]
  | succ n ih =>
    rw [Function.iterate_succ_apply', ih]
    simp only [skipOne, rememberSkipped, rememberChain, chainKeyAfter_succ, messageKeyAfter,
      Nat.add_assoc]

theorem evictOldest_eq_self {skipped : OrderedMap String (SkippedKey K)}
    (h : skipped.size < maxSkippedKeys) : evictOldest skipped = skipped := by
  simp [evictOldest, Nat.not_le.mpr h]

theorem evictOldest_get? {skipped : OrderedMap String (SkippedKey K)} {id : String} {entry : SkippedKey K}
    (h : (evictOldest skipped).get? id = some entry) : skipped.get? id = some entry := by
  unfold evictOldest at h
  split at h
  next =>
    split at h
    next oldestId _ _ =>
      rw [OrderedMap.get?_delete] at h
      split at h
      next => simp at h
      next => exact h
    next => exact h
  next => exact h

theorem evictOldest_size_le (skipped : OrderedMap String (SkippedKey K)) :
    (evictOldest skipped).size ≤ skipped.size := by
  unfold evictOldest
  split
  next =>
    split
    next => exact OrderedMap.size_delete_le _ _
    next => exact Nat.le_refl _
  next => exact Nat.le_refl _

theorem rememberChain_size_le (receiving : Bytes) (chainKey : K) (number sequence : Nat)
    (skipped : OrderedMap String (SkippedKey K)) (n : Nat) :
    (rememberChain prim receiving chainKey number sequence skipped n).size ≤ skipped.size + n := by
  induction n with
  | zero => exact Nat.le_refl _
  | succ n ih =>
    have hset := OrderedMap.size_set_le
      (evictOldest (rememberChain prim receiving chainKey number sequence skipped n))
      (skippedKeyId receiving (number + n)) ⟨sequence + n, messageKeyAfter prim chainKey n⟩
    have hevict := evictOldest_size_le (rememberChain prim receiving chainKey number sequence skipped n)
    simp only [rememberChain]
    omega

/-- While the cache has room, catching up only adds the keys of the skipped numbers. -/
theorem rememberChain_get? (receiving : Bytes) (chainKey : K) (number sequence : Nat)
    {skipped : OrderedMap String (SkippedKey K)} {n : Nat} (room : skipped.size + n ≤ maxSkippedKeys)
    (id : String) :
    (rememberChain prim receiving chainKey number sequence skipped n).get? id = skipped.get? id ∧
        (∀ i < n, id ≠ skippedKeyId receiving (number + i)) ∨
      ∃ i < n, id = skippedKeyId receiving (number + i) ∧
        (rememberChain prim receiving chainKey number sequence skipped n).get? id =
          some ⟨sequence + i, messageKeyAfter prim chainKey i⟩ := by
  induction n with
  | zero => exact Or.inl ⟨rfl, by omega⟩
  | succ n ih =>
    have hsize := rememberChain_size_le prim receiving chainKey number sequence skipped n
    have hevict := @evictOldest_eq_self _ (rememberChain prim receiving chainKey number sequence skipped n) (by omega)
    simp only [rememberChain, hevict, OrderedMap.get?_set]
    by_cases hid : id = skippedKeyId receiving (number + n)
    · exact Or.inr ⟨n, by omega, hid, by simp [hid]⟩
    · simp only [hid, ↓reduceIte]
      rcases ih (by omega) with ⟨hget, hne⟩ | ⟨i, hi, hid', hget⟩
      · refine Or.inl ⟨hget, ?_⟩
        intro i hi
        rcases (show i < n ∨ i = n by omega) with hi | rfl
        · exact hne i hi
        · exact hid
      · exact Or.inr ⟨i, by omega, hid', hget⟩

/-- Whatever was evicted, a key still cached is an old one or one of those just derived. -/
theorem rememberChain_sound (receiving : Bytes) (chainKey : K) (number sequence : Nat)
    {skipped : OrderedMap String (SkippedKey K)} {n : Nat} {id : String} {entry : SkippedKey K}
    (h : (rememberChain prim receiving chainKey number sequence skipped n).get? id = some entry) :
    skipped.get? id = some entry ∨
      ∃ i < n, id = skippedKeyId receiving (number + i) ∧
        entry = ⟨sequence + i, messageKeyAfter prim chainKey i⟩ := by
  induction n with
  | zero => exact Or.inl h
  | succ n ih =>
    simp only [rememberChain, OrderedMap.get?_set] at h
    split at h
    next hid => exact Or.inr ⟨n, by omega, hid, (Option.some.inj h).symm⟩
    next =>
      rcases ih (evictOldest_get? h) with hold | ⟨i, hi, hid, he⟩
      · exact Or.inl hold
      · exact Or.inr ⟨i, by omega, hid, he⟩

end

end Veil
