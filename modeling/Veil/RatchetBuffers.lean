import Mathlib
import Veil.Endpoint
import Veil.KeyBuffers
import Veil.Library.Totals

namespace Veil

attribute [ext] RatchetState

section

variable {κ ν : Type} (buffer : ν → Nat)

theorem valueBuffers_eq_total (m : OrderedMap κ ν) :
    (↑(valueBuffers buffer m) : Multiset Nat) = m.total (fun value => ({buffer value} : Multiset Nat)) := by
  unfold valueBuffers OrderedMap.total
  induction m.entries with
  | nil => rfl
  | cons entry entries ih =>
    rw [List.map_cons, List.map_cons, List.sum_cons, ← ih, ← Multiset.cons_coe, Multiset.singleton_add]

variable [DecidableEq κ]

/-- Dropping an entry gives its buffer back. -/
theorem valueBuffers_delete {m : OrderedMap κ ν} {k : κ} {v : ν} (h : m.get? k = some v) :
    (↑(valueBuffers buffer m) : Multiset Nat) = {buffer v} + ↑(valueBuffers buffer (m.delete k)) := by
  rw [valueBuffers_eq_total, valueBuffers_eq_total]
  exact OrderedMap.total_get _ h

/-- Storing an entry takes its buffer over; the buffer of the entry it replaces is let go. -/
theorem valueBuffers_set (m : OrderedMap κ ν) (k : κ) (v : ν) :
    (↑(valueBuffers buffer (m.set k v)) : Multiset Nat) ≤ {buffer v} + ↑(valueBuffers buffer m) := by
  rw [valueBuffers_eq_total, valueBuffers_eq_total]
  exact OrderedMap.total_set_le _ m k v

theorem mem_valueBuffers {m : OrderedMap κ ν} {k : κ} {v : ν} (h : m.get? k = some v) :
    buffer v ∈ valueBuffers buffer m :=
  List.mem_map.mpr ⟨(k, v), OrderedMap.get?_eq_some_iff.mp h, rfl⟩

end

namespace Buffered

section

variable {K : Type} (crypto : Cryptography K)

/-- The chain moved on by one key, which is in the buffer `held.heap.next`. -/
def taken (held : Held K) (receivingChainKey : Nat) : Held K :=
  ⟨wipe crypto (advanceChain crypto held.heap receivingChainKey).1 [receivingChainKey],
    { held.state with receivingChainKey := some (held.heap.next + 1) }⟩

def Held.values (held : Held K) : RatchetState K := held.state.values held.heap

def Held.Fits (held : Held K) : Prop := Cells.Fits held.state.buffers held.heap

theorem skipped_congr {heap heap' : Cells K} {skipped : OrderedMap String (SkippedKey Nat)}
    (h : ∀ c ∈ skippedBuffers skipped, heap'.cell c = heap.cell c) :
    skipped.mapValues (SkippedKey.values heap') = skipped.mapValues (SkippedKey.values heap) := by
  apply OrderedMap.mapValues_congr
  intro id entry hget
  have hcell := h entry.messageKey (mem_valueBuffers _ hget)
  simp only [SkippedKey.values, hcell]

theorem mem_toList_map {heap heap' : Cells K} {chainKey : Option Nat}
    (h : ∀ c ∈ (↑chainKey.toList : Multiset Nat), heap'.cell c = heap.cell c) :
    chainKey.map heap'.cell = chainKey.map heap.cell :=
  Option.map_congr (fun c hc => h c (Option.mem_toList.mpr hc))

theorem values_congr {heap heap' : Cells K} {state : RatchetState Nat}
    (h : ∀ c ∈ state.buffers, heap'.cell c = heap.cell c) : state.values heap' = state.values heap := by
  simp only [RatchetState.buffers, Multiset.mem_add, Multiset.mem_singleton] at h
  have hroot := h state.rootKey (by simp)
  have hsending := h state.sending.secretKey (by simp)
  refine RatchetState.ext hroot ?_ rfl (mem_toList_map fun c hc => h c (by simp [hc]))
    (mem_toList_map fun c hc => h c (by simp [hc])) rfl rfl rfl (skipped_congr fun c hc => h c (by simp [hc])) rfl rfl
  simp only [RatchetState.values, KeyPair.values, hsending]

theorem turnReceiving_exchange (fresh : KeyPair K) (heap : Cells K) (state : RatchetState Nat) (header : RatchetHeader)
    {receivingDh : Nat} (fits : Cells.Fits ({receivingDh} + state.buffers) heap) :
    (turnReceiving crypto fresh ⟨heap, state⟩ header receivingDh).heap =
      heap.exchange crypto.wiped
        [(crypto.advanceRootChain (heap.cell state.rootKey) (heap.cell receivingDh)).rootKey,
          (crypto.advanceRootChain (heap.cell state.rootKey) (heap.cell receivingDh)).chainKey, fresh.secretKey]
        ((receivingDh :: state.rootKey :: state.receivingChainKey.toList) ++ [state.sending.secretKey]) := by
  have hbelow : ∀ c ∈ (receivingDh :: state.rootKey :: state.receivingChainKey.toList) ++ [state.sending.secretKey],
      c < heap.next + 2 := by
    intro c hc
    have := fits.below c (by
      simp only [RatchetState.buffers, Multiset.mem_add, Multiset.mem_singleton, Multiset.mem_coe]
      simp only [List.mem_append, List.mem_cons, List.not_mem_nil, or_false] at hc
      grind)
    omega
  have hcomm := Cells.allocAll_rewriteAll crypto.wiped
    ((heap.alloc (crypto.advanceRootChain (heap.cell state.rootKey) (heap.cell receivingDh)).rootKey).alloc
      (crypto.advanceRootChain (heap.cell state.rootKey) (heap.cell receivingDh)).chainKey) [fresh.secretKey] hbelow
  rw [Cells.rewriteAll, List.foldl_append] at hcomm
  exact hcomm

theorem turnReceiving_performs (fresh : KeyPair K) {held : Held K} (header : RatchetHeader) {receivingDh : Nat}
    (fits : Cells.Fits ({receivingDh} + held.state.buffers) held.heap) :
    (turnReceiving crypto fresh held header receivingDh).values =
        Veil.turnReceiving crypto.toRatchetPrimitives fresh held.values header (held.heap.cell receivingDh) ∧
      Cells.Moves ({receivingDh} + held.state.buffers) (turnReceiving crypto fresh held header receivingDh).state.buffers
        held.heap (turnReceiving crypto fresh held header receivingDh).heap := by
  obtain ⟨heap, state⟩ := held
  let rest : Multiset Nat := ↑state.sendingChainKey.toList + ↑(skippedBuffers state.skipped)
  have hown : ({receivingDh} + state.buffers : Multiset Nat) =
      ↑((receivingDh :: state.rootKey :: state.receivingChainKey.toList) ++ [state.sending.secretKey]) + rest := by
    simp only [RatchetState.buffers, rest, ← Multiset.coe_add, ← Multiset.cons_coe, ← Multiset.singleton_add,
      Multiset.coe_nil, add_zero]
    ac_rfl
  have hexchanged := Cells.exchanged crypto.wiped (hown ▸ fits)
    [(crypto.advanceRootChain (heap.cell state.rootKey) (heap.cell receivingDh)).rootKey,
      (crypto.advanceRootChain (heap.cell state.rootKey) (heap.cell receivingDh)).chainKey, fresh.secretKey]
  rw [← turnReceiving_exchange crypto fresh heap state header fits] at hexchanged
  have hsending : (turnReceiving crypto fresh ⟨heap, state⟩ header receivingDh).state.sending =
      ⟨fresh.publicKey, heap.next + 2⟩ := by
    simp [turnReceiving, advanceRootChain, wipe]
  refine ⟨?_, ?_⟩
  · refine RatchetState.ext (hexchanged.new 0 (by simp)) ?_ rfl ?_ (congrArg some (hexchanged.new 1 (by simp))) rfl rfl
      rfl ?_ rfl rfl
    · simp only [Held.values, RatchetState.values, hsending, KeyPair.values]
      exact congrArg (KeyPair.mk fresh.publicKey) (hexchanged.new 2 (by simp))
    · exact mem_toList_map fun c hc => hexchanged.kept c (Multiset.mem_add.mpr (Or.inl hc))
    · exact skipped_congr fun c hc => hexchanged.kept c (Multiset.mem_add.mpr (Or.inr hc))
  · have hmoves := hexchanged.moves
    rw [← hown] at hmoves
    refine hmoves.drop (le_of_eq ?_)
    simp only [RatchetState.buffers, hsending]
    simp only [turnReceiving, advanceRootChain, List.length_cons, List.length_nil, List.range'_succ, List.range'_zero, rest,
      ← Multiset.cons_coe, ← Multiset.singleton_add, Multiset.coe_nil, add_zero, Cells.next_alloc, Option.toList_some]
    ac_rfl

theorem turnSending_performs {held : Held K} {sendingDh : Nat}
    (fits : Cells.Fits ({sendingDh} + held.state.buffers) held.heap) :
    (turnSending crypto held sendingDh).values =
        { held.values with
          rootKey := (crypto.advanceRootChain held.values.rootKey (held.heap.cell sendingDh)).rootKey
          sendingChainKey := some (crypto.advanceRootChain held.values.rootKey (held.heap.cell sendingDh)).chainKey } ∧
      Cells.Moves ({sendingDh} + held.state.buffers) (turnSending crypto held sendingDh).state.buffers held.heap
        (turnSending crypto held sendingDh).heap := by
  obtain ⟨heap, state⟩ := held
  let rest : Multiset Nat := {state.sending.secretKey} +
    (↑state.receivingChainKey.toList + ↑(skippedBuffers state.skipped))
  have hown : ({sendingDh} + state.buffers : Multiset Nat) =
      ↑(sendingDh :: state.rootKey :: state.sendingChainKey.toList) + rest := by
    simp only [RatchetState.buffers, rest, ← Multiset.cons_coe, ← Multiset.singleton_add]
    ac_rfl
  have hexchanged := Cells.exchanged crypto.wiped (hown ▸ fits)
    [(crypto.advanceRootChain (heap.cell state.rootKey) (heap.cell sendingDh)).rootKey,
      (crypto.advanceRootChain (heap.cell state.rootKey) (heap.cell sendingDh)).chainKey]
  have hsecret := hexchanged.kept state.sending.secretKey (by simp [rest])
  refine ⟨?_, ?_⟩
  · refine RatchetState.ext (hexchanged.new 0 (by simp)) ?_ rfl (congrArg some (hexchanged.new 1 (by simp))) ?_ rfl rfl
      rfl ?_ rfl rfl
    · exact congrArg (KeyPair.mk state.sending.publicKey) hsecret
    · exact mem_toList_map fun c hc => hexchanged.kept c (by simp only [rest, Multiset.mem_add]; exact Or.inr (Or.inl hc))
    · exact skipped_congr fun c hc => hexchanged.kept c (by
        simp only [rest, Multiset.mem_add]
        exact Or.inr (Or.inr hc))
  · have hmoves := hexchanged.moves
    rw [← hown] at hmoves
    refine hmoves.drop (le_of_eq ?_)
    simp only [RatchetState.buffers, turnSending, advanceRootChain, List.length_cons, List.length_nil, List.range'_succ,
      List.range'_zero, rest, ← Multiset.cons_coe, ← Multiset.singleton_add, Multiset.coe_nil, add_zero, Cells.next_alloc,
      Option.toList_some]
    ac_rfl

theorem oldestSkipped_mapValues (heap : Cells K) (skipped : OrderedMap String (SkippedKey Nat)) :
    oldestSkipped (skipped.mapValues (SkippedKey.values heap)) = oldestSkipped skipped := by
  simp only [oldestSkipped, OrderedMap.mapValues, List.foldl_map]
  rfl

theorem evictOldest_mapValues (heap : Cells K) (skipped : OrderedMap String (SkippedKey Nat)) :
    evictOldest (skipped.mapValues (SkippedKey.values heap)) =
      (evictOldest skipped).mapValues (SkippedKey.values heap) := by
  unfold evictOldest
  rw [OrderedMap.size_mapValues, oldestSkipped_mapValues]
  split
  next =>
    cases oldestSkipped skipped with
    | none => rfl
    | some oldest => exact (OrderedMap.mapValues_delete _ _ _).symm
  next => rfl

/-- What is evicted is a buffer of the cache, and the only one that leaves it. -/
theorem skippedBuffers_evictOldest (skipped : OrderedMap String (SkippedKey Nat)) :
    (↑(skippedBuffers skipped) : Multiset Nat) =
      ↑(evicted skipped).toList + ↑(skippedBuffers (evictOldest skipped)) := by
  unfold evicted evictOldest
  split
  next =>
    cases oldestSkipped skipped with
    | none => exact (zero_add _).symm
    | some oldest =>
      obtain ⟨id, sequence⟩ := oldest
      simp only [Option.bind_some]
      cases hget : skipped.get? id with
      | none =>
        rw [OrderedMap.delete_of_not_mem (OrderedMap.get?_eq_none_iff.mp hget)]
        exact (zero_add _).symm
      | some entry => exact valueBuffers_delete _ hget
  next => exact (zero_add _).symm

theorem rememberSkipped_performs {held : Held K} (ratchetPublicKey : Bytes) (messageNumber : Nat) {messageKey : Nat}
    (fits : Cells.Fits ({messageKey} + held.state.buffers) held.heap) :
    (rememberSkipped crypto held ratchetPublicKey messageNumber messageKey).values =
        Veil.rememberSkipped held.values ratchetPublicKey messageNumber (held.heap.cell messageKey) ∧
      Cells.Moves ({messageKey} + held.state.buffers)
        (rememberSkipped crypto held ratchetPublicKey messageNumber messageKey).state.buffers held.heap
        (rememberSkipped crypto held ratchetPublicKey messageNumber messageKey).heap := by
  obtain ⟨heap, state⟩ := held
  let rest : Multiset Nat := {messageKey} + ({state.rootKey} + ({state.sending.secretKey} +
    (↑state.sendingChainKey.toList + (↑state.receivingChainKey.toList + ↑(skippedBuffers (evictOldest state.skipped))))))
  have hown : ({messageKey} + state.buffers : Multiset Nat) = ↑(evicted state.skipped).toList + rest := by
    simp only [RatchetState.buffers, rest]
    rw [skippedBuffers_evictOldest]
    ac_rfl
  have hexchanged := Cells.exchanged crypto.wiped (hown ▸ fits) []
  have hmessage := hexchanged.kept messageKey (by simp [rest])
  have hroot := hexchanged.kept state.rootKey (by simp [rest])
  have hsecret := hexchanged.kept state.sending.secretKey (by simp [rest])
  have hsendingChain := @mem_toList_map _ _ _ state.sendingChainKey
    (fun c hc => hexchanged.kept c (by simp [rest, Multiset.mem_coe.mp hc]))
  have hreceivingChain := @mem_toList_map _ _ _ state.receivingChainKey
    (fun c hc => hexchanged.kept c (by simp [rest, Multiset.mem_coe.mp hc]))
  have hskipped := @skipped_congr _ heap (heap.exchange crypto.wiped [] (evicted state.skipped).toList)
    (evictOldest state.skipped) (fun c hc => hexchanged.kept c (by simp [rest, hc]))
  refine ⟨?_, ?_⟩
  · refine RatchetState.ext hroot (congrArg (KeyPair.mk state.sending.publicKey) hsecret) rfl hsendingChain
      hreceivingChain rfl rfl rfl ?_ rfl rfl
    simp only [Held.values, RatchetState.values, rememberSkipped, Veil.rememberSkipped, OrderedMap.mapValues_set,
      evictOldest_mapValues]
    exact congrArg₂ (fun cache key => OrderedMap.set cache _ ⟨state.skippedSequence, key⟩) hskipped hmessage
  · have hmoves := hexchanged.moves
    rw [← hown] at hmoves
    refine hmoves.drop ?_
    have hset := valueBuffers_set SkippedKey.messageKey (evictOldest state.skipped) (skippedKeyId ratchetPublicKey messageNumber)
      ⟨state.skippedSequence, messageKey⟩
    simp only [RatchetState.buffers, rememberSkipped, Veil.rememberSkipped, rest, List.length_nil, List.range'_zero,
      Multiset.coe_nil, zero_add]
    refine (add_le_add le_rfl (add_le_add le_rfl (add_le_add le_rfl (add_le_add le_rfl hset)))).trans (le_of_eq ?_)
    simp only [skippedBuffers]
    ac_rfl

theorem taken_performs {held : Held K} {receivingChainKey : Nat}
    (hchain : held.state.receivingChainKey = some receivingChainKey) (fits : held.Fits) :
    (taken crypto held receivingChainKey).values =
        { held.values with
          receivingChainKey := some (crypto.advanceChain (held.heap.cell receivingChainKey)).nextChainKey } ∧
      (taken crypto held receivingChainKey).heap.cell held.heap.next =
        (crypto.advanceChain (held.heap.cell receivingChainKey)).messageKey ∧
      Cells.Moves held.state.buffers ({held.heap.next} + (taken crypto held receivingChainKey).state.buffers) held.heap
        (taken crypto held receivingChainKey).heap := by
  obtain ⟨heap, state⟩ := held
  let rest : Multiset Nat := {state.rootKey} + ({state.sending.secretKey} +
    (↑state.sendingChainKey.toList + ↑(skippedBuffers state.skipped)))
  dsimp only at hchain
  have hown : state.buffers = ↑[receivingChainKey] + rest := by
    simp only [RatchetState.buffers, rest, hchain, Option.toList_some]
    ac_rfl
  have hfits : Cells.Fits state.buffers heap := fits
  rw [hown] at hfits
  have hexchanged := Cells.exchanged crypto.wiped hfits
    [(crypto.advanceChain (heap.cell receivingChainKey)).messageKey,
      (crypto.advanceChain (heap.cell receivingChainKey)).nextChainKey]
  have hroot := hexchanged.kept state.rootKey (by simp [rest])
  have hsecret := hexchanged.kept state.sending.secretKey (by simp [rest])
  have hsendingChain := @mem_toList_map _ _ _ state.sendingChainKey
    (fun c hc => hexchanged.kept c (by simp [rest, Multiset.mem_coe.mp hc]))
  have hskipped := @skipped_congr _ _ _ state.skipped (fun c hc => hexchanged.kept c (by simp [rest, hc]))
  refine ⟨?_, hexchanged.new 0 (by simp), ?_⟩
  · exact RatchetState.ext hroot (congrArg (KeyPair.mk state.sending.publicKey) hsecret) rfl hsendingChain
      (congrArg some (hexchanged.new 1 (by simp))) rfl rfl rfl hskipped rfl rfl
  · have hmoves := hexchanged.moves
    rw [← hown] at hmoves
    refine hmoves.drop (le_of_eq ?_)
    simp only [RatchetState.buffers, taken, rest, List.length_cons, List.length_nil, List.range'_succ, List.range'_zero,
      ← Multiset.cons_coe, ← Multiset.singleton_add, Multiset.coe_nil, add_zero, Option.toList_some]
    ac_rfl

theorem skipOne_performs (receiving : Bytes) {held : Held K} (fits : held.Fits) :
    (skipOne crypto receiving held).values = Veil.skipOne crypto.toRatchetPrimitives receiving held.values ∧
      Cells.Moves held.state.buffers (skipOne crypto receiving held).state.buffers held.heap
        (skipOne crypto receiving held).heap := by
  unfold skipOne Veil.skipOne
  cases hchain : held.state.receivingChainKey with
  | none =>
    have hvalue : held.values.receivingChainKey = none := by simp only [Held.values, RatchetState.values, hchain, Option.map_none]
    simp only [hvalue]
    exact ⟨trivial, Cells.Moves.refl fits⟩
  | some receivingChainKey =>
    have hvalue : held.values.receivingChainKey = some (held.heap.cell receivingChainKey) := by
      simp only [Held.values, RatchetState.values, hchain, Option.map_some]
    obtain ⟨hvalues, hkey, hmoves⟩ := taken_performs crypto hchain fits
    obtain ⟨hremembered, hmoves'⟩ := rememberSkipped_performs crypto receiving held.state.receivedCount hmoves.fits
    rw [hkey, hvalues] at hremembered
    simp only [hvalue]
    refine ⟨?_, hmoves.trans hmoves'⟩
    exact congrArg (fun state : RatchetState K => { state with receivedCount := held.state.receivedCount + 1 }) hremembered

theorem skipOnes_performs (receiving : Bytes) (n : Nat) {held : Held K} (fits : held.Fits) :
    ((skipOne crypto receiving)^[n] held).values =
        (Veil.skipOne crypto.toRatchetPrimitives receiving)^[n] held.values ∧
      Cells.Moves held.state.buffers ((skipOne crypto receiving)^[n] held).state.buffers held.heap
        ((skipOne crypto receiving)^[n] held).heap := by
  induction n with
  | zero => exact ⟨rfl, Cells.Moves.refl fits⟩
  | succ n ih =>
    obtain ⟨hvalues, hmoves⟩ := ih
    obtain ⟨hvalues', hmoves'⟩ := skipOne_performs crypto receiving hmoves.fits
    rw [Function.iterate_succ_apply', Function.iterate_succ_apply', hvalues', hvalues]
    exact ⟨rfl, hmoves.trans hmoves'⟩

theorem values_chain {held : Held K} : held.values.receivingChainKey = held.state.receivingChainKey.map held.heap.cell := rfl

/-- Catching up throws where it does on the values, and otherwise does the same to them. -/
theorem skipReceivingKeys_performs {held : Held K} (fits : held.Fits) (target : Nat) :
    (∀ e, skipReceivingKeys crypto held target = .error e →
        Veil.skipReceivingKeys crypto.toRatchetPrimitives held.values target = .error e) ∧
      ∀ next, skipReceivingKeys crypto held target = .ok next →
        Veil.skipReceivingKeys crypto.toRatchetPrimitives held.values target = .ok next.values ∧
          Cells.Moves held.state.buffers next.state.buffers held.heap next.heap := by
  have hsame : held.values.receiving = held.state.receiving := rfl
  have hcount : held.values.receivedCount = held.state.receivedCount := rfl
  have hstay : ∀ next : Held K, (.ok held : Except Failure (Held K)) = .ok next →
      (.ok held.values : Except Failure (RatchetState K)) = .ok next.values ∧
        Cells.Moves held.state.buffers next.state.buffers held.heap next.heap := by
    intro next h
    obtain rfl := Except.ok.inj h
    exact ⟨rfl, Cells.Moves.refl fits⟩
  unfold skipReceivingKeys Veil.skipReceivingKeys
  rw [hsame, hcount, values_chain]
  cases held.state.receivingChainKey with
  | none => exact ⟨fun e h => (nomatch h), hstay⟩
  | some receivingChainKey =>
    cases held.state.receiving with
    | none => exact ⟨fun e h => (nomatch h), hstay⟩
    | some receiving =>
      simp only [Option.map_some]
      split
      next => exact ⟨fun e h => (nomatch h), hstay⟩
      next =>
        split
        next => exact ⟨fun e h => congrArg Except.error (Except.error.inj h), fun next h => (nomatch h)⟩
        next =>
          obtain ⟨hvalues, hmoves⟩ := skipOnes_performs crypto receiving (target - held.state.receivedCount) fits
          refine ⟨fun e h => (nomatch h), fun next h => ?_⟩
          obtain rfl := Except.ok.inj h
          exact ⟨congrArg Except.ok hvalues.symm, hmoves⟩

/-- What a call did to a state in its buffers is what it does to the values, and it wrote to no other buffer. -/
structure Follows {α : Type} (held : Held K) (done : Held K × α) (value : RatchetState K × α) : Prop where
  values : (done.1.values, done.2) = value
  moves : Cells.Moves held.state.buffers done.1.state.buffers held.heap done.1.heap

theorem openWith_performs (heap : Cells K) (messageKey : Nat) (associatedData : Bytes) (message : RatchetMessage) :
    (openWith crypto heap messageKey associatedData message).2 =
        Veil.openWith crypto.toRatchetPrimitives (heap.cell messageKey) associatedData message ∧
      Cells.Moves 0 0 heap (openWith crypto heap messageKey associatedData message).1 := by
  let keys := crypto.deriveMessageKeys (heap.cell messageKey)
  have hkey : ((heap.alloc keys.key).alloc keys.nonce).cell heap.next = keys.key := by
    rw [Cells.cell_alloc _ _ (Nat.lt_succ_self _), Cells.cell_alloc_next]
  have hnonce : ((heap.alloc keys.key).alloc keys.nonce).cell (heap.alloc keys.key).next = keys.nonce :=
    Cells.cell_alloc_next _ _
  refine ⟨?_, ?_⟩
  · simp only [openWith, Veil.openWith]
    rw [hkey, hnonce]
  · have hnone : Cells.Fits 0 heap := ⟨Multiset.nodup_zero, fun c hc => absurd hc (Multiset.notMem_zero c)⟩
    have halloc := Cells.Moves.allocAll hnone [keys.key, keys.nonce]
    have hwipe := Cells.Moves.rewriteAll halloc.fits crypto.wiped [heap.next, heap.next + 1]
      (fun c hc => Multiset.mem_add.mpr (Or.inl (Multiset.mem_coe.mpr hc)))
    exact (halloc.trans hwipe).drop (Multiset.zero_le _)

theorem values_aside {heap heap' : Cells K} {state : RatchetState Nat} (aside : Cells.Moves 0 0 heap heap')
    (fits : Cells.Fits state.buffers heap) : state.values heap' = state.values heap :=
  values_congr (fun c hc => aside.same c (fits.below c hc) (Multiset.notMem_zero c))

theorem moves_aside {heap heap' : Cells K} {own : Multiset Nat} (aside : Cells.Moves 0 0 heap heap')
    (fits : Cells.Fits own heap) : Cells.Moves own own heap heap' := by
  have hbeside := aside.beside ((zero_add own).symm ▸ fits)
  rwa [zero_add] at hbeside

theorem performDhRatchet_follows (fresh : KeyPair K) {held : Held K} (fits : held.Fits) (header : RatchetHeader) :
    Follows held (performDhRatchet crypto fresh held header)
      (Veil.performDhRatchet crypto.toRatchetPrimitives fresh held.values header) := by
  have hsecret : held.values.sending.secretKey = held.heap.cell held.state.sending.secretKey := rfl
  unfold performDhRatchet Veil.performDhRatchet
  rw [hsecret]
  cases hdh : crypto.dh (held.heap.cell held.state.sending.secretKey) header.ratchetPublicKey with
  | error e => exact ⟨rfl, Cells.Moves.refl fits⟩
  | ok receivingDh =>
    have halloc := Cells.Moves.alloc fits receivingDh
    have hsame : held.state.values (held.heap.alloc receivingDh) = held.values :=
      values_congr (fun c hc => Cells.cell_alloc _ _ (fits.below c hc))
    have hagreed : Held.Fits ⟨held.heap.alloc receivingDh, held.state⟩ := halloc.fits.right
    obtain ⟨herror, hok⟩ := skipReceivingKeys_performs crypto hagreed header.previousChainLength
    simp only at herror hok ⊢
    cases hskip : skipReceivingKeys crypto ⟨held.heap.alloc receivingDh, held.state⟩ header.previousChainLength with
    | error e =>
      have hvalue := herror e hskip
      rw [show Held.values ⟨held.heap.alloc receivingDh, held.state⟩ = held.values from hsame] at hvalue
      have hwipe := Cells.Moves.rewriteAll halloc.fits crypto.wiped [held.heap.next]
        (fun c hc => Multiset.mem_add.mpr (Or.inl (Multiset.mem_singleton.mpr (List.mem_singleton.mp hc))))
      have hback : held.state.values ((held.heap.alloc receivingDh).rewriteAll crypto.wiped [held.heap.next]) =
          held.state.values (held.heap.alloc receivingDh) :=
        values_congr (fun c hc => Cells.cell_rewriteAll_of_not_mem _ _
          (fun hmem => (fits.below c hc).ne (List.mem_singleton.mp hmem)))
      simp only [hvalue]
      exact ⟨congrArg (fun state => (state, Except.error e)) (hback.trans hsame),
        (halloc.trans hwipe).drop (Multiset.le_add_left _ _)⟩
    | ok caughtUp =>
      obtain ⟨hvalue, hmoves⟩ := hok caughtUp hskip
      rw [show Held.values ⟨held.heap.alloc receivingDh, held.state⟩ = held.values from hsame] at hvalue
      simp only [hvalue]
      have hbeside : Cells.Fits (held.state.buffers + {held.heap.next}) (held.heap.alloc receivingDh) :=
        add_comm _ held.state.buffers ▸ halloc.fits
      have hboth := hmoves.beside hbeside
      have hcell : caughtUp.heap.cell held.heap.next = receivingDh :=
        (hmoves.others hbeside _ (Multiset.mem_singleton_self _)).trans (Cells.cell_alloc_next _ _)
      have hboth' : Cells.Moves held.state.buffers ({held.heap.next} + caughtUp.state.buffers) held.heap caughtUp.heap := by
        refine (halloc.trans (hboth.mono (le_of_eq (add_comm _ _)))).drop (le_of_eq (add_comm _ _))
      obtain ⟨hturned, hmoves'⟩ := turnReceiving_performs crypto fresh header hboth'.fits
      rw [hcell] at hturned
      generalize turnReceiving crypto fresh caughtUp header held.heap.next = turned at hturned hmoves' ⊢
      have hfresh : turned.heap.cell turned.state.sending.secretKey = fresh.secretKey :=
        congrArg (fun state : RatchetState K => state.sending.secretKey) hturned
      rw [hfresh]
      cases hdh' : crypto.dh fresh.secretKey header.ratchetPublicKey with
      | error e => exact ⟨congrArg (fun state => (state, Except.error e)) hturned, hboth'.trans hmoves'⟩
      | ok sendingDh =>
        have halloc' := Cells.Moves.alloc hmoves'.fits sendingDh
        have hsame' : turned.state.values (turned.heap.alloc sendingDh) = turned.values :=
          values_congr (fun c hc => Cells.cell_alloc _ _ (hmoves'.fits.below c hc))
        obtain ⟨hsent, hmoves''⟩ := @turnSending_performs _ crypto ⟨turned.heap.alloc sendingDh, turned.state⟩ _
          halloc'.fits
        rw [show Held.values ⟨turned.heap.alloc sendingDh, turned.state⟩ = turned.values from hsame', hturned,
          Cells.cell_alloc_next] at hsent
        exact ⟨congrArg (fun state => (state, Except.ok ())) hsent,
          hboth'.trans (hmoves'.trans (halloc'.trans hmoves''))⟩

theorem Follows.trans {β : Type} {held next : Held K} {done : Held K × β} {value : RatchetState K × β}
    (moves : Cells.Moves held.state.buffers next.state.buffers held.heap next.heap) (h : Follows next done value) :
    Follows held done value := ⟨h.values, moves.trans h.moves⟩

theorem tryDecryptWithSkipped_follows {held : Held K} (fits : held.Fits) (message : RatchetMessage) :
    Follows held (tryDecryptWithSkipped crypto held message)
      (Veil.tryDecryptWithSkipped crypto.toRatchetPrimitives held.values message) := by
  let id := skippedKeyId message.header.ratchetPublicKey message.header.messageNumber
  have hskipped : held.values.skipped.get? id = (held.state.skipped.get? id).map (SkippedKey.values held.heap) :=
    OrderedMap.get?_mapValues _ _ _
  unfold tryDecryptWithSkipped Veil.tryDecryptWithSkipped
  simp only [hskipped, id]
  cases hget : held.state.skipped.get? (skippedKeyId message.header.ratchetPublicKey message.header.messageNumber) with
  | none => exact ⟨rfl, Cells.Moves.refl fits⟩
  | some entry =>
    obtain ⟨hopen, haside⟩ := openWith_performs crypto held.heap entry.messageKey held.state.associatedData message
    have hvalue : Veil.openWith crypto.toRatchetPrimitives (entry.values held.heap).messageKey held.values.associatedData
        message = (openWith crypto held.heap entry.messageKey held.state.associatedData message).2 := hopen.symm
    simp only [Option.map_some, hvalue]
    generalize openWith crypto held.heap entry.messageKey held.state.associatedData message = opened at haside ⊢
    obtain ⟨heap, result⟩ := opened
    have hsame : held.state.values heap = held.values := values_aside haside fits
    have hmoves := moves_aside haside fits
    cases result with
    | error e => exact ⟨congrArg (fun state => (state, Except.error e)) hsame, hmoves⟩
    | ok plaintext =>
      let rest : Multiset Nat := {held.state.rootKey} + ({held.state.sending.secretKey} +
        (↑held.state.sendingChainKey.toList + (↑held.state.receivingChainKey.toList +
          ↑(skippedBuffers (held.state.skipped.delete
            (skippedKeyId message.header.ratchetPublicKey message.header.messageNumber))))))
      have hown : held.state.buffers = ↑[entry.messageKey] + rest := by
        simp only [RatchetState.buffers, rest, skippedBuffers, valueBuffers_delete _ hget, ← Multiset.cons_coe, ← Multiset.singleton_add,
          Multiset.coe_nil, add_zero]
        ac_rfl
      have hfits := hmoves.fits
      rw [hown] at hfits
      have hexchanged := Cells.exchanged crypto.wiped hfits []
      have hmoves' := hexchanged.moves
      rw [← hown] at hmoves'
      refine ⟨congrArg (fun state => (state, Except.ok (some plaintext))) ?_,
        hmoves.trans (hmoves'.drop (le_of_eq (zero_add rest).symm))⟩
      let dropped : RatchetState Nat := { held.state with skipped := held.state.skipped.delete id }
      have hkept : dropped.values (heap.exchange crypto.wiped [] [entry.messageKey]) = dropped.values heap :=
        values_congr (fun c hc => hexchanged.kept c hc)
      refine hkept.trans ?_
      rw [← hsame]
      exact congrArg (fun skipped => { held.state.values heap with skipped }) (OrderedMap.mapValues_delete _ _ _)

theorem openNext_follows {held : Held K} {receivingChainKey : Nat}
    (hchain : held.state.receivingChainKey = some receivingChainKey) (fits : held.Fits) (message : RatchetMessage) :
    Follows held (openNext crypto held receivingChainKey message)
      (match Veil.openWith crypto.toRatchetPrimitives
          (crypto.advanceChain (held.heap.cell receivingChainKey)).messageKey held.values.associatedData message with
      | .error e => (held.values, .error e)
      | .ok plaintext =>
        ({ held.values with
            receivingChainKey := some (crypto.advanceChain (held.heap.cell receivingChainKey)).nextChainKey
            receivedCount := held.values.receivedCount + 1 }, .ok plaintext)) := by
  obtain ⟨heap, state⟩ := held
  dsimp only at hchain
  have hfits : Cells.Fits state.buffers heap := fits
  let step := crypto.advanceChain (heap.cell receivingChainKey)
  let derived := heap.allocAll [step.messageKey, step.nextChainKey]
  have halloc : Cells.Moves state.buffers (↑[heap.next, heap.next + 1] + state.buffers) heap derived :=
    Cells.Moves.allocAll hfits [step.messageKey, step.nextChainKey]
  have hmessage : derived.cell heap.next = step.messageKey :=
    Cells.cell_allocAll_new heap [step.messageKey, step.nextChainKey] (i := 0) (by simp)
  have hnextKey : derived.cell (heap.next + 1) = step.nextChainKey :=
    Cells.cell_allocAll_new heap [step.messageKey, step.nextChainKey] (i := 1) (by simp)
  have hsame : state.values derived = state.values heap :=
    values_congr (fun c hc => Cells.cell_allocAll _ _ (hfits.below c hc))
  obtain ⟨hopen, haside⟩ := openWith_performs crypto derived heap.next state.associatedData message
  rw [hmessage] at hopen
  have hadvance : advanceChain crypto heap receivingChainKey = (derived, ⟨heap.next, heap.next + 1⟩) := rfl
  simp only [openNext, hadvance]
  rw [show Veil.openWith crypto.toRatchetPrimitives (crypto.advanceChain (heap.cell receivingChainKey)).messageKey
    (Held.values ⟨heap, state⟩).associatedData message = _ from hopen.symm]
  generalize openWith crypto derived heap.next state.associatedData message = opened at haside ⊢
  obtain ⟨after, result⟩ := opened
  have hopened := halloc.trans (moves_aside haside halloc.fits)
  have hcells : ∀ c < heap.next + 2, after.cell c = derived.cell c := fun c hc => haside.same c hc (Multiset.notMem_zero c)
  cases result with
  | error e =>
    have hwipe := Cells.Moves.rewriteAll hopened.fits crypto.wiped [heap.next + 1, heap.next]
      (fun c hc => Multiset.mem_add.mpr (Or.inl (Multiset.mem_coe.mpr (by simp only [List.mem_cons] at hc ⊢; tauto))))
    refine ⟨congrArg (fun state => (state, Except.error e)) ?_, (hopened.trans hwipe).drop (Multiset.le_add_left _ _)⟩
    refine Eq.trans (values_congr (fun c hc => ?_)) hsame
    have hlt := hfits.below c hc
    have hnot : c ∉ [heap.next + 1, heap.next] := by
      simp only [List.mem_cons, List.not_mem_nil, or_false]
      omega
    exact (Cells.cell_rewriteAll_of_not_mem _ _ hnot).trans (hcells c (by omega))
  | ok plaintext =>
    let next : RatchetState Nat :=
      { state with receivingChainKey := some (heap.next + 1), receivedCount := state.receivedCount + 1 }
    have hown : (↑[heap.next, heap.next + 1] + state.buffers : Multiset Nat) =
        ↑[receivingChainKey, heap.next] + next.buffers := by
      simp only [RatchetState.buffers, next, hchain, Option.toList_some, ← Multiset.cons_coe, ← Multiset.singleton_add,
        Multiset.coe_nil, add_zero]
      ac_rfl
    have hfits' := hopened.fits
    rw [hown] at hfits'
    have hexchanged := Cells.exchanged crypto.wiped hfits' []
    have hmoves := hexchanged.moves
    rw [← hown] at hmoves
    refine ⟨congrArg (fun state => (state, Except.ok plaintext)) ?_, hopened.trans (hmoves.drop (le_of_eq (zero_add _).symm))⟩
    have hkept : next.values (after.exchange crypto.wiped [] [receivingChainKey, heap.next]) = next.values derived := by
      refine values_congr (fun c hc => (hexchanged.kept c hc).trans (hcells c ?_))
      have hderived := halloc.fits
      rw [hown] at hderived
      exact (Cells.next_allocAll heap [step.messageKey, step.nextChainKey]) ▸ hderived.right.below c hc
    refine hkept.trans ?_
    have hfields : next.values derived =
        { state.values derived with receivingChainKey := some (derived.cell (heap.next + 1))
                                    receivedCount := state.receivedCount + 1 } := rfl
    rw [hfields, hsame, hnextKey]
    rfl

theorem receiveInChain_follows {held : Held K} (fits : held.Fits) (message : RatchetMessage) :
    Follows held (receiveInChain crypto held message)
      (Veil.receiveInChain crypto.toRatchetPrimitives held.values message) := by
  obtain ⟨herror, hok⟩ := skipReceivingKeys_performs crypto fits message.header.messageNumber
  unfold receiveInChain Veil.receiveInChain
  cases hskip : skipReceivingKeys crypto held message.header.messageNumber with
  | error e =>
    simp only [herror e hskip]
    exact ⟨rfl, Cells.Moves.refl fits⟩
  | ok caughtUp =>
    obtain ⟨hvalue, hmoves⟩ := hok caughtUp hskip
    simp only [hvalue, values_chain]
    cases hchain : caughtUp.state.receivingChainKey with
    | none => exact ⟨rfl, hmoves⟩
    | some receivingChainKey =>
      have hcount : caughtUp.values.receivedCount = caughtUp.state.receivedCount := rfl
      simp only [Option.map_some, hcount]
      split
      next => exact ⟨rfl, hmoves⟩
      next => exact Follows.trans hmoves (openNext_follows crypto hchain hmoves.fits message)

theorem ratchetDecrypt_follows (fresh : KeyPair K) {held : Held K} (fits : held.Fits) (message : RatchetMessage) :
    Follows held (ratchetDecrypt crypto fresh held message)
      (Veil.ratchetDecrypt crypto.toRatchetPrimitives fresh held.values message) := by
  unfold ratchetDecrypt Veil.ratchetDecrypt
  split
  next => exact ⟨rfl, Cells.Moves.refl fits⟩
  next =>
    obtain ⟨htried, hmoves⟩ := tryDecryptWithSkipped_follows crypto fits message
    rw [← htried]
    generalize tryDecryptWithSkipped crypto held message = tried at hmoves ⊢
    obtain ⟨next, result⟩ := tried
    match result with
    | .error e => exact ⟨rfl, hmoves⟩
    | .ok (some plaintext) => exact ⟨rfl, hmoves⟩
    | .ok none =>
      have hnew : isNewRatchetKey next.values message.header = isNewRatchetKey next.state message.header := rfl
      simp only [hnew]
      split
      next =>
        obtain ⟨hturned, hmoves'⟩ := performDhRatchet_follows crypto fresh hmoves.fits message.header
        rw [← hturned]
        generalize performDhRatchet crypto fresh next message.header = turned at hmoves' ⊢
        obtain ⟨turned, result⟩ := turned
        cases result with
        | error e => exact ⟨rfl, hmoves.trans hmoves'⟩
        | ok done => exact Follows.trans (hmoves.trans hmoves') (receiveInChain_follows crypto hmoves'.fits message)
      next => exact Follows.trans hmoves (receiveInChain_follows crypto hmoves.fits message)

theorem sealWith_performs {heap : Cells K} {messageKey : Nat} (fits : Cells.Fits {messageKey} heap)
    (associatedData : Bytes) (header : RatchetHeader) (plaintext : Bytes) :
    (sealWith crypto heap messageKey associatedData header plaintext).2 = (do
        let ad ← aeadAssociatedData associatedData header
        let ciphertext ← crypto.aeadEncrypt (crypto.deriveMessageKeys (heap.cell messageKey)).key
          (crypto.deriveMessageKeys (heap.cell messageKey)).nonce plaintext ad
        return { header, ciphertext }) ∧
      Cells.Moves {messageKey} 0 heap (sealWith crypto heap messageKey associatedData header plaintext).1 := by
  let keys := crypto.deriveMessageKeys (heap.cell messageKey)
  have hkey : ((heap.alloc keys.key).alloc keys.nonce).cell heap.next = keys.key := by
    rw [Cells.cell_alloc _ _ (Nat.lt_succ_self _), Cells.cell_alloc_next]
  have hnonce : ((heap.alloc keys.key).alloc keys.nonce).cell (heap.alloc keys.key).next = keys.nonce :=
    Cells.cell_alloc_next _ _
  refine ⟨?_, ?_⟩
  · simp only [sealWith]
    rw [hkey, hnonce]
  · have halloc : Cells.Moves {messageKey} (↑[heap.next, heap.next + 1] + {messageKey}) heap
        (heap.allocAll [keys.key, keys.nonce]) := Cells.Moves.allocAll fits [keys.key, keys.nonce]
    have hwipe := Cells.Moves.rewriteAll halloc.fits crypto.wiped [messageKey, heap.next, heap.next + 1]
      (fun c hc => by simpa [or_comm, or_left_comm] using hc)
    exact (halloc.trans hwipe).drop (Multiset.zero_le _)

theorem ratchetEncrypt_follows {held : Held K} (fits : held.Fits) (plaintext : Bytes) :
    Follows held (ratchetEncrypt crypto held plaintext)
      (Veil.ratchetEncrypt crypto.toRatchetPrimitives held.values plaintext) := by
  obtain ⟨heap, state⟩ := held
  have hfits : Cells.Fits state.buffers heap := fits
  have hvalue : (Held.values ⟨heap, state⟩).sendingChainKey = state.sendingChainKey.map heap.cell := rfl
  unfold ratchetEncrypt Veil.ratchetEncrypt
  rw [hvalue]
  cases hchain : state.sendingChainKey with
  | none => exact ⟨rfl, Cells.Moves.refl fits⟩
  | some sendingChainKey =>
    let step := crypto.advanceChain (heap.cell sendingChainKey)
    let rest : Multiset Nat := {state.rootKey} + ({state.sending.secretKey} +
      (↑state.receivingChainKey.toList + ↑(skippedBuffers state.skipped)))
    let next : RatchetState Nat :=
      { state with sendingChainKey := some (heap.next + 1), sentCount := state.sentCount + 1 }
    let header : RatchetHeader := ⟨state.sending.publicKey, state.previousSentCount, state.sentCount⟩
    have hown : state.buffers = ↑[sendingChainKey] + rest := by
      simp only [RatchetState.buffers, rest, hchain, Option.toList_some]
      ac_rfl
    have hspent := hfits
    rw [hown] at hspent
    have hexchanged := Cells.exchanged crypto.wiped hspent [step.messageKey, step.nextChainKey]
    let moved := heap.exchange crypto.wiped [step.messageKey, step.nextChainKey] [sendingChainKey]
    have hmoves : Cells.Moves state.buffers ({heap.next} + next.buffers) heap moved := by
      refine (hown ▸ hexchanged.moves).drop (le_of_eq ?_)
      simp only [RatchetState.buffers, next, rest, List.length_cons, List.length_nil, List.range'_succ, List.range'_zero,
        ← Multiset.cons_coe, ← Multiset.singleton_add, Multiset.coe_nil, add_zero, Option.toList_some]
      ac_rfl
    have hmessage : moved.cell heap.next = step.messageKey := hexchanged.new 0 (by simp)
    have hroot := hexchanged.kept state.rootKey (by simp [rest])
    have hsecret := hexchanged.kept state.sending.secretKey (by simp [rest])
    have hreceivingChain := @mem_toList_map _ _ _ state.receivingChainKey
      (fun c hc => hexchanged.kept c (by simp [rest, Multiset.mem_coe.mp hc]))
    have hskipped := @skipped_congr _ _ _ state.skipped (fun c hc => hexchanged.kept c (by simp [rest, hc]))
    have hnext : next.values moved = { state.values heap with
        sendingChainKey := some step.nextChainKey, sentCount := state.sentCount + 1 } :=
      RatchetState.ext hroot (congrArg (KeyPair.mk state.sending.publicKey) hsecret) rfl
        (congrArg some (hexchanged.new 1 (by simp))) hreceivingChain rfl rfl rfl hskipped rfl rfl
    obtain ⟨hsealed, hmoves'⟩ := sealWith_performs crypto hmoves.fits.left state.associatedData header plaintext
    rw [hmessage] at hsealed
    have hkept := hmoves'.others hmoves.fits
    have hboth := hmoves'.beside hmoves.fits
    rw [zero_add] at hboth
    exact ⟨Prod.ext ((values_congr hkept).trans hnext) hsealed, hmoves.trans hboth⟩

theorem buffers_eq_coe (state : RatchetState Nat) :
    state.buffers = ↑(state.rootKey :: state.sending.secretKey :: (state.sendingChainKey.toList ++
      (state.receivingChainKey.toList ++ skippedBuffers state.skipped))) := by
  simp only [RatchetState.buffers, ← Multiset.coe_add, ← Multiset.cons_coe, ← Multiset.singleton_add]

/-- Nothing is left of a destroyed state but wiped buffers, and no other buffer is written to. -/
theorem destroyRatchet_wipes {held : Held K} (fits : held.Fits) :
    (∀ c ∈ held.state.buffers, (destroyRatchet crypto held).heap.cell c = crypto.wiped (held.heap.cell c)) ∧
      ∀ c ∉ held.state.buffers, (destroyRatchet crypto held).heap.cell c = held.heap.cell c := by
  have hcells := buffers_eq_coe held.state
  have hnodup := fits.nodup
  rw [hcells, Multiset.coe_nodup] at hnodup
  refine ⟨fun c hc => ?_, fun c hc => ?_⟩
  · exact Cells.cell_rewriteAll_of_mem _ _ hnodup (Multiset.mem_coe.mp (hcells ▸ hc))
  · exact Cells.cell_rewriteAll_of_not_mem _ _ (fun hmem => hc (hcells ▸ Multiset.mem_coe.mpr hmem))

theorem destroyRatchet_follows {held : Held K} (fits : held.Fits) :
    Veil.destroyRatchet crypto held.values = (destroyRatchet crypto held).values ∧
      Cells.Moves held.state.buffers (destroyRatchet crypto held).state.buffers held.heap
        (destroyRatchet crypto held).heap := by
  have hwipes := (destroyRatchet_wipes crypto fits).1
  have hchain : ∀ chainKey : Option Nat, (∀ c ∈ chainKey.toList, c ∈ held.state.buffers) →
      (chainKey.map held.heap.cell).map crypto.wiped = chainKey.map (destroyRatchet crypto held).heap.cell := by
    intro chainKey hmem
    cases chainKey with
    | none => rfl
    | some c => exact congrArg some (hwipes c (hmem c (by simp))).symm
  refine ⟨?_, ?_⟩
  · refine RatchetState.ext (hwipes _ (by simp [RatchetState.buffers])).symm ?_ rfl (hchain _ ?_) (hchain _ ?_) rfl rfl rfl
      rfl rfl rfl
    · exact congrArg (KeyPair.mk held.state.sending.publicKey) (hwipes _ (by simp [RatchetState.buffers])).symm
    · intro c hc
      simp only [RatchetState.buffers, Multiset.mem_add, Multiset.mem_coe]
      exact Or.inr (Or.inr (Or.inl hc))
    · intro c hc
      simp only [RatchetState.buffers, Multiset.mem_add, Multiset.mem_coe]
      exact Or.inr (Or.inr (Or.inr (Or.inl hc)))
  · have hcells := buffers_eq_coe held.state
    refine (Cells.Moves.rewriteAll fits crypto.wiped _ (fun c hc => hcells ▸ Multiset.mem_coe.mpr hc)).drop ?_
    have hempty : skippedBuffers OrderedMap.empty = [] := rfl
    simp only [RatchetState.buffers, destroyRatchet, hempty]
    exact add_le_add le_rfl (add_le_add le_rfl (add_le_add le_rfl (add_le_add le_rfl (Multiset.zero_le _))))

end

end Buffered

end Veil
