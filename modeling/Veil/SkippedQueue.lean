import Veil.RatchetSteps
import Veil.Spelled
import Veil.Library.Fifo

namespace Veil

section

variable {K : Type} {skipped : OrderedMap String (SkippedKey K)} {next : Nat} {queue : List (String × K)}

/-- The scan ends on an entry whose sequence number is the least. -/
theorem oldestSkipped_least (h : skipped.entries ≠ []) :
    ∃ entry ∈ skipped.entries, oldestSkipped skipped = some (entry.1, entry.2.sequence) ∧
      ∀ other ∈ skipped.entries, entry.2.sequence ≤ other.2.sequence := by
  have hscan (older : Option (String × Nat) → String × SkippedKey K → Option (String × Nat))
      (holder : ∀ id sequence entry, older (some (id, sequence)) entry =
        if entry.2.sequence < sequence then some (entry.1, entry.2.sequence) else some (id, sequence))
      (entries : List (String × SkippedKey K)) (first : String × SkippedKey K) :
      ∃ entry ∈ first :: entries,
        entries.foldl older (some (first.1, first.2.sequence)) = some (entry.1, entry.2.sequence) ∧
        ∀ other ∈ first :: entries, entry.2.sequence ≤ other.2.sequence := by
    induction entries generalizing first with
    | nil =>
      refine ⟨first, List.mem_cons_self, rfl, fun other hmem => ?_⟩
      rw [List.mem_singleton.mp hmem]
    | cons second entries ih =>
      rw [List.foldl_cons, holder]
      by_cases hlt : second.2.sequence < first.2.sequence
      · rw [if_pos hlt]
        obtain ⟨entry, hmem, hfound, hleast⟩ := ih second
        refine ⟨entry, List.mem_cons_of_mem _ hmem, hfound, fun other hother => ?_⟩
        rcases List.mem_cons.mp hother with rfl | hother
        · exact Nat.le_trans (hleast second List.mem_cons_self) (Nat.le_of_lt hlt)
        · exact hleast other hother
      · rw [if_neg hlt]
        obtain ⟨entry, hmem, hfound, hleast⟩ := ih first
        have hfirst := hleast first List.mem_cons_self
        refine ⟨entry, ?_, hfound, fun other hother => ?_⟩
        · rcases List.mem_cons.mp hmem with rfl | hmem
          · exact List.mem_cons_self
          · exact List.mem_cons_of_mem _ (List.mem_cons_of_mem _ hmem)
        · rcases List.mem_cons.mp hother with rfl | hother
          · exact hfirst
          · rcases List.mem_cons.mp hother with rfl | hother
            · omega
            · exact hleast other (List.mem_cons_of_mem _ hother)
  cases hentries : skipped.entries with
  | nil => exact absurd hentries h
  | cons first entries =>
    unfold oldestSkipped
    rw [hentries, List.foldl_cons]
    exact hscan _ (fun _ _ _ => rfl) entries first

theorem evictOldest_stamped {items : List (String × SkippedKey K)}
    (h : Fifo.Stamped SkippedKey.sequence skipped next items) :
    Fifo.Stamped SkippedKey.sequence (evictOldest skipped) next
      (if maxSkippedKeys ≤ items.length then items.tail else items) := by
  unfold evictOldest
  rw [h.length_eq]
  split
  next hfull =>
    cases items with
    | nil => exact absurd (show maxSkippedKeys ≤ 0 from hfull) (by decide)
    | cons first rest =>
      have hsome : skipped.entries ≠ [] := by
        intro hnone
        have hlength := h.same.length_eq
        rw [hnone] at hlength
        cases hlength
      obtain ⟨entry, hmem, holdest, hleast⟩ := oldestSkipped_least hsome
      rw [holdest]
      dsimp only
      rw [h.oldest hmem hleast]
      exact h.dropOldest
  next => exact h

/-- The cache holds the keys of the queue, the oldest under the least sequence number, and no more than it may. -/
def Kept (skipped : OrderedMap String (SkippedKey K)) (next : Nat) (queue : List (String × K)) : Prop :=
  ∃ items, Fifo.Stamped SkippedKey.sequence skipped next items ∧
    items.map (fun item => (item.1, item.2.messageKey)) = queue ∧ items.length ≤ maxSkippedKeys

namespace Kept

theorem empty (next : Nat) : Kept (OrderedMap.empty : OrderedMap String (SkippedKey K)) next [] :=
  ⟨[], .empty next, rfl, Nat.zero_le _⟩

theorem remember (h : Kept skipped next queue) (id : String) (messageKey : K) :
    Kept ((evictOldest skipped).set id ⟨next, messageKey⟩) (next + 1)
      (Fifo.push maxSkippedKeys queue (id, messageKey)) := by
  obtain ⟨items, hstamped, rfl, hlength⟩ := h
  refine ⟨Fifo.push maxSkippedKeys items (id, ⟨next, messageKey⟩), (evictOldest_stamped hstamped).set id rfl, ?_, ?_⟩
  · exact (Fifo.push_map SkippedKey.messageKey items (id, ⟨next, messageKey⟩)).symm
  · exact Fifo.length_push_le (by decide) hlength _

theorem delete (h : Kept skipped next queue) (id : String) : Kept (skipped.delete id) next (Fifo.take queue id) := by
  obtain ⟨items, hstamped, rfl, hlength⟩ := h
  refine ⟨Fifo.take items id, hstamped.delete id, ?_, Nat.le_trans (Fifo.length_take_le items id) hlength⟩
  exact (Fifo.take_map SkippedKey.messageKey items id).symm

end Kept

/-- The key that a queue has under an id. -/
def cachedKey (queue : List (String × K)) (id : String) : Option K :=
  (queue.find? (fun item => item.1 = id)).map Prod.snd

theorem Kept.get? (h : Kept skipped next queue) (id : String) :
    (skipped.get? id).map SkippedKey.messageKey = cachedKey queue id := by
  obtain ⟨items, hstamped, rfl, -⟩ := h
  let ordered : OrderedMap String (SkippedKey K) := ⟨items, hstamped.nodup⟩
  have hsame : skipped.get? id = ordered.get? id := by
    apply Option.ext
    intro entry
    rw [OrderedMap.get?_eq_some_iff, OrderedMap.get?_eq_some_iff]
    exact hstamped.same.mem_iff
  rw [hsame, ← OrderedMap.get?_mapValues]
  rfl

section

variable (prim : RatchetPrimitives K)

/-- The keys of `count` numbers of a chain from `number` on, in order. -/
def chainKeys (receiving : Bytes) (number : Nat) (chainKey : K) (count : Nat) : List (String × K) :=
  (List.range count).map (fun i => (skippedKeyId receiving (number + i), messageKeyAfter prim chainKey i))

/-- The keys that catching up to `target` puts aside; too many of them, and it is none. -/
def catchUpKeys (state : RatchetState K) (target : Nat) : List (String × K) :=
  match state.receivingChainKey, state.receiving with
  | some chainKey, some receiving =>
    if target - state.receivedCount > maxSkipPerChain then []
    else chainKeys prim receiving state.receivedCount chainKey (target - state.receivedCount)
  | _, _ => []

/-- The keys of the old chain that a turn puts aside. -/
def turnKeys (state : RatchetState K) (header : RatchetHeader) : List (String × K) :=
  match prim.dh state.sending.secretKey header.ratchetPublicKey with
  | .error _ => []
  | .ok _ => catchUpKeys prim state header.previousChainLength

/-- The keys that a call derives when it has none for the message, in order: of the old chain first, then of the new one. -/
def derivedKeys (fresh : KeyPair K) (state : RatchetState K) (message : RatchetMessage) : List (String × K) :=
  if isNewRatchetKey state message.header then
    turnKeys prim state message.header ++
      match performDhRatchet prim fresh state message.header with
      | (turned, .ok ()) => catchUpKeys prim turned message.header.messageNumber
      | (_, .error _) => []
  else catchUpKeys prim state message.header.messageNumber

/-- What a call does to a queue: a key that opens the message is taken out, and otherwise the derived keys go in. -/
def queueAfter (fresh : KeyPair K) (state : RatchetState K) (message : RatchetMessage) (queue : List (String × K)) :
    List (String × K) :=
  let id := skippedKeyId message.header.ratchetPublicKey message.header.messageNumber
  if message.header.ratchetPublicKey.length ≠ 32 then queue
  else
    match cachedKey queue id with
    | some messageKey =>
      if (openWith prim messageKey state.associatedData message).isOk then Fifo.take queue id else queue
    | none => (derivedKeys prim fresh state message).foldl (Fifo.push maxSkippedKeys) queue

theorem length_catchUpKeys_le (state : RatchetState K) (target : Nat) :
    (catchUpKeys prim state target).length ≤ maxSkipPerChain := by
  unfold catchUpKeys chainKeys
  split
  next =>
    split
    next => exact Nat.zero_le _
    next hfew =>
      rw [List.length_map, List.length_range]
      exact Nat.not_lt.mp hfew
  next => exact Nat.zero_le _

theorem length_turnKeys_le (state : RatchetState K) (header : RatchetHeader) :
    (turnKeys prim state header).length ≤ maxSkipPerChain := by
  unfold turnKeys
  split
  next => exact Nat.zero_le _
  next => exact length_catchUpKeys_le prim state _

theorem length_derivedKeys_le (fresh : KeyPair K) (state : RatchetState K) (message : RatchetMessage) :
    (derivedKeys prim fresh state message).length ≤ 2 * maxSkipPerChain := by
  unfold derivedKeys
  split
  next =>
    have hturn := length_turnKeys_le prim state message.header
    rw [List.length_append]
    split
    next turned heq =>
      have hchain := length_catchUpKeys_le prim turned message.header.messageNumber
      omega
    next =>
      rw [List.length_nil]
      omega
  next =>
    have hchain := length_catchUpKeys_le prim state message.header.messageNumber
    omega

variable {prim}

/-- A cache after `keys` were put in: it holds the queue they were pushed into, and each took a sequence number. -/
def Inserted (keys : List (String × K)) (before after : RatchetState K) (queue : List (String × K)) : Prop :=
  Kept after.skipped after.skippedSequence (keys.foldl (Fifo.push maxSkippedKeys) queue) ∧
    after.skippedSequence = before.skippedSequence + keys.length

theorem rememberChain_kept (h : Kept skipped next queue) (receiving : Bytes) (chainKey : K) (number count : Nat) :
    Kept (rememberChain prim receiving chainKey number next skipped count) (next + count)
      ((chainKeys prim receiving number chainKey count).foldl (Fifo.push maxSkippedKeys) queue) := by
  induction count with
  | zero => exact h
  | succ count ih =>
    have hlast : chainKeys prim receiving number chainKey (count + 1) =
        chainKeys prim receiving number chainKey count ++
          [(skippedKeyId receiving (number + count), messageKeyAfter prim chainKey count)] := by
      rw [chainKeys, List.range_succ, List.map_append]
      rfl
    rw [hlast, List.foldl_append]
    exact ih.remember _ _

theorem skipReceivingKeys_inserted {state caught : RatchetState K} {target : Nat}
    (h : Kept state.skipped state.skippedSequence queue) (hskip : skipReceivingKeys prim state target = .ok caught) :
    Inserted (catchUpKeys prim state target) state caught queue := by
  cases hchain : state.receivingChainKey with
  | none =>
    rw [skipReceivingKeys_without_chain prim hchain] at hskip
    obtain rfl := Except.ok.inj hskip
    have hnone : catchUpKeys prim state target = [] := by rw [catchUpKeys, hchain]
    rw [hnone]
    exact ⟨h, rfl⟩
  | some chainKey =>
    cases hreceiving : state.receiving with
    | none =>
      have hsame : skipReceivingKeys prim state target = .ok state := by
        rw [skipReceivingKeys, hchain, hreceiving]
      obtain rfl := Except.ok.inj (hsame.symm.trans hskip)
      have hnone : catchUpKeys prim state target = [] := by rw [catchUpKeys, hchain, hreceiving]
      rw [hnone]
      exact ⟨h, rfl⟩
    | some receiving =>
      rw [skipReceivingKeys_eq prim hreceiving hchain] at hskip
      split at hskip
      next => cases hskip
      next hfew =>
        obtain rfl := Except.ok.inj hskip
        have hkeys : catchUpKeys prim state target =
            chainKeys prim receiving state.receivedCount chainKey (target - state.receivedCount) := by
          rw [catchUpKeys, hchain, hreceiving]
          exact if_neg hfew
        rw [hkeys]
        refine ⟨rememberChain_kept h receiving chainKey state.receivedCount _, ?_⟩
        rw [chainKeys, List.length_map, List.length_range]
        rfl

/-- A refused catch-up derives nothing. -/
theorem catchUpKeys_of_error {state : RatchetState K} {target : Nat} {e : Failure}
    (hskip : skipReceivingKeys prim state target = .error e) : catchUpKeys prim state target = [] := by
  unfold catchUpKeys
  split
  next chainKey receiving hchain hreceiving =>
    rw [skipReceivingKeys_eq prim hreceiving hchain] at hskip
    split at hskip
    next hmany => exact if_pos hmany
    next => cases hskip
  next => rfl

theorem Inserted.bounded {keys : List (String × K)} {before after : RatchetState K} {most : Nat}
    (h : Inserted keys before after queue) (few : keys.length ≤ most) :
    Kept after.skipped after.skippedSequence (keys.foldl (Fifo.push maxSkippedKeys) queue) ∧
      after.skippedSequence ≤ before.skippedSequence + most :=
  ⟨h.1, Nat.le_trans (Nat.le_of_eq h.2) (Nat.add_le_add_left few _)⟩

theorem Inserted.trans {first second : List (String × K)} {before between after : RatchetState K}
    (h : Inserted first before between queue)
    (h' : Inserted second between after (first.foldl (Fifo.push maxSkippedKeys) queue)) :
    Inserted (first ++ second) before after queue := by
  refine ⟨?_, ?_⟩
  · rw [List.foldl_append]
    exact h'.1
  · rw [h'.2, h.2, List.length_append, Nat.add_assoc]

theorem performDhRatchet_inserted {state : RatchetState K} (h : Kept state.skipped state.skippedSequence queue)
    (fresh : KeyPair K) (header : RatchetHeader) :
    Inserted (turnKeys prim state header) state (performDhRatchet prim fresh state header).1 queue := by
  unfold performDhRatchet turnKeys
  cases prim.dh state.sending.secretKey header.ratchetPublicKey with
  | error e => exact ⟨h, rfl⟩
  | ok receivingDh =>
    dsimp only
    cases hskip : skipReceivingKeys prim state header.previousChainLength with
    | error e =>
      rw [catchUpKeys_of_error hskip]
      exact ⟨h, rfl⟩
    | ok caught =>
      have hinserted := skipReceivingKeys_inserted h hskip
      dsimp only
      cases prim.dh fresh.secretKey header.ratchetPublicKey with
      | error e => exact hinserted
      | ok sendingDh => exact hinserted

/-- A message that fails after the catch-up leaves the keys that were put aside. -/
theorem receiveInChain_inserted {state : RatchetState K} (h : Kept state.skipped state.skippedSequence queue)
    (message : RatchetMessage) :
    Inserted (catchUpKeys prim state message.header.messageNumber) state (receiveInChain prim state message).1 queue := by
  unfold receiveInChain
  cases hskip : skipReceivingKeys prim state message.header.messageNumber with
  | error e =>
    rw [catchUpKeys_of_error hskip]
    exact ⟨h, rfl⟩
  | ok caught =>
    have hinserted := skipReceivingKeys_inserted h hskip
    dsimp only
    cases caught.receivingChainKey with
    | none => exact hinserted
    | some chainKey =>
      dsimp only
      split
      next => exact hinserted
      next =>
        cases openWith prim (prim.advanceChain chainKey).messageKey caught.associatedData message with
        | error e => exact hinserted
        | ok plaintext => exact hinserted

/-- One call does to the cache what it does to the queue. -/
theorem ratchetDecrypt_kept {state : RatchetState K} (h : Kept state.skipped state.skippedSequence queue)
    (fresh : KeyPair K) (message : RatchetMessage) :
    Kept (ratchetDecrypt prim fresh state message).1.skipped (ratchetDecrypt prim fresh state message).1.skippedSequence
        (queueAfter prim fresh state message queue) ∧
      (ratchetDecrypt prim fresh state message).1.skippedSequence ≤ state.skippedSequence + 2 * maxSkipPerChain := by
  unfold ratchetDecrypt queueAfter
  by_cases hlength : message.header.ratchetPublicKey.length ≠ 32
  · rw [if_pos hlength, if_pos hlength]
    exact ⟨h, Nat.le_add_right _ _⟩
  · rw [if_neg hlength, if_neg hlength]
    have hheld := h.get? (skippedKeyId message.header.ratchetPublicKey message.header.messageNumber)
    cases hget : state.skipped.get? (skippedKeyId message.header.ratchetPublicKey message.header.messageNumber) with
    | some entry =>
      rw [hget, Option.map_some] at hheld
      rw [← hheld]
      dsimp only
      cases hopen : openWith prim entry.messageKey state.associatedData message with
      | error e =>
        have htry : tryDecryptWithSkipped prim state message = (state, .error e) := by
          simp only [tryDecryptWithSkipped, hget, hopen]
        rw [htry]
        exact ⟨h, Nat.le_add_right _ _⟩
      | ok plaintext =>
        have htry : tryDecryptWithSkipped prim state message =
            ({ state with
                skipped :=
                  state.skipped.delete (skippedKeyId message.header.ratchetPublicKey message.header.messageNumber) },
              .ok (some plaintext)) := by
          simp only [tryDecryptWithSkipped, hget, hopen]
        rw [htry]
        exact ⟨h.delete _, Nat.le_add_right _ _⟩
    | none =>
      have htry : tryDecryptWithSkipped prim state message = (state, .ok none) := by
        simp only [tryDecryptWithSkipped, hget]
      rw [hget, Option.map_none] at hheld
      rw [← hheld, htry]
      have hfew := length_derivedKeys_le prim fresh state message
      refine Inserted.bounded ?_ hfew
      dsimp only
      unfold derivedKeys
      split
      next =>
        have hturn : Inserted (turnKeys prim state message.header) state
            (performDhRatchet prim fresh state message.header).1 queue :=
          performDhRatchet_inserted h fresh message.header
        cases hperform : performDhRatchet prim fresh state message.header with
        | mk turned result =>
          rw [hperform] at hturn
          cases result with
          | error e =>
            rw [List.append_nil]
            exact hturn
          | ok => exact hturn.trans (receiveInChain_inserted hturn.1 message)
      next => exact receiveInChain_inserted h message

variable (prim) in
/-- The queue along a run of calls. -/
def queueRun : RatchetState K → List (String × K) → List (KeyPair K × RatchetMessage) → List (String × K)
  | _, queue, [] => queue
  | state, queue, (fresh, message) :: inputs =>
    queueRun (ratchetDecrypt prim fresh state message).1 (queueAfter prim fresh state message queue) inputs

variable (prim) in
def ratchetRun (state : RatchetState K) (inputs : List (KeyPair K × RatchetMessage)) : RatchetState K :=
  inputs.foldl (fun state input => (ratchetDecrypt prim input.1 state input.2).1) state

theorem ratchetRun_kept {state : RatchetState K} (h : Kept state.skipped state.skippedSequence queue)
    (inputs : List (KeyPair K × RatchetMessage)) :
    Kept (ratchetRun prim state inputs).skipped (ratchetRun prim state inputs).skippedSequence
      (queueRun prim state queue inputs) := by
  induction inputs generalizing state queue with
  | nil => exact h
  | cons input inputs ih => exact ih (ratchetDecrypt_kept h input.1 input.2).1

variable (prim) in
/-- The catch-up loop, for as long as there is fuel; it is not done while there are numbers left. -/
def catchUpLoop (receiving : Bytes) (target : Nat) : Nat → RatchetState K → Option (RatchetState K)
  | 0, state => if state.receivedCount < target then none else some state
  | fuel + 1, state =>
    if state.receivedCount < target then catchUpLoop receiving target fuel (skipOne prim receiving state) else some state

theorem skipOne_chain {state : RatchetState K} {chainKey : K} (receiving : Bytes)
    (h : state.receivingChainKey = some chainKey) :
    (skipOne prim receiving state).receivingChainKey = some (prim.advanceChain chainKey).nextChainKey ∧
      (skipOne prim receiving state).receivedCount = state.receivedCount + 1 := by
  rw [skipOne, h]
  exact ⟨rfl, rfl⟩

/-- The loop ends once the numbers below the target are used up, one a round. -/
theorem catchUpLoop_eq {state : RatchetState K} {chainKey : K} (receiving : Bytes)
    (h : state.receivingChainKey = some chainKey) {target fuel : Nat} (hfuel : target - state.receivedCount ≤ fuel) :
    catchUpLoop prim receiving target fuel state =
      some ((skipOne prim receiving)^[target - state.receivedCount] state) := by
  induction fuel generalizing state chainKey with
  | zero =>
    have hnone : target - state.receivedCount = 0 := by omega
    rw [catchUpLoop, if_neg (by omega), hnone]
    rfl
  | succ fuel ih =>
    rw [catchUpLoop]
    by_cases hmore : state.receivedCount < target
    · obtain ⟨hchain, hcount⟩ :
          (skipOne prim receiving state).receivingChainKey = some (prim.advanceChain chainKey).nextChainKey ∧
            (skipOne prim receiving state).receivedCount = state.receivedCount + 1 := skipOne_chain receiving h
      have hrounds : target - state.receivedCount =
          (target - (skipOne prim receiving state).receivedCount) + 1 := by
        rw [hcount]
        omega
      rw [if_pos hmore, ih hchain (by omega), hrounds, Function.iterate_succ_apply]
    · have hnone : target - state.receivedCount = 0 := by omega
      rw [if_neg hmore, hnone]
      rfl

/-- Catching up is refused before the first round, or its loop ends within the bound, at what the call goes on with. -/
theorem catchUpLoop_terminates {state : RatchetState K} {receiving : Bytes} {chainKey : K} (target : Nat)
    (hreceiving : state.receiving = some receiving) (hchain : state.receivingChainKey = some chainKey) :
    (∃ e, skipReceivingKeys prim state target = .error e) ∨
      ∃ caught, skipReceivingKeys prim state target = .ok caught ∧
        catchUpLoop prim receiving target maxSkipPerChain state = some caught := by
  by_cases hmany : target - state.receivedCount > maxSkipPerChain
  · left
    rw [skipReceivingKeys_eq prim hreceiving hchain, if_pos hmany]
    exact ⟨_, rfl⟩
  · right
    refine ⟨_, ?_, catchUpLoop_eq receiving hchain (Nat.not_lt.mp hmany)⟩
    rw [skipReceivingKeys_eq prim hreceiving hchain, if_neg hmany, skipOne_iterate prim receiving hchain]
    rfl

variable (prim) in
/-- After these calls the cache is a queue of at most so many keys: the derived ones in order, without those that opened a
message and those that had to make room. A further call adds a bounded number, and its loops end. -/
structure BoundedFifo (state : RatchetState K) (inputs : List (KeyPair K × RatchetMessage)) : Prop where
  size : (ratchetRun prim state inputs).skipped.size ≤ maxSkippedKeys
  distinct : ((ratchetRun prim state inputs).skipped.entries.map (fun entry => entry.2.sequence)).Nodup
  before : ∀ entry ∈ (ratchetRun prim state inputs).skipped.entries,
    entry.2.sequence < (ratchetRun prim state inputs).skippedSequence
  queue : ∃ items, Fifo.Stamped SkippedKey.sequence (ratchetRun prim state inputs).skipped
      (ratchetRun prim state inputs).skippedSequence items ∧
    items.map (fun item => (item.1, item.2.messageKey)) = queueRun prim state [] inputs
  inserts : ∀ fresh message,
    (derivedKeys prim fresh (ratchetRun prim state inputs) message).length ≤ 2 * maxSkipPerChain ∧
    (ratchetDecrypt prim fresh (ratchetRun prim state inputs) message).1.skippedSequence ≤
      (ratchetRun prim state inputs).skippedSequence + 2 * maxSkipPerChain
  loops : ∀ (reached : RatchetState K) receiving chainKey target, reached.receiving = some receiving →
    reached.receivingChainKey = some chainKey →
      (∃ e, skipReceivingKeys prim reached target = .error e) ∨
        ∃ caught, skipReceivingKeys prim reached target = .ok caught ∧
          catchUpLoop prim receiving target maxSkipPerChain reached = some caught

/-- Whatever is received, hostile or not. -/
theorem skipped_fifo (prim : RatchetPrimitives K) {state : RatchetState K} (initial : state.skipped = OrderedMap.empty)
    (inputs : List (KeyPair K × RatchetMessage)) : BoundedFifo prim state inputs := by
  have hstart : Kept state.skipped state.skippedSequence [] := by
    rw [initial]
    exact .empty _
  obtain ⟨items, hstamped, hqueue, hlength⟩ : Kept (ratchetRun prim state inputs).skipped
      (ratchetRun prim state inputs).skippedSequence (queueRun prim state [] inputs) := ratchetRun_kept hstart inputs
  refine ⟨?_, hstamped.stamps_nodup, ?_, ⟨items, hstamped, hqueue⟩, ?_, ?_⟩
  · rw [hstamped.length_eq]
    exact hlength
  · intro entry hmem
    exact hstamped.before entry (hstamped.same.mem_iff.mp hmem)
  · intro fresh message
    exact ⟨length_derivedKeys_le prim fresh _ message, (ratchetDecrypt_kept ⟨items, hstamped, hqueue, hlength⟩ fresh message).2⟩
  · intro reached receiving chainKey target hreceiving hchain
    exact catchUpLoop_terminates target hreceiving hchain

end

end

/-- A responder that is sent what it cannot read. -/
theorem skipped_fifo_responder :
    BoundedFifo spelled.toRatchetPrimitives (initialiseResponder [1] (spelledPair 32 14) [2])
      [(spelledPair 32 15, ⟨⟨List.replicate 32 7, 0, 3⟩, [4]⟩), (spelledPair 32 16, ⟨⟨List.replicate 32 8, 2, 1⟩, [5]⟩)] :=
  skipped_fifo spelled.toRatchetPrimitives rfl _

end Veil
