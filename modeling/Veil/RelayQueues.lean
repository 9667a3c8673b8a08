import Mathlib
import Veil.Library.Runs
import Veil.RelayStore

namespace Veil

/-- A call on the queues of the store. -/
inductive StoreCall
  | enqueue (message : QueuedMessage)
  | queued (address : String)
  | acknowledge (address : String) (ids : List Json)
  | expire (now : Int)

namespace RelayStore

/-- The store after a call, and the count the call returns. -/
def call (store : RelayStore) : StoreCall → RelayStore × Nat
  | .enqueue message => (store.enqueue message, 0)
  | .queued _ => (store, 0)
  | .acknowledge address ids => store.acknowledge address ids
  | .expire now => store.expire now

def messages (store : RelayStore) : List QueuedMessage := store.queues.entries.flatMap Prod.snd

/-- The messages of a store that are gone in a later one. -/
def gone (store later : RelayStore) : List QueuedMessage :=
  store.messages.filter (fun message => message.id ∉ later.messages.map QueuedMessage.id)

end RelayStore

/-- The store with all that was enqueued, in order, and all that was removed, each message with the call that removed
it. -/
structure QueueHistory where
  store : RelayStore := {}
  enqueued : List QueuedMessage := []
  removed : List (QueuedMessage × StoreCall) := []

namespace QueueHistory

def perform (history : QueueHistory) (call : StoreCall) : QueueHistory :=
  let store := (history.store.call call).1
  { store
    enqueued := match call with
      | .enqueue message => history.enqueued ++ [message]
      | _ => history.enqueued
    removed := history.removed ++ (history.store.gone store).map (fun message => (message, call)) }

/-- A message is enqueued under an id of its own. -/
def Distinct (history : QueueHistory) : StoreCall → Prop
  | .enqueue message => message.id ∉ history.enqueued.map QueuedMessage.id
  | _ => True

def Step (history next : QueueHistory) : Prop := ∃ call, history.Distinct call ∧ next = history.perform call

/-- Why a message was removed: its recipient acknowledged its id, it was too old, or enough messages for its recipient
came after it. -/
def Due (history : QueueHistory) (message : QueuedMessage) : StoreCall → Prop
  | .acknowledge address ids => address = message.envelope.recipient ∧ ids.any (Json.isText message.id) = true
  | .expire now => messageTtlMs ≤ now - message.receivedAt
  | .enqueue _ => ∃ later, maxQueueLength ≤ later.length ∧
      (∀ m ∈ later, m.envelope.recipient = message.envelope.recipient) ∧ (message :: later).Sublist history.enqueued
  | .queued _ => False

/-- Every queue keeps what was enqueued for its address in order and within the bound, and what was enqueued is either
there or was removed once, for a reason. -/
structure Conserved (history : QueueHistory) : Prop where
  distinct : (history.enqueued.map QueuedMessage.id).Nodup
  ordered : ∀ address, (history.store.queued address).Sublist
    (history.enqueued.filter (fun message => message.envelope.recipient = address))
  bounded : ∀ address, (history.store.queued address).length ≤ maxQueueLength
  removed : ∀ entry ∈ history.removed, entry.1 ∈ history.enqueued ∧ history.Due entry.1 entry.2
  accounted : ∀ message ∈ history.enqueued,
    (history.store.messages.map QueuedMessage.id).count message.id +
      (history.removed.map (fun entry => entry.1.id)).count message.id = 1

end QueueHistory

namespace RelayStore

variable {store : RelayStore} {message : QueuedMessage} {address other : String} {ids : List Json} {now : Int}

theorem mem_messages : message ∈ store.messages ↔ ∃ address, message ∈ store.queued address := by
  simp only [messages, List.mem_flatMap, queued]
  constructor
  · rintro ⟨⟨address, queue⟩, hentry, hmem⟩
    exact ⟨address, by rw [OrderedMap.get?_eq_some_iff.mpr hentry]; exact hmem⟩
  · rintro ⟨address, hmem⟩
    cases hqueue : store.queues.get? address with
    | none =>
      rw [hqueue] at hmem
      exact absurd hmem List.not_mem_nil
    | some queue =>
      rw [hqueue] at hmem
      exact ⟨(address, queue), OrderedMap.mem_of_get? hqueue, hmem⟩

theorem queued_enqueue : (store.enqueue message).queued address =
    if address = message.envelope.recipient then
      (store.queued address).drop ((store.queued address).length + 1 - maxQueueLength) ++ [message]
    else store.queued address := by
  simp only [enqueue, queued, OrderedMap.get?_set]
  split
  next heq =>
    have hpositive : 0 < maxQueueLength := by decide
    rw [heq, Option.getD_some, List.length_append, List.length_singleton, List.drop_append_of_le_length (by omega)]
  next => rfl

theorem queued_acknowledge : (store.acknowledge address ids).1.queued other =
    if other = address then unacknowledged ids (store.queued other) else store.queued other := by
  unfold acknowledge
  split
  next hnone =>
    split
    next heq => simp [queued, heq, hnone, unacknowledged]
    next => rfl
  next queue hqueue =>
    simp only [queued, OrderedMap.get?_set]
    split
    next heq => simp [heq, hqueue]
    next => rfl

theorem queued_expire : (store.expire now).1.queued address = unexpired now (store.queued address) := by
  simp only [expire, queued, OrderedMap.get?_mapValues]
  cases store.queues.get? address with
  | none => rfl
  | some queue => rfl

/-- A message that is in a queue afterwards was there before, or has just come. -/
theorem queued_call {call : StoreCall} (h : message ∈ (store.call call).1.queued address) :
    message ∈ store.queued address ∨ call = .enqueue message ∧ address = message.envelope.recipient := by
  cases call with
  | enqueue message' =>
    rw [RelayStore.call, queued_enqueue] at h
    split at h
    next heq =>
      rcases List.mem_append.mp h with h | h
      · exact Or.inl (List.mem_of_mem_drop h)
      · obtain rfl := List.mem_singleton.mp h
        exact Or.inr ⟨rfl, heq⟩
    next => exact Or.inl h
  | queued => exact Or.inl h
  | acknowledge address' ids =>
    rw [RelayStore.call, queued_acknowledge] at h
    split at h
    next => exact Or.inl (List.mem_of_mem_filter h)
    next => exact Or.inl h
  | expire now =>
    rw [RelayStore.call, queued_expire] at h
    exact Or.inl (List.mem_of_mem_filter h)

end RelayStore

namespace QueueHistory

variable {history later : QueueHistory} {call : StoreCall} {message message' : QueuedMessage} {address : String}

theorem Conserved.mem (h : history.Conserved) (hmem : message ∈ history.store.queued address) :
    message ∈ history.enqueued ∧ message.envelope.recipient = address := by
  have hfilter := List.mem_filter.mp ((h.ordered address).subset hmem)
  exact ⟨hfilter.1, of_decide_eq_true hfilter.2⟩

theorem Conserved.eq_of_id (h : history.Conserved) (hmem : message ∈ history.enqueued)
    (hmem' : message' ∈ history.enqueued) (hid : message.id = message'.id) : message = message' :=
  List.inj_on_of_nodup_map h.distinct hmem hmem' hid

/-- No id is in the queues twice. -/
theorem messages_nodup (distinct : (history.enqueued.map QueuedMessage.id).Nodup)
    (ordered : ∀ address, (history.store.queued address).Sublist
      (history.enqueued.filter (fun message => message.envelope.recipient = address))) :
    (history.store.messages.map QueuedMessage.id).Nodup := by
  have hqueued : ∀ entry ∈ history.store.queues.entries, history.store.queued entry.1 = entry.2 := by
    intro entry hentry
    rw [RelayStore.queued, OrderedMap.get?_eq_some_iff.mpr hentry, Option.getD_some]
  rw [RelayStore.messages, List.map_flatMap, List.nodup_flatMap]
  refine ⟨fun entry hentry => ?_, ?_⟩
  · rw [← hqueued entry hentry]
    exact ((((ordered entry.1).trans List.filter_sublist).map _).nodup distinct)
  · have hkeys := List.pairwise_map.mp history.store.queues.nodup
    refine hkeys.imp_of_mem ?_
    intro entry entry' hentry hentry' hne id hid hid'
    obtain ⟨message, hmem, rfl⟩ := List.mem_map.mp hid
    obtain ⟨message', hmem', heq⟩ := List.mem_map.mp hid'
    rw [← hqueued entry hentry] at hmem
    rw [← hqueued entry' hentry'] at hmem'
    have hin := List.mem_filter.mp ((ordered entry.1).subset hmem)
    have hin' := List.mem_filter.mp ((ordered entry'.1).subset hmem')
    have hsame := List.inj_on_of_nodup_map distinct hin'.1 hin.1 heq
    refine hne ?_
    rw [← of_decide_eq_true hin.2, ← of_decide_eq_true hin'.2, hsame]

/-- An id that is in the queues before, if it is there afterwards, is either there or gone. -/
theorem count_gone {store after : RelayStore} {id : String} (nodup : (store.messages.map QueuedMessage.id).Nodup)
    (nodup' : (after.messages.map QueuedMessage.id).Nodup)
    (kept : id ∈ after.messages.map QueuedMessage.id → id ∈ store.messages.map QueuedMessage.id) :
    (after.messages.map QueuedMessage.id).count id + ((store.gone after).map QueuedMessage.id).count id =
      (store.messages.map QueuedMessage.id).count id := by
  have hgone : (store.gone after).map QueuedMessage.id =
      (store.messages.map QueuedMessage.id).filter (fun id => id ∉ after.messages.map QueuedMessage.id) := by
    rw [List.filter_map]
    rfl
  rw [hgone]
  by_cases hin : id ∈ after.messages.map QueuedMessage.id
  · rw [List.count_eq_one_of_mem nodup' hin, List.count_eq_one_of_mem nodup (kept hin), List.count_eq_zero.mpr]
    intro hmem
    exact of_decide_eq_true (List.mem_filter.mp hmem).2 hin
  · rw [List.count_eq_zero.mpr hin, Nat.zero_add]
    exact List.count_filter (decide_eq_true hin)

theorem enqueued_subset : history.enqueued ⊆ (history.perform call).enqueued := by
  cases call with
  | enqueue message => exact List.subset_append_left _ _
  | queued | acknowledge | expire => exact List.Subset.refl _

theorem Due.mono {reason : StoreCall} (h : history.Due message reason) (enqueued : history.enqueued.Sublist later.enqueued) :
    later.Due message reason := by
  cases reason with
  | enqueue =>
    obtain ⟨later, hlength, hrecipient, hlater⟩ := h
    exact ⟨later, hlength, hrecipient, hlater.trans enqueued⟩
  | queued | acknowledge | expire => exact h

theorem enqueued_sublist : history.enqueued.Sublist (history.perform call).enqueued := by
  cases call with
  | enqueue message => exact List.sublist_append_left _ _
  | queued | acknowledge | expire => exact List.Sublist.refl _

/-- What a call has to do to the queues for their history to be kept. -/
theorem Conserved.next (h : history.Conserved) (distinct : history.Distinct call)
    (ordered : ∀ address, ((history.perform call).store.queued address).Sublist
      ((history.perform call).enqueued.filter (fun message => message.envelope.recipient = address)))
    (bounded : ∀ address, ((history.perform call).store.queued address).length ≤ maxQueueLength)
    (due : ∀ message ∈ history.store.gone (history.perform call).store, (history.perform call).Due message call) :
    (history.perform call).Conserved := by
  have hdistinct : ((history.perform call).enqueued.map QueuedMessage.id).Nodup := by
    cases call with
    | enqueue message =>
      have happend : ((history.perform (.enqueue message)).enqueued.map QueuedMessage.id) =
          history.enqueued.map QueuedMessage.id ++ [message.id] := List.map_append ..
      rw [happend]
      exact List.nodup_append.mpr ⟨h.distinct, List.nodup_singleton _, fun id hid id' hid' heq =>
        distinct (List.mem_singleton.mp hid' ▸ heq ▸ hid)⟩
    | queued | acknowledge | expire => exact h.distinct
  have hnodup := messages_nodup h.distinct h.ordered
  have hnodup' := messages_nodup hdistinct ordered
  have hpast : ∀ message ∈ history.store.messages, message ∈ history.enqueued := by
    intro message hmem
    obtain ⟨address, hmem⟩ := RelayStore.mem_messages.mp hmem
    exact (h.mem hmem).1
  refine ⟨hdistinct, ordered, bounded, fun entry hentry => ?_, fun message hmem => ?_⟩
  · rcases List.mem_append.mp hentry with hentry | hentry
    · obtain ⟨hin, hdue⟩ := h.removed entry hentry
      exact ⟨enqueued_subset hin, hdue.mono enqueued_sublist⟩
    · obtain ⟨message, hgone, rfl⟩ := List.mem_map.mp hentry
      exact ⟨enqueued_subset (hpast message (List.mem_filter.mp hgone).1), due message hgone⟩
  · have hremoved : (history.perform call).removed.map (fun entry => entry.1.id) =
        history.removed.map (fun entry => entry.1.id) ++
          (history.store.gone (history.perform call).store).map QueuedMessage.id := by
      simp only [perform, List.map_append, List.map_map, Function.comp_def]
    rw [hremoved, List.count_append]
    have hold : message ∈ history.enqueued ∨ call = .enqueue message ∧ message.id ∉ history.enqueued.map QueuedMessage.id := by
      cases call with
      | enqueue message' =>
        rcases List.mem_append.mp hmem with hmem | hmem
        · exact Or.inl hmem
        · obtain rfl := List.mem_singleton.mp hmem
          exact Or.inr ⟨rfl, distinct⟩
      | queued | acknowledge | expire => exact Or.inl hmem
    rcases hold with hold | ⟨rfl, hnew⟩
    · have hcount := @count_gone _ _ message.id hnodup hnodup' ?_
      · have hbefore := h.accounted message hold
        omega
      · intro hid
        obtain ⟨message', hmem', hid'⟩ := List.mem_map.mp hid
        obtain ⟨address, hmem'⟩ := RelayStore.mem_messages.mp hmem'
        rcases RelayStore.queued_call hmem' with hmem' | ⟨rfl, _⟩
        · exact List.mem_map.mpr ⟨message', RelayStore.mem_messages.mpr ⟨address, hmem'⟩, hid'⟩
        · exact absurd (List.mem_map.mpr ⟨message, hold, hid'.symm⟩) distinct
    · have hgone : ((history.store.gone (history.perform (.enqueue message)).store).map QueuedMessage.id).count message.id = 0 := by
        refine List.count_eq_zero.mpr (fun hid => hnew ?_)
        obtain ⟨message', hmem', hid'⟩ := List.mem_map.mp hid
        exact List.mem_map.mpr ⟨message', hpast message' (List.mem_filter.mp hmem').1, hid'⟩
      have hpastRemoved : (history.removed.map (fun entry => entry.1.id)).count message.id = 0 := by
        refine List.count_eq_zero.mpr (fun hid => hnew ?_)
        obtain ⟨entry, hentry, hid'⟩ := List.mem_map.mp hid
        exact List.mem_map.mpr ⟨entry.1, (h.removed entry hentry).1, hid'⟩
      have hpresent : message ∈ (history.perform (.enqueue message)).store.messages := by
        refine RelayStore.mem_messages.mpr ⟨message.envelope.recipient, ?_⟩
        show message ∈ (history.store.enqueue message).queued _
        rw [RelayStore.queued_enqueue, if_pos rfl]
        exact List.mem_append_right _ List.mem_cons_self
      rw [hgone, hpastRemoved, List.count_eq_one_of_mem hnodup' (List.mem_map_of_mem hpresent)]

theorem Conserved.enqueue (h : history.Conserved) (distinct : history.Distinct (.enqueue message)) :
    (history.perform (.enqueue message)).Conserved := by
  have hqueue : ∀ address, (history.perform (.enqueue message)).store.queued address = _ :=
    fun address => RelayStore.queued_enqueue
  have henqueued : (history.perform (.enqueue message)).enqueued = history.enqueued ++ [message] := rfl
  refine h.next distinct (fun address => ?_) (fun address => ?_) (fun message' hgone => ?_)
  · rw [hqueue, henqueued, List.filter_append]
    split
    next heq =>
      have hnew : [message].filter (fun message => message.envelope.recipient = address) = [message] :=
        List.filter_eq_self.mpr (fun m hm => by rw [List.mem_singleton.mp hm]; exact decide_eq_true heq.symm)
      rw [hnew]
      exact ((List.drop_sublist _ _).trans (h.ordered address)).append (List.Sublist.refl _)
    next => exact (h.ordered address).trans (List.sublist_append_left _ _)
  · rw [hqueue]
    have hbound := h.bounded address
    split
    next =>
      have hpositive : 0 < maxQueueLength := by decide
      rw [List.length_append, List.length_drop, List.length_singleton]
      omega
    next => exact hbound
  · obtain ⟨hmem, hout⟩ := List.mem_filter.mp hgone
    obtain ⟨address, hmem⟩ := RelayStore.mem_messages.mp hmem
    have hout : ∀ address, message' ∉ (history.perform (.enqueue message)).store.queued address := by
      intro address hin
      refine of_decide_eq_true hout (List.mem_map_of_mem (RelayStore.mem_messages.mpr ⟨address, hin⟩))
    have hleft := hout address
    have hbound := h.bounded address
    rw [hqueue] at hleft
    split at hleft
    next heq =>
      cases hqueued : history.store.queued address with
      | nil =>
        rw [hqueued] at hmem
        exact absurd hmem List.not_mem_nil
      | cons first rest =>
        rw [hqueued] at hmem hleft hbound
        have hfull : (first :: rest).length + 1 - maxQueueLength = 1 := by
          by_contra hroom
          have hzero : (first :: rest).length + 1 - maxQueueLength = 0 := by omega
          rw [hzero] at hleft
          exact hleft (List.mem_append_left _ hmem)
        rw [hfull] at hleft
        obtain rfl : message' = first := by
          rcases List.mem_cons.mp hmem with hfirst | hrest
          · exact hfirst
          · exact absurd (List.mem_append_left _ hrest) hleft
        have hrecipient : message'.envelope.recipient = address := (h.mem (hqueued ▸ List.mem_cons_self)).2
        refine ⟨rest ++ [message], ?_, fun m hm => ?_, ?_⟩
        · rw [List.length_append, List.length_singleton]
          rw [List.length_cons] at hfull
          omega
        · rw [hrecipient]
          rcases List.mem_append.mp hm with hm | hm
          · exact (h.mem (hqueued ▸ List.mem_cons_of_mem _ hm)).2
          · rw [List.mem_singleton.mp hm, heq]
        · rw [henqueued, ← List.cons_append]
          refine List.Sublist.append ?_ (List.Sublist.refl _)
          exact hqueued ▸ (h.ordered address).trans List.filter_sublist
    next => exact absurd hmem hleft

/-- A call that only takes messages out of queues. -/
theorem Conserved.filter (h : history.Conserved) (distinct : history.Distinct call)
    (enqueued : (history.perform call).enqueued = history.enqueued) (keep : String → QueuedMessage → Bool)
    (queued : ∀ address, (history.perform call).store.queued address = (history.store.queued address).filter (keep address))
    (due : ∀ message ∈ history.enqueued, keep message.envelope.recipient message = false →
      (history.perform call).Due message call) : (history.perform call).Conserved := by
  refine h.next distinct (fun address => ?_) (fun address => ?_) (fun message hgone => ?_)
  · rw [queued, enqueued]
    exact List.filter_sublist.trans (h.ordered address)
  · rw [queued]
    exact (List.length_filter_le _ _).trans (h.bounded address)
  · obtain ⟨hmem, hout⟩ := List.mem_filter.mp hgone
    obtain ⟨address, hmem⟩ := RelayStore.mem_messages.mp hmem
    obtain ⟨hin, rfl⟩ := h.mem hmem
    refine due message hin ?_
    by_contra hkeep
    refine of_decide_eq_true hout (List.mem_map_of_mem (RelayStore.mem_messages.mpr ⟨message.envelope.recipient, ?_⟩))
    rw [queued]
    exact List.mem_filter.mpr ⟨hmem, Bool.not_eq_false _ ▸ hkeep⟩

theorem Conserved.perform (h : history.Conserved) (distinct : history.Distinct call) : (history.perform call).Conserved := by
  cases call with
  | enqueue message => exact h.enqueue distinct
  | queued address =>
    refine h.filter distinct rfl (fun _ _ => true) (fun address => ?_) (fun _ _ => nofun)
    rw [List.filter_true]
    rfl
  | acknowledge address ids =>
    refine h.filter distinct rfl (fun other message => !(other = address && ids.any (Json.isText message.id)))
      (fun other => ?_) (fun message _ hkeep => ?_)
    · show (history.store.acknowledge address ids).1.queued other = _
      rw [RelayStore.queued_acknowledge]
      split
      next heq => simp [heq, RelayStore.unacknowledged]
      next hne => simp [hne]
    · have hnamed : message.envelope.recipient = address ∧ ids.any (Json.isText message.id) = true := by
        simpa using hkeep
      exact ⟨hnamed.1.symm, hnamed.2⟩
  | expire now =>
    refine h.filter distinct rfl (fun _ message => now - message.receivedAt < messageTtlMs) (fun address => ?_)
      (fun message _ hkeep => ?_)
    · exact RelayStore.queued_expire
    · exact Int.not_lt.mp (of_decide_eq_false hkeep)

theorem fresh_conserved : ({} : QueueHistory).Conserved where
  distinct := List.nodup_nil
  ordered _ := List.nil_sublist _
  bounded _ := Nat.zero_le _
  removed _ hentry := absurd hentry List.not_mem_nil
  accounted _ hmem := absurd hmem List.not_mem_nil

theorem sum_map_ite {entries : List (String × List QueuedMessage)} (nodup : (entries.map Prod.fst).Nodup)
    {queue : List QueuedMessage} (hentry : (address, queue) ∈ entries) (f : List QueuedMessage → Nat) :
    (entries.map (fun entry => if entry.1 = address then f entry.2 else 0)).sum = f queue := by
  induction entries with
  | nil => cases hentry
  | cons entry entries ih =>
    rw [List.map_cons, List.nodup_cons] at nodup
    rw [List.map_cons, List.sum_cons]
    rcases List.mem_cons.mp hentry with rfl | hentry
    · have hrest : (entries.map (fun entry => if entry.1 = address then f entry.2 else 0)).sum = 0 := by
        refine List.sum_eq_zero_iff_forall_eq_nat.mpr (fun n hn => ?_)
        obtain ⟨entry', hentry', rfl⟩ := List.mem_map.mp hn
        refine if_neg (fun heq => nodup.1 ?_)
        exact List.mem_map.mpr ⟨entry', hentry', heq⟩
      rw [if_pos rfl, hrest, Nat.add_zero]
    · have hne : entry.1 ≠ address := fun heq => nodup.1 (heq ▸ List.mem_map_of_mem hentry)
      rw [if_neg hne, Nat.zero_add, ih nodup.2 hentry]

/-- What a call that only takes messages out of queues takes out, counted queue by queue. -/
theorem Conserved.gone_length (h : history.Conserved) {after : RelayStore} (keep : String → QueuedMessage → Bool)
    (queued : ∀ address, after.queued address = (history.store.queued address).filter (keep address)) :
    (history.store.gone after).length = (history.store.queues.entries.map (fun entry =>
      entry.2.length - (entry.2.filter (keep entry.1)).length)).sum := by
  rw [RelayStore.gone, RelayStore.messages.eq_def history.store, List.filter_flatMap, List.length_flatMap]
  refine congrArg List.sum (List.map_congr_left (fun entry hentry => ?_))
  have hqueued : history.store.queued entry.1 = entry.2 := by
    rw [RelayStore.queued, OrderedMap.get?_eq_some_iff.mpr hentry, Option.getD_some]
  have hfilter : entry.2.filter (fun message => message.id ∉ after.messages.map QueuedMessage.id) =
      entry.2.filter (fun message => !keep entry.1 message) := by
    refine List.filter_congr (fun message hmem => ?_)
    rw [← hqueued] at hmem
    obtain ⟨hin, hrecipient⟩ := h.mem hmem
    cases hkeep : keep entry.1 message with
    | true =>
      refine decide_eq_false (fun hout => hout (List.mem_map_of_mem (RelayStore.mem_messages.mpr ⟨entry.1, ?_⟩)))
      rw [queued]
      exact List.mem_filter.mpr ⟨hmem, hkeep⟩
    | false =>
      refine decide_eq_true (fun hid => ?_)
      obtain ⟨message', hmem', hid'⟩ := List.mem_map.mp hid
      obtain ⟨address, hmem'⟩ := RelayStore.mem_messages.mp hmem'
      rw [queued] at hmem'
      obtain ⟨hmem', hkeep'⟩ := List.mem_filter.mp hmem'
      obtain ⟨hin', hrecipient'⟩ := h.mem hmem'
      obtain rfl := h.eq_of_id hin' hin hid'
      rw [← hrecipient', hrecipient, hkeep] at hkeep'
      cases hkeep'
  have hlength := List.length_eq_length_filter_add (l := entry.2) (keep entry.1)
  rw [hfilter]
  omega

/-- A message acknowledged or expired counts once in what the call returns. -/
theorem Conserved.counted (h : history.Conserved) :
    (∀ address ids, (history.store.acknowledge address ids).2 =
      (history.store.gone (history.store.acknowledge address ids).1).length) ∧
      ∀ now, (history.store.expire now).2 = (history.store.gone (history.store.expire now).1).length := by
  refine ⟨fun address ids => ?_, fun now => ?_⟩
  · have hqueued := fun other => @RelayStore.queued_acknowledge history.store address other ids
    rw [h.gone_length (fun other message => !(other = address && ids.any (Json.isText message.id))) (fun other => ?_)]
    · cases hqueue : history.store.queues.get? address with
      | none =>
        have hzero : (history.store.acknowledge address ids).2 = 0 := by simp only [RelayStore.acknowledge, hqueue]
        rw [hzero]
        refine (List.sum_eq_zero_iff_forall_eq_nat.mpr (fun n hn => ?_)).symm
        obtain ⟨entry, hentry, rfl⟩ := List.mem_map.mp hn
        have hne : entry.1 ≠ address := by
          rintro rfl
          rw [OrderedMap.get?_eq_some_iff.mpr hentry] at hqueue
          cases hqueue
        simp [hne]
      | some queue =>
        have hcount : (history.store.acknowledge address ids).2 =
            queue.length - (RelayStore.unacknowledged ids queue).length := by simp only [RelayStore.acknowledge, hqueue]
        rw [hcount, ← sum_map_ite history.store.queues.nodup (OrderedMap.mem_of_get? hqueue)
          (fun queue => queue.length - (RelayStore.unacknowledged ids queue).length)]
        refine congrArg List.sum (List.map_congr_left (fun entry _ => ?_))
        by_cases heq : entry.1 = address
        · simp [heq, RelayStore.unacknowledged]
        · simp [heq]
    · rw [hqueued]
      split
      next heq => simp [heq, RelayStore.unacknowledged]
      next hne => simp [hne]
  · rw [h.gone_length (fun _ message => now - message.receivedAt < messageTtlMs) (fun _ => RelayStore.queued_expire)]
    rfl

/-- Along every run with distinct ids, each message enqueued is in the queue of its recipient once and in no other, or was
removed once, for a reason; queues keep their order and their bound; and a call counts what it removes, an acknowledgement
only from the queue of its address. -/
theorem queue_conserved (run : Relation.ReflTransGen Step {} history) :
    (∀ message ∈ history.enqueued,
        (history.store.messages.map QueuedMessage.id).count message.id +
          (history.removed.map (fun entry => entry.1.id)).count message.id = 1 ∧
        ∀ address, ∀ message' ∈ history.store.queued address, message'.id = message.id →
          message' = message ∧ address = message.envelope.recipient) ∧
      (∀ entry ∈ history.removed, entry.1 ∈ history.enqueued ∧ history.Due entry.1 entry.2) ∧
      (∀ address, (history.store.queued address).Sublist
          (history.enqueued.filter (fun message => message.envelope.recipient = address)) ∧
        (history.store.queued address).length ≤ maxQueueLength) ∧
      (∀ address ids,
        (history.store.acknowledge address ids).2 = (history.store.gone (history.store.acknowledge address ids).1).length ∧
        ∀ other, other ≠ address → (history.store.acknowledge address ids).1.queued other = history.store.queued other) ∧
      ∀ now, (history.store.expire now).2 = (history.store.gone (history.store.expire now).1).length := by
  have h : history.Conserved := by
    refine Runs.preserved ?_ run fresh_conserved
    rintro history _ ⟨call, distinct, rfl⟩ h
    exact h.perform distinct
  refine ⟨fun message hmem => ⟨h.accounted message hmem, fun address message' hmem' hid => ?_⟩, h.removed,
    fun address => ⟨h.ordered address, h.bounded address⟩, fun address ids => ⟨h.counted.1 address ids, fun other hne => ?_⟩,
    h.counted.2⟩
  · obtain ⟨hin, hrecipient⟩ := h.mem hmem'
    obtain rfl := h.eq_of_id hin hmem hid
    exact ⟨rfl, hrecipient.symm⟩
  · rw [RelayStore.queued_acknowledge, if_neg hne]

def letter (id recipient : String) : QueuedMessage where
  id
  envelope := ⟨.obj [("recipient", .str recipient)], recipient, rfl⟩
  receivedAt := 0

/-- Two letters for one recipient, the first of which is acknowledged, and by a stranger the second too. -/
theorem queue_conserved_acknowledged : ∃ history : QueueHistory, history.enqueued = [letter "1" "bob", letter "2" "bob"] ∧
    history.removed.map (fun entry => entry.1.id) = ["1"] ∧
      (history.store.messages.map QueuedMessage.id).count "2" + (history.removed.map (fun entry => entry.1.id)).count "2" = 1 := by
  let calls : List StoreCall := [.enqueue (letter "1" "bob"), .enqueue (letter "2" "bob"), .acknowledge "bob" [.str "1"],
    .acknowledge "mallory" [.str "2"]]
  have run : Relation.ReflTransGen Step {} (calls.foldl perform {}) :=
    Relation.ReflTransGen.refl.tail ⟨calls[0], List.not_mem_nil, rfl⟩ |>.tail
      ⟨calls[1], (by decide : "2" ∉ ["1"]), rfl⟩ |>.tail ⟨calls[2], trivial, rfl⟩ |>.tail ⟨calls[3], trivial, rfl⟩
  refine ⟨calls.foldl perform {}, rfl, by decide, ?_⟩
  exact ((queue_conserved run).1 (letter "2" "bob") (List.mem_cons_of_mem _ List.mem_cons_self)).1

end QueueHistory

end Veil
