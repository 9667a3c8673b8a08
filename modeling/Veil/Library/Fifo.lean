import Veil.Library.OrderedMap

universe u v w

namespace Fifo

variable {κ : Type u} {ν : Type v} {ω : Type w}

variable {stamp : ν → Nat} {map : OrderedMap κ ν} {next capacity : Nat} {queue : List (κ × ν)}

/-- The map has the items of the queue, each with a later stamp than the one before it, and all before `next`. -/
structure Stamped (stamp : ν → Nat) (map : OrderedMap κ ν) (next : Nat) (queue : List (κ × ν)) : Prop where
  same : map.entries.Perm queue
  rising : queue.Pairwise (fun item later => stamp item.2 < stamp later.2)
  before : ∀ item ∈ queue, stamp item.2 < next

namespace Stamped

theorem empty (next : Nat) : Stamped stamp (OrderedMap.empty : OrderedMap κ ν) next [] :=
  ⟨List.Perm.refl _, List.Pairwise.nil, List.forall_mem_nil _⟩

theorem length_eq (h : Stamped stamp map next queue) : map.size = queue.length := h.same.length_eq

theorem nodup (h : Stamped stamp map next queue) : (queue.map Prod.fst).Nodup :=
  (h.same.map Prod.fst).nodup_iff.mp map.nodup

theorem stamps_nodup (h : Stamped stamp map next queue) : (map.entries.map (fun entry => stamp entry.2)).Nodup := by
  have hstamps : (queue.map (fun item => stamp item.2)).Nodup := by
    rw [List.Nodup, List.pairwise_map]
    exact h.rising.imp fun hlt => Nat.ne_of_lt hlt
  exact (h.same.map fun entry => stamp entry.2).nodup_iff.mpr hstamps

/-- The entry with the least stamp is the head of the queue. -/
theorem oldest {first : κ × ν} {rest : List (κ × ν)} (h : Stamped stamp map next (first :: rest)) {entry : κ × ν}
    (hmem : entry ∈ map.entries) (hleast : ∀ other ∈ map.entries, stamp entry.2 ≤ stamp other.2) : entry = first := by
  have hfirst : first ∈ map.entries := h.same.mem_iff.mpr List.mem_cons_self
  have hle := hleast first hfirst
  rcases List.mem_cons.mp (h.same.mem_iff.mp hmem) with heq | hlater
  · exact heq
  · have hlt := (List.pairwise_cons.mp h.rising).1 entry hlater
    omega

end Stamped

variable [DecidableEq κ]

/-- The oldest goes when the queue is full; a key that comes again counts from now on. -/
def push (capacity : Nat) (queue : List (κ × ν)) (item : κ × ν) : List (κ × ν) :=
  (if capacity ≤ queue.length then queue.tail else queue).filter (fun other => other.1 ≠ item.1) ++ [item]

def take (queue : List (κ × ν)) (key : κ) : List (κ × ν) := queue.filter (fun item => item.1 ≠ key)

theorem length_push_le (hcapacity : 0 < capacity) (h : queue.length ≤ capacity) (item : κ × ν) :
    (push capacity queue item).length ≤ capacity := by
  have hkept : (if capacity ≤ queue.length then queue.tail else queue).length + 1 ≤ capacity := by
    split
    · rw [List.length_tail]
      omega
    · omega
  have hfilter := List.length_filter_le (fun other : κ × ν => other.1 ≠ item.1)
    (if capacity ≤ queue.length then queue.tail else queue)
  rw [push, List.length_append, List.length_singleton]
  omega

theorem length_take_le (queue : List (κ × ν)) (key : κ) : (take queue key).length ≤ queue.length :=
  List.length_filter_le _ _

theorem push_map (f : ν → ω) (queue : List (κ × ν)) (item : κ × ν) :
    push capacity (queue.map (fun item => (item.1, f item.2))) (item.1, f item.2) =
      (push capacity queue item).map (fun item => (item.1, f item.2)) := by
  have hdropped : (if capacity ≤ (queue.map (fun item => (item.1, f item.2))).length
      then (queue.map (fun item => (item.1, f item.2))).tail else queue.map (fun item => (item.1, f item.2))) =
      (if capacity ≤ queue.length then queue.tail else queue).map (fun item => (item.1, f item.2)) := by
    rw [List.length_map]
    split
    · exact List.map_tail.symm
    · rfl
  unfold push
  rw [hdropped, List.filter_map, List.map_append]
  rfl

theorem take_map (f : ν → ω) (queue : List (κ × ν)) (key : κ) :
    take (queue.map (fun item => (item.1, f item.2))) key = (take queue key).map (fun item => (item.1, f item.2)) :=
  List.filter_map

namespace Stamped

theorem delete (h : Stamped stamp map next queue) (key : κ) : Stamped stamp (map.delete key) next (take queue key) := by
  constructor
  · exact h.same.filter _
  · exact h.rising.filter _
  · intro item hmem
    exact h.before item (List.mem_filter.mp hmem).1

/-- A new entry, or an old one set anew, takes the next stamp. -/
theorem set (h : Stamped stamp map next queue) (key : κ) {value : ν} (hvalue : stamp value = next) :
    Stamped stamp (map.set key value) (next + 1) (queue.filter (fun other => other.1 ≠ key) ++ [(key, value)]) := by
  have hmem (entry : κ × ν) : entry ∈ (map.set key value).entries ↔
      entry ∈ queue.filter (fun other => other.1 ≠ key) ++ [(key, value)] := by
    obtain ⟨other, held⟩ := entry
    rw [← OrderedMap.get?_eq_some_iff, OrderedMap.get?_set, List.mem_append, List.mem_filter, List.mem_singleton,
      ← h.same.mem_iff, ← OrderedMap.get?_eq_some_iff, decide_eq_true_eq, Prod.mk.injEq]
    by_cases hother : other = key
    · rw [if_pos hother, Option.some.injEq]
      exact ⟨fun heq => Or.inr ⟨hother, heq.symm⟩, fun hcase => (hcase.resolve_left fun hne => hne.2 hother).2.symm⟩
    · rw [if_neg hother]
      exact ⟨fun hget => Or.inl ⟨hget, hother⟩, fun hcase => (hcase.resolve_right fun heq => hother heq.1).1⟩
  have hqueue : (queue.filter (fun other => other.1 ≠ key) ++ [(key, value)]).Nodup := by
    rw [List.nodup_append]
    refine ⟨(List.Nodup.of_map Prod.fst h.nodup).filter _, List.nodup_singleton _, ?_⟩
    intro item hitem other hother heq
    rw [List.mem_singleton] at hother
    have hne := of_decide_eq_true (List.mem_filter.mp hitem).2
    rw [heq, hother] at hne
    exact hne rfl
  constructor
  · exact (List.perm_ext_iff_of_nodup (List.Nodup.of_map Prod.fst (map.set key value).nodup) hqueue).mpr hmem
  · rw [List.pairwise_append]
    refine ⟨h.rising.filter _, List.pairwise_singleton _ _, ?_⟩
    intro item hitem other hother
    rw [List.mem_singleton.mp hother, hvalue]
    exact h.before item (List.mem_filter.mp hitem).1
  · intro item hitem
    rcases List.mem_append.mp hitem with hitem | hitem
    · exact Nat.lt_succ_of_lt (h.before item (List.mem_filter.mp hitem).1)
    · rw [List.mem_singleton.mp hitem, hvalue]
      exact Nat.lt_succ_self next

/-- Without its oldest, the map holds the rest of the queue. -/
theorem dropOldest {first : κ × ν} {rest : List (κ × ν)} (h : Stamped stamp map next (first :: rest)) :
    Stamped stamp (map.delete first.1) next rest := by
  have hrest : take (first :: rest) first.1 = rest := by
    rw [take, List.filter_cons_of_neg (by rw [decide_eq_true_eq]; exact not_not_intro rfl), List.filter_eq_self]
    intro item hitem
    have hnotin := (List.nodup_cons.mp h.nodup).1
    rw [decide_eq_true_eq]
    intro heq
    exact hnotin (heq ▸ List.mem_map_of_mem hitem)
  rw [← hrest]
  exact h.delete first.1

end Stamped

end Fifo
