import Mathlib
import Veil.Library.OrderedMap

universe u v w x

namespace OrderedMap

section

variable {κ : Type u} {ν : Type v} {M : Type w} [AddCommMonoid M] (f : ν → M)

/-- What the values of a map come to together. -/
def total (m : OrderedMap κ ν) : M := (m.entries.map (fun entry => f entry.2)).sum

@[simp] theorem total_empty : total f (empty : OrderedMap κ ν) = 0 := rfl

variable [DecidableEq κ]

theorem delete_of_not_mem {m : OrderedMap κ ν} {k : κ} (h : k ∉ m.keys) : m.delete k = m := by
  apply ext
  refine List.filter_eq_self.mpr (fun entry hmem => decide_eq_true (fun heq => h ?_))
  exact heq ▸ List.mem_map_of_mem hmem

/-- An entry and the rest of the map. -/
theorem total_get {m : OrderedMap κ ν} {k : κ} {value : ν} (h : m.get? k = some value) :
    total f m = f value + total f (m.delete k) := by
  have hmem := get?_eq_some_iff.mp h
  obtain ⟨entries, nodup⟩ := m
  simp only [total, delete] at hmem ⊢
  clear h
  induction entries with
  | nil => cases hmem
  | cons first entries ih =>
    obtain ⟨hnot, hnodup⟩ := List.nodup_cons.mp nodup
    rcases List.mem_cons.mp hmem with rfl | hmem
    · have hothers : entries.filter (fun entry => entry.1 ≠ k) = entries := by
        refine List.filter_eq_self.mpr (fun entry he => decide_eq_true (fun heq => hnot ?_))
        have hkey : entry.1 ∈ entries.map Prod.fst := List.mem_map_of_mem he
        exact heq ▸ hkey
      rw [List.filter_cons_of_neg (by simp), hothers, List.map_cons, List.sum_cons]
    · have hkey : k ∈ entries.map Prod.fst := List.mem_map.mpr ⟨(k, value), hmem, rfl⟩
      have hne : first.1 ≠ k := fun heq => hnot (heq ▸ hkey)
      rw [List.filter_cons_of_pos (by simpa using hne), List.map_cons, List.map_cons, List.sum_cons, List.sum_cons,
        ih hnodup hmem, add_left_comm]

theorem total_set (m : OrderedMap κ ν) (k : κ) (value : ν) :
    total f (m.set k value) = f value + total f (m.delete k) := by
  have hget := get?_set_self m k value
  rw [total_get f hget]
  congr 1
  have hsame : ((m.set k value).delete k).entries = (m.delete k).entries := by
    unfold set
    split
    next hmem =>
      simp only [delete, List.filter_map]
      have hkeep : ∀ entry ∈ m.entries.filter (fun entry => decide (entry.1 ≠ k)),
          (entry.1, if entry.1 = k then value else entry.2) = entry := by
        intro entry he
        have hne : entry.1 ≠ k := of_decide_eq_true (List.mem_filter.mp he).2
        rw [if_neg hne]
      exact (List.map_congr_left hkeep).trans (List.map_id _)
    next hnot =>
      simp only [delete, List.filter_append]
      rw [List.filter_cons_of_neg (by simp), List.filter_nil, List.append_nil]
  rw [ext hsame]

theorem total_delete (m : OrderedMap κ ν) (k : κ) :
    total f m = (m.get? k).elim 0 f + total f (m.delete k) := by
  cases h : m.get? k with
  | none =>
    rw [delete_of_not_mem (get?_eq_none_iff.mp h)]
    exact (zero_add _).symm
  | some value => exact total_get f h

/-- Two readings of a map that agree outside `k` agree once `k` is set. -/
theorem mapValues_set_congr {ω : Type x} {f g : ν → ω} {m : OrderedMap κ ν} {k : κ} (value : ω)
    (h : ∀ j v, m.get? j = some v → j ≠ k → f v = g v) : (m.mapValues f).set k value = (m.mapValues g).set k value := by
  apply ext
  have hentries : ∀ entry ∈ m.entries, entry.1 ≠ k → f entry.2 = g entry.2 :=
    fun entry hmem hne => h entry.1 entry.2 (get?_eq_some_iff.mpr hmem) hne
  unfold set
  simp only [keys_mapValues]
  split
  next hmem =>
    simp only [mapValues, List.map_map]
    apply List.map_congr_left
    intro entry he
    by_cases hk : entry.1 = k
    · simp [hk]
    · simp [hk, hentries entry he hk]
  next hnot =>
    simp only [mapValues]
    congr 1
    apply List.map_congr_left
    intro entry he
    have hne : entry.1 ≠ k := fun heq => hnot (heq ▸ List.mem_map_of_mem he)
    rw [hentries entry he hne]

theorem mapValues_congr {ω : Type x} {f g : ν → ω} {m : OrderedMap κ ν} (h : ∀ j v, m.get? j = some v → f v = g v) :
    m.mapValues f = m.mapValues g := by
  apply ext
  apply List.map_congr_left
  intro entry hmem
  rw [h entry.1 entry.2 (get?_eq_some_iff.mpr hmem)]

end

section

variable {κ : Type u} {ν : Type v} {M : Type w} [AddCommMonoid M] [PartialOrder M] [CanonicallyOrderedAdd M] [DecidableEq κ]
  (f : ν → M)

theorem total_delete_le (m : OrderedMap κ ν) (k : κ) : total f (m.delete k) ≤ total f m := by
  rw [total_delete f m k]
  exact le_add_self

theorem le_total {m : OrderedMap κ ν} {k : κ} {value : ν} (h : m.get? k = some value) : f value ≤ total f m := by
  rw [total_get f h]
  exact le_self_add

theorem total_set_le [IsOrderedAddMonoid M] (m : OrderedMap κ ν) (k : κ) (value : ν) :
    total f (m.set k value) ≤ f value + total f m := by
  rw [total_set]
  exact add_le_add le_rfl (total_delete_le f m k)

end

end OrderedMap
