import Mathlib

universe u v w

/-- A finite map that remembers insertion order, with distinct keys by construction. -/
structure OrderedMap (κ : Type u) (ν : Type v) where
  entries : List (κ × ν)
  nodup : (entries.map Prod.fst).Nodup

namespace OrderedMap

variable {κ : Type u} {ν : Type v} {ω : Type w}

@[ext] theorem ext {m n : OrderedMap κ ν} (h : m.entries = n.entries) : m = n := by
  cases m
  cases n
  cases h
  rfl

def empty : OrderedMap κ ν := ⟨[], List.nodup_nil⟩

instance : Inhabited (OrderedMap κ ν) := ⟨empty⟩

def size (m : OrderedMap κ ν) : Nat := m.entries.length

def keys (m : OrderedMap κ ν) : List κ := m.entries.map Prod.fst

def mapValues (f : ν → ω) (m : OrderedMap κ ν) : OrderedMap κ ω :=
  ⟨m.entries.map (fun e => (e.1, f e.2)), by
    simpa only [List.map_map, Function.comp_def] using m.nodup⟩

@[simp] theorem size_empty : (empty : OrderedMap κ ν).size = 0 := rfl

@[simp] theorem size_mapValues (f : ν → ω) (m : OrderedMap κ ν) : (m.mapValues f).size = m.size := by
  simp [size, mapValues]

@[simp] theorem keys_mapValues (f : ν → ω) (m : OrderedMap κ ν) : (m.mapValues f).keys = m.keys := by
  simp [keys, mapValues, Function.comp_def]

variable [DecidableEq κ]

def get? (m : OrderedMap κ ν) (k : κ) : Option ν :=
  (m.entries.find? (fun e => e.1 = k)).map Prod.snd

/-- A new key goes to the end; an old key keeps its place. -/
def set (m : OrderedMap κ ν) (k : κ) (v : ν) : OrderedMap κ ν :=
  if h : k ∈ m.keys then
    ⟨m.entries.map (fun e => (e.1, if e.1 = k then v else e.2)), by
      simpa only [List.map_map, Function.comp_def] using m.nodup⟩
  else
    ⟨m.entries ++ [(k, v)], by
      rw [List.map_append, List.nodup_append]
      refine ⟨m.nodup, by simp, ?_⟩
      intro a ha b hb
      have hk : b = k := by simpa using hb
      rintro rfl
      exact h (hk ▸ ha)⟩

def delete (m : OrderedMap κ ν) (k : κ) : OrderedMap κ ν :=
  ⟨m.entries.filter (fun e => e.1 ≠ k), m.nodup.sublist (List.filter_sublist.map _)⟩

@[simp] theorem get?_empty (k : κ) : (empty : OrderedMap κ ν).get? k = none := rfl

theorem mem_of_get? {m : OrderedMap κ ν} {k : κ} {v : ν} (h : m.get? k = some v) :
    (k, v) ∈ m.entries := by
  obtain ⟨e, he, hv⟩ := Option.map_eq_some_iff.mp h
  have hk : e.1 = k := by simpa using List.find?_some he
  subst hk
  subst hv
  exact List.mem_of_find?_eq_some he

theorem get?_eq_some_iff {m : OrderedMap κ ν} {k : κ} {v : ν} :
    m.get? k = some v ↔ (k, v) ∈ m.entries := by
  refine ⟨mem_of_get?, ?_⟩
  intro h
  have hf : (m.entries.find? (fun e => e.1 = k)).isSome :=
    List.find?_isSome.mpr ⟨(k, v), h, by simp⟩
  obtain ⟨e, he⟩ := Option.isSome_iff_exists.mp hf
  have hk : e.1 = k := by simpa using List.find?_some he
  have heq : e = (k, v) := List.inj_on_of_nodup_map m.nodup (List.mem_of_find?_eq_some he) h hk
  simp [get?, he, heq]

theorem get?_eq_none_iff {m : OrderedMap κ ν} {k : κ} : m.get? k = none ↔ k ∉ m.keys := by
  simp only [get?, keys, Option.map_eq_none_iff, List.find?_eq_none, List.mem_map, not_exists,
    not_and, decide_eq_true_eq]

theorem mem_keys_iff {m : OrderedMap κ ν} {k : κ} : k ∈ m.keys ↔ ∃ v, m.get? k = some v := by
  rw [← Option.isSome_iff_exists, ← Option.ne_none_iff_isSome, ne_eq, get?_eq_none_iff, not_not]

theorem get?_set (m : OrderedMap κ ν) (k j : κ) (v : ν) :
    (m.set k v).get? j = if j = k then some v else m.get? j := by
  apply Option.ext
  intro w
  rw [get?_eq_some_iff]
  unfold set
  split
  next hk =>
    simp only [List.mem_map, Prod.mk.injEq, Prod.exists]
    obtain ⟨old, hold⟩ := mem_keys_iff.mp hk
    constructor
    · rintro ⟨a, b, hm, rfl, rfl⟩
      by_cases ha : a = k
      · simp [ha]
      · simpa [ha] using get?_eq_some_iff.mpr hm
    · intro h
      by_cases hj : j = k
      · exact ⟨k, old, mem_of_get? hold, hj.symm, by simpa [hj] using h⟩
      · exact ⟨j, w, mem_of_get? (by simpa [hj] using h), rfl, by simp [hj]⟩
  next hk =>
    simp only [List.mem_append, List.mem_singleton, Prod.mk.injEq, ← get?_eq_some_iff]
    by_cases hj : j = k
    · subst hj
      simp [get?_eq_none_iff.mpr hk, eq_comm]
    · simp [hj]

@[simp] theorem get?_set_self (m : OrderedMap κ ν) (k : κ) (v : ν) : (m.set k v).get? k = some v := by
  simp [get?_set]

theorem get?_set_of_ne (m : OrderedMap κ ν) {k j : κ} (v : ν) (h : j ≠ k) :
    (m.set k v).get? j = m.get? j := by
  simp [get?_set, h]

/-- Putting down what is there changes nothing. -/
theorem set_eq_self_iff {m : OrderedMap κ ν} {k : κ} {v : ν} : m.set k v = m ↔ m.get? k = some v := by
  constructor
  · intro h
    rw [← h, get?_set_self]
  · intro h
    have hk : k ∈ m.keys := mem_keys_iff.mpr ⟨v, h⟩
    have hsame : ∀ e ∈ m.entries, (e.1, if e.1 = k then v else e.2) = e := by
      rintro ⟨j, w⟩ hmem
      by_cases hj : j = k
      · subst hj
        have hw : some w = some v := (get?_eq_some_iff.mpr hmem).symm.trans h
        simp [Option.some.inj hw]
      · simp [hj]
    apply ext
    simp only [set, hk, ↓reduceDIte]
    exact (List.map_congr_left hsame).trans (List.map_id m.entries)
theorem get?_delete (m : OrderedMap κ ν) (k j : κ) :
    (m.delete k).get? j = if j = k then none else m.get? j := by
  apply Option.ext
  intro w
  rw [get?_eq_some_iff]
  simp only [delete, List.mem_filter, decide_eq_true_eq]
  rw [← get?_eq_some_iff]
  by_cases hj : j = k <;> simp [hj]

@[simp] theorem get?_delete_self (m : OrderedMap κ ν) (k : κ) : (m.delete k).get? k = none := by
  simp [get?_delete]

theorem get?_delete_of_ne (m : OrderedMap κ ν) {k j : κ} (h : j ≠ k) :
    (m.delete k).get? j = m.get? j := by
  simp [get?_delete, h]

theorem entries_foldl_delete (keys : List κ) (m : OrderedMap κ ν) :
    (keys.foldl (fun m k => m.delete k) m).entries = m.entries.filter (fun e => e.1 ∉ keys) := by
  induction keys generalizing m with
  | nil => simp
  | cons k keys ih =>
    rw [List.foldl_cons, ih]
    simp only [delete, List.filter_filter]
    refine List.filter_congr fun e _ => ?_
    simp [Bool.and_comm]

@[simp] theorem get?_mapValues (f : ν → ω) (m : OrderedMap κ ν) (k : κ) :
    (m.mapValues f).get? k = (m.get? k).map f := by
  simp only [get?, mapValues, List.find?_map, Option.map_map]
  rfl

theorem mapValues_set (f : ν → ω) (m : OrderedMap κ ν) (k : κ) (v : ν) :
    (m.set k v).mapValues f = (m.mapValues f).set k (f v) := by
  apply ext
  unfold set
  by_cases h : k ∈ m.keys
  · simp only [keys_mapValues, h, ↓reduceDIte]
    simp only [mapValues, List.map_map]
    apply List.map_congr_left
    intro e _
    by_cases he : e.1 = k <;> simp [he]
  · simp only [keys_mapValues, h, ↓reduceDIte]
    simp [mapValues]

theorem mapValues_delete (f : ν → ω) (m : OrderedMap κ ν) (k : κ) :
    (m.delete k).mapValues f = (m.mapValues f).delete k := by
  apply ext
  simp only [mapValues, delete, List.filter_map]
  rfl

theorem size_set_of_get?_none {m : OrderedMap κ ν} {k : κ} (v : ν) (h : m.get? k = none) :
    (m.set k v).size = m.size + 1 := by
  simp [set, size, get?_eq_none_iff.mp h]

theorem size_set_le (m : OrderedMap κ ν) (k : κ) (v : ν) : (m.set k v).size ≤ m.size + 1 := by
  unfold set
  split <;> simp [size]

theorem size_set_of_get?_some {m : OrderedMap κ ν} {k : κ} {old : ν} (v : ν) (h : m.get? k = some old) :
    (m.set k v).size = m.size := by
  have hmem : k ∈ m.keys := mem_keys_iff.mpr ⟨old, h⟩
  simp [set, size, hmem]

theorem size_delete_le (m : OrderedMap κ ν) (k : κ) : (m.delete k).size ≤ m.size :=
  List.length_filter_le _ _

end OrderedMap
