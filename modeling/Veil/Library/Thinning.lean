import Veil.Library.OrderedMap

universe u v

namespace OrderedMap

variable {κ : Type u} {ν : Type v} [DecidableEq κ] {lapsed later : ν → Prop} {thin full : OrderedMap κ ν}

/-- Key by key, `thin` has the entry of `full`, or has none where the entry of `full` has lapsed. -/
def Thinned (lapsed : ν → Prop) (thin full : OrderedMap κ ν) : Prop :=
  ∀ key, thin.get? key = full.get? key ∨ thin.get? key = none ∧ ∃ value, full.get? key = some value ∧ lapsed value

namespace Thinned

theorem refl (map : OrderedMap κ ν) : Thinned lapsed map map := fun _ => Or.inl rfl

theorem mono (h : Thinned lapsed thin full) (hmono : ∀ value, lapsed value → later value) :
    Thinned later thin full := by
  intro key
  rcases h key with hsame | ⟨hnone, value, hvalue, hlapsed⟩
  · exact Or.inl hsame
  · exact Or.inr ⟨hnone, value, hvalue, hmono value hlapsed⟩

theorem set (h : Thinned lapsed thin full) (key : κ) (value : ν) :
    Thinned lapsed (thin.set key value) (full.set key value) := by
  intro other
  by_cases hother : other = key
  · left
    rw [hother, get?_set_self, get?_set_self]
  · rw [get?_set_of_ne _ _ hother, get?_set_of_ne _ _ hother]
    exact h other

theorem delete (h : Thinned lapsed thin full) (key : κ) : Thinned lapsed (thin.delete key) (full.delete key) := by
  intro other
  by_cases hother : other = key
  · left
    rw [hother, get?_delete_self, get?_delete_self]
  · rw [get?_delete_of_ne _ hother, get?_delete_of_ne _ hother]
    exact h other

/-- An entry that is missing on one side can go on the other. -/
theorem delete_right (h : Thinned lapsed thin full) {key : κ} (hnone : thin.get? key = none) :
    Thinned lapsed thin (full.delete key) := by
  intro other
  by_cases hother : other = key
  · left
    rw [hother, hnone, get?_delete_self]
  · rw [get?_delete_of_ne _ hother]
    exact h other

/-- Dropping a lapsed entry thins further. -/
theorem delete_left (h : Thinned lapsed thin full) {key : κ} {value : ν} (hvalue : thin.get? key = some value)
    (hlapsed : lapsed value) : Thinned lapsed (thin.delete key) full := by
  intro other
  by_cases hother : other = key
  · right
    rw [hother]
    rcases h key with hsame | ⟨hnone, _⟩
    · exact ⟨get?_delete_self _ _, value, hsame.symm.trans hvalue, hlapsed⟩
    · rw [hnone] at hvalue
      cases hvalue
  · rw [get?_delete_of_ne _ hother]
    exact h other

/-- A sweep over entries of the map that have lapsed thins it further. -/
theorem sweep {swept : List (κ × ν)} (h : Thinned lapsed thin full)
    (hswept : ∀ entry ∈ swept, ∀ value, thin.get? entry.1 = some value → lapsed value) :
    Thinned lapsed (swept.foldl (fun map entry => map.delete entry.1) thin) full := by
  induction swept generalizing thin with
  | nil => exact h
  | cons entry swept ih =>
    have hrest : ∀ item ∈ swept, ∀ value, (thin.delete entry.1).get? item.1 = some value → lapsed value := by
      intro item hmem value hvalue
      rw [get?_delete] at hvalue
      split at hvalue
      next => cases hvalue
      next => exact hswept item (List.mem_cons_of_mem _ hmem) value hvalue
    apply ih _ hrest
    cases hget : thin.get? entry.1 with
    | none =>
      intro other
      by_cases hother : other = entry.1
      · have hentry := h entry.1
        rw [hget] at hentry
        rw [hother, get?_delete_self]
        exact hentry
      · rw [get?_delete_of_ne _ hother]
        exact h other
    | some value => exact h.delete_left hget (hswept entry List.mem_cons_self value hget)

/-- An entry that counts is on both sides. -/
theorem get?_eq (h : Thinned lapsed thin full) {key : κ} {value : ν} (hvalue : full.get? key = some value)
    (hcounts : ¬ lapsed value) : thin.get? key = some value := by
  rcases h key with hsame | ⟨_, other, hother, hlapsed⟩
  · exact hsame.trans hvalue
  · obtain rfl := Option.some.inj (hvalue.symm.trans hother)
    exact absurd hlapsed hcounts

theorem get?_eq_none (h : Thinned lapsed thin full) {key : κ} (hnone : full.get? key = none) :
    thin.get? key = none := by
  rcases h key with hsame | ⟨hmissing, _⟩
  · exact hsame.trans hnone
  · exact hmissing

/-- An entry of the thinned map is one of the full map. -/
theorem get?_full (h : Thinned lapsed thin full) {key : κ} {value : ν} (hvalue : thin.get? key = some value) :
    full.get? key = some value := by
  rcases h key with hsame | ⟨hnone, _⟩
  · exact hsame.symm.trans hvalue
  · rw [hnone] at hvalue
    cases hvalue

end Thinned

end OrderedMap
