import Mathlib

namespace ReplayWindow

/-- The highest counter of a history; -1 before the first one. -/
def highest (accepted : Finset Int) : Int := accepted.fold max (-1) id

/-- What a receiver that forgets nothing accepts. -/
def Fresh (width : Int) (accepted : Finset Int) (counter : Int) : Prop :=
  counter ∉ accepted ∧ highest accepted - width < counter

instance (width : Int) (accepted : Finset Int) (counter : Int) : Decidable (Fresh width accepted counter) :=
  inferInstanceAs (Decidable (_ ∧ _))

@[simp] theorem highest_empty : highest ∅ = -1 := rfl

theorem highest_insert (accepted : Finset Int) (counter : Int) :
    highest (insert counter accepted) = max counter (highest accepted) := by
  simp [highest, Finset.fold_insert_idem]

theorem le_highest {accepted : Finset Int} {counter : Int} (h : counter ∈ accepted) : counter ≤ highest accepted := by
  induction accepted using Finset.induction with
  | empty => simp at h
  | insert a s _ ih =>
    rw [highest_insert]
    rcases Finset.mem_insert.mp h with rfl | hs
    · exact le_max_left _ _
    · exact (ih hs).trans (le_max_right _ _)

theorem neg_one_le_highest (accepted : Finset Int) : -1 ≤ highest accepted := by
  induction accepted using Finset.induction with
  | empty => rfl
  | insert a s _ ih =>
    rw [highest_insert]
    exact ih.trans (le_max_right _ _)

/-- `seen` and `high` are enough of the history to decide what comes next. -/
structure Covers (width : Int) (accepted seen : Finset Int) (high : Int) : Prop where
  nonneg : ∀ counter ∈ accepted, 0 ≤ counter
  top : high = highest accepted
  subset : seen ⊆ accepted
  recent : ∀ counter ∈ accepted, high - width < counter → counter ∈ seen
  bound : ∀ counter ∈ seen, high - width ≤ counter

namespace Covers

variable {width : Int} {accepted seen : Finset Int} {high counter : Int}

theorem empty (width : Int) : Covers width ∅ ∅ (-1) :=
  ⟨by simp, rfl, fun _ h => h, by simp, by simp⟩

/-- Past the window test, the window knows as much as the history. -/
theorem mem_iff (h : Covers width accepted seen high) (inside : high - width < counter) :
    counter ∈ seen ↔ counter ∈ accepted :=
  ⟨fun hs => h.subset hs, fun ha => h.recent counter ha inside⟩

theorem fresh_iff (h : Covers width accepted seen high) :
    Fresh width accepted counter ↔ counter ∉ seen ∧ high - width < counter := by
  rw [Fresh, ← h.top]
  constructor
  · rintro ⟨hnew, hin⟩
    exact ⟨fun hs => hnew (h.subset hs), hin⟩
  · rintro ⟨hnew, hin⟩
    exact ⟨fun ha => hnew (h.recent counter ha hin), hin⟩

/-- Accepting a counter and dropping any set of counters that have left the window. -/
theorem accept (h : Covers width accepted seen high) (hc : 0 ≤ counter) {seen' : Finset Int}
    (subset : seen' ⊆ insert counter seen)
    (recent : ∀ c ∈ insert counter seen, max counter high - width < c → c ∈ seen')
    (bound : ∀ c ∈ seen', max counter high - width ≤ c) :
    Covers width (insert counter accepted) seen' (max counter high) where
  nonneg c hmem := by
    rcases Finset.mem_insert.mp hmem with rfl | ha
    · exact hc
    · exact h.nonneg c ha
  top := by rw [highest_insert, h.top]
  subset := subset.trans (Finset.insert_subset_insert _ h.subset)
  recent c hmem hin := by
    refine recent c ?_ hin
    rcases Finset.mem_insert.mp hmem with rfl | ha
    · exact Finset.mem_insert_self _ _
    · have hle : high ≤ max counter high := le_max_right _ _
      exact Finset.mem_insert_of_mem (h.recent c ha (by omega))
  bound := bound

theorem card_le (h : Covers width accepted seen high) : (seen.card : Int) ≤ max 0 (width + 1) := by
  have hsub : seen ⊆ Finset.Icc (high - width) high := by
    intro c hc
    rw [Finset.mem_Icc]
    exact ⟨h.bound c hc, h.top ▸ le_highest (h.subset hc)⟩
  have hcard := Finset.card_le_card hsub
  rw [Int.card_Icc] at hcard
  omega

end Covers

end ReplayWindow
