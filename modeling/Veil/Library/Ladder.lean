import Mathlib

namespace Ladder

variable {α : Type} [LinearOrder α] {step : α → α} {start target : α} {rounds : Nat}

/-- At most `rounds` steps are taken. -/
def climb (step : α → α) (target : α) : Nat → α → α
  | 0, rung => rung
  | rounds + 1, rung => if rung < target then climb step target rounds (step rung) else rung

/-- The rungs that are high enough. -/
def above (step : α → α) (start target : α) : Set α := {rung | (∃ n, step^[n] start = rung) ∧ target ≤ rung}

/-- The climb ends on a rung with only too low ones before it. -/
theorem climb_eq_iterate (step : α → α) (target : α) (rounds : Nat) (start : α) :
    ∃ n, climb step target rounds start = step^[n] start ∧ ∀ m < n, step^[m] start < target := by
  induction rounds generalizing start with
  | zero => exact ⟨0, rfl, fun m hm => absurd hm (Nat.not_lt_zero m)⟩
  | succ rounds ih =>
    by_cases hlow : start < target
    · obtain ⟨n, hn, hbelow⟩ := ih (step start)
      refine ⟨n + 1, ?_, ?_⟩
      · rw [climb, if_pos hlow, hn, Function.iterate_succ_apply]
      · intro m hm
        cases m with
        | zero => exact hlow
        | succ m =>
          rw [Function.iterate_succ_apply]
          exact hbelow m (Nat.lt_of_succ_lt_succ hm)
    · refine ⟨0, ?_, fun m hm => absurd hm (Nat.not_lt_zero m)⟩
      rw [climb, if_neg hlow]
      rfl

/-- A climb that gets high enough ends on the lowest rung that is. -/
theorem isLeast_climb (inflationary : id ≤ step) (reached : target ≤ climb step target rounds start) :
    IsLeast (above step start target) (climb step target rounds start) := by
  obtain ⟨n, hn, hbelow⟩ := climb_eq_iterate step target rounds start
  refine ⟨⟨⟨n, hn.symm⟩, reached⟩, ?_⟩
  rintro rung ⟨⟨m, rfl⟩, hhigh⟩
  have hle : n ≤ m := by
    by_contra hlt
    exact absurd (hbelow m (Nat.lt_of_not_le hlt)) (not_lt.mpr hhigh)
  rw [hn]
  exact Function.monotone_iterate_of_id_le inflationary hle start

/-- The last step is from a rung that is too low. -/
theorem climb_eq_start_or_step (step : α → α) (target : α) (rounds : Nat) (start : α) :
    climb step target rounds start = start ∨ ∃ rung < target, climb step target rounds start = step rung := by
  obtain ⟨n, hn, hbelow⟩ := climb_eq_iterate step target rounds start
  cases n with
  | zero => exact Or.inl hn
  | succ n =>
    refine Or.inr ⟨step^[n] start, hbelow n (Nat.lt_succ_self n), ?_⟩
    rw [hn, Function.iterate_succ_apply']

theorem above_antitone {target' : α} (h : target ≤ target') : above step start target' ⊆ above step start target :=
  fun _ hrung => ⟨hrung.1, h.trans hrung.2⟩

/-- A higher target needs no lower rung. -/
theorem least_mono {target' low high : α} (hlow : IsLeast (above step start target) low)
    (hhigh : IsLeast (above step start target') high) (h : target ≤ target') : low ≤ high :=
  hhigh.mono hlow (above_antitone h)

/-- The rung that is reached is the lowest that is as high as itself. -/
theorem least_self {rung : α} (h : IsLeast (above step start target) rung) : IsLeast (above step start rung) rung :=
  ⟨⟨h.1.1, le_refl rung⟩, fun _ hother => hother.2⟩

end Ladder
