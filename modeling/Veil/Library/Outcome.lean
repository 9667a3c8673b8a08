import Mathlib

namespace Outcome

variable {ε α β : Type}

theorem bind_eq_ok_iff {x : Except ε α} {f : α → Except ε β} {b : β} :
    (x >>= f) = .ok b ↔ ∃ a, x = .ok a ∧ f a = .ok b := by
  cases x with
  | error e => simp [bind, Except.bind]
  | ok a => simp [bind, Except.bind]

theorem pure_eq_ok_iff {a b : α} : (pure a : Except ε α) = .ok b ↔ a = b := by
  simp [pure, Except.pure]

@[simp] theorem ok_bind (a : α) (f : α → Except ε β) : ((.ok a : Except ε α) >>= f) = f a := rfl

@[simp] theorem error_bind (e : ε) (f : α → Except ε β) : ((.error e : Except ε α) >>= f) = .error e := rfl

theorem exists_of_isOk {x : Except ε α} (h : x.isOk = true) : ∃ a, x = .ok a := by
  cases x with
  | error e => cases h
  | ok a => exact ⟨a, rfl⟩

theorem mapM_ok_iff {f : α → Except ε β} {items : List α} :
    (∃ results, items.mapM f = .ok results) ↔ ∀ item ∈ items, ∃ result, f item = .ok result := by
  induction items with
  | nil => exact iff_of_true ⟨[], rfl⟩ fun item hmem => absurd hmem List.not_mem_nil
  | cons item items ih =>
    rw [List.forall_mem_cons, ← ih, List.mapM_cons]
    constructor
    · rintro ⟨results, h⟩
      obtain ⟨result, hresult, h⟩ := bind_eq_ok_iff.mp h
      obtain ⟨others, hothers, -⟩ := bind_eq_ok_iff.mp h
      exact ⟨⟨result, hresult⟩, others, hothers⟩
    · rintro ⟨⟨result, hresult⟩, others, hothers⟩
      refine ⟨result :: others, ?_⟩
      rw [hresult, ok_bind, hothers, ok_bind]
      rfl

end Outcome
