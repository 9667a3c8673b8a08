import Mathlib

namespace Runs

variable {σ : Type} {step : σ → σ → Prop}

/-- What every step preserves holds along every run. -/
theorem preserved {P : σ → Prop} (h : ∀ s t, step s t → P s → P t) {s t : σ}
    (run : Relation.ReflTransGen step s t) (hs : P s) : P t := by
  induction run with
  | refl => exact hs
  | tail _ hstep ih => exact h _ _ hstep ih

end Runs
