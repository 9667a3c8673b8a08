import Mathlib

namespace Derivation

variable {α : Type} {rule : List α → α → Prop} {known known' : α → Prop}

/-- What follows from the known values by any number of rule applications. -/
inductive Derives (rule : List α → α → Prop) (known : α → Prop) : α → Prop
  | known {a : α} (h : known a) : Derives rule known a
  | apply {premises : List α} {a : α} (h : rule premises a) (derived : ∀ p ∈ premises, Derives rule known p) :
      Derives rule known a

/-- What follows from derived values was already derived. -/
theorem Derives.cut {a : α} (h : Derives rule known' a) (derived : ∀ k, known' k → Derives rule known k) :
    Derives rule known a := by
  induction h with
  | known h => exact derived _ h
  | apply h _ ih => exact .apply h ih

theorem Derives.mono {a : α} (h : Derives rule known a) (sub : ∀ k, known k → known' k) : Derives rule known' a :=
  h.cut (fun k hk => .known (sub k hk))

/-- A set no rule leads into from outside is out of reach if nothing of it is known. -/
theorem not_derives {guarded : α → Prop}
    (closed : ∀ premises a, rule premises a → guarded a → ∃ p ∈ premises, guarded p)
    (unknown : ∀ a, guarded a → ¬known a) {a : α} (h : guarded a) : ¬Derives rule known a := by
  intro hd
  induction hd with
  | known hk => exact unknown _ h hk
  | apply hr _ ih =>
    obtain ⟨p, hp, hg⟩ := closed _ _ hr h
    exact ih p hp hg

end Derivation
