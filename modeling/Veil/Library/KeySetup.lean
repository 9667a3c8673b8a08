import Mathlib
import Veil.Library.Runs

/-- Sessions begun one after another. In each, requests are taken up that later derive a key from the session's secret
and the latest description. -/
structure KeySetup (δ : Type) where
  begun : Nat := 0
  secret : Bool := false
  keyed : Bool := false
  described : Option δ := none
  reported : List δ := []
  pending : List Nat := []
  derived : List (Nat × δ) := []

namespace KeySetup

variable {δ : Type}

/-- A request is taken up in a session that has no key and no other request, or no secret; a request derives or settles
in its own session. -/
inductive Step : KeySetup δ → KeySetup δ → Prop
  | begin (w : KeySetup δ) (secret : Bool) (kept : w.secret = true → secret = true) :
      Step w { w with begun := w.begun + 1, secret }
  | request (w : KeySetup δ) (idle : w.secret = true → w.keyed = false ∧ w.begun ∉ w.pending) :
      Step w { w with pending := w.pending ++ [w.begun] }
  | describe (w : KeySetup δ) (d : δ) : Step w { w with described := some d, reported := w.reported ++ [d] }
  | settle (w : KeySetup δ) (before after : List Nat) (number : Nat) (pending : w.pending = before ++ number :: after) :
      Step w { w with pending := before ++ after }
  | derive (w : KeySetup δ) (before after : List Nat) (d : δ) (installs : Bool)
      (pending : w.pending = before ++ w.begun :: after) (secret : w.secret = true) (described : w.described = some d) :
      Step w { w with
        pending := before ++ after, keyed := true
        derived := if installs then w.derived ++ [(w.begun, d)] else w.derived }
  | clear (w : KeySetup δ) : Step w { w with secret := false, keyed := false, described := none }

/-- A session has one request at a time, and none once it has a key. -/
structure Single (w : KeySetup δ) : Prop where
  pending : ∀ number ∈ w.pending, number ≤ w.begun
  derived : ∀ entry ∈ w.derived, entry.1 ≤ w.begun
  idle : w.secret = true → w.begun ∈ w.pending → w.keyed = false
  one : w.secret = true → w.pending.count w.begun ≤ 1
  keyed : w.keyed = true → w.secret = true
  current : w.secret = true → ∀ entry ∈ w.derived, entry.1 = w.begun → w.keyed = true
  sessions : (w.derived.map Prod.fst).Nodup

/-- Only the session that has a key may have derived one from the latest description. -/
structure Fresh (w : KeySetup δ) : Prop where
  derived : ∀ entry ∈ w.derived, entry.2 ∈ w.reported
  described : ∀ d, w.described = some d → d ∈ w.reported
  stale : ∀ d, w.described = some d → ∀ entry ∈ w.derived, entry.2 = d → w.keyed = true
  descriptions : (w.derived.map Prod.snd).Nodup

variable {w next : KeySetup δ}

theorem Single.begin (h : w.Single) {secret : Bool} (kept : w.secret = true → secret = true) :
    Single { w with begun := w.begun + 1, secret } where
  pending number hmem := Nat.le_succ_of_le (h.pending number hmem)
  derived entry hmem := Nat.le_succ_of_le (h.derived entry hmem)
  idle _ hmem := absurd (h.pending _ hmem) (Nat.not_succ_le_self _)
  one _ := by
    rw [List.count_eq_zero.mpr (fun hmem => absurd (h.pending _ hmem) (Nat.not_succ_le_self _))]
    exact Nat.zero_le 1
  keyed hkeyed := kept (h.keyed hkeyed)
  current _ entry hmem heq := by
    have hle := h.derived entry hmem
    rw [heq] at hle
    exact absurd hle (Nat.not_succ_le_self _)
  sessions := h.sessions

theorem Single.request (h : w.Single) (idle : w.secret = true → w.keyed = false ∧ w.begun ∉ w.pending) :
    Single { w with pending := w.pending ++ [w.begun] } where
  pending number hmem := by
    rcases List.mem_append.mp hmem with hmem | hmem
    · exact h.pending number hmem
    · exact Nat.le_of_eq (List.mem_singleton.mp hmem)
  derived := h.derived
  idle hsecret _ := (idle hsecret).1
  one hsecret := by
    simp only [List.count_append, List.count_eq_zero.mpr (idle hsecret).2, List.count_singleton_self]
    omega
  keyed := h.keyed
  current := h.current
  sessions := h.sessions

theorem Single.settle (h : w.Single) {before after : List Nat} {number : Nat}
    (pending : w.pending = before ++ number :: after) : Single { w with pending := before ++ after } := by
  have sub : (before ++ after).Sublist w.pending := by
    rw [pending]
    exact (List.Sublist.refl before).append (List.sublist_cons_self number after)
  exact ⟨fun n hmem => h.pending n (sub.subset hmem), h.derived, fun hsecret hmem => h.idle hsecret (sub.subset hmem),
    fun hsecret => Nat.le_trans (sub.count_le _) (h.one hsecret), h.keyed, h.current, h.sessions⟩

/-- A request that derives finds no key. -/
theorem Single.unkeyed (h : w.Single) {before after : List Nat} (pending : w.pending = before ++ w.begun :: after)
    (secret : w.secret = true) : w.keyed ≠ true := by
  have hmem : w.begun ∈ w.pending := by
    rw [pending]
    exact List.mem_append_right _ List.mem_cons_self
  rw [h.idle secret hmem]
  nofun

/-- What has been derived after a derivation, with or without a use for the key. -/
theorem mem_derived {installs : Bool} {derived : List (Nat × δ)} {last entry : Nat × δ}
    (h : entry ∈ (if installs then derived ++ [last] else derived)) : entry ∈ derived ∨ entry = last := by
  split at h
  next =>
    rcases List.mem_append.mp h with hold | hnew
    · exact Or.inl hold
    · exact Or.inr (List.mem_singleton.mp hnew)
  next => exact Or.inl h

/-- A list of what is derived keeps its values apart if the last one is new. -/
theorem nodup_derived {γ : Type} {installs : Bool} {derived : List (Nat × δ)} {last : Nat × δ} (f : Nat × δ → γ)
    (h : (derived.map f).Nodup) (fresh : ∀ entry ∈ derived, f entry ≠ f last) :
    ((if installs then derived ++ [last] else derived).map f).Nodup := by
  split
  next =>
    simp only [List.map_append, List.map_cons, List.map_nil]
    refine List.nodup_append.mpr ⟨h, List.nodup_singleton _, ?_⟩
    rintro a hin _ hlast rfl
    obtain ⟨entry, hentry, rfl⟩ := List.mem_map.mp hin
    exact fresh entry hentry (List.mem_singleton.mp hlast)
  next => exact h

theorem Single.derive (h : w.Single) {before after : List Nat} {d : δ} (installs : Bool)
    (pending : w.pending = before ++ w.begun :: after) (secret : w.secret = true) :
    Single { w with
      pending := before ++ after, keyed := true
      derived := if installs then w.derived ++ [(w.begun, d)] else w.derived } := by
  have hsettle := h.settle pending
  have last : w.begun ∉ before ++ after := by
    have hone := h.one secret
    rw [pending, List.count_append, List.count_cons_self] at hone
    intro hin
    have := List.count_pos_iff.mpr hin
    rw [List.count_append] at this
    omega
  refine ⟨hsettle.pending, ?_, fun _ hin => absurd hin last, hsettle.one, fun _ => secret, fun _ _ _ _ => rfl, ?_⟩
  · intro entry hentry
    rcases mem_derived hentry with hold | rfl
    · exact h.derived entry hold
    · exact Nat.le_refl _
  · refine nodup_derived _ h.sessions (fun entry hentry heq => ?_)
    exact h.unkeyed pending secret (h.current secret entry hentry heq)

theorem Step.single (step : Step w next) (h : w.Single) : next.Single := by
  cases step with
  | begin secret kept => exact h.begin kept
  | request idle => exact h.request idle
  | describe d => exact ⟨h.pending, h.derived, h.idle, h.one, h.keyed, h.current, h.sessions⟩
  | settle before after number pending => exact h.settle pending
  | derive before after d installs pending secret described => exact h.derive installs pending secret
  | clear => exact ⟨h.pending, h.derived, nofun, nofun, nofun, nofun, h.sessions⟩

theorem Step.reported (step : Step w next) : w.reported.Sublist next.reported := by
  cases step with
  | describe d => exact List.sublist_append_left _ _
  | _ => exact List.Sublist.refl _

theorem Step.fresh (step : Step w next) (single : w.Single) (reported : next.reported.Nodup) (h : w.Fresh) :
    next.Fresh := by
  cases step with
  | begin secret kept => exact ⟨h.derived, h.described, h.stale, h.descriptions⟩
  | request idle => exact ⟨h.derived, h.described, h.stale, h.descriptions⟩
  | settle before after number pending => exact ⟨h.derived, h.described, h.stale, h.descriptions⟩
  | clear => exact ⟨h.derived, nofun, nofun, h.descriptions⟩
  | describe d =>
    have hnew : d ∉ w.reported :=
      fun hmem => (List.nodup_append.mp reported).2.2 d hmem d (List.mem_singleton_self d) rfl
    refine ⟨fun entry hmem => List.mem_append_left _ (h.derived entry hmem), ?_, ?_, h.descriptions⟩
    · intro d' hd
      obtain rfl := Option.some.inj hd
      exact List.mem_append_right _ (List.mem_singleton_self d)
    · intro d' hd entry hmem heq
      obtain rfl := Option.some.inj hd
      exact absurd (heq ▸ h.derived entry hmem) hnew
  | derive before after d installs pending secret described =>
    refine ⟨?_, h.described, fun _ _ _ _ _ => rfl, ?_⟩
    · intro entry hentry
      rcases mem_derived hentry with hold | rfl
      · exact h.derived entry hold
      · exact h.described d described
    · refine nodup_derived _ h.descriptions (fun entry hentry heq => ?_)
      exact single.unkeyed pending secret (h.stale d described entry hentry heq)

theorem single_empty : ({} : KeySetup δ).Single := ⟨nofun, nofun, nofun, nofun, nofun, nofun, List.nodup_nil⟩

/-- In no run is a key derived twice in a session, or, if no description came twice, twice from a description. -/
theorem derived_once (run : Relation.ReflTransGen Step ({} : KeySetup δ) w) :
    (w.derived.map Prod.fst).Nodup ∧ (w.reported.Nodup → (w.derived.map Prod.snd).Nodup) := by
  have h := Runs.preserved (P := fun w => w.Single ∧ (w.reported.Nodup → w.Fresh))
    (fun _ _ step h => ⟨step.single h.1, fun nodup => step.fresh h.1 nodup (h.2 (nodup.sublist step.reported))⟩) run
    ⟨single_empty, fun _ => ⟨nofun, nofun, nofun, List.nodup_nil⟩⟩
  exact ⟨h.1.sessions, fun nodup => (h.2 nodup).descriptions⟩

end KeySetup
