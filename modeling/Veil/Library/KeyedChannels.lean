import Mathlib
import Veil.Library.Runs

/-- Channels that use a key with a counter of their own, which is 0 again whenever the channel is keyed. -/
structure KeyedChannels (ι κ : Type) where
  channel : ι → Option (κ × Int) := fun _ => none
  keyed : List κ := []
  used : List (κ × Int) := []

namespace KeyedChannels

variable {ι κ : Type} [DecidableEq ι]

/-- A key is given out, with or without a channel that takes it; a channel is dropped; a channel is used once. -/
inductive Step : KeyedChannels ι κ → KeyedChannels ι κ → Prop
  | announce (w : KeyedChannels ι κ) (k : κ) : Step w { w with keyed := w.keyed ++ [k] }
  | key (w : KeyedChannels ι κ) (i : ι) (k : κ) :
      Step w { w with channel := Function.update w.channel i (some (k, 0)), keyed := w.keyed ++ [k] }
  | drop (w : KeyedChannels ι κ) (i : ι) : Step w { w with channel := Function.update w.channel i none }
  | use (w : KeyedChannels ι κ) (i : ι) {k : κ} {n : Int} (holds : w.channel i = some (k, n)) :
      Step w { w with channel := Function.update w.channel i (some (k, n + 1)), used := w.used ++ [(k, n)] }

/-- No key is in two channels, and what was used is below the counter of the channel that still holds the key. -/
structure Apart (w : KeyedChannels ι κ) : Prop where
  held : ∀ i k n, w.channel i = some (k, n) → k ∈ w.keyed
  own : ∀ i j k m n, w.channel i = some (k, m) → w.channel j = some (k, n) → i = j
  known : ∀ k n, (k, n) ∈ w.used → k ∈ w.keyed
  passed : ∀ i k m n, w.channel i = some (k, m) → (k, n) ∈ w.used → n < m
  once : w.used.Nodup

variable {start w next : KeyedChannels ι κ}

theorem Step.keyed (step : Step w next) : w.keyed.Sublist next.keyed := by
  cases step with
  | announce k => exact List.sublist_append_left _ _
  | key i k => exact List.sublist_append_left _ _
  | drop i => exact List.Sublist.refl _
  | use i holds => exact List.Sublist.refl _

omit [DecidableEq ι] in
theorem Apart.announce (h : w.Apart) (k : κ) : Apart { w with keyed := w.keyed ++ [k] } where
  held i k' n hi := List.mem_append_left _ (h.held i k' n hi)
  own := h.own
  known k' n hmem := List.mem_append_left _ (h.known k' n hmem)
  passed := h.passed
  once := h.once

theorem Apart.key (h : w.Apart) (i : ι) {k : κ} (fresh : k ∉ w.keyed) :
    Apart { w with channel := Function.update w.channel i (some (k, 0)), keyed := w.keyed ++ [k] } where
  held j k' n hj := by
    simp only [Function.update_apply] at hj
    split at hj
    next =>
      obtain ⟨rfl, rfl⟩ := Prod.mk.inj (Option.some.inj hj)
      exact List.mem_append_right _ (List.mem_singleton_self k)
    next => exact List.mem_append_left _ (h.held j k' n hj)
  own j j' k' m n hj hj' := by
    simp only [Function.update_apply] at hj hj'
    split at hj
    next heq =>
      obtain ⟨rfl, rfl⟩ := Prod.mk.inj (Option.some.inj hj)
      split at hj'
      next heq' => rw [heq, heq']
      next => exact absurd (h.held j' k n hj') fresh
    next =>
      split at hj'
      next =>
        obtain ⟨rfl, rfl⟩ := Prod.mk.inj (Option.some.inj hj')
        exact absurd (h.held j k m hj) fresh
      next => exact h.own j j' k' m n hj hj'
  known k' n hmem := List.mem_append_left _ (h.known k' n hmem)
  passed j k' m n hj hmem := by
    simp only [Function.update_apply] at hj
    split at hj
    next =>
      obtain ⟨rfl, rfl⟩ := Prod.mk.inj (Option.some.inj hj)
      exact absurd (h.known k n hmem) fresh
    next => exact h.passed j k' m n hj hmem
  once := h.once

theorem Apart.drop (h : w.Apart) (i : ι) : Apart { w with channel := Function.update w.channel i none } := by
  have hchannel : ∀ j k n, Function.update w.channel i none j = some (k, n) → w.channel j = some (k, n) := by
    intro j k n hj
    rw [Function.update_apply] at hj
    split at hj
    next => cases hj
    next => exact hj
  exact ⟨fun j k n hj => h.held j k n (hchannel j k n hj),
    fun j j' k m n hj hj' => h.own j j' k m n (hchannel j k m hj) (hchannel j' k n hj'), h.known,
    fun j k m n hj hmem => h.passed j k m n (hchannel j k m hj) hmem, h.once⟩

theorem Apart.use (h : w.Apart) (i : ι) {k : κ} {n : Int} (holds : w.channel i = some (k, n)) :
    Apart { w with channel := Function.update w.channel i (some (k, n + 1)), used := w.used ++ [(k, n)] } := by
  have hchannel : ∀ j k' m, Function.update w.channel i (some (k, n + 1)) j = some (k', m) →
      ∃ m', w.channel j = some (k', m') ∧ m' ≤ m ∧ (k' = k → m = n + 1) := by
    intro j k' m hj
    rw [Function.update_apply] at hj
    split at hj
    next heq =>
      obtain ⟨rfl, rfl⟩ := Prod.mk.inj (Option.some.inj hj)
      exact ⟨n, heq ▸ holds, by omega, fun _ => rfl⟩
    next hne =>
      refine ⟨m, hj, Int.le_refl m, ?_⟩
      rintro rfl
      exact absurd (h.own j i k' m n hj holds) hne
  refine ⟨?_, ?_, ?_, ?_, ?_⟩
  · intro j k' m hj
    obtain ⟨m', hj', _⟩ := hchannel j k' m hj
    exact h.held j k' m' hj'
  · intro j j' k' m m' hj hj'
    obtain ⟨_, hold, _⟩ := hchannel j k' m hj
    obtain ⟨_, hold', _⟩ := hchannel j' k' m' hj'
    exact h.own j j' k' _ _ hold hold'
  · intro k' m hmem
    rcases List.mem_append.mp hmem with hmem | hmem
    · exact h.known k' m hmem
    · obtain ⟨rfl, rfl⟩ := Prod.mk.inj (List.mem_singleton.mp hmem)
      exact h.held i k' m holds
  · intro j k' m m' hj hmem
    obtain ⟨m₀, hold, hle, heq⟩ := hchannel j k' m hj
    rcases List.mem_append.mp hmem with hmem | hmem
    · have := h.passed j k' m₀ m' hold hmem
      omega
    · obtain ⟨rfl, rfl⟩ := Prod.mk.inj (List.mem_singleton.mp hmem)
      have := heq rfl
      omega
  · refine List.nodup_append.mpr ⟨h.once, List.nodup_singleton _, ?_⟩
    rintro pair hmem _ hlast rfl
    obtain rfl := List.mem_singleton.mp hlast
    have := h.passed i k n n holds hmem
    omega

theorem Step.apart (step : Step w next) (keyed : next.keyed.Nodup) (h : w.Apart) : next.Apart := by
  cases step with
  | announce k => exact h.announce k
  | key i k =>
    refine h.key i (fun hmem => ?_)
    exact (List.nodup_append.mp keyed).2.2 k hmem k (List.mem_singleton_self k) rfl
  | drop i => exact h.drop i
  | use i holds => exact h.use i holds

/-- If no key was given out twice, no key and counter were used twice. -/
theorem used_nodup (run : Relation.ReflTransGen Step ({} : KeyedChannels ι κ) w) (keyed : w.keyed.Nodup) :
    w.used.Nodup := by
  have h := Runs.preserved (P := fun w => w.keyed.Nodup → w.Apart)
    (fun _ _ step h keyed => step.apart keyed (h (keyed.sublist step.keyed))) run
    (fun _ => ⟨nofun, nofun, nofun, nofun, List.nodup_nil⟩)
  exact (h keyed).once

end KeyedChannels
