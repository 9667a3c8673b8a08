import Veil.UnlockThrottle

namespace Veil

namespace Unlocking

/-- The entry is a well-formed state: an object with two finite numbers that are not negative. -/
def Holds (js : JsonText) (raw : String) (state : UnlockAttemptState) : Prop :=
  ∃ (fields : List (String × Json)) (failures lastFailureAt : ℚ), js.parse raw = some (.obj fields) ∧
    (Json.obj fields).field "failures" = some (.num (.finite failures)) ∧
    (Json.obj fields).field "lastFailureAt" = some (.num (.finite lastFailureAt)) ∧
    0 ≤ failures ∧ 0 ≤ lastFailureAt ∧ state = ⟨⌊failures⌋, ⌊lastFailureAt⌋⟩

def WellFormed (js : JsonText) (raw : String) : Prop := ∃ state, Holds js raw state

section

variable {js : JsonText} {policy : UnlockPolicy} {state : UnlockAttemptState} {raw : String}

theorem holds_iff : Holds js raw state ↔ (js.parse raw).bind readAttemptState = some state := by
  constructor
  · rintro ⟨fields, failures, lastFailureAt, hparse, hfailures, hlast, hnonneg, hnonneg', rfl⟩
    have hsign : ¬ (failures < 0 ∨ lastFailureAt < 0) := by
      rintro (hneg | hneg)
      · exact absurd hnonneg (not_le.mpr hneg)
      · exact absurd hnonneg' (not_le.mpr hneg)
    rw [hparse, Option.bind_some, readAttemptState, hfailures, hlast]
    simp only [Json.isObject, Bool.not_true, Bool.false_eq_true, if_false, if_neg hsign]
  · intro h
    obtain ⟨parsed, hparse, hread⟩ := Option.bind_eq_some_iff.mp h
    unfold readAttemptState at hread
    split at hread
    next => cases hread
    next =>
      split at hread
      next failures lastFailureAt hfailures hlast =>
        split at hread
        next => cases hread
        next hsign =>
          have hobject : ∃ fields, parsed = .obj fields := by
            cases parsed with
            | obj fields => exact ⟨fields, rfl⟩
            | null => cases hfailures
            | bool _ => cases hfailures
            | num _ => cases hfailures
            | str _ => cases hfailures
            | arr _ => cases hfailures
          obtain ⟨fields, rfl⟩ := hobject
          have hnonneg : 0 ≤ failures := not_lt.mp fun hneg => hsign (Or.inl hneg)
          have hnonneg' : 0 ≤ lastFailureAt := not_lt.mp fun hneg => hsign (Or.inr hneg)
          exact ⟨fields, failures, lastFailureAt, hparse, hfailures, hlast, hnonneg, hnonneg', (Option.some.inj hread).symm⟩
      next => cases hread

theorem parseAttemptState_of_holds (h : Holds js raw state) (now : Int) : parseAttemptState js (some raw) now policy = state := by
  rw [parseAttemptState, holds_iff.mp h, Option.getD_some]

theorem parseAttemptState_of_malformed (h : ¬ WellFormed js raw) (now : Int) :
    parseAttemptState js (some raw) now policy = ⟨policy.freeAttempts + 1, now⟩ := by
  have hnone : (js.parse raw).bind readAttemptState = none := by
    cases hread : (js.parse raw).bind readAttemptState with
    | none => rfl
    | some state => exact absurd ⟨state, holds_iff.mpr hread⟩ h
  rw [parseAttemptState, hnone, Option.getD_none]

/-- The lockout of a counter that fails closed is the base interval, below the cap. -/
theorem lockoutMs_failClosed (policy : UnlockPolicy) :
    lockoutMs policy (policy.freeAttempts + 1) = min policy.baseLockoutMs policy.maxLockoutMs := by
  have hexponent : (min (((policy.freeAttempts : Int) + 1) - policy.freeAttempts - 1) 20).toNat = 0 := by omega
  simp only [lockoutMs, hexponent, pow_zero, mul_one]
  push_cast
  rfl

theorem canAttempt_failClosed_iff (policy : UnlockPolicy) (failedAt now : Int) :
    canAttempt ⟨policy.freeAttempts + 1, failedAt⟩ now policy = true ↔
      min policy.baseLockoutMs policy.maxLockoutMs = 0 ∨ failedAt + min policy.baseLockoutMs policy.maxLockoutMs ≤ now := by
  have hlockout := lockoutMs_failClosed policy
  have hover : ¬ ((policy.freeAttempts : Int) + 1 ≤ policy.freeAttempts) := by omega
  rw [canAttempt_iff, hlockout]
  constructor
  · rintro (hfree | hzero | hlate)
    · exact absurd hfree hover
    · left
      exact_mod_cast hzero
    · right
      exact_mod_cast hlate
  · rintro (hzero | hlate)
    · right; left
      exact_mod_cast hzero
    · right; right
      exact_mod_cast hlate

theorem canAttempt_empty (policy : UnlockPolicy) (now : Int) : canAttempt emptyAttemptState now policy = true :=
  (canAttempt_iff policy _ now).mpr (Or.inl (Int.natCast_nonneg _))

/-- A press makes an attempt exactly when there is a vault and the gate is open. -/
theorem attempted_start_eq_none_iff (js : JsonText) (base64 : Base64Text) (prim : VaultPrimitives) (policy : UnlockPolicy)
    {app : App} (hvault : app.wrapper? ≠ none) (call : StartCall) :
    app.attempted? js base64 prim policy (.start call) = none ↔
      canAttempt (parseAttemptState js app.secrets.attempts call.openedAt policy) call.openedAt policy = false := by
  obtain ⟨storedWrapper, hwrapper⟩ := Option.ne_none_iff_exists'.mp hvault
  simp only [App.attempted?, App.start, hwrapper]
  cases canAttempt (parseAttemptState js app.secrets.attempts call.openedAt policy) call.openedAt policy with
  | false => exact ⟨fun _ => rfl, fun _ => rfl⟩
  | true =>
    cases App.openWrapper base64 prim call.passphrase storedWrapper with
    | error failure => exact ⟨fun heq => (by cases heq), fun heq => (by cases heq)⟩
    | ok vault => exact ⟨fun heq => (by cases heq), fun heq => (by cases heq)⟩

end

section

variable (js : JsonText) (policy : UnlockPolicy)

/-- An entry that holds no state keeps the gate shut if and only if it is there, and the policy locks at all. -/
theorem malformed_shuts_iff (content : Option String) (hcontent : ∀ raw, content = some raw → ¬ WellFormed js raw) (now : Int) :
    (canAttempt (parseAttemptState js content now policy) now policy = false ↔
      content ≠ none ∧ 0 < policy.baseLockoutMs ∧ 0 < policy.maxLockoutMs) ∧
    ∀ (base64 : Base64Text) (prim : VaultPrimitives) (app : App), app.wrapper? ≠ none → ∀ call : StartCall, call.openedAt = now →
      (App.attempted? js base64 prim policy { app with secrets.attempts := content } (.start call) = none ↔
        content ≠ none ∧ 0 < policy.baseLockoutMs ∧ 0 < policy.maxLockoutMs) := by
  have hgate : canAttempt (parseAttemptState js content now policy) now policy = false ↔
      content ≠ none ∧ 0 < policy.baseLockoutMs ∧ 0 < policy.maxLockoutMs := by
    cases content with
    | none =>
      have hopen : canAttempt (parseAttemptState js none now policy) now policy = true := canAttempt_empty policy now
      simp only [hopen, ne_eq, not_true_eq_false, false_and, Bool.true_eq_false]
    | some raw =>
      have hiff := canAttempt_failClosed_iff policy now now
      rw [parseAttemptState_of_malformed (hcontent raw rfl), ← Bool.not_eq_true, hiff]
      have hnone : some raw ≠ none := nofun
      simp only [hnone, ne_eq, not_false_eq_true, true_and]
      omega
  refine ⟨hgate, fun base64 prim app hvault call hnow => ?_⟩
  subst hnow
  have hvault' : App.wrapper? { app with secrets.attempts := content } ≠ none := hvault
  rw [attempted_start_eq_none_iff js base64 prim policy hvault']
  exact hgate

/-- The cap holds for a counter if and only if its lockout ends before; for one that is read again and again, only if it can be read. -/
theorem owner_readmitted_iff (raw : String) (now : Int) :
    ((∀ later, now + policy.maxLockoutMs ≤ later → canAttempt (parseAttemptState js (some raw) now policy) later policy = true) ↔
      ∀ state, Holds js raw state → state.failures ≤ policy.freeAttempts ∨ lockoutMs policy state.failures = 0 ∨
        state.lastFailureAt + lockoutMs policy state.failures ≤ now + policy.maxLockoutMs) ∧
    ((∀ later, now + policy.maxLockoutMs ≤ later → canAttempt (parseAttemptState js (some raw) later policy) later policy = true) ↔
      (∀ state, Holds js raw state → state.failures ≤ policy.freeAttempts ∨ lockoutMs policy state.failures = 0 ∨
        state.lastFailureAt + lockoutMs policy state.failures ≤ now + policy.maxLockoutMs) ∧
      (WellFormed js raw ∨ policy.baseLockoutMs = 0 ∨ policy.maxLockoutMs = 0)) := by
  by_cases hwell : WellFormed js raw
  · obtain ⟨state, hstate⟩ := hwell
    have hparse : ∀ at', parseAttemptState js (some raw) at' policy = state := parseAttemptState_of_holds hstate
    have honly : ∀ other, Holds js raw other → other = state := fun other hother =>
      Option.some.inj ((holds_iff.mp hother).symm.trans (holds_iff.mp hstate))
    have hopens : (∀ later, now + policy.maxLockoutMs ≤ later → canAttempt state later policy = true) ↔
        ∀ other, Holds js raw other → other.failures ≤ policy.freeAttempts ∨ lockoutMs policy other.failures = 0 ∨
          other.lastFailureAt + lockoutMs policy other.failures ≤ now + policy.maxLockoutMs := by
      constructor
      · intro h other hother
        rw [honly other hother]
        exact (canAttempt_iff policy state _).mp (h _ le_rfl)
      · intro h later hlater
        have hcond := h state hstate
        rw [canAttempt_iff]
        omega
    simp only [hparse, hopens, show WellFormed js raw from ⟨state, hstate⟩, true_or, and_true]
  · have hnone : ∀ state, ¬ Holds js raw state := fun state hstate => hwell ⟨state, hstate⟩
    simp only [parseAttemptState_of_malformed hwell, canAttempt_failClosed_iff, hnone, IsEmpty.forall_iff, implies_true, iff_true,
      hwell, false_or, true_and]
    constructor
    · intro later hlater
      omega
    · constructor
      · intro h
        have hfirst := h _ le_rfl
        omega
      · intro h later _
        omega

end

section

theorem not_wellFormed_text : ¬ WellFormed entryJson "not json" := by
  rintro ⟨state, fields, failures, lastFailureAt, hparse, -⟩
  have hnone : entryJson.parse "not json" = none := by decide
  rw [hnone] at hparse
  cases hparse

end

/-- Text that is not JSON shuts the gate under the app's own policy. -/
theorem malformed_shuts_iff_text : canAttempt (parseAttemptState entryJson (some "not json") 9999 defaultUnlockPolicy) 9999
    defaultUnlockPolicy = false :=
  (malformed_shuts_iff entryJson defaultUnlockPolicy (some "not json")
    (fun _ heq => Option.some.inj heq ▸ not_wellFormed_text) 9999).1.mpr ⟨nofun, by decide, by decide⟩

/-- Four wrong passphrases shut the gate, and deleting the counter opens it. -/
theorem deleted_counter_opens :
    let app := (guarded none).run entryJson emptyText exhausted defaultUnlockPolicy [press 0, press 2, press 4, press 6]
    app.attempted? entryJson emptyText exhausted defaultUnlockPolicy (press 8) = none ∧
    canAttempt (parseAttemptState entryJson none 8 defaultUnlockPolicy) 8 defaultUnlockPolicy = true ∧
    App.attempted? entryJson emptyText exhausted defaultUnlockPolicy { app with secrets.attempts := none } (press 8) =
      some ⟨8, some 9⟩ := by
  have hread := fun state now => parseAttemptState_serialise entryJson_exact state now defaultUnlockPolicy
  have happ : (guarded none).run entryJson emptyText exhausted defaultUnlockPolicy [press 0, press 2, press 4, press 6] =
      guarded (some (serialiseAttemptState entryJson ⟨4, 7⟩)) := by
    rw [run_press emptyAttemptState _ rfl, if_pos (by decide), run_press ⟨1, 1⟩ _ (hread _ _), if_pos (by decide),
      run_press ⟨2, 3⟩ _ (hread _ _), if_pos (by decide), run_press ⟨3, 5⟩ _ (hread _ _), if_pos (by decide)]
    rfl
  intro app
  have heq : app = guarded (some (serialiseAttemptState entryJson ⟨4, 7⟩)) := happ
  rw [heq]
  refine ⟨?_, by decide, ?_⟩
  · rw [attempted_press ⟨4, 7⟩ (hread _ _), if_neg (by decide)]
  · show (guarded none).attempted? entryJson emptyText exhausted defaultUnlockPolicy (press 8) = some ⟨8, some 9⟩
    rw [attempted_press emptyAttemptState rfl, if_pos (by decide)]
    rfl

/-- A counter written while the clock was ahead outlasts the cap, and one that is not JSON outlasts everything. -/
theorem owner_kept_out :
    canAttempt (parseAttemptState entryJson (some (serialiseAttemptState entryJson ⟨4, 1000000⟩)) 0 defaultUnlockPolicy)
      (0 + defaultUnlockPolicy.maxLockoutMs) defaultUnlockPolicy = false ∧
    ∀ later, canAttempt (parseAttemptState entryJson (some "not json") later defaultUnlockPolicy) later defaultUnlockPolicy = false := by
  constructor
  · rw [parseAttemptState_serialise entryJson_exact]
    decide
  · intro later
    rw [parseAttemptState_of_malformed not_wellFormed_text]
    exact canAttempt_failClosed (by decide) (by decide) later

end Unlocking

end Veil
