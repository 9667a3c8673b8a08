import Mathlib
import Veil.UnlockPolicy

namespace Veil

/-- An entry is read as it was written. -/
def JsonText.Exact (js : JsonText) : Prop := ∀ state : UnlockAttemptState, js.parse (js.stringify state.toJson) = some state.toJson

section

variable {policy : UnlockPolicy} {state : UnlockAttemptState} {now : Int}

theorem lockoutMs_nonneg (policy : UnlockPolicy) (failures : Int) : 0 ≤ lockoutMs policy failures := by
  apply le_min
  · positivity
  · positivity

theorem lockoutMs_le (policy : UnlockPolicy) (failures : Int) : lockoutMs policy failures ≤ policy.maxLockoutMs :=
  min_le_right _ _

theorem lockoutMs_pos (hbase : 0 < policy.baseLockoutMs) (hmax : 0 < policy.maxLockoutMs) (failures : Int) :
    0 < lockoutMs policy failures := by
  apply lt_min
  · positivity
  · exact_mod_cast hmax

theorem lockoutMs_mono (policy : UnlockPolicy) {failures failures' : Int} (h : failures ≤ failures') :
    lockoutMs policy failures ≤ lockoutMs policy failures' := by
  have hexponent : (min (failures - policy.freeAttempts - 1) 20).toNat ≤ (min (failures' - policy.freeAttempts - 1) 20).toNat := by
    omega
  have hpow : (2 : Int) ^ (min (failures - policy.freeAttempts - 1) 20).toNat ≤
      2 ^ (min (failures' - policy.freeAttempts - 1) 20).toNat := pow_le_pow_right₀ (by norm_num) hexponent
  apply min_le_min_right
  exact mul_le_mul_of_nonneg_left hpow (by positivity)

/-- How long the `n`-th failure in a row keeps the gate shut. -/
def lockoutAfter (policy : UnlockPolicy) (n : Nat) : Nat :=
  if n ≤ policy.freeAttempts then 0
  else min (policy.baseLockoutMs * 2 ^ min (n - policy.freeAttempts - 1) 20) policy.maxLockoutMs

theorem lockoutAfter_add (policy : UnlockPolicy) (j : Nat) :
    lockoutAfter policy (policy.freeAttempts + (j + 1)) = min (policy.baseLockoutMs * 2 ^ min j 20) policy.maxLockoutMs := by
  have hover : ¬ policy.freeAttempts + (j + 1) ≤ policy.freeAttempts := by omega
  have hexponent : policy.freeAttempts + (j + 1) - policy.freeAttempts - 1 = j := by omega
  rw [lockoutAfter, if_neg hover, hexponent]

theorem lockoutAfter_eq_zero {n : Nat} (h : n ≤ policy.freeAttempts) : lockoutAfter policy n = 0 := if_pos h

theorem lockoutMs_eq_lockoutAfter {n : Nat} (h : policy.freeAttempts < n) : lockoutMs policy n = lockoutAfter policy n := by
  have hexponent : (min ((n : Int) - policy.freeAttempts - 1) 20).toNat = min (n - policy.freeAttempts - 1) 20 := by omega
  rw [lockoutAfter, if_neg (Nat.not_le.mpr h), lockoutMs]
  simp only [hexponent]
  push_cast
  rfl

theorem lockoutAfter_mono (policy : UnlockPolicy) {n m : Nat} (h : n ≤ m) : lockoutAfter policy n ≤ lockoutAfter policy m := by
  by_cases hn : n ≤ policy.freeAttempts
  · rw [lockoutAfter_eq_zero hn]
    exact Nat.zero_le _
  · have hn' := lockoutMs_eq_lockoutAfter (Nat.not_le.mp hn)
    have hm' : lockoutMs policy m = lockoutAfter policy m := lockoutMs_eq_lockoutAfter (by omega)
    have hmono := lockoutMs_mono policy (Int.ofNat_le.mpr h)
    omega

theorem lockoutRemainingMs_mem (policy : UnlockPolicy) (state : UnlockAttemptState) (now : Int) :
    0 ≤ lockoutRemainingMs state now policy ∧ lockoutRemainingMs state now policy ≤ policy.maxLockoutMs := by
  have hnonneg := lockoutMs_nonneg policy state.failures
  have hle := lockoutMs_le policy state.failures
  unfold lockoutRemainingMs
  split
  next => omega
  next =>
    dsimp only
    split <;> omega

theorem lockoutRemainingMs_anti (policy : UnlockPolicy) (state : UnlockAttemptState) {now later : Int} (h : now ≤ later) :
    lockoutRemainingMs state later policy ≤ lockoutRemainingMs state now policy := by
  have hnonneg := lockoutMs_nonneg policy state.failures
  unfold lockoutRemainingMs
  split
  next => exact le_rfl
  next =>
    dsimp only
    split <;> split <;> omega

theorem lockoutRemainingMs_mono (policy : UnlockPolicy) {failures failures' : Int} (lastFailureAt now : Int)
    (h : failures ≤ failures') :
    lockoutRemainingMs ⟨failures, lastFailureAt⟩ now policy ≤ lockoutRemainingMs ⟨failures', lastFailureAt⟩ now policy := by
  have hmono := lockoutMs_mono policy h
  by_cases hfree : failures ≤ policy.freeAttempts
  · have hzero : lockoutRemainingMs ⟨failures, lastFailureAt⟩ now policy = 0 := if_pos hfree
    rw [hzero]
    exact (lockoutRemainingMs_mem policy _ now).1
  · have hfree' : ¬ failures' ≤ policy.freeAttempts := by omega
    simp only [lockoutRemainingMs, if_neg hfree, if_neg hfree']
    split <;> omega

/-- The gate is open when few have failed, or when the last failure is its lockout ago. -/
theorem canAttempt_iff (policy : UnlockPolicy) (state : UnlockAttemptState) (now : Int) :
    canAttempt state now policy = true ↔ state.failures ≤ policy.freeAttempts ∨ lockoutMs policy state.failures = 0 ∨
      state.lastFailureAt + lockoutMs policy state.failures ≤ now := by
  have hnonneg := lockoutMs_nonneg policy state.failures
  simp only [canAttempt, lockoutRemainingMs, decide_eq_true_eq]
  by_cases hfree : state.failures ≤ policy.freeAttempts
  · simp [hfree]
  · simp only [if_neg hfree]
    split <;> omega

end

section

variable {js : JsonText} {policy : UnlockPolicy} {state : UnlockAttemptState} {raw : Option String} {now : Int}

theorem readAttemptState_nonneg {parsed : Json} (h : readAttemptState parsed = some state) :
    0 ≤ state.failures ∧ 0 ≤ state.lastFailureAt := by
  unfold readAttemptState at h
  split at h
  next => cases h
  next =>
    split at h
    next failures lastFailureAt _ _ =>
      split at h
      next => cases h
      next hsign =>
        cases Option.some.inj h
        have hfailures : 0 ≤ failures := by
          by_contra hneg
          exact hsign (Or.inl (not_le.mp hneg))
        have hlast : 0 ≤ lastFailureAt := by
          by_contra hneg
          exact hsign (Or.inr (not_le.mp hneg))
        exact ⟨Int.floor_nonneg.mpr hfailures, Int.floor_nonneg.mpr hlast⟩
    next => cases h

theorem readAttemptState_toJson (state : UnlockAttemptState) : readAttemptState state.toJson =
    if state.failures < 0 ∨ state.lastFailureAt < 0 then none else some state := by
  have hfailures : (UnlockAttemptState.toJson state).field "failures" = some (.num (.finite state.failures)) := rfl
  have hlast : (UnlockAttemptState.toJson state).field "lastFailureAt" = some (.num (.finite state.lastFailureAt)) := rfl
  have hobject : (UnlockAttemptState.toJson state).isObject = true := rfl
  unfold readAttemptState
  rw [hfailures, hlast, hobject]
  simp only [Bool.not_true, Bool.false_eq_true, if_false, Int.cast_lt_zero, Int.floor_intCast]

theorem parseAttemptState_failures_nonneg (js : JsonText) (raw : Option String) (now : Int) (policy : UnlockPolicy) :
    0 ≤ (parseAttemptState js raw now policy).failures := by
  unfold parseAttemptState
  split
  next => exact le_rfl
  next raw =>
    cases hread : (js.parse raw).bind readAttemptState with
    | none =>
      show (0 : Int) ≤ policy.freeAttempts + 1
      omega
    | some state =>
      obtain ⟨parsed, _, hstate⟩ := Option.bind_eq_some_iff.mp hread
      exact (readAttemptState_nonneg hstate).1

theorem parseAttemptState_serialise (hjs : js.Exact) (state : UnlockAttemptState) (now : Int) (policy : UnlockPolicy) :
    parseAttemptState js (some (serialiseAttemptState js state)) now policy =
      if state.failures < 0 ∨ state.lastFailureAt < 0 then ⟨policy.freeAttempts + 1, now⟩ else state := by
  simp only [parseAttemptState, serialiseAttemptState, hjs state, Option.bind_some, readAttemptState_toJson]
  split <;> rfl

/-- A counter that was read as broken at the very reading of the gate keeps it shut. -/
theorem canAttempt_failClosed (hbase : 0 < policy.baseLockoutMs) (hmax : 0 < policy.maxLockoutMs) (now : Int) :
    canAttempt ⟨policy.freeAttempts + 1, now⟩ now policy = false := by
  have hpos := lockoutMs_pos hbase hmax (policy.freeAttempts + 1)
  rw [Bool.eq_false_iff]
  intro hcan
  have hcases := (canAttempt_iff policy _ now).mp hcan
  dsimp only at hcases
  omega

end

namespace Unlocking

/-- The readings of the clock, in the order in which they are taken. -/
def readings : UnlockEvent → List Int
  | .start call => [call.openedAt, call.failedAt]
  | .lock | .restart => []

/-- Attempts after a number of failures, the last of them at a time: each waits for the lockout that the failures before it impose. -/
def Spaced (policy : UnlockPolicy) : Nat → Int → List Attempt → Prop
  | _, _, [] => True
  | failures, since, attempt :: attempts =>
    since + lockoutAfter policy failures ≤ attempt.openedAt ∧
      match attempt.failedAt with
      | some failedAt => attempt.openedAt ≤ failedAt ∧ Spaced policy (failures + 1) failedAt attempts
      | none => Spaced policy 0 attempt.openedAt attempts

/-- The keystore has the failures in a row, and when the last one was. -/
def Kept (js : JsonText) (failures : Nat) (since : Int) (app : App) : Prop :=
  0 < failures → ∃ counted : Int, failures ≤ counted ∧ app.secrets.attempts = some (serialiseAttemptState js ⟨counted, since⟩)

section

variable {js : JsonText} {policy : UnlockPolicy} {app : App}

/-- What an event does to the counter: an attempt needs the gate, and writes what came of it. -/
theorem step_cases (js : JsonText) (base64 : Base64Text) (prim : VaultPrimitives) (policy : UnlockPolicy) (app : App)
    (event : UnlockEvent) :
    (app.attempted? js base64 prim policy event = none ∧
      (app.step js base64 prim policy event).secrets.attempts = app.secrets.attempts) ∨
    ∃ call, event = .start call ∧
      canAttempt (parseAttemptState js app.secrets.attempts call.openedAt policy) call.openedAt policy = true ∧
      ((app.attempted? js base64 prim policy event = some ⟨call.openedAt, some call.failedAt⟩ ∧
          (app.step js base64 prim policy event).secrets.attempts = some (serialiseAttemptState js
            (recordFailure (parseAttemptState js app.secrets.attempts call.openedAt policy) call.failedAt))) ∨
        (app.attempted? js base64 prim policy event = some ⟨call.openedAt, none⟩ ∧
          (app.step js base64 prim policy event).secrets.attempts = some (serialiseAttemptState js recordSuccess))) := by
  cases event with
  | lock => exact Or.inl ⟨rfl, rfl⟩
  | restart => exact Or.inl ⟨rfl, rfl⟩
  | start call =>
    simp only [App.attempted?, App.step, App.start]
    cases app.wrapper? with
    | none =>
      left
      cases prim.createVault call.passphrase call.salt call.dataKey with
      | error failure => exact ⟨rfl, rfl⟩
      | ok made =>
        dsimp only
        cases encodeWrappedVault made.2 with
        | error failure => exact ⟨rfl, rfl⟩
        | ok bytes => exact ⟨rfl, rfl⟩
    | some storedWrapper =>
      dsimp only
      cases hcan : canAttempt (parseAttemptState js app.secrets.attempts call.openedAt policy) call.openedAt policy with
      | false => exact Or.inl ⟨rfl, rfl⟩
      | true =>
        refine Or.inr ⟨call, rfl, hcan, ?_⟩
        cases App.openWrapper base64 prim call.passphrase storedWrapper with
        | error failure => exact Or.inl ⟨rfl, rfl⟩
        | ok vault => exact Or.inr ⟨rfl, rfl⟩

/-- The gate passes an attempt only after the lockout of the failures that were kept. -/
theorem Kept.gate (hjs : js.Exact) (hbase : 0 < policy.baseLockoutMs) (hmax : 0 < policy.maxLockoutMs) {failures : Nat}
    {since now : Int} (kept : Kept js failures since app) (hsince : since ≤ now)
    (hcan : canAttempt (parseAttemptState js app.secrets.attempts now policy) now policy = true) :
    since + lockoutAfter policy failures ≤ now ∧ failures ≤ (parseAttemptState js app.secrets.attempts now policy).failures := by
  by_cases hsome : 0 < failures
  · obtain ⟨counted, hcounted, hentry⟩ := kept hsome
    rw [hentry, parseAttemptState_serialise hjs] at hcan ⊢
    by_cases hsign : counted < 0 ∨ since < 0
    · rw [if_pos hsign, canAttempt_failClosed hbase hmax] at hcan
      cases hcan
    · rw [if_neg hsign] at hcan ⊢
      refine ⟨?_, hcounted⟩
      by_cases hfree : failures ≤ policy.freeAttempts
      · rw [lockoutAfter_eq_zero hfree]
        omega
      · have hlockout := lockoutMs_eq_lockoutAfter (Nat.not_le.mp hfree)
        have hmono := lockoutMs_mono policy hcounted
        have hpos := lockoutMs_pos hbase hmax counted
        have hopen := (canAttempt_iff policy ⟨counted, since⟩ now).mp hcan
        dsimp only at hopen
        omega
  · have hzero : failures = 0 := by omega
    have hnonneg := parseAttemptState_failures_nonneg js app.secrets.attempts now policy
    rw [hzero, lockoutAfter_eq_zero (Nat.zero_le _)]
    exact ⟨by omega, by exact_mod_cast hnonneg⟩

theorem spaced_attempts (hjs : js.Exact) (base64 : Base64Text) (prim : VaultPrimitives) (hbase : 0 < policy.baseLockoutMs)
    (hmax : 0 < policy.maxLockoutMs) (events : List UnlockEvent) : ∀ (app : App) (failures : Nat) (since : Int), Kept js failures since app →
      (since :: events.flatMap readings).Pairwise (· ≤ ·) →
      Spaced policy failures since (app.attempts js base64 prim policy events) := by
  induction events with
  | nil => exact fun _ _ _ _ _ => trivial
  | cons event events ih =>
    intro app failures since kept hclock
    rw [List.flatMap_cons] at hclock
    have hrest : ∀ since', (since' :: (readings event ++ events.flatMap readings)).Pairwise (· ≤ ·) →
        (since' :: events.flatMap readings).Pairwise (· ≤ ·) := fun since' h =>
      h.sublist (List.Sublist.cons_cons since' (List.sublist_append_right _ _))
    rcases step_cases js base64 prim policy app event with
      ⟨hnone, hkeep⟩ | ⟨call, rfl, hcan, hattempt⟩
    · simp only [App.attempts, hnone, Option.toList_none, List.nil_append]
      refine ih _ failures since (fun hsome => ?_) (hrest since hclock)
      rw [hkeep]
      exact kept hsome
    · have hcons := List.pairwise_cons.mp hclock
      have hsince : since ≤ call.openedAt := hcons.1 _ (by simp [readings])
      have hopened : (call.openedAt :: call.failedAt :: events.flatMap readings).Pairwise (· ≤ ·) := hcons.2
      have hfailed := List.pairwise_cons.mp hopened
      obtain ⟨hspace, hcounted⟩ := kept.gate hjs hbase hmax hsince hcan
      rcases hattempt with ⟨hattempt, hentry⟩ | ⟨hattempt, hentry⟩
      · simp only [App.attempts, hattempt, Option.toList_some, List.cons_append, List.nil_append]
        refine ⟨hspace, hfailed.1 _ List.mem_cons_self, ih _ _ _ (fun _ => ⟨_, ?_, hentry⟩) hfailed.2⟩
        push_cast
        omega
      · simp only [App.attempts, hattempt, Option.toList_some, List.cons_append, List.nil_append]
        refine ⟨hspace, ih _ _ _ (fun hsome => absurd hsome (Nat.lt_irrefl 0)) ?_⟩
        exact hopened.sublist (List.Sublist.cons_cons _ (List.sublist_cons_self _ _))

end

section

variable {policy : UnlockPolicy}

/-- Fewer failures ask for less. -/
theorem Spaced.weaken {attempts : List Attempt} : ∀ {failures fewer : Nat} {since earlier : Int}, fewer ≤ failures → earlier ≤ since →
    Spaced policy failures since attempts → Spaced policy fewer earlier attempts := by
  induction attempts with
  | nil => exact fun _ _ _ => trivial
  | cons attempt attempts ih =>
    intro failures fewer since earlier hfewer hearlier h
    have hmono := lockoutAfter_mono policy hfewer
    have hspace := h.1
    refine ⟨by omega, ?_⟩
    have hrest := h.2
    cases hfailed : attempt.failedAt with
    | none =>
      rw [hfailed] at hrest
      exact hrest
    | some failedAt =>
      rw [hfailed] at hrest
      exact ⟨hrest.1, ih (Nat.succ_le_succ hfewer) le_rfl hrest.2⟩

/-- What was tried before may be forgotten. -/
theorem Spaced.drop {failures : Nat} {since : Int} {earlier attempts : List Attempt}
    (h : Spaced policy failures since (earlier ++ attempts)) : ∃ since', Spaced policy 0 since' attempts := by
  induction earlier generalizing failures since with
  | nil => exact ⟨since, h.weaken (Nat.zero_le _) le_rfl⟩
  | cons attempt earlier ih =>
    have hrest := h.2
    cases hfailed : attempt.failedAt with
    | none =>
      rw [hfailed] at hrest
      exact ih hrest
    | some failedAt =>
      rw [hfailed] at hrest
      exact ih hrest.2

/-- When the last of some failures was found, or `since` if there is none. -/
def lastFailure (since : Int) (failed : List Attempt) : Int :=
  failed.foldl (fun since attempt => attempt.failedAt.getD since) since

/-- Failures in a row, and the attempt that follows them. -/
theorem Spaced.segment {failures : Nat} {since : Int} {failed later : List Attempt} {next : Attempt}
    (h : Spaced policy failures since (failed ++ next :: later)) (hfailed : ∀ attempt ∈ failed, attempt.failedAt ≠ none) :
    lastFailure since failed + lockoutAfter policy (failures + failed.length) ≤ next.openedAt ∧
      since + ∑ i ∈ Finset.range (failed.length + 1), (lockoutAfter policy (failures + i) : Int) ≤ next.openedAt := by
  induction failed generalizing failures since with
  | nil =>
    have hspace := h.1
    simpa [lastFailure] using hspace
  | cons attempt failed ih =>
    obtain ⟨failedAt, hat⟩ := Option.ne_none_iff_exists'.mp (hfailed attempt List.mem_cons_self)
    have hspace := h.1
    have hrest := h.2
    rw [hat] at hrest
    obtain ⟨hlast, hsum⟩ := ih hrest.2 (fun other hmem => hfailed other (List.mem_cons_of_mem _ hmem))
    constructor
    · have hlast' : lastFailure since (attempt :: failed) = lastFailure failedAt failed := by
        rw [lastFailure, List.foldl_cons, hat, Option.getD_some, lastFailure]
      rw [hlast', List.length_cons, show failures + (failed.length + 1) = failures + 1 + failed.length by omega]
      exact hlast
    · rw [List.length_cons, Finset.sum_range_succ']
      have hshift : ∑ i ∈ Finset.range (failed.length + 1), (lockoutAfter policy (failures + (i + 1)) : Int) =
          ∑ i ∈ Finset.range (failed.length + 1), (lockoutAfter policy (failures + 1 + i) : Int) :=
        Finset.sum_congr rfl fun i _ => by rw [show failures + (i + 1) = failures + 1 + i by omega]
      have hopened := hrest.1
      rw [hshift]
      simp only [Nat.add_zero]
      omega

theorem lastFailure_eq {since failedAt : Int} {failed : List Attempt} {last : Attempt} (hlast : failed.getLast? = some last)
    (hat : last.failedAt = some failedAt) : lastFailure since failed = failedAt := by
  obtain ⟨before, rfl⟩ := List.getLast?_eq_some_iff.mp hlast
  rw [lastFailure, List.foldl_append, List.foldl_cons, List.foldl_nil, hat, Option.getD_some]

/-- The free failures add nothing to the lockouts of `n` failures in a row. -/
theorem sum_lockoutAfter (policy : UnlockPolicy) (n : Nat) : ∑ i ∈ Finset.range n, (lockoutAfter policy (1 + i) : Int) =
    ∑ j ∈ Finset.range (n - policy.freeAttempts),
      (min (policy.baseLockoutMs * 2 ^ min j 20) policy.maxLockoutMs : Int) := by
  have hfree : ∀ m ≤ policy.freeAttempts, ∑ i ∈ Finset.range m, (lockoutAfter policy (1 + i) : Int) = 0 := by
    intro m hm
    apply Finset.sum_eq_zero
    intro i hi
    have hlt := Finset.mem_range.mp hi
    rw [lockoutAfter_eq_zero (by omega)]
    rfl
  by_cases hn : n ≤ policy.freeAttempts
  · rw [hfree n hn, Nat.sub_eq_zero_of_le hn, Finset.sum_range_zero]
  · obtain ⟨m, rfl⟩ := Nat.exists_eq_add_of_le (Nat.le_of_not_le hn)
    rw [Finset.sum_range_add, hfree _ le_rfl, zero_add, Nat.add_sub_cancel_left]
    apply Finset.sum_congr rfl
    intro j _
    rw [show 1 + (policy.freeAttempts + j) = policy.freeAttempts + (j + 1) by omega, lockoutAfter_add]
    push_cast
    rfl

end

section

variable {js : JsonText} {policy : UnlockPolicy}

theorem exists_before {times : List Int} (h : times.Pairwise (· ≤ ·)) : ∃ since, (since :: times).Pairwise (· ≤ ·) := by
  cases times with
  | nil => exact ⟨0, List.pairwise_singleton _ _⟩
  | cons time times =>
    refine ⟨time, List.pairwise_cons.mpr ⟨fun other hmem => ?_, h⟩⟩
    rcases List.mem_cons.mp hmem with rfl | hmem
    · exact le_rfl
    · exact (List.pairwise_cons.mp h).1 other hmem

/-- Failures in a row are followed by an attempt only after the lockout of the last, and after all their lockouts together;
    what is left of a lockout lies below the cap, shrinks with time and grows with failures. -/
theorem guesses_throttled (hjs : js.Exact) (base64 : Base64Text) (prim : VaultPrimitives) (hbase : 0 < policy.baseLockoutMs)
    (hcap : policy.baseLockoutMs ≤ policy.maxLockoutMs) :
    (∀ (app : App) (events : List UnlockEvent), (events.flatMap readings).Pairwise (· ≤ ·) →
      ∀ (earlier failures later : List Attempt) (next : Attempt),
        app.attempts js base64 prim policy events = earlier ++ failures ++ next :: later →
        (∀ attempt ∈ failures, attempt.failedAt ≠ none) →
        (∀ (last : Attempt) (failedAt : Int) (j : Nat), failures.getLast? = some last → last.failedAt = some failedAt → 1 ≤ j →
          failures.length = policy.freeAttempts + j →
          failedAt + min (policy.baseLockoutMs * 2 ^ min (j - 1) 20) policy.maxLockoutMs ≤ next.openedAt) ∧
        ∀ (first : Attempt) (failedAt : Int), failures.head? = some first → first.failedAt = some failedAt →
          failedAt + ∑ j ∈ Finset.range (failures.length - policy.freeAttempts),
            (min (policy.baseLockoutMs * 2 ^ min j 20) policy.maxLockoutMs : Int) ≤ next.openedAt) ∧
    (∀ (state : UnlockAttemptState) (now : Int),
      0 ≤ lockoutRemainingMs state now policy ∧ lockoutRemainingMs state now policy ≤ policy.maxLockoutMs) ∧
    (∀ (state : UnlockAttemptState) (now later : Int), now ≤ later →
      lockoutRemainingMs state later policy ≤ lockoutRemainingMs state now policy) ∧
    ∀ (failures failures' lastFailureAt now : Int), failures ≤ failures' →
      lockoutRemainingMs ⟨failures, lastFailureAt⟩ now policy ≤ lockoutRemainingMs ⟨failures', lastFailureAt⟩ now policy := by
  have hmax : 0 < policy.maxLockoutMs := Nat.lt_of_lt_of_le hbase hcap
  refine ⟨?_, fun state now => lockoutRemainingMs_mem policy state now, fun state _ _ => lockoutRemainingMs_anti policy state,
    fun _ _ lastFailureAt now => lockoutRemainingMs_mono policy lastFailureAt now⟩
  intro app events hclock earlier failures later next hattempts hfailed
  -- nothing is assumed of the counter the run begins with
  obtain ⟨since, hsince⟩ := exists_before hclock
  have hspaced := spaced_attempts hjs base64 prim hbase hmax events app 0 since
    (fun hsome => absurd hsome (Nat.lt_irrefl 0)) hsince
  rw [hattempts, List.append_assoc] at hspaced
  obtain ⟨since', hrow⟩ := hspaced.drop
  constructor
  · intro last failedAt j hlast hat hj hlength
    have hgap := (hrow.segment hfailed).1
    obtain ⟨m, rfl⟩ := Nat.exists_eq_add_of_le' hj
    rw [lastFailure_eq hlast hat, Nat.zero_add, hlength, lockoutAfter_add] at hgap
    rw [Nat.add_sub_cancel]
    exact_mod_cast hgap
  · intro first failedAt hfirst hat
    obtain ⟨rest, rfl⟩ := List.head?_eq_some_iff.mp hfirst
    have htail := hrow.2
    rw [hat] at htail
    have htotal := (htail.2.segment (fun attempt hmem => hfailed attempt (List.mem_cons_of_mem _ hmem))).2
    rw [sum_lockoutAfter] at htotal
    exact htotal

end

def wholeText : Int → List Char
  | .ofNat n => Nat.toDigits 10 n
  | .negSucc n => '-' :: Nat.toDigits 10 (n + 1)

def wholeOf : List Char → Int
  | '-' :: digits => -(Nat.ofDigitChars 10 digits 0 : Int)
  | digits => Nat.ofDigitChars 10 digits 0

theorem wholeOf_wholeText (n : Int) : wholeOf (wholeText n) = n := by
  cases n with
  | negSucc n =>
    show -((Nat.ofDigitChars 10 (Nat.toDigits 10 (n + 1)) 0 : Nat) : Int) = Int.negSucc n
    rw [Nat.ofDigitChars_ten_toDigits]
    rfl
  | ofNat n =>
    have hvalue : ((Nat.ofDigitChars 10 (Nat.toDigits 10 n) 0 : Nat) : Int) = Int.ofNat n :=
      congrArg Int.ofNat Nat.ofDigitChars_ten_toDigits
    have hminus : ∀ digits, Nat.toDigits 10 n ≠ '-' :: digits := by
      intro digits heq
      have hdigit : ('-').isDigit = true :=
        Nat.isDigit_of_mem_toDigits (b := 10) (by norm_num) (by norm_num) (heq ▸ List.mem_cons_self)
      cases hdigit
    show wholeOf (Nat.toDigits 10 n) = Int.ofNat n
    unfold wholeOf
    split
    next digits heq => exact absurd heq (hminus digits)
    next => exact hvalue

theorem wholeText_ne_comma (n : Int) : ∀ c ∈ wholeText n, c ≠ ',' := by
  have hdigits : ∀ m : Nat, ∀ c ∈ Nat.toDigits 10 m, c ≠ ',' := by
    intro m c hc hcomma
    have hdigit : c.isDigit = true := Nat.isDigit_of_mem_toDigits (by norm_num) (by norm_num) hc
    rw [hcomma] at hdigit
    cases hdigit
  intro c hc
  cases n with
  | ofNat n => exact hdigits n c hc
  | negSucc n =>
    rcases List.mem_cons.mp hc with rfl | hc
    · decide
    · exact hdigits _ c hc

/-- The text of an entry. -/
def entryText (failures lastFailureAt : Int) : String :=
  String.ofList ("\x7b\"failures\":".toList ++ (wholeText failures ++ (",\"lastFailureAt\":".toList ++
    (wholeText lastFailureAt ++ ['}']))))

/-- JSON, as far as entries go. -/
def entryJson : JsonText where
  stringify
    | .obj [(_, .num (.finite failures)), (_, .num (.finite lastFailureAt))] => entryText failures.num lastFailureAt.num
    | _ => "null"
  parse raw :=
    let inner := raw.toList.drop 12
    let failures := inner.takeWhile (· ≠ ',')
    let lastFailureAt := (inner.drop (failures.length + 17)).dropLast
    if entryText (wholeOf failures) (wholeOf lastFailureAt) = raw then
      some (UnlockAttemptState.toJson ⟨wholeOf failures, wholeOf lastFailureAt⟩)
    else none

theorem entryJson_exact : entryJson.Exact := by
  intro state
  have htext : entryJson.stringify state.toJson = entryText state.failures state.lastFailureAt := rfl
  have hinner : (entryText state.failures state.lastFailureAt).toList.drop 12 =
      wholeText state.failures ++ (",\"lastFailureAt\":".toList ++ (wholeText state.lastFailureAt ++ ['}'])) := by
    unfold entryText
    rw [String.toList_ofList]
    exact List.drop_left' (by decide)
  have hfailures : ((entryText state.failures state.lastFailureAt).toList.drop 12).takeWhile (· ≠ ',') =
      wholeText state.failures := by
    rw [hinner, List.takeWhile_append_of_pos]
    · simp
    · simpa using wholeText_ne_comma state.failures
  have hlast : (((entryText state.failures state.lastFailureAt).toList.drop 12).drop
      ((wholeText state.failures).length + 17)).dropLast = wholeText state.lastFailureAt := by
    rw [hinner, ← List.drop_drop, List.drop_left]
    exact List.dropLast_concat
  rw [htext]
  simp only [entryJson, hfailures, hlast, wholeOf_wholeText, if_true]

/-- One free attempt, then ten milliseconds. -/
def shortPolicy : UnlockPolicy := { freeAttempts := 1, baseLockoutMs := 10, maxLockoutMs := 15 }

def emptyText : Base64Text where
  encode _ := ""
  decode _ := []

def press (openedAt : Int) : UnlockEvent :=
  .start { passphrase := [], salt := ⟨List.replicate saltLength 0, rfl⟩, dataKey := ⟨List.replicate aeadKeyLength 0, rfl⟩
           openedAt, failedAt := openedAt + 1 }

/-- Primitives under which no passphrase opens a wrapper. -/
def exhausted : VaultPrimitives := { fitting with passphraseKdf := fun _ _ _ _ => .error (.error "out of memory") }

theorem openWrapper_exhausted (base64 : Base64Text) (passphrase : Bytes) (storedWrapper : String) :
    ∃ failure, App.openWrapper base64 exhausted passphrase storedWrapper = .error failure := by
  unfold App.openWrapper
  cases decodeWrappedVault (base64.decode storedWrapper) with
  | error failure => exact ⟨failure, rfl⟩
  | ok wrapped =>
    show ∃ failure, exhausted.unlockVault passphrase wrapped = .error failure
    unfold VaultPrimitives.unlockVault
    split
    next => exact ⟨_, rfl⟩
    next => exact ⟨_, rfl⟩

/-- An app with a vault, and its counter. -/
def guarded (attempts : Option String) : App := { secrets := { storedWrapper := some "vault", attempts }, vault := none }

section

variable {policy : UnlockPolicy} {attempts : Option String} {openedAt : Int} (state : UnlockAttemptState)

theorem start_guarded (hparse : parseAttemptState entryJson attempts openedAt policy = state) (call : StartCall)
    (hcall : call.openedAt = openedAt) :
    (guarded attempts).start entryJson emptyText exhausted policy call =
      if canAttempt state openedAt policy = true then
        (.incorrect (lockoutRemainingMs (recordFailure state call.failedAt) call.failedAt policy),
          guarded (some (serialiseAttemptState entryJson (recordFailure state call.failedAt))))
      else (.refused (lockoutRemainingMs state openedAt policy), guarded attempts) := by
  subst hparse hcall
  obtain ⟨failure, hopen⟩ := openWrapper_exhausted emptyText call.passphrase "vault"
  have hwrapper : (guarded attempts).wrapper? = some "vault" := rfl
  have hentry : (guarded attempts).secrets.attempts = attempts := rfl
  simp only [App.start, hwrapper, hentry, hopen]
  cases canAttempt (parseAttemptState entryJson attempts call.openedAt policy) call.openedAt policy with
  | false => simp only [Bool.not_false, if_true, Bool.false_eq_true, if_false]
  | true => simp only [Bool.not_true, if_true, Bool.false_eq_true, if_false, guarded]

theorem attempted_press (hparse : parseAttemptState entryJson attempts openedAt policy = state) :
    (guarded attempts).attempted? entryJson emptyText exhausted policy (press openedAt) =
      if canAttempt state openedAt policy = true then some ⟨openedAt, some (openedAt + 1)⟩ else none := by
  rw [press, App.attempted?, start_guarded state hparse _ rfl]
  split <;> rfl

theorem step_press (hparse : parseAttemptState entryJson attempts openedAt policy = state) :
    (guarded attempts).step entryJson emptyText exhausted policy (press openedAt) =
      if canAttempt state openedAt policy = true then
        guarded (some (serialiseAttemptState entryJson (recordFailure state (openedAt + 1))))
      else guarded attempts := by
  rw [press, App.step, start_guarded state hparse _ rfl]
  split <;> rfl

theorem run_press (events : List UnlockEvent) (hparse : parseAttemptState entryJson attempts openedAt policy = state) :
    (guarded attempts).run entryJson emptyText exhausted policy (press openedAt :: events) =
      if canAttempt state openedAt policy = true then
        (guarded (some (serialiseAttemptState entryJson (recordFailure state (openedAt + 1))))).run
          entryJson emptyText exhausted policy events
      else (guarded attempts).run entryJson emptyText exhausted policy events := by
  rw [App.run, List.foldl_cons, step_press state hparse]
  split <;> rfl

theorem attempts_press (events : List UnlockEvent) (hparse : parseAttemptState entryJson attempts openedAt policy = state) :
    (guarded attempts).attempts entryJson emptyText exhausted policy (press openedAt :: events) =
      if canAttempt state openedAt policy = true then
        ⟨openedAt, some (openedAt + 1)⟩ ::
          (guarded (some (serialiseAttemptState entryJson (recordFailure state (openedAt + 1))))).attempts
            entryJson emptyText exhausted policy events
      else (guarded attempts).attempts entryJson emptyText exhausted policy events := by
  rw [App.attempts, attempted_press state hparse, step_press state hparse]
  split <;> rfl

theorem attempts_restart (events : List UnlockEvent) :
    (guarded attempts).attempts entryJson emptyText exhausted policy (.restart :: events) =
      (guarded attempts).attempts entryJson emptyText exhausted policy events := rfl

end

/-- Two wrong passphrases, a third that is refused, and a fourth when the lockout is over. -/
theorem guesses_throttled_short :
    (guarded none).attempts entryJson emptyText exhausted shortPolicy [press 0, press 2, press 5, .restart, press 13] =
      [] ++ [⟨0, some 1⟩, ⟨2, some 3⟩] ++ ⟨13, some 14⟩ :: [] ∧
    (3 : Int) + ((min (shortPolicy.baseLockoutMs * 2 ^ min (1 - 1) 20) shortPolicy.maxLockoutMs : Nat) : Int) ≤ 13 := by
  have hread := fun state now => parseAttemptState_serialise entryJson_exact state now shortPolicy
  have hattempts : (guarded none).attempts entryJson emptyText exhausted shortPolicy
      [press 0, press 2, press 5, .restart, press 13] = [] ++ [⟨0, some 1⟩, ⟨2, some 3⟩] ++ ⟨13, some 14⟩ :: [] := by
    rw [attempts_press emptyAttemptState _ rfl, if_pos (by decide), attempts_press ⟨1, 1⟩ _ (hread _ _),
      if_pos (by decide), attempts_press ⟨2, 3⟩ _ (hread _ _), if_neg (by decide), attempts_restart,
      attempts_press ⟨2, 3⟩ _ (hread _ _), if_pos (by decide)]
    rfl
  have hclock : ([press 0, press 2, press 5, .restart, press 13].flatMap readings).Pairwise (· ≤ ·) := by decide
  refine ⟨hattempts, ?_⟩
  exact ((guesses_throttled entryJson_exact emptyText exhausted (by decide) (by decide)).1 _ _ hclock _ _ _ _
    hattempts (by decide)).1 ⟨2, some 3⟩ 3 1 rfl rfl le_rfl rfl

end Unlocking

end Veil
