import Veil.Library.Timers

namespace Veil

def backgroundLockGraceMs : Int := 30000

def shouldLock (backgroundedAt : Option Int) (currentTime graceMs : Int) : Bool :=
  match backgroundedAt with
  | none => false
  | some backgroundedAt =>
    -- A clock that has gone backwards tells nothing about how long it was.
    if currentTime < backgroundedAt then true else decide (currentTime - backgroundedAt ≥ graceMs)

inductive AppStateStatus
  | active
  | background
  | inactive
  deriving DecidableEq

/-- The variables of `startLifecycleLock`. -/
structure LifecycleLock where
  backgroundedAt : Option Int := none
  timer : Option Nat := none

/-- The app's process: the lifecycle lock, the timers it sets, and whether a vault is open. -/
structure LockedApp where
  lock : LifecycleLock := {}
  timers : Timers Unit := {}
  unlocked : Bool := false

/-- `now` is read from the wall clock, `uptime` is what timers go by. -/
inductive LifecycleEvent
  | change (state : AppStateStatus) (now uptime : Int)
  | ring (id : Nat) (uptime : Int)
  | unlock

namespace LockedApp

def onLock (app : LockedApp) : LockedApp := { app with unlocked := false }

/-- `clearTimeout` of the timer held, where there is one. -/
def clearTimer (app : LockedApp) : LockedApp :=
  match app.lock.timer with
  | none => app
  | some id => { app with timers := app.timers.clearTimeout id, lock := { app.lock with timer := none } }

/-- The listener that `startLifecycleLock` subscribes. -/
def change (graceMs : Int) (state : AppStateStatus) (now uptime : Int) (app : LockedApp) : LockedApp :=
  if state = .active then
    let app := app.clearTimer
    let app := if shouldLock app.lock.backgroundedAt now graceMs then app.onLock else app
    { app with lock := { app.lock with backgroundedAt := none } }
  else
    match app.lock.backgroundedAt with
    | some _ => app
    | none =>
      let (timers, id) := app.timers.setTimeout (uptime + graceMs) ()
      { app with timers, lock := { backgroundedAt := some now, timer := some id } }

/-- A step of the process; a timer rings only when it is pending and due. -/
def step (graceMs : Int) (app : LockedApp) : LifecycleEvent → Option LockedApp
  | .change state now uptime => some (app.change graceMs state now uptime)
  | .ring id uptime => do
    let (_, timers) ← app.timers.ring id uptime
    return ({ app with timers, lock := { app.lock with timer := none } } : LockedApp).onLock
  | .unlock => some { app with unlocked := true }

def run (graceMs : Int) : LockedApp → List LifecycleEvent → Option LockedApp
  | app, [] => some app
  | app, event :: events => (app.step graceMs event).bind (run graceMs · events)

end LockedApp

/-- What can be seen of the app from outside. An absence is the time from leaving the foreground to coming back. -/
structure Absences where
  /-- The wall clock and the uptime when the app left the foreground, while it is away. -/
  left : Option (Int × Int) := none
  /-- Whether a timer has rung in the absence that is going on. -/
  rung : Bool := false
  /-- Whether the vault has ever been opened. -/
  opened : Bool := false
  /-- By the wall clock, the absences that have ended since the vault was last opened. -/
  ended : List (Int × Int) := []
  /-- Whether a timer has rung since the vault was last opened. -/
  rungSince : Bool := false

namespace Absences

def see (seen : Absences) : LifecycleEvent → Absences
  | .change .active now _ =>
    match seen.left with
    | none => seen
    | some (leftAt, _) => { seen with left := none, rung := false, ended := seen.ended ++ [(leftAt, now)] }
  | .change _ now uptime =>
    match seen.left with
    | none => { seen with left := some (now, uptime), rung := false }
    | some _ => seen
  | .ring _ _ => { seen with rung := true, rungSince := true }
  | .unlock => { seen with opened := true, ended := [], rungSince := false }

def ofRun (events : List LifecycleEvent) : Absences := events.foldl see {}

/-- The app came back before the grace period was over, by a clock that has not gone backwards. -/
def Brief (graceMs : Int) (absence : Int × Int) : Prop := absence.1 ≤ absence.2 ∧ absence.2 - absence.1 < graceMs

end Absences

section

variable {graceMs : Int} {app next : LockedApp} {seen : Absences}

theorem shouldLock_iff (leftAt now graceMs : Int) :
    shouldLock (some leftAt) now graceMs = true ↔ ¬Absences.Brief graceMs (leftAt, now) := by
  simp only [shouldLock, Absences.Brief]
  split
  next hback =>
    simp only [true_iff]
    omega
  next hforth =>
    rw [decide_eq_true_eq]
    omega

/-- The timer that an absence leaves pending. -/
def Absences.timer (graceMs : Int) (seen : Absences) (id : Nat) : List (Timer Unit) :=
  match seen.left, seen.rung with
  | some (_, leftUptime), false => [⟨id, leftUptime + graceMs, ()⟩]
  | _, _ => []

/-- How the process stands to what can be seen of it. -/
structure LockedApp.Stands (graceMs : Int) (app : LockedApp) (seen : Absences) : Prop where
  backgroundedAt : app.lock.backgroundedAt = seen.left.map Prod.fst
  pending : ∃ id, app.timers.pending = seen.timer graceMs id
  held : app.lock.timer = app.timers.pending.head?.map (fun timer => timer.id)
  unlocked : app.unlocked = true ↔
    seen.opened = true ∧ seen.rungSince = false ∧ ∀ absence ∈ seen.ended, Absences.Brief graceMs absence

namespace LockedApp

theorem Stands.started (graceMs : Int) : Stands graceMs {} {} :=
  ⟨rfl, ⟨0, rfl⟩, rfl, by simp⟩

/-- Clearing what is held clears what is pending. -/
theorem Stands.clearTimer (stands : Stands graceMs app seen) :
    app.clearTimer.timers.pending = [] ∧ app.clearTimer.lock.timer = none ∧
      app.clearTimer.lock.backgroundedAt = app.lock.backgroundedAt ∧ app.clearTimer.unlocked = app.unlocked := by
  obtain ⟨id, hpending⟩ := stands.pending
  have hheld := stands.held
  have hshape : seen.timer graceMs id = [] ∨ ∃ timer, seen.timer graceMs id = [timer] := by
    unfold Absences.timer
    split
    · exact Or.inr ⟨_, rfl⟩
    · exact Or.inl rfl
  unfold LockedApp.clearTimer
  rcases hshape with hempty | ⟨timer, hsingle⟩
  · rw [hpending, hempty] at hheld
    have hnone : app.lock.timer = none := hheld
    rw [hnone]
    exact ⟨hpending.trans hempty, hnone, rfl, rfl⟩
  · rw [hpending, hsingle] at hheld
    have hsome : app.lock.timer = some timer.id := hheld
    rw [hsome]
    refine ⟨?_, rfl, rfl, rfl⟩
    rw [Timers.clearTimeout_pending, hpending, hsingle]
    simp

/-- Coming back: nothing is pending, and the vault stays open only after a brief absence. -/
theorem Stands.resume (stands : Stands graceMs app seen) (now uptime : Int) :
    Stands graceMs (app.change graceMs .active now uptime) (seen.see (.change .active now uptime)) := by
  obtain ⟨hpending, htimer, hbackgrounded, hunlocked⟩ := stands.clearTimer
  have hopen := stands.unlocked
  have hat := hbackgrounded.trans stands.backgroundedAt
  have hheld : app.clearTimer.lock.timer = app.clearTimer.timers.pending.head?.map (fun timer => timer.id) := by
    rw [htimer, hpending]
    rfl
  simp only [LockedApp.change, if_true, Absences.see]
  cases hleft : seen.left with
  | none =>
    rw [hleft] at hat
    have hstay : shouldLock app.clearTimer.lock.backgroundedAt now graceMs = false := by
      rw [hat]
      rfl
    rw [hstay]
    refine ⟨by rw [hleft]; rfl, ⟨0, ?_⟩, hheld, ?_⟩
    · unfold Absences.timer
      rw [hleft]
      exact hpending
    · exact (iff_of_eq (congrArg (· = true) hunlocked)).trans hopen
  | some left =>
    obtain ⟨leftAt, leftUptime⟩ := left
    rw [hleft] at hat
    have hlock : shouldLock app.clearTimer.lock.backgroundedAt now graceMs = true ↔
        ¬Absences.Brief graceMs (leftAt, now) := by
      rw [hat]
      exact shouldLock_iff leftAt now graceMs
    by_cases hbrief : Absences.Brief graceMs (leftAt, now)
    · have hstay : ¬shouldLock app.clearTimer.lock.backgroundedAt now graceMs = true :=
        fun h => hlock.mp h hbrief
      rw [if_neg hstay]
      refine ⟨rfl, ⟨0, hpending⟩, hheld, ?_⟩
      · simp only [List.mem_append, List.mem_singleton]
        rw [hunlocked, hopen]
        constructor
        · intro h
          refine ⟨h.1, h.2.1, fun absence hmem => ?_⟩
          rcases hmem with hmem | hmem
          · exact h.2.2 absence hmem
          · exact hmem ▸ hbrief
        · exact fun h => ⟨h.1, h.2.1, fun absence hmem => h.2.2 absence (Or.inl hmem)⟩
    · rw [if_pos (hlock.mpr hbrief)]
      refine ⟨rfl, ⟨0, hpending⟩, hheld, ?_⟩
      · constructor
        · intro h
          cases h
        · intro h
          have hlast := h.2.2 (leftAt, now) (List.mem_append_right _ List.mem_cons_self)
          exact absurd hlast hbrief

/-- Leaving, or moving between the two states that are not active: one timer is set, for the first of them. -/
theorem Stands.leave (stands : Stands graceMs app seen) {state : AppStateStatus} (hstate : state ≠ .active)
    (now uptime : Int) :
    Stands graceMs (app.change graceMs state now uptime) (seen.see (.change state now uptime)) := by
  obtain ⟨hat, ⟨id, hpending⟩, hheld, hopen⟩ := stands
  have hsee : seen.see (.change state now uptime) = match seen.left with
      | none => { seen with left := some (now, uptime), rung := false }
      | some _ => seen := by
    cases state with
    | active => exact absurd rfl hstate
    | background => rfl
    | inactive => rfl
  rw [hsee, LockedApp.change, if_neg hstate]
  cases hleft : seen.left with
  | none =>
    have hnone : app.lock.backgroundedAt = none := by rw [hat, hleft]; rfl
    have hempty : app.timers.pending = [] := by
      rw [hpending, Absences.timer, hleft]
    rw [hnone]
    refine ⟨rfl, ⟨app.timers.nextId, ?_⟩, ?_, hopen⟩
    · show app.timers.pending ++ _ = _
      rw [hempty]
      rfl
    · show some app.timers.nextId = Option.map _ (app.timers.pending ++ _).head?
      rw [hempty]
      rfl
  | some left =>
    have hsome : app.lock.backgroundedAt = some left.1 := by rw [hat, hleft]; rfl
    rw [hsome]
    exact ⟨hsome.trans (by rw [hleft]; rfl), ⟨id, hpending⟩, hheld, hopen⟩

/-- A timer rings only while the app is away, once in an absence and not before the grace period is over. -/
theorem Stands.ring (stands : Stands graceMs app seen) {id : Nat} {uptime : Int}
    (h : app.step graceMs (.ring id uptime) = some next) :
    Stands graceMs next (seen.see (.ring id uptime)) ∧
      ∃ leftAt leftUptime, seen.left = some (leftAt, leftUptime) ∧ seen.rung = false ∧ leftUptime + graceMs ≤ uptime := by
  obtain ⟨hat, ⟨held, hpending⟩, hheld, hopen⟩ := stands
  obtain ⟨⟨call, timers⟩, hring, h⟩ := Option.bind_eq_some_iff.mp h
  obtain rfl := Option.some.inj h
  unfold Absences.timer at hpending
  split at hpending
  next leftAt leftUptime hleft hrung =>
    obtain ⟨_, hdue, hnone⟩ := Timers.ring_single hpending hring
    refine ⟨⟨hat, ⟨0, ?_⟩, ?_, ?_⟩, leftAt, leftUptime, hleft, hrung, hdue⟩
    · rw [Absences.timer, show (seen.see (.ring id uptime)).rung = true from rfl]
      split
      next _ hfalse => cases hfalse
      next => exact hnone
    · show none = Option.map _ timers.pending.head?
      rw [hnone]
      rfl
    · constructor
      · intro h
        cases h
      · intro h
        cases h.2.1
  next =>
    rw [Timers.ring_none_pending hpending] at hring
    cases hring

theorem Stands.step (stands : Stands graceMs app seen) {event : LifecycleEvent} (h : app.step graceMs event = some next) :
    Stands graceMs next (seen.see event) := by
  cases event with
  | change state now uptime =>
    obtain rfl := Option.some.inj h
    by_cases hstate : state = .active
    · subst hstate
      exact stands.resume now uptime
    · exact stands.leave hstate now uptime
  | ring id uptime => exact (stands.ring h).1
  | unlock =>
    obtain rfl := Option.some.inj h
    obtain ⟨hat, hpending, hheld, _⟩ := stands
    exact ⟨hat, hpending, hheld, by simp [Absences.see]⟩

theorem Stands.run (stands : Stands graceMs app seen) {events : List LifecycleEvent}
    (h : app.run graceMs events = some next) : Stands graceMs next (events.foldl Absences.see seen) := by
  induction events generalizing app seen with
  | nil =>
    obtain rfl := Option.some.inj h
    exact stands
  | cons event events ih =>
    obtain ⟨mid, hmid, h⟩ := Option.bind_eq_some_iff.mp h
    exact ih (stands.step hmid) h

/-- However the app comes and goes and whatever its wall clock does, the vault is open exactly where it has been opened
and since then every absence that has ended was brief and no timer has rung. While the app is away one timer is pending,
due when the grace period is over, until it has rung, and in the foreground none is; a timer rings at most once in an
absence, and only when it has lasted the grace period. -/
theorem lifecycle_locks {events : List LifecycleEvent} (h : run graceMs {} events = some app) :
    (app.unlocked = true ↔ (Absences.ofRun events).opened = true ∧ (Absences.ofRun events).rungSince = false ∧
      ∀ absence ∈ (Absences.ofRun events).ended, Absences.Brief graceMs absence) ∧
    (∃ id, app.timers.pending = (Absences.ofRun events).timer graceMs id) ∧
    ∀ id uptime rung, app.step graceMs (.ring id uptime) = some rung →
      ∃ leftAt leftUptime, (Absences.ofRun events).left = some (leftAt, leftUptime) ∧
        (Absences.ofRun events).rung = false ∧ leftUptime + graceMs ≤ uptime := by
  have stands := (Stands.started graceMs).run h
  refine ⟨stands.unlocked, stands.pending, ?_⟩
  intro id uptime rung hring
  exact (stands.ring hring).2

/-- A short absence by the uptime locks too, when the wall clock has been set back meanwhile. -/
theorem lifecycle_locks_setBack : ∃ app,
    run backgroundLockGraceMs {} [.unlock, .change .inactive 90000 10, .change .background 90001 11,
      .change .active 50000 2000] = some app ∧ app.unlocked = false := by
  refine ⟨_, rfl, ?_⟩
  obtain ⟨hunlocked, _⟩ := @lifecycle_locks backgroundLockGraceMs _ [.unlock, .change .inactive 90000 10,
    .change .background 90001 11, .change .active 50000 2000] rfl
  rw [← Bool.not_eq_true, hunlocked]
  intro h
  have hbrief := h.2.2 (90000, 50000) List.mem_cons_self
  exact absurd hbrief.1 (by decide)

end LockedApp

end

end Veil
