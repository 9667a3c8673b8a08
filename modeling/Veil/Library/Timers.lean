import Mathlib

/-- A pending call: its id, the time from which it may run, and what is called. -/
structure Timer (τ : Type) where
  id : Nat
  due : Int
  call : τ

/-- The timers of a process. An id is not handed out twice. -/
structure Timers (τ : Type) where
  nextId : Nat := 0
  pending : List (Timer τ) := []
  fresh : ∀ timer ∈ pending, timer.id < nextId := by simp
  distinct : (pending.map (fun timer => timer.id)).Nodup := by simp

namespace Timers

variable {τ : Type} (timers : Timers τ)

/-- The new timers and the id of the call. -/
def setTimeout (due : Int) (call : τ) : Timers τ × Nat :=
  ({ nextId := timers.nextId + 1
     pending := timers.pending ++ [⟨timers.nextId, due, call⟩]
     fresh := by
       intro timer hmem
       rcases List.mem_append.mp hmem with hmem | hmem
       · exact Nat.lt_succ_of_lt (timers.fresh timer hmem)
       · rw [List.mem_singleton.mp hmem]
         exact Nat.lt_succ_self _
     distinct := by
       rw [List.map_append]
       refine List.Nodup.append timers.distinct (List.nodup_singleton _) ?_
       intro id hid hnew
       obtain ⟨timer, hmem, rfl⟩ := List.mem_map.mp hid
       have hlt := timers.fresh timer hmem
       have hsame : timer.id = timers.nextId := List.mem_singleton.mp hnew
       omega },
    timers.nextId)

def clearTimeout (id : Nat) : Timers τ where
  nextId := timers.nextId
  pending := timers.pending.filter (fun timer => timer.id ≠ id)
  fresh timer hmem := timers.fresh timer (List.mem_of_mem_filter hmem)
  distinct := timers.distinct.sublist (List.filter_sublist.map _)

/-- A call that is due by `now` runs once. -/
def ring (id : Nat) (now : Int) : Option (τ × Timers τ) :=
  match timers.pending.find? (fun timer => timer.id = id) with
  | some timer => if timer.due ≤ now then some (timer.call, timers.clearTimeout id) else none
  | none => none

variable {timers} {id : Nat} {now due : Int} {call : τ}

@[simp] theorem setTimeout_pending : (timers.setTimeout due call).1.pending =
    timers.pending ++ [⟨timers.nextId, due, call⟩] := rfl

@[simp] theorem setTimeout_id : (timers.setTimeout due call).2 = timers.nextId := rfl

@[simp] theorem clearTimeout_pending : (timers.clearTimeout id).pending =
    timers.pending.filter (fun timer => timer.id ≠ id) := rfl

/-- What rings was pending and due, and is not pending any more. -/
theorem ring_eq_some {rung : Timers τ} (h : timers.ring id now = some (call, rung)) :
    (∃ timer ∈ timers.pending, timer.id = id ∧ timer.call = call ∧ timer.due ≤ now) ∧ rung = timers.clearTimeout id := by
  unfold ring at h
  cases hfind : timers.pending.find? (fun timer => timer.id = id) with
  | none =>
    rw [hfind] at h
    cases h
  | some timer =>
    rw [hfind] at h
    dsimp only at h
    by_cases hdue : timer.due ≤ now
    · rw [if_pos hdue] at h
      obtain ⟨rfl, rfl⟩ := Prod.mk.inj (Option.some.inj h)
      have hid : timer.id = id := by simpa using List.find?_some hfind
      exact ⟨⟨timer, List.mem_of_find?_eq_some hfind, hid, rfl, hdue⟩, rfl⟩
    · rw [if_neg hdue] at h
      cases h

/-- A pending call rings once it is due. -/
theorem ring_pending {timer : Timer τ} (hmem : timer ∈ timers.pending) (hdue : timer.due ≤ now) :
    timers.ring timer.id now = some (timer.call, timers.clearTimeout timer.id) := by
  have hfind : timers.pending.find? (fun other => other.id = timer.id) = some timer := by
    have hsome : (timers.pending.find? (fun other => other.id = timer.id)).isSome := by
      rw [List.find?_isSome]
      exact ⟨timer, hmem, by simp⟩
    obtain ⟨found, hfound⟩ := Option.isSome_iff_exists.mp hsome
    have hid : found.id = timer.id := by simpa using List.find?_some hfound
    rw [hfound, List.inj_on_of_nodup_map timers.distinct (List.mem_of_find?_eq_some hfound) hmem hid]
  unfold ring
  rw [hfind]
  dsimp only
  rw [if_pos hdue]

/-- With one call pending, only that one can ring, and nothing is left. -/
theorem ring_single {timer : Timer τ} {rung : Timers τ} (hpending : timers.pending = [timer])
    (h : timers.ring id now = some (call, rung)) : timer.id = id ∧ timer.due ≤ now ∧ rung.pending = [] := by
  obtain ⟨⟨found, hmem, hid, _, hdue⟩, rfl⟩ := ring_eq_some h
  rw [hpending] at hmem
  obtain rfl := List.mem_singleton.mp hmem
  refine ⟨hid, hdue, ?_⟩
  rw [clearTimeout_pending, hpending]
  simp [hid]

theorem ring_none_pending (hpending : timers.pending = []) : timers.ring id now = none := by
  unfold ring
  rw [hpending]
  rfl

/-- Clearing a pending call takes it, and nothing else, out of any count. -/
theorem countP_clearTimeout {timer : Timer τ} (hmem : timer ∈ timers.pending) (q : Timer τ → Bool) :
    (timers.clearTimeout timer.id).pending.countP q + (if q timer then 1 else 0) = timers.pending.countP q := by
  have general : ∀ pending : List (Timer τ), (pending.map (fun timer => timer.id)).Nodup → timer ∈ pending →
      (pending.filter (fun other => other.id ≠ timer.id)).countP q + (if q timer then 1 else 0) = pending.countP q := by
    intro pending hdistinct
    induction pending with
    | nil => exact fun hmem => absurd hmem List.not_mem_nil
    | cons first rest ih =>
      intro hmem
      obtain ⟨hfirst, hrest⟩ := List.nodup_cons.mp hdistinct
      by_cases hid : first.id = timer.id
      · have hnot : ∀ other ∈ rest, other.id ≠ timer.id :=
          fun other hother hsame => hfirst (List.mem_map.mpr ⟨other, hother, hsame.trans hid.symm⟩)
        have htimer : timer = first := by
          rcases List.mem_cons.mp hmem with hmem | hmem
          · exact hmem
          · exact absurd rfl (hnot timer hmem)
        subst htimer
        rw [List.filter_cons_of_neg (by simp), List.countP_cons]
        rw [List.filter_eq_self.mpr (fun other hother => by simpa using hnot other hother)]
      · have hmem' : timer ∈ rest := by
          rcases List.mem_cons.mp hmem with hmem | hmem
          · exact absurd (hmem ▸ rfl) hid
          · exact hmem
        rw [List.filter_cons_of_pos (by simpa using hid), List.countP_cons, List.countP_cons, ← ih hrest hmem']
        omega
  exact general timers.pending timers.distinct hmem

end Timers
