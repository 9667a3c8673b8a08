import Mathlib

/-- A computation that waits for the answer to every call it makes. -/
inductive Process (Call : Type) (Answer : Call → Type) (α : Type)
  | done (result : α)
  | wait (call : Call) (next : Answer call → Process Call Answer α)

namespace Process

variable {Call : Type} {Answer : Call → Type} {α β σ : Type}

def bind : Process Call Answer α → (α → Process Call Answer β) → Process Call Answer β
  | .done result, f => f result
  | .wait call next, f => .wait call (fun answer => (next answer).bind f)

instance : Monad (Process Call Answer) where
  pure := .done
  bind := bind

@[simp] theorem pure_eq (a : α) : (Pure.pure a : Process Call Answer α) = .done a := rfl

@[simp] theorem done_bind (a : α) (f : α → Process Call Answer β) : (done a >>= f) = f a := rfl

@[simp] theorem wait_bind (call : Call) (next : Answer call → Process Call Answer α) (f : α → Process Call Answer β) :
    (wait call next >>= f) = wait call (fun answer => next answer >>= f) := rfl

def ignore (process : Process Call Answer α) : Process Call Answer Unit := process >>= fun _ => .done ()

variable (serve : (call : Call) → σ → σ × Answer call)

/-- The process from beginning to end with nothing in between. -/
def alone : Process Call Answer α → σ → σ × α
  | .done result, s => (s, result)
  | .wait call next, s => (next (serve call s).2).alone (serve call s).1

@[simp] theorem alone_done (a : α) (s : σ) : (done a : Process Call Answer α).alone serve s = (s, a) := rfl

@[simp] theorem alone_wait (call : Call) (next : Answer call → Process Call Answer α) (s : σ) :
    (wait call next).alone serve s = (next (serve call s).2).alone serve (serve call s).1 := rfl

theorem alone_bind (t : Process Call Answer α) (f : α → Process Call Answer β) (s : σ) :
    (t >>= f).alone serve s = (f (t.alone serve s).2).alone serve (t.alone serve s).1 := by
  induction t generalizing s with
  | done result => rfl
  | wait call next ih => exact ih _ _

theorem alone_bind_done (t : Process Call Answer α) (result : α → β) (s : σ) :
    ((t >>= fun a => done (result a)).alone serve s).1 = (t.alone serve s).1 :=
  congrArg Prod.fst (alone_bind serve t (fun a => done (result a)) s)

/-- Every call the process can make is one of `calls`, as long as the answers it gets are among `answers`. -/
def Abides (calls : Call → Prop) (answers : (call : Call) → Answer call → Prop) : Process Call Answer α → Prop
  | .done _ => True
  | .wait call next => calls call ∧ ∀ answer, answers call answer → (next answer).Abides calls answers

namespace Abides

variable {calls : Call → Prop} {answers : (call : Call) → Answer call → Prop} {t : Process Call Answer α}

theorem bind {f : α → Process Call Answer β} (h : t.Abides calls answers) (next : ∀ a, (f a).Abides calls answers) :
    (t >>= f).Abides calls answers := by
  induction t with
  | done result => exact next result
  | wait call rest ih => exact ⟨h.1, fun answer hanswer => ih answer (h.2 answer hanswer)⟩

theorem ignore (h : t.Abides calls answers) : t.ignore.Abides calls answers := h.bind fun _ => trivial

end Abides

end Process

/-- Processes under way over one state. -/
structure Pool (Call : Type) (Answer : Call → Type) (σ : Type) where
  state : σ
  processes : List (Process Call Answer Unit)

namespace Pool

variable {Call : Type} {Answer : Call → Type} {σ : Type} (serve : (call : Call) → σ → σ × Answer call)

/-- The process at a place gets its answer and goes on to its next call; one that is done stays. -/
def resume (place : Nat) (pool : Pool Call Answer σ) : Pool Call Answer σ :=
  match pool.processes[place]? with
  | some (.wait call next) =>
    { state := (serve call pool.state).1, processes := pool.processes.set place (next (serve call pool.state).2) }
  | _ => pool

theorem resume_wait {pool : Pool Call Answer σ} {place : Nat} {call : Call} {next : Answer call → Process Call Answer Unit}
    (h : pool.processes[place]? = some (.wait call next)) : pool.resume serve place =
      ⟨(serve call pool.state).1, pool.processes.set place (next (serve call pool.state).2)⟩ := by
  rw [resume, h]

theorem resume_done {pool : Pool Call Answer σ} {place : Nat}
    (h : ∀ call next, pool.processes[place]? ≠ some (.wait call next)) : pool.resume serve place = pool := by
  unfold resume
  split
  next call next found => exact absurd found (h call next)
  next => rfl

/-- The processes go on in the order of a schedule. -/
def follow (schedule : List Nat) (pool : Pool Call Answer σ) : Pool Call Answer σ :=
  schedule.foldl (fun pool place => pool.resume serve place) pool

@[simp] theorem follow_nil (pool : Pool Call Answer σ) : pool.follow serve [] = pool := rfl

@[simp] theorem follow_cons (place : Nat) (schedule : List Nat) (pool : Pool Call Answer σ) :
    pool.follow serve (place :: schedule) = (pool.resume serve place).follow serve schedule := rfl

theorem follow_append (schedule more : List Nat) (pool : Pool Call Answer σ) :
    pool.follow serve (schedule ++ more) = (pool.follow serve schedule).follow serve more := List.foldl_append

/-- Nothing is under way any more. -/
def Finished (pool : Pool Call Answer σ) : Prop := ∀ process ∈ pool.processes, process = .done ()

/-- What every move keeps holds after every schedule. -/
theorem follow_preserves {P : Pool Call Answer σ → Prop} (step : ∀ pool place, P pool → P (pool.resume serve place))
    (schedule : List Nat) {pool : Pool Call Answer σ} (h : P pool) : P (pool.follow serve schedule) := by
  induction schedule generalizing pool with
  | nil => exact h
  | cons place schedule ih => exact ih (step pool place h)

@[simp] theorem length_resume (place : Nat) (pool : Pool Call Answer σ) :
    (pool.resume serve place).processes.length = pool.processes.length := by
  unfold resume
  split
  next => exact List.length_set
  next => rfl

@[simp] theorem length_follow (schedule : List Nat) (pool : Pool Call Answer σ) :
    (pool.follow serve schedule).processes.length = pool.processes.length := by
  induction schedule generalizing pool with
  | nil => rfl
  | cons place schedule ih => rw [follow_cons, ih, length_resume]

/-- A condition on each move of a schedule, in the state the move meets. -/
def Throughout (condition : Pool Call Answer σ → Nat → Prop) : List Nat → Pool Call Answer σ → Prop
  | [], _ => True
  | place :: schedule, pool => condition pool place ∧ Throughout condition schedule (pool.resume serve place)

section Invariant

variable {serve} {I : σ → Prop} {calls : Nat → Call → Prop} {answers : (call : Call) → Answer call → Prop}

/-- The state is as `I` says, and each process makes only calls of its own kind. -/
structure Abiding (I : σ → Prop) (calls : Nat → Call → Prop) (answers : (call : Call) → Answer call → Prop)
    (pool : Pool Call Answer σ) : Prop where
  state : I pool.state
  processes : ∀ place (process : Process Call Answer Unit), pool.processes[place]? = some process →
    process.Abides (calls place) answers

/-- The rule of the shared invariant: if calls of those kinds keep it and are answered within `answers`, every move keeps it. -/
theorem Abiding.resume (sound : ∀ place call s, I s → calls place call → I (serve call s).1 ∧ answers call (serve call s).2)
    {pool : Pool Call Answer σ} (h : pool.Abiding I calls answers) (place : Nat) :
    (pool.resume serve place).Abiding I calls answers := by
  unfold Pool.resume
  split
  next call next found =>
    obtain ⟨hcall, hnext⟩ := h.processes place _ found
    obtain ⟨hstate, hanswer⟩ := sound place call pool.state h.state hcall
    refine ⟨hstate, fun other process hprocess => ?_⟩
    rw [List.getElem?_set] at hprocess
    split at hprocess
    next heq =>
      subst heq
      split at hprocess
      next =>
        obtain rfl := Option.some.inj hprocess
        exact hnext _ hanswer
      next => cases hprocess
    next => exact h.processes other process hprocess
  next => exact h

theorem Abiding.follow (sound : ∀ place call s, I s → calls place call → I (serve call s).1 ∧ answers call (serve call s).2)
    (schedule : List Nat) {pool : Pool Call Answer σ} (h : pool.Abiding I calls answers) :
    (pool.follow serve schedule).Abiding I calls answers :=
  follow_preserves serve (fun _ place h => h.resume sound place) schedule h

end Invariant

/-- A place that is not in the schedule is where it was. -/
theorem follow_of_not_mem {place : Nat} (schedule : List Nat) (h : place ∉ schedule) (pool : Pool Call Answer σ) :
    (pool.follow serve schedule).processes[place]? = pool.processes[place]? := by
  induction schedule generalizing pool with
  | nil => rfl
  | cons other schedule ih =>
    have hne : other ≠ place := fun heq => h (List.mem_cons.mpr (Or.inl heq.symm))
    have hrest : place ∉ schedule := fun hmem => h (List.mem_cons_of_mem other hmem)
    rw [follow_cons, ih hrest]
    unfold resume
    split
    next => exact List.getElem?_set_ne hne
    next => rfl

/-- The same processes over a part of the state. -/
def project {τ : Type} (part : σ → τ) (pool : Pool Call Answer σ) : Pool Call Answer τ := ⟨part pool.state, pool.processes⟩

/-- A part of the state that is served by itself goes on by itself. -/
theorem follow_project {τ : Type} {part : σ → τ} {serve' : (call : Call) → τ → τ × Answer call}
    (commutes : ∀ call s, serve' call (part s) = (part (serve call s).1, (serve call s).2)) (schedule : List Nat)
    (pool : Pool Call Answer σ) : (pool.follow serve schedule).project part = (pool.project part).follow serve' schedule := by
  induction schedule generalizing pool with
  | nil => rfl
  | cons place schedule ih =>
    rw [follow_cons, follow_cons, ih]
    refine congrArg (fun pool => Pool.follow serve' schedule pool) ?_
    cases hprocess : pool.processes[place]? with
    | none =>
      have hproject : (pool.project part).processes[place]? = none := hprocess
      rw [resume_done serve (fun call next hwait => by cases hprocess.symm.trans hwait),
        resume_done serve' (fun call next hwait => by cases hproject.symm.trans hwait)]
    | some process =>
      have hproject : (pool.project part).processes[place]? = some process := hprocess
      cases process with
      | done result =>
        rw [resume_done serve (fun call next hwait => by cases hprocess.symm.trans hwait),
          resume_done serve' (fun call next hwait => by cases hproject.symm.trans hwait)]
      | wait call next =>
        rw [resume_wait serve hprocess, resume_wait serve' hproject]
        show Pool.mk _ _ = Pool.mk (serve' call (part pool.state)).1 _
        rw [commutes]
        show Pool.mk _ _ = Pool.mk _ (pool.processes.set place (next (serve' call (part pool.state)).2))
        rw [commutes]

end Pool
