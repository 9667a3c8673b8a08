import Mathlib

universe u

/-- A stateful computation that may throw. What it has done to the state by then stays done. -/
def Command (σ ε α : Type) : Type := σ → σ × Except ε α

namespace Command

variable {σ ε α β : Type}

instance : Monad (Command σ ε) where
  pure a := fun s => (s, .ok a)
  bind m f := fun s =>
    match m s with
    | (s, .error e) => (s, .error e)
    | (s, .ok a) => f a s

theorem bind_error {m : Command σ ε α} {s s' : σ} {e : ε} (f : α → Command σ ε β) (h : m s = (s', .error e)) :
    (m >>= f) s = (s', .error e) := by
  show (match m s with | (s, .error e) => (s, (.error e : Except ε β)) | (s, .ok a) => f a s) = _
  rw [h]

theorem bind_ok {m : Command σ ε α} {s s' : σ} {a : α} (f : α → Command σ ε β) (h : m s = (s', .ok a)) :
    (m >>= f) s = f a s' := by
  show (match m s with | (s, .error e) => (s, (.error e : Except ε β)) | (s, .ok a) => f a s) = _
  rw [h]

def get : Command σ ε σ := fun s => (s, .ok s)

def modify (f : σ → σ) : Command σ ε Unit := fun s => (f s, .ok ())

def fail (e : ε) : Command σ ε α := fun s => (s, .error e)

def lift (x : Except ε α) : Command σ ε α := fun s => (s, x)

/-- `try … catch`: the handler runs on the state the throw has left. -/
def rescue (m : Command σ ε α) (handler : ε → Command σ ε α) : Command σ ε α := fun s =>
  match m s with
  | (s, .error e) => handler e s
  | (s, .ok a) => (s, .ok a)

@[simp] theorem pure_run (a : α) (s : σ) : (Pure.pure a : Command σ ε α) s = (s, .ok a) := rfl

@[simp] theorem fail_run (e : ε) (s : σ) : (fail e : Command σ ε α) s = (s, .error e) := rfl

@[simp] theorem modify_run (f : σ → σ) (s : σ) : (modify f : Command σ ε Unit) s = (f s, .ok ()) := rfl

@[simp] theorem lift_run (x : Except ε α) (s : σ) : lift x s = (s, x) := rfl

@[simp] theorem get_bind (f : σ → Command σ ε β) (s : σ) : (get >>= f) s = f s s := rfl

@[simp] theorem modify_bind (g : σ → σ) (f : Unit → Command σ ε β) (s : σ) : (modify g >>= f) s = f () (g s) := rfl

@[simp] theorem lift_ok_bind (a : α) (f : α → Command σ ε β) (s : σ) : (lift (.ok a) >>= f) s = f a s := rfl

@[simp] theorem lift_error_bind (e : ε) (f : α → Command σ ε β) (s : σ) :
    (lift (.error e : Except ε α) >>= f) s = (s, .error e) := rfl

@[simp] theorem pure_bind (a : α) (f : α → Command σ ε β) (s : σ) : ((Pure.pure a : Command σ ε α) >>= f) s = f a s :=
  rfl

@[simp] theorem fail_bind (e : ε) (f : α → Command σ ε β) (s : σ) :
    ((fail e : Command σ ε α) >>= f) s = (s, .error e) := rfl

@[simp] theorem bind_assoc {γ : Type} (m : Command σ ε α) (f : α → Command σ ε β) (g : β → Command σ ε γ) (s : σ) :
    ((m >>= f) >>= g) s = (m >>= fun a => f a >>= g) s := by
  cases hm : m s with
  | mk s' r =>
    cases r with
    | error e => rw [bind_error _ hm, bind_error g (bind_error f hm)]
    | ok a =>
      rw [bind_ok _ hm]
      cases hf : f a s' with
      | mk s'' r' =>
        cases r' with
        | error e => rw [bind_error g ((bind_ok f hm).trans hf), bind_error g hf]
        | ok b => rw [bind_ok g ((bind_ok f hm).trans hf), bind_ok g hf]

/-- From a state with `P` the command ends, with or without a throw, as `Q` says. -/
def Ensures (P : σ → Prop) (m : Command σ ε α) (Q : Except ε α → σ → Prop) : Prop :=
  ∀ s, P s → Q (m s).2 (m s).1

namespace Ensures

variable {P : σ → Prop} {Q : Except ε α → σ → Prop} {R : Except ε β → σ → Prop} {m : Command σ ε α}

theorem bind {f : α → Command σ ε β} (h : Ensures P m Q) (thrown : ∀ e s, Q (.error e) s → R (.error e) s)
    (next : ∀ a, Ensures (Q (.ok a)) (f a) R) : Ensures P (m >>= f) R := by
  intro s hs
  have hm := h s hs
  cases hrun : m s with
  | mk s' r =>
    rw [hrun] at hm
    cases r with
    | error e =>
      rw [bind_error f hrun]
      exact thrown e s' hm
    | ok a =>
      rw [bind_ok f hrun]
      exact next a s' hm

end Ensures

/-- An assertion every outcome of the command leaves in force. -/
def Keeps (I : σ → Prop) (m : Command σ ε α) : Prop := Ensures I m (fun _ => I)

namespace Keeps

variable {I : σ → Prop} {m : Command σ ε α}

theorem pure (a : α) : Keeps I (Pure.pure a : Command σ ε α) := fun _ hs => hs

theorem get : Keeps I (Command.get : Command σ ε σ) := fun _ hs => hs

theorem modify {f : σ → σ} (h : ∀ s, I s → I (f s)) : Keeps I (Command.modify f : Command σ ε Unit) := h

theorem fail (e : ε) : Keeps I (Command.fail e : Command σ ε α) := fun _ hs => hs

theorem lift (x : Except ε α) : Keeps I (Command.lift x) := fun _ hs => hs

theorem bind {f : α → Command σ ε β} (h : Keeps I m) (next : ∀ a, Keeps I (f a)) : Keeps I (m >>= f) :=
  Ensures.bind h (fun _ _ hs => hs) next

end Keeps

end Command
