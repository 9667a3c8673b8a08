import Veil.CallRun
import Veil.Library.KeySetup

namespace Veil

namespace CallApp

section

variable {K : Type}

/-- The calls in which methods are waiting that go on to keys. -/
def settingUp (suspended : List (Nat × Suspended K)) : List Nat :=
  suspended.filterMap (fun (number, task) => if task.setsUp then some number else none)

/-- What decides when keys are derived. -/
def setup (app : CallApp K) : KeySetup String where
  begun := app.begun
  secret := app.mediaSecret.isSome
  keyed := app.keys.isSome
  described := app.localFingerprint
  reported := app.reported
  pending := settingUp app.suspended
  derived := app.installing.map (fun install => (install.call, install.localFingerprint))

/-- Nothing is on its way to keys in this call, or nothing can come of it. -/
def FreeForSetup (app : CallApp K) : Prop :=
  app.mediaSecret.isSome → app.keys = none ∧ ∀ entry ∈ app.suspended, entry.2.setsUp = true → entry.1 ≠ app.begun

/-- A call is placed after the last one's keys are gone; `answerCall`, or an answer to this call, is taken up while none of
them is on its way to keys; what resumes from the engine with a description finds its call the current one; and what
resumes from closing an engine finds it in place, or none. -/
def Orderly (app : CallApp K) : CallMove K → Prop
  | .placeCall _ _ _ _ _ => app.live = false → app.keys = none
  | .handleSignal peerAddress (.answer callId _ _) _ => (app.answered peerAddress callId).isSome → app.FreeForSetup
  | .answerCall _ => app.answerable.isSome → app.FreeForSetup
  | .resume index settlement _ _ => settlement ≠ .rejected → ∀ entry ∈ app.suspended[index]?,
      (entry.2.setsUp = true → entry.1 = app.begun) ∧
        ∀ closed ∈ entry.2.closes, ∀ engine ∈ app.engine, closed = some engine
  | _ => True

instance (app : CallApp K) : Decidable app.FreeForSetup :=
  inferInstanceAs (Decidable (_ → _ = none ∧ ∀ entry ∈ app.suspended, _))

instance (app : CallApp K) : (move : CallMove K) → Decidable (app.Orderly move)
  | .placeCall .. => inferInstanceAs (Decidable (_ → _ = none))
  | .handleSignal _ (.answer ..) _ => inferInstanceAs (Decidable (_ → FreeForSetup _))
  | .answerCall _ => inferInstanceAs (Decidable (_ → FreeForSetup _))
  | .resume index settlement _ _ =>
    inferInstanceAs (Decidable (settlement ≠ .rejected → ∀ entry ∈ app.suspended[index]?, _ ∧ _))
  | .handleSignal _ (.offer ..) _ | .handleSignal _ (.ice ..) _ | .handleSignal _ (.hangup ..) _ | .endCall .. |
    .confirmSas | .localCandidate .. | .connected _ | .disconnected _ | .frame .. => isTrue trivial

end

section

variable {K : Type} {prim : CallPrimitives K} {options : CallManagerOptions} {app : CallApp K}

theorem erased {α : Type} {l : List α} {index : Nat} {a : α} (h : l[index]? = some a) :
    ∃ before after, l = before ++ a :: after ∧ l.eraseIdx index = before ++ after := by
  obtain ⟨hlt, rfl⟩ := List.getElem?_eq_some_iff.mp h
  refine ⟨l.take index, l.drop (index + 1), ?_, List.eraseIdx_eq_take_drop_succ l index⟩
  rw [List.getElem_cons_drop, List.take_append_drop]

theorem settingUp_append (suspended later : List (Nat × Suspended K)) :
    settingUp (suspended ++ later) = settingUp suspended ++ settingUp later := List.filterMap_append

theorem settingUp_cons {number : Nat} {task : Suspended K} (suspended : List (Nat × Suspended K)) :
    settingUp ((number, task) :: suspended) =
      if task.setsUp then number :: settingUp suspended else settingUp suspended := by
  cases h : task.setsUp <;> simp [settingUp, h]

theorem suspend_setup (number : Nat) (task : Suspended K) : (app.suspend number task).setup =
    if task.setsUp then { app.setup with pending := app.setup.pending ++ [number] } else app.setup := by
  simp only [suspend, setup, settingUp_append, settingUp_cons]
  split
  next => rfl
  next => simp only [settingUp, List.filterMap_nil, List.append_nil]

theorem FreeForSetup.idle (h : app.FreeForSetup) (secret : app.setup.secret = true) :
    app.setup.keyed = false ∧ app.setup.begun ∉ app.setup.pending := by
  obtain ⟨hkeys, hsuspended⟩ := h secret
  refine ⟨by simp [setup, hkeys], ?_⟩
  intro hmem
  obtain ⟨⟨number, task⟩, hin, hsome⟩ := List.mem_filterMap.mp hmem
  simp only at hsome
  split at hsome
  next hsets => exact hsuspended _ hin hsets (Option.some.inj hsome)
  next => cases hsome

/-- `deriveAndInstallKeys` throws, or it derives keys from the call's secret and the engine's fingerprint. -/
theorem deriveAndInstallKeys_setup (number : Nat) (role : CallRole)
    (resolvePeerIdentity : String → Option PublicIdentity) (next : AfterKeys) :
    (app.deriveAndInstallKeys prim options number role resolvePeerIdentity next).setup = app.setup ∨
      ∃ (localFingerprint : String) (installs : Bool), app.setup.secret = true ∧ app.localFingerprint = some localFingerprint ∧
        (app.deriveAndInstallKeys prim options number role resolvePeerIdentity next).setup = { app.setup with
          keyed := true
          derived := if installs then app.setup.derived ++ [(number, localFingerprint)] else app.setup.derived } := by
  unfold deriveAndInstallKeys
  split
  next call secret localFingerprint remoteFingerprint hcurrent hsecret hlocal hremote =>
    split
    next => exact Or.inl rfl
    next peerIdentity hpeer =>
      split
      next => exact Or.inl rfl
      next derived hderived =>
        refine Or.inr ⟨localFingerprint, app.engine.isSome, by simp [setup, hsecret], ?_, ?_⟩
        · exact (Option.filter_eq_some_iff.mp hlocal).1
        · unfold installDerived
          rw [suspend_setup]
          cases hengine : app.engine with
          | none => simp [setup, fill, modifyEngine, keyInstall, hengine, Suspended.setsUp]
          | some engine => simp [setup, fill, modifyEngine, keyInstall, hengine, Suspended.setsUp]
  next => exact Or.inl rfl

theorem erase_setup {index number : Nat} {task : Suspended K} (h : app.suspended[index]? = some (number, task)) :
    (task.setsUp = false →
      ({ app with suspended := app.suspended.eraseIdx index } : CallApp K).setup = app.setup) ∧
    (task.setsUp = true → ∃ before after, app.setup.pending = before ++ number :: after ∧
      ({ app with suspended := app.suspended.eraseIdx index } : CallApp K).setup =
        { app.setup with pending := before ++ after }) := by
  obtain ⟨before, after, hsuspended, herase⟩ := erased h
  have hpending : app.setup.pending = settingUp before ++
      (if task.setsUp then number :: settingUp after else settingUp after) := by
    simp only [setup, hsuspended, settingUp_append, settingUp_cons]
  have herased : ({ app with suspended := app.suspended.eraseIdx index } : CallApp K).setup =
      { app.setup with pending := settingUp before ++ settingUp after } := by
    simp only [setup, herase, settingUp_append]
  refine ⟨?_, ?_⟩
  · intro hsets
    rw [herased]
    simp only [hsets, Bool.false_eq_true, if_false] at hpending
    rw [← hpending]
  · intro hsets
    rw [if_pos hsets] at hpending
    exact ⟨_, _, hpending, herased⟩

/-- What does not go on to keys leaves the setup as it is, describes, or clears. -/
theorem resume_setup (number : Nat) {task : Suspended K} (hsets : task.setsUp = false) (settlement : Settlement)
    (resolvePeerIdentity : String → Option PublicIdentity) (now : Int) :
    Relation.ReflTransGen KeySetup.Step app.setup
      (app.resume prim options number task settlement resolvePeerIdentity now).setup := by
  unfold resume
  split <;> try cases hsets
  next engine peerAddress callId secret sdp dtlsFingerprint =>
    rw [suspend_setup]
    exact .single (.describe app.setup dtlsFingerprint)
  next => exact .refl
  next => rw [suspend_setup]; exact .refl
  next => exact .refl
  next =>
    unfold showSas
    split
    next => exact .refl
    next => rw [suspend_setup]; exact .refl
  next => rw [suspend_setup]; exact .refl
  next => exact .refl
  next => exact .refl
  next => unfold closeCurrentEngine; rw [suspend_setup]; exact .refl
  next => unfold closeCurrentEngine; rw [suspend_setup]; exact .refl
  next => exact .single (.clear app.setup)
  all_goals exact .refl

/-- What goes on to keys, once it is no longer waiting, derives them or throws. -/
theorem derive_setup {w : KeySetup String} {before after : List Nat} (pending : w.pending = before ++ w.begun :: after)
    (eq : app.setup = { w with pending := before ++ after }) (role : CallRole)
    (resolvePeerIdentity : String → Option PublicIdentity) (next : AfterKeys) :
    Relation.ReflTransGen KeySetup.Step w
      (app.deriveAndInstallKeys prim options w.begun role resolvePeerIdentity next).setup := by
  rcases deriveAndInstallKeys_setup w.begun role resolvePeerIdentity
    next with hsame | ⟨localFingerprint, installs, hsecret, hlocal, hderived⟩
  · rw [hsame, eq]
    exact .single (.settle w before after w.begun pending)
  · rw [hderived]
    have hsecret' : w.secret = true := by
      rw [eq] at hsecret
      exact hsecret
    have hdescribed : w.described = some localFingerprint := by
      rw [← hlocal]
      exact (congrArg KeySetup.described eq).symm
    rw [eq]
    exact .single (.derive w before after localFingerprint installs pending hsecret' hdescribed)

theorem endCall_setup (reason : String) (notify : Bool) : (app.endCall prim reason notify).setup = app.setup := by
  unfold endCall
  split
  next => rfl
  next =>
    split
    next => rw [suspend_setup]; rfl
    next => unfold closeCurrentEngine; rw [suspend_setup]; rfl

theorem placeCall_setup (peerAddress : String) (id : Bytes) (supports : Bool) (secret : K) (now : Int) :
    Relation.ReflTransGen KeySetup.Step app.setup
      (app.placeCall prim options peerAddress id supports secret now).setup := by
  unfold placeCall
  split
  next => exact .refl
  next =>
    split
    next => exact .refl
    next =>
      rw [suspend_setup]
      exact .single (.begin app.setup true (fun _ => rfl))

theorem onOffer_setup (peerAddress callId mediaSecret sdp dtlsFingerprint : String) (now : Int) :
    Relation.ReflTransGen KeySetup.Step app.setup
      (app.onOffer prim peerAddress callId mediaSecret sdp dtlsFingerprint now).setup := by
  unfold onOffer
  split
  next => exact .refl
  next =>
    split
    next => exact .single (.begin app.setup app.mediaSecret.isSome id)
    next => exact .single (.begin app.setup true (fun _ => rfl))

/-- An answer asks for keys of a call that has none. -/
theorem onAnswer_setup {peerAddress callId : String} (dtlsFingerprint : String)
    (orderly : (app.answered peerAddress callId).isSome → app.FreeForSetup) :
    Relation.ReflTransGen KeySetup.Step app.setup (app.onAnswer peerAddress callId dtlsFingerprint).setup := by
  unfold onAnswer
  split
  next => exact .refl
  next call hcall =>
    rw [suspend_setup]
    have hfree : app.FreeForSetup := orderly (by rw [hcall]; rfl)
    exact .single (.request app.setup hfree.idle)

/-- So does answering. -/
theorem answerCall_setup (supports : Bool) (orderly : app.answerable.isSome → app.FreeForSetup) :
    Relation.ReflTransGen KeySetup.Step app.setup (app.answerCall prim options supports).setup := by
  unfold answerCall
  split
  next => exact .refl
  next call hcall =>
    split
    next => rw [suspend_setup]; exact .refl
    next =>
      rw [suspend_setup]
      have hfree : app.FreeForSetup := orderly (by rw [hcall]; rfl)
      exact .single (.request app.setup hfree.idle)

/-- What goes on to keys is settled by its resumption: keys, or none if it throws. -/
theorem resume_setup_settles {index number : Nat} {task : Suspended K} (htask : app.suspended[index]? = some (number, task))
    (hsets : task.setsUp = true) (settlement : Settlement) (begun : settlement ≠ .rejected → number = app.setup.begun)
    (resolvePeerIdentity : String → Option PublicIdentity) (now : Int) :
    Relation.ReflTransGen KeySetup.Step app.setup
      (({ app with suspended := app.suspended.eraseIdx index } : CallApp K).resume prim options number task settlement
        resolvePeerIdentity now).setup := by
  obtain ⟨before, after, hpending, heq⟩ := (erase_setup htask).2 hsets
  have hsettled : Relation.ReflTransGen KeySetup.Step app.setup
      ({ app with suspended := app.suspended.eraseIdx index } : CallApp K).setup := by
    rw [heq]
    exact .single (.settle app.setup before after number hpending)
  unfold resume
  split <;> try cases hsets
  next engine call sdp dtlsFingerprint =>
    obtain rfl := begun nofun
    have hdescribe := KeySetup.Step.describe app.setup dtlsFingerprint
    refine .head hdescribe (derive_setup (w := { app.setup with
      described := some dtlsFingerprint, reported := app.reported ++ [dtlsFingerprint] }) hpending ?_ _ _ _)
    exact congrArg (fun w : KeySetup String =>
      { w with described := some dtlsFingerprint, reported := app.reported ++ [dtlsFingerprint] }) heq
  next =>
    obtain rfl := begun nofun
    exact derive_setup hpending heq _ _ _
  all_goals exact hsettled

/-- Every orderly move is one that the abstract setup can make. -/
theorem perform_setup {move : CallMove K} (orderly : app.Orderly move) :
    Relation.ReflTransGen KeySetup.Step app.setup (app.perform prim options move).setup := by
  cases move with
  | placeCall peerAddress id supports secret now => exact placeCall_setup peerAddress id supports secret now
  | handleSignal peerAddress signal now =>
    cases signal with
    | offer callId mediaSecret sdp dtlsFingerprint =>
      exact onOffer_setup peerAddress callId mediaSecret sdp dtlsFingerprint now
    | answer callId sdp dtlsFingerprint => exact onAnswer_setup dtlsFingerprint orderly
    | ice callId candidate =>
      simp only [perform, handleSignal]
      split <;> exact .refl
    | hangup callId reason =>
      simp only [perform, handleSignal]
      split
      next => rw [endCall_setup]
      next => exact .refl
  | answerCall supports => exact answerCall_setup supports orderly
  | endCall reason notify =>
    simp only [perform, endCall_setup]
    exact .refl
  | confirmSas =>
    simp only [perform, confirmSas]
    split <;> exact .refl
  | localCandidate engine candidate =>
    simp only [perform, onLocalCandidate]
    split <;> exact .refl
  | connected engine =>
    simp only [perform, onConnected]
    split <;> exact .refl
  | disconnected engine =>
    simp only [perform, onDisconnected]
    split
    next => rw [endCall_setup]
    next => exact .refl
  | frame engine data =>
    simp only [perform, transformFrame]
    split <;> exact .refl
  | resume index settlement resolvePeerIdentity now =>
    simp only [perform]
    split
    next => exact .refl
    next number task htask =>
      cases hsets : task.setsUp with
      | false =>
        have hresume := (@resume_setup _ prim options { app with suspended := app.suspended.eraseIdx index }) number hsets
          settlement resolvePeerIdentity now
        rwa [(erase_setup htask).1 hsets] at hresume
      | true =>
        exact resume_setup_settles htask hsets settlement
          (fun hsettlement => (orderly hsettlement (number, task) htask).1 hsets) resolvePeerIdentity now

end

end CallApp

end Veil
