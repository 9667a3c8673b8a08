import Veil.FrameNonces

namespace Veil

/-- What keys are installed for: a call and its peer, an engine, both fingerprints, and what that engine reported. -/
structure CallCore where
  call : Option (String × String)
  engine : Option Nat
  localFingerprint : Option String
  remoteFingerprint : Option String
  reported : Option String
  deriving DecidableEq

def KeyInstall.core {K : Type} (install : KeyInstall K) : CallCore where
  call := some (install.callId, install.peerAddress)
  engine := some install.engine
  localFingerprint := some install.localFingerprint
  remoteFingerprint := some install.remoteFingerprint
  reported := some install.localFingerprint

namespace CallApp

section

variable {K : Type}

/-- The fingerprint an engine has reported last. -/
def certificate (app : CallApp K) (engine : Nat) : Option String :=
  app.engines[engine]?.bind (fun media => media.dtlsFingerprint)

def core (app : CallApp K) : CallCore where
  call := app.current.map (fun call => (call.callId, call.peerAddress))
  engine := app.engine
  localFingerprint := app.localFingerprint
  remoteFingerprint := app.remoteFingerprint
  reported := app.engine.bind app.certificate

/-- A method that resumes with what it waited for finds the call as it left it: an offer's description before there are
keys, an answer's with its engine in place, an accepted answer with the fingerprint of the engine in place, and installed
keys in their own call. -/
def Timely (app : CallApp K) (number : Nat) : Suspended K → Prop
  | .creatingOffer _ _ _ _ => app.keys = none
  | .creatingAnswer engine _ => app.mediaSecret.isSome → app.engine = some engine
  | .acceptingAnswer => app.mediaSecret.isSome → app.engine.isSome → app.core.reported = app.localFingerprint
  | .installingKeys _ _ _ _ => number = app.begun
  | _ => True

instance (app : CallApp K) (number : Nat) : (task : Suspended K) → Decidable (app.Timely number task)
  | .creatingOffer .. => inferInstanceAs (Decidable (_ = none))
  | .creatingAnswer .. => inferInstanceAs (Decidable (_ → _ = some _))
  | .acceptingAnswer => inferInstanceAs (Decidable (_ → _ → app.core.reported = app.localFingerprint))
  | .installingKeys .. => inferInstanceAs (Decidable (_ = _))
  | .sendingOffer | .refusingAnswer _ | .sendingRefusal | .keysInstalled _ | .sendingAnswer | .notifyingEnd _ |
    .closingEngine .. => isTrue trivial

/-- The engine in place connects only after the authentication string of the call was shown, and what resumes is
timely. -/
def Protected (app : CallApp K) : CallMove K → Prop
  | .connected engine => (app.handled engine).isSome →
      app.engine = some engine ∧ app.keys.isSome ∧ ∀ call ∈ app.current, call.sas.isSome
  | .resume index settlement _ _ =>
    settlement ≠ .rejected → ∀ entry ∈ app.suspended[index]?, app.Timely entry.1 entry.2
  | _ => True

instance (app : CallApp K) : (move : CallMove K) → Decidable (app.Protected move)
  | .connected _ => inferInstanceAs (Decidable (_ → _ ∧ _ ∧ ∀ call ∈ app.current, _))
  | .resume index settlement _ _ =>
    inferInstanceAs (Decidable (settlement ≠ .rejected → ∀ entry ∈ app.suspended[index]?, app.Timely entry.1 entry.2))
  | .placeCall .. | .handleSignal .. | .answerCall _ | .endCall .. | .confirmSas | .localCandidate .. | .disconnected _ |
    .frame .. => isTrue trivial

/-- The identities the manager gets are the peers'. -/
def Resolves (named : String → PublicIdentity → Prop) : CallMove K → Prop
  | .resume _ _ resolvePeerIdentity _ =>
    ∀ address identity, resolvePeerIdentity address = some identity → named address identity
  | _ => True

end

section

variable {K : Type} (prim : CallPrimitives K) (options : CallManagerOptions) (named : String → PublicIdentity → Prop)

/-- The keys were derived for what the app has now, with an identity that is the peer's. -/
def Serves (install : KeyInstall K) (app : CallApp K) : Prop :=
  install.core = app.core ∧ install.Derived prim options ∧ named install.peerAddress install.peerIdentity

/-- In a call that still has its secret: an installation that is waited for serves it, so does a completed one once the
authentication string is shown, and a connected call has shown it. -/
structure Guarded (app : CallApp K) : Prop where
  waiting : ∀ number call install accepted after, (number, .installingKeys call install accepted after) ∈ app.suspended →
    number ≤ app.begun ∧ call.state ≠ .connected ∧ (number = app.begun → app.mediaSecret.isSome →
      app.keys.isSome ∧ app.core.call = some (call.callId, call.peerAddress) ∧
        (app.engine.isSome → ∃ i, install = some i ∧ Serves prim options named i app))
  shown : ∀ call, app.current = some call → call.sas.isSome → app.mediaSecret.isSome →
    app.keys.isSome ∧ (app.engine.isSome → ∃ i ∈ app.installed, Serves prim options named i app)
  connected : ∀ call, app.current = some call → call.state = .connected →
    call.sas.isSome ∧ app.keys.isSome ∧ app.engine.isSome

end

/-- Where there are keys, what they are for stays; nothing new is installed, shown or connected. -/
structure Keeps {K : Type} (app next : CallApp K) : Prop where
  begun : next.begun = app.begun
  secret : next.mediaSecret = app.mediaSecret
  keys : next.keys = app.keys
  core : app.keys.isSome → next.core = app.core
  suspended : ∀ number call install accepted after, (number, .installingKeys call install accepted after) ∈ next.suspended →
    (number, .installingKeys call install accepted after) ∈ app.suspended
  installed : app.installed ⊆ next.installed
  current : ∀ call, next.current = some call →
    ∃ call', app.current = some call' ∧ call.sas = call'.sas ∧ (call.state = .connected → call'.state = .connected)

section

variable {K : Type} {prim : CallPrimitives K} {options : CallManagerOptions} {named : String → PublicIdentity → Prop}
  {app next last : CallApp K}

theorem core_engine (engine : next.core = app.core) : next.engine = app.engine := congrArg CallCore.engine engine

theorem Serves.of_core {install : KeyInstall K} (h : Serves prim options named install app) (core : next.core = app.core) :
    Serves prim options named install next := ⟨h.1.trans core.symm, h.2⟩

theorem Keeps.guarded (h : Keeps app next) (guarded : Guarded prim options named app) :
    Guarded prim options named next where
  waiting number call install accepted after hmem := by
    obtain ⟨hle, hstate, hown⟩ := guarded.waiting number call install accepted after (h.suspended _ _ _ _ _ hmem)
    rw [h.begun, h.secret, h.keys]
    refine ⟨hle, hstate, fun hnumber hsecret => ?_⟩
    obtain ⟨hkeys, hcall, hinstall⟩ := hown hnumber hsecret
    have hcore := h.core hkeys
    rw [core_engine hcore, hcore]
    refine ⟨hkeys, hcall, fun hengine => ?_⟩
    obtain ⟨i, hi, hserves⟩ := hinstall hengine
    exact ⟨i, hi, hserves.of_core hcore⟩
  shown call hcurrent hsas hsecret := by
    obtain ⟨call', hcurrent', hsas', _⟩ := h.current call hcurrent
    rw [hsas'] at hsas
    rw [h.secret] at hsecret
    obtain ⟨hkeys, hinstall⟩ := guarded.shown call' hcurrent' hsas hsecret
    have hcore := h.core hkeys
    rw [h.keys, core_engine hcore]
    refine ⟨hkeys, fun hengine => ?_⟩
    obtain ⟨i, hi, hserves⟩ := hinstall hengine
    exact ⟨i, h.installed hi, hserves.of_core hcore⟩
  connected call hcurrent hstate := by
    obtain ⟨call', hcurrent', hsas', hstate'⟩ := h.current call hcurrent
    obtain ⟨hsas, hkeys, hengine⟩ := guarded.connected call' hcurrent' (hstate' hstate)
    rw [hsas', h.keys, core_engine (h.core hkeys)]
    exact ⟨hsas, hkeys, hengine⟩

theorem Keeps.trans (h : Keeps app next) (h' : Keeps next last) : Keeps app last where
  begun := h'.begun.trans h.begun
  secret := h'.secret.trans h.secret
  keys := h'.keys.trans h.keys
  core hkeys := (h'.core (h.keys.symm ▸ hkeys)).trans (h.core hkeys)
  suspended _ _ _ _ _ hmem := h.suspended _ _ _ _ _ (h'.suspended _ _ _ _ _ hmem)
  installed := fun _ hmem => h'.installed (h.installed hmem)
  current call hcurrent := by
    obtain ⟨call', hcurrent', hsas', hstate'⟩ := h'.current call hcurrent
    obtain ⟨call'', hcurrent'', hsas'', hstate''⟩ := h.current call' hcurrent'
    exact ⟨call'', hcurrent'', hsas'.trans hsas'', fun hstate => hstate'' (hstate' hstate)⟩

/-- What leaves the engines, the call and the manager's fields alone. -/
theorem Keeps.aside (begun : next.begun = app.begun) (secret : next.mediaSecret = app.mediaSecret)
    (keys : next.keys = app.keys) (core : app.keys.isSome → next.core = app.core)
    (suspended : ∀ number call install accepted after,
      (number, .installingKeys call install accepted after) ∈ next.suspended →
        (number, .installingKeys call install accepted after) ∈ app.suspended)
    (installed : app.installed ⊆ next.installed) (current : next.current = app.current) : Keeps app next :=
  ⟨begun, secret, keys, core, suspended, installed, fun call hcurrent => ⟨call, current ▸ hcurrent, rfl, id⟩⟩

theorem Keeps.refl (app : CallApp K) : Keeps app app :=
  .aside rfl rfl rfl (fun _ => rfl) (fun _ _ _ _ _ h => h) (List.Subset.refl _) rfl

theorem emit_keeps (event : CallEvent) : Keeps app (app.emit event) :=
  .aside rfl rfl rfl (fun _ => rfl) (fun _ _ _ _ _ h => h) (List.Subset.refl _) rfl

theorem suspend_keeps (number : Nat) {task : Suspended K}
    (installs : ∀ call install accepted after, task ≠ .installingKeys call install accepted after) :
    Keeps app (app.suspend number task) := by
  refine .aside rfl rfl rfl (fun _ => rfl) ?_ (List.Subset.refl _) rfl
  intro n call install accepted after hmem
  rcases List.mem_append.mp hmem with hmem | hmem
  · exact hmem
  · exact absurd (Prod.mk.inj (List.mem_singleton.mp hmem)).2.symm (installs _ _ _ _)

theorem setState_keeps {state : CallState} {extra : CallInfo → CallInfo} (unconnected : state ≠ .connected)
    (same : ∀ call, (extra call).sas = call.sas ∧ (extra call).callId = call.callId ∧
      (extra call).peerAddress = call.peerAddress) : Keeps app (app.setState state extra) := by
  refine ⟨rfl, rfl, rfl, fun _ => ?_, fun _ _ _ _ _ h => h, List.Subset.refl _, ?_⟩
  · unfold setState core
    cases app.current with
    | none => rfl
    | some call =>
      obtain ⟨_, hid, haddress⟩ := same call
      simp only [Option.map_some, hid, haddress]
      rfl
  · intro call hcurrent
    obtain ⟨call', hcurrent', rfl⟩ := Option.map_eq_some_iff.mp hcurrent
    exact ⟨call', hcurrent', (same call').1, fun hstate => absurd hstate unconnected⟩

/-- What changes the engines, but not what the engine in place has reported. -/
theorem engines_keeps {engines : List MediaEngine}
    (certificate : ∀ e, app.engine = some e → ({ app with engines } : CallApp K).certificate e = app.certificate e) :
    Keeps app { app with engines } := by
  refine .aside rfl rfl rfl (fun _ => ?_) (fun _ _ _ _ _ h => h) (List.Subset.refl _) rfl
  exact congrArg (CallCore.mk _ _ _ _) (Option.bind_congr certificate)

theorem modifyEngine_certificate {f : MediaEngine → MediaEngine} (engine : Option Nat)
    (same : ∀ media, (f media).dtlsFingerprint = media.dtlsFingerprint) (e : Nat) :
    (app.modifyEngine engine f).certificate e = app.certificate e := by
  rw [certificate, modifyEngine_get]
  split
  next =>
    rw [certificate]
    cases app.engines[e]? with
    | none => rfl
    | some media => exact same media
  next => rfl

theorem modifyEngine_keeps {f : MediaEngine → MediaEngine} (engine : Option Nat)
    (same : ∀ media, (f media).dtlsFingerprint = media.dtlsFingerprint) : Keeps app (app.modifyEngine engine f) :=
  engines_keeps (fun e _ => modifyEngine_certificate engine same e)

theorem closeMediaEngine_keeps (engine : Option Nat) : Keeps app (app.closeMediaEngine prim engine) := by
  unfold closeMediaEngine
  refine .trans ?_ (modifyEngine_keeps engine (fun _ => rfl))
  exact .aside rfl rfl rfl (fun _ => rfl) (fun _ _ _ _ _ h => h) (List.Subset.refl _) rfl

theorem createMediaEngine_keeps (inPlace : ∀ e, app.engine = some e → e < app.engines.length) (media : MediaEngine) :
    Keeps app (app.createMediaEngine media) := by
  refine engines_keeps (fun e hengine => ?_)
  rw [certificate, certificate]
  exact congrArg (fun m => Option.bind m _) (List.getElem?_append_left (inPlace e hengine))

theorem closeCurrentEngine_keeps (number : Nat) (reason : String) :
    Keeps app (app.closeCurrentEngine prim number reason) := by
  unfold closeCurrentEngine
  exact (closeMediaEngine_keeps app.engine).trans (suspend_keeps number (fun _ _ _ _ => nofun))

theorem endCall_keeps (reason : String) (notify : Bool) : Keeps app (app.endCall prim reason notify) := by
  unfold endCall
  split
  next => exact .refl app
  next =>
    split
    next => exact (emit_keeps _).trans (suspend_keeps _ (fun _ _ _ _ => nofun))
    next => exact closeCurrentEngine_keeps _ reason

/-- A call begins with nothing shown. -/
theorem Guarded.begin (h : Guarded prim options named app) {call : CallInfo} (begun : next.begun = app.begun + 1)
    (current : next.current = some call) (state : call.state ≠ .connected) (sas : call.sas = none)
    (suspended : ∀ number call install accepted after,
      (number, .installingKeys call install accepted after) ∈ next.suspended →
        (number, .installingKeys call install accepted after) ∈ app.suspended) : Guarded prim options named next where
  waiting number call' install accepted after hmem := by
    obtain ⟨hle, hstate, _⟩ := h.waiting number call' install accepted after (suspended _ _ _ _ _ hmem)
    rw [begun]
    exact ⟨Nat.le_succ_of_le hle, hstate, fun heq => absurd hle (by omega)⟩
  shown call' hcurrent hsas := by
    obtain rfl := Option.some.inj (current.symm.trans hcurrent)
    rw [sas] at hsas
    cases hsas
  connected call' hcurrent hstate := by
    obtain rfl := Option.some.inj (current.symm.trans hcurrent)
    exact absurd hstate state

theorem clearCall_guarded (h : Guarded prim options named app) (reason : String) (now : Int) :
    Guarded prim options named (app.clearCall prim reason now) where
  waiting number call install accepted after hmem := by
    obtain ⟨hle, hstate, _⟩ := h.waiting number call install accepted after hmem
    exact ⟨hle, hstate, nofun⟩
  shown _ _ _ hsecret := by cases hsecret
  connected call hcurrent hstate := by
    obtain ⟨call', _, rfl⟩ := Option.map_eq_some_iff.mp hcurrent
    cases hstate

/-- The engine in place connects once the authentication string was shown. -/
theorem onConnected_guarded (h : Guarded prim options named app) {engine : Nat}
    (ready : (app.handled engine).isSome →
      app.engine = some engine ∧ app.keys.isSome ∧ ∀ call ∈ app.current, call.sas.isSome) :
    Guarded prim options named (app.onConnected engine) := by
  unfold onConnected
  split
  next hhandled =>
    obtain ⟨hengine, hkeys, hsas⟩ := ready hhandled
    have hcore : (app.setState .connected id).core = app.core := by
      unfold setState core
      cases app.current <;> rfl
    refine ⟨fun number call install accepted after hmem => ?_, fun call hcurrent hshown hsecret => ?_,
      fun call hcurrent _ => ?_⟩
    · obtain ⟨hle, hstate, hown⟩ := h.waiting number call install accepted after hmem
      refine ⟨hle, hstate, fun hnumber hsecret => ?_⟩
      obtain ⟨hkeys, hcall, hinstall⟩ := hown hnumber hsecret
      refine ⟨hkeys, by rw [hcore, hcall], fun hengine => ?_⟩
      obtain ⟨i, hi, hserves⟩ := hinstall hengine
      exact ⟨i, hi, hserves.of_core hcore⟩
    · obtain ⟨call', hcurrent', rfl⟩ := Option.map_eq_some_iff.mp hcurrent
      obtain ⟨hkeys, hinstall⟩ := h.shown call' hcurrent' hshown hsecret
      refine ⟨hkeys, fun hengine => ?_⟩
      obtain ⟨i, hi, hserves⟩ := hinstall hengine
      exact ⟨i, hi, hserves.of_core hcore⟩
    · obtain ⟨call', hcurrent', rfl⟩ := Option.map_eq_some_iff.mp hcurrent
      exact ⟨hsas call' hcurrent', hkeys, by
        rw [show (app.setState .connected id).engine = app.engine from rfl, hengine]
        rfl⟩
  next => exact h

section

variable {call : CallInfo} {role : CallRole} {peerIdentity : PublicIdentity} {localFingerprint remoteFingerprint : String}
  {mediaRootSecret : K} {derived : CallKeyMaterial K} {after : AfterKeys}

theorem installDerived_core : (app.installDerived prim app.begun call role peerIdentity localFingerprint remoteFingerprint
    mediaRootSecret derived after).core = app.core := by
  have hcertificate : ∀ e, (app.installDerived prim app.begun call role peerIdentity localFingerprint remoteFingerprint
      mediaRootSecret derived after).certificate e = app.certificate e := by
    refine (@modifyEngine_certificate _ ((({ app with
      keys := some { derived with sendKey := .sendKey app.allocated, receiveKey := .receiveKey app.allocated }
      allocated := app.allocated + 1 } : CallApp K).fill (.sendKey app.allocated) derived.sendKey).fill
        (.receiveKey app.allocated) derived.receiveKey)) app.engine (fun media => ?_)
    unfold MediaEngine.installFrameKeys
    split
    next => rfl
    next =>
      split
      next => rfl
      next => split <;> rfl
  exact congrArg (CallCore.mk _ _ _ _) (Option.bind_congr (fun e _ => hcertificate e))

/-- What is installed serves the app it is installed in. -/
theorem keyInstall_serves (hcurrent : app.current = some call) (hlocal : app.localFingerprint = some localFingerprint)
    (hremote : app.remoteFingerprint = some remoteFingerprint)
    (hreported : app.engine.isSome → app.core.reported = some localFingerprint)
    (hname : named call.peerAddress peerIdentity)
    (hderived : deriveCallKeys prim mediaRootSecret
      (callParams role options.selfIdentity peerIdentity call.callId localFingerprint remoteFingerprint) = .ok derived)
    (hengine : app.engine.isSome) : ∃ i, app.keyInstall app.begun call role peerIdentity localFingerprint remoteFingerprint
      mediaRootSecret derived = some i ∧ Serves prim options named i app := by
  obtain ⟨e, he⟩ := Option.isSome_iff_exists.mp hengine
  have hreported := hreported hengine
  unfold keyInstall
  rw [he, Option.map_some]
  refine ⟨_, rfl, ?_, hderived, hname⟩
  change app.engine.bind app.certificate = _ at hreported
  rw [he] at hreported
  simp only [KeyInstall.core, core, hcurrent, hlocal, hremote, he, Option.map_some]
  exact congrArg (CallCore.mk _ _ _ _) hreported.symm

/-- Keys derived where there were none are for what the app has. -/
theorem installDerived_guarded (h : Guarded prim options named app) (unkeyed : app.keys = none)
    (secret : app.mediaSecret.isSome) (hcurrent : app.current = some call)
    (serves : app.engine.isSome → ∃ i, app.keyInstall app.begun call role peerIdentity localFingerprint remoteFingerprint
      mediaRootSecret derived = some i ∧ Serves prim options named i app) :
    Guarded prim options named (app.installDerived prim app.begun call role peerIdentity localFingerprint remoteFingerprint
      mediaRootSecret derived after) := by
  have hcore := @installDerived_core _ prim app call role peerIdentity localFingerprint remoteFingerprint mediaRootSecret derived after
  have hunkeyed : app.keys.isSome → False := by
    rw [unkeyed]
    nofun
  refine ⟨fun number call' install accepted after' hmem => ?_, fun call' hcurrent' hsas _ => ?_,
    fun call' hcurrent' hstate => ?_⟩
  · rcases List.mem_append.mp hmem with hmem | hmem
    · obtain ⟨hle, hstate, hown⟩ := h.waiting _ _ _ _ _ hmem
      exact ⟨hle, hstate, fun hnumber hsecret => absurd (hown hnumber hsecret).1 hunkeyed⟩
    · obtain ⟨rfl, htask⟩ := Prod.mk.inj (List.mem_singleton.mp hmem)
      obtain ⟨rfl, rfl, _⟩ := Suspended.installingKeys.inj htask
      refine ⟨Nat.le_refl _, fun hstate => hunkeyed (h.connected call' hcurrent hstate).2.1, fun _ _ => ⟨rfl, ?_, ?_⟩⟩
      · rw [hcore]
        simp only [core, hcurrent, Option.map_some]
      · intro hengine
        obtain ⟨i, hi, hserves⟩ := serves hengine
        exact ⟨i, hi, hserves.of_core hcore⟩
  · exact absurd (h.shown call' hcurrent' hsas secret).1 hunkeyed
  · exact absurd (h.connected call' hcurrent' hstate).2.1 hunkeyed

end

theorem deriveAndInstallKeys_guarded (h : Guarded prim options named app) (unkeyed : app.keys = none) (role : CallRole)
    {resolvePeerIdentity : String → Option PublicIdentity}
    (resolves : ∀ address identity, resolvePeerIdentity address = some identity → named address identity)
    (after : AfterKeys)
    (reported : app.mediaSecret.isSome → app.engine.isSome → app.core.reported = app.localFingerprint) :
    Guarded prim options named
      (app.deriveAndInstallKeys prim options app.begun role resolvePeerIdentity after) := by
  unfold deriveAndInstallKeys
  split
  next call secret localFingerprint remoteFingerprint hcurrent hsecret hlocal hremote =>
    have hsome : app.mediaSecret.isSome := by
      rw [hsecret]
      rfl
    have hlocal := (Option.filter_eq_some_iff.mp hlocal).1
    have hremote := (Option.filter_eq_some_iff.mp hremote).1
    split
    next => exact (emit_keeps _).guarded h
    next peerIdentity hpeer =>
      split
      next => exact (emit_keeps _).guarded h
      next derived hderived =>
        refine installDerived_guarded h unkeyed hsome hcurrent ?_
        refine keyInstall_serves hcurrent hlocal hremote ?_ (resolves _ _ hpeer) hderived
        exact fun hengine => (reported hsome hengine).trans hlocal
  next => exact (emit_keeps _).guarded h

/-- The installation completes in the call it was made in. -/
theorem showSas_guarded (h : Guarded prim options named app) (single : app.keys.isSome → app.mediaSecret.isSome)
    {call : CallInfo} {install : Option (KeyInstall K)} (unconnected : call.state ≠ .connected)
    (own : app.mediaSecret.isSome → app.core.call = some (call.callId, call.peerAddress) ∧
      (app.engine.isSome → ∃ i, install = some i ∧ Serves prim options named i app)) (after : AfterKeys) :
    Guarded prim options named
      (({ app with installed := app.installed ++ install.toList } : CallApp K).showSas app.begun call after) := by
  have hinstalled : app.installed ⊆ app.installed ++ install.toList := List.subset_append_left _ _
  have hkept : Keeps app { app with installed := app.installed ++ install.toList } :=
    .aside rfl rfl rfl (fun _ => rfl) (fun _ _ _ _ _ hmem => hmem) hinstalled rfl
  unfold showSas
  split
  next => exact (hkept.trans (emit_keeps _)).guarded h
  next keys hkeys =>
    have hkeyed : app.keys.isSome := by
      rw [show app.keys = some keys from hkeys]
      rfl
    obtain ⟨hcall, hserves⟩ := own (single hkeyed)
    refine Keeps.guarded (suspend_keeps app.begun ?_) ?_
    · exact fun _ _ _ _ => nofun
    have hcore : ({ app with
        current := some { call with sas := some keys.sas, sasDigits := some keys.sasDigits } } : CallApp K).core =
          app.core := by
      exact congrArg (fun call => CallCore.mk call _ _ _ _) hcall.symm
    refine ⟨fun number call' install' accepted' after' hmem' => ?_, fun call' hcurrent hsas _ => ⟨hkeyed, fun hengine => ?_⟩,
      fun call' hcurrent hconnected => ?_⟩
    · obtain ⟨hle, hstate, hown'⟩ := h.waiting _ _ _ _ _ hmem'
      refine ⟨hle, hstate, fun hnumber hsecret => ?_⟩
      obtain ⟨hkeys', hcall', hinstall'⟩ := hown' hnumber hsecret
      refine ⟨hkeys', (congrArg CallCore.call hcore).trans hcall', fun hengine => ?_⟩
      obtain ⟨i, hi, hserves'⟩ := hinstall' hengine
      exact ⟨i, hi, hserves'.of_core hcore⟩
    · obtain ⟨i, rfl, hi⟩ := hserves hengine
      exact ⟨i, List.mem_append_right _ (List.mem_singleton_self i), hi.of_core hcore⟩
    · obtain rfl := Option.some.inj hcurrent
      exact absurd hconnected unconnected

/-- What goes on to keys in the current call finds none. -/
theorem setsUp_unkeyed (single : app.setup.Single) {task : Suspended K} (hmem : (app.begun, task) ∈ app.suspended)
    (hsets : task.setsUp = true) : app.keys = none := by
  have hpending : app.setup.begun ∈ app.setup.pending := List.mem_filterMap.mpr ⟨_, hmem, by simp [hsets, setup]⟩
  by_contra hkeys
  have hkeyed : app.setup.keyed = true := Option.isSome_iff_ne_none.mpr hkeys
  rw [single.idle (single.keyed hkeyed) hpending] at hkeyed
  cases hkeyed

theorem report_certificate (engine : Nat) (dtlsFingerprint : String) (inPlace : engine < app.engines.length) :
    (app.report engine dtlsFingerprint).certificate engine = some dtlsFingerprint := by
  unfold report
  rw [certificate, modifyEngine_get, if_pos rfl]
  have hget : app.engines[engine]? = some app.engines[engine] := List.getElem?_eq_getElem inPlace
  rw [show ({ app with localFingerprint := some dtlsFingerprint, reported := app.reported ++ [dtlsFingerprint] } :
    CallApp K).engines = app.engines from rfl, hget]
  rfl

/-- An engine's report while there are no keys. -/
theorem report_keeps (unkeyed : app.keys = none) (engine : Nat) (dtlsFingerprint : String) :
    Keeps app (app.report engine dtlsFingerprint) :=
  .aside rfl rfl rfl (fun hkeys => by rw [unkeyed] at hkeys; cases hkeys) (fun _ _ _ _ _ h => h) (List.Subset.refl _) rfl

theorem resume_guarded (rekeyed : Rekeyed prim options app) (h : Guarded prim options named app) {index number : Nat}
    {task : Suspended K} (hmem : app.suspended[index]? = some (number, task)) {settlement : Settlement}
    (orderly : settlement ≠ .rejected → task.setsUp = true → number = app.begun)
    (timely : settlement ≠ .rejected → app.Timely number task) {resolvePeerIdentity : String → Option PublicIdentity}
    (resolves : ∀ address identity, resolvePeerIdentity address = some identity → named address identity) (now : Int) :
    Guarded prim options named
      (({ app with suspended := app.suspended.eraseIdx index } : CallApp K).resume prim options number task settlement
        resolvePeerIdentity now) := by
  obtain ⟨rest, hrest⟩ : ∃ rest, rest = ({ app with suspended := app.suspended.eraseIdx index } : CallApp K) := ⟨_, rfl⟩
  have hin : (number, task) ∈ app.suspended := List.mem_of_getElem? hmem
  have herase : Keeps app rest := by
    subst hrest
    exact .aside rfl rfl rfl (fun _ => rfl) (fun _ _ _ _ _ h => List.mem_of_mem_eraseIdx h) (List.Subset.refl _) rfl
  have hsame : rest.begun = app.begun ∧ rest.keys = app.keys ∧ rest.engine = app.engine ∧
      rest.engines = app.engines ∧ rest.core = app.core ∧ rest.mediaSecret = app.mediaSecret := by
    subst hrest
    exact ⟨rfl, rfl, rfl, rfl, rfl, rfl⟩
  obtain ⟨hbegun, hkeys, hengine, hengines, hcore, hsecret⟩ := hsame
  have hguarded := herase.guarded h
  rw [← hrest]
  unfold resume
  split
  next engine peerAddress callId secret sdp dtlsFingerprint =>
    have unkeyed : app.keys = none := timely nofun
    refine Keeps.guarded ?_ hguarded
    refine .trans (.trans (report_keeps (hkeys.trans unkeyed) engine dtlsFingerprint) (emit_keeps _)) (suspend_keeps _ ?_)
    exact fun _ _ _ _ => nofun
  next =>
    refine Keeps.guarded ?_ hguarded
    exact .aside rfl rfl rfl (fun _ => rfl) (fun _ _ _ _ _ h => h) (List.Subset.refl _) rfl
  next =>
    refine Keeps.guarded (.trans (emit_keeps _) (suspend_keeps _ ?_)) hguarded
    exact fun _ _ _ _ => nofun
  next =>
    refine Keeps.guarded (.trans (setState_keeps ?_ ?_) (emit_keeps _)) hguarded
    · nofun
    · exact fun _ => ⟨rfl, rfl, rfl⟩
  next engine call sdp dtlsFingerprint =>
    obtain rfl := orderly nofun rfl
    have unkeyed := setsUp_unkeyed rekeyed.single hin rfl
    have hreport := report_keeps (hkeys.trans unkeyed) engine dtlsFingerprint
    have hcleared : Keeps rest { rest.report engine dtlsFingerprint with pendingOfferSdp := none } :=
      hreport.trans (.aside rfl rfl rfl (fun _ => rfl) (fun _ _ _ _ _ h => h) (List.Subset.refl _) rfl)
    rw [← hbegun]
    refine deriveAndInstallKeys_guarded (hcleared.guarded hguarded) (hkeys.trans unkeyed) .callee resolves _ ?_
    intro hsome _
    have hplace : rest.engine = some engine := hengine.trans (timely nofun (hsecret ▸ hsome))
    show rest.engine.bind (rest.report engine dtlsFingerprint).certificate = some dtlsFingerprint
    rw [hplace]
    exact report_certificate engine dtlsFingerprint
      (hengines ▸ rekeyed.sound.inPlace engine (hengine.symm.trans hplace))
  next =>
    obtain rfl := orderly nofun rfl
    have unkeyed := setsUp_unkeyed rekeyed.single hin rfl
    rw [← hbegun]
    refine deriveAndInstallKeys_guarded hguarded (hkeys.trans unkeyed) .caller resolves _ ?_
    intro hsome hplace
    have hready := timely nofun (hsecret ▸ hsome) (hengine ▸ hplace)
    subst hrest
    exact hready
  next call install accepted after =>
    obtain rfl : number = app.begun := timely nofun
    obtain ⟨_, hstate, hown⟩ := h.waiting _ _ _ _ _ hin
    have hsingle : rest.keys.isSome → rest.mediaSecret.isSome := by
      rw [hkeys, hsecret]
      exact rekeyed.single.keyed
    rw [← hbegun]
    refine showSas_guarded hguarded hsingle hstate (fun hsome => ?_) after
    obtain ⟨_, hcall, hserves⟩ := hown rfl (hsecret ▸ hsome)
    refine ⟨hcore ▸ hcall, fun hplace => ?_⟩
    obtain ⟨i, hi, hi'⟩ := hserves (hengine ▸ hplace)
    exact ⟨i, hi, hi'.of_core hcore⟩
  next =>
    refine Keeps.guarded (.trans (emit_keeps _) (suspend_keeps _ ?_)) hguarded
    exact fun _ _ _ _ => nofun
  next =>
    refine Keeps.guarded (setState_keeps ?_ ?_) hguarded
    · nofun
    · exact fun _ => ⟨rfl, rfl, rfl⟩
  next =>
    refine Keeps.guarded (setState_keeps ?_ ?_) hguarded
    · nofun
    · exact fun _ => ⟨rfl, rfl, rfl⟩
  next => exact (closeCurrentEngine_keeps _ _).guarded hguarded
  next => exact (closeCurrentEngine_keeps _ _).guarded hguarded
  next => exact clearCall_guarded hguarded _ _
  all_goals first | exact (emit_keeps _).guarded hguarded | exact hguarded

/-- A call that is free for its setup has no keys. -/
theorem FreeForSetup.unkeyed (free : app.FreeForSetup) (single : app.setup.Single) : app.keys = none := by
  by_contra hkeys
  have hkeyed : app.setup.keyed = true := Option.isSome_iff_ne_none.mpr hkeys
  exact hkeys (free (single.keyed hkeyed)).1

theorem placeCall_guarded (rekeyed : Rekeyed prim options app) (h : Guarded prim options named app) (peerAddress : String)
    (id : Bytes) (supports : Bool) (secret : K) (now : Int) :
    Guarded prim options named (app.placeCall prim options peerAddress id supports secret now) := by
  have hplace := rekeyed.sound.inPlace
  unfold placeCall
  split
  next => exact (emit_keeps _).guarded h
  next =>
    split
    next => exact (((createMediaEngine_keeps hplace _).trans (closeMediaEngine_keeps _)).trans (emit_keeps _)).guarded h
    next =>
      refine Keeps.guarded (suspend_keeps _ ?_) ?_
      · exact fun _ _ _ _ heq => by cases heq
      · exact h.begin rfl rfl (fun heq => by cases heq) rfl (fun _ _ _ _ _ h => h)

theorem onOffer_guarded (h : Guarded prim options named app)
    (peerAddress callId mediaSecret sdp dtlsFingerprint : String) (now : Int) :
    Guarded prim options named (app.onOffer prim peerAddress callId mediaSecret sdp dtlsFingerprint now) := by
  unfold onOffer
  split
  next => exact (emit_keeps _).guarded h
  next =>
    split
    next => exact h.begin rfl rfl (fun heq => by cases heq) rfl (fun _ _ _ _ _ h => h)
    next => exact h.begin rfl rfl (fun heq => by cases heq) rfl (fun _ _ _ _ _ h => h)

theorem onAnswer_guarded (rekeyed : Rekeyed prim options app) (h : Guarded prim options named app)
    {peerAddress callId : String} (dtlsFingerprint : String)
    (orderly : (app.answered peerAddress callId).isSome → app.FreeForSetup) :
    Guarded prim options named (app.onAnswer peerAddress callId dtlsFingerprint) := by
  unfold onAnswer
  split
  next => exact h
  next call hcall =>
    have unkeyed : app.keys = none := (orderly (by rw [hcall]; rfl)).unkeyed rekeyed.single
    refine Keeps.guarded (.trans ?_ (suspend_keeps _ ?_)) h
    · refine .trans ?_ (modifyEngine_keeps _ (fun _ => rfl))
      refine .aside rfl rfl rfl (fun hkeys => ?_) (fun _ _ _ _ _ h => h) (List.Subset.refl _) rfl
      rw [unkeyed] at hkeys
      cases hkeys
    · exact fun _ _ _ _ heq => by cases heq

theorem answerCall_guarded (rekeyed : Rekeyed prim options app) (h : Guarded prim options named app) (supports : Bool)
    (orderly : app.answerable.isSome → app.FreeForSetup) :
    Guarded prim options named (app.answerCall prim options supports) := by
  have hplace := rekeyed.sound.inPlace
  unfold answerCall
  split
  next => exact (emit_keeps _).guarded h
  next call hcall =>
    split
    next =>
      refine Keeps.guarded (.trans ((createMediaEngine_keeps hplace _).trans (closeMediaEngine_keeps _))
        (suspend_keeps _ ?_)) h
      exact fun _ _ _ _ heq => by cases heq
    next =>
      have unkeyed : app.keys = none := (orderly (by rw [hcall]; rfl)).unkeyed rekeyed.single
      refine Keeps.guarded (.trans ?_ (suspend_keeps _ ?_)) h
      · refine .aside rfl rfl rfl (fun hkeys => ?_) (fun _ _ _ _ _ h => h) (List.Subset.refl _) rfl
        rw [unkeyed] at hkeys
        cases hkeys
      · exact fun _ _ _ _ heq => by cases heq

/-- What is confirmed is the call there is, in the state it was in. -/
theorem confirmSas_guarded (h : Guarded prim options named app) : Guarded prim options named app.confirmSas := by
  unfold confirmSas
  split
  next => exact h
  next call hcall =>
    refine (@Keeps.guarded _ _ _ _ app) ⟨rfl, rfl, rfl, fun _ => ?_, fun _ _ _ _ _ h => h, List.Subset.refl _, ?_⟩ h
    · exact congrArg (fun call => CallCore.mk call _ _ _ _) (by rw [hcall]; rfl)
    · intro call' hcurrent
      obtain rfl := Option.some.inj hcurrent
      exact ⟨call, hcall, rfl, id⟩

theorem perform_guarded (rekeyed : Rekeyed prim options app) (h : Guarded prim options named app) {move : CallMove K}
    (orderly : app.Orderly move) (timely : app.Protected move) (resolves : Resolves named move) :
    Guarded prim options named (app.perform prim options move) := by
  cases move with
  | placeCall peerAddress id supports secret now => exact placeCall_guarded rekeyed h peerAddress id supports secret now
  | handleSignal peerAddress signal now =>
    cases signal with
    | offer callId mediaSecret sdp dtlsFingerprint =>
      exact onOffer_guarded h peerAddress callId mediaSecret sdp dtlsFingerprint now
    | answer callId sdp dtlsFingerprint => exact onAnswer_guarded rekeyed h dtlsFingerprint orderly
    | ice callId candidate =>
      simp only [perform, handleSignal]
      split
      next =>
        refine Keeps.guarded (modifyEngine_keeps app.engine ?_) h
        exact fun _ => rfl
      next => exact h
    | hangup callId reason =>
      simp only [perform, handleSignal]
      split
      next => exact (endCall_keeps _ _).guarded h
      next => exact h
  | answerCall supports => exact answerCall_guarded rekeyed h supports orderly
  | endCall reason notify => exact (endCall_keeps _ _).guarded h
  | confirmSas => exact confirmSas_guarded h
  | localCandidate engine candidate =>
    simp only [perform, onLocalCandidate]
    split
    next => exact h
    next => exact (emit_keeps _).guarded h
  | connected engine => exact onConnected_guarded h timely
  | disconnected engine =>
    simp only [perform, onDisconnected]
    split
    next => exact (endCall_keeps _ _).guarded h
    next => exact h
  | frame engine data =>
    simp only [perform, transformFrame]
    split
    next => exact h
    next =>
      refine Keeps.guarded (.trans ?_ (modifyEngine_keeps _ (fun _ => rfl))) h
      exact .aside rfl rfl rfl (fun _ => rfl) (fun _ _ _ _ _ h => h) (List.Subset.refl _) rfl
  | resume index settlement resolvePeerIdentity now =>
    simp only [perform]
    split
    next => exact h
    next number task htask =>
      exact resume_guarded rekeyed h htask (fun hsettlement => (orderly hsettlement (number, task) htask).1)
        (fun hsettlement => timely hsettlement (number, task) htask) resolves now

theorem Start.guarded (h : Start app) : Guarded prim options named app := by
  obtain ⟨buffers, rfl⟩ := h
  refine ⟨fun _ _ _ _ _ hmem => ?_, fun _ hcurrent => ?_, fun _ hcurrent => ?_⟩
  · exact absurd hmem List.not_mem_nil
  · cases hcurrent
  · cases hcurrent

/-- In a run of orderly and protected steps, keys for a connected call were installed: for its id and its peer, with the
peer's identity, on the engine in place, and with the fingerprints of both ends. -/
theorem connected_keyed (start : Start app)
    (run : Relation.ReflTransGen (Step prim options (fun app move =>
      app.Orderly move ∧ app.Protected move ∧ Resolves named move)) app next) {call : CallInfo}
    (hcurrent : next.current = some call) (connected : call.state = .connected) :
    ∃ install ∈ next.installed, install.Derived prim options ∧ named call.peerAddress install.peerIdentity ∧
      install.callId = call.callId ∧ install.peerAddress = call.peerAddress ∧ next.engine = some install.engine ∧
      next.certificate install.engine = some install.localFingerprint ∧
      next.localFingerprint = some install.localFingerprint ∧
      next.remoteFingerprint = some install.remoteFingerprint := by
  have h : Rekeyed prim options next ∧ Guarded prim options named next := by
    refine Runs.preserved (P := fun app => Rekeyed prim options app ∧ Guarded prim options named app) ?_ run
      ⟨start.rekeyed, start.guarded⟩
    rintro app _ ⟨move, possible, ⟨orderly, timely, resolves⟩, rfl⟩ ⟨rekeyed, guarded⟩
    exact ⟨rekeyed.step ⟨move, possible, orderly, rfl⟩, perform_guarded rekeyed guarded orderly timely resolves⟩
  obtain ⟨rekeyed, guarded⟩ := h
  obtain ⟨hsas, hkeys, hengine⟩ := guarded.connected call hcurrent connected
  obtain ⟨_, hinstall⟩ := guarded.shown call hcurrent hsas (rekeyed.single.keyed hkeys)
  obtain ⟨install, hmem, hcore, hderived, hname⟩ := hinstall hengine
  have hcall := Option.some.inj ((congrArg CallCore.call hcore).trans (congrArg (Option.map _) hcurrent))
  obtain ⟨hid, haddress⟩ := Prod.mk.inj hcall
  have hplace : next.engine = some install.engine := (congrArg CallCore.engine hcore).symm
  have hreported : next.engine.bind next.certificate = some install.localFingerprint :=
    (congrArg CallCore.reported hcore).symm
  rw [hplace] at hreported
  exact ⟨install, hmem, hderived, haddress ▸ hname, hid, haddress, hplace, hreported,
    (congrArg CallCore.localFingerprint hcore).symm, (congrArg CallCore.remoteFingerprint hcore).symm⟩

end

/-- A call up to its connection. -/
def connectedCall : List (CallMove (List Bytes)) := keyedCall ++ [.resume 0 .resolved resolves 0, .connected 0]

theorem connected_keyed_connectedCall : ∃ (app : CallApp (List Bytes)) (call : CallInfo), app.current = some call ∧
    call.state = .connected ∧ ∃ install ∈ app.installed, install.Derived spelledCalls callOptions ∧
      install.peerIdentity = callee ∧ install.callId = call.callId ∧ install.peerAddress = call.peerAddress ∧
      app.engine = some install.engine ∧ app.certificate install.engine = some install.localFingerprint ∧
      app.localFingerprint = some install.localFingerprint ∧ app.remoteFingerprint = some install.remoteFingerprint := by
  obtain ⟨call, hcurrent, hstate⟩ : ∃ call, (performAll spelledCalls callOptions { buffers := fun _ => [] }
      connectedCall).current = some call ∧ call.state = .connected := by
    refine ⟨((performAll spelledCalls callOptions { buffers := fun _ => [] } connectedCall).current.get ?_), ?_, ?_⟩
    · decide +kernel
    · exact (Option.some_get _).symm
    · decide +kernel
  refine ⟨_, call, hcurrent, hstate, (@connected_keyed _ _ _ (fun _ identity => identity = callee)) ⟨fun _ => [], rfl⟩
    (reaches_performAll ?_) hcurrent hstate⟩
  have h : PossibleAll spelledCalls callOptions (fun app move => app.Orderly move ∧ app.Protected move)
      { buffers := fun _ => [] } connectedCall := by
    decide +kernel
  refine h.imp (fun app move hmem hallowed => ⟨hallowed.1, hallowed.2, ?_⟩)
  have hresolves : ∀ address identity, resolves address = some identity → identity = callee :=
    fun _ _ hidentity => (Option.some.inj hidentity).symm
  simp only [connectedCall, keyedCall, List.cons_append, List.nil_append, List.mem_cons, List.not_mem_nil, or_false]
    at hmem
  rcases hmem with rfl | rfl | rfl | rfl | rfl | rfl | rfl | rfl | rfl <;> first | exact hresolves | trivial

/-- The manager has no identity for the peer, so it derives no keys; the engine connects all the same. -/
theorem connected_unkeyed : callOptions.requireFrameEncryption = true ∧ ∃ (app : CallApp (List Bytes)) (call : CallInfo),
    Relation.ReflTransGen (Step spelledCalls callOptions (fun _ _ => True)) { buffers := fun _ => [] } app ∧
      app.current = some call ∧ call.state = .connected ∧ app.installing = [] ∧ app.installed = [] := by
  refine ⟨rfl, performAll spelledCalls callOptions { buffers := fun _ => [] }
    [.placeCall "callee" [0xca] true [[7]] 0, .resume 0 (.described "sdp" "own") resolves 0, .resume 0 .resolved resolves 0,
     .handleSignal "callee" (.answer "ca" "sdp" "theirs") 0, .resume 0 .resolved (fun _ => none) 0, .connected 0],
    { callId := "ca", peerAddress := "callee", direction := .outgoing, state := .connected, startedAt := some 0 }, ?_, ?_,
    rfl, ?_, ?_⟩
  · exact reaches_performAll (by decide +kernel)
  · decide +kernel
  · exact List.isEmpty_iff.mp (by decide +kernel)
  · exact List.isEmpty_iff.mp (by decide +kernel)

end CallApp

end Veil
