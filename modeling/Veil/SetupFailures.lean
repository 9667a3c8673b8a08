import Veil.CallErasure

namespace Veil

/-- The two operations that set a call up, and what they are called with. -/
inductive CallSetup (K : Type)
  | placeCall (peerAddress : String) (id : Bytes) (supports : Bool) (secret : K) (now : Int)
  | answerCall (supports : Bool)

def CallSetup.move {K : Type} : CallSetup K → CallMove K
  | .placeCall peerAddress id supports secret now => .placeCall peerAddress id supports secret now
  | .answerCall supports => .answerCall supports

/-- The method is placing or answering a call, and has an engine for it. -/
def Suspended.settingUp {K : Type} : Suspended K → Bool
  | .creatingOffer .. | .sendingOffer | .creatingAnswer .. | .installingKeys .. | .keysInstalled _ | .sendingAnswer => true
  | .refusingAnswer _ | .sendingRefusal | .acceptingAnswer | .notifyingEnd _ | .closingEngine .. => false

namespace CallApp

variable {K : Type}

/-- The moves of an operation on its own: its start, and the promises it waits for in their order. -/
def setupMoves (app : CallApp K) (setup : CallSetup K) (settlements : List Settlement)
    (resolvePeerIdentity : String → Option PublicIdentity) (now : Int) : List (CallMove K) :=
  setup.move :: settlements.map (fun settlement => .resume app.suspended.length settlement resolvePeerIdentity now)

/-- Nothing but the log and the engines differs. -/
def AsBefore (app next : CallApp K) : Prop := { next with engines := app.engines, events := app.events } = app

/-- The engines that were made are closed, and the manager is as it was, or its call has ended and its secrets are gone. -/
def RolledBack (app next : CallApp K) : Prop :=
  (∀ media ∈ next.engines.drop app.engines.length, media.closed = true) ∧
    (app.AsBefore next ∨ next.current.any (fun call => call.state = .ended) = true ∧ next.keys = none ∧ next.mediaSecret = none)

def closings (app : CallApp K) : List Bool := app.engines.map MediaEngine.closed

section

variable {prim : CallPrimitives K} {options : CallManagerOptions} {app : CallApp K}

theorem modifyEngine_closings (engine : Option Nat) {f : MediaEngine → MediaEngine} (h : ∀ media, (f media).closed = media.closed) :
    (app.modifyEngine engine f).closings = app.closings := by
  apply List.ext_getElem?
  intro e
  rw [closings, closings, List.getElem?_map, List.getElem?_map, modifyEngine_get]
  by_cases he : engine = some e
  · rw [if_pos he]
    cases app.engines[e]? with
    | none => rfl
    | some media => exact congrArg some (h media)
  · rw [if_neg he]

theorem installFrameKeys_closed (buffers : SecretBuffer → K) (keys : CallKeyMaterial SecretBuffer) (media : MediaEngine) :
    (media.installFrameKeys prim buffers keys).1.closed = media.closed := by
  unfold MediaEngine.installFrameKeys
  split
  next => rfl
  next =>
    split
    next => rfl
    next =>
      dsimp only
      split <;> rfl

/-- What a method that sets a call up may have done when it returns: no engine is closed, and it waits at most once. -/
structure GoesOn (number : Nat) (app next : CallApp K) : Prop where
  closings : next.closings = app.closings
  waits : next.suspended = app.suspended ∨
    ∃ task : Suspended K, task.settingUp = true ∧ next.suspended = app.suspended ++ [(number, task)]

theorem deriveAndInstallKeys_goesOn (prim : CallPrimitives K) (options : CallManagerOptions) (number : Nat) (role : CallRole) (resolvePeerIdentity : String → Option PublicIdentity)
    (next : AfterKeys) (app : CallApp K) :
    app.GoesOn number (app.deriveAndInstallKeys prim options number role resolvePeerIdentity next) := by
  unfold deriveAndInstallKeys
  split
  next call secret localFingerprint remoteFingerprint _ _ _ _ =>
    split
    next => exact ⟨rfl, Or.inl rfl⟩
    next peerIdentity _ =>
      split
      next => exact ⟨rfl, Or.inl rfl⟩
      next derived _ =>
        refine ⟨?_, Or.inr ⟨_, rfl, rfl⟩⟩
        exact modifyEngine_closings _ (fun media => installFrameKeys_closed _ _ media)
  next => exact ⟨rfl, Or.inl rfl⟩

theorem resume_goesOn (prim : CallPrimitives K) (options : CallManagerOptions) {task : Suspended K}
    (htask : task.settingUp = true) (number : Nat) (settlement : Settlement)
    (resolvePeerIdentity : String → Option PublicIdentity) (now : Int) (app : CallApp K) :
    app.GoesOn number (app.resume prim options number task settlement resolvePeerIdentity now) := by
  have hreport : ∀ engine dtlsFingerprint, (app.report engine dtlsFingerprint).closings = app.closings := fun engine _ =>
    modifyEngine_closings (some engine) fun _ => rfl
  unfold resume
  split
  next engine peerAddress callId secret sdp dtlsFingerprint => exact ⟨hreport engine dtlsFingerprint, Or.inr ⟨_, rfl, rfl⟩⟩
  next => exact ⟨rfl, Or.inl rfl⟩
  next => cases htask
  next => cases htask
  next engine call sdp dtlsFingerprint =>
    have hgoes := deriveAndInstallKeys_goesOn prim options number .callee resolvePeerIdentity
      (.sendAnswer call sdp dtlsFingerprint) { app.report engine dtlsFingerprint with pendingOfferSdp := none }
    exact ⟨hgoes.closings.trans (hreport engine dtlsFingerprint), hgoes.waits⟩
  next => cases htask
  next call install accepted next =>
    unfold showSas
    split
    next => exact ⟨rfl, Or.inl rfl⟩
    next => exact ⟨rfl, Or.inr ⟨_, rfl, rfl⟩⟩
  next => exact ⟨rfl, Or.inr ⟨_, rfl, rfl⟩⟩
  next => exact ⟨rfl, Or.inl rfl⟩
  next => exact ⟨rfl, Or.inl rfl⟩
  next => cases htask
  next => cases htask
  next => cases htask
  next => exact ⟨rfl, Or.inl rfl⟩
  next => cases htask
  next => exact ⟨rfl, Or.inl rfl⟩
  next => exact ⟨rfl, Or.inl rfl⟩
  next => exact ⟨rfl, Or.inl rfl⟩

/-- An operation on its own that got an engine leaves it open. -/
theorem performAll_closings (rest : List (Nat × Suspended K)) (resolvePeerIdentity : String → Option PublicIdentity) (now : Int)
    (settlements : List Settlement) : ∀ app : CallApp K,
      (app.suspended = rest ∨ ∃ number task, Suspended.settingUp task = true ∧ app.suspended = rest ++ [(number, task)]) →
      (app.performAll prim options (settlements.map (fun settlement =>
        .resume rest.length settlement resolvePeerIdentity now))).closings = app.closings := by
  induction settlements with
  | nil => exact fun _ _ => rfl
  | cons settlement settlements ih =>
    intro app hwaits
    rw [List.map_cons, performAll, List.foldl_cons, ← performAll]
    rcases hwaits with hrest | ⟨number, task, htask, hrest⟩
    · have hnone : app.perform prim options (.resume rest.length settlement resolvePeerIdentity now) = app := by
        simp only [perform, hrest, List.getElem?_length]
      rw [hnone]
      exact ih app (Or.inl hrest)
    · have hget : app.suspended[rest.length]? = some (number, task) := by
        rw [hrest, List.getElem?_append_right (Nat.le_refl _), Nat.sub_self]
        rfl
      have herase : app.suspended.eraseIdx rest.length = rest := by
        rw [hrest, List.eraseIdx_append_of_length_le (Nat.le_refl _), Nat.sub_self]
        exact List.append_nil rest
      simp only [perform, hget, herase]
      have hgoes := resume_goesOn prim options htask number settlement resolvePeerIdentity now
        { app with suspended := rest }
      refine (ih _ ?_).trans hgoes.closings
      rcases hgoes.waits with hsame | ⟨task', htask', hsome⟩
      · exact Or.inl hsame
      · exact Or.inr ⟨number, task', htask', hsome⟩

theorem not_rolledBack {next : CallApp K} (h : next.closings = app.closings ++ [false]) : ¬ app.RolledBack next := by
  rintro ⟨hclosed, -⟩
  have hdrop : (next.engines.drop app.engines.length).map MediaEngine.closed = [false] := by
    rw [List.map_drop]
    have hlength : app.closings.length = app.engines.length := List.length_map _
    rw [← hlength]
    show next.closings.drop app.closings.length = [false]
    rw [h, List.drop_left]
  cases hengines : next.engines.drop app.engines.length with
  | nil =>
    rw [hengines] at hdrop
    cases hdrop
  | cons media rest =>
    rw [hengines] at hdrop hclosed
    have hfalse : media.closed = false := (List.cons.inj hdrop).1
    rw [hclosed media List.mem_cons_self] at hfalse
    cases hfalse

/-- An offer is kept only with the secret that came with it. -/
def KeepsSecret (app : CallApp K) : Prop := app.pendingOfferSdp ≠ none → app.mediaSecret ≠ none

theorem KeepsSecret.same {next : CallApp K} (h : app.KeepsSecret) (pending : next.pendingOfferSdp = app.pendingOfferSdp)
    (secret : next.mediaSecret = app.mediaSecret) : next.KeepsSecret := by
  intro hsome
  rw [secret]
  exact h (pending ▸ hsome)

theorem KeepsSecret.dropped {next : CallApp K} (pending : next.pendingOfferSdp = none) : next.KeepsSecret :=
  fun hsome => absurd pending hsome

theorem KeepsSecret.given {next : CallApp K} (secret : next.mediaSecret ≠ none) : next.KeepsSecret := fun _ => secret

theorem KeepsSecret.deriveAndInstallKeys (h : app.KeepsSecret) (number : Nat) (role : CallRole)
    (resolvePeerIdentity : String → Option PublicIdentity) (next : AfterKeys) :
    (app.deriveAndInstallKeys prim options number role resolvePeerIdentity next).KeepsSecret := by
  unfold CallApp.deriveAndInstallKeys
  split
  next =>
    split
    next => exact h.same rfl rfl
    next =>
      split
      next => exact h.same rfl rfl
      next => exact h.same rfl rfl
  next => exact h.same rfl rfl

theorem KeepsSecret.endCall (h : app.KeepsSecret) (reason : String) (notify : Bool) :
    (app.endCall prim reason notify).KeepsSecret := by
  unfold CallApp.endCall
  split
  next => exact h
  next =>
    split
    next => exact h.same rfl rfl
    next => exact h.same rfl rfl

theorem KeepsSecret.resume (h : app.KeepsSecret) (number : Nat) (task : Suspended K) (settlement : Settlement)
    (resolvePeerIdentity : String → Option PublicIdentity) (now : Int) :
    (app.resume prim options number task settlement resolvePeerIdentity now).KeepsSecret := by
  unfold CallApp.resume
  split
  next => exact h.same rfl rfl
  next => exact h.same rfl rfl
  next => exact h.same rfl rfl
  next => exact h.same rfl rfl
  next => exact (KeepsSecret.dropped rfl).deriveAndInstallKeys _ _ _ _
  next => exact h.deriveAndInstallKeys _ _ _ _
  next =>
    unfold showSas
    split
    next => exact h.same rfl rfl
    next => exact h.same rfl rfl
  next => exact h.same rfl rfl
  next => exact h.same rfl rfl
  next => exact h.same rfl rfl
  next => exact h.same rfl rfl
  next => exact h.same rfl rfl
  next => exact KeepsSecret.dropped rfl
  all_goals exact h.same rfl rfl

theorem KeepsSecret.perform (h : app.KeepsSecret) (move : CallMove K) : (app.perform prim options move).KeepsSecret := by
  cases move with
  | placeCall peerAddress id supports secret now =>
    show (app.placeCall prim options peerAddress id supports secret now).KeepsSecret
    unfold CallApp.placeCall
    split
    next => exact h.same rfl rfl
    next =>
      dsimp only
      split
      next => exact h.same rfl rfl
      next => exact KeepsSecret.given nofun
  | handleSignal peerAddress signal now =>
    cases signal with
    | offer callId mediaSecret sdp dtlsFingerprint =>
      show (app.onOffer prim peerAddress callId mediaSecret sdp dtlsFingerprint now).KeepsSecret
      unfold onOffer
      split
      next => exact h.same rfl rfl
      next =>
        dsimp only
        split
        next => exact h.same rfl rfl
        next => exact KeepsSecret.given nofun
    | answer callId sdp dtlsFingerprint =>
      show (app.onAnswer peerAddress callId dtlsFingerprint).KeepsSecret
      unfold onAnswer
      split
      next => exact h
      next => exact h.same rfl rfl
    | ice callId candidate =>
      simp only [CallApp.perform, handleSignal]
      split
      next => exact h.same rfl rfl
      next => exact h
    | hangup callId reason =>
      simp only [CallApp.perform, handleSignal]
      split
      next => exact h.endCall reason false
      next => exact h
  | answerCall supports =>
    show (app.answerCall prim options supports).KeepsSecret
    unfold CallApp.answerCall
    split
    next => exact h.same rfl rfl
    next =>
      dsimp only
      split
      next => exact h.same rfl rfl
      next => exact h.same rfl rfl
  | endCall reason notify => exact h.endCall reason notify
  | confirmSas =>
    show app.confirmSas.KeepsSecret
    unfold confirmSas
    split
    next => exact h
    next => exact h.same rfl rfl
  | localCandidate engine candidate =>
    show (app.onLocalCandidate engine candidate).KeepsSecret
    unfold onLocalCandidate
    split
    next => exact h
    next => exact h.same rfl rfl
  | connected engine =>
    show (app.onConnected engine).KeepsSecret
    unfold onConnected
    split
    next => exact h.same rfl rfl
    next => exact h
  | disconnected engine =>
    show (app.onDisconnected prim engine).KeepsSecret
    unfold onDisconnected
    split
    next => exact h.endCall "disconnected" false
    next => exact h
  | frame engine data =>
    show (app.transformFrame prim engine data).KeepsSecret
    unfold transformFrame
    split
    next => exact h
    next => exact h.same rfl rfl
  | resume index settlement resolvePeerIdentity now =>
    simp only [CallApp.perform]
    split
    next => exact h
    next =>
      have herased : ({ app with suspended := app.suspended.eraseIdx index } : CallApp K).KeepsSecret := h
      exact herased.resume _ _ _ _ _

/-- The step throws, whatever it shows before that. -/
def Throws (app next : CallApp K) : Prop :=
  ∃ (earlier : List CallEvent) (error : CallError), next.events = app.events ++ earlier ++ [.thrown error]

/-- The last of the moves throws. -/
def Rejects (prim : CallPrimitives K) (options : CallManagerOptions) (app : CallApp K) (moves : List (CallMove K)) : Prop :=
  (app.performAll prim options moves.dropLast).Throws (app.performAll prim options moves)

/-- The operation throws before it has begun to set anything up. -/
def Unbegun (options : CallManagerOptions) (app : CallApp K) (setup : CallSetup K) (settlements : List Settlement) : Prop :=
  match setup with
  | .placeCall _ _ supports _ _ => app.live = true ∨ (options.requireFrameEncryption && !supports) = true
  | .answerCall supports =>
    app.answerable = none ∨ (options.requireFrameEncryption && !supports) = true ∧ .rejected ∈ settlements

/-- The call, its engine, its keys and its secret are left where they were, and no engine is closed. -/
structure Abandons (app next : CallApp K) : Prop where
  current : next.current = app.current
  engine : next.engine = app.engine
  keys : next.keys = app.keys
  mediaSecret : next.mediaSecret = app.mediaSecret
  closings : next.closings = app.closings

theorem not_throws {next : CallApp K} (added : List CallEvent) (events : next.events = app.events ++ added)
    (quiet : ∀ error, .thrown error ∉ added) : ¬ app.Throws next := by
  rintro ⟨earlier, error, hthrown⟩
  rw [events, List.append_assoc] at hthrown
  have hadded : added = earlier ++ [.thrown error] := List.append_cancel_left hthrown
  apply quiet error
  rw [hadded]
  exact List.mem_append_right _ List.mem_cons_self

theorem deriveAndInstallKeys_abandons (app : CallApp K) (number : Nat) (role : CallRole)
    (resolvePeerIdentity : String → Option PublicIdentity) (next : AfterKeys)
    (throws : app.Throws (app.deriveAndInstallKeys prim options number role resolvePeerIdentity next)) :
    app.Abandons (app.deriveAndInstallKeys prim options number role resolvePeerIdentity next) := by
  unfold deriveAndInstallKeys at throws ⊢
  split at throws
  next =>
    split at throws
    next => exact ⟨rfl, rfl, rfl, rfl, rfl⟩
    next =>
      split at throws
      next => exact ⟨rfl, rfl, rfl, rfl, rfl⟩
      next => exact absurd throws (not_throws [] (List.append_nil _).symm (fun _ => List.not_mem_nil))
  next => exact ⟨rfl, rfl, rfl, rfl, rfl⟩

theorem Abandons.thrown (error : CallError) : app.Abandons (app.throw error) := ⟨rfl, rfl, rfl, rfl, rfl⟩

/-- What a method that sets a call up does when it resumes is not undone where it throws. -/
theorem resume_abandons {task : Suspended K} (htask : task.settingUp = true) (number : Nat) (settlement : Settlement)
    (resolvePeerIdentity : String → Option PublicIdentity) (now : Int)
    (throws : app.Throws (app.resume prim options number task settlement resolvePeerIdentity now)) :
    app.Abandons (app.resume prim options number task settlement resolvePeerIdentity now) := by
  have hsent : ∀ {next : CallApp K} peerAddress signal, next.events = app.events ++ [.signal peerAddress signal] →
      ¬ app.Throws next := fun _ _ hevents => not_throws _ hevents (by simp)
  have hstate : ∀ {next : CallApp K} {current : Option CallInfo},
      next.events = app.events ++ current.toList.map .stateChange → ¬ app.Throws next :=
    fun hevents => not_throws _ hevents (by simp)
  unfold resume at throws ⊢
  split at throws
  next => exact absurd throws (hsent _ _ rfl)
  next => exact absurd throws (hstate rfl)
  next => cases htask
  next => cases htask
  next engine call sdp dtlsFingerprint =>
    have hreport : (app.report engine dtlsFingerprint).closings = app.closings := modifyEngine_closings (some engine) fun _ => rfl
    have habandons := deriveAndInstallKeys_abandons { app.report engine dtlsFingerprint with pendingOfferSdp := none }
      number .callee resolvePeerIdentity _ throws
    exact ⟨habandons.current, habandons.engine, habandons.keys, habandons.mediaSecret, habandons.closings.trans hreport⟩
  next => cases htask
  next call install accepted next =>
    unfold showSas at throws ⊢
    split at throws
    next => exact ⟨rfl, rfl, rfl, rfl, rfl⟩
    next keys hkeys =>
      refine absurd throws (not_throws [.sasAvailable { call with sas := some keys.sas, sasDigits := some keys.sasDigits },
        .stateChange { call with sas := some keys.sas, sasDigits := some keys.sasDigits }] ?_ (by simp))
      exact List.append_assoc _ _ _
  next => exact absurd throws (hsent _ _ rfl)
  next => exact absurd throws (hstate rfl)
  next => exact absurd throws (hstate rfl)
  next => cases htask
  next => cases htask
  next => cases htask
  next => exact .thrown _
  next => cases htask
  next => exact .thrown _
  next => exact .thrown _
  next => exact absurd throws (not_throws [] (List.append_nil _).symm (fun _ => List.not_mem_nil))

/-- The operation has its engine, which is open, and waits for it. -/
def Begins (app next : CallApp K) : Prop :=
  next.closings = app.closings ++ [false] ∧
    ∃ number task, Suspended.settingUp task = true ∧ next.suspended = app.suspended ++ [(number, task)]

theorem placeCall_begins (hdead : app.live = false) {supports : Bool}
    (hencrypts : (options.requireFrameEncryption && !supports) = false) (peerAddress : String) (id : Bytes) (secret : K)
    (now : Int) : app.Begins (app.placeCall prim options peerAddress id supports secret now) := by
  unfold placeCall
  rw [if_neg (by rw [hdead]; exact Bool.false_ne_true), hencrypts]
  refine ⟨?_, _, _, rfl, rfl⟩
  show (app.engines ++ [_]).map MediaEngine.closed = app.closings ++ [false]
  exact List.map_append

theorem answerCall_begins {call : CallInfo} (hcall : app.answerable = some call) {supports : Bool}
    (hencrypts : (options.requireFrameEncryption && !supports) = false) :
    app.Begins (app.answerCall prim options supports) := by
  unfold answerCall
  rw [hcall]
  dsimp only
  rw [hencrypts]
  refine ⟨?_, _, _, rfl, rfl⟩
  show (app.engines ++ [_]).map MediaEngine.closed = app.closings ++ [false]
  exact List.map_append

theorem performAll_setupMoves (setup : CallSetup K) (settlements : List Settlement)
    (resolvePeerIdentity : String → Option PublicIdentity) (now : Int) :
    app.performAll prim options (app.setupMoves setup settlements resolvePeerIdentity now) =
      (app.perform prim options setup.move).performAll prim options (settlements.map (fun settlement =>
        .resume app.suspended.length settlement resolvePeerIdentity now)) := rfl

theorem Begins.not_rolledBack {setup : CallSetup K} (h : app.Begins (app.perform prim options setup.move))
    (settlements : List Settlement) (resolvePeerIdentity : String → Option PublicIdentity) (now : Int) :
    ¬ app.RolledBack (app.performAll prim options (app.setupMoves setup settlements resolvePeerIdentity now)) := by
  obtain ⟨hclosings, hwaits⟩ := h
  apply CallApp.not_rolledBack
  rw [performAll_setupMoves, performAll_closings _ _ _ settlements _ (Or.inr hwaits), hclosings]

/-- An operation that waits for nothing is over. -/
theorem settlements_nil {length : Nat} (hwaits : app.suspended.length = length) {settlements : List Settlement}
    {resolvePeerIdentity : String → Option PublicIdentity} {now : Int}
    (possible : app.PossibleAll prim options (fun _ _ => True) (settlements.map (fun settlement =>
      .resume length settlement resolvePeerIdentity now))) : settlements = [] := by
  cases settlements with
  | nil => rfl
  | cons settlement settlements =>
    have hpossible : app.Possible (.resume length settlement resolvePeerIdentity now) := possible.1
    simp [Possible, ← hwaits] at hpossible

/-- The method that waits last resumes. -/
theorem perform_suspend (number : Nat) (task : Suspended K) (settlement : Settlement)
    (resolvePeerIdentity : String → Option PublicIdentity) (now : Int) :
    (app.suspend number task).perform prim options (.resume app.suspended.length settlement resolvePeerIdentity now) =
      app.resume prim options number task settlement resolvePeerIdentity now := by
  have hget : (app.suspended ++ [(number, task)])[app.suspended.length]? = some (number, task) := List.getElem?_concat_length
  have herase : (app.suspended ++ [(number, task)]).eraseIdx app.suspended.length = app.suspended := by
    rw [List.eraseIdx_append_of_length_le (Nat.le_refl _), Nat.sub_self]
    exact List.append_nil app.suspended
  simp only [perform, suspend, hget, herase]

/-- An engine that cannot encrypt frames has been made and closed. -/
def withClosed (supports : Bool) (app : CallApp K) : CallApp K :=
  app.createMediaEngine { supportsFrameEncryption := supports, closed := true }

theorem closeMediaEngine_created (supports : Bool) :
    (app.createMediaEngine { supportsFrameEncryption := supports }).closeMediaEngine prim (some app.engines.length) =
      app.withClosed supports := by
  have hmodify : ∀ (engines : List MediaEngine) (media : MediaEngine) (f : MediaEngine → MediaEngine),
      (engines ++ [media]).modify engines.length f = engines ++ [f media] := by
    intro engines media f
    induction engines with
    | nil => rfl
    | cons first engines ih => exact congrArg (List.cons first) ih
  simp [closeMediaEngine, createMediaEngine, withClosed, wipe, modifyEngine, hmodify]

theorem withClosed_rolledBack {supports : Bool} {next : CallApp K} (hengines : next.engines = (app.withClosed supports).engines)
    (h : app.AsBefore next ∨ next.current.any (fun call => call.state = .ended) = true ∧ next.keys = none ∧ next.mediaSecret = none) :
    app.RolledBack next := by
  refine ⟨fun media hmedia => ?_, h⟩
  rw [hengines] at hmedia
  simp only [withClosed, createMediaEngine, List.drop_left] at hmedia
  rw [List.mem_singleton.mp hmedia]

theorem answerable_some {call : CallInfo} (h : app.answerable = some call) :
    app.current = some call ∧ call.state = .ringingIncoming ∧ app.pendingOfferSdp ≠ none := by
  unfold answerable at h
  split at h
  next hoffer =>
    have hfilter := Option.filter_eq_some_iff.mp h
    refine ⟨hfilter.1, of_decide_eq_true hfilter.2, fun hnone => ?_⟩
    rw [hnone] at hoffer
    cases hoffer
  next => cases h

theorem answerCall_refuses {call : CallInfo} (hcall : app.answerable = some call) {supports : Bool}
    (hrefuses : (options.requireFrameEncryption && !supports) = true) :
    app.answerCall prim options supports = (app.withClosed supports).suspend app.begun (.refusingAnswer call) := by
  unfold answerCall
  rw [hcall]
  dsimp only
  rw [if_pos hrefuses, closeMediaEngine_created]

/-- A ringing call that is refused for good has ended with its secret. -/
theorem refused_not_rolledBack {call : CallInfo} (hcall : app.answerable = some call) (hsecret : app.KeepsSecret)
    {next : CallApp K} (hcurrent : next.current.any (fun call => call.state = .ended) = true)
    (hmedia : next.mediaSecret = app.mediaSecret) : ¬ app.RolledBack next := by
  obtain ⟨hringing, hstate, hoffer⟩ := answerable_some hcall
  rintro ⟨-, hbefore | ⟨-, -, hnone⟩⟩
  · have hsame : next.current = app.current := by
      unfold AsBefore at hbefore
      rw [← hbefore]
    rw [hsame, hringing, Option.any_some, hstate] at hcurrent
    exact absurd hcurrent (by decide)
  · exact hsecret hoffer (hmedia.symm.trans hnone)

/-- A refused answer is rolled back where the engine or the hangup fails too. -/
theorem refused_rolledBack {call : CallInfo} (hcall : app.answerable = some call) {supports : Bool}
    (hrefuses : (options.requireFrameEncryption && !supports) = true) (hsecret : app.KeepsSecret) {settlements : List Settlement}
    {resolvePeerIdentity : String → Option PublicIdentity} {now : Int}
    (possible : app.PossibleAll prim options (fun _ _ => True)
      (app.setupMoves (.answerCall supports) settlements resolvePeerIdentity now))
    (rejects : app.Rejects prim options (app.setupMoves (.answerCall supports) settlements resolvePeerIdentity now)) :
    app.RolledBack (app.performAll prim options (app.setupMoves (.answerCall supports) settlements resolvePeerIdentity now)) ↔
      .rejected ∈ settlements := by
  have hstarts : app.perform prim options (.answerCall supports) =
      (app.withClosed supports).suspend app.begun (.refusingAnswer call) := answerCall_refuses hcall hrefuses
  have hcloses : ∀ settlement, ((app.withClosed supports).suspend app.begun (.refusingAnswer call)).perform prim options
      (.resume app.suspended.length settlement resolvePeerIdentity now) =
        (app.withClosed supports).resume prim options app.begun (.refusingAnswer call) settlement resolvePeerIdentity now :=
    fun settlement => perform_suspend _ _ settlement _ _
  let told := (app.withClosed supports).emit (.signal call.peerAddress (.hangup call.callId "frame-encryption-unavailable"))
  have htells : ∀ settlement, (told.suspend app.begun .sendingRefusal).perform prim options
      (.resume app.suspended.length settlement resolvePeerIdentity now) =
        told.resume prim options app.begun .sendingRefusal settlement resolvePeerIdentity now :=
    fun settlement => perform_suspend _ _ settlement _ _
  obtain ⟨-, -, possible⟩ := possible
  unfold Rejects at rejects
  rw [performAll_setupMoves] at rejects ⊢
  simp only [CallSetup.move, hstarts] at possible rejects ⊢
  cases settlements with
  | nil => exact absurd rejects (not_throws [] (List.append_nil _).symm (fun _ => List.not_mem_nil))
  | cons first rest =>
    obtain ⟨hfirst, -, possible⟩ := possible
    rw [List.map_cons, performAll, List.foldl_cons, hcloses, ← performAll]
    rw [hcloses] at possible
    cases first with
    | rejected =>
      obtain rfl := settlements_nil rfl possible
      exact iff_of_true (withClosed_rolledBack rfl (Or.inl rfl)) List.mem_cons_self
    | described sdp dtlsFingerprint => simp [Possible, suspend, withClosed, createMediaEngine, Suspended.settles] at hfirst
    | resolved =>
      change ((told.suspend app.begun .sendingRefusal).PossibleAll prim options (fun _ _ => True) _) at possible
      show app.RolledBack ((told.suspend app.begun .sendingRefusal).performAll prim options _) ↔ _
      cases rest with
      | nil =>
        simp only [setupMoves, CallSetup.move, List.map_cons, List.map_nil, List.dropLast, performAll, List.foldl, hstarts,
          hcloses] at rejects
        exact absurd rejects (not_throws [.signal _ _] rfl (by simp))
      | cons second rest =>
        obtain ⟨hsecond, -, possible⟩ := possible
        rw [List.map_cons, performAll, List.foldl_cons, htells, ← performAll]
        rw [htells] at possible
        cases second with
        | rejected =>
          obtain rfl := settlements_nil rfl possible
          exact iff_of_true (withClosed_rolledBack rfl (Or.inl rfl)) (List.mem_cons_of_mem _ List.mem_cons_self)
        | described sdp dtlsFingerprint =>
          simp [Possible, told, emit, suspend, withClosed, createMediaEngine, Suspended.settles] at hsecond
        | resolved =>
          obtain rfl := settlements_nil rfl possible
          refine iff_of_false (refused_not_rolledBack hcall hsecret ?_ rfl) (by simp)
          have hringing := (answerable_some hcall).1
          simp [performAll, resume, throw, emit, setState, told, withClosed, createMediaEngine, hringing]

theorem Start.keepsSecret (h : Start app) : app.KeepsSecret := by
  obtain ⟨buffers, rfl⟩ := h
  exact fun hsome => absurd rfl hsome

theorem KeepsSecret.run {next : CallApp K} (h : app.KeepsSecret)
    (hrun : Relation.ReflTransGen (Step prim options (fun _ _ => True)) app next) : next.KeepsSecret := by
  refine Runs.preserved ?_ hrun h
  rintro app _ ⟨move, _, _, rfl⟩ h
  exact h.perform move

theorem perform_rolledBack_iff (hsecret : app.KeepsSecret) (setup : CallSetup K) (settlements : List Settlement)
    (resolvePeerIdentity : String → Option PublicIdentity) (now : Int)
    (possible : app.PossibleAll prim options (fun _ _ => True) (app.setupMoves setup settlements resolvePeerIdentity now))
    (rejects : app.Rejects prim options (app.setupMoves setup settlements resolvePeerIdentity now)) :
    app.RolledBack (app.performAll prim options (app.setupMoves setup settlements resolvePeerIdentity now)) ↔
      app.Unbegun options setup settlements := by
  cases setup with
  | placeCall peerAddress id supports secret now' =>
    have hplace : app.perform prim options (CallSetup.placeCall peerAddress id supports secret now').move =
        app.placeCall prim options peerAddress id supports secret now' := rfl
    by_cases hlive : app.live = true
    · have hbusy : app.placeCall prim options peerAddress id supports secret now' =
          app.throw (.error "a call is already in progress") := if_pos hlive
      have hrest := possible.2.2
      rw [hplace, hbusy] at hrest
      obtain rfl := settlements_nil rfl hrest
      rw [performAll_setupMoves, hplace, hbusy]
      exact iff_of_true ⟨by simp [performAll, throw, emit], Or.inl rfl⟩ (Or.inl hlive)
    · have hdead : app.live = false := Bool.not_eq_true _ ▸ hlive
      cases hencrypts : options.requireFrameEncryption && !supports with
      | false =>
        refine iff_of_false ((placeCall_begins hdead hencrypts peerAddress id secret now').not_rolledBack _ _ _) ?_
        rintro (hlive' | hrefuses)
        · exact hlive hlive'
        · rw [hencrypts] at hrefuses
          cases hrefuses
      | true =>
        have hrefused : app.placeCall prim options peerAddress id supports secret now' = (app.withClosed supports).throw
            (.error "this device cannot encrypt call media end to end; refusing to place an unprotected call") := by
          unfold placeCall
          rw [if_neg hlive, if_pos hencrypts, closeMediaEngine_created]
        have hrest := possible.2.2
        rw [hplace, hrefused] at hrest
        obtain rfl := settlements_nil rfl hrest
        rw [performAll_setupMoves, hplace, hrefused]
        exact iff_of_true (withClosed_rolledBack rfl (Or.inl rfl)) (Or.inr hencrypts)
  | answerCall supports =>
    have hanswer : app.perform prim options (CallSetup.answerCall supports).move = app.answerCall prim options supports := rfl
    cases hcall : app.answerable with
    | none =>
      have hnothing : app.answerCall prim options supports = app.throw (.error "no incoming call to answer") := by
        unfold answerCall
        rw [hcall]
      have hrest := possible.2.2
      rw [hanswer, hnothing] at hrest
      obtain rfl := settlements_nil rfl hrest
      rw [performAll_setupMoves, hanswer, hnothing]
      exact iff_of_true ⟨by simp [performAll, throw, emit], Or.inl rfl⟩ (Or.inl hcall)
    | some call =>
      cases hencrypts : options.requireFrameEncryption && !supports with
      | false =>
        refine iff_of_false ((answerCall_begins hcall hencrypts).not_rolledBack _ _ _) ?_
        rintro (hnone | ⟨hrefuses, -⟩)
        · rw [hcall] at hnone
          cases hnone
        · rw [hencrypts] at hrefuses
          cases hrefuses
      | true =>
        rw [refused_rolledBack hcall hencrypts hsecret possible rejects]
        refine ⟨fun hrejected => Or.inr ⟨hencrypts, hrejected⟩, ?_⟩
        rintro (hnone | ⟨-, hrejected⟩)
        · rw [hcall] at hnone
          cases hnone
        · exact hrejected

/-- Placing and answering a call, where they fail, are rolled back exactly when they fail before they have begun; and
whatever has happened meanwhile, the step at which a method that sets a call up throws leaves the call as it stands. -/
theorem setup_rolledBack_iff {start : CallApp K} (hstart : Start start)
    (run : Relation.ReflTransGen (Step prim options (fun _ _ => True)) start app) (setup : CallSetup K)
    (settlements : List Settlement) (resolvePeerIdentity : String → Option PublicIdentity) (now : Int)
    (possible : app.PossibleAll prim options (fun _ _ => True) (app.setupMoves setup settlements resolvePeerIdentity now))
    (rejects : app.Rejects prim options (app.setupMoves setup settlements resolvePeerIdentity now)) :
    (app.RolledBack (app.performAll prim options (app.setupMoves setup settlements resolvePeerIdentity now)) ↔
      app.Unbegun options setup settlements) ∧
      ∀ (later : CallApp K) (index number : Nat) (task : Suspended K), later.suspended[index]? = some (number, task) →
        task.settingUp = true → ∀ settlement resolvePeerIdentity now,
          later.Throws (later.perform prim options (.resume index settlement resolvePeerIdentity now)) →
            later.Abandons (later.perform prim options (.resume index settlement resolvePeerIdentity now)) := by
  refine ⟨perform_rolledBack_iff (hstart.keepsSecret.run run) setup settlements resolvePeerIdentity now possible rejects, ?_⟩
  intro later index number task htask hsetup settlement resolvePeerIdentity now throws
  simp only [perform, htask] at throws ⊢
  have habandons : ({ later with suspended := later.suspended.eraseIdx index } : CallApp K).Abandons _ :=
    resume_abandons hsetup number settlement resolvePeerIdentity now throws
  exact ⟨habandons.current, habandons.engine, habandons.keys, habandons.mediaSecret, habandons.closings⟩

end

/-- A call that rings, and is answered without an identity of its caller: its engine stays open. -/
theorem setup_rolledBack_iff_unverified : ∃ app : CallApp (List Bytes), app.live = true ∧
    ¬ app.RolledBack (app.performAll spelledCalls callOptions
      (app.setupMoves (.answerCall true) [.described "sdp" "own"] (fun _ => none) 0)) := by
  let start : CallApp (List Bytes) := { buffers := fun _ => [] }
  let ringing := performAll spelledCalls callOptions start [.handleSignal "caller" (.offer "ca" "b0E" "sdp" "theirs") 0]
  have run : Relation.ReflTransGen (Step spelledCalls callOptions (fun _ _ => True)) start ringing :=
    reaches_performAll (by decide +kernel)
  refine ⟨ringing, by decide +kernel, ?_⟩
  rw [(setup_rolledBack_iff ⟨_, rfl⟩ run (.answerCall true) [.described "sdp" "own"] (fun _ => none) 0 (by decide +kernel)
    ⟨[], .error "no verified identity for the call peer", rfl⟩).1]
  rintro (hnone | ⟨hrefuses, -⟩)
  · have hsome : ringing.answerable.isSome = true := by decide +kernel
    rw [hnone] at hsome
    cases hsome
  · cases hrefuses

/-- The engine fails to create an offer: the microphone stays open, and every later call is refused. -/
theorem failed_offer_remains : ∃ app : CallApp (List Bytes),
    Rejects spelledCalls callOptions { buffers := fun _ => [] }
      [.placeCall "callee" [0xca] true [[7]] 0, .resume 0 .rejected resolves 0] ∧
    app = performAll spelledCalls callOptions { buffers := fun _ => [] }
      [.placeCall "callee" [0xca] true [[7]] 0, .resume 0 .rejected resolves 0] ∧
    app.suspended.length = 0 ∧ app.closings = [false] ∧ app.mediaSecret = some (.mediaRootSecret 0) ∧
      ¬ RolledBack { buffers := fun _ => [] } app ∧
      ∀ peerAddress id supports secret now, app.placeCall spelledCalls callOptions peerAddress id supports secret now =
        app.throw (.error "a call is already in progress") := by
  refine ⟨_, ⟨[], .mediaEngine, rfl⟩, rfl, rfl, rfl, rfl, not_rolledBack rfl, fun _ _ _ _ _ => if_pos rfl⟩

end CallApp

end Veil
