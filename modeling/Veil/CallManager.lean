import Veil.CallKeys

namespace Veil

inductive CallDirection
  | outgoing
  | incoming
  deriving DecidableEq, Repr

inductive CallState
  | idle
  | ringingOutgoing
  | ringingIncoming
  | connecting
  | connected
  | ended
  deriving DecidableEq, Repr

structure CallInfo where
  callId : String
  peerAddress : String
  direction : CallDirection
  state : CallState
  sas : Option String := none
  sasDigits : Option String := none
  sasConfirmed : Option Bool := none
  startedAt : Option Int := none
  endedAt : Option Int := none
  endReason : Option String := none
  deriving DecidableEq

/-- The payloads `handleSignal` consumes. -/
inductive CallSignal
  | offer (callId mediaSecret sdp dtlsFingerprint : String)
  | answer (callId sdp dtlsFingerprint : String)
  | ice (callId candidate : String)
  | hangup (callId reason : String)
  deriving DecidableEq

/-- A buffer that holds a secret of a call, numbered in the order of allocation. -/
inductive SecretBuffer
  | mediaRootSecret (number : Nat)
  | sendKey (number : Nat)
  | receiveKey (number : Nat)
  deriving DecidableEq

/-- A `WebRtcMediaEngine`: the handlers attached to it, the descriptions it may have by now with the fingerprint it has
reported, the peer's candidates it was given, and its frame pipeline. -/
structure MediaEngine where
  supportsFrameEncryption : Bool
  handlers : Option (String × String) := none
  hasLocalDescription : Bool := false
  hasRemoteDescription : Bool := false
  dtlsFingerprint : Option String := none
  remoteCandidates : List String := []
  sframeSender : Option (SframeSender SecretBuffer) := none
  sframeReceiver : Option SecretBuffer := none
  closed : Bool := false
  deriving DecidableEq

/-- `installFrameKeys`, as far as it runs when it is called, and whether it gets there without throwing. -/
def MediaEngine.installFrameKeys {K : Type} (prim : CallPrimitives K) (buffers : SecretBuffer → K)
    (keys : CallKeyMaterial SecretBuffer) (media : MediaEngine) : MediaEngine × Bool :=
  if ¬media.supportsFrameEncryption then (media, false)
  else
    match createSender prim.toFramePrimitives (buffers keys.sendKey) with
    | .error _ => (media, false)
    | .ok sender =>
      let media := { media with sframeSender := some ⟨keys.sendKey, sender.counter⟩ }
      match createReceiver prim.toFramePrimitives (buffers keys.receiveKey) with
      | .error _ => (media, false)
      | .ok _ => ({ media with sframeReceiver := some keys.receiveKey }, true)

/-- A call of `installFrameKeys`: the call it was made for, by number and by what the manager had, and the engine. -/
structure KeyInstall (K : Type) where
  call : Nat
  callId : String
  peerAddress : String
  engine : Nat
  peerIdentity : PublicIdentity
  role : CallRole
  localFingerprint : String
  remoteFingerprint : String
  mediaRootSecret : K
  number : Nat
  keys : CallKeyMaterial K

/-- What follows `deriveAndInstallKeys` in its two callers. -/
inductive AfterKeys
  | sendAnswer (call : CallInfo) (sdp dtlsFingerprint : String)
  | connecting

/-- An asynchronous method waiting for a promise, with what the rest of it uses. -/
inductive Suspended (K : Type)
  | creatingOffer (engine : Nat) (peerAddress callId : String) (secret : SecretBuffer)
  | sendingOffer
  | refusingAnswer (call : CallInfo)
  | sendingRefusal
  | creatingAnswer (engine : Nat) (call : CallInfo)
  | acceptingAnswer
  | installingKeys (call : CallInfo) (install : Option (KeyInstall K)) (accepted : Bool) (next : AfterKeys)
  | keysInstalled (next : AfterKeys)
  | sendingAnswer
  | notifyingEnd (reason : String)
  | closingEngine (engine : Option Nat) (reason : String)

/-- How a promise settles; creating an offer or an answer settles with a description. -/
inductive Settlement
  | resolved
  | described (sdp dtlsFingerprint : String)
  | rejected
  deriving DecidableEq

inductive CallError
  | error (message : String)
  | failure (failure : Failure)
  | mediaEngine
  | signalling
  | missingKeys

/-- What a call shows to the outside. -/
inductive CallEvent
  | signal (peerAddress : String) (signal : CallSignal)
  | stateChange (call : CallInfo)
  | sasAvailable (call : CallInfo)
  | thrown (error : CallError)

structure CallManagerOptions where
  selfIdentity : PublicIdentity
  requireFrameEncryption : Bool := true

/-- The `CallManager` with its engines, the contents of its buffers and the methods that wait. `begun` counts the calls
begun, and each waiting method carries the number of the call it was started in. The last fields record what engines have
reported, the calls of `installFrameKeys` made and completed, and the keys and nonces frames were sealed with. -/
structure CallApp (K : Type) where
  current : Option CallInfo := none
  engine : Option Nat := none
  keys : Option (CallKeyMaterial SecretBuffer) := none
  mediaSecret : Option SecretBuffer := none
  localFingerprint : Option String := none
  remoteFingerprint : Option String := none
  pendingOfferSdp : Option String := none
  engines : List MediaEngine := []
  buffers : SecretBuffer → K
  allocated : Nat := 0
  begun : Nat := 0
  suspended : List (Nat × Suspended K) := []
  events : List CallEvent := []
  reported : List String := []
  installing : List (KeyInstall K) := []
  installed : List (KeyInstall K) := []
  sealedWith : List (AeadKeys K) := []

/-- A string that is not falsy. -/
def given (text : Option String) : Option String := text.filter (fun text => text ≠ "")

namespace CallApp

variable {K : Type} (prim : CallPrimitives K) (options : CallManagerOptions)

def emit (event : CallEvent) (app : CallApp K) : CallApp K := { app with events := app.events ++ [event] }

def throw (error : CallError) (app : CallApp K) : CallApp K := app.emit (.thrown error)

def suspend (number : Nat) (task : Suspended K) (app : CallApp K) : CallApp K :=
  { app with suspended := app.suspended ++ [(number, task)] }

def setCurrent (call : CallInfo) (app : CallApp K) : CallApp K :=
  ({ app with current := some call }).emit (.stateChange call)

def setState (state : CallState) (extra : CallInfo → CallInfo) (app : CallApp K) : CallApp K :=
  let current := app.current.map (fun call => { extra call with state })
  { app with current, events := app.events ++ current.toList.map .stateChange }

/-- `this.engine?` and its method. -/
def modifyEngine (engine : Option Nat) (f : MediaEngine → MediaEngine) (app : CallApp K) : CallApp K :=
  { app with engines := engine.elim app.engines (fun engine => app.engines.modify engine f) }

def createMediaEngine (media : MediaEngine) (app : CallApp K) : CallApp K :=
  { app with engines := app.engines ++ [media] }

def fill (buffer : SecretBuffer) (content : K) (app : CallApp K) : CallApp K :=
  { app with buffers := Function.update app.buffers buffer content }

/-- `buffer?.fill(0)` -/
def wipe (buffer : Option SecretBuffer) (app : CallApp K) : CallApp K :=
  { app with buffers := buffer.elim app.buffers (fun buffer =>
      Function.update app.buffers buffer (prim.wiped (app.buffers buffer))) }

def live (app : CallApp K) : Bool := app.current.any (fun call => call.state ≠ .ended)

/-- `MediaEngine.close`: the pipeline ends and its keys are wiped. -/
def closeMediaEngine (engine : Option Nat) (app : CallApp K) : CallApp K :=
  let media := engine.bind (fun engine => app.engines[engine]?)
  let app := app.wipe prim (media.bind (fun media => media.sframeSender.map (fun sender => sender.key)))
  let app := app.wipe prim (media.bind (fun media => media.sframeReceiver))
  app.modifyEngine engine (fun media => { media with sframeSender := none, sframeReceiver := none, closed := true })

def placeCall (peerAddress : String) (id : Bytes) (supports : Bool) (secret : K) (now : Int) (app : CallApp K) :
    CallApp K :=
  if app.live then app.throw (.error "a call is already in progress")
  else
    let engine := app.engines.length
    if options.requireFrameEncryption && !supports then
      ((app.createMediaEngine { supportsFrameEncryption := supports }).closeMediaEngine prim (some engine)).throw
        (.error "this device cannot encrypt call media end to end; refusing to place an unprotected call")
    else
      let callId := toHex id
      let buffer := SecretBuffer.mediaRootSecret app.allocated
      let app := app.createMediaEngine { supportsFrameEncryption := supports, handlers := some (peerAddress, callId)
                                         hasLocalDescription := true }
      let app := { app with
        current := some { callId, peerAddress, direction := .outgoing, state := .ringingOutgoing, startedAt := some now }
        begun := app.begun + 1
        engine := some engine
        allocated := app.allocated + 1
        mediaSecret := some buffer }
      (app.fill buffer secret).suspend app.begun (.creatingOffer engine peerAddress callId buffer)

def onOffer (peerAddress callId mediaSecret sdp dtlsFingerprint : String) (now : Int) (app : CallApp K) : CallApp K :=
  if app.live then app.emit (.signal peerAddress (.hangup callId "busy"))
  else
    let call : CallInfo :=
      { callId, peerAddress, direction := .incoming, state := .ringingIncoming, startedAt := some now }
    let app := { app with current := some call, begun := app.begun + 1 }
    match prim.secretFromText mediaSecret with
    | .error e => app.throw (.failure e)
    | .ok secret =>
      let buffer := SecretBuffer.mediaRootSecret app.allocated
      let app := { app with
        allocated := app.allocated + 1
        mediaSecret := some buffer
        remoteFingerprint := some dtlsFingerprint
        pendingOfferSdp := some sdp }
      (app.fill buffer secret).emit (.stateChange call)

/-- The call `answerCall` would answer. -/
def answerable (app : CallApp K) : Option CallInfo :=
  if (given app.pendingOfferSdp).isSome then app.current.filter (fun call => call.state = .ringingIncoming) else none

def answerCall (supports : Bool) (app : CallApp K) : CallApp K :=
  match app.answerable with
  | none => app.throw (.error "no incoming call to answer")
  | some call =>
    let engine := app.engines.length
    if options.requireFrameEncryption && !supports then
      ((app.createMediaEngine { supportsFrameEncryption := supports }).closeMediaEngine prim (some engine)).suspend app.begun (.refusingAnswer call)
    else
      let app := app.createMediaEngine { supportsFrameEncryption := supports
                                         handlers := some (call.peerAddress, call.callId)
                                         hasLocalDescription := true, hasRemoteDescription := true }
      ({ app with engine := some engine } : CallApp K).suspend app.begun (.creatingAnswer engine call)

/-- The call an answer is for. -/
def answered (peerAddress callId : String) (app : CallApp K) : Option CallInfo :=
  app.current.filter (fun call => call.callId = callId ∧ call.peerAddress = peerAddress)

def onAnswer (peerAddress callId dtlsFingerprint : String) (app : CallApp K) : CallApp K :=
  match app.answered peerAddress callId with
  | none => app
  | some _ =>
    let app := { app with remoteFingerprint := some dtlsFingerprint }
    (app.modifyEngine app.engine (fun media => { media with hasRemoteDescription := true })).suspend app.begun
      .acceptingAnswer

/-- The caller's and the callee's half of what is bound into the keys. -/
def callParams (role : CallRole) (selfIdentity peerIdentity : PublicIdentity) (callId localFingerprint
    remoteFingerprint : String) : CallParams where
  role
  callerIdentity := if role = .caller then selfIdentity else peerIdentity
  calleeIdentity := if role = .caller then peerIdentity else selfIdentity
  callId := utf8 callId
  callerDtlsFingerprint := utf8 (if role = .caller then localFingerprint else remoteFingerprint)
  calleeDtlsFingerprint := utf8 (if role = .caller then remoteFingerprint else localFingerprint)

/-- The call of `installFrameKeys` for derived keys, if there is an engine. -/
def keyInstall (number : Nat) (call : CallInfo) (role : CallRole) (peerIdentity : PublicIdentity)
    (localFingerprint remoteFingerprint : String) (mediaRootSecret : K) (derived : CallKeyMaterial K) (app : CallApp K) :
    Option (KeyInstall K) :=
  app.engine.map (fun engine =>
    { call := number, callId := call.callId, peerAddress := call.peerAddress, engine, peerIdentity, role
      localFingerprint, remoteFingerprint, mediaRootSecret, number := app.allocated, keys := derived })

/-- `this.keys = deriveCallKeys(...)` and the call of `installFrameKeys`. -/
def installDerived (number : Nat) (call : CallInfo) (role : CallRole) (peerIdentity : PublicIdentity)
    (localFingerprint remoteFingerprint : String) (mediaRootSecret : K) (derived : CallKeyMaterial K) (next : AfterKeys)
    (app : CallApp K) : CallApp K :=
  let keys : CallKeyMaterial SecretBuffer :=
    { derived with sendKey := .sendKey app.allocated, receiveKey := .receiveKey app.allocated }
  let install := app.keyInstall number call role peerIdentity localFingerprint remoteFingerprint mediaRootSecret derived
  let app := (({ app with keys := some keys, allocated := app.allocated + 1 } : CallApp K).fill keys.sendKey
    derived.sendKey).fill keys.receiveKey derived.receiveKey
  let accepted := (app.engine.bind (fun engine => app.engines[engine]?)).all
    (fun media => (media.installFrameKeys prim app.buffers keys).2)
  let app := app.modifyEngine app.engine (fun media => (media.installFrameKeys prim app.buffers keys).1)
  ({ app with installing := app.installing ++ install.toList } : CallApp K).suspend number
    (.installingKeys call install accepted next)

def deriveAndInstallKeys (number : Nat) (role : CallRole) (resolvePeerIdentity : String → Option PublicIdentity)
    (next : AfterKeys) (app : CallApp K) : CallApp K :=
  match app.current, app.mediaSecret, given app.localFingerprint, given app.remoteFingerprint with
  | some call, some secret, some localFingerprint, some remoteFingerprint =>
    match resolvePeerIdentity call.peerAddress with
    | none => app.throw (.error "no verified identity for the call peer")
    | some peerIdentity =>
      match deriveCallKeys prim (app.buffers secret)
        (callParams role options.selfIdentity peerIdentity call.callId localFingerprint remoteFingerprint) with
      | .error e => app.throw (.failure e)
      | .ok derived => app.installDerived prim number call role peerIdentity localFingerprint remoteFingerprint
          (app.buffers secret) derived next
  | _, _, _, _ => app.throw (.error "cannot derive call keys before setup completes")

/-- The rest of `deriveAndInstallKeys`. -/
def showSas (number : Nat) (call : CallInfo) (next : AfterKeys) (app : CallApp K) : CallApp K :=
  match app.keys with
  | none => app.throw .missingKeys
  | some keys =>
    let call := { call with sas := some keys.sas, sasDigits := some keys.sasDigits }
    (({ app with current := some call } : CallApp K).emit (.sasAvailable call)).emit (.stateChange call)
      |>.suspend number (.keysInstalled next)

/-- `await this.engine?.close()` in `endCall`. -/
def closeCurrentEngine (number : Nat) (reason : String) (app : CallApp K) : CallApp K :=
  (app.closeMediaEngine prim app.engine).suspend number (.closingEngine app.engine reason)

def endCall (reason : String) (notify : Bool) (app : CallApp K) : CallApp K :=
  match app.current with
  | none => app
  | some call =>
    if notify && call.state ≠ .ended then
      (app.emit (.signal call.peerAddress (.hangup call.callId reason))).suspend app.begun (.notifyingEnd reason)
    else app.closeCurrentEngine prim app.begun reason

def handleSignal (peerAddress : String) (signal : CallSignal) (now : Int) (app : CallApp K) : CallApp K :=
  match signal with
  | .offer callId mediaSecret sdp dtlsFingerprint =>
    app.onOffer prim peerAddress callId mediaSecret sdp dtlsFingerprint now
  | .answer callId _ dtlsFingerprint => app.onAnswer peerAddress callId dtlsFingerprint
  | .ice callId candidate =>
    if app.current.any (fun call => call.callId = callId) then
      app.modifyEngine app.engine (fun media => { media with remoteCandidates := media.remoteCandidates ++ [candidate] })
    else app
  | .hangup callId reason =>
    if app.current.any (fun call => call.callId = callId) then app.endCall prim reason false else app

def confirmSas (app : CallApp K) : CallApp K :=
  match app.current with
  | none => app
  | some call => app.setCurrent { call with sasConfirmed := some true }

/-- The call the handlers attached to an engine belong to, where it is the current one. -/
def handled (engine : Nat) (app : CallApp K) : Option CallInfo :=
  (app.engines[engine]?.bind (fun media => media.handlers)).bind (fun (_, callId) =>
    app.current.filter (fun call => call.callId = callId))

def onLocalCandidate (engine : Nat) (candidate : String) (app : CallApp K) : CallApp K :=
  match app.engines[engine]?.bind (fun media => media.handlers) with
  | none => app
  | some (peerAddress, callId) => app.emit (.signal peerAddress (.ice callId candidate))

def onConnected (engine : Nat) (app : CallApp K) : CallApp K :=
  if (app.handled engine).isSome then app.setState .connected id else app

def onDisconnected (engine : Nat) (app : CallApp K) : CallApp K :=
  if (app.handled engine).isSome then app.endCall prim "disconnected" false else app

/-- The key and nonce `encryptFrame` seals the next frame with, if it gets that far. -/
def nextFrameKeys (sender : SframeSender K) : Option (AeadKeys K) :=
  if sender.counter > maxFrameCounter then none
  else (frameKeys prim.toFramePrimitives sender.key sender.counter).toOption

/-- An outgoing media frame passes through the engine's transform. -/
def transformFrame (engine : Nat) (frame : Bytes) (app : CallApp K) : CallApp K :=
  match app.engines[engine]?.bind (fun media => media.sframeSender) with
  | none => app
  | some sender =>
    let content : SframeSender K := ⟨app.buffers sender.key, sender.counter⟩
    let sent := (encryptFrame prim.toFramePrimitives content frame []).1
    ({ app with sealedWith := app.sealedWith ++ (nextFrameKeys prim content).toList } : CallApp K).modifyEngine
      (some engine) (fun media => { media with sframeSender := some ⟨sender.key, sent.counter⟩ })

/-- The end of `endCall`. -/
def clearCall (reason : String) (now : Int) (app : CallApp K) : CallApp K :=
  let app := app.wipe prim (app.keys.map (fun keys => keys.sendKey))
  let app := app.wipe prim (app.keys.map (fun keys => keys.receiveKey))
  let app := app.wipe prim app.mediaSecret
  let app := { app with
    engine := none, keys := none, mediaSecret := none, localFingerprint := none, remoteFingerprint := none
    pendingOfferSdp := none }
  app.setState .ended (fun call => { call with endedAt := some now, endReason := some reason })

/-- `this.localFingerprint = description.dtlsFingerprint` -/
def report (engine : Nat) (dtlsFingerprint : String) (app : CallApp K) : CallApp K :=
  ({ app with localFingerprint := some dtlsFingerprint, reported := app.reported ++ [dtlsFingerprint] } : CallApp K)
    |>.modifyEngine (some engine) (fun media => { media with dtlsFingerprint := some dtlsFingerprint })

/-- The rest of a waiting method up to its next promise. -/
def resume (number : Nat) (task : Suspended K) (settlement : Settlement)
    (resolvePeerIdentity : String → Option PublicIdentity) (now : Int) (app : CallApp K) : CallApp K :=
  match task, settlement with
  | .creatingOffer engine peerAddress callId secret, .described sdp dtlsFingerprint =>
    let app := app.report engine dtlsFingerprint
    (app.emit (.signal peerAddress (.offer callId (prim.secretText (app.buffers secret)) sdp dtlsFingerprint))).suspend
      number .sendingOffer
  | .sendingOffer, .resolved => { app with events := app.events ++ app.current.toList.map .stateChange }
  | .refusingAnswer call, .resolved =>
    (app.emit (.signal call.peerAddress (.hangup call.callId "frame-encryption-unavailable"))).suspend number
      .sendingRefusal
  | .sendingRefusal, .resolved =>
    (app.setState .ended (fun call => { call with endReason := some "frame-encryption-unavailable" })).throw
      (.error "this device cannot encrypt call media end to end; refusing to answer")
  | .creatingAnswer engine call, .described sdp dtlsFingerprint =>
    let app := { app.report engine dtlsFingerprint with pendingOfferSdp := none }
    app.deriveAndInstallKeys prim options number .callee resolvePeerIdentity (.sendAnswer call sdp dtlsFingerprint)
  | .acceptingAnswer, .resolved =>
    app.deriveAndInstallKeys prim options number .caller resolvePeerIdentity .connecting
  | .installingKeys call install _ next, .resolved =>
    ({ app with installed := app.installed ++ install.toList } : CallApp K).showSas number call next
  | .keysInstalled (.sendAnswer call sdp dtlsFingerprint), .resolved =>
    (app.emit (.signal call.peerAddress (.answer call.callId sdp dtlsFingerprint))).suspend number .sendingAnswer
  | .keysInstalled .connecting, .resolved => app.setState .connecting id
  | .sendingAnswer, .resolved => app.setState .connecting id
  | .notifyingEnd reason, .resolved => app.closeCurrentEngine prim number reason
  | .notifyingEnd reason, .rejected => app.closeCurrentEngine prim number reason
  | .closingEngine _ reason, .resolved => app.clearCall prim reason now
  | .sendingOffer, .rejected => app.throw .signalling
  | .sendingRefusal, .rejected => app.throw .signalling
  | .sendingAnswer, .rejected => app.throw .signalling
  | _, .rejected => app.throw .mediaEngine
  | _, _ => app

end CallApp

end Veil
