import Veil.ForeignSignals

namespace Veil

def SecretBuffer.number : SecretBuffer → Nat
  | .mediaRootSecret number | .sendKey number | .receiveKey number => number

/-- The method is refusing a call. -/
def Suspended.refuses {K : Type} : Suspended K → Bool
  | .refusingAnswer _ | .sendingRefusal => true
  | _ => false

namespace CallApp

section

variable {K : Type}

structure Cleared (app : CallApp K) : Prop where
  keys : app.keys = none
  mediaSecret : app.mediaSecret = none
  localFingerprint : app.localFingerprint = none
  remoteFingerprint : app.remoteFingerprint = none
  pendingOfferSdp : app.pendingOfferSdp = none

/-- The buffer is the call's media root secret or one of its keys. -/
def Holds (app : CallApp K) (buffer : SecretBuffer) : Prop :=
  app.mediaSecret = some buffer ∨ ∃ keys, app.keys = some keys ∧ (keys.sendKey = buffer ∨ keys.receiveKey = buffer)

/-- The buffer contains what wiping leaves. -/
def Zeroed (prim : CallPrimitives K) (app : CallApp K) (buffer : SecretBuffer) : Prop :=
  ∃ content, app.buffers buffer = prim.wiped content

/-- Keys that are still there are not derived again. -/
def DerivesOnce (app : CallApp K) (localFingerprint : Option String)
    (resolvePeerIdentity : String → Option PublicIdentity) : Prop :=
  app.keys.isSome → app.mediaSecret.isSome → (given localFingerprint).isSome → (given app.remoteFingerprint).isSome →
    ∀ call ∈ app.current, resolvePeerIdentity call.peerAddress = none

/-- What resumes is in time: an engine's description finds a live call, and keys are derived once. -/
def InTime (app : CallApp K) (settlement : Settlement) (resolvePeerIdentity : String → Option PublicIdentity) :
    Suspended K → Prop
  | .creatingOffer .. => app.live = true
  | .creatingAnswer .. => app.live = true ∧
      ∀ sdp dtlsFingerprint, settlement = .described sdp dtlsFingerprint →
        app.DerivesOnce (some dtlsFingerprint) resolvePeerIdentity
  | .acceptingAnswer => app.DerivesOnce app.localFingerprint resolvePeerIdentity
  | _ => True

/-- By the time a refusal has been sent its call has ended otherwise, and a call that has begun since has no secrets yet. -/
def Lapsed (app : CallApp K) : Suspended K → Prop
  | .sendingRefusal => app.live = true → app.Cleared
  | _ => True

/-- An answer is taken up by a live call, and what resumes is in time. -/
def Erasing (app : CallApp K) : CallMove K → Prop
  | .handleSignal peerAddress (.answer callId _ _) _ => (app.answered peerAddress callId).isSome → app.live = true
  | .resume index settlement resolvePeerIdentity _ => settlement ≠ .rejected →
      ∀ entry ∈ app.suspended[index]?, app.InTime settlement resolvePeerIdentity entry.2
  | _ => True

/-- No refusal ends a live call that has secrets. -/
def Unrefused (app : CallApp K) : CallMove K → Prop
  | .resume index settlement _ _ => settlement ≠ .rejected → ∀ entry ∈ app.suspended[index]?, app.Lapsed entry.2
  | _ => True

/-- The device encrypts media, if it has to. -/
def Encrypts (options : CallManagerOptions) : CallMove K → Prop
  | .answerCall supports => options.requireFrameEncryption = true → supports = true
  | _ => True

/-- No refusal is on its way. -/
def Unrefusing (app : CallApp K) : Prop := ∀ entry ∈ app.suspended, entry.2.refuses = false

/-- No call's secrets outlive it, and of the buffers watched each is still a live call's or wiped. -/
structure Accounted (prim : CallPrimitives K) (watched : SecretBuffer → Prop) (app : CallApp K) : Prop where
  cleared : app.live = false → app.Cleared
  waiting : ∀ number call install accepted after, (number, .installingKeys call install accepted after) ∈ app.suspended →
    call.state ≠ .ended
  within : ∀ buffer, app.Holds buffer → buffer.number < app.allocated
  watched : ∀ buffer, watched buffer → buffer.number < app.allocated ∧ (app.Holds buffer ∨ app.Zeroed prim buffer)

end

section

variable {K : Type} {prim : CallPrimitives K} {options : CallManagerOptions} {watched : SecretBuffer → Prop}
  {app next : CallApp K}

theorem Cleared.holds (h : app.Cleared) (buffer : SecretBuffer) : ¬app.Holds buffer := by
  rintro (hsecret | ⟨keys, hkeys, _⟩)
  · rw [h.mediaSecret] at hsecret
    cases hsecret
  · rw [h.keys] at hkeys
    cases hkeys

/-- What leaves the call's secrets in place, and no buffer but a wiped one fuller than it was. -/
theorem Accounted.aside (h : Accounted prim watched app) (live : next.live = false → app.live = false)
    (keys : next.keys = app.keys) (mediaSecret : next.mediaSecret = app.mediaSecret)
    (cleared : next.live = false → app.Cleared → next.Cleared) (allocated : next.allocated = app.allocated)
    (buffers : ∀ buffer, app.Zeroed prim buffer → next.Zeroed prim buffer)
    (waiting : ∀ number call install accepted after,
      (number, .installingKeys call install accepted after) ∈ next.suspended →
        (number, .installingKeys call install accepted after) ∈ app.suspended) : Accounted prim watched next := by
  have hholds : ∀ buffer, next.Holds buffer ↔ app.Holds buffer := by
    intro buffer
    rw [Holds, Holds, keys, mediaSecret]
  refine ⟨fun hdead => cleared hdead (h.cleared (live hdead)), ?_, fun buffer hin => ?_, fun buffer hin => ?_⟩
  · exact fun number call install accepted after hmem =>
      h.waiting number call install accepted after (waiting _ _ _ _ _ hmem)
  · rw [allocated]
    exact h.within buffer ((hholds buffer).mp hin)
  · rw [allocated, hholds]
    obtain ⟨hlt, hkept⟩ := h.watched buffer hin
    exact ⟨hlt, hkept.imp_right (buffers buffer)⟩

/-- What changes none of the call, its secrets and the buffers. -/
theorem Accounted.same (h : Accounted prim watched app) (current : next.current = app.current) (keys : next.keys = app.keys)
    (mediaSecret : next.mediaSecret = app.mediaSecret) (localFingerprint : next.localFingerprint = app.localFingerprint)
    (remoteFingerprint : next.remoteFingerprint = app.remoteFingerprint)
    (pendingOfferSdp : next.pendingOfferSdp = app.pendingOfferSdp) (allocated : next.allocated = app.allocated)
    (buffers : ∀ buffer, app.Zeroed prim buffer → next.Zeroed prim buffer)
    (waiting : ∀ number call install accepted after,
      (number, .installingKeys call install accepted after) ∈ next.suspended →
        (number, .installingKeys call install accepted after) ∈ app.suspended) : Accounted prim watched next := by
  have hlive : next.live = app.live := by rw [live, live, current]
  refine h.aside (fun hdead => hlive ▸ hdead) keys mediaSecret (fun _ hcleared => ?_) allocated buffers waiting
  exact ⟨keys.trans hcleared.keys, mediaSecret.trans hcleared.mediaSecret,
    localFingerprint.trans hcleared.localFingerprint, remoteFingerprint.trans hcleared.remoteFingerprint,
    pendingOfferSdp.trans hcleared.pendingOfferSdp⟩

theorem wipe_zeroed {buffer : SecretBuffer} (target : Option SecretBuffer) (h : app.Zeroed prim buffer) :
    (app.wipe prim target).Zeroed prim buffer := by
  cases target with
  | none => exact h
  | some target =>
    by_cases heq : buffer = target
    · exact ⟨app.buffers target, by simp [wipe, heq]⟩
    · obtain ⟨content, hcontent⟩ := h
      exact ⟨content, by simp [wipe, heq, hcontent]⟩

theorem wipe_self (buffer : SecretBuffer) : (app.wipe prim (some buffer)).Zeroed prim buffer :=
  ⟨app.buffers buffer, by simp [wipe]⟩

theorem Accounted.emit (h : Accounted prim watched app) (event : CallEvent) : Accounted prim watched (app.emit event) :=
  h.same rfl rfl rfl rfl rfl rfl rfl (fun _ hz => hz) (fun _ _ _ _ _ hmem => hmem)

theorem Accounted.suspend (h : Accounted prim watched app) (number : Nat) {task : Suspended K}
    (installs : ∀ call install accepted after, task = .installingKeys call install accepted after → call.state ≠ .ended) :
    Accounted prim watched (app.suspend number task) := by
  refine ⟨fun hdead => ?_, fun n call install accepted after hmem => ?_, h.within, h.watched⟩
  · obtain ⟨hkeys, hsecret, hlocal, hremote, hpending⟩ := h.cleared hdead
    exact ⟨hkeys, hsecret, hlocal, hremote, hpending⟩
  · rcases List.mem_append.mp hmem with hmem | hmem
    · exact h.waiting n call install accepted after hmem
    · exact installs call install accepted after (Prod.mk.inj (List.mem_singleton.mp hmem)).2.symm

theorem Accounted.modifyEngine (h : Accounted prim watched app) (engine : Option Nat) (f : MediaEngine → MediaEngine) :
    Accounted prim watched (app.modifyEngine engine f) :=
  h.same rfl rfl rfl rfl rfl rfl rfl (fun _ hz => hz) (fun _ _ _ _ _ hmem => hmem)

theorem Accounted.createMediaEngine (h : Accounted prim watched app) (media : MediaEngine) :
    Accounted prim watched (app.createMediaEngine media) :=
  h.same rfl rfl rfl rfl rfl rfl rfl (fun _ hz => hz) (fun _ _ _ _ _ hmem => hmem)

theorem Accounted.closeMediaEngine (h : Accounted prim watched app) (engine : Option Nat) :
    Accounted prim watched (app.closeMediaEngine prim engine) := by
  refine h.same rfl rfl rfl rfl rfl rfl rfl (fun buffer hz => ?_) (fun _ _ _ _ _ hmem => hmem)
  exact wipe_zeroed _ (wipe_zeroed _ hz)

theorem Accounted.closeCurrentEngine (h : Accounted prim watched app) (number : Nat) (reason : String) :
    Accounted prim watched (app.closeCurrentEngine prim number reason) :=
  (h.closeMediaEngine app.engine).suspend number (fun _ _ _ _ => nofun)

theorem Accounted.endCall (h : Accounted prim watched app) (reason : String) (notify : Bool) :
    Accounted prim watched (app.endCall prim reason notify) := by
  unfold CallApp.endCall
  split
  next => exact h
  next =>
    split
    next => exact (h.emit _).suspend _ (fun _ _ _ _ => nofun)
    next => exact h.closeCurrentEngine _ reason

/-- A state other than the last leaves the call live, if there is one. -/
theorem Accounted.setState (h : Accounted prim watched app) {state : CallState} (open' : state ≠ .ended)
    (extra : CallInfo → CallInfo) : Accounted prim watched (app.setState state extra) := by
  have hnone : (app.setState state extra).live = false → app.current = none := by
    intro hdead
    cases hcurrent : app.current with
    | none => rfl
    | some call => simp [live, CallApp.setState, hcurrent, open'] at hdead
  refine h.aside (fun hdead => ?_) rfl rfl (fun _ hcleared => ?_) rfl (fun _ hz => hz) (fun _ _ _ _ _ hmem => hmem)
  · simp [live, hnone hdead]
  · exact ⟨hcleared.keys, hcleared.mediaSecret, hcleared.localFingerprint, hcleared.remoteFingerprint,
      hcleared.pendingOfferSdp⟩

/-- What an engine reports about a live call. -/
theorem Accounted.report (h : Accounted prim watched app) (hlive : app.live = true) (engine : Nat) (dtlsFingerprint : String) :
    Accounted prim watched (app.report engine dtlsFingerprint) := by
  refine h.aside (fun hdead => hdead) rfl rfl (fun hdead _ => ?_) rfl (fun _ hz => hz) (fun _ _ _ _ _ hmem => hmem)
  have hdead' : app.live = false := hdead
  rw [hlive] at hdead'
  cases hdead'

/-- The end of a call wipes whatever it holds. -/
theorem Accounted.clearCall (h : Accounted prim watched app) (reason : String) (now : Int) :
    Accounted prim watched (app.clearCall prim reason now) := by
  have hcleared : (app.clearCall prim reason now).Cleared := ⟨rfl, rfl, rfl, rfl, rfl⟩
  have hbuffers : (app.clearCall prim reason now).buffers = (((app.wipe prim (app.keys.map (fun keys => keys.sendKey))).wipe
      prim (app.keys.map (fun keys => keys.receiveKey))).wipe prim app.mediaSecret).buffers := rfl
  refine ⟨fun _ => hcleared, h.waiting, fun buffer hin => absurd hin (hcleared.holds buffer), fun buffer hin => ?_⟩
  obtain ⟨hlt, hkept⟩ := h.watched buffer hin
  refine ⟨hlt, Or.inr ?_⟩
  show ∃ content, (app.clearCall prim reason now).buffers buffer = prim.wiped content
  rw [hbuffers]
  rcases hkept with (hsecret | ⟨keys, hkeys, rfl | rfl⟩) | hzeroed
  · rw [hsecret]
    exact wipe_self buffer
  · rw [hkeys]
    exact wipe_zeroed _ (wipe_zeroed _ (wipe_self _))
  · rw [hkeys]
    exact wipe_zeroed _ (wipe_self _)
  · exact wipe_zeroed _ (wipe_zeroed _ (wipe_zeroed _ hzeroed))

/-- New buffers in a live call that keeps those it has. -/
theorem Accounted.allocate (h : Accounted prim watched app) (live : next.live = true)
    (allocated : next.allocated = app.allocated + 1)
    (buffers : ∀ buffer, buffer.number < app.allocated → next.buffers buffer = app.buffers buffer)
    (kept : ∀ buffer, app.Holds buffer → next.Holds buffer)
    (added : ∀ buffer, next.Holds buffer → app.Holds buffer ∨ buffer.number = app.allocated)
    (waiting : ∀ number call install accepted after,
      (number, .installingKeys call install accepted after) ∈ next.suspended → call.state ≠ .ended) :
    Accounted prim watched next := by
  refine ⟨fun hdead => ?_, waiting, fun buffer hin => ?_, fun buffer hin => ?_⟩
  · rw [live] at hdead
    cases hdead
  · rw [allocated]
    rcases added buffer hin with hin | hnew
    · exact (h.within buffer hin).trans (Nat.lt_succ_self _)
    · omega
  · obtain ⟨hlt, hkept⟩ := h.watched buffer hin
    refine ⟨allocated ▸ hlt.trans (Nat.lt_succ_self _), hkept.imp (kept buffer) ?_⟩
    rintro ⟨content, hcontent⟩
    exact ⟨content, (buffers buffer hlt).trans hcontent⟩

theorem Accounted.live_of_secret (h : Accounted prim watched app) {secret : SecretBuffer}
    (hsecret : app.mediaSecret = some secret) : app.live = true := by
  cases hlive : app.live with
  | true => rfl
  | false =>
    have hnone := (h.cleared hlive).mediaSecret
    rw [hsecret] at hnone
    cases hnone

theorem state_of_live {call : CallInfo} (hcurrent : app.current = some call) (hlive : app.live = true) :
    call.state ≠ .ended := by
  simpa [live, hcurrent] using hlive

theorem Accounted.setLive (h : Accounted prim watched app) {call : CallInfo} (hstate : call.state ≠ .ended) :
    Accounted prim watched { app with current := some call } := by
  have hlive : ({ app with current := some call } : CallApp K).live = true := by simp [live, hstate]
  refine h.aside (fun hdead => ?_) rfl rfl (fun hdead _ => ?_) rfl (fun _ hz => hz) (fun _ _ _ _ _ hmem => hmem)
  · rw [hlive] at hdead
    cases hdead
  · rw [hlive] at hdead
    cases hdead

theorem Accounted.installDerived (h : Accounted prim watched app) {call : CallInfo} (hcurrent : app.current = some call)
    (hlive : app.live = true) (hkeys : app.keys = none) (number : Nat) (role : CallRole) (peerIdentity : PublicIdentity)
    (localFingerprint remoteFingerprint : String) (mediaRootSecret : K) (derived : CallKeyMaterial K) (after : AfterKeys) :
    Accounted prim watched (app.installDerived prim number call role peerIdentity localFingerprint remoteFingerprint
      mediaRootSecret derived after) := by
  refine h.allocate hlive rfl (fun buffer hlt => ?_) (fun buffer hin => ?_) (fun buffer hin => ?_) ?_
  · have hsend : buffer ≠ .sendKey app.allocated := by
      rintro rfl
      exact Nat.lt_irrefl _ hlt
    have hreceive : buffer ≠ .receiveKey app.allocated := by
      rintro rfl
      exact Nat.lt_irrefl _ hlt
    simp only [CallApp.installDerived, CallApp.suspend, CallApp.modifyEngine, fill, Function.update_of_ne hsend,
      Function.update_of_ne hreceive]
  · rcases hin with hsecret | ⟨keys, hsome, _⟩
    · exact Or.inl hsecret
    · rw [hkeys] at hsome
      cases hsome
  · rcases hin with hsecret | ⟨keys, hsome, hin⟩
    · exact Or.inl (Or.inl hsecret)
    · obtain rfl := Option.some.inj hsome
      rcases hin with rfl | rfl <;> exact Or.inr rfl
  · intro n call' install accepted after' hmem
    rcases List.mem_append.mp hmem with hmem | hmem
    · exact h.waiting n call' install accepted after' hmem
    · have heq := (Prod.mk.inj (List.mem_singleton.mp hmem)).2
      injection heq with hcall
      exact hcall ▸ state_of_live hcurrent hlive

theorem Accounted.deriveAndInstallKeys (h : Accounted prim watched app) (number : Nat) (role : CallRole)
    {resolvePeerIdentity : String → Option PublicIdentity} (after : AfterKeys)
    (once : app.DerivesOnce app.localFingerprint resolvePeerIdentity) :
    Accounted prim watched (app.deriveAndInstallKeys prim options number role resolvePeerIdentity after) := by
  unfold CallApp.deriveAndInstallKeys
  split
  next call secret ownFingerprint theirFingerprint hcurrent hsecret hlocal hremote =>
    split
    next => exact h.emit _
    next peerIdentity hpeer =>
      split
      next => exact h.emit _
      next derived _ =>
        have hkeys : app.keys = none := by
          by_contra hsome
          have hnone := once (Option.isSome_iff_ne_none.mpr hsome) (by rw [hsecret]; rfl) (by rw [hlocal]; rfl)
            (by rw [hremote]; rfl) call hcurrent
          rw [hpeer] at hnone
          cases hnone
        exact h.installDerived hcurrent (h.live_of_secret hsecret) hkeys _ _ _ _ _ _ _ _
  next => exact h.emit _

theorem Accounted.showSas (h : Accounted prim watched app) (number : Nat) {call : CallInfo} (hstate : call.state ≠ .ended)
    (after : AfterKeys) : Accounted prim watched (app.showSas number call after) := by
  unfold CallApp.showSas
  split
  next => exact h.emit _
  next keys hkeys =>
    refine Accounted.suspend ?_ _ (fun _ _ _ _ => nofun)
    exact Accounted.emit (Accounted.emit (@CallApp.Accounted.setLive _ _ _ _ h { call with sas := keys.sas, sasDigits := keys.sasDigits }
      hstate) _) _

theorem Accounted.resume (h : Accounted prim watched app) (number : Nat) {task : Suspended K} {settlement : Settlement}
    {resolvePeerIdentity : String → Option PublicIdentity} (now : Int)
    (inTime : settlement ≠ .rejected → app.InTime settlement resolvePeerIdentity task)
    (lapsed : settlement ≠ .rejected → app.Lapsed task) (installs : ∀ call install accepted after, task = .installingKeys call install accepted after → call.state ≠ .ended) :
    Accounted prim watched (app.resume prim options number task settlement resolvePeerIdentity now) := by
  unfold CallApp.resume
  split
  next engine peerAddress callId secret sdp dtlsFingerprint =>
    exact ((h.report (inTime nofun) engine dtlsFingerprint).emit _).suspend _ (fun _ _ _ _ => nofun)
  next => exact h.same rfl rfl rfl rfl rfl rfl rfl (fun _ hz => hz) (fun _ _ _ _ _ hmem => hmem)
  next => exact (h.emit _).suspend _ (fun _ _ _ _ => nofun)
  next =>
    refine Accounted.emit ?_ _
    have hcleared : app.Cleared := by
      cases hlive : app.live with
      | true => exact lapsed nofun hlive
      | false => exact h.cleared hlive
    have hnext : (app.setState .ended (fun call =>
        { call with endReason := some "frame-encryption-unavailable" })).Cleared :=
      ⟨hcleared.keys, hcleared.mediaSecret, hcleared.localFingerprint, hcleared.remoteFingerprint,
        hcleared.pendingOfferSdp⟩
    exact ⟨fun _ => hnext, h.waiting, fun buffer hin => absurd hin (hnext.holds buffer), h.watched⟩
  next engine call sdp dtlsFingerprint =>
    obtain ⟨hlive, honce⟩ := inTime nofun
    have hreported : Accounted prim watched { app.report engine dtlsFingerprint with pendingOfferSdp := none } := by
      refine (h.report hlive engine dtlsFingerprint).aside (fun hdead => hdead) rfl rfl (fun _ hcleared => ?_) rfl
        (fun _ hz => hz) (fun _ _ _ _ _ hmem => hmem)
      exact ⟨hcleared.keys, hcleared.mediaSecret, hcleared.localFingerprint, hcleared.remoteFingerprint, rfl⟩
    exact hreported.deriveAndInstallKeys _ _ _ (honce sdp dtlsFingerprint rfl)
  next => exact h.deriveAndInstallKeys _ _ _ (inTime nofun)
  next call install accepted after =>
    refine Accounted.showSas ?_ _ (installs call install accepted after rfl) _
    exact h.same rfl rfl rfl rfl rfl rfl rfl (fun _ hz => hz) (fun _ _ _ _ _ hmem => hmem)
  next => exact (h.emit _).suspend _ (fun _ _ _ _ => nofun)
  next => exact h.setState (by decide) id
  next => exact h.setState (by decide) id
  next => exact h.closeCurrentEngine _ _
  next => exact h.closeCurrentEngine _ _
  next => exact h.clearCall _ _
  all_goals first | exact h.emit _ | exact h

/-- A call begins with a media root secret of its own. -/
theorem Accounted.begin (h : Accounted prim watched app) (hdead : app.live = false) {secret : K} (live : next.live = true)
    (allocated : next.allocated = app.allocated + 1) (keys : next.keys = app.keys)
    (mediaSecret : next.mediaSecret = some (.mediaRootSecret app.allocated))
    (buffers : next.buffers = Function.update app.buffers (.mediaRootSecret app.allocated) secret)
    (waiting : ∀ number call install accepted after,
      (number, .installingKeys call install accepted after) ∈ next.suspended → call.state ≠ .ended) :
    Accounted prim watched next := by
  have hcleared := h.cleared hdead
  refine h.allocate live allocated (fun buffer hlt => ?_) (fun buffer hin => absurd hin (hcleared.holds buffer))
    (fun buffer hin => ?_) waiting
  · have hother : buffer ≠ .mediaRootSecret app.allocated := by
      rintro rfl
      exact Nat.lt_irrefl _ hlt
    rw [buffers, Function.update_of_ne hother]
  · rcases hin with hsecret | ⟨found, hkeys, _⟩
    · rw [mediaSecret] at hsecret
      exact Or.inr (Option.some.inj hsecret ▸ rfl)
    · rw [keys, hcleared.keys] at hkeys
      cases hkeys

theorem Accounted.placeCall (h : Accounted prim watched app) (peerAddress : String) (id : Bytes) (supports : Bool) (secret : K)
    (now : Int) : Accounted prim watched (app.placeCall prim options peerAddress id supports secret now) := by
  unfold CallApp.placeCall
  split
  next => exact h.emit _
  next hdead =>
    split
    next => exact ((h.createMediaEngine _).closeMediaEngine _).emit _
    next =>
      refine Accounted.suspend ?_ _ (fun _ _ _ _ => nofun)
      exact h.begin (Bool.not_eq_true _ ▸ hdead) rfl rfl rfl rfl rfl h.waiting

theorem Accounted.onOffer (h : Accounted prim watched app) (peerAddress callId mediaSecret sdp dtlsFingerprint : String)
    (now : Int) : Accounted prim watched (app.onOffer prim peerAddress callId mediaSecret sdp dtlsFingerprint now) := by
  unfold CallApp.onOffer
  split
  next => exact h.emit _
  next hdead =>
    dsimp only
    split
    next =>
      refine Accounted.emit ?_ _
      refine Accounted.same (h.setLive ?_) rfl rfl rfl rfl rfl rfl rfl (fun _ hz => hz) (fun _ _ _ _ _ hmem => hmem)
      exact CallState.noConfusion
    next secret _ =>
      refine Accounted.emit ?_ _
      exact h.begin (Bool.not_eq_true _ ▸ hdead) rfl rfl rfl rfl rfl h.waiting

theorem Accounted.perform (h : Accounted prim watched app) {move : CallMove K} (erasing : app.Erasing move)
    (unrefused : app.Unrefused move) :
    Accounted prim watched (app.perform prim options move) := by
  cases move with
  | placeCall peerAddress id supports secret now => exact h.placeCall peerAddress id supports secret now
  | handleSignal peerAddress signal now =>
    cases signal with
    | offer callId mediaSecret sdp dtlsFingerprint => exact h.onOffer peerAddress callId mediaSecret sdp dtlsFingerprint now
    | answer callId sdp dtlsFingerprint =>
      simp only [CallApp.perform, handleSignal, onAnswer]
      split
      next => exact h
      next call hcall =>
        have hlive : app.live = true := erasing (by rw [hcall]; rfl)
        refine (Accounted.modifyEngine ?_ _ _).suspend _ (fun _ _ _ _ heq => by cases heq)
        refine h.aside (fun hdead => hdead) rfl rfl (fun hdead _ => ?_) rfl (fun _ hz => hz) (fun _ _ _ _ _ hmem => hmem)
        exact absurd hlive (Bool.not_eq_true _ ▸ hdead)
    | ice callId candidate =>
      simp only [CallApp.perform, handleSignal]
      split
      next => exact h.modifyEngine _ _
      next => exact h
    | hangup callId reason =>
      simp only [CallApp.perform, handleSignal]
      split
      next => exact h.endCall _ _
      next => exact h
  | answerCall supports =>
    simp only [CallApp.perform, answerCall]
    split
    next => exact h.emit _
    next =>
      split
      next => exact ((h.createMediaEngine _).closeMediaEngine _).suspend _ (fun _ _ _ _ heq => by cases heq)
      next =>
        refine Accounted.suspend ?_ _ (fun _ _ _ _ heq => by cases heq)
        exact h.same rfl rfl rfl rfl rfl rfl rfl (fun _ hz => hz) (fun _ _ _ _ _ hmem => hmem)
  | endCall reason notify => exact h.endCall _ _
  | confirmSas =>
    simp only [CallApp.perform, confirmSas]
    split
    next => exact h
    next call hcurrent =>
      refine Accounted.emit ?_ _
      refine h.aside (fun hdead => ?_) rfl rfl (fun _ hcleared => ?_) rfl (fun _ hz => hz) (fun _ _ _ _ _ hmem => hmem)
      · simpa [live, hcurrent] using hdead
      · exact ⟨hcleared.keys, hcleared.mediaSecret, hcleared.localFingerprint, hcleared.remoteFingerprint,
          hcleared.pendingOfferSdp⟩
  | localCandidate engine candidate =>
    simp only [CallApp.perform, onLocalCandidate]
    split
    next => exact h
    next => exact h.emit _
  | connected engine =>
    simp only [CallApp.perform, onConnected]
    split
    next => exact h.setState (by decide) id
    next => exact h
  | disconnected engine =>
    simp only [CallApp.perform, onDisconnected]
    split
    next => exact h.endCall _ _
    next => exact h
  | frame engine data =>
    simp only [CallApp.perform, transformFrame]
    split
    next => exact h
    next =>
      refine Accounted.modifyEngine ?_ _ _
      exact h.same rfl rfl rfl rfl rfl rfl rfl (fun _ hz => hz) (fun _ _ _ _ _ hmem => hmem)
  | resume index settlement resolvePeerIdentity now =>
    simp only [CallApp.perform]
    split
    next => exact h
    next number task htask =>
      have herased : Accounted prim watched { app with suspended := app.suspended.eraseIdx index } :=
        h.same rfl rfl rfl rfl rfl rfl rfl (fun _ hz => hz) (fun _ _ _ _ _ hmem => List.mem_of_mem_eraseIdx hmem)
      refine herased.resume _ _ (fun hsettlement => ?_) (fun hsettlement => ?_) ?_
      · have hinTime : app.InTime settlement resolvePeerIdentity task := erasing hsettlement (number, task) htask
        cases task with
        | _ => exact hinTime
      · have hlapsed : app.Lapsed task := unrefused hsettlement (number, task) htask
        cases task with
        | sendingRefusal =>
          intro hlive
          have hcleared := hlapsed hlive
          exact ⟨hcleared.keys, hcleared.mediaSecret, hcleared.localFingerprint, hcleared.remoteFingerprint,
            hcleared.pendingOfferSdp⟩
        | _ => trivial
      · rintro call install accepted after rfl
        exact h.waiting number call install accepted after (List.mem_of_getElem? htask)

theorem Start.accounted (h : Start app) : Accounted prim (fun _ => False) app := by
  obtain ⟨buffers, rfl⟩ := h
  have hcleared : ({ buffers } : CallApp K).Cleared := ⟨rfl, rfl, rfl, rfl, rfl⟩
  exact ⟨fun _ => hcleared, fun _ _ _ _ _ hmem => absurd hmem List.not_mem_nil,
    fun buffer hin => absurd hin (hcleared.holds buffer), fun _ hin => hin.elim⟩

theorem Accounted.run (h : Accounted prim watched app)
    (hrun : Relation.ReflTransGen (Step prim options (fun app move => app.Erasing move ∧ app.Unrefused move)) app next) :
    Accounted prim watched next := by
  refine Runs.preserved ?_ hrun h
  rintro app _ ⟨move, _, ⟨erasing, unrefused⟩, rfl⟩ h
  exact h.perform erasing unrefused

theorem Unrefusing.suspend (h : app.Unrefusing) (number : Nat) {task : Suspended K} (accepts : task.refuses = false) :
    (app.suspend number task).Unrefusing := by
  intro entry hmem
  rcases List.mem_append.mp hmem with hmem | hmem
  · exact h entry hmem
  · rw [List.mem_singleton.mp hmem]
    exact accepts

theorem Unrefusing.endCall (h : app.Unrefusing) (reason : String) (notify : Bool) :
    (app.endCall prim reason notify).Unrefusing := by
  unfold CallApp.endCall
  split
  next => exact h
  next =>
    split
    next => exact Unrefusing.suspend h _ rfl
    next => exact Unrefusing.suspend h _ rfl

theorem Unrefusing.deriveAndInstallKeys (h : app.Unrefusing) (number : Nat) (role : CallRole)
    (resolvePeerIdentity : String → Option PublicIdentity) (after : AfterKeys) :
    (app.deriveAndInstallKeys prim options number role resolvePeerIdentity after).Unrefusing := by
  unfold CallApp.deriveAndInstallKeys
  split
  next =>
    split
    next => exact h
    next =>
      split
      next => exact h
      next => exact Unrefusing.suspend h _ rfl
  next => exact h

theorem Unrefusing.resume (h : app.Unrefusing) (number : Nat) {task : Suspended K} (accepts : task.refuses = false)
    (settlement : Settlement) (resolvePeerIdentity : String → Option PublicIdentity) (now : Int) :
    (app.resume prim options number task settlement resolvePeerIdentity now).Unrefusing := by
  unfold CallApp.resume
  split
  next => exact Unrefusing.suspend h _ rfl
  next => exact h
  next => cases accepts
  next => cases accepts
  next engine _ _ dtlsFingerprint =>
    have hreported : ({ app.report engine dtlsFingerprint with pendingOfferSdp := none } : CallApp K).Unrefusing := h
    exact hreported.deriveAndInstallKeys _ _ _ _
  next => exact h.deriveAndInstallKeys _ _ _ _
  next =>
    unfold CallApp.showSas
    split
    next => exact h
    next => exact Unrefusing.suspend h _ rfl
  next => exact Unrefusing.suspend h _ rfl
  next => exact h
  next => exact h
  next => exact Unrefusing.suspend h _ rfl
  next => exact Unrefusing.suspend h _ rfl
  next => exact h
  all_goals exact h

/-- Only a device that cannot encrypt refuses. -/
theorem Unrefusing.perform (h : app.Unrefusing) {move : CallMove K} (encrypts : Encrypts options move) :
    (app.perform prim options move).Unrefusing := by
  cases move with
  | placeCall peerAddress id supports secret now =>
    simp only [CallApp.perform, CallApp.placeCall]
    split
    next => exact h
    next =>
      split
      next => exact h
      next => exact Unrefusing.suspend h _ rfl
  | handleSignal peerAddress signal now =>
    cases signal with
    | offer callId mediaSecret sdp dtlsFingerprint =>
      simp only [CallApp.perform, handleSignal, CallApp.onOffer]
      split
      next => exact h
      next =>
        split
        next => exact h
        next => exact h
    | answer callId sdp dtlsFingerprint =>
      simp only [CallApp.perform, handleSignal, onAnswer]
      split
      next => exact h
      next => exact Unrefusing.suspend h _ rfl
    | ice callId candidate =>
      simp only [CallApp.perform, handleSignal]
      split
      next => exact h
      next => exact h
    | hangup callId reason =>
      simp only [CallApp.perform, handleSignal]
      split
      next => exact h.endCall _ _
      next => exact h
  | answerCall supports =>
    simp only [CallApp.perform, answerCall]
    split
    next => exact h
    next =>
      split
      next hcannot =>
        obtain ⟨hrequired, hunsupported⟩ := Bool.and_eq_true_iff.mp hcannot
        rw [encrypts hrequired] at hunsupported
        cases hunsupported
      next => exact Unrefusing.suspend h _ rfl
  | endCall reason notify => exact h.endCall _ _
  | confirmSas =>
    simp only [CallApp.perform, confirmSas]
    split
    next => exact h
    next => exact h
  | localCandidate engine candidate =>
    simp only [CallApp.perform, onLocalCandidate]
    split
    next => exact h
    next => exact h
  | connected engine =>
    simp only [CallApp.perform, onConnected]
    split
    next => exact h
    next => exact h
  | disconnected engine =>
    simp only [CallApp.perform, onDisconnected]
    split
    next => exact h.endCall _ _
    next => exact h
  | frame engine data =>
    simp only [CallApp.perform, transformFrame]
    split
    next => exact h
    next => exact h
  | resume index settlement resolvePeerIdentity now =>
    simp only [CallApp.perform]
    split
    next => exact h
    next number task htask =>
      have herased : ({ app with suspended := app.suspended.eraseIdx index } : CallApp K).Unrefusing :=
        fun entry hmem => h entry (List.mem_of_mem_eraseIdx hmem)
      exact herased.resume _ (h (number, task) (List.mem_of_getElem? htask)) _ _ _

theorem Unrefusing.unrefused (h : app.Unrefusing) (move : CallMove K) : app.Unrefused move := by
  cases move with
  | resume index settlement resolvePeerIdentity now =>
    intro _ entry hentry
    have haccepts := h entry (List.mem_of_getElem? hentry)
    cases htask : entry.2 with
    | sendingRefusal =>
      rw [htask] at haccepts
      cases haccepts
    | _ => trivial
  | _ => trivial

/-- Where the device encrypts media, no refusal ends a call. -/
theorem unrefused_run {start : CallApp K} (hstart : Start start)
    (run : Relation.ReflTransGen (Step prim options (fun app move => app.Erasing move ∧ Encrypts options move)) start app) :
    Relation.ReflTransGen (Step prim options (fun app move => app.Erasing move ∧ app.Unrefused move)) start app := by
  have hkept : Relation.ReflTransGen (Step prim options (fun app move => app.Erasing move ∧ app.Unrefused move)) start app ∧
      app.Unrefusing := by
    induction run with
    | refl =>
      obtain ⟨buffers, rfl⟩ := hstart
      exact ⟨.refl, fun entry hmem => absurd hmem List.not_mem_nil⟩
    | tail _ hstep ih =>
      obtain ⟨before, hunrefusing⟩ := ih
      obtain ⟨move, possible, ⟨erasing, encrypts⟩, rfl⟩ := hstep
      exact ⟨before.tail ⟨move, possible, ⟨erasing, hunrefusing.unrefused move⟩, rfl⟩, hunrefusing.perform encrypts⟩
  exact hkept.1

/-- In a run whose moves are erasing and where no refusal ends a call, whenever no call is live nothing of a call is left, and
every buffer that ever held one of its secrets is wiped. A device that encrypts media refuses no call. -/
theorem secrets_erased {start : CallApp K} (hstart : Start start) :
    (∀ app, Relation.ReflTransGen (Step prim options (fun app move => app.Erasing move ∧ app.Unrefused move)) start app →
      (app.live = false → app.Cleared) ∧ ∀ buffer, app.Holds buffer → ∀ later,
        Relation.ReflTransGen (Step prim options (fun app move => app.Erasing move ∧ app.Unrefused move)) app later →
          later.live = false → later.Zeroed prim buffer) ∧
      ∀ app, Relation.ReflTransGen (Step prim options (fun app move => app.Erasing move ∧ Encrypts options move)) start app →
        Relation.ReflTransGen (Step prim options (fun app move => app.Erasing move ∧ app.Unrefused move)) start app := by
  refine ⟨fun app run => ?_, fun _ run => unrefused_run hstart run⟩
  have haccounted : Accounted prim (fun _ => False) app := hstart.accounted.run run
  refine ⟨haccounted.cleared, fun buffer hin later hlater hdead => ?_⟩
  have hwatched : Accounted prim (fun watched => watched = buffer) app := by
    refine ⟨haccounted.cleared, haccounted.waiting, haccounted.within, ?_⟩
    rintro _ rfl
    exact ⟨haccounted.within _ hin, Or.inl hin⟩
  have hlast := hwatched.run hlater
  exact (hlast.watched buffer rfl).2.resolve_left ((hlast.cleared hdead).holds buffer)

end

section

variable {K : Type}

instance (app : CallApp K) : Decidable app.Cleared :=
  decidable_of_iff (app.keys = none ∧ app.mediaSecret = none ∧ app.localFingerprint = none ∧ app.remoteFingerprint = none ∧
      app.pendingOfferSdp = none)
    ⟨fun ⟨h1, h2, h3, h4, h5⟩ => ⟨h1, h2, h3, h4, h5⟩, fun ⟨h1, h2, h3, h4, h5⟩ => ⟨h1, h2, h3, h4, h5⟩⟩

instance (app : CallApp K) (localFingerprint : Option String) (resolvePeerIdentity : String → Option PublicIdentity) :
    Decidable (app.DerivesOnce localFingerprint resolvePeerIdentity) :=
  inferInstanceAs (Decidable (_ → _ → _ → _ → ∀ call ∈ app.current, _))

instance (app : CallApp K) (resolvePeerIdentity : String → Option PublicIdentity) :
    (settlement : Settlement) → (task : Suspended K) → Decidable (app.InTime settlement resolvePeerIdentity task)
  | _, .creatingOffer .. => inferInstanceAs (Decidable (app.live = true))
  | .described sdp dtlsFingerprint, .creatingAnswer .. =>
    decidable_of_iff (app.live = true ∧ app.DerivesOnce (some dtlsFingerprint) resolvePeerIdentity)
      ⟨fun ⟨hlive, honce⟩ => ⟨hlive, fun _ _ heq => (Settlement.described.inj heq).2 ▸ honce⟩,
        fun ⟨hlive, honce⟩ => ⟨hlive, honce sdp dtlsFingerprint rfl⟩⟩
  | .resolved, .creatingAnswer .. =>
    decidable_of_iff (app.live = true) ⟨fun hlive => ⟨hlive, fun _ _ => nofun⟩, fun h => h.1⟩
  | .rejected, .creatingAnswer .. =>
    decidable_of_iff (app.live = true) ⟨fun hlive => ⟨hlive, fun _ _ => nofun⟩, fun h => h.1⟩
  | _, .acceptingAnswer => inferInstanceAs (Decidable (app.DerivesOnce _ _))
  | _, .sendingOffer | _, .sendingRefusal | _, .refusingAnswer _ | _, .installingKeys .. | _, .keysInstalled _ | _, .sendingAnswer |
    _, .notifyingEnd _ | _, .closingEngine .. => isTrue trivial

instance (app : CallApp K) : (move : CallMove K) → Decidable (app.Erasing move)
  | .handleSignal _ (.answer ..) _ => inferInstanceAs (Decidable (_ → _))
  | .resume index settlement resolvePeerIdentity _ =>
    inferInstanceAs (Decidable (settlement ≠ .rejected →
      ∀ entry ∈ app.suspended[index]?, app.InTime settlement resolvePeerIdentity entry.2))
  | .placeCall .. | .handleSignal _ (.offer ..) _ | .handleSignal _ (.ice ..) _ | .handleSignal _ (.hangup ..) _ |
    .answerCall _ | .endCall .. | .confirmSas | .localCandidate .. | .connected _ | .disconnected _ | .frame .. =>
    isTrue trivial

instance (app : CallApp K) : (task : Suspended K) → Decidable (app.Lapsed task)
  | .sendingRefusal => inferInstanceAs (Decidable (_ → app.Cleared))
  | .creatingOffer .. | .sendingOffer | .refusingAnswer _ | .creatingAnswer .. | .acceptingAnswer | .installingKeys .. |
    .keysInstalled _ | .sendingAnswer | .notifyingEnd _ | .closingEngine .. => isTrue trivial

instance (app : CallApp K) : (move : CallMove K) → Decidable (app.Unrefused move)
  | .resume index settlement _ _ =>
    inferInstanceAs (Decidable (settlement ≠ .rejected → ∀ entry ∈ app.suspended[index]?, app.Lapsed entry.2))
  | .placeCall .. | .handleSignal .. | .answerCall _ | .endCall .. | .confirmSas | .localCandidate .. | .connected _ |
    .disconnected _ | .frame .. => isTrue trivial

instance (options : CallManagerOptions) : (move : CallMove K) → Decidable (Encrypts options move)
  | .answerCall _ => inferInstanceAs (Decidable (_ → _))
  | .placeCall .. | .handleSignal .. | .endCall .. | .confirmSas | .localCandidate .. | .connected _ | .disconnected _ |
    .frame .. | .resume .. => isTrue trivial

end

/-- The caller's key is wiped when the callee hangs up. -/
theorem secrets_erased_hungUp : ∃ app later : CallApp (List Bytes), app.Holds (.sendKey 1) ∧ later.live = false ∧
    later.Cleared ∧ later.Zeroed spelledCalls (.sendKey 1) := by
  let start : CallApp (List Bytes) := { buffers := fun _ => [] }
  let hangup : List (CallMove (List Bytes)) :=
    [.handleSignal "callee" (.hangup "ca" "ended") 0, .resume 1 .resolved resolves 0]
  have run : Relation.ReflTransGen (Step spelledCalls callOptions (fun app move => app.Erasing move ∧ Encrypts callOptions move))
      start (performAll spelledCalls callOptions start answeredCall) := reaches_performAll (by decide +kernel)
  have ends : Relation.ReflTransGen (Step spelledCalls callOptions (fun app move => app.Erasing move ∧ app.Unrefused move))
      (performAll spelledCalls callOptions start answeredCall)
      (performAll spelledCalls callOptions (performAll spelledCalls callOptions start answeredCall) hangup) :=
    reaches_performAll (by decide +kernel)
  have hdead : (performAll spelledCalls callOptions (performAll spelledCalls callOptions start answeredCall) hangup).live =
      false := by decide +kernel
  have hkeys : ∃ keys, (performAll spelledCalls callOptions start answeredCall).keys = some keys ∧
      keys.sendKey = .sendKey 1 := by
    have hsome : ((performAll spelledCalls callOptions start answeredCall).keys.map CallKeyMaterial.sendKey) =
        some (.sendKey 1) := by decide +kernel
    exact Option.map_eq_some_iff.mp hsome
  obtain ⟨keys, hkeys, hsend⟩ := hkeys
  have hin : (performAll spelledCalls callOptions start answeredCall).Holds (.sendKey 1) := Or.inr ⟨keys, hkeys, Or.inl hsend⟩
  obtain ⟨herased, hencrypts⟩ := @secrets_erased _ spelledCalls callOptions start ⟨_, rfl⟩
  have hlater := herased _ ((hencrypts _ run).trans ends)
  exact ⟨_, _, hin, hdead, hlater.1 hdead, (herased _ (hencrypts _ run)).2 _ hin _ ends hdead⟩

/-- A phone that cannot encrypt refuses to answer: the call has ended, and its secret is all there. -/
theorem refused_remains : ∃ app : CallApp (List Bytes),
    Relation.ReflTransGen (Step spelledCalls callOptions (fun _ _ => True)) { buffers := fun _ => [] } app ∧
      app.live = false ∧ ¬app.Cleared ∧ app.mediaSecret = some (.mediaRootSecret 0) ∧
      ¬app.Zeroed spelledCalls (.mediaRootSecret 0) := by
  refine ⟨performAll spelledCalls callOptions { buffers := fun _ => [] }
    [.handleSignal "caller" (.offer "ca" "b0E" "sdp" "theirs") 0, .answerCall false, .resume 0 .resolved resolves 0,
     .resume 0 .resolved resolves 0], reaches_performAll ?_, ?_, ?_, ?_, ?_⟩
  · decide +kernel
  · decide +kernel
  · decide +kernel
  · decide +kernel
  · rintro ⟨content, hcontent⟩
    have hfull : (performAll spelledCalls callOptions { buffers := fun _ => [] }
        [.handleSignal "caller" (.offer "ca" "b0E" "sdp" "theirs") 0, .answerCall false, .resume 0 .resolved resolves 0,
         .resume 0 .resolved resolves 0]).buffers (.mediaRootSecret 0) ≠ [] := by decide +kernel
    exact hfull hcontent

end CallApp

end Veil
