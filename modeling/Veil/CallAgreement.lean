import Veil.CallEnds

namespace Veil

namespace CallApp

section

variable {K : Type} {prim : CallPrimitives K} {options : CallManagerOptions} {app : CallApp K}

theorem endCall_events (reason : String) (notify : Bool) : app.events <+: (app.endCall prim reason notify).events := by
  unfold endCall
  split
  next => exact List.prefix_rfl
  next =>
    split
    next => exact List.prefix_append _ _
    next => exact List.prefix_rfl

theorem deriveAndInstallKeys_events (number : Nat) (role : CallRole) (resolvePeerIdentity : String → Option PublicIdentity)
    (after : AfterKeys) :
    app.events <+: (app.deriveAndInstallKeys prim options number role resolvePeerIdentity after).events := by
  unfold deriveAndInstallKeys
  split
  next =>
    split
    next => exact List.prefix_append _ _
    next =>
      split
      next => exact List.prefix_append _ _
      next => exact List.prefix_rfl
  next => exact List.prefix_append _ _

theorem resume_events (number : Nat) (task : Suspended K) (settlement : Settlement)
    (resolvePeerIdentity : String → Option PublicIdentity) (now : Int) :
    app.events <+: (app.resume prim options number task settlement resolvePeerIdentity now).events := by
  unfold resume
  split
  case h_4 => exact (List.prefix_append _ _).trans (List.prefix_append _ _)
  case h_5 engine call sdp dtlsFingerprint =>
    exact @deriveAndInstallKeys_events _ prim options { app.report engine dtlsFingerprint with pendingOfferSdp := none }
      number .callee resolvePeerIdentity (.sendAnswer call sdp dtlsFingerprint)
  case h_6 => exact deriveAndInstallKeys_events number .caller resolvePeerIdentity .connecting
  case h_7 =>
    unfold showSas
    split
    next => exact List.prefix_append _ _
    next => exact (List.prefix_append _ _).trans (List.prefix_append _ _)
  case h_11 => exact List.prefix_rfl
  case h_12 => exact List.prefix_rfl
  case h_18 => exact List.prefix_rfl
  all_goals exact List.prefix_append _ _

/-- What has been said stays said. -/
theorem perform_events (move : CallMove K) : app.events <+: (app.perform prim options move).events := by
  cases move with
  | placeCall =>
    simp only [perform, placeCall]
    split
    next => exact List.prefix_append _ _
    next =>
      split
      next => exact List.prefix_append _ _
      next => exact List.prefix_rfl
  | handleSignal peerAddress signal now =>
    cases signal with
    | offer =>
      simp only [perform, handleSignal, onOffer]
      split
      next => exact List.prefix_append _ _
      next =>
        split
        next => exact List.prefix_append _ _
        next => exact List.prefix_append _ _
    | answer =>
      simp only [perform, handleSignal, onAnswer]
      split
      next => exact List.prefix_rfl
      next => exact List.prefix_rfl
    | ice =>
      simp only [perform, handleSignal]
      split
      next => exact List.prefix_rfl
      next => exact List.prefix_rfl
    | hangup =>
      simp only [perform, handleSignal]
      split
      next => exact endCall_events _ _
      next => exact List.prefix_rfl
  | answerCall =>
    simp only [perform, answerCall]
    split
    next => exact List.prefix_append _ _
    next =>
      split
      next => exact List.prefix_rfl
      next => exact List.prefix_rfl
  | endCall reason notify => exact endCall_events _ _
  | confirmSas =>
    simp only [perform, confirmSas]
    split
    next => exact List.prefix_rfl
    next => exact List.prefix_append _ _
  | localCandidate =>
    simp only [perform, onLocalCandidate]
    split
    next => exact List.prefix_rfl
    next => exact List.prefix_append _ _
  | connected =>
    simp only [perform, onConnected]
    split
    next => exact List.prefix_append _ _
    next => exact List.prefix_rfl
  | disconnected =>
    simp only [perform, onDisconnected]
    split
    next => exact endCall_events _ _
    next => exact List.prefix_rfl
  | frame =>
    simp only [perform, transformFrame]
    split
    next => exact List.prefix_rfl
    next => exact List.prefix_rfl
  | resume index settlement resolvePeerIdentity now =>
    simp only [perform]
    split
    next => exact List.prefix_rfl
    next number task _ =>
      exact @resume_events _ prim options { app with suspended := app.suspended.eraseIdx index } number task settlement
        resolvePeerIdentity now

instance decidableAllows [DecidableEq K] (side : CallEnd) (secret : K) (app : CallApp K) :
    (move : CallMove K) → Decidable (Allows side secret app move)
  | .placeCall .. => inferInstanceAs (Decidable (_ ∧ _ ∧ _ ∧ _ ∧ _))
  | .answerCall _ => inferInstanceAs (Decidable (_ ∧ _))
  | .handleSignal .. => isFalse id
  | .resume .. => inferInstanceAs (Decidable (∀ identity ∈ _, _ = _))
  | .endCall .. | .confirmSas | .localCandidate .. | .connected _ | .disconnected _ | .frame .. => isTrue trivial

theorem Plays.mono {side : CallEnd} {secrets secrets' : K → Prop} {remotes remotes' : String → Prop}
    (h : Plays prim options side secrets remotes app) (secret : ∀ content, secrets content → secrets' content)
    (remote : ∀ fingerprint, remotes fingerprint → remotes' fingerprint) : Plays prim options side secrets' remotes' app := by
  have hderived : ∀ {derived}, DerivedAt prim options side secrets remotes app.reported derived →
      DerivedAt prim options side secrets' remotes' app.reported derived := by
    rintro derived ⟨mediaRootSecret, localFingerprint, remoteFingerprint, hderived, hsecret, hreported, hremote⟩
    exact ⟨mediaRootSecret, localFingerprint, remoteFingerprint, hderived, secret _ hsecret, hreported, remote _ hremote⟩
  refine ⟨h.current, h.suits, h.offering, h.once, h.placed, h.piped, fun buffer hbuffer => ?_, fun keys hkeys => ?_,
    h.localFingerprint, fun fingerprint hf => remote _ (h.remoteFingerprint _ hf),
    fun install hmem => hderived (h.installs install hmem), fun event hmem => ?_⟩
  · exact ⟨(h.secret buffer hbuffer).1, secret _ (h.secret buffer hbuffer).2⟩
  · obtain ⟨derived, hat, hsas⟩ := h.keys keys hkeys
    exact ⟨derived, hderived hat, hsas⟩
  · have hvouched := h.vouched event hmem
    cases event with
    | signal peerAddress signal =>
      cases signal with
      | offer =>
        obtain ⟨hrole, hid, hreported, hblank | ⟨content, hsecret, htext⟩⟩ := hvouched
        · exact ⟨hrole, hid, hreported, Or.inl hblank⟩
        · exact ⟨hrole, hid, hreported, Or.inr ⟨content, secret _ hsecret, htext⟩⟩
      | answer => exact hvouched
      | ice | hangup => trivial
    | sasAvailable =>
      obtain ⟨derived, hat, hsas⟩ := hvouched
      exact ⟨derived, hderived hat, hsas⟩
    | stateChange | thrown => trivial

end

end CallApp

/-- Who is in a call, and the call's id and secret. -/
structure CallParties (K : Type) where
  callId : String
  secret : K
  callerAddress : String
  calleeAddress : String
  callerOptions : CallManagerOptions
  calleeOptions : CallManagerOptions

/-- The two managers. -/
structure CallPair (K : Type) where
  caller : CallApp K
  callee : CallApp K

/-- Either manager goes on, or a signal the other has sent it arrives. -/
inductive PairMove (K : Type)
  | caller (move : CallMove K)
  | callee (move : CallMove K)
  | toCallee (signal : CallSignal) (now : Int)
  | toCaller (signal : CallSignal) (now : Int)

/-- The signals sent so far, with the address of each. -/
def CallEvent.sent? : CallEvent → Option (String × CallSignal)
  | .signal peerAddress sent => some (peerAddress, sent)
  | _ => none

section

variable {K : Type}

/-- What the caller knows. -/
def CallParties.caller (parties : CallParties K) : CallEnd where
  role := .caller
  callId := parties.callId
  peerAddress := parties.calleeAddress
  peerIdentity := parties.calleeOptions.selfIdentity

/-- What the callee knows. -/
def CallParties.callee (parties : CallParties K) : CallEnd where
  role := .callee
  callId := parties.callId
  peerAddress := parties.callerAddress
  peerIdentity := parties.callerOptions.selfIdentity

namespace CallPair

variable (prim : CallPrimitives K) (parties : CallParties K)

def perform (pair : CallPair K) : PairMove K → CallPair K
  | .caller move => { pair with caller := pair.caller.perform prim parties.callerOptions move }
  | .callee move => { pair with callee := pair.callee.perform prim parties.calleeOptions move }
  | .toCallee signal now =>
    { pair with callee := pair.callee.perform prim parties.calleeOptions (.handleSignal parties.callerAddress signal now) }
  | .toCaller signal now =>
    { pair with caller := pair.caller.perform prim parties.callerOptions (.handleSignal parties.calleeAddress signal now) }

/-- A signal arrives once it has been sent: at any time, again, or never. -/
def Allows (pair : CallPair K) : PairMove K → Prop
  | .caller move => pair.caller.Possible move ∧ CallApp.Allows parties.caller parties.secret pair.caller move
  | .callee move => pair.callee.Possible move ∧ CallApp.Allows parties.callee parties.secret pair.callee move
  | .toCallee signal _ => (parties.calleeAddress, signal) ∈ pair.caller.events.filterMap CallEvent.sent?
  | .toCaller signal _ => (parties.callerAddress, signal) ∈ pair.callee.events.filterMap CallEvent.sent?

instance decidableAllows [DecidableEq K] (pair : CallPair K) : (move : PairMove K) → Decidable (pair.Allows parties move)
  | .caller _ | .callee _ => inferInstanceAs (Decidable (_ ∧ _))
  | .toCallee .. | .toCaller .. => inferInstanceAs (Decidable (_ ∈ _))

def Step (pair next : CallPair K) : Prop := ∃ move, pair.Allows parties move ∧ next = pair.perform prim parties move

def performAll (pair : CallPair K) (moves : List (PairMove K)) : CallPair K := moves.foldl (perform prim parties) pair

/-- Each move of the list is allowed when it is its turn. -/
def AllowsAll : CallPair K → List (PairMove K) → Prop
  | _, [] => True
  | pair, move :: rest => pair.Allows parties move ∧ AllowsAll (pair.perform prim parties move) rest

instance decidableAllowsAll [DecidableEq K] : (pair : CallPair K) → (moves : List (PairMove K)) →
    Decidable (AllowsAll prim parties pair moves)
  | _, [] => inferInstanceAs (Decidable True)
  | pair, move :: rest =>
    have := decidableAllowsAll (pair.perform prim parties move) rest
    inferInstanceAs (Decidable (_ ∧ _))

theorem reaches_performAll {pair : CallPair K} {moves : List (PairMove K)} (h : AllowsAll prim parties pair moves) :
    Relation.ReflTransGen (Step prim parties) pair (pair.performAll prim parties moves) := by
  induction moves generalizing pair with
  | nil => exact .refl
  | cons move rest ih => exact .head ⟨move, h.1, rfl⟩ (ih h.2)

variable {prim parties}

/-- A secret the caller's offers give. -/
def Offered (prim : CallPrimitives K) (pair : CallPair K) (secret : K) : Prop :=
  ∃ peerAddress callId mediaSecret sdp dtlsFingerprint,
    .signal peerAddress (.offer callId mediaSecret sdp dtlsFingerprint) ∈ pair.caller.events ∧
      prim.secretFromText mediaSecret = .ok secret

def OfferedFrom (pair : CallPair K) (dtlsFingerprint : String) : Prop :=
  ∃ peerAddress callId mediaSecret sdp,
    .signal peerAddress (.offer callId mediaSecret sdp dtlsFingerprint) ∈ pair.caller.events

def AnsweredFrom (pair : CallPair K) (dtlsFingerprint : String) : Prop :=
  ∃ peerAddress callId sdp, .signal peerAddress (.answer callId sdp dtlsFingerprint) ∈ pair.callee.events

/-- Each end plays its part with what the other has said. -/
structure Plays (prim : CallPrimitives K) (parties : CallParties K) (pair : CallPair K) : Prop where
  caller : CallApp.Plays prim parties.callerOptions parties.caller (fun secret => secret = parties.secret)
    pair.AnsweredFrom pair.caller
  callee : CallApp.Plays prim parties.calleeOptions parties.callee (pair.Offered prim) pair.OfferedFrom pair.callee

section

variable {pair next : CallPair K}

theorem plays_start (caller : CallApp.Start pair.caller) (callee : CallApp.Start pair.callee) : Plays prim parties pair :=
  ⟨caller.plays, callee.plays⟩

/-- What the callee holds to stays so as the caller says more. -/
theorem Plays.callerSays (h : Plays prim parties pair) {caller : CallApp K}
    (plays : CallApp.Plays prim parties.callerOptions parties.caller (fun secret => secret = parties.secret)
      pair.AnsweredFrom caller) (more : pair.caller.events ⊆ caller.events) :
    Plays prim parties { pair with caller := caller } := by
  refine ⟨plays, h.callee.mono ?_ ?_⟩
  · rintro secret ⟨peerAddress, callId, mediaSecret, sdp, dtlsFingerprint, hmem, hsecret⟩
    exact ⟨peerAddress, callId, mediaSecret, sdp, dtlsFingerprint, more hmem, hsecret⟩
  · rintro dtlsFingerprint ⟨peerAddress, callId, mediaSecret, sdp, hmem⟩
    exact ⟨peerAddress, callId, mediaSecret, sdp, more hmem⟩

theorem Plays.calleeSays (h : Plays prim parties pair) {callee : CallApp K}
    (plays : CallApp.Plays prim parties.calleeOptions parties.callee (pair.Offered prim) pair.OfferedFrom callee)
    (more : pair.callee.events ⊆ callee.events) : Plays prim parties { pair with callee := callee } := by
  refine ⟨h.caller.mono (fun _ h => h) ?_, plays⟩
  rintro dtlsFingerprint ⟨peerAddress, callId, sdp, hmem⟩
  exact ⟨peerAddress, callId, sdp, more hmem⟩

theorem mem_sent {events : List CallEvent} {peerAddress : String} {signal : CallSignal}
    (h : (peerAddress, signal) ∈ events.filterMap CallEvent.sent?) : .signal peerAddress signal ∈ events := by
  obtain ⟨event, hmem, hsent⟩ := List.mem_filterMap.mp h
  cases event with
  | signal =>
    obtain ⟨rfl, rfl⟩ := Prod.mk.inj (Option.some.inj hsent)
    exact hmem
  | stateChange | sasAvailable | thrown => cases hsent

theorem Plays.step (h : Plays prim parties pair) (step : Step prim parties pair next) : Plays prim parties next := by
  obtain ⟨move, allows, rfl⟩ := step
  cases move with
  | caller move =>
    exact h.callerSays (h.caller.perform (fun _ => rfl) allows.2) (CallApp.perform_events move).subset
  | callee move =>
    have hrole : parties.callee.role = .caller → pair.Offered prim parties.secret := by
      intro heq
      cases heq
    exact h.calleeSays (h.callee.perform hrole allows.2) (CallApp.perform_events move).subset
  | toCallee signal now =>
    have hmem := mem_sent allows
    have hvouched := h.caller.vouched _ hmem
    refine h.calleeSays (h.callee.hear now ?_) (CallApp.perform_events _).subset
    cases signal with
    | offer callId mediaSecret sdp dtlsFingerprint =>
      exact ⟨rfl, hvouched.2.1, ⟨_, _, _, _, hmem⟩, fun secret hsecret => ⟨_, _, _, _, _, hmem, hsecret⟩⟩
    | answer => cases hvouched.1
    | ice | hangup => trivial
  | toCaller signal now =>
    have hmem := mem_sent allows
    have hvouched := h.callee.vouched _ hmem
    refine h.callerSays (h.caller.hear now ?_) (CallApp.perform_events _).subset
    cases signal with
    | offer => cases hvouched.1
    | answer callId sdp dtlsFingerprint => exact ⟨rfl, ⟨_, _, _, hmem⟩⟩
    | ice | hangup => trivial

/-- Keys derived at the two ends are the same, each end's send key the other's receive key. -/
theorem Plays.agrees (h : Plays prim parties pair)
    (readBack : prim.secretFromText (prim.secretText parties.secret) = .ok parties.secret)
    (derivedSome : ¬ CallApp.Blank pair.caller) {derived derived' : CallKeyMaterial K}
    (hcaller : CallApp.DerivedAt prim parties.callerOptions parties.caller (fun secret => secret = parties.secret)
      pair.AnsweredFrom pair.caller.reported derived)
    (hcallee : CallApp.DerivedAt prim parties.calleeOptions parties.callee (pair.Offered prim) pair.OfferedFrom
      pair.callee.reported derived') :
    derived.sendKey = derived'.receiveKey ∧ derived.receiveKey = derived'.sendKey ∧ derived.sas = derived'.sas ∧
      derived.sasDigits = derived'.sasDigits := by
  obtain ⟨secret, own, other, hderived, rfl, hown, _, _, _, hanswer⟩ := hcaller
  obtain ⟨secret', own', other', hderived', ⟨_, _, _, _, _, hoffer, hread⟩, hown', _, _, _, _, hoffer'⟩ := hcallee
  obtain rfl : other = own' := by
    have hreported := (h.callee.vouched _ hanswer).2
    exact (List.cons.inj (hreported.symm.trans hown')).1
  obtain rfl : other' = own := by
    have hreported := (h.caller.vouched _ hoffer').2.2.1
    exact (List.cons.inj (hreported.symm.trans hown)).1
  obtain rfl : secret' = parties.secret := by
    obtain ⟨_, _, _, hblank | ⟨_, rfl, htext⟩⟩ := h.caller.vouched _ hoffer
    · exact absurd hblank derivedSome
    · rw [htext, readBack] at hread
      exact (Except.ok.inj hread).symm
  obtain ⟨transcript, htranscript, hsend, hreceive, hsas, hdigits⟩ := deriveCallKeys_eq_ok hderived
  obtain ⟨transcript', htranscript', hsend', hreceive', hsas', hdigits'⟩ := deriveCallKeys_eq_ok hderived'
  obtain rfl : transcript = transcript' := Except.ok.inj (htranscript.symm.trans htranscript')
  exact ⟨hsend.trans hreceive'.symm, hreceive.trans hsend'.symm, Except.ok.inj (hsas.symm.trans hsas'),
    Except.ok.inj (hdigits.symm.trans hdigits')⟩

/-- The two keys of an end differ: the direction is in each. -/
theorem distinct_of_derived (free : prim.CollisionFree) {secret : K} {params : CallParams} {derived : CallKeyMaterial K}
    (h : deriveCallKeys prim secret params = .ok derived) : derived.sendKey ≠ derived.receiveKey := by
  obtain ⟨transcript, _, hsend, hreceive, _⟩ := deriveCallKeys_eq_ok h
  intro heq
  have hrole := directionLabel_inj (free.mediaKdf (hsend.symm.trans (heq.trans hreceive))).2
  cases hparams : params.role with
  | caller =>
    rw [hparams] at hrole
    cases hrole
  | callee =>
    rw [hparams] at hrole
    cases hrole

/-- Two honest managers agree, whatever the network loses, repeats or reorders: keys installed for the call at the two
ends are each other's, an end's two keys differ, and the words and digits shown at the two ends are the same. -/
theorem calls_agree (free : prim.CollisionFree)
    (readBack : prim.secretFromText (prim.secretText parties.secret) = .ok parties.secret)
    (caller : CallApp.Start pair.caller) (callee : CallApp.Start pair.callee)
    (run : Relation.ReflTransGen (Step prim parties) pair next) :
    (∀ install ∈ next.caller.installing, ∀ install' ∈ next.callee.installing,
      install.keys.sendKey = install'.keys.receiveKey ∧ install.keys.receiveKey = install'.keys.sendKey ∧
        install.keys.sendKey ≠ install.keys.receiveKey) ∧
      ∀ call call', .sasAvailable call ∈ next.caller.events → .sasAvailable call' ∈ next.callee.events →
        call.sas.isSome = true ∧ call.sas = call'.sas ∧ call.sasDigits = call'.sasDigits := by
  have h : Plays prim parties next := Runs.preserved (fun _ _ step h => h.step step) run (plays_start caller callee)
  constructor
  · intro install hmem install' hmem'
    have hcaller := h.caller.installs install hmem
    have hkeyed : ¬ CallApp.Blank next.caller := by
      intro blank
      rw [blank.installing] at hmem
      cases hmem
    obtain ⟨hsend, hreceive, _⟩ := h.agrees readBack hkeyed hcaller (h.callee.installs install' hmem')
    obtain ⟨_, _, _, hderived, _⟩ := hcaller
    exact ⟨hsend, hreceive, distinct_of_derived free hderived⟩
  · intro call call' hmem hmem'
    obtain ⟨derived, hcaller, hsas, hdigits⟩ := h.caller.vouched _ hmem
    obtain ⟨derived', hcallee, hsas', hdigits'⟩ := h.callee.vouched _ hmem'
    have hkeyed : ¬ CallApp.Blank next.caller := fun blank => blank.unseen call hmem
    obtain ⟨_, _, hwords, hnumbers⟩ := h.agrees readBack hkeyed hcaller hcallee
    refine ⟨?_, ?_, ?_⟩
    · rw [hsas]
      rfl
    · rw [hsas, hsas', hwords]
    · rw [hdigits, hdigits', hnumbers]

end

/-- A call between the two, with a secret of its own. -/
def twoParties : CallParties (List Bytes) where
  callId := "ca"
  secret := [[7]]
  callerAddress := "caller"
  calleeAddress := "callee"
  callerOptions := { selfIdentity := CallApp.caller }
  calleeOptions := { selfIdentity := CallApp.callee }

/-- The call is placed and answered, up to its words at both ends; the offer arrives a second time. -/
def answeredCall : List (PairMove (List Bytes)) :=
  [.caller (.placeCall "callee" [0xca] true [[7]] 0),
   .caller (.resume 0 (.described "sdp" "own") (fun _ => some CallApp.callee) 0),
   .toCallee (.offer "ca" (spelledCalls.secretText [[7]]) "sdp" "own") 0,
   .toCallee (.offer "ca" (spelledCalls.secretText [[7]]) "sdp" "own") 0,
   .callee (.answerCall true),
   .callee (.resume 0 (.described "sdp" "theirs") (fun _ => some CallApp.caller) 0),
   .callee (.resume 0 .resolved (fun _ => some CallApp.caller) 0),
   .callee (.resume 0 .resolved (fun _ => some CallApp.caller) 0),
   .toCaller (.answer "ca" "sdp" "theirs") 0,
   .caller (.resume 1 .resolved (fun _ => some CallApp.callee) 0),
   .caller (.resume 1 .resolved (fun _ => some CallApp.callee) 0)]

theorem calls_agree_answered : ∃ pair : CallPair (List Bytes),
    pair.caller.installing.length = 1 ∧ pair.callee.installing.length = 1 ∧
      (∀ install ∈ pair.caller.installing, ∀ install' ∈ pair.callee.installing,
        install.keys.sendKey = install'.keys.receiveKey ∧ install.keys.receiveKey = install'.keys.sendKey ∧
          install.keys.sendKey ≠ install.keys.receiveKey) ∧
        ∀ call call', .sasAvailable call ∈ pair.caller.events → .sasAvailable call' ∈ pair.callee.events →
          call.sas.isSome = true ∧ call.sas = call'.sas ∧ call.sasDigits = call'.sasDigits := by
  have hallowed : AllowsAll spelledCalls twoParties ⟨{ buffers := fun _ => [] }, { buffers := fun _ => [] }⟩ answeredCall := by
    decide +kernel
  have hread : spelledCalls.secretFromText (spelledCalls.secretText twoParties.secret) = .ok twoParties.secret :=
    congrArg (Except.map (fun secret => [secret])) (fromBase64Url_toBase64Url [7])
  have hrun := reaches_performAll spelledCalls twoParties hallowed
  refine ⟨_, ?_, ?_, calls_agree spelledCalls_collisionFree hread ⟨fun _ => [], rfl⟩ ⟨fun _ => [], rfl⟩ hrun⟩
  · decide +kernel
  · decide +kernel

end CallPair

end

end Veil
