import Veil.FrameNonces

namespace Veil

/-- One end of a call, with what it knows the call and the other end by. -/
structure CallEnd where
  role : CallRole
  callId : String
  peerAddress : String
  peerIdentity : PublicIdentity

def CallEnd.Own (side : CallEnd) (call : CallInfo) : Prop :=
  call.callId = side.callId ∧ call.peerAddress = side.peerAddress

/-- The method waits for an engine's description. -/
def Suspended.describes {K : Type} : Suspended K → Bool
  | .creatingOffer .. | .creatingAnswer .. => true
  | _ => false

/-- Neither an offer nor an answer. -/
def CallSignal.Plain : CallSignal → Prop
  | .offer .. | .answer .. => False
  | .ice .. | .hangup .. => True

/-- Neither an offer, an answer nor the words. -/
def CallEvent.Plain : CallEvent → Prop
  | .signal _ sent => sent.Plain
  | .sasAvailable _ => False
  | .stateChange _ | .thrown _ => True

namespace CallApp

section

variable {K : Type}

def describing (app : CallApp K) : Nat := app.suspended.countP (fun entry => entry.2.describes)

/-- An answer on its way says what the end's engine has reported. -/
def Answers (side : CallEnd) (reported : List String) : AfterKeys → Prop
  | .sendAnswer call _ dtlsFingerprint => side.role = .callee ∧ side.Own call ∧ reported = [dtlsFingerprint]
  | .connecting => True

/-- What can wait at an end of the call. -/
def Suits (side : CallEnd) (reported : List String) : Suspended K → Prop
  | .creatingOffer _ _ callId _ => side.role = .caller ∧ callId = side.callId
  | .refusingAnswer call => side.Own call
  | .creatingAnswer _ call => side.role = .callee ∧ side.Own call
  | .acceptingAnswer => side.role = .caller
  | .installingKeys call _ _ next => side.Own call ∧ Answers side reported next
  | .keysInstalled next => Answers side reported next
  | _ => True

/-- The pipeline of an engine has its keys in buffers for keys. -/
def Piped (media : MediaEngine) : Prop :=
  (∀ sender ∈ media.sframeSender, ∃ n, sender.key = .sendKey n) ∧
    ∀ buffer ∈ media.sframeReceiver, ∃ n, buffer = .receiveKey n

/-- Keys are derived from a secret of the call, for the two ends and what their engines have reported. -/
def DerivedAt (prim : CallPrimitives K) (options : CallManagerOptions) (side : CallEnd) (secrets : K → Prop)
    (remotes : String → Prop) (reported : List String) (derived : CallKeyMaterial K) : Prop :=
  ∃ mediaRootSecret localFingerprint remoteFingerprint, deriveCallKeys prim mediaRootSecret (callParams side.role
      options.selfIdentity side.peerIdentity side.callId localFingerprint remoteFingerprint) = .ok derived ∧
    secrets mediaRootSecret ∧ reported = [localFingerprint] ∧ remotes remoteFingerprint

/-- An end that has derived nothing, and will not: it has no secret. -/
structure Blank (app : CallApp K) : Prop where
  mediaSecret : app.mediaSecret = none
  keys : app.keys = none
  installing : app.installing = []
  unseen : ∀ call, .sasAvailable call ∉ app.events

/-- What an end has said and shown: the fingerprint its engine has reported and, unless it is blank, the secret it has, and
the words of keys it has derived. -/
def Vouched (prim : CallPrimitives K) (options : CallManagerOptions) (side : CallEnd) (secrets : K → Prop)
    (remotes : String → Prop) (app : CallApp K) : CallEvent → Prop
  | .signal _ (.offer callId mediaSecret _ dtlsFingerprint) => side.role = .caller ∧ callId = side.callId ∧
      app.reported = [dtlsFingerprint] ∧ (Blank app ∨ ∃ secret, secrets secret ∧ mediaSecret = prim.secretText secret)
  | .signal _ (.answer _ _ dtlsFingerprint) => side.role = .callee ∧ app.reported = [dtlsFingerprint]
  | .sasAvailable call => ∃ derived, DerivedAt prim options side secrets remotes app.reported derived ∧
      call.sas = some derived.sas ∧ call.sasDigits = some derived.sasDigits
  | _ => True

/-- An end of the call: whatever it has and waits for is of this call, its engine is described once at most, and its keys
come from what it was told and what its engine has reported. -/
structure Plays (prim : CallPrimitives K) (options : CallManagerOptions) (side : CallEnd) (secrets : K → Prop)
    (remotes : String → Prop) (app : CallApp K) : Prop where
  current : ∀ call ∈ app.current, side.Own call
  suits : ∀ entry ∈ app.suspended, Suits side app.reported entry.2
  offering : ∀ number engine peerAddress callId secret,
    (number, .creatingOffer engine peerAddress callId secret) ∈ app.suspended → ∀ buffer ∈ app.mediaSecret, buffer = secret
  once : app.describing + app.reported.length ≤ 1
  placed : app.describing + app.reported.length ≤ app.engines.length
  piped : ∀ media ∈ app.engines, Piped media
  secret : ∀ buffer ∈ app.mediaSecret, (∃ n, buffer = .mediaRootSecret n) ∧ secrets (app.buffers buffer)
  keys : ∀ keys ∈ app.keys, ∃ derived, DerivedAt prim options side secrets remotes app.reported derived ∧
    keys.sas = derived.sas ∧ keys.sasDigits = derived.sasDigits
  localFingerprint : ∀ fingerprint ∈ app.localFingerprint, app.reported = [fingerprint]
  remoteFingerprint : ∀ fingerprint ∈ app.remoteFingerprint, remotes fingerprint
  installs : ∀ install ∈ app.installing, DerivedAt prim options side secrets remotes app.reported install.keys
  vouched : ∀ event ∈ app.events, Vouched prim options side secrets remotes app event

/-- A state in which the end has at most what it had, and waits for nothing else that it will say. -/
structure Aside (side : CallEnd) (app next : CallApp K) : Prop where
  current : ∀ call ∈ next.current, side.Own call ∨
    ∃ old ∈ app.current, call.callId = old.callId ∧ call.peerAddress = old.peerAddress
  suspended : ∀ entry ∈ next.suspended, entry ∈ app.suspended ∨
    entry.2.describes = false ∧ Suits side app.reported entry.2
  describing : next.describing ≤ app.describing
  reported : next.reported = app.reported
  engines : app.engines.length ≤ next.engines.length
  piped : (∀ media ∈ app.engines, Piped media) → ∀ media ∈ next.engines, Piped media
  mediaSecret : ∀ buffer ∈ next.mediaSecret, buffer ∈ app.mediaSecret
  buffers : ∀ n, .mediaRootSecret n ∈ next.mediaSecret → next.buffers (.mediaRootSecret n) = app.buffers (.mediaRootSecret n)
  keys : ∀ keys ∈ next.keys, keys ∈ app.keys
  localFingerprint : ∀ fingerprint ∈ next.localFingerprint, fingerprint ∈ app.localFingerprint
  remoteFingerprint : ∀ fingerprint ∈ next.remoteFingerprint, fingerprint ∈ app.remoteFingerprint
  installing : next.installing = app.installing
  events : app.events ⊆ next.events
  said : ∀ event ∈ next.events, event ∈ app.events ∨ event.Plain

/-- What an end does by itself: it makes one engine, to place the call with the secret or to answer, and knows the other
end's identity. -/
def Allows (side : CallEnd) (secret : K) (app : CallApp K) : CallMove K → Prop
  | .placeCall peerAddress id _ secret' _ => side.role = .caller ∧ peerAddress = side.peerAddress ∧ toHex id = side.callId ∧
      secret' = secret ∧ app.engines = []
  | .answerCall _ => side.role = .callee ∧ app.engines = []
  | .handleSignal .. => False
  | .resume _ _ resolvePeerIdentity _ =>
    ∀ identity ∈ resolvePeerIdentity side.peerAddress, identity = side.peerIdentity
  | _ => True

/-- What an end hears from the other. -/
def Hears (prim : CallPrimitives K) (side : CallEnd) (secrets : K → Prop) (remotes : String → Prop) : CallSignal → Prop
  | .offer callId mediaSecret _ dtlsFingerprint => side.role = .callee ∧ callId = side.callId ∧ remotes dtlsFingerprint ∧
      ∀ secret, prim.secretFromText mediaSecret = .ok secret → secrets secret
  | .answer _ _ dtlsFingerprint => side.role = .caller ∧ remotes dtlsFingerprint
  | _ => True

end

section

variable {K : Type} {prim : CallPrimitives K} {options : CallManagerOptions} {side : CallEnd} {secrets : K → Prop}
  {remotes : String → Prop} {app next last : CallApp K}

theorem Aside.refl (app : CallApp K) : Aside side app app :=
  ⟨fun call h => Or.inr ⟨call, h, rfl, rfl⟩, fun _ h => Or.inl h, Nat.le_refl _, rfl, Nat.le_refl _, fun h => h,
    fun _ h => h, fun _ _ => rfl, fun _ h => h, fun _ h => h, fun _ h => h, rfl, List.Subset.refl _, fun _ h => Or.inl h⟩

theorem Blank.mono (h : Blank app) (mediaSecret : ∀ buffer ∈ next.mediaSecret, buffer ∈ app.mediaSecret)
    (keys : ∀ keys ∈ next.keys, keys ∈ app.keys) (installing : next.installing = app.installing)
    (seen : ∀ call, .sasAvailable call ∈ next.events → .sasAvailable call ∈ app.events) : Blank next := by
  refine ⟨Option.eq_none_iff_forall_not_mem.mpr fun buffer hbuffer => ?_,
    Option.eq_none_iff_forall_not_mem.mpr fun keys' hkeys => ?_, installing.trans h.installing,
    fun call hmem => h.unseen call (seen call hmem)⟩
  · have hold := mediaSecret buffer hbuffer
    rw [h.mediaSecret] at hold
    cases hold
  · have hold := keys keys' hkeys
    rw [h.keys] at hold
    cases hold

/-- What an end has said stands while its engine's report does, and while it stays blank if it is. -/
theorem Vouched.mono {event : CallEvent} (h : Vouched prim options side secrets remotes app event)
    (reported : next.reported = app.reported) (blank : Blank app → Blank next) :
    Vouched prim options side secrets remotes next event := by
  cases event with
  | signal peerAddress signal =>
    cases signal with
    | offer callId mediaSecret sdp dtlsFingerprint =>
      obtain ⟨hrole, hid, hreported, hsecret⟩ := h
      exact ⟨hrole, hid, reported.trans hreported, hsecret.imp_left blank⟩
    | answer => exact ⟨h.1, reported.trans h.2⟩
    | ice | hangup => trivial
  | sasAvailable call =>
    obtain ⟨derived, hderived, hsas⟩ := h
    exact ⟨derived, reported ▸ hderived, hsas⟩
  | stateChange | thrown => trivial

theorem Vouched.of_plain {event : CallEvent} (plain : event.Plain) :
    Vouched prim options side secrets remotes app event := by
  cases event with
  | signal peerAddress signal =>
    cases signal with
    | offer | answer => exact plain.elim
    | ice | hangup => trivial
  | sasAvailable => exact plain.elim
  | stateChange | thrown => trivial

theorem Suits.mono {reported : List String} {task : Suspended K} (h : Suits side app.reported task)
    (same : reported = app.reported) : Suits side reported task := same ▸ h

theorem Aside.trans (h : Aside side app next) (h' : Aside side next last) : Aside side app last := by
  refine ⟨fun call hcall => ?_, fun entry hentry => ?_, h'.describing.trans h.describing, h'.reported.trans h.reported,
    h.engines.trans h'.engines, fun piped => h'.piped (h.piped piped), fun buffer hb => h.mediaSecret _ (h'.mediaSecret _ hb),
    fun n hn => (h'.buffers n hn).trans (h.buffers n (h'.mediaSecret _ hn)), fun keys hk => h.keys _ (h'.keys _ hk),
    fun fingerprint hf => h.localFingerprint _ (h'.localFingerprint _ hf),
    fun fingerprint hf => h.remoteFingerprint _ (h'.remoteFingerprint _ hf), h'.installing.trans h.installing,
    List.Subset.trans h.events h'.events, fun event hmem => ?_⟩
  · rcases h'.current call hcall with hown | ⟨middle, hmiddle, hid, hpeer⟩
    · exact Or.inl hown
    · rcases h.current middle hmiddle with hown | ⟨old, hold, hid', hpeer'⟩
      · exact Or.inl ⟨hid.trans hown.1, hpeer.trans hown.2⟩
      · exact Or.inr ⟨old, hold, hid.trans hid', hpeer.trans hpeer'⟩
  · rcases h'.suspended entry hentry with hold | ⟨hnot, hsuits⟩
    · exact h.suspended entry hold
    · exact Or.inr ⟨hnot, hsuits.mono h.reported.symm⟩
  · exact (h'.said event hmem).elim (h.said event) Or.inr

theorem Aside.blank (h : Aside side app next) (blank : Blank app) : Blank next := by
  refine blank.mono h.mediaSecret h.keys h.installing fun call hmem => ?_
  exact (h.said _ hmem).resolve_right fun hplain => hplain

/-- What leaves an end aside leaves it as it is. -/
theorem Plays.aside (h : Plays prim options side secrets remotes app) (aside : Aside side app next) :
    Plays prim options side secrets remotes next := by
  refine ⟨fun call hcall => ?_, fun entry hentry => ?_, fun number engine peerAddress callId secret hmem buffer hbuffer => ?_,
    ?_, ?_, aside.piped h.piped, fun buffer hbuffer => ?_, fun keys hkeys => ?_, fun fingerprint hf => ?_,
    fun fingerprint hf => h.remoteFingerprint _ (aside.remoteFingerprint _ hf), ?_, fun event hmem => ?_⟩
  · rcases aside.current call hcall with hown | ⟨old, hold, hid, hpeer⟩
    · exact hown
    · exact ⟨hid.trans (h.current old hold).1, hpeer.trans (h.current old hold).2⟩
  · rw [aside.reported]
    exact (aside.suspended entry hentry).elim (h.suits entry) And.right
  · rcases aside.suspended _ hmem with hold | ⟨hnot, _⟩
    · exact h.offering number engine peerAddress callId secret hold buffer (aside.mediaSecret buffer hbuffer)
    · cases hnot
  · have honce := h.once
    have hless := aside.describing
    rw [aside.reported]
    omega
  · have hplaced := h.placed
    have hless := aside.describing
    have hmore := aside.engines
    rw [aside.reported]
    omega
  · obtain ⟨⟨n, rfl⟩, hsecret⟩ := h.secret buffer (aside.mediaSecret buffer hbuffer)
    exact ⟨⟨n, rfl⟩, (aside.buffers n hbuffer).symm ▸ hsecret⟩
  · rw [aside.reported]
    exact h.keys keys (aside.keys keys hkeys)
  · rw [aside.reported]
    exact h.localFingerprint fingerprint (aside.localFingerprint fingerprint hf)
  · rw [aside.installing, aside.reported]
    exact h.installs
  · rcases aside.said event hmem with hold | hplain
    · exact (h.vouched event hold).mono aside.reported aside.blank
    · exact .of_plain hplain

/-- Only what is shown, and what waits, is different. -/
theorem Aside.same (current : next.current = app.current) (reported : next.reported = app.reported)
    (engines : next.engines = app.engines) (mediaSecret : next.mediaSecret = app.mediaSecret)
    (buffers : next.buffers = app.buffers) (keys : next.keys = app.keys)
    (localFingerprint : next.localFingerprint = app.localFingerprint)
    (remoteFingerprint : next.remoteFingerprint = app.remoteFingerprint) (installing : next.installing = app.installing)
    (suspended : ∀ entry ∈ next.suspended, entry ∈ app.suspended ∨
      entry.2.describes = false ∧ Suits side app.reported entry.2)
    (describing : next.describing ≤ app.describing) (events : app.events ⊆ next.events)
    (said : ∀ event ∈ next.events, event ∈ app.events ∨ event.Plain) : Aside side app next := by
  refine ⟨fun call hcall => Or.inr ⟨call, current ▸ hcall, rfl, rfl⟩, suspended, describing, reported,
    Nat.le_of_eq (congrArg List.length engines).symm, fun piped => engines ▸ piped, fun _ h => mediaSecret ▸ h,
    fun n _ => congrFun buffers _, fun _ h => keys ▸ h, fun _ h => localFingerprint ▸ h, fun _ h => remoteFingerprint ▸ h,
    installing, events, said⟩

theorem Aside.emit {event : CallEvent} (plain : event.Plain) : Aside side app (app.emit event) := by
  refine .same rfl rfl rfl rfl rfl rfl rfl rfl rfl (fun _ h => Or.inl h) (Nat.le_refl _) (List.subset_append_left _ _)
    fun event' hmem => ?_
  rcases List.mem_append.mp hmem with hold | hnew
  · exact Or.inl hold
  · exact Or.inr (List.mem_singleton.mp hnew ▸ plain)

theorem Aside.hangup (peerAddress callId reason : String) :
    Aside side app (app.emit (.signal peerAddress (.hangup callId reason))) := .emit trivial

/-- Only the call's state is shown. -/
theorem Aside.show (side : CallEnd) (app : CallApp K) :
    Aside side app { app with events := app.events ++ app.current.toList.map .stateChange } := by
  refine .same rfl rfl rfl rfl rfl rfl rfl rfl rfl (fun _ h => Or.inl h) (Nat.le_refl _) (List.subset_append_left _ _)
    fun event hmem => ?_
  rcases List.mem_append.mp hmem with hold | hnew
  · exact Or.inl hold
  · obtain ⟨_, _, rfl⟩ := List.mem_map.mp hnew
    exact Or.inr trivial

theorem Aside.throw (error : CallError) : Aside side app (app.throw error) := .emit trivial

theorem describing_suspend (number : Nat) (task : Suspended K) :
    (app.suspend number task).describing = app.describing + if task.describes then 1 else 0 := by
  simp only [describing, suspend, List.countP_append, List.countP_singleton]

theorem Aside.suspend (number : Nat) {task : Suspended K} (waits : task.describes = false)
    (suits : Suits side app.reported task) : Aside side app (app.suspend number task) := by
  have hcount := @describing_suspend _ app number task
  rw [waits] at hcount
  refine .same rfl rfl rfl rfl rfl rfl rfl rfl rfl (fun entry hmem => ?_) (Nat.le_of_eq hcount) (List.Subset.refl _)
    fun _ h => Or.inl h
  rcases List.mem_append.mp hmem with hold | hnew
  · exact Or.inl hold
  · obtain rfl := List.mem_singleton.mp hnew
    exact Or.inr ⟨waits, suits⟩

theorem Aside.erase (index : Nat) : Aside side app { app with suspended := app.suspended.eraseIdx index } :=
  .same rfl rfl rfl rfl rfl rfl rfl rfl rfl (fun _ h => Or.inl (List.mem_of_mem_eraseIdx h))
    ((List.eraseIdx_sublist _ _).countP_le) (List.Subset.refl _) fun _ h => Or.inl h

/-- The call's states are shown one after the other. -/
theorem Aside.setState (state : CallState) {extra : CallInfo → CallInfo} (id : ∀ call, (extra call).callId = call.callId)
    (peer : ∀ call, (extra call).peerAddress = call.peerAddress) : Aside side app (app.setState state extra) := by
  refine ⟨fun call hcall => ?_, fun _ h => Or.inl h, Nat.le_refl _, rfl, Nat.le_refl _, fun h => h, fun _ h => h,
    fun _ _ => rfl, fun _ h => h, fun _ h => h, fun _ h => h, rfl, List.subset_append_left _ _,
    fun event hmem => ?_⟩
  · obtain ⟨old, hold, rfl⟩ := Option.map_eq_some_iff.mp hcall
    exact Or.inr ⟨old, hold, id old, peer old⟩
  · rcases List.mem_append.mp hmem with hold | hnew
    · exact Or.inl hold
    · obtain ⟨_, _, rfl⟩ := List.mem_map.mp hnew
      exact Or.inr trivial

theorem Aside.own {call : CallInfo} (own : side.Own call) : Aside side app { app with current := some call } := by
  refine ⟨fun call' hcall => Or.inl ?_, fun _ h => Or.inl h, Nat.le_refl _, rfl, Nat.le_refl _, fun h => h, fun _ h => h,
    fun _ _ => rfl, fun _ h => h, fun _ h => h, fun _ h => h, rfl, List.Subset.refl _, fun _ h => Or.inl h⟩
  obtain rfl := Option.some.inj hcall
  exact own

theorem piped_modifyEngine {f : MediaEngine → MediaEngine} (engine : Option Nat) (keeps : ∀ media, Piped media → Piped (f media))
    (piped : ∀ media ∈ app.engines, Piped media) : ∀ media ∈ (app.modifyEngine engine f).engines, Piped media := by
  intro media hmem
  obtain ⟨e, hget⟩ := List.mem_iff_getElem?.mp hmem
  rw [modifyEngine_get] at hget
  split at hget
  next =>
    obtain ⟨old, hold, rfl⟩ := Option.map_eq_some_iff.mp hget
    exact keeps old (piped old (List.mem_of_getElem? hold))
  next => exact piped media (List.mem_of_getElem? hget)

theorem Aside.modifyEngine (engine : Option Nat) {f : MediaEngine → MediaEngine} (keeps : ∀ media, Piped media → Piped (f media)) :
    Aside side app (app.modifyEngine engine f) :=
  ⟨fun call h => Or.inr ⟨call, h, rfl, rfl⟩, fun _ h => Or.inl h, Nat.le_refl _, rfl,
    Nat.le_of_eq (modifyEngine_length f engine).symm, piped_modifyEngine engine keeps, fun _ h => h, fun _ _ => rfl,
    fun _ h => h, fun _ h => h, fun _ h => h, rfl, List.Subset.refl _, fun _ h => Or.inl h⟩

theorem Aside.createMediaEngine {media : MediaEngine} (piped : Piped media) : Aside side app (app.createMediaEngine media) := by
  refine ⟨fun call h => Or.inr ⟨call, h, rfl, rfl⟩, fun _ h => Or.inl h, Nat.le_refl _, rfl, ?_, fun hold media' hmem => ?_,
    fun _ h => h, fun _ _ => rfl, fun _ h => h, fun _ h => h, fun _ h => h, rfl, List.Subset.refl _, fun _ h => Or.inl h⟩
  · exact (List.sublist_append_left _ _).length_le
  · rcases List.mem_append.mp hmem with hmem | hmem
    · exact hold media' hmem
    · exact List.mem_singleton.mp hmem ▸ piped

/-- Filling a buffer with zeros, unless it is that of a media root secret. -/
theorem Aside.wipe {target : Option SecretBuffer} (other : ∀ n, target ≠ some (.mediaRootSecret n)) :
    Aside side app (app.wipe prim target) :=
  ⟨fun call h => Or.inr ⟨call, h, rfl, rfl⟩, fun _ h => Or.inl h, Nat.le_refl _, rfl, Nat.le_refl _, fun h => h,
    fun _ h => h, fun n _ => wipe_other (other n), fun _ h => h, fun _ h => h, fun _ h => h, rfl, List.Subset.refl _,
    fun _ h => Or.inl h⟩

/-- Closing an engine wipes the buffers of its pipeline, which are of keys. -/
theorem Aside.closeMediaEngine (engine : Option Nat) (piped : ∀ media ∈ app.engines, Piped media) :
    Aside side app (app.closeMediaEngine prim engine) := by
  refine ((Aside.wipe fun n => ?_).trans (Aside.wipe fun n => ?_)).trans (Aside.modifyEngine engine fun media _ => ?_)
  · intro heq
    obtain ⟨media, hmedia, hsender⟩ := Option.bind_eq_some_iff.mp heq
    obtain ⟨e, _, hget⟩ := Option.bind_eq_some_iff.mp hmedia
    obtain ⟨sender, hsome, hkey⟩ := Option.map_eq_some_iff.mp hsender
    obtain ⟨m, hm⟩ := (piped media (List.mem_of_getElem? hget)).1 sender hsome
    rw [hm] at hkey
    cases hkey
  · intro heq
    obtain ⟨media, hmedia, hreceiver⟩ := Option.bind_eq_some_iff.mp heq
    obtain ⟨e, _, hget⟩ := Option.bind_eq_some_iff.mp hmedia
    obtain ⟨m, hm⟩ := (piped media (List.mem_of_getElem? hget)).2 _ hreceiver
    cases hm
  · exact ⟨nofun, nofun⟩

theorem Aside.fill {target : SecretBuffer} (content : K) (other : ∀ n, target ≠ .mediaRootSecret n) :
    Aside side app (app.fill target content) :=
  ⟨fun call h => Or.inr ⟨call, h, rfl, rfl⟩, fun _ h => Or.inl h, Nat.le_refl _, rfl, Nat.le_refl _, fun h => h,
    fun _ h => h, fun n _ => Function.update_of_ne (other n).symm _ _, fun _ h => h, fun _ h => h, fun _ h => h, rfl,
    List.Subset.refl _, fun _ h => Or.inl h⟩

theorem Aside.closeCurrentEngine (number : Nat) (reason : String) (piped : ∀ media ∈ app.engines, Piped media) :
    Aside side app (app.closeCurrentEngine prim number reason) :=
  (Aside.closeMediaEngine app.engine piped).trans (.suspend number rfl trivial)

theorem Aside.endCall (reason : String) (notify : Bool) (piped : ∀ media ∈ app.engines, Piped media) :
    Aside side app (app.endCall prim reason notify) := by
  unfold CallApp.endCall
  split
  next => exact .refl app
  next call _ =>
    split
    next => exact (Aside.hangup _ _ _).trans (.suspend _ rfl trivial)
    next => exact .closeCurrentEngine _ reason piped

/-- The end of a call leaves the end nothing but the engine. -/
theorem Aside.clearCall (reason : String) (now : Int) : Aside side app (app.clearCall prim reason now) := by
  refine ⟨fun call hcall => ?_, fun _ h => Or.inl h, Nat.le_refl _, rfl, Nat.le_refl _, fun h => h, nofun, nofun, nofun, nofun,
    nofun, rfl, List.subset_append_left _ _, fun event hmem => ?_⟩
  · obtain ⟨old, hold, rfl⟩ := Option.map_eq_some_iff.mp hcall
    exact Or.inr ⟨old, hold, rfl, rfl⟩
  · rcases List.mem_append.mp hmem with hold | hnew
    · exact Or.inl hold
    · obtain ⟨_, _, rfl⟩ := List.mem_map.mp hnew
      exact Or.inr trivial

/-- What is said may also be the words of derived keys, where the end is not blank. -/
theorem Plays.emit (h : Plays prim options side secrets remotes app) {event : CallEvent}
    (vouched : Vouched prim options side secrets remotes app event) (unseen : Blank app → ∀ call, event ≠ .sasAvailable call) :
    Plays prim options side secrets remotes (app.emit event) := by
  have hblank : Blank app → Blank (app.emit event) := by
    intro blank
    refine blank.mono (fun _ h => h) (fun _ h => h) rfl fun call hmem => ?_
    rcases List.mem_append.mp hmem with hold | hnew
    · exact hold
    · exact absurd (List.mem_singleton.mp hnew).symm (unseen blank call)
  refine ⟨h.current, h.suits, h.offering, h.once, h.placed, h.piped, h.secret, h.keys, h.localFingerprint,
    h.remoteFingerprint, h.installs, fun event' hmem => ?_⟩
  rcases List.mem_append.mp hmem with hold | hnew
  · exact (h.vouched event' hold).mono rfl hblank
  · obtain rfl := List.mem_singleton.mp hnew
    exact vouched.mono rfl hblank

/-- A method begins to wait for its engine's description, which no engine has given or is to give. -/
theorem Plays.describe (h : Plays prim options side secrets remotes app) (number : Nat) {task : Suspended K}
    (first : app.describing + app.reported.length = 0) (engine : 1 ≤ app.engines.length) (waits : task.describes = true)
    (suits : Suits side app.reported task)
    (offering : ∀ engine peerAddress callId secret, task = .creatingOffer engine peerAddress callId secret →
      ∀ buffer ∈ app.mediaSecret, buffer = secret) :
    Plays prim options side secrets remotes (app.suspend number task) := by
  have hcount := @describing_suspend _ app number task
  rw [waits, if_pos rfl] at hcount
  have hreported : (app.suspend number task).reported.length = app.reported.length := rfl
  have hengines : (app.suspend number task).engines.length = app.engines.length := rfl
  refine ⟨h.current, fun entry hmem => ?_, fun number' engine peerAddress callId secret hmem => ?_, by omega, by omega,
    h.piped, h.secret, h.keys, h.localFingerprint, h.remoteFingerprint, h.installs, fun event hmem => ?_⟩
  · rcases List.mem_append.mp hmem with hold | hnew
    · exact h.suits entry hold
    · obtain rfl := List.mem_singleton.mp hnew
      exact suits
  · rcases List.mem_append.mp hmem with hold | hnew
    · exact h.offering number' engine peerAddress callId secret hold
    · obtain ⟨_, rfl⟩ := Prod.mk.inj (List.mem_singleton.mp hnew)
      exact offering engine peerAddress callId secret rfl
  · exact (h.vouched event hmem).mono rfl fun blank => ⟨blank.mediaSecret, blank.keys, blank.installing, blank.unseen⟩

/-- Before its engine is described, an end has said nothing and derived nothing. -/
theorem Plays.silent (h : Plays prim options side secrets remotes app) (unreported : app.reported = []) :
    app.keys = none ∧ app.installing = [] ∧ ∀ event ∈ app.events, event.Plain := by
  have hnone : ∀ fingerprint, app.reported ≠ [fingerprint] := by
    intro fingerprint hone
    rw [unreported] at hone
    cases hone
  have hunderived : ∀ derived, ¬ DerivedAt prim options side secrets remotes app.reported derived := by
    rintro derived ⟨_, localFingerprint, _, _, _, hreported, _⟩
    exact hnone localFingerprint hreported
  refine ⟨Option.eq_none_iff_forall_not_mem.mpr fun keys hkeys => ?_,
    List.eq_nil_iff_forall_not_mem.mpr fun install hmem => ?_, fun event hmem => ?_⟩
  · obtain ⟨derived, hderived, _⟩ := h.keys keys hkeys
    exact hunderived derived hderived
  · exact hunderived install.keys (h.installs install hmem)
  · have hvouched := h.vouched event hmem
    cases event with
    | signal peerAddress signal =>
      cases signal with
      | offer => exact absurd hvouched.2.2.1 (hnone _)
      | answer => exact absurd hvouched.2 (hnone _)
      | ice | hangup => trivial
    | sasAvailable =>
      obtain ⟨derived, hderived, _⟩ := hvouched
      exact absurd hderived (hunderived derived)
    | stateChange | thrown => trivial

theorem Suits.of_silent {reported : List String} {task : Suspended K} (h : Suits side [] task) : Suits side reported task := by
  have hanswers : ∀ {next}, Answers side [] next → Answers side reported next := by
    intro next h
    cases next with
    | sendAnswer => exact absurd h.2.2.symm (List.cons_ne_nil _ _)
    | connecting => trivial
  cases task with
  | installingKeys => exact ⟨h.1, hanswers h.2⟩
  | keysInstalled => exact hanswers h
  | _ => exact h

/-- The engine is described. -/
theorem Plays.report (h : Plays prim options side secrets remotes app) (engine : Nat) (dtlsFingerprint : String)
    (waiting : app.describing = 0) (unreported : app.reported = []) (placed : 1 ≤ app.engines.length) :
    Plays prim options side secrets remotes (app.report engine dtlsFingerprint) := by
  obtain ⟨hkeys, hnone, hplain⟩ := h.silent unreported
  have hreported : (app.report engine dtlsFingerprint).reported = [dtlsFingerprint] := by
    show app.reported ++ [dtlsFingerprint] = _
    rw [unreported, List.nil_append]
  have hdescribing : (app.report engine dtlsFingerprint).describing = 0 := waiting
  have hengines : (app.report engine dtlsFingerprint).engines.length = app.engines.length := modifyEngine_length _ _
  refine ⟨h.current, fun entry hmem => ?_, h.offering, ?_, ?_, ?_, h.secret, fun keys hmem => ?_, fun fingerprint hf => ?_,
    h.remoteFingerprint, fun install hmem => ?_, fun event hmem => .of_plain (hplain event hmem)⟩
  · have hsuits := h.suits entry hmem
    rw [unreported] at hsuits
    exact hsuits.of_silent
  · rw [hdescribing, hreported]
    exact Nat.le_refl 1
  · rw [hdescribing, hreported, hengines]
    exact placed
  · exact piped_modifyEngine (some engine) (fun media hpiped => hpiped) h.piped
  · have hmem : keys ∈ app.keys := hmem
    rw [hkeys] at hmem
    cases hmem
  · obtain rfl := Option.some.inj hf
    exact hreported
  · have hmem : install ∈ app.installing := hmem
    rw [hnone] at hmem
    cases hmem

theorem Plays.throw (h : Plays prim options side secrets remotes app) (error : CallError) :
    Plays prim options side secrets remotes (app.throw error) := h.aside (.throw error)

theorem piped_new (supports : Bool) (handlers : Option (String × String)) (hasLocal hasRemote : Bool) :
    Piped { supportsFrameEncryption := supports, handlers := handlers, hasLocalDescription := hasLocal
            hasRemoteDescription := hasRemote } := ⟨nofun, nofun⟩

/-- An end that has no engine yet is not described and has none to wait for. -/
theorem Plays.unplaced (h : Plays prim options side secrets remotes app) (engines : app.engines = []) :
    app.describing = 0 ∧ app.reported = [] := by
  have hplaced := h.placed
  rw [engines, List.length_nil] at hplaced
  exact ⟨by omega, List.length_eq_zero_iff.mp (by omega)⟩

/-- The call's secret is put into a new buffer, before anything is said. -/
theorem Plays.setSecret (h : Plays prim options side secrets remotes app) (number : Nat) {secret : K} (call : CallInfo)
    (own : side.Own call) (held : secrets secret)
    (offering : ∀ number' engine peerAddress callId buffer,
      (number', .creatingOffer engine peerAddress callId buffer) ∉ app.suspended)
    (offers : ∀ peerAddress callId mediaSecret sdp dtlsFingerprint,
      .signal peerAddress (.offer callId mediaSecret sdp dtlsFingerprint) ∉ app.events)
    (current : next.current = some call) (suspended : next.suspended = app.suspended) (events : next.events = app.events)
    (reported : next.reported = app.reported) (engines : next.engines = app.engines) (keys : next.keys = app.keys)
    (mediaSecret : next.mediaSecret = some (.mediaRootSecret number))
    (buffers : next.buffers = Function.update app.buffers (.mediaRootSecret number) secret)
    (localFingerprint : next.localFingerprint = app.localFingerprint)
    (remoteFingerprint : ∀ fingerprint ∈ next.remoteFingerprint, remotes fingerprint)
    (installing : next.installing = app.installing) : Plays prim options side secrets remotes next := by
  have hdescribing : next.describing = app.describing := by rw [CallApp.describing, suspended, CallApp.describing]
  refine ⟨fun call' hcall => ?_, fun entry hmem => ?_, fun number' engine peerAddress callId buffer hmem => ?_, ?_, ?_, ?_,
    fun buffer hbuffer => ?_, fun keys' hkeys => ?_, fun fingerprint hf => ?_, remoteFingerprint, ?_, fun event hmem => ?_⟩
  · rw [current] at hcall
    obtain rfl := Option.some.inj hcall
    exact own
  · rw [reported]
    exact h.suits entry (suspended ▸ hmem)
  · rw [suspended] at hmem
    exact absurd hmem (offering number' engine peerAddress callId buffer)
  · rw [hdescribing, reported]
    exact h.once
  · rw [hdescribing, reported, engines]
    exact h.placed
  · rw [engines]
    exact h.piped
  · rw [mediaSecret] at hbuffer
    obtain rfl := Option.some.inj hbuffer
    rw [buffers, Function.update_self]
    exact ⟨⟨number, rfl⟩, held⟩
  · rw [reported]
    exact h.keys keys' (keys ▸ hkeys)
  · rw [reported]
    exact h.localFingerprint fingerprint (localFingerprint ▸ hf)
  · rw [installing, reported]
    exact h.installs
  · rw [events] at hmem
    have hold := h.vouched event hmem
    cases event with
    | signal peerAddress signal =>
      cases signal with
      | offer callId mediaSecret' sdp dtlsFingerprint => exact absurd hmem (offers _ _ _ _ _)
      | answer => exact ⟨hold.1, reported.trans hold.2⟩
      | ice | hangup => trivial
    | sasAvailable call' =>
      obtain ⟨derived, hderived, hsas⟩ := hold
      exact ⟨derived, reported ▸ hderived, hsas⟩
    | stateChange | thrown => trivial

theorem Plays.placeCall (h : Plays prim options side secrets remotes app) {peerAddress : String} {id : Bytes} {secret : K}
    (supports : Bool) (now : Int) (role : side.role = .caller) (peer : peerAddress = side.peerAddress)
    (own : toHex id = side.callId) (held : secrets secret) (engines : app.engines = []) :
    Plays prim options side secrets remotes (app.placeCall prim options peerAddress id supports secret now) := by
  obtain ⟨hdescribing, hreported⟩ := h.unplaced engines
  unfold CallApp.placeCall
  split
  next => exact h.throw _
  next =>
    split
    next =>
      have hplays := h.aside (.createMediaEngine (piped_new supports none false false))
      exact (hplays.aside (.closeMediaEngine _ hplays.piped)).throw _
    next =>
      have hplays := h.aside (.createMediaEngine (piped_new supports (some (peerAddress, toHex id)) true false))
      have hsilent := (hplays.silent hreported).2.2
      refine Plays.describe ?_ _ ?_ ?_ rfl ⟨role, own⟩ ?_
      · refine hplays.setSecret app.allocated _ ⟨own, peer⟩ held ?_ ?_ rfl rfl rfl rfl rfl rfl rfl rfl rfl
          hplays.remoteFingerprint rfl
        · intro number engine peerAddress' callId buffer hmem
          have hpos := List.countP_eq_zero.mp hdescribing _ hmem
          exact hpos rfl
        · intro peerAddress' callId mediaSecret sdp dtlsFingerprint hmem
          exact hsilent _ hmem
      · show app.describing + app.reported.length = 0
        rw [hdescribing, hreported, List.length_nil]
      · show 1 ≤ (app.engines ++ [_]).length
        rw [List.length_append, List.length_singleton]
        omega
      · intro engine peerAddress' callId buffer heq buffer' hbuffer'
        obtain ⟨_, _, _, rfl⟩ := Suspended.creatingOffer.inj heq
        exact (Option.some.inj hbuffer').symm

/-- The callee hears an offer of the call. -/
theorem Plays.onOffer (h : Plays prim options side secrets remotes app) {callId mediaSecret sdp dtlsFingerprint : String}
    (now : Int) (role : side.role = .callee) (own : callId = side.callId)
    (held : ∀ secret, prim.secretFromText mediaSecret = .ok secret → secrets secret) (remote : remotes dtlsFingerprint) :
    Plays prim options side secrets remotes
      (app.onOffer prim side.peerAddress callId mediaSecret sdp dtlsFingerprint now) := by
  have hown : side.Own { callId, peerAddress := side.peerAddress, direction := .incoming, state := .ringingIncoming
                         startedAt := some now } := ⟨own, rfl⟩
  unfold CallApp.onOffer
  split
  next => exact h.aside (.emit trivial)
  next =>
    dsimp only
    split
    next =>
      refine (h.aside (Aside.trans (Aside.own hown) ?_)).throw _
      exact .same rfl rfl rfl rfl rfl rfl rfl rfl rfl (fun _ h => Or.inl h) (Nat.le_refl _) (List.Subset.refl _)
        fun _ h => Or.inl h
    next secret hsecret =>
      refine Plays.aside ?_ (.emit trivial)
      refine h.setSecret app.allocated _ hown (held secret hsecret) ?_ ?_ rfl rfl rfl rfl rfl rfl rfl rfl rfl ?_ rfl
      · intro number engine peerAddress callId' buffer hmem
        have hcaller := (h.suits _ hmem).1
        rw [role] at hcaller
        cases hcaller
      · intro peerAddress callId' mediaSecret' sdp' dtlsFingerprint' hmem
        have hcaller := (h.vouched _ hmem).1
        rw [role] at hcaller
        cases hcaller
      · intro fingerprint hf
        obtain rfl := Option.some.inj hf
        exact remote

/-- The caller hears an answer. -/
theorem Plays.onAnswer (h : Plays prim options side secrets remotes app) (peerAddress callId : String) {dtlsFingerprint : String}
    (role : side.role = .caller) (remote : remotes dtlsFingerprint) :
    Plays prim options side secrets remotes (app.onAnswer peerAddress callId dtlsFingerprint) := by
  unfold CallApp.onAnswer
  split
  next => exact h
  next =>
    have hplays : Plays prim options side secrets remotes { app with remoteFingerprint := some dtlsFingerprint } := by
      refine ⟨h.current, h.suits, h.offering, h.once, h.placed, h.piped, h.secret, h.keys, h.localFingerprint,
        fun fingerprint hf => ?_, h.installs, fun event hmem => ?_⟩
      · obtain rfl := Option.some.inj hf
        exact remote
      · exact (h.vouched event hmem).mono rfl fun blank => ⟨blank.mediaSecret, blank.keys, blank.installing, blank.unseen⟩
    dsimp only
    refine Plays.aside (hplays.aside (.modifyEngine app.engine fun media hpiped => ?_)) (.suspend app.begun rfl ?_)
    · exact hpiped
    · exact role

theorem Plays.answerCall (h : Plays prim options side secrets remotes app) (supports : Bool) (role : side.role = .callee)
    (engines : app.engines = []) : Plays prim options side secrets remotes (app.answerCall prim options supports) := by
  obtain ⟨hdescribing, hreported⟩ := h.unplaced engines
  unfold CallApp.answerCall
  split
  next => exact h.throw _
  next call hcall =>
    have hown : side.Own call := by
      unfold CallApp.answerable at hcall
      split at hcall
      next => exact h.current call (Option.filter_eq_some_iff.mp hcall).1
      next => cases hcall
    dsimp only
    split
    next =>
      have hplays := h.aside (.createMediaEngine (piped_new supports none false false))
      exact (hplays.aside (.closeMediaEngine _ hplays.piped)).aside (.suspend _ rfl hown)
    next =>
      have hplays := h.aside (.createMediaEngine (piped_new supports (some (call.peerAddress, call.callId)) true true))
      refine Plays.describe (hplays.aside ?_) _ ?_ ?_ rfl ⟨role, hown⟩ fun _ _ _ _ => nofun
      · exact .same rfl rfl rfl rfl rfl rfl rfl rfl rfl (fun _ h => Or.inl h) (Nat.le_refl _) (List.Subset.refl _)
          fun _ h => Or.inl h
      · show app.describing + app.reported.length = 0
        rw [hdescribing, hreported, List.length_nil]
      · show 1 ≤ (app.engines ++ [_]).length
        rw [List.length_append, List.length_singleton]
        omega

theorem piped_installFrameKeys (buffers : SecretBuffer → K) {keys : CallKeyMaterial SecretBuffer} {media : MediaEngine}
    (sendKey : ∃ n, keys.sendKey = .sendKey n) (receiveKey : ∃ n, keys.receiveKey = .receiveKey n) (piped : Piped media) :
    Piped (media.installFrameKeys prim buffers keys).1 := by
  obtain ⟨hsender, hreceiver, _⟩ := @installFrameKeys_pipeline _ prim buffers keys media
  refine ⟨fun sender hmem => ?_, fun buffer hmem => ?_⟩
  · rcases hsender with heq | heq
    · exact piped.1 sender (heq ▸ hmem)
    · rw [heq] at hmem
      obtain rfl := Option.some.inj hmem
      exact sendKey
  · rcases hreceiver with heq | heq
    · exact piped.2 buffer (heq ▸ hmem)
    · rw [heq] at hmem
      obtain rfl := Option.some.inj hmem
      exact receiveKey

/-- An end that has its secret is not blank: its offers have said it. -/
theorem Vouched.of_secret {event : CallEvent} (h : Vouched prim options side secrets remotes app event)
    (reported : next.reported = app.reported) (had : app.mediaSecret.isSome) :
    Vouched prim options side secrets remotes next event := by
  refine h.mono reported fun blank => ?_
  rw [blank.mediaSecret] at had
  cases had

theorem Plays.setKeys (h : Plays prim options side secrets remotes app) {keys : CallKeyMaterial SecretBuffer}
    {derived : CallKeyMaterial K} (allocated : Nat) (had : app.mediaSecret.isSome)
    (hderived : DerivedAt prim options side secrets remotes app.reported derived) (sas : keys.sas = derived.sas)
    (sasDigits : keys.sasDigits = derived.sasDigits) :
    Plays prim options side secrets remotes { app with keys := some keys, allocated := allocated } := by
  refine ⟨h.current, h.suits, h.offering, h.once, h.placed, h.piped, h.secret, fun keys' hkeys => ?_, h.localFingerprint,
    h.remoteFingerprint, h.installs, fun event hmem => (h.vouched event hmem).of_secret rfl had⟩
  obtain rfl := Option.some.inj hkeys
  exact ⟨derived, hderived, sas, sasDigits⟩

theorem Plays.install (h : Plays prim options side secrets remotes app) {installs : List (KeyInstall K)}
    (had : app.mediaSecret.isSome)
    (new : ∀ install ∈ installs, DerivedAt prim options side secrets remotes app.reported install.keys) :
    Plays prim options side secrets remotes { app with installing := app.installing ++ installs } := by
  refine ⟨h.current, h.suits, h.offering, h.once, h.placed, h.piped, h.secret, h.keys, h.localFingerprint,
    h.remoteFingerprint, fun install hmem => ?_, fun event hmem => (h.vouched event hmem).of_secret rfl had⟩
  exact (List.mem_append.mp hmem).elim (h.installs install) (new install)

/-- Derived keys go into new buffers and into the engine. -/
theorem Plays.installDerived (h : Plays prim options side secrets remotes app) (number : Nat) {call : CallInfo}
    {peerIdentity : PublicIdentity} {localFingerprint remoteFingerprint : String} {mediaRootSecret : K}
    {derived : CallKeyMaterial K} {after : AfterKeys} (own : side.Own call) (had : app.mediaSecret.isSome)
    (answers : Answers side app.reported after)
    (hderived : DerivedAt prim options side secrets remotes app.reported derived) :
    Plays prim options side secrets remotes (app.installDerived prim number call side.role peerIdentity localFingerprint
      remoteFingerprint mediaRootSecret derived after) := by
  have hkeys := @Plays.setKeys _ _ _ _ _ _ _ h
    { derived with sendKey := .sendKey app.allocated, receiveKey := .receiveKey app.allocated } derived (app.allocated + 1)
    had hderived rfl rfl
  unfold CallApp.installDerived
  dsimp only
  refine Plays.aside (Plays.install (Plays.aside (Plays.aside (hkeys.aside (.fill derived.sendKey ?_))
    (.fill derived.receiveKey ?_)) (.modifyEngine app.engine fun media hpiped => ?_)) had fun install hmem => ?_)
    (.suspend number rfl ⟨own, answers⟩)
  · exact fun _ => nofun
  · exact fun _ => nofun
  · exact piped_installFrameKeys _ ⟨_, rfl⟩ ⟨_, rfl⟩ hpiped
  · unfold keyInstall at hmem
    obtain ⟨engine, _, rfl⟩ := Option.map_eq_some_iff.mp (Option.mem_toList.mp hmem)
    exact hderived

theorem Plays.deriveAndInstallKeys (h : Plays prim options side secrets remotes app) (number : Nat) {role : CallRole}
    {resolvePeerIdentity : String → Option PublicIdentity} {after : AfterKeys} (same : role = side.role)
    (resolves : ∀ identity ∈ resolvePeerIdentity side.peerAddress, identity = side.peerIdentity)
    (answers : Answers side app.reported after) : Plays prim options side secrets remotes
      (app.deriveAndInstallKeys prim options number role resolvePeerIdentity after) := by
  unfold CallApp.deriveAndInstallKeys
  split
  next call secret localFingerprint remoteFingerprint hcall hsecret hlocal hremote =>
    have hown := h.current call hcall
    split
    next => exact h.throw _
    next peerIdentity hpeer =>
      split
      next => exact h.throw _
      next derived hderived =>
        subst same
        obtain rfl := resolves peerIdentity (hown.2 ▸ hpeer)
        refine h.installDerived number hown ?_ answers ⟨_, localFingerprint, remoteFingerprint, hown.1 ▸ hderived, ?_, ?_, ?_⟩
        · rw [hsecret]
          rfl
        · exact (h.secret secret hsecret).2
        · exact h.localFingerprint localFingerprint (Option.filter_eq_some_iff.mp hlocal).1
        · exact h.remoteFingerprint remoteFingerprint (Option.filter_eq_some_iff.mp hremote).1
  next => exact h.throw _

theorem Plays.showSas (h : Plays prim options side secrets remotes app) (number : Nat) {call : CallInfo} {after : AfterKeys}
    (own : side.Own call) (answers : Answers side app.reported after) :
    Plays prim options side secrets remotes (app.showSas number call after) := by
  unfold CallApp.showSas
  split
  next => exact h.throw _
  next keys hkeys =>
    have hown : side.Own { call with sas := some keys.sas, sasDigits := some keys.sasDigits } := own
    obtain ⟨derived, hderived, hsas, hdigits⟩ := h.keys keys hkeys
    refine Plays.aside (Plays.aside (Plays.emit (h.aside (.own hown)) ?_ fun blank => ?_) (.emit ?_))
      (.suspend number rfl answers)
    · exact ⟨derived, hderived, congrArg some hsas, congrArg some hdigits⟩
    · have hkeys' : app.keys = none := blank.keys
      rw [hkeys'] at hkeys
      cases hkeys
    · trivial

/-- A method whose engine is described: nothing was reported, and no other waits for a description. -/
theorem Plays.described (h : Plays prim options side secrets remotes app) {index number : Nat} {task : Suspended K}
    (at' : app.suspended[index]? = some (number, task)) (waits : task.describes = true) :
    ({ app with suspended := app.suspended.eraseIdx index } : CallApp K).describing = 0 ∧ app.reported = [] ∧
      1 ≤ app.engines.length := by
  obtain ⟨hlt, hget⟩ := List.getElem?_eq_some_iff.mp at'
  have hperm := (List.getElem_cons_eraseIdx_perm hlt).countP_eq (fun entry => entry.2.describes)
  have hcons := @List.countP_cons_of_pos _ (fun entry => entry.2.describes) (number, task)
    (app.suspended.eraseIdx index) waits
  have hone : ({ app with suspended := app.suspended.eraseIdx index } : CallApp K).describing + 1 = app.describing := by
    rw [hget, hcons] at hperm
    exact hperm
  have honce := h.once
  have hplaced := h.placed
  exact ⟨by omega, List.length_eq_zero_iff.mp (by omega), by omega⟩

theorem Plays.resume (h : Plays prim options side secrets remotes app) {index number : Nat} {task : Suspended K}
    {settlement : Settlement} {resolvePeerIdentity : String → Option PublicIdentity} {now : Int}
    (at' : app.suspended[index]? = some (number, task))
    (resolves : ∀ identity ∈ resolvePeerIdentity side.peerAddress, identity = side.peerIdentity) :
    Plays prim options side secrets remotes (({ app with suspended := app.suspended.eraseIdx index } : CallApp K).resume prim
      options number task settlement resolvePeerIdentity now) := by
  have hmem := List.mem_of_getElem? at'
  have hsuits := h.suits _ hmem
  have herased := h.aside (.erase index)
  unfold CallApp.resume
  split
  case h_1 engine peerAddress callId secret sdp dtlsFingerprint =>
    obtain ⟨hdescribing, hreported, hengines⟩ := h.described at' rfl
    obtain ⟨hkeys, hnone, hplain⟩ := h.silent hreported
    have hreport := herased.report engine dtlsFingerprint hdescribing hreported hengines
    refine Plays.aside (Plays.emit hreport ?_ ?_) (.suspend number rfl trivial)
    · refine ⟨hsuits.1, hsuits.2, ?_, ?_⟩
      · show app.reported ++ [dtlsFingerprint] = _
        rw [hreported, List.nil_append]
      · cases hsecret : app.mediaSecret with
        | none => exact Or.inl ⟨rfl, hkeys, hnone, fun call hmem => hplain _ hmem⟩
        | some buffer =>
          obtain rfl := h.offering number engine peerAddress callId secret hmem buffer hsecret
          exact Or.inr ⟨_, (h.secret buffer hsecret).2, rfl⟩
    · exact fun _ _ => nofun
  case h_2 => exact herased.aside (.show side _)
  case h_3 => exact Plays.aside (herased.aside (.hangup _ _ _)) (.suspend number rfl trivial)
  case h_4 =>
    refine Plays.throw (herased.aside (.setState .ended ?_ ?_)) _
    · exact fun _ => rfl
    · exact fun _ => rfl
  case h_5 engine call sdp dtlsFingerprint =>
    obtain ⟨hdescribing, hreported, hengines⟩ := h.described at' rfl
    have hreport := herased.report engine dtlsFingerprint hdescribing hreported hengines
    refine Plays.deriveAndInstallKeys (hreport.aside ?_) number hsuits.1.symm resolves ⟨hsuits.1, hsuits.2, ?_⟩
    · exact .same rfl rfl rfl rfl rfl rfl rfl rfl rfl (fun _ h => Or.inl h) (Nat.le_refl _) (List.Subset.refl _)
        fun _ h => Or.inl h
    · show app.reported ++ [dtlsFingerprint] = _
      rw [hreported, List.nil_append]
  case h_6 => exact herased.deriveAndInstallKeys number (Eq.symm hsuits) resolves trivial
  case h_7 call install accepted after =>
    refine Plays.showSas (herased.aside ?_) number hsuits.1 hsuits.2
    exact .same rfl rfl rfl rfl rfl rfl rfl rfl rfl (fun _ h => Or.inl h) (Nat.le_refl _) (List.Subset.refl _)
      fun _ h => Or.inl h
  case h_8 call sdp dtlsFingerprint =>
    refine Plays.aside (Plays.emit herased ?_ ?_) (.suspend number rfl trivial)
    · exact ⟨hsuits.1, hsuits.2.2⟩
    · exact fun _ _ => nofun
  case h_9 => exact herased.aside (.setState .connecting (fun _ => rfl) fun _ => rfl)
  case h_10 => exact herased.aside (.setState .connecting (fun _ => rfl) fun _ => rfl)
  case h_11 => exact herased.aside (.closeCurrentEngine number _ herased.piped)
  case h_12 => exact herased.aside (.closeCurrentEngine number _ herased.piped)
  case h_13 => exact herased.aside (.clearCall _ now)
  case h_18 => exact herased
  all_goals exact herased.throw _

theorem Start.plays (h : Start app) : Plays prim options side secrets remotes app := by
  obtain ⟨buffers, rfl⟩ := h
  have hnone : ∀ {α : Type} {x : α}, x ∉ (none : Option α) := Option.not_mem_none _
  have hnil : ∀ {α : Type} {x : α}, x ∉ ([] : List α) := List.not_mem_nil
  exact ⟨fun _ hmem => absurd hmem hnone, fun _ hmem => absurd hmem hnil, fun _ _ _ _ _ hmem => absurd hmem hnil,
    Nat.zero_le _, Nat.le_refl _, fun _ hmem => absurd hmem hnil, fun _ hmem => absurd hmem hnone,
    fun _ hmem => absurd hmem hnone, fun _ hmem => absurd hmem hnone, fun _ hmem => absurd hmem hnone,
    fun _ hmem => absurd hmem hnil, fun _ hmem => absurd hmem hnil⟩

theorem Plays.hear (h : Plays prim options side secrets remotes app) {signal : CallSignal} (now : Int)
    (hears : Hears prim side secrets remotes signal) :
    Plays prim options side secrets remotes (app.perform prim options (.handleSignal side.peerAddress signal now)) := by
  cases signal with
  | offer callId mediaSecret sdp dtlsFingerprint =>
    obtain ⟨hrole, hid, hremote, hsecret⟩ := hears
    exact h.onOffer now hrole hid hsecret hremote
  | answer callId sdp dtlsFingerprint => exact h.onAnswer side.peerAddress callId hears.1 hears.2
  | ice callId candidate =>
    simp only [perform, handleSignal]
    split
    next => exact h.aside (.modifyEngine app.engine fun media hpiped => hpiped)
    next => exact h
  | hangup callId reason =>
    simp only [perform, handleSignal]
    split
    next => exact h.aside (.endCall reason false h.piped)
    next => exact h

theorem Plays.perform (h : Plays prim options side secrets remotes app) {secret : K} {move : CallMove K}
    (held : side.role = .caller → secrets secret) (allows : Allows side secret app move) :
    Plays prim options side secrets remotes (app.perform prim options move) := by
  cases move with
  | placeCall peerAddress id supports secret' now =>
    obtain ⟨hrole, hpeer, hid, rfl, hengines⟩ := allows
    exact h.placeCall supports now hrole hpeer hid (held hrole) hengines
  | handleSignal => exact allows.elim
  | answerCall supports => exact h.answerCall supports allows.1 allows.2
  | endCall reason notify => exact h.aside (.endCall reason notify h.piped)
  | confirmSas =>
    simp only [CallApp.perform, confirmSas]
    split
    next => exact h
    next call hcall =>
      have hown : side.Own { call with sasConfirmed := some true } := h.current call hcall
      exact Plays.aside (h.aside (.own hown)) (.emit trivial)
  | localCandidate engine candidate =>
    simp only [CallApp.perform, onLocalCandidate]
    split
    next => exact h
    next => exact h.aside (.emit trivial)
  | connected engine =>
    simp only [CallApp.perform, onConnected]
    split
    next => exact h.aside (.setState .connected (fun _ => rfl) fun _ => rfl)
    next => exact h
  | disconnected engine =>
    simp only [CallApp.perform, onDisconnected]
    split
    next => exact h.aside (.endCall "disconnected" false h.piped)
    next => exact h
  | frame engine data =>
    simp only [CallApp.perform, transformFrame]
    split
    next => exact h
    next sender hsender =>
      obtain ⟨media, hmedia, hsome⟩ := Option.bind_eq_some_iff.mp hsender
      have hkey := (h.piped media (List.mem_of_getElem? hmedia)).1 sender hsome
      have hsealed : ∀ sealedWith, Aside side app { app with sealedWith := sealedWith } := by
        intro sealedWith
        exact .same rfl rfl rfl rfl rfl rfl rfl rfl rfl (fun _ h => Or.inl h) (Nat.le_refl _) (List.Subset.refl _)
          fun _ h => Or.inl h
      refine Plays.aside (h.aside (hsealed _)) (.modifyEngine (some engine) fun media hpiped => ⟨fun sender' hmem => ?_, ?_⟩)
      · obtain rfl := Option.some.inj hmem
        exact hkey
      · exact hpiped.2
  | resume index settlement resolvePeerIdentity now =>
    simp only [CallApp.perform]
    split
    next => exact h
    next number task hat => exact h.resume hat allows

end

end CallApp

end Veil
