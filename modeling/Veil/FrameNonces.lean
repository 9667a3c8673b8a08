import Veil.FrameKeys

namespace Veil

/-- What the KDF is trusted with: no two derivations of media keys, and no two of frame keys, that differ in what goes
into the KDF besides the root secret, give one key. -/
structure CallPrimitives.CollisionFree {K : Type} (prim : CallPrimitives K) : Prop where
  mediaKdf : ∀ {secret secret' salt salt' info info'}, prim.mediaKdf secret salt info = prim.mediaKdf secret' salt' info' →
    salt = salt' ∧ info = info'
  kdf : ∀ {key key' info info'}, prim.kdf key [] info = prim.kdf key' [] info' → key = key' ∧ info = info'

/-- The keys come from the secret, the call's id, both identities and both fingerprints. -/
def KeyInstall.Derived {K : Type} (prim : CallPrimitives K) (options : CallManagerOptions) (install : KeyInstall K) : Prop :=
  deriveCallKeys prim install.mediaRootSecret (CallApp.callParams install.role options.selfIdentity install.peerIdentity
    install.callId install.localFingerprint install.remoteFingerprint) = .ok install.keys

section

variable {K : Type} {prim : CallPrimitives K} {options : CallManagerOptions}

theorem frameKeys_inj (free : prim.CollisionFree) {key key' : K} {counter counter' : Int} {keys : AeadKeys K}
    (h : frameKeys prim.toFramePrimitives key counter = .ok keys)
    (h' : frameKeys prim.toFramePrimitives key' counter' = .ok keys) : key = key' ∧ counter = counter' := by
  have hread : ∀ {key : K} {counter : Int}, frameKeys prim.toFramePrimitives key counter = .ok keys →
      0 ≤ counter ∧ counter.toNat < 2 ^ 64 ∧
        keys = prim.kdf key [] (sframeFrameLabel ++ Writer.bigEndian64 counter.toNat) := by
    intro key counter h
    obtain ⟨w, hw, hkeys⟩ := Outcome.bind_eq_ok_iff.mp h
    obtain rfl := Outcome.pure_eq_ok_iff.mp hkeys
    unfold Writer.u64 at hw
    split at hw
    next => cases hw
    next hrange =>
      obtain rfl := Except.ok.inj hw
      exact ⟨by omega, by omega, rfl⟩
  obtain ⟨hnonneg, hlt, hkeys⟩ := hread h
  obtain ⟨hnonneg', hlt', hkeys'⟩ := hread h'
  obtain ⟨rfl, hinfo⟩ := free.kdf (hkeys.symm.trans hkeys')
  have hcounter := bigEndian64_inj hlt hlt' (List.append_cancel_left hinfo)
  exact ⟨rfl, by omega⟩

/-- The transcript and the direction are in the key, so the fingerprint of the sender's engine is. -/
theorem KeyInstall.Derived.localFingerprint_eq (free : prim.CollisionFree) {install install' : KeyInstall K}
    (h : install.Derived prim options) (h' : install'.Derived prim options)
    (heq : install.keys.sendKey = install'.keys.sendKey) : install.localFingerprint = install'.localFingerprint := by
  obtain ⟨transcript, htranscript, hsend, _⟩ := deriveCallKeys_eq_ok h
  obtain ⟨transcript', htranscript', hsend', _⟩ := deriveCallKeys_eq_ok h'
  rw [hsend, hsend'] at heq
  obtain ⟨rfl, hlabel⟩ := free.mediaKdf heq
  have hrole : install.role = install'.role := directionLabel_inj hlabel
  obtain ⟨_, _, _, hcaller, hcallee⟩ := callTranscript_binds htranscript htranscript'
  cases hr : install.role with
  | caller =>
    have hr' : install'.role = .caller := hrole ▸ hr
    rw [hr, hr'] at hcaller
    exact utf8_inj hcaller
  | callee =>
    have hr' : install'.role = .callee := hrole ▸ hr
    rw [hr, hr'] at hcallee
    exact utf8_inj hcallee

namespace CallApp

variable {app next : CallApp K}

/-- At most one key install is made, of derived keys. -/
def Installs (prim : CallPrimitives K) (options : CallManagerOptions) (app next : CallApp K) : Prop :=
  next.installing = app.installing ∨
    ∃ install : KeyInstall K, install.Derived prim options ∧ next.installing = app.installing ++ [install]

theorem installDerived_installing (number : Nat) (call : CallInfo) (role : CallRole) (peerIdentity : PublicIdentity)
    (localFingerprint remoteFingerprint : String) (mediaRootSecret : K) (derived : CallKeyMaterial K) (after : AfterKeys) :
    (app.installDerived prim number call role peerIdentity localFingerprint remoteFingerprint mediaRootSecret derived
      after).installing = app.installing ++ (app.keyInstall number call role peerIdentity localFingerprint
        remoteFingerprint mediaRootSecret derived).toList := rfl

theorem deriveAndInstallKeys_installs (number : Nat) (role : CallRole)
    (resolvePeerIdentity : String → Option PublicIdentity) (after : AfterKeys) :
    Installs prim options app (app.deriveAndInstallKeys prim options number role resolvePeerIdentity after) := by
  unfold deriveAndInstallKeys
  split
  next call secret localFingerprint remoteFingerprint _ _ _ _ =>
    split
    next => exact Or.inl rfl
    next peerIdentity _ =>
      split
      next => exact Or.inl rfl
      next derived hderived =>
        have hinstalling := @installDerived_installing _ prim app number call role peerIdentity
          localFingerprint remoteFingerprint (app.buffers secret) derived after
        unfold keyInstall at hinstalling
        cases hengine : app.engine with
        | none => exact Or.inl (by rw [hinstalling, hengine, Option.map_none, Option.toList_none, List.append_nil])
        | some engine =>
          rw [hengine, Option.map_some, Option.toList_some] at hinstalling
          refine Or.inr ⟨_, ?_, hinstalling⟩
          exact hderived
  next => exact Or.inl rfl

theorem endCall_installing (reason : String) (notify : Bool) :
    (app.endCall prim reason notify).installing = app.installing := by
  unfold endCall
  split
  next => rfl
  next => split <;> rfl

theorem resume_installs (number : Nat) (task : Suspended K) (settlement : Settlement)
    (resolvePeerIdentity : String → Option PublicIdentity) (now : Int) :
    Installs prim options app (app.resume prim options number task settlement resolvePeerIdentity now) := by
  unfold resume
  split
  case h_5 => exact deriveAndInstallKeys_installs _ _ _ _
  case h_6 => exact deriveAndInstallKeys_installs _ _ _ _
  case h_7 =>
    unfold showSas
    split <;> exact Or.inl rfl
  all_goals exact Or.inl rfl

theorem perform_installs (move : CallMove K) : Installs prim options app (app.perform prim options move) := by
  cases move with
  | placeCall peerAddress id supports secret now =>
    simp only [perform, placeCall]
    split
    next => exact Or.inl rfl
    next => split <;> exact Or.inl rfl
  | handleSignal peerAddress signal now =>
    cases signal with
    | offer callId mediaSecret sdp dtlsFingerprint =>
      simp only [perform, handleSignal, onOffer]
      split
      next => exact Or.inl rfl
      next => split <;> exact Or.inl rfl
    | answer callId sdp dtlsFingerprint =>
      simp only [perform, handleSignal, onAnswer]
      split <;> exact Or.inl rfl
    | ice callId candidate =>
      simp only [perform, handleSignal]
      split <;> exact Or.inl rfl
    | hangup callId reason =>
      simp only [perform, handleSignal]
      split
      next => exact Or.inl (endCall_installing _ _)
      next => exact Or.inl rfl
  | answerCall supports =>
    simp only [perform, answerCall]
    split
    next => exact Or.inl rfl
    next => split <;> exact Or.inl rfl
  | endCall reason notify => exact Or.inl (endCall_installing _ _)
  | confirmSas =>
    simp only [perform, confirmSas]
    split <;> exact Or.inl rfl
  | localCandidate engine candidate =>
    simp only [perform, onLocalCandidate]
    split <;> exact Or.inl rfl
  | connected engine =>
    simp only [perform, onConnected]
    split <;> exact Or.inl rfl
  | disconnected engine =>
    simp only [perform, onDisconnected]
    split
    next => exact Or.inl (endCall_installing _ _)
    next => exact Or.inl rfl
  | frame engine data =>
    simp only [perform, transformFrame]
    split <;> exact Or.inl rfl
  | resume index settlement resolvePeerIdentity now =>
    simp only [perform]
    split
    next => exact Or.inl rfl
    next => exact resume_installs _ _ _ _ _

/-- What every state of an orderly run is. -/
structure Rekeyed (prim : CallPrimitives K) (options : CallManagerOptions) (app : CallApp K) : Prop where
  setup : Relation.ReflTransGen KeySetup.Step {} app.setup
  single : app.setup.Single
  sound : app.Sound
  channels : ∃ c, Relation.ReflTransGen KeyedChannels.Step {} c ∧ Channelled prim app c
  derived : ∀ install ∈ app.installing, install.Derived prim options

theorem Start.rekeyed (h : Start app) : Rekeyed prim options app := by
  obtain ⟨buffers, rfl⟩ := h
  refine ⟨.refl, ?_, ?_, ⟨{}, .refl, fun _ => rfl, rfl, rfl⟩, nofun⟩
  · exact KeySetup.single_empty
  · exact ⟨nofun, nofun, nofun, nofun, nofun, nofun, nofun, nofun⟩

theorem Rekeyed.step (h : Rekeyed prim options app)
    (step : Step prim options Orderly app next) : Rekeyed prim options next := by
  obtain ⟨move, possible, orderly, rfl⟩ := step
  have hsetup := (@perform_setup _ prim options) orderly
  obtain ⟨sound, hchannels⟩ := perform_follows possible orderly h.single.keyed h.sound
  obtain ⟨c, hrun, hc⟩ := h.channels
  obtain ⟨c', hrun', hc'⟩ := hchannels c hc
  refine ⟨h.setup.trans hsetup, Runs.preserved (fun _ _ step => step.single) hsetup h.single, sound,
    ⟨c', hrun.trans hrun', hc'⟩, ?_⟩
  rcases perform_installs move with heq | ⟨install, hderived, heq⟩
  · rw [heq]
    exact h.derived
  · rw [heq]
    intro install' hmem
    rcases List.mem_append.mp hmem with hmem | hmem
    · exact h.derived install' hmem
    · obtain rfl := List.mem_singleton.mp hmem
      exact hderived

/-- In a run of orderly steps, with collision-free primitives and engines that report fingerprints of their own, keys are
installed once a call, no send key is installed twice, and no frame key and nonce are used twice. -/
theorem frames_once (free : prim.CollisionFree) (start : Start app)
    (run : Relation.ReflTransGen (Step prim options Orderly) app next) (certified : next.reported.Nodup) :
    (next.installing.map (fun install => install.call)).Nodup ∧
      (next.installing.map (fun install => install.keys.sendKey)).Nodup ∧ next.sealedWith.Nodup := by
  have h : Rekeyed prim options next := Runs.preserved (fun _ _ step h => h.step step) run start.rekeyed
  obtain ⟨hcalls, hfingerprints⟩ := KeySetup.derived_once h.setup
  simp only [setup, List.map_map, Function.comp_def] at hcalls hfingerprints
  have hfingerprints := hfingerprints certified
  have hkeys : (next.installing.map (fun install => install.keys.sendKey)).Nodup := by
    rw [List.Nodup, List.pairwise_map] at hfingerprints ⊢
    refine hfingerprints.imp_of_mem ?_
    intro install install' hmem hmem' hne heq
    exact hne ((h.derived install hmem).localFingerprint_eq free (h.derived install' hmem') heq)
  obtain ⟨c, hrun, hc⟩ := h.channels
  refine ⟨hcalls, hkeys, ?_⟩
  rw [hc.used]
  refine (KeyedChannels.used_nodup hrun (hc.keyed ▸ hkeys)).filterMap ?_
  rintro ⟨key, counter⟩ ⟨key', counter'⟩ keys hused hused'
  have hok : ∀ {sender : SframeSender K}, nextFrameKeys prim sender = some keys →
      frameKeys prim.toFramePrimitives sender.key sender.counter = .ok keys := by
    intro sender h
    unfold nextFrameKeys at h
    split at h
    next => cases h
    next =>
      cases hframe : frameKeys prim.toFramePrimitives sender.key sender.counter with
      | error e =>
        rw [hframe] at h
        cases h
      | ok keys' =>
        rw [hframe] at h
        exact congrArg Except.ok (Option.some.inj h)
  obtain ⟨rfl, rfl⟩ := frameKeys_inj free (hok hused) (hok hused')
  rfl

end CallApp

end

deriving instance DecidableEq for AeadKeys

/-- Each key spells out what it was derived from. -/
def spelledCalls : CallPrimitives (List Bytes) where
  keyLength _ := 32
  kdf key salt info := ⟨salt :: info :: key, [info]⟩
  aeadEncrypt key nonce plaintext associatedData := .ok (key.flatten ++ nonce.flatten ++ associatedData ++ plaintext)
  aeadDecrypt key nonce ciphertext associatedData :=
    let header := key.flatten ++ nonce.flatten ++ associatedData
    if header.isPrefixOf ciphertext then .ok (ciphertext.drop header.length)
    else .error (.authentication "decryption failed")
  mediaKdf secret salt info := salt :: info :: secret
  sasKdf secret salt info := (secret.flatten ++ salt ++ info).take 8
  secretText secret := toBase64Url secret.flatten
  secretFromText text := (fromBase64Url text).map (fun secret => [secret])
  wiped _ := []

theorem spelledCalls_collisionFree : spelledCalls.CollisionFree where
  mediaKdf h := by
    obtain ⟨rfl, htail⟩ := List.cons.inj h
    exact ⟨rfl, (List.cons.inj htail).1⟩
  kdf h := by
    have hkey := (List.cons.inj (AeadKeys.mk.inj h).1).2
    exact ⟨(List.cons.inj hkey).2, (List.cons.inj hkey).1⟩

namespace CallApp

def caller : PublicIdentity := ⟨[1], [2], []⟩

def callee : PublicIdentity := ⟨[3], [4], []⟩

def callOptions : CallManagerOptions where
  selfIdentity := caller

def resolves : String → Option PublicIdentity := fun _ => some callee

/-- A call up to its keys, with the first frame sent. -/
def keyedCall : List (CallMove (List Bytes)) :=
  [.placeCall "callee" [0xca] true [[7]] 0,
   .resume 0 (.described "sdp" "own") resolves 0,
   .resume 0 .resolved resolves 0,
   .handleSignal "callee" (.answer "ca" "sdp" "theirs") 0,
   .resume 0 .resolved resolves 0,
   .resume 0 .resolved resolves 0,
   .frame 0 [1]]

theorem frames_once_keyedCall : ∃ app : CallApp (List Bytes),
    app.installing.map (fun install => install.localFingerprint) = ["own"] ∧ app.sealedWith.length = 1 ∧
      (app.installing.map (fun install => install.call)).Nodup ∧
      (app.installing.map (fun install => install.keys.sendKey)).Nodup ∧ app.sealedWith.Nodup := by
  refine ⟨performAll spelledCalls callOptions { buffers := fun _ => [] } keyedCall, by decide +kernel, by decide +kernel, ?_⟩
  refine frames_once spelledCalls_collisionFree ⟨fun _ => [], rfl⟩
    (reaches_performAll ?_) ?_
  · decide +kernel
  · decide +kernel

/-- The peer sends its answer again once frames have been sent. -/
theorem answer_again : ∃ app : CallApp (List Bytes),
    Relation.ReflTransGen (Step spelledCalls callOptions (fun _ _ => True)) { buffers := fun _ => [] } app ∧
      ¬ (app.installing.map (fun install => install.call)).Nodup ∧
      ¬ (app.installing.map (fun install => install.keys.sendKey)).Nodup ∧ ¬ app.sealedWith.Nodup := by
  refine ⟨performAll spelledCalls callOptions { buffers := fun _ => [] } (keyedCall ++
    [.handleSignal "callee" (.answer "ca" "sdp" "theirs") 0, .resume 1 .resolved resolves 0, .frame 0 [2]]), ?_, ?_, ?_, ?_⟩
  · exact reaches_performAll (by decide +kernel)
  · decide +kernel
  · decide +kernel
  · decide +kernel

end CallApp

end Veil
