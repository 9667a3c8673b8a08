import Veil.Library.KeyedChannels
import Veil.MediaKeys

namespace Veil

namespace CallApp

section

variable {K : Type} (prim : CallPrimitives K)

def sender (app : CallApp K) (engine : Nat) : Option (SframeSender SecretBuffer) :=
  app.engines[engine]?.bind (fun media => media.sframeSender)

def receiver (app : CallApp K) (engine : Nat) : Option SecretBuffer :=
  app.engines[engine]?.bind (fun media => media.sframeReceiver)

def isClosed (app : CallApp K) (engine : Nat) : Bool := app.engines[engine]?.any (fun media => media.closed)

/-- What an open engine sends with: the content of its key's buffer, and its counter. -/
def channel (app : CallApp K) (engine : Nat) : Option (K × Int) :=
  if app.isClosed engine then none
  else (app.sender engine).map (fun sender => (app.buffers sender.key, sender.counter))

/-- Each buffer has one use, no two engines send from one buffer, and an open engine that sends from the buffer in
`keys` is the one in place. -/
structure Sound (app : CallApp K) : Prop where
  sender : ∀ e s, app.sender e = some s → ∃ n < app.allocated, s.key = .sendKey n
  own : ∀ e e' s s', app.sender e = some s → app.sender e' = some s' → s.key = s'.key → e = e'
  receiver : ∀ e b, app.receiver e = some b → ∃ n, b = .receiveKey n
  secret : ∀ b, app.mediaSecret = some b → ∃ n, b = .mediaRootSecret n
  keys : ∀ k, app.keys = some k → (∃ n < app.allocated, k.sendKey = .sendKey n) ∧ ∃ n, k.receiveKey = .receiveKey n
  placed : ∀ k e s, app.keys = some k → app.isClosed e = false → app.sender e = some s → s.key = k.sendKey →
    app.engine = some e
  closing : ∀ n e reason, (n, .closingEngine (some e) reason) ∈ app.suspended → app.isClosed e = true
  inPlace : ∀ e, app.engine = some e → e < app.engines.length

/-- The abstract channels that go with a state of the app. -/
structure Channelled (app : CallApp K) (c : KeyedChannels Nat K) : Prop where
  channel : ∀ engine, c.channel engine = app.channel engine
  keyed : c.keyed = app.installing.map (fun install => install.keys.sendKey)
  used : app.sealedWith = c.used.filterMap (fun (key, counter) => nextFrameKeys prim ⟨key, counter⟩)

/-- What the app does between two states is something the channels can do. -/
def Follows (app next : CallApp K) : Prop :=
  app.Sound → next.Sound ∧ ∀ c, Channelled prim app c →
    ∃ c', Relation.ReflTransGen KeyedChannels.Step c c' ∧ Channelled prim next c'

end

section

variable {K : Type} {prim : CallPrimitives K} {options : CallManagerOptions} {app next last : CallApp K}

theorem Follows.refl (app : CallApp K) : Follows prim app app := fun sound => ⟨sound, fun c hc => ⟨c, .refl, hc⟩⟩

theorem Follows.trans (h : Follows prim app next) (h' : Follows prim next last) : Follows prim app last := by
  intro sound
  obtain ⟨sound', hnext⟩ := h sound
  obtain ⟨sound'', hlast⟩ := h' sound'
  refine ⟨sound'', fun c hc => ?_⟩
  obtain ⟨c', run, hc'⟩ := hnext c hc
  obtain ⟨c'', run', hc''⟩ := hlast c' hc'
  exact ⟨c'', run.trans run', hc''⟩

/-- A state with the same engines, where no open one sends from a buffer that was written. -/
theorem Follows.aside (engines : next.engines = app.engines) (allocated : app.allocated ≤ next.allocated)
    (installing : next.installing = app.installing) (sealedWith : next.sealedWith = app.sealedWith)
    (secret : ∀ b, next.mediaSecret = some b → app.mediaSecret = some b ∨ ∃ n, b = .mediaRootSecret n)
    (keys : next.keys = none ∨ next.keys = app.keys ∧ next.engine = app.engine)
    (engine : ∀ e, next.engine = some e → app.engine = some e ∨ e < app.engines.length)
    (closing : ∀ n e reason, (n, .closingEngine (some e) reason) ∈ next.suspended →
      (n, .closingEngine (some e) reason) ∈ app.suspended ∨ app.isClosed e = true)
    (buffers : app.Sound → ∀ e s, app.isClosed e = false → app.sender e = some s →
      next.buffers s.key = app.buffers s.key) : Follows prim app next := by
  intro sound
  have hsender : next.sender = app.sender := by
    funext e
    rw [sender, sender, engines]
  have hreceiver : next.receiver = app.receiver := by
    funext e
    rw [receiver, receiver, engines]
  have hclosed : next.isClosed = app.isClosed := by
    funext e
    rw [isClosed, isClosed, engines]
  refine ⟨⟨?_, ?_, ?_, ?_, ?_, ?_, ?_, ?_⟩, fun c hc => ⟨c, .refl, ?_, ?_, ?_⟩⟩
  · intro e s hs
    obtain ⟨n, hn, hkey⟩ := sound.sender e s (hsender ▸ hs)
    exact ⟨n, hn.trans_le allocated, hkey⟩
  · rw [hsender]
    exact sound.own
  · rw [hreceiver]
    exact sound.receiver
  · intro b hb
    exact (secret b hb).elim (sound.secret b) id
  · intro k hk
    rcases keys with hnone | ⟨hkeys, _⟩
    · rw [hnone] at hk
      cases hk
    · obtain ⟨⟨n, hn, hsend⟩, hreceive⟩ := sound.keys k (hkeys ▸ hk)
      exact ⟨⟨n, hn.trans_le allocated, hsend⟩, hreceive⟩
  · intro k e s hk
    rcases keys with hnone | ⟨hkeys, hengine⟩
    · rw [hnone] at hk
      cases hk
    · rw [hsender, hclosed, hengine]
      exact sound.placed k e s (hkeys ▸ hk)
  · intro n e reason hmem
    rw [hclosed]
    exact (closing n e reason hmem).elim (sound.closing n e reason) id
  · intro e he
    rw [engines]
    exact (engine e he).elim (sound.inPlace e) id
  · intro engine
    rw [hc.channel, channel, channel, hclosed, hsender]
    split
    next => rfl
    next hopen =>
      cases hs : app.sender engine with
      | none => rfl
      | some s => rw [Option.map_some, Option.map_some, buffers sound engine s (Bool.eq_false_iff.mpr hopen) hs]
  · rw [hc.keyed, installing]
  · rw [sealedWith]
    exact hc.used

/-- A state where only what is waiting, and what was shown, is different. -/
theorem Follows.same (engine : next.engine = app.engine) (keys : next.keys = app.keys)
    (secret : next.mediaSecret = app.mediaSecret) (engines : next.engines = app.engines)
    (buffers : next.buffers = app.buffers) (allocated : next.allocated = app.allocated)
    (installing : next.installing = app.installing) (sealedWith : next.sealedWith = app.sealedWith)
    (closing : ∀ n e reason, (n, .closingEngine (some e) reason) ∈ next.suspended →
      (n, .closingEngine (some e) reason) ∈ app.suspended) : Follows prim app next :=
  .aside engines (Nat.le_of_eq allocated.symm) installing sealedWith (fun _ hb => Or.inl (secret ▸ hb))
    (Or.inr ⟨keys, engine⟩) (fun _ he => Or.inl (engine ▸ he))
    (fun n e reason hmem => Or.inl (closing n e reason hmem)) (fun _ _ _ _ _ => by rw [buffers])

theorem suspend_follows (number : Nat) {task : Suspended K}
    (closing : ∀ e reason, task = .closingEngine (some e) reason → app.isClosed e = true) :
    Follows prim app (app.suspend number task) := by
  refine .aside rfl (Nat.le_refl _) rfl rfl (fun _ hb => Or.inl hb) (Or.inr ⟨rfl, rfl⟩) (fun _ he => Or.inl he) ?_
    (fun _ _ _ _ _ => rfl)
  intro n e reason hmem
  rcases List.mem_append.mp hmem with hmem | hmem
  · exact Or.inl hmem
  · obtain ⟨_, htask⟩ := Prod.mk.inj (List.mem_singleton.mp hmem)
    exact Or.inr (closing e reason htask.symm)

/-- A state with other engines, where the same ones send from the same buffers. -/
theorem Follows.engines {engines : List MediaEngine} (length : app.engines.length ≤ engines.length)
    (sender : ∀ e, ({ app with engines } : CallApp K).sender e = app.sender e)
    (receiver : ∀ e, ({ app with engines } : CallApp K).receiver e = app.receiver e)
    (closed : ∀ e, app.isClosed e = true → ({ app with engines } : CallApp K).isClosed e = true)
    (opened : ∀ e s, app.sender e = some s → ({ app with engines } : CallApp K).isClosed e = app.isClosed e) :
    Follows prim app { app with engines } := by
  intro sound
  refine ⟨⟨?_, ?_, ?_, sound.secret, sound.keys, ?_, ?_, ?_⟩, fun c hc => ⟨c, .refl, ?_, hc.keyed, hc.used⟩⟩
  · intro e s hs
    exact sound.sender e s (sender e ▸ hs)
  · intro e e' s s' hs hs'
    exact sound.own e e' s s' (sender e ▸ hs) (sender e' ▸ hs')
  · intro e b hb
    exact sound.receiver e b (receiver e ▸ hb)
  · intro k e s hk hclosed hs
    rw [sender] at hs
    exact sound.placed k e s hk (opened e s hs ▸ hclosed) hs
  · intro n e reason hmem
    exact closed e (sound.closing n e reason hmem)
  · intro e he
    exact (sound.inPlace e he).trans_le length
  · intro e
    rw [hc.channel, channel, channel, sender]
    cases hs : app.sender e with
    | none => simp
    | some s => rw [opened e s hs]

theorem createMediaEngine_follows {media : MediaEngine} (sends : media.sframeSender = none)
    (receives : media.sframeReceiver = none) : Follows prim app (app.createMediaEngine media) := by
  have hget : ∀ e : Nat, (app.engines ++ [media])[e]? = app.engines[e]? ∨
      app.engines[e]? = none ∧ (app.engines ++ [media])[e]? = some media := by
    intro e
    rcases Nat.lt_trichotomy e app.engines.length with h | rfl | h
    · exact Or.inl (List.getElem?_append_left h)
    · exact Or.inr ⟨List.getElem?_eq_none (Nat.le_refl _), List.getElem?_concat_length⟩
    · refine Or.inl ?_
      rw [List.getElem?_eq_none (Nat.le_of_lt h), List.getElem?_eq_none]
      simp only [List.length_append, List.length_singleton]
      omega
  refine .engines (by simp) ?_ ?_ ?_ ?_
  · intro e
    rcases hget e with h | ⟨hnone, h⟩
    · simp only [sender, h]
    · simp only [sender, hnone, h, Option.bind_some, sends, Option.bind_none]
  · intro e
    rcases hget e with h | ⟨hnone, h⟩
    · simp only [receiver, h]
    · simp only [receiver, hnone, h, Option.bind_some, receives, Option.bind_none]
  · intro e hclosed
    rcases hget e with h | ⟨hnone, h⟩
    · simpa only [isClosed, h] using hclosed
    · simp [isClosed, hnone] at hclosed
  · intro e s hs
    rcases hget e with h | ⟨hnone, h⟩
    · simp only [isClosed, h]
    · simp [sender, hnone] at hs

theorem modifyEngine_get (f : MediaEngine → MediaEngine) (engine : Option Nat) (e : Nat) :
    (app.modifyEngine engine f).engines[e]? =
      if engine = some e then app.engines[e]?.map f else app.engines[e]? := by
  cases engine with
  | none => simp [modifyEngine]
  | some e' =>
    simp only [modifyEngine, Option.elim_some, List.getElem?_modify, Option.some.injEq]
    split
    next => rfl
    next => exact Option.map_id'

theorem modifyEngine_pipeline (f : MediaEngine → MediaEngine) (engine : Option Nat) (e : Nat) :
    (app.modifyEngine engine f).sender e = (if engine = some e then
        app.engines[e]?.bind (fun media => (f media).sframeSender) else app.sender e) ∧
      (app.modifyEngine engine f).receiver e = (if engine = some e then
        app.engines[e]?.bind (fun media => (f media).sframeReceiver) else app.receiver e) ∧
      (app.modifyEngine engine f).isClosed e = (if engine = some e then
        app.engines[e]?.any (fun media => (f media).closed) else app.isClosed e) := by
  simp only [sender, receiver, isClosed, modifyEngine_get]
  split
  next => cases app.engines[e]? <;> exact ⟨rfl, rfl, rfl⟩
  next => exact ⟨rfl, rfl, rfl⟩

theorem modifyEngine_length (f : MediaEngine → MediaEngine) (engine : Option Nat) :
    (app.modifyEngine engine f).engines.length = app.engines.length := by
  cases engine <;> simp [modifyEngine]

/-- What does not touch the pipeline of an engine. -/
theorem modifyEngine_follows {f : MediaEngine → MediaEngine} (engine : Option Nat)
    (sends : ∀ media, (f media).sframeSender = media.sframeSender)
    (receives : ∀ media, (f media).sframeReceiver = media.sframeReceiver)
    (closes : ∀ media, (f media).closed = media.closed) : Follows prim app (app.modifyEngine engine f) := by
  have hpipeline := @modifyEngine_pipeline _ app f engine
  simp only [sends, receives, closes] at hpipeline
  refine .engines (Nat.le_of_eq (modifyEngine_length f engine).symm) (fun e => (hpipeline e).1.trans (ite_self _))
    (fun e => (hpipeline e).2.1.trans (ite_self _)) (fun e h => ?_) (fun e _ _ => (hpipeline e).2.2.trans (ite_self _))
  exact ((hpipeline e).2.2.trans (ite_self _)).trans h

theorem wipe_other {b : SecretBuffer} {buffer : Option SecretBuffer} (h : buffer ≠ some b) :
    (app.wipe prim buffer).buffers b = app.buffers b := by
  cases buffer with
  | none => rfl
  | some b' => exact Function.update_of_ne (fun heq => h (by rw [heq])) _ _

/-- Closing an engine drops its channel. -/
theorem closeMediaEngine_follows (engine : Option Nat) : Follows prim app (app.closeMediaEngine prim engine) := by
  cases engine with
  | none => exact .same rfl rfl rfl rfl rfl rfl rfl rfl (fun _ _ _ h => h)
  | some e =>
    intro sound
    have hpipeline : ∀ e', (app.closeMediaEngine prim (some e)).sender e' = (if e = e' then none else app.sender e') ∧
        (app.closeMediaEngine prim (some e)).receiver e' = (if e = e' then none else app.receiver e') ∧
        (app.closeMediaEngine prim (some e)).isClosed e' =
          (if e = e' then app.engines[e']?.isSome else app.isClosed e') := by
      intro e'
      obtain ⟨hsender, hreceiver, hclosed⟩ := @modifyEngine_pipeline _ app
        (fun media => { media with sframeSender := none, sframeReceiver := none, closed := true }) (some e) e'
      simp only [Option.some.injEq] at hsender hreceiver hclosed
      refine ⟨hsender.trans ?_, hreceiver.trans ?_, hclosed.trans ?_⟩
      · cases app.engines[e']? <;> rfl
      · cases app.engines[e']? <;> rfl
      · cases app.engines[e']? <;> rfl
    have hlength : (app.closeMediaEngine prim (some e)).engines.length = app.engines.length :=
      modifyEngine_length _ (some e)
    have hbuffers : ∀ e' s, e ≠ e' → app.sender e' = some s →
        (app.closeMediaEngine prim (some e)).buffers s.key = app.buffers s.key := by
      intro e' s hne hs
      obtain ⟨n, _, hkey⟩ := sound.sender e' s hs
      refine (wipe_other ?_).trans (wipe_other ?_)
      · intro h
        obtain ⟨m, hm⟩ := sound.receiver e s.key h
        rw [hkey] at hm
        cases hm
      · intro h
        obtain ⟨media, hmedia, h⟩ := Option.bind_eq_some_iff.mp h
        obtain ⟨s', hs', heq⟩ := Option.map_eq_some_iff.mp h
        exact hne (sound.own e e' s' s (Option.bind_eq_some_iff.mpr ⟨media, hmedia, hs'⟩) hs heq)
    have hsub : ∀ e' s, (app.closeMediaEngine prim (some e)).sender e' = some s → e ≠ e' ∧ app.sender e' = some s := by
      intro e' s hs
      rw [(hpipeline e').1] at hs
      split at hs
      next => cases hs
      next hne => exact ⟨hne, hs⟩
    refine ⟨⟨?_, ?_, ?_, sound.secret, sound.keys, ?_, ?_, ?_⟩, fun c hc => ⟨_, .single (.drop c e), ?_, hc.keyed,
      hc.used⟩⟩
    · intro e' s hs
      exact sound.sender e' s (hsub e' s hs).2
    · intro e' e'' s s' hs hs'
      exact sound.own e' e'' s s' (hsub e' s hs).2 (hsub e'' s' hs').2
    · intro e' b hb
      rw [(hpipeline e').2.1] at hb
      split at hb
      next => cases hb
      next => exact sound.receiver e' b hb
    · intro k e' s hk hclosed hs
      obtain ⟨hne, hs⟩ := hsub e' s hs
      rw [(hpipeline e').2.2, if_neg hne] at hclosed
      exact sound.placed k e' s hk hclosed hs
    · intro n e' reason hmem
      have hclosed := sound.closing n e' reason hmem
      rw [(hpipeline e').2.2]
      split
      next =>
        cases hmedia : app.engines[e']? with
        | none => simp [isClosed, hmedia] at hclosed
        | some media => rfl
      next => exact hclosed
    · intro e' he
      rw [hlength]
      exact sound.inPlace e' he
    · intro e'
      show Function.update c.channel e none e' = _
      rw [Function.update_apply, hc.channel, channel, channel, (hpipeline e').1, (hpipeline e').2.2]
      by_cases he : e = e'
      · subst he
        simp
      · rw [if_neg (Ne.symm he), if_neg he, if_neg he]
        cases hs : app.sender e' with
        | none => rfl
        | some s => rw [Option.map_some, Option.map_some, hbuffers e' s he hs]

theorem installFrameKeys_pipeline (buffers : SecretBuffer → K) (keys : CallKeyMaterial SecretBuffer) (media : MediaEngine) :
    ((media.installFrameKeys prim buffers keys).1.sframeSender = media.sframeSender ∨
        (media.installFrameKeys prim buffers keys).1.sframeSender = some ⟨keys.sendKey, 0⟩) ∧
      ((media.installFrameKeys prim buffers keys).1.sframeReceiver = media.sframeReceiver ∨
        (media.installFrameKeys prim buffers keys).1.sframeReceiver = some keys.receiveKey) ∧
      (media.installFrameKeys prim buffers keys).1.closed = media.closed := by
  unfold MediaEngine.installFrameKeys
  split
  next => exact ⟨Or.inl rfl, Or.inl rfl, rfl⟩
  next =>
    split
    next => exact ⟨Or.inl rfl, Or.inl rfl, rfl⟩
    next sender hsender =>
      have hcounter : sender.counter = 0 := by
        unfold createSender at hsender
        split at hsender
        next => cases hsender
        next =>
          obtain rfl := Except.ok.inj hsender
          rfl
      simp only [hcounter]
      split
      next => exact ⟨Or.inr rfl, Or.inl rfl, rfl⟩
      next => exact ⟨Or.inr rfl, Or.inr rfl, rfl⟩

variable (number : Nat) (call : CallInfo) (role : CallRole) (peerIdentity : PublicIdentity)
  (localFingerprint remoteFingerprint : String) (mediaRootSecret : K) (derived : CallKeyMaterial K) (after : AfterKeys)

/-- Derived keys go to buffers of their own. -/
theorem installDerived_buffers (eq : next = app.installDerived prim number call role peerIdentity localFingerprint
      remoteFingerprint mediaRootSecret derived after) :
    next.buffers (.sendKey app.allocated) = derived.sendKey ∧
      ∀ n < app.allocated, next.buffers (.sendKey n) = app.buffers (.sendKey n) := by
  have hbuffers : next.buffers = Function.update (Function.update app.buffers (.sendKey app.allocated)
      derived.sendKey) (.receiveKey app.allocated) derived.receiveKey := by
    subst eq
    rfl
  have hne : ∀ n, SecretBuffer.sendKey n ≠ .receiveKey app.allocated := nofun
  rw [hbuffers]
  refine ⟨by rw [Function.update_of_ne (hne _), Function.update_self], fun n hn => ?_⟩
  have hnew : SecretBuffer.sendKey n ≠ .sendKey app.allocated := by
    intro h
    exact absurd (SecretBuffer.sendKey.inj h) (Nat.ne_of_lt hn)
  rw [Function.update_of_ne (hne n), Function.update_of_ne hnew]

/-- The engine in place, if it takes the keys, sends with them from counter 0. -/
theorem installDerived_pipeline (eq : next = app.installDerived prim number call role peerIdentity localFingerprint
      remoteFingerprint mediaRootSecret derived after) (e : Nat) :
    (next.sender e = app.sender e ∨ app.engine = some e ∧ next.sender e = some ⟨.sendKey app.allocated, 0⟩) ∧
      (next.receiver e = app.receiver e ∨ next.receiver e = some (.receiveKey app.allocated)) ∧
      next.isClosed e = app.isClosed e := by
  subst eq
  let keys : CallKeyMaterial SecretBuffer :=
    { derived with sendKey := .sendKey app.allocated, receiveKey := .receiveKey app.allocated }
  let filled : CallApp K := (({ app with keys := some keys, allocated := app.allocated + 1 } : CallApp K).fill
    keys.sendKey derived.sendKey).fill keys.receiveKey derived.receiveKey
  obtain ⟨hsender, hreceiver, hclosed⟩ := modifyEngine_pipeline
    (fun media => (media.installFrameKeys prim filled.buffers keys).1) app.engine e
  have hengines : filled.engines = app.engines := rfl
  rw [hengines] at hsender hreceiver hclosed
  rw [show (app.installDerived prim number call role peerIdentity localFingerprint remoteFingerprint mediaRootSecret
      derived after).sender e = _ from hsender, show (app.installDerived prim number call role peerIdentity
      localFingerprint remoteFingerprint mediaRootSecret derived after).receiver e = _ from hreceiver,
    show (app.installDerived prim number call role peerIdentity localFingerprint remoteFingerprint mediaRootSecret
      derived after).isClosed e = _ from hclosed]
  by_cases he : app.engine = some e
  · simp only [if_pos he, sender, receiver, isClosed]
    cases app.engines[e]? with
    | none => exact ⟨Or.inl rfl, Or.inl rfl, rfl⟩
    | some media =>
      obtain ⟨hsends, hreceives, hcloses⟩ := installFrameKeys_pipeline filled.buffers keys media
      exact ⟨hsends.imp id (fun h => ⟨he, h⟩), hreceives, hcloses⟩
  · simp only [if_neg he]
    exact ⟨Or.inl rfl, Or.inl rfl, rfl⟩

theorem installDerived_sound (eq : next = app.installDerived prim number call role peerIdentity localFingerprint
      remoteFingerprint mediaRootSecret derived after) (sound : app.Sound) : next.Sound := by
  have hpipeline := installDerived_pipeline number call role peerIdentity localFingerprint remoteFingerprint
    mediaRootSecret derived after eq
  have hsource : ∀ e s, next.sender e = some s →
      app.sender e = some s ∨ app.engine = some e ∧ s = ⟨.sendKey app.allocated, 0⟩ := by
    intro e s hs
    rcases (hpipeline e).1 with h | ⟨he, h⟩
    · exact Or.inl (h ▸ hs)
    · exact Or.inr ⟨he, Option.some.inj (hs.symm.trans h)⟩
  have hold : ∀ e s, app.sender e = some s → s.key ≠ .sendKey app.allocated := by
    intro e s hs heq
    obtain ⟨n, hn, hkey⟩ := sound.sender e s hs
    exact absurd (SecretBuffer.sendKey.inj (hkey.symm.trans heq)) (Nat.ne_of_lt hn)
  have hkeys : ∀ k, next.keys = some k → k.sendKey = .sendKey app.allocated ∧ k.receiveKey = .receiveKey app.allocated := by
    intro k hk
    subst eq
    obtain rfl := Option.some.inj hk
    exact ⟨rfl, rfl⟩
  have hallocated : next.allocated = app.allocated + 1 := by
    subst eq
    rfl
  have hengine : next.engine = app.engine := by
    subst eq
    rfl
  refine ⟨?_, ?_, ?_, ?_, ?_, ?_, ?_, ?_⟩
  · intro e s hs
    rw [hallocated]
    rcases hsource e s hs with h | ⟨_, rfl⟩
    · obtain ⟨n, hn, hkey⟩ := sound.sender e s h
      exact ⟨n, Nat.lt_succ_of_lt hn, hkey⟩
    · exact ⟨app.allocated, Nat.lt_succ_self _, rfl⟩
  · intro e e' s s' hs hs' heq
    rcases hsource e s hs with h | ⟨he, rfl⟩ <;> rcases hsource e' s' hs' with h' | ⟨he', rfl⟩
    · exact sound.own e e' s s' h h' heq
    · exact absurd heq (hold e s h)
    · exact absurd heq.symm (hold e' s' h')
    · exact Option.some.inj (he.symm.trans he')
  · intro e b hb
    rcases (hpipeline e).2.1 with h | h
    · exact sound.receiver e b (h ▸ hb)
    · exact ⟨app.allocated, Option.some.inj (hb.symm.trans h)⟩
  · subst eq
    exact sound.secret
  · intro k hk
    obtain ⟨hsend, hreceive⟩ := hkeys k hk
    rw [hallocated]
    exact ⟨⟨_, Nat.lt_succ_self _, hsend⟩, _, hreceive⟩
  · intro k e s hk _ hs heq
    rcases hsource e s hs with h | ⟨he, _⟩
    · exact absurd (heq.trans (hkeys k hk).1) (hold e s h)
    · exact hengine.trans he
  · intro n e reason hmem
    rw [(hpipeline e).2.2]
    subst eq
    rcases List.mem_append.mp hmem with hmem | hmem
    · exact sound.closing n e reason hmem
    · cases List.mem_singleton.mp hmem
  · intro e he
    have hlength : next.engines.length = app.engines.length := by
      subst eq
      exact modifyEngine_length _ app.engine
    rw [hlength]
    exact sound.inPlace e (hengine ▸ he)

/-- An engine that does not take the keys, or is closed, sends as before. -/
theorem installDerived_follows : Follows prim app (app.installDerived prim number call role peerIdentity
    localFingerprint remoteFingerprint mediaRootSecret derived after) := by
  intro sound
  obtain ⟨last, eq⟩ : ∃ last, last = app.installDerived prim number call role peerIdentity localFingerprint
    remoteFingerprint mediaRootSecret derived after := ⟨_, rfl⟩
  have hpipeline := installDerived_pipeline number call role peerIdentity localFingerprint remoteFingerprint
    mediaRootSecret derived after eq
  obtain ⟨hnew, hold⟩ := installDerived_buffers number call role peerIdentity localFingerprint remoteFingerprint
    mediaRootSecret derived after eq
  have hinstalling : last.installing.map (fun install => install.keys.sendKey) =
      app.installing.map (fun install => install.keys.sendKey) ++ app.engine.toList.map (fun _ => derived.sendKey) := by
    subst eq
    show (app.installing ++ (app.keyInstall number call role peerIdentity localFingerprint remoteFingerprint
      mediaRootSecret derived).toList).map _ = _
    rw [List.map_append, keyInstall]
    cases app.engine <;> rfl
  have hsealed : last.sealedWith = app.sealedWith := by
    subst eq
    rfl
  have hsame : ∀ e, last.sender e = app.sender e → last.channel e = app.channel e := by
    intro e hsame
    rw [channel, channel, hsame, (hpipeline e).2.2]
    cases hs : app.sender e with
    | none => rfl
    | some s =>
      obtain ⟨n, hn, hkey⟩ := sound.sender e s hs
      rw [Option.map_some, Option.map_some, hkey, hold n hn]
  rw [← eq]
  refine ⟨installDerived_sound number call role peerIdentity localFingerprint remoteFingerprint mediaRootSecret derived
    after eq sound, fun c hc => ?_⟩
  cases hengine : app.engine with
  | none =>
    refine ⟨c, .refl, fun e => ?_, ?_, hsealed.trans hc.used⟩
    · rw [hsame e ((hpipeline e).1.resolve_right (by rw [hengine]; exact fun heq => by cases heq.1)), hc.channel]
    · rw [hinstalling, hc.keyed, hengine, Option.toList_none, List.map_nil, List.append_nil]
  | some engine =>
    have hkeyed : c.keyed ++ [derived.sendKey] = last.installing.map (fun install => install.keys.sendKey) := by
      rw [hinstalling, hc.keyed, hengine, Option.toList_some, List.map_singleton]
    by_cases htaken : last.sender engine = app.sender engine ∨ app.isClosed engine = true
    · refine ⟨_, .single (.announce c derived.sendKey), fun e => ?_, hkeyed, hsealed.trans hc.used⟩
      show c.channel e = last.channel e
      rw [hc.channel]
      rcases (hpipeline e).1 with h | ⟨he, _⟩
      · exact (hsame e h).symm
      · rw [hengine] at he
        obtain rfl := Option.some.inj he
        rcases htaken with h | h
        · exact (hsame engine h).symm
        · rw [channel, channel, (hpipeline engine).2.2, h]
          rfl
    · rw [not_or] at htaken
      obtain ⟨htaken, hopen⟩ := htaken
      refine ⟨_, .single (.key c engine derived.sendKey), fun e => ?_, hkeyed, hsealed.trans hc.used⟩
      show Function.update c.channel engine (some (derived.sendKey, 0)) e = last.channel e
      rw [Function.update_apply]
      split
      next he =>
        subst he
        rw [channel, (hpipeline e).2.2, if_neg hopen, ((hpipeline e).1.resolve_left htaken).2, Option.map_some, hnew]
      next hne =>
        rw [hc.channel]
        refine (hsame e ((hpipeline e).1.resolve_right (fun h => hne ?_))).symm
        exact (Option.some.inj (hengine.symm.trans h.1)).symm

end

section

variable {K : Type} {prim : CallPrimitives K} {options : CallManagerOptions} {app : CallApp K}

theorem encryptFrame_counter (prim : FramePrimitives K) (sender : SframeSender K) (frame : Bytes) :
    (encryptFrame prim sender frame []).1.counter =
      if sender.counter > maxFrameCounter then sender.counter else sender.counter + 1 := by
  unfold encryptFrame
  split <;> rfl

/-- A frame passes through an open engine: its channel is used once, or it is used up. -/
theorem transformFrame_follows {engine : Nat} (frame : Bytes) (opened : app.isClosed engine = false) :
    Follows prim app (app.transformFrame prim engine frame) := by
  intro sound
  unfold transformFrame
  split
  next => exact ⟨sound, fun c hc => ⟨c, .refl, hc⟩⟩
  next s hs =>
    set content : SframeSender K := ⟨app.buffers s.key, s.counter⟩ with hcontent
    set counter := (encryptFrame prim.toFramePrimitives content frame []).1.counter with hcounter
    set last := (({ app with sealedWith := app.sealedWith ++ (nextFrameKeys prim content).toList } : CallApp K)
      |>.modifyEngine (some engine) (fun media => { media with sframeSender := some ⟨s.key, counter⟩ })) with hlast
    have hpipeline : ∀ e, last.sender e = (if engine = e then some ⟨s.key, counter⟩ else app.sender e) ∧
        last.receiver e = app.receiver e ∧ last.isClosed e = app.isClosed e := by
      intro e
      obtain ⟨hsender, hreceiver, hclosed⟩ := modifyEngine_pipeline
        (fun media => { media with sframeSender := some ⟨s.key, counter⟩ }) (some engine) e
      simp only [Option.some.injEq] at hsender hreceiver hclosed
      refine ⟨hsender.trans ?_, hreceiver.trans (ite_self _), hclosed.trans (ite_self _)⟩
      split
      next he =>
        subst he
        obtain ⟨media, hmedia, _⟩ := Option.bind_eq_some_iff.mp hs
        rw [hmedia]
        rfl
      next => rfl
    have hsource : ∀ e s', last.sender e = some s' → ∃ s'', app.sender e = some s'' ∧ s''.key = s'.key := by
      intro e s' hs'
      rw [(hpipeline e).1] at hs'
      split at hs'
      next he =>
        obtain rfl := Option.some.inj hs'
        exact ⟨s, he ▸ hs, rfl⟩
      next => exact ⟨s', hs', rfl⟩
    refine ⟨⟨?_, ?_, ?_, sound.secret, sound.keys, ?_, ?_, ?_⟩, fun c hc => ?_⟩
    · intro e s' hs'
      obtain ⟨s'', hs'', heq⟩ := hsource e s' hs'
      exact heq ▸ sound.sender e s'' hs''
    · intro e e' s₁ s₂ hs₁ hs₂ heq
      obtain ⟨s₁', hs₁', heq₁⟩ := hsource e s₁ hs₁
      obtain ⟨s₂', hs₂', heq₂⟩ := hsource e' s₂ hs₂
      exact sound.own e e' s₁' s₂' hs₁' hs₂' (heq₁.trans (heq.trans heq₂.symm))
    · intro e b hb
      exact sound.receiver e b ((hpipeline e).2.1 ▸ hb)
    · intro k e s' hk hclosed hs' heq
      obtain ⟨s'', hs'', heq'⟩ := hsource e s' hs'
      exact sound.placed k e s'' hk ((hpipeline e).2.2 ▸ hclosed) hs'' (heq'.trans heq)
    · intro n e reason hmem
      rw [(hpipeline e).2.2]
      exact sound.closing n e reason hmem
    · intro e he
      have hlength : last.engines.length = app.engines.length := modifyEngine_length _ _
      rw [hlength]
      exact sound.inPlace e he
    · have hother : ∀ e, engine ≠ e → last.channel e = app.channel e := by
        intro e he
        rw [channel, channel, (hpipeline e).1, (hpipeline e).2.2, if_neg he]
        rfl
      have hself : last.channel engine = some (content.key, counter) := by
        rw [channel, (hpipeline engine).1, (hpipeline engine).2.2, if_pos rfl, opened]
        rfl
      have hholds : c.channel engine = some (content.key, content.counter) := by
        rw [hc.channel, channel, opened, show app.sender engine = some s from hs]
        rfl
      by_cases hexhausted : content.counter > maxFrameCounter
      · have hsame : counter = content.counter := by
          rw [hcounter, encryptFrame_counter, if_pos hexhausted]
        refine ⟨c, .refl, fun e => ?_, hc.keyed, ?_⟩
        · by_cases he : engine = e
          · subst he
            rw [hself, hholds, hsame]
          · rw [hother e he, hc.channel]
        · show app.sealedWith ++ _ = _
          rw [nextFrameKeys, if_pos hexhausted, hc.used, Option.toList_none, List.append_nil]
      · have hnext : counter = content.counter + 1 := by
          rw [hcounter, encryptFrame_counter, if_neg hexhausted]
        refine ⟨_, .single (.use c engine hholds), fun e => ?_, hc.keyed, ?_⟩
        · show Function.update c.channel engine (some (content.key, content.counter + 1)) e = _
          rw [Function.update_apply]
          split
          next he => rw [he, hself, hnext]
          next he => rw [hother e (Ne.symm he), hc.channel]
        · show app.sealedWith ++ _ = (c.used ++ [(content.key, content.counter)]).filterMap _
          rw [List.filterMap_append, hc.used]
          cases hkeys : nextFrameKeys prim content with
          | none => simp [hkeys]
          | some keys => simp [hkeys]

/-- The end of `endCall` wipes no key an open engine sends with, where the engine that was closed is still in place. -/
theorem clearCall_follows (reason : String) (now : Int) (closed : ∀ e, app.engine = some e → app.isClosed e = true) :
    Follows prim app (app.clearCall prim reason now) := by
  refine .aside rfl (Nat.le_refl _) rfl rfl nofun (Or.inl rfl) nofun (fun _ _ _ hmem => Or.inl hmem) ?_
  intro sound e s hopen hs
  obtain ⟨n, _, hkey⟩ := sound.sender e s hs
  show (((app.wipe prim (app.keys.map (fun keys => keys.sendKey))).wipe prim
    (app.keys.map (fun keys => keys.receiveKey))).wipe prim app.mediaSecret).buffers s.key = _
  rw [wipe_other, wipe_other, wipe_other]
  · intro h
    obtain ⟨k, hk, heq⟩ := Option.map_eq_some_iff.mp h
    have hplaced := sound.placed k e s hk hopen hs heq.symm
    rw [closed e hplaced] at hopen
    cases hopen
  · intro h
    obtain ⟨k, hk, heq⟩ := Option.map_eq_some_iff.mp h
    obtain ⟨_, m, hm⟩ := sound.keys k hk
    rw [heq, hkey] at hm
    cases hm
  · intro h
    obtain ⟨m, hm⟩ := sound.secret s.key h
    rw [hkey] at hm
    cases hm

theorem emit_follows (event : CallEvent) : Follows prim app (app.emit event) :=
  .same rfl rfl rfl rfl rfl rfl rfl rfl (fun _ _ _ h => h)

theorem setState_follows (state : CallState) (extra : CallInfo → CallInfo) : Follows prim app (app.setState state extra) :=
  .same rfl rfl rfl rfl rfl rfl rfl rfl (fun _ _ _ h => h)

theorem closeMediaEngine_isClosed {engine : Nat} (h : engine < app.engines.length) :
    (app.closeMediaEngine prim (some engine)).isClosed engine = true := by
  obtain ⟨media, hmedia⟩ : ∃ media, app.engines[engine]? = some media := ⟨_, List.getElem?_eq_getElem h⟩
  have hpipeline := @modifyEngine_pipeline _ app
    (fun media => { media with sframeSender := none, sframeReceiver := none, closed := true }) (some engine) engine
  refine (hpipeline.2.2.trans (if_pos rfl)).trans ?_
  rw [hmedia]
  rfl

theorem closeCurrentEngine_follows (number : Nat) (reason : String) :
    Follows prim app (app.closeCurrentEngine prim number reason) := by
  intro sound
  refine ((closeMediaEngine_follows app.engine).trans (suspend_follows number ?_)) sound
  intro e reason' htask
  obtain ⟨hengine, _⟩ := Suspended.closingEngine.inj htask
  rw [hengine]
  exact closeMediaEngine_isClosed (sound.inPlace e hengine)

theorem endCall_follows (reason : String) (notify : Bool) : Follows prim app (app.endCall prim reason notify) := by
  unfold endCall
  split
  next => exact .refl app
  next =>
    split
    next => exact (emit_follows _).trans (suspend_follows _ nofun)
    next => exact closeCurrentEngine_follows _ reason

theorem report_follows (engine : Nat) (dtlsFingerprint : String) : Follows prim app (app.report engine dtlsFingerprint) := by
  unfold report
  refine .trans ?_ (modifyEngine_follows (some engine) ?_ ?_ ?_)
  · exact .same rfl rfl rfl rfl rfl rfl rfl rfl (fun _ _ _ h => h)
  · exact fun _ => rfl
  · exact fun _ => rfl
  · exact fun _ => rfl

theorem deriveAndInstallKeys_follows (number : Nat) (role : CallRole)
    (resolvePeerIdentity : String → Option PublicIdentity) (next : AfterKeys) :
    Follows prim app (app.deriveAndInstallKeys prim options number role resolvePeerIdentity next) := by
  unfold deriveAndInstallKeys
  split
  next =>
    split
    next => exact emit_follows _
    next =>
      split
      next => exact emit_follows _
      next => exact installDerived_follows _ _ _ _ _ _ _ _ _
  next => exact emit_follows _

theorem resume_follows (number : Nat) {task : Suspended K} {settlement : Settlement}
    (resolvePeerIdentity : String → Option PublicIdentity) (now : Int)
    (closed : ∀ engine reason, task = .closingEngine engine reason → settlement = .resolved →
      ∀ e, app.engine = some e → app.isClosed e = true) :
    Follows prim app (app.resume prim options number task settlement resolvePeerIdentity now) := by
  unfold resume
  split
  next => exact ((report_follows _ _).trans (emit_follows _)).trans (suspend_follows _ nofun)
  next => exact .same rfl rfl rfl rfl rfl rfl rfl rfl (fun _ _ _ h => h)
  next => exact (emit_follows _).trans (suspend_follows _ nofun)
  next => exact (setState_follows _ _).trans (emit_follows _)
  next engine _ _ dtlsFingerprint =>
    refine ((report_follows engine dtlsFingerprint).trans ?_).trans (deriveAndInstallKeys_follows _ _ _ _)
    exact .same rfl rfl rfl rfl rfl rfl rfl rfl (fun _ _ _ h => h)
  next => exact deriveAndInstallKeys_follows _ _ _ _
  next _ install _ _ =>
    have hinstalled : Follows prim app { app with installed := app.installed ++ install.toList } :=
      .same rfl rfl rfl rfl rfl rfl rfl rfl (fun _ _ _ h => h)
    refine hinstalled.trans ?_
    unfold showSas
    split
    next => exact emit_follows _
    next =>
      refine .trans ?_ (suspend_follows _ nofun)
      exact .same rfl rfl rfl rfl rfl rfl rfl rfl (fun _ _ _ h => h)
  next => exact (emit_follows _).trans (suspend_follows _ nofun)
  next => exact setState_follows _ _
  next => exact setState_follows _ _
  next => exact closeCurrentEngine_follows _ _
  next => exact closeCurrentEngine_follows _ _
  next engine reason => exact clearCall_follows reason now (closed engine reason rfl rfl)
  all_goals first | exact emit_follows _ | exact .refl app

/-- A call begins, with its secret in a buffer of its own, once the last call's keys are gone or with its engine kept. -/
theorem begin_follows {next : CallApp K} (content : K) (engines : next.engines = app.engines)
    (allocated : next.allocated = app.allocated + 1) (installing : next.installing = app.installing)
    (sealedWith : next.sealedWith = app.sealedWith) (secret : next.mediaSecret = some (.mediaRootSecret app.allocated))
    (keys : next.keys = none ∨ next.keys = app.keys ∧ next.engine = app.engine)
    (engine : ∀ e, next.engine = some e → app.engine = some e ∨ e < app.engines.length)
    (suspended : next.suspended = app.suspended)
    (buffers : next.buffers = Function.update app.buffers (.mediaRootSecret app.allocated) content) :
    Follows prim app next := by
  refine .aside engines (by omega) installing sealedWith ?_ keys engine ?_ ?_
  · intro b hb
    rw [secret] at hb
    exact Or.inr ⟨_, (Option.some.inj hb).symm⟩
  · intro n e reason hmem
    rw [suspended] at hmem
    exact Or.inl hmem
  · intro sound e s _ hs
    obtain ⟨n, _, hkey⟩ := sound.sender e s hs
    have hne : SecretBuffer.sendKey n ≠ .mediaRootSecret app.allocated := nofun
    rw [buffers, hkey, Function.update_of_ne hne]

theorem placeCall_follows {peerAddress : String} {id : Bytes} {supports : Bool} {secret : K} {now : Int}
    (unkeyed : app.live = false → app.keys = none) :
    Follows prim app (app.placeCall prim options peerAddress id supports secret now) := by
  unfold placeCall
  split
  next => exact emit_follows _
  next hlive =>
    split
    next =>
      exact ((createMediaEngine_follows rfl rfl).trans (closeMediaEngine_follows _)).trans (emit_follows _)
    next =>
      refine .trans ?_ (suspend_follows _ nofun)
      refine .trans (@createMediaEngine_follows _ _ _ {
        supportsFrameEncryption := supports, handlers := some (peerAddress, toHex id)
        hasLocalDescription := true } rfl rfl) ?_
      refine begin_follows secret rfl rfl rfl rfl rfl (Or.inl (unkeyed (Bool.eq_false_iff.mpr hlive))) ?_ rfl rfl
      intro e he
      obtain rfl := Option.some.inj he
      exact Or.inr (by simp [createMediaEngine])

theorem onOffer_follows (peerAddress callId mediaSecret sdp dtlsFingerprint : String) (now : Int) :
    Follows prim app (app.onOffer prim peerAddress callId mediaSecret sdp dtlsFingerprint now) := by
  unfold onOffer
  split
  next => exact emit_follows _
  next =>
    split
    next =>
      refine .trans ?_ (emit_follows (.thrown _))
      exact .same rfl rfl rfl rfl rfl rfl rfl rfl (fun _ _ _ h => h)
    next secret _ =>
      refine .trans ?_ (emit_follows _)
      exact begin_follows secret rfl rfl rfl rfl rfl (Or.inr ⟨rfl, rfl⟩) (fun _ he => Or.inl he) rfl rfl

theorem answerCall_follows {supports : Bool} (unkeyed : app.answerable.isSome → app.keys = none) :
    Follows prim app (app.answerCall prim options supports) := by
  unfold answerCall
  split
  next => exact emit_follows _
  next call hcall =>
    split
    next =>
      exact ((createMediaEngine_follows rfl rfl).trans (closeMediaEngine_follows _)).trans (suspend_follows _ nofun)
    next =>
      refine .trans ?_ (suspend_follows _ nofun)
      refine .trans (@createMediaEngine_follows _ _ _ {
        supportsFrameEncryption := supports, handlers := some (call.peerAddress, call.callId)
        hasLocalDescription := true, hasRemoteDescription := true } rfl rfl) ?_
      refine .aside rfl (Nat.le_refl _) rfl rfl (fun _ hb => Or.inl hb) (Or.inl (unkeyed (by rw [hcall]; rfl))) ?_
        (fun _ _ _ hmem => Or.inl hmem) (fun _ _ _ _ _ => rfl)
      intro e he
      obtain rfl := Option.some.inj he
      exact Or.inr (by simp [createMediaEngine])

theorem onAnswer_follows (peerAddress callId dtlsFingerprint : String) :
    Follows prim app (app.onAnswer peerAddress callId dtlsFingerprint) := by
  unfold onAnswer
  split
  next => exact .refl app
  next =>
    refine .trans ?_ (suspend_follows _ nofun)
    refine .trans ?_ (modifyEngine_follows _ ?_ ?_ ?_)
    · exact .same rfl rfl rfl rfl rfl rfl rfl rfl (fun _ _ _ h => h)
    · exact fun _ => rfl
    · exact fun _ => rfl
    · exact fun _ => rfl

/-- Every orderly move is one that the channels can make. -/
theorem perform_follows {move : CallMove K} (possible : app.Possible move) (orderly : app.Orderly move)
    (keyed : app.keys.isSome → app.mediaSecret.isSome) : Follows prim app (app.perform prim options move) := by
  have hfree : app.FreeForSetup → app.keys = none := by
    intro h
    cases hkeys : app.keys with
    | none => rfl
    | some keys =>
      have := (h (keyed (by rw [hkeys]; rfl))).1
      rw [hkeys] at this
      cases this
  cases move with
  | placeCall peerAddress id supports secret now => exact placeCall_follows orderly
  | handleSignal peerAddress signal now =>
    cases signal with
    | offer callId mediaSecret sdp dtlsFingerprint => exact onOffer_follows _ _ _ _ _ _
    | answer callId sdp dtlsFingerprint => exact onAnswer_follows _ _ _
    | ice callId candidate =>
      simp only [perform, handleSignal]
      split
      next => exact modifyEngine_follows _ (fun _ => rfl) (fun _ => rfl) (fun _ => rfl)
      next => exact .refl app
    | hangup callId reason =>
      simp only [perform, handleSignal]
      split
      next => exact endCall_follows _ _
      next => exact .refl app
  | answerCall supports => exact answerCall_follows (fun h => hfree (orderly h))
  | endCall reason notify => exact endCall_follows _ _
  | confirmSas =>
    simp only [perform, confirmSas]
    split
    next => exact .refl app
    next => exact .same rfl rfl rfl rfl rfl rfl rfl rfl (fun _ _ _ h => h)
  | localCandidate engine candidate =>
    simp only [perform, onLocalCandidate]
    split
    next => exact .refl app
    next => exact emit_follows _
  | connected engine =>
    simp only [perform, onConnected]
    split
    next => exact setState_follows _ _
    next => exact .refl app
  | disconnected engine =>
    simp only [perform, onDisconnected]
    split
    next => exact endCall_follows _ _
    next => exact .refl app
  | frame engine data =>
    refine transformFrame_follows data ?_
    change app.engines[engine]?.any (fun media => !media.closed) = true at possible
    rw [isClosed]
    cases hmedia : app.engines[engine]? with
    | none => rfl
    | some media => simpa [hmedia] using possible
  | resume index settlement resolvePeerIdentity now =>
    simp only [perform]
    split
    next => exact .refl app
    next number task htask =>
      obtain ⟨before, after, hsuspended, herase⟩ := erased htask
      intro sound
      have herased : Follows prim app { app with suspended := app.suspended.eraseIdx index } := by
        refine .same rfl rfl rfl rfl rfl rfl rfl rfl ?_
        intro n e reason hmem
        exact List.mem_of_mem_eraseIdx hmem
      refine (herased.trans (resume_follows number resolvePeerIdentity now ?_)) sound
      rintro engine reason rfl rfl e he
      obtain rfl := (orderly (fun heq => by cases heq) (number, _) htask).2 engine rfl e he
      exact sound.closing number e reason (List.mem_of_getElem? htask)

end

end CallApp

end Veil
