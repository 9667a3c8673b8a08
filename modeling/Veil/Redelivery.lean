import Veil.Device
import Veil.Handshake
import Veil.Establishment
import Veil.Spelled

namespace Veil

section

variable {K : Type} {crypto : Cryptography K} {honest : Generators K}

theorem Traced.encrypt {prim : RatchetPrimitives K} {Good : K → Prop} {state : RatchetState K}
    (h : Traced prim Good state) (plaintext : Bytes) : Traced prim Good (ratchetEncrypt prim state plaintext).1 := by
  unfold ratchetEncrypt
  split
  next => exact h
  next => exact ⟨h.root, h.current, h.chain, h.cached⟩

theorem Tidy.encrypt {prim : RatchetPrimitives K} {visited : List Bytes} {read : List (Bytes × Nat)}
    {state : RatchetState K} (h : Tidy visited read state) (plaintext : Bytes) :
    Tidy visited read (ratchetEncrypt prim state plaintext).1 := by
  unfold ratchetEncrypt
  split
  next => exact h
  next => exact h.congr rfl rfl rfl rfl

/-- A session that has received nothing has nothing cached and no chain. -/
theorem Tidy.unread {visited : List Bytes} {read : List (Bytes × Nat)} {state : RatchetState K}
    (cache : state.skipped = OrderedMap.empty) (chain : state.receivingChainKey = none)
    (known : ∀ slot ∈ read, slot.1 ∈ visited) : Tidy visited read state where
  cached key n hget := by simp [cache] at hget
  current hc := by simp [chain] at hc
  spent key n hmem := ⟨known _ hmem, by simp [cache], fun _ => Or.inl chain⟩

theorem Traced.unread {prim : RatchetPrimitives K} {Good : K → Prop} {state : RatchetState K}
    (root : Good state.rootKey) (cache : state.skipped = OrderedMap.empty) (chain : state.receivingChainKey = none) :
    Traced prim Good state where
  root := root
  current hc := by simp [chain] at hc
  chain chainKey hc := by simp [chain] at hc
  cached key n entry hget := by simp [cache] at hget

theorem initialiseInitiator_eq_ok {prim : RatchetPrimitives K} {sending : KeyPair K} {rootSecret : K}
    {peer ad : Bytes} {state : RatchetState K} (h : initialiseInitiator prim sending rootSecret peer ad = .ok state) :
    (∃ dhOutput, state.rootKey = (prim.advanceRootChain rootSecret dhOutput).rootKey) ∧
      state.skipped = OrderedMap.empty ∧ state.receivingChainKey = none := by
  simp only [initialiseInitiator, Outcome.bind_eq_ok_iff, Outcome.pure_eq_ok_iff] at h
  obtain ⟨dhOutput, _, rfl⟩ := h
  exact ⟨⟨dhOutput, rfl⟩, rfl, rfl⟩

namespace Device

/-- A root key no handshake of this device can bring back. -/
def Retired (crypto : Cryptography K) (honest : Generators K) (self : PrivateIdentity K)
    (store : InMemoryPreKeyStore K) (rootKey : K) : Prop :=
  (∃ previous dhOutput, rootKey = (crypto.advanceRootChain previous dhOutput).rootKey) ∨
    UsedUp crypto honest self store rootKey

theorem Retired.advanced (crypto : Cryptography K) (honest : Generators K) (self : PrivateIdentity K)
    (store : InMemoryPreKeyStore K) (rootKey dhOutput : K) :
    Retired crypto honest self store (crypto.advanceRootChain rootKey dhOutput).rootKey :=
  Or.inl ⟨rootKey, dhOutput, rfl⟩

theorem Retired.later {self : PrivateIdentity K} {store next : InMemoryPreKeyStore K}
    (later : InMemoryPreKeyStore.Later crypto store next) {rootKey : K} (h : Retired crypto honest self store rootKey) :
    Retired crypto honest self next rootKey :=
  h.imp_right (fun used => used.later later)

/-- The message of an accepted envelope opened under a key that comes from a retired root. -/
structure Accepted (crypto : Cryptography K) (honest : Generators K) (w : Device K) (address : String)
    (message : RatchetMessage) : Prop where
  known : message.header.ratchetPublicKey ∈ w.visited address
  opened : ∃ messageKey associatedData plaintext,
    Rooted crypto.toRatchetPrimitives (Retired crypto honest w.self w.preKeys) message.header.messageNumber messageKey ∧
      openWith crypto.toRatchetPrimitives messageKey associatedData message = .ok plaintext

/-- What holds of a device between any two envelopes. -/
structure Guarded (crypto : Cryptography K) (honest : Generators K) (w : Device K) : Prop where
  numbered : w.preKeys.Numbered
  tidy : ∀ address session, w.sessions address = some session →
    Tidy (w.visited address) (w.readFrom crypto address) session.ratchet
  traced : ∀ address session, w.sessions address = some session →
    Traced crypto.toRatchetPrimitives (Retired crypto honest w.self w.preKeys) session.ratchet
  accepted : ∀ envelope ∈ w.accepted, ∃ address message, contents crypto w.self envelope = .ok (address, message) ∧
    Accepted crypto honest w address message

variable {w : Device K} {envelope : SealedEnvelope} {fresh : KeyPair K} {pins : String → Option Bytes}

theorem mem_readFrom {address : String} {place : Bytes × Nat} (h : place ∈ w.readFrom crypto address) :
    ∃ envelope ∈ w.accepted, ∃ message, contents crypto w.self envelope = .ok (address, message) ∧
      place = (message.header.ratchetPublicKey, message.header.messageNumber) := by
  obtain ⟨envelope, hmem, hslot⟩ := List.mem_filterMap.mp h
  refine ⟨envelope, hmem, ?_⟩
  unfold slot at hslot
  split at hslot
  next => simp at hslot
  next sender message hcontents =>
    split at hslot
    next heq => exact ⟨message, by rw [hcontents, heq], (Option.some.inj hslot).symm⟩
    next => simp at hslot

theorem Guarded.known (h : w.Guarded crypto honest) (address : String) :
    ∀ place ∈ w.readFrom crypto address, place.1 ∈ w.visited address := by
  intro place hmem
  obtain ⟨envelope, hin, message, hcontents, rfl⟩ := mem_readFrom hmem
  obtain ⟨address', message', hcontents', haccepted⟩ := h.accepted envelope hin
  rw [hcontents, Except.ok.injEq, Prod.mk.injEq] at hcontents'
  obtain ⟨rfl, rfl⟩ := hcontents'
  exact haccepted.known

/-- Putting a session that is tidy and traced in its place keeps the device guarded. -/
theorem Guarded.setSession (h : w.Guarded crypto honest) {address : String} {session : Option (Session K)}
    (tidy : ∀ s, session = some s → Tidy (w.visited address) (w.readFrom crypto address) s.ratchet)
    (traced : ∀ s, session = some s →
      Traced crypto.toRatchetPrimitives (Retired crypto honest w.self w.preKeys) s.ratchet) :
    (w.setSession address session).Guarded crypto honest where
  numbered := h.numbered
  tidy := by
    intro a s hs
    simp only [Device.setSession, Function.update_apply] at hs
    split at hs
    next heq => subst heq; exact tidy s hs
    next => exact h.tidy a s hs
  traced := by
    intro a s hs
    simp only [Device.setSession, Function.update_apply] at hs
    split at hs
    next => exact traced s hs
    next => exact h.traced a s hs
  accepted envelope hin := by
    obtain ⟨a, message, hcontents, haccepted⟩ := h.accepted envelope hin
    exact ⟨a, message, hcontents, haccepted.known, haccepted.opened⟩

theorem Guarded.setPreKeys (h : w.Guarded crypto honest) {next : InMemoryPreKeyStore K} (numbered : next.Numbered)
    (later : InMemoryPreKeyStore.Later crypto w.preKeys next) :
    ({ w with preKeys := next } : Device K).Guarded crypto honest where
  numbered := numbered
  tidy := h.tidy
  traced address session hs := (h.traced address session hs).mono (fun _ hr => hr.later later)
  accepted envelope hin := by
    obtain ⟨address, message, hcontents, known, messageKey, ad, plaintext, ⟨root, d, hroot, hkey⟩, hopen⟩ :=
      h.accepted envelope hin
    exact ⟨address, message, hcontents, known, messageKey, ad, plaintext, ⟨root, d, hroot.later later, hkey⟩, hopen⟩

theorem handle_refused {failure : Failure} (h : route crypto w.self envelope w.sessions pins = .refused failure) :
    w.handle crypto fresh pins envelope = w := by
  simp only [handle, decrypt_refused h, turnedOnto, h, stored]
  rfl

theorem visited_handle (address : String) :
    ∀ key ∈ w.visited address, key ∈ (w.handle crypto fresh pins envelope).visited address := by
  intro key hkey
  simp only [handle]
  cases w.turnedOnto crypto pins envelope (w.decrypt crypto fresh pins envelope).result.isOk with
  | none => exact hkey
  | some turned =>
    simp only [Function.update_apply]
    split
    next heq => exact List.mem_cons_of_mem _ (heq ▸ hkey)
    next => exact hkey

theorem visited_turned {address : String} {key : Bytes}
    (h : w.turnedOnto crypto pins envelope (w.decrypt crypto fresh pins envelope).result.isOk = some (address, key)) :
    key ∈ (w.handle crypto fresh pins envelope).visited address := by
  simp [handle, h]

/-- Only the place of an envelope that is accepted joins what was read. -/
theorem readFrom_handle {address : String} {place : Bytes × Nat}
    (h : place ∈ (w.handle crypto fresh pins envelope).readFrom crypto address) :
    place ∈ w.readFrom crypto address ∨ (w.decrypt crypto fresh pins envelope).result.isOk = true ∧
      slot crypto w.self address envelope = some place := by
  obtain ⟨envelope', hmem, hslot⟩ := List.mem_filterMap.mp h
  simp only [handle] at hmem
  split at hmem
  next hok =>
    rcases List.mem_cons.mp hmem with rfl | hmem
    · exact Or.inr ⟨hok, hslot⟩
    · exact Or.inl (List.mem_filterMap.mpr ⟨envelope', hmem, hslot⟩)
  next => exact Or.inl (List.mem_filterMap.mpr ⟨envelope', hmem, hslot⟩)

/-- The device after a step that leaves `next`, its session for `address`, tidy and traced. -/
theorem Guarded.handled (h : w.Guarded crypto honest) {address : String} {message : RatchetMessage} {next : Session K}
    (hcontents : contents crypto w.self envelope = .ok (address, message))
    (sessions : (w.handle crypto fresh pins envelope).sessions = Function.update w.sessions address (some next))
    (numbered : (w.handle crypto fresh pins envelope).preKeys.Numbered)
    (later : InMemoryPreKeyStore.Later crypto w.preKeys (w.handle crypto fresh pins envelope).preKeys)
    (tidy : Tidy ((w.handle crypto fresh pins envelope).visited address) (w.readFrom crypto address) next.ratchet)
    (tidy_ok : (w.decrypt crypto fresh pins envelope).result.isOk = true →
      Tidy ((w.handle crypto fresh pins envelope).visited address)
        ((message.header.ratchetPublicKey, message.header.messageNumber) :: w.readFrom crypto address) next.ratchet)
    (traced : Traced crypto.toRatchetPrimitives
      (Retired crypto honest w.self (w.handle crypto fresh pins envelope).preKeys) next.ratchet)
    (opened : (w.decrypt crypto fresh pins envelope).result.isOk = true →
      ∃ messageKey associatedData plaintext, Rooted crypto.toRatchetPrimitives
          (Retired crypto honest w.self (w.handle crypto fresh pins envelope).preKeys)
          message.header.messageNumber messageKey ∧
        openWith crypto.toRatchetPrimitives messageKey associatedData message = .ok plaintext) :
    (w.handle crypto fresh pins envelope).Guarded crypto honest := by
  have hslot : ∀ {b : String} {place : Bytes × Nat}, slot crypto w.self b envelope = some place →
      b = address ∧ place = (message.header.ratchetPublicKey, message.header.messageNumber) := by
    intro b place hs
    simp only [slot, hcontents] at hs
    split at hs
    next heq => exact ⟨heq.symm, (Option.some.inj hs).symm⟩
    next => simp at hs
  refine ⟨numbered, ?_, ?_, ?_⟩
  · intro b s hs
    rw [sessions, Function.update_apply] at hs
    split at hs
    next heq =>
      subst heq
      obtain rfl := Option.some.inj hs
      cases hok : (w.decrypt crypto fresh pins envelope).result.isOk with
      | true =>
        refine (tidy_ok hok).mono (fun _ hv => hv) ?_
        intro place hplace
        rcases readFrom_handle hplace with hold | ⟨_, hnew⟩
        · exact List.mem_cons_of_mem _ hold
        · rw [(hslot hnew).2]
          exact List.mem_cons_self
      | false =>
        refine tidy.mono (fun _ hv => hv) ?_
        intro place hplace
        rcases readFrom_handle hplace with hold | ⟨hyes, _⟩
        · exact hold
        · simp [hok] at hyes
    next hne =>
      refine (h.tidy b s hs).mono (visited_handle b) ?_
      intro place hplace
      rcases readFrom_handle hplace with hold | ⟨_, hnew⟩
      · exact hold
      · exact absurd (hslot hnew).1 hne
  · intro b s hs
    rw [sessions, Function.update_apply] at hs
    split at hs
    next =>
      obtain rfl := Option.some.inj hs
      exact traced
    next => exact (h.traced b s hs).mono (fun _ hr => hr.later later)
  · intro envelope' hin
    have hold : envelope' ∈ w.accepted → ∃ b m, contents crypto w.self envelope' = .ok (b, m) ∧
        Accepted crypto honest (w.handle crypto fresh pins envelope) b m := by
      intro hmem
      obtain ⟨b, m, hc, known, messageKey, ad, plaintext, ⟨root, d, hroot, hkey⟩, hopen⟩ := h.accepted envelope' hmem
      exact ⟨b, m, hc, visited_handle b _ known, messageKey, ad, plaintext, ⟨root, d, hroot.later later, hkey⟩, hopen⟩
    have hcases : envelope' ∈ w.accepted ∨
        ((w.decrypt crypto fresh pins envelope).result.isOk = true ∧ envelope' = envelope) := by
      simp only [handle] at hin
      split at hin
      next hok =>
        rcases List.mem_cons.mp hin with heq | hmem
        · exact Or.inr ⟨hok, heq⟩
        · exact Or.inl hmem
      next => exact Or.inl hin
    rcases hcases with hmem | ⟨hok, rfl⟩
    · exact hold hmem
    · exact ⟨address, message, hcontents, ((tidy_ok hok).spent _ _ List.mem_cons_self).1, opened hok⟩

theorem Guarded.handle_live (h : w.Guarded crypto honest) {sender : PublicIdentity} {address : String}
    {session : Session K} {answered : Bool} {message : RatchetMessage}
    (hroute : route crypto w.self envelope w.sessions pins = .live sender address session answered message)
    (turns : w.TurnsOnward crypto pins envelope) : (w.handle crypto fresh pins envelope).Guarded crypto honest := by
  obtain ⟨hcontents, hlookup, _⟩ := contents_of_live hroute
  obtain ⟨next, hstored, hratchet, hpreKeys, hresult⟩ := stored_live hroute
  have hpreKeys : (w.handle crypto fresh pins envelope).preKeys = w.preKeys := hpreKeys
  obtain ⟨visited, _, grown, htidy, htidy_ok⟩ :=
    (h.tidy address session hlookup).decrypt (turns.live hroute)
  obtain ⟨htraced, hopened⟩ := (h.traced address session hlookup).decrypt
    (Retired.advanced crypto honest w.self w.preKeys)
  have hsub : ∀ key ∈ visited, key ∈ (w.handle crypto fresh pins envelope).visited address := by
    intro key hkey
    rcases grown key hkey with hold | ⟨hturn, rfl⟩
    · exact visited_handle address key hold
    · refine visited_turned ?_
      simp only [turnedOnto, hroute, if_pos hturn]
  have hpadded : (w.decrypt crypto fresh pins envelope).result.isOk = true →
      ∃ padded, (ratchetDecrypt crypto.toRatchetPrimitives fresh session.ratchet message).2 = .ok padded := by
    intro hok
    rcases hresult with ⟨e, _, herr, _⟩ | hpadded
    · rw [herr] at hok
      cases hok
    · exact hpadded
  refine h.handled hcontents hstored (hpreKeys ▸ h.numbered) (hpreKeys ▸ InMemoryPreKeyStore.Later.refl _) ?_ ?_ ?_ ?_
  · rw [hratchet]
    exact htidy.mono hsub (fun _ hmem => hmem)
  · intro hok
    obtain ⟨padded, hpadded⟩ := hpadded hok
    rw [hratchet]
    exact (htidy_ok padded hpadded).mono hsub (fun _ hmem => hmem)
  · rw [hratchet, hpreKeys]
    exact htraced
  · intro hok
    obtain ⟨padded, hpadded⟩ := hpadded hok
    obtain ⟨messageKey, hrooted, hopen⟩ := hopened padded hpadded
    exact ⟨messageKey, _, padded, hpreKeys ▸ hrooted, hopen⟩

theorem Guarded.handle_first (h : w.Guarded crypto honest) {sender : PublicIdentity} {address : String}
    {preamble : PreKeyPreamble} {body : Bytes}
    (hroute : route crypto w.self envelope w.sessions pins = .first sender address preamble body)
    (opens : w.OpensAfresh crypto honest fresh pins envelope) :
    (w.handle crypto fresh pins envelope).Guarded crypto honest := by
  obtain ⟨⟨hlater, hnumbered⟩, ⟨hsame, e, herror⟩ | ⟨session, message, padded, hrespond, hopened, hok, hpreKeys, hstored⟩⟩ :=
    stored_first hroute
  · have heq : w.handle crypto fresh pins envelope =
        { w with preKeys := (w.decrypt crypto fresh pins envelope).preKeys } := by
      have hturned : w.turnedOnto crypto pins envelope false = none := by
        simp only [turnedOnto, hroute]
        split
        next => rfl
        next => rfl
      have hfalse : (w.decrypt crypto fresh pins envelope).result.isOk = false := by rw [herror]; rfl
      simp only [handle, hsame, hfalse, hturned]
      rfl
    rw [heq]
    exact h.setPreKeys (hnumbered h.numbered) hlater
  · obtain ⟨hbody, _, _, _, _, _, pair, ad, transcript, dh1, rest, _, _, _, hratchet⟩ := respondWith_eq_ok hrespond
    have hcontents := (contents_of_first hroute hbody).1
    obtain ⟨new, whole⟩ := opens.first hroute hok hbody
    have hused := respondWith_usesUp hrespond h.numbered whole
    rw [← hpreKeys] at hused
    have hunread : Tidy (w.visited address) (w.readFrom crypto address) session.ratchet := by
      rw [hratchet]
      exact Tidy.unread rfl rfl (h.known address)
    have hfresh : Traced crypto.toRatchetPrimitives
        (Retired crypto honest w.self (w.handle crypto fresh pins envelope).preKeys) session.ratchet := by
      refine Traced.unread (Or.inr hused) ?_ ?_
      all_goals rw [hratchet]; rfl
    obtain ⟨visited, _, grown, htidy, htidy_ok⟩ :=
      hunread.decrypt (fun _ => new)
    obtain ⟨htraced, hkey⟩ := hfresh.decrypt (Retired.advanced crypto honest w.self _)
    have hsub : ∀ key ∈ visited, key ∈ (w.handle crypto fresh pins envelope).visited address := by
      intro key hmem
      rcases grown key hmem with hold | ⟨_, rfl⟩
      · exact visited_handle address key hold
      · refine visited_turned ?_
        simp only [turnedOnto, hroute, hbody, hok, ↓reduceIte]
    refine h.handled hcontents hstored (hnumbered h.numbered) hlater (htidy.mono hsub (fun _ hmem => hmem)) ?_ htraced ?_
    · intro _
      exact (htidy_ok padded hopened).mono hsub (fun _ hmem => hmem)
    · intro _
      obtain ⟨messageKey, hrooted, hopen⟩ := hkey padded hopened
      exact ⟨messageKey, _, padded, hrooted, hopen⟩

theorem Start.guarded (h : w.Start crypto) : w.Guarded crypto honest where
  numbered := by
    obtain ⟨signed, kem, pairs, kemPairs, hcreated⟩ := h.created
    exact InMemoryPreKeyStore.create_numbered hcreated
  tidy address session hs := by simp [h.sessions] at hs
  traced address session hs := by simp [h.sessions] at hs
  accepted envelope hin := by simp [h.accepted] at hin

theorem Step.guarded {w w' : Device K} (step : Step crypto honest w w') (h : w.Guarded crypto honest) :
    w'.Guarded crypto honest := by
  cases step with
  | handle envelope fresh pins turns opens =>
    cases hroute : route crypto w.self envelope w.sessions pins with
    | refused failure => rwa [handle_refused hroute]
    | live sender address session answered message => exact h.handle_live hroute turns
    | first sender address preamble body => exact h.handle_first hroute opens
  | send address session plaintext ephemeral live =>
    refine h.setSession ?_ ?_
    · rintro _ ⟨rfl⟩
      exact (h.tidy address session live).encrypt (pad plaintext)
    · rintro _ ⟨rfl⟩
      exact (h.traced address session live).encrypt (pad plaintext)
  | start address bundle expected coins ephemeral sending session started =>
    obtain ⟨_, handshake, _, hratchet, _⟩ := startSession_eq_ok started
    obtain ⟨hroot, hcache, hchain⟩ := initialiseInitiator_eq_ok hratchet
    refine h.setSession ?_ ?_
    · rintro _ ⟨rfl⟩
      exact Tidy.unread hcache hchain (h.known address)
    · rintro _ ⟨rfl⟩
      obtain ⟨d, hroot⟩ := hroot
      exact Traced.unread (Or.inl ⟨_, d, hroot⟩) hcache hchain
  | drop address => exact h.setSession (by simp) (by simp)
  | rotate signed kem next rotated =>
    exact h.setPreKeys (h.numbered.rotateSignedPreKeys rotated) (InMemoryPreKeyStore.rotateSignedPreKeys_later rotated)
  | replenish pairs kemPairs =>
    exact h.setPreKeys (h.numbered.replenishOneTimePreKeys pairs kemPairs)
      (InMemoryPreKeyStore.replenishOneTimePreKeys_later pairs kemPairs)

def sendTo (w : Device Bytes) (address : String) (plaintext : Bytes) (ephemeral : UInt8) :
    Device Bytes × SealedEnvelope :=
  match w.sessions address with
  | none => (w, ⟨"", [], []⟩)
  | some session =>
    let (next, result) := encryptMessage spelled w.self session plaintext (spelledPair 32 ephemeral)
    (w.setSession address (some next), result.toOption.getD ⟨"", [], []⟩)

def handleOne (w : Device Bytes) (envelope : SealedEnvelope) (fresh : UInt8) : Device Bytes :=
  w.handle spelled (spelledPair 32 fresh) (fun _ => none) envelope

def aliceStarts : Device Bytes where
  self := alice
  preKeys := {}
  sessions := Function.update (fun _ => none) bobAddress
    (startSession spelled alice bobBundle none (spelledPair 32 21) [7] (spelledPair 32 22)).toOption

def bobStarts : Device Bytes := { self := bob, preKeys := bobStore, sessions := fun _ => none }

def helloSent : Device Bytes × SealedEnvelope := aliceStarts.sendTo bobAddress [1] 23

def helloRead : Device Bytes := bobStarts.handleOne helloSent.2 31

end Device

end

end Veil
