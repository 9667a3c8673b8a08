import Veil.SessionBuffers

namespace Veil

namespace Buffered

namespace Endpoint

section

variable {K : Type} (crypto : Cryptography K)

/-- What a call did to an endpoint in its buffers is what it does to the values, and it wrote to no other buffer. -/
structure Performs (endpoint : Endpoint K) (done : Endpoint K × SessionAnswer) (value : Veil.Endpoint K × SessionAnswer) :
    Prop where
  values : (done.1.values, done.2) = value
  moves : Cells.Moves endpoint.buffers done.1.buffers endpoint.heap done.1.heap

variable {endpoint : Endpoint K} {heap : Cells K}

theorem buffers_of_live {address : String} {session : Session Nat} (live : endpoint.sessions.get? address = some session) :
    endpoint.buffers = session.ratchet.buffers + (endpoint.self.buffers + (endpoint.preKeys.buffers +
      sessionBuffers (endpoint.sessions.delete address))) := by
  unfold buffers sessionBuffers
  rw [OrderedMap.total_get _ live]
  ac_rfl

/-- One session of the endpoint has moved. -/
theorem performs_session (fits : endpoint.Fits) {address : String} {session next : Session Nat}
    (live : endpoint.sessions.get? address = some session)
    (moves : Cells.Moves session.ratchet.buffers next.ratchet.buffers endpoint.heap heap) (answer : SessionAnswer) :
    Performs endpoint ({ endpoint with heap, sessions := endpoint.sessions.set address next }, answer)
      ({ endpoint.values with sessions := endpoint.values.sessions.set address (next.values heap) }, answer) := by
  have hown := buffers_of_live live
  have hfits : Cells.Fits (session.ratchet.buffers + (endpoint.self.buffers + (endpoint.preKeys.buffers +
      sessionBuffers (endpoint.sessions.delete address)))) endpoint.heap := hown ▸ fits
  have hothers := moves.others hfits
  simp only [Multiset.mem_add] at hothers
  have hself := PrivateIdentity.values_congr (fun c hc => hothers c (Or.inl hc))
  have hstore := InMemoryPreKeyStore.values_congr (fun c hc => hothers c (Or.inr (Or.inl hc)))
  refine ⟨?_, ?_⟩
  · simp only [values, hself, hstore, OrderedMap.mapValues_set]
    rw [OrderedMap.mapValues_set_congr]
    intro j v hj hne
    have hdelete : (endpoint.sessions.delete address).get? j = some v := by
      rw [OrderedMap.get?_delete_of_ne _ hne, hj]
    have hle := OrderedMap.le_total (fun session : Session Nat => session.ratchet.buffers) hdelete
    exact Session.values_congr (fun c hc => hothers c (Or.inr (Or.inr (Multiset.mem_of_le hle hc))))
  · have hboth := moves.beside hfits
    rw [← hown] at hboth
    refine hboth.drop (le_of_eq ?_)
    simp only [buffers, sessionBuffers, OrderedMap.total_set]
    ac_rfl

/-- The store has moved, and `extra` has come of it. -/
theorem store_moves (fits : endpoint.Fits) {preKeys : InMemoryPreKeyStore Nat} {extra : Multiset Nat}
    (moves : Cells.Moves endpoint.preKeys.buffers (extra + preKeys.buffers) endpoint.heap heap) :
    endpoint.self.values heap = endpoint.self.values endpoint.heap ∧
      endpoint.sessions.mapValues (Session.values heap) = endpoint.sessions.mapValues (Session.values endpoint.heap) ∧
      Cells.Moves endpoint.buffers
        (extra + ({ endpoint with heap, preKeys } : Endpoint K).buffers) endpoint.heap heap := by
  have hown : endpoint.buffers =
      endpoint.preKeys.buffers + (endpoint.self.buffers + sessionBuffers endpoint.sessions) := by
    unfold buffers
    ac_rfl
  have hfits : Cells.Fits (endpoint.preKeys.buffers + (endpoint.self.buffers + sessionBuffers endpoint.sessions))
      endpoint.heap := hown ▸ fits
  have hothers := moves.others hfits
  simp only [Multiset.mem_add] at hothers
  refine ⟨PrivateIdentity.values_congr (fun c hc => hothers c (Or.inl hc)), ?_, ?_⟩
  · apply OrderedMap.mapValues_congr
    intro j v hj
    have hle := OrderedMap.le_total (fun session : Session Nat => session.ratchet.buffers) hj
    exact Session.values_congr (fun c hc => hothers c (Or.inr (Multiset.mem_of_le hle hc)))
  · have hboth := moves.beside hfits
    rw [← hown] at hboth
    refine hboth.drop (le_of_eq ?_)
    simp only [buffers]
    ac_rfl

/-- The store has moved and nothing else has. -/
theorem performs_store (fits : endpoint.Fits) {preKeys : InMemoryPreKeyStore Nat}
    (moves : Cells.Moves endpoint.preKeys.buffers preKeys.buffers endpoint.heap heap) (answer : SessionAnswer) :
    Performs endpoint ({ endpoint with heap, preKeys }, answer)
      ({ endpoint.values with preKeys := preKeys.values heap }, answer) := by
  obtain ⟨hself, hsessions, hmoves⟩ := @store_moves _ _ heap fits preKeys 0 ((zero_add preKeys.buffers).symm ▸ moves)
  rw [zero_add] at hmoves
  refine ⟨?_, hmoves⟩
  simp only [values, hself, hsessions]

/-- The store has moved and a session has come of it. -/
theorem performs_opened (fits : endpoint.Fits) {preKeys : InMemoryPreKeyStore Nat} {session : Session Nat}
    (moves : Cells.Moves endpoint.preKeys.buffers (session.ratchet.buffers + preKeys.buffers) endpoint.heap heap)
    (address : String) (answer : SessionAnswer) :
    Performs endpoint ({ endpoint with heap, preKeys, sessions := endpoint.sessions.set address session }, answer)
      ({ endpoint.values with preKeys := preKeys.values heap
                              sessions := endpoint.values.sessions.set address (session.values heap) }, answer) := by
  obtain ⟨hself, hsessions, hmoves⟩ := store_moves fits moves
  refine ⟨?_, hmoves.drop ?_⟩
  · simp only [values, hself, hsessions, OrderedMap.mapValues_set]
  · have hset := OrderedMap.total_set_le (fun session : Session Nat => session.ratchet.buffers) endpoint.sessions address
      session
    simp only [buffers, sessionBuffers]
    refine (add_le_add le_rfl (add_le_add le_rfl hset)).trans (le_of_eq ?_)
    ac_rfl

theorem keepSessions_touched {α : Type} {decryption : Decryption α} {sender : PublicIdentity} {address : String}
    {next : Session α} (touched : decryption.touched = some (address, next))
    (returned : ∀ decrypted, decryption.result = .ok decrypted → decrypted.session = next ∧ decrypted.senderIdentity = sender)
    (haddress : addressOf crypto sender.signingPublicKey = .ok address) (sessions : OrderedMap String (Session α)) :
    keepSessions crypto decryption sessions = sessions.set address next := by
  simp only [keepSessions, touched]
  cases hresult : decryption.result with
  | error e => rfl
  | ok decrypted =>
    obtain ⟨hsession, hsender⟩ := returned decrypted hresult
    simp only [hsession, hsender, haddress]
    exact OrderedMap.set_eq_self_iff.mpr (OrderedMap.get?_set_self _ _ _)

theorem shown_values (heap : Cells K) (decryption : Decryption Nat) :
    (decryption.values heap).result.map DecryptedMessage.shown = decryption.result.map DecryptedMessage.shown := by
  unfold Decryption.values
  cases decryption.result <;> rfl

/-- The endpoint once a decryption is done. -/
def received (endpoint : Endpoint K) (done : Cells K × Decryption Nat) : Endpoint K × SessionAnswer :=
  ({ endpoint with heap := done.1, preKeys := done.2.preKeys, sessions := keepSessions crypto done.2 endpoint.sessions },
    .received (done.2.result.map DecryptedMessage.shown))

def receivedValues (endpoint : Veil.Endpoint K) (value : Decryption K) : Veil.Endpoint K × SessionAnswer :=
  ({ endpoint with preKeys := value.preKeys, sessions := keepSessions crypto value endpoint.sessions },
    .received (value.result.map DecryptedMessage.shown))

theorem performs_refused (fits : endpoint.Fits) (e : Failure) :
    Performs endpoint (received crypto endpoint (endpoint.heap, { preKeys := endpoint.preKeys, result := .error e }))
      (receivedValues crypto endpoint.values { preKeys := endpoint.values.preKeys, result := .error e }) :=
  ⟨rfl, Cells.Moves.refl fits⟩

theorem performs_continued (fits : endpoint.Fits) {sender : PublicIdentity} {address : String} {session : Session Nat}
    (live : endpoint.sessions.get? address = some session)
    (haddress : addressOf crypto sender.signingPublicKey = .ok address) {done : Cells K × Decryption Nat}
    {value : Decryption K} (continues : Continues endpoint.heap sender address session endpoint.preKeys done value) :
    Performs endpoint (received crypto endpoint done) (receivedValues crypto endpoint.values value) := by
  obtain ⟨hvalues, hpreKeys, next, htouched, hreturned, hmoves⟩ := continues
  have hkept := keepSessions_touched crypto htouched hreturned haddress endpoint.sessions
  have hvalueTouched : value.touched = some (address, next.values done.1) := by
    rw [← hvalues, Decryption.values, htouched, Option.map_some]
  have hvalueReturned : ∀ decrypted, value.result = .ok decrypted →
      decrypted.session = next.values done.1 ∧ decrypted.senderIdentity = sender := by
    intro decrypted hok
    rw [← hvalues, Decryption.values] at hok
    cases hresult : done.2.result with
    | error e => simp [hresult, Except.map] at hok
    | ok returned =>
      simp only [hresult, Except.map, Except.ok.injEq] at hok
      obtain ⟨hsession, hsender⟩ := hreturned returned hresult
      rw [← hok]
      exact ⟨congrArg (Session.values done.1) hsession, hsender⟩
  have hkeptValues := keepSessions_touched crypto hvalueTouched hvalueReturned haddress endpoint.values.sessions
  have hperforms := performs_session fits live hmoves (.received (done.2.result.map DecryptedMessage.shown))
  have hstore : value.preKeys = endpoint.values.preKeys := by
    have hsame := congrArg (fun done => done.1.preKeys) hperforms.values
    rw [← hvalues, Decryption.values, hpreKeys]
    exact hsame
  simp only [received, receivedValues, hkept, hkeptValues, hpreKeys, hstore]
  rw [← hvalues, shown_values]
  exact hperforms

theorem performs_first (fits : endpoint.Fits) {sender : PublicIdentity} {address : String}
    (haddress : addressOf crypto sender.signingPublicKey = .ok address) {done : Cells K × Decryption Nat}
    {value : Decryption K} (opens : Opens endpoint.heap sender endpoint.preKeys done value) :
    Performs endpoint (received crypto endpoint done) (receivedValues crypto endpoint.values value) := by
  obtain ⟨rfl, htouched, hsender, hmoves⟩ := opens
  obtain ⟨heap', decryption⟩ := done
  simp only at htouched hsender hmoves
  have hvalueTouched : (decryption.values heap').touched = none := by rw [Decryption.values, htouched, Option.map_none]
  have hvaluePreKeys : (decryption.values heap').preKeys = decryption.preKeys.values heap' := rfl
  unfold openedBuffers at hmoves
  simp only [received, receivedValues, shown_values, keepSessions, htouched, hvalueTouched, hvaluePreKeys]
  cases hresult : decryption.result with
  | error e =>
    have hvalueResult : (decryption.values heap').result = .error e := by rw [Decryption.values, hresult]; rfl
    rw [hresult] at hmoves
    simp only [hvalueResult]
    exact performs_store fits hmoves _
  | ok decrypted =>
    have hvalueResult : (decryption.values heap').result = .ok (decrypted.values heap') := by
      rw [Decryption.values, hresult]
      rfl
    have hvalueSender : (decrypted.values heap').senderIdentity = decrypted.senderIdentity := rfl
    rw [hresult] at hmoves
    simp only [hvalueResult, hvalueSender, hsender decrypted hresult, haddress]
    exact performs_opened fits hmoves address _

theorem receive_performs (fits : endpoint.Fits) (fresh : KeyPair K) (envelope : SealedEnvelope)
    (pins : String → Option Bytes) :
    Performs endpoint (endpoint.perform crypto (.receive fresh envelope pins))
      (endpoint.values.perform crypto (.receive fresh envelope pins)) := by
  show Performs endpoint (received crypto endpoint (decryptEnvelope crypto fresh endpoint.heap endpoint.self envelope
      endpoint.sessions.get? endpoint.preKeys pins))
    (receivedValues crypto endpoint.values (Veil.decryptEnvelope crypto fresh endpoint.values.self envelope
      endpoint.values.sessions.get? endpoint.values.preKeys pins))
  have hself : endpoint.values.self = endpoint.self.values endpoint.heap := rfl
  have hpreKeys : endpoint.values.preKeys = endpoint.preKeys.values endpoint.heap := rfl
  have hlookup : ∀ address, endpoint.values.sessions.get? address =
      (endpoint.sessions.get? address).map (Session.values endpoint.heap) := fun _ => OrderedMap.get?_mapValues _ _ _
  unfold decryptEnvelope Veil.decryptEnvelope
  rw [hself]
  cases hopen : openInbound crypto (endpoint.self.values endpoint.heap) envelope pins with
  | error e => exact performs_refused crypto fits e
  | ok inbound =>
    obtain ⟨opened, address⟩ := inbound
    have haddress := (openInbound_unpinned hopen).2
    simp only [hlookup]
    have hlive : ∀ session, endpoint.sessions.get? address = some session → ∀ answered message,
        Continues endpoint.heap opened.senderIdentity address session endpoint.preKeys
          (decryptWith crypto fresh endpoint.heap opened.senderIdentity address session (settle answered) message
            endpoint.preKeys)
          (Veil.decryptWith crypto fresh opened.senderIdentity address (session.values endpoint.heap) (settle answered)
            message (endpoint.preKeys.values endpoint.heap)) := by
      intro session hsession answered message
      have hown := buffers_of_live hsession
      have hfits : Cells.Fits (session.ratchet.buffers + endpoint.preKeys.buffers) endpoint.heap := by
        refine fits.le ?_
        rw [hown]
        exact add_le_add le_rfl ((Multiset.le_add_right _ _).trans (Multiset.le_add_left _ _))
      exact decryptWith_follows crypto fresh hfits _ _ _ _
    split
    next =>
      cases decodePreKeyPayload.all opened.payload with
      | error e => exact performs_refused crypto fits e
      | ok decoded =>
        obtain ⟨preamble, body⟩ := decoded
        simp only [repeatsHandshake_values]
        cases hrepeats : repeatsHandshake (endpoint.sessions.get? address) preamble with
        | none =>
          have hstore : Cells.Fits endpoint.preKeys.buffers endpoint.heap := by
            refine fits.le ?_
            exact (Multiset.le_add_right _ _).trans (Multiset.le_add_left _ _)
          exact performs_first crypto fits haddress (decryptFirst_follows crypto fresh hstore _ _ _)
        | some existing =>
          obtain ⟨hsession, _⟩ := repeatsHandshake_eq_some hrepeats
          simp only [Option.map_some]
          cases decodeBody body with
          | error e => exact performs_refused crypto fits e
          | ok message => exact performs_continued crypto fits hsession haddress (hlive existing hsession false message)
    next =>
      split
      next => exact performs_refused crypto fits _
      next =>
        cases hsession : endpoint.sessions.get? address with
        | none => exact performs_refused crypto fits _
        | some session =>
          simp only [Option.map_some]
          cases decodeRatchetMessage.all opened.payload with
          | error e => exact performs_refused crypto fits e
          | ok message => exact performs_continued crypto fits hsession haddress (hlive session hsession true message)

theorem send_performs (fits : endpoint.Fits) (address : String) (plaintext : Bytes) (ephemeral : KeyPair K) :
    Performs endpoint (endpoint.perform crypto (.send address plaintext ephemeral))
      (endpoint.values.perform crypto (.send address plaintext ephemeral)) := by
  have hlookup : endpoint.values.sessions.get? address =
      (endpoint.sessions.get? address).map (Session.values endpoint.heap) := OrderedMap.get?_mapValues _ _ _
  simp only [perform, Veil.Endpoint.perform, hlookup]
  cases hsession : endpoint.sessions.get? address with
  | none => exact ⟨rfl, Cells.Moves.refl fits⟩
  | some session =>
    have hfits : Cells.Fits session.ratchet.buffers endpoint.heap := by
      have hown := buffers_of_live hsession
      exact fits.le (hown ▸ Multiset.le_add_right _ _)
    obtain ⟨hvalues, hmoves⟩ := @ratchetEncrypt_follows _ crypto ⟨endpoint.heap, session.ratchet⟩ hfits (pad plaintext)
    have hperforms := @performs_session _ _ _ fits _ _ { session with ratchet :=
      (ratchetEncrypt crypto ⟨endpoint.heap, session.ratchet⟩ (pad plaintext)).1.state } hsession hmoves
    have hsecret : (ratchetEncrypt crypto ⟨endpoint.heap, session.ratchet⟩ (pad plaintext)).1.heap.cell
        endpoint.self.signing.secretKey = endpoint.heap.cell endpoint.self.signing.secretKey := by
      have hsame := congrArg (fun done => done.1.self.signing.secretKey) (hperforms .done).values
      exact hsame
    have hencrypt : Veil.ratchetEncrypt crypto.toRatchetPrimitives (session.values endpoint.heap).ratchet (pad plaintext) = _ :=
      hvalues.symm
    simp only [Option.map_some, encryptMessage, Veil.encryptMessage]
    rw [hencrypt, hsecret]
    generalize ratchetEncrypt crypto ⟨endpoint.heap, session.ratchet⟩ (pad plaintext) = outcome at hperforms ⊢
    obtain ⟨held, result⟩ := outcome
    exact hperforms _

theorem forget_performs (fits : endpoint.Fits) (address : String) :
    Performs endpoint (endpoint.perform crypto (.forget address)) (endpoint.values.perform crypto (.forget address)) := by
  refine ⟨?_, (Cells.Moves.refl fits).drop ?_⟩
  · simp only [perform, Veil.Endpoint.perform, values, OrderedMap.mapValues_delete]
  · exact add_le_add le_rfl (add_le_add le_rfl (OrderedMap.total_delete_le _ _ _))

theorem destroy_performs (fits : endpoint.Fits) (address : String) :
    Performs endpoint (endpoint.perform crypto (.destroy address)) (endpoint.values.perform crypto (.destroy address)) := by
  have hlookup : endpoint.values.sessions.get? address =
      (endpoint.sessions.get? address).map (Session.values endpoint.heap) := OrderedMap.get?_mapValues _ _ _
  simp only [perform, Veil.Endpoint.perform, hlookup]
  cases hsession : endpoint.sessions.get? address with
  | none => exact ⟨rfl, Cells.Moves.refl fits⟩
  | some session =>
    have hfits : Cells.Fits session.ratchet.buffers endpoint.heap := by
      have hown := buffers_of_live hsession
      exact fits.le (hown ▸ Multiset.le_add_right _ _)
    obtain ⟨hvalues, hmoves⟩ := @destroyRatchet_follows _ crypto ⟨endpoint.heap, session.ratchet⟩ hfits
    have hdestroyed : Veil.destroyRatchet crypto (session.values endpoint.heap).ratchet = _ := hvalues
    simp only [Option.map_some]
    rw [hdestroyed]
    exact @performs_session _ _ _ fits _ _ { session with ratchet :=
      (destroyRatchet crypto ⟨endpoint.heap, session.ratchet⟩).state } hsession hmoves _

theorem initialiseInitiator_follows {heap : Cells K} (sending : KeyPair K) {rootSecret : Nat}
    (below : rootSecret < heap.next) (peerRatchetPublicKey associatedData : Bytes) :
    (∀ e, initialiseInitiator crypto heap sending rootSecret peerRatchetPublicKey associatedData = .error e →
        Veil.initialiseInitiator crypto.toRatchetPrimitives sending (heap.cell rootSecret) peerRatchetPublicKey
          associatedData = .error e) ∧
      ∀ heap' state, initialiseInitiator crypto heap sending rootSecret peerRatchetPublicKey associatedData =
          .ok (heap', state) →
        Veil.initialiseInitiator crypto.toRatchetPrimitives sending (heap.cell rootSecret) peerRatchetPublicKey
            associatedData = .ok (state.values heap') ∧
          Cells.Moves 0 state.buffers heap heap' := by
  let withPair := heap.alloc sending.secretKey
  have hnone : Cells.Fits 0 heap := ⟨Multiset.nodup_zero, fun c hc => absurd hc (Multiset.notMem_zero c)⟩
  have hpair := Cells.Moves.alloc hnone sending.secretKey
  have hcell : withPair.cell heap.next = sending.secretKey := Cells.cell_alloc_next _ _
  simp only [initialiseInitiator, Veil.initialiseInitiator]
  rw [show (heap.alloc sending.secretKey).cell heap.next = sending.secretKey from hcell]
  cases hdh : crypto.dh sending.secretKey peerRatchetPublicKey with
  | error e => exact ⟨fun e h => congrArg Except.error (Except.error.inj h), fun _ _ h => (nomatch h)⟩
  | ok dhOutput =>
    refine ⟨fun e h => (nomatch h), fun heap' state h => ?_⟩
    simp only [Outcome.ok_bind, Outcome.pure_eq_ok_iff, Prod.mk.injEq] at h
    obtain ⟨hheap, rfl⟩ := h
    let agreed := withPair.alloc dhOutput
    have halloc := hpair.trans (Cells.Moves.alloc hpair.fits dhOutput)
    have hroot : agreed.cell rootSecret = heap.cell rootSecret :=
      (Cells.cell_alloc withPair dhOutput (Nat.lt_succ_of_lt below)).trans
        (Cells.cell_alloc heap sending.secretKey below)
    have hdhCell : agreed.cell withPair.next = dhOutput := Cells.cell_alloc_next _ _
    let step := crypto.advanceRootChain (agreed.cell rootSecret) (agreed.cell withPair.next)
    have hfits : Cells.Fits (↑[withPair.next] + {heap.next}) agreed := halloc.fits
    have hexchanged := Cells.exchanged crypto.wiped hfits [step.rootKey, step.chainKey]
    have hdone : heap' = agreed.exchange crypto.wiped [step.rootKey, step.chainKey] [withPair.next] := hheap.symm
    rw [← hdone] at hexchanged
    have hsecret : heap'.cell heap.next = sending.secretKey :=
      (hexchanged.kept _ (Multiset.mem_singleton_self _)).trans
        ((Cells.cell_alloc withPair dhOutput (Nat.lt_succ_self _)).trans hcell)
    have hstep : step = crypto.advanceRootChain (heap.cell rootSecret) dhOutput := by
      simp only [step, hroot, hdhCell]
    refine ⟨congrArg Except.ok ?_, ?_⟩
    · refine RatchetState.ext ?_ (congrArg (KeyPair.mk sending.publicKey) hsecret.symm) rfl ?_ rfl rfl rfl rfl rfl rfl rfl
      · have hnew : heap'.cell agreed.next = step.rootKey := hexchanged.new 0 (by simp)
        exact (hnew.trans (congrArg (fun step => step.rootKey) hstep)).symm
      · have hnew : heap'.cell (agreed.next + 1) = step.chainKey := hexchanged.new 1 (by simp)
        exact congrArg some (hnew.trans (congrArg (fun step => step.chainKey) hstep)).symm
    · refine (halloc.trans hexchanged.moves).drop (le_of_eq ?_)
      have hempty : skippedBuffers OrderedMap.empty = [] := rfl
      simp only [RatchetState.buffers, advanceRootChain, hempty, List.length_cons, List.length_nil, List.range'_succ,
        List.range'_zero, ← Multiset.cons_coe, ← Multiset.singleton_add, Multiset.coe_nil, add_zero, Option.toList_some,
        Option.toList_none, Cells.next_alloc, agreed, withPair]
      ac_rfl

theorem startSession_follows {heap : Cells K} {self : PrivateIdentity Nat} (bundle : PreKeyBundle)
    (expectedFingerprint : Option Bytes) (ephemeral : KeyPair K) (coins : Bytes) (sending : KeyPair K) :
    (∀ e, startSession crypto heap self bundle expectedFingerprint ephemeral coins sending = .error e →
        Veil.startSession crypto (self.values heap) bundle expectedFingerprint ephemeral coins sending = .error e) ∧
      ∀ heap' session, startSession crypto heap self bundle expectedFingerprint ephemeral coins sending =
          .ok (heap', session) →
        Veil.startSession crypto (self.values heap) bundle expectedFingerprint ephemeral coins sending =
            .ok (session.values heap') ∧
          Cells.Moves 0 session.ratchet.buffers heap heap' := by
  simp only [startSession, Veil.startSession]
  cases checkFingerprint crypto expectedFingerprint bundle.identity.signingPublicKey with
  | error e => exact ⟨fun e h => congrArg Except.error (Except.error.inj h), fun _ _ h => (nomatch h)⟩
  | ok checked =>
    simp only [Outcome.ok_bind]
    cases initiateHandshake crypto (self.values heap) bundle ephemeral coins with
    | error e => exact ⟨fun e h => congrArg Except.error (Except.error.inj h), fun _ _ h => (nomatch h)⟩
    | ok handshake =>
      let withRoot := heap.alloc handshake.rootSecret
      have hbelow : heap.next < withRoot.next := Nat.lt_succ_self _
      have hcell : withRoot.cell heap.next = handshake.rootSecret := Cells.cell_alloc_next _ _
      obtain ⟨herror, hok⟩ := initialiseInitiator_follows crypto sending hbelow bundle.signedPreKey.publicKey
        handshake.associatedData
      rw [hcell] at herror hok
      simp only [Outcome.ok_bind]
      cases hinitialise : initialiseInitiator crypto (heap.alloc handshake.rootSecret) sending heap.next
          bundle.signedPreKey.publicKey handshake.associatedData with
      | error e =>
        rw [herror e hinitialise]
        exact ⟨fun e h => congrArg Except.error (Except.error.inj h), fun _ _ h => (nomatch h)⟩
      | ok initialised =>
        obtain ⟨after, ratchet⟩ := initialised
        obtain ⟨hvalue, hmoves⟩ := hok after ratchet hinitialise
        rw [hvalue]
        refine ⟨fun e h => (nomatch h), fun heap' session h => ?_⟩
        simp only [Outcome.ok_bind, Outcome.pure_eq_ok_iff, Prod.mk.injEq] at h
        obtain ⟨rfl, rfl⟩ := h
        have hnone : Cells.Fits 0 heap := ⟨Multiset.nodup_zero, fun c hc => absurd hc (Multiset.notMem_zero c)⟩
        have halloc : Cells.Moves 0 ({heap.next} + 0) heap withRoot := Cells.Moves.alloc hnone handshake.rootSecret
        have hboth : Cells.Moves ({heap.next} + 0) (ratchet.buffers + {heap.next}) withRoot after := by
          have hbeside := @Cells.Moves.beside _ _ _ {heap.next} _ _ hmoves (by simpa using halloc.fits)
          rwa [add_comm 0] at hbeside
        have hwipe := Cells.Moves.rewriteAll hboth.fits crypto.wiped [heap.next] (fun c hc => by simpa using Or.inr hc)
        have hkept : ratchet.values (wipe crypto after [heap.next]) = ratchet.values after := by
          refine values_congr (fun c hc => Cells.cell_rewriteAll_of_not_mem _ _ ?_)
          rw [List.mem_singleton]
          rintro rfl
          exact hboth.fits.apart hc (Multiset.mem_singleton_self _)
        refine ⟨?_, (halloc.trans (hboth.trans hwipe)).drop (Multiset.le_add_right _ _)⟩
        simp only [Session.values, hkept]
        rfl

theorem start_performs (fits : endpoint.Fits) (address : String) (bundle : PreKeyBundle) (expected : Option Bytes)
    (ephemeral : KeyPair K) (coins : Bytes) (sending : KeyPair K) :
    Performs endpoint (endpoint.perform crypto (.start address bundle expected ephemeral coins sending))
      (endpoint.values.perform crypto (.start address bundle expected ephemeral coins sending)) := by
  obtain ⟨herror, hok⟩ := @startSession_follows _ crypto endpoint.heap endpoint.self bundle expected ephemeral coins
    sending
  have hself : endpoint.values.self = endpoint.self.values endpoint.heap := rfl
  simp only [perform, Veil.Endpoint.perform, hself]
  cases hstart : startSession crypto endpoint.heap endpoint.self bundle expected ephemeral coins sending with
  | error e =>
    rw [herror e hstart]
    exact ⟨rfl, Cells.Moves.refl fits⟩
  | ok started =>
    obtain ⟨heap', session⟩ := started
    obtain ⟨hvalue, hmoves⟩ := hok heap' session hstart
    rw [hvalue]
    have hstore : Cells.Fits (0 + endpoint.preKeys.buffers) endpoint.heap := by
      rw [zero_add]
      exact fits.le ((Multiset.le_add_right _ _).trans (Multiset.le_add_left _ _))
    have hbeside := hmoves.beside hstore
    rw [zero_add] at hbeside
    have hsame : endpoint.preKeys.values heap' = endpoint.values.preKeys :=
      InMemoryPreKeyStore.values_congr (hmoves.others hstore)
    have hperforms := performs_opened fits hbeside address (.started (.ok ()))
    rwa [hsame] at hperforms

theorem pruneGenerations_values (heap : Cells K) (keys : OrderedMap Int (KeyPair Nat)) (order : List Int) :
    InMemoryPreKeyStore.pruneGenerations (keys.mapValues (KeyPair.values heap)) order =
        ((InMemoryPreKeyStore.pruneGenerations keys order).1.mapValues (KeyPair.values heap),
          (InMemoryPreKeyStore.pruneGenerations keys order).2) ∧
      (↑(pairBuffers (InMemoryPreKeyStore.pruneGenerations keys order).1) : Multiset Nat) ≤ ↑(pairBuffers keys) := by
  induction order generalizing keys with
  | nil => exact ⟨rfl, le_rfl⟩
  | cons expired order ih =>
    unfold InMemoryPreKeyStore.pruneGenerations
    split
    next =>
      obtain ⟨hvalues, hle⟩ := ih (keys.delete expired)
      rw [← OrderedMap.mapValues_delete]
      exact ⟨hvalues, hle.trans (pairBuffers_delete_le keys expired)⟩
    next => exact ⟨rfl, le_rfl⟩

/-- A new generation in a buffer of its own; a generation that expires lets its buffer go. -/
theorem generation_follows {heap heap' : Cells K} {keys : OrderedMap Int (KeyPair Nat)} {buffer : Nat} (pair : KeyPair K)
    (id : Int) (order : List Int) (kept : ∀ c ∈ pairBuffers keys, heap'.cell c = heap.cell c)
    (new : heap'.cell buffer = pair.secretKey) :
    InMemoryPreKeyStore.pruneGenerations ((keys.mapValues (KeyPair.values heap)).set id pair) order =
        ((InMemoryPreKeyStore.pruneGenerations (keys.set id ⟨pair.publicKey, buffer⟩) order).1.mapValues
            (KeyPair.values heap'),
          (InMemoryPreKeyStore.pruneGenerations (keys.set id ⟨pair.publicKey, buffer⟩) order).2) ∧
      (↑(pairBuffers (InMemoryPreKeyStore.pruneGenerations (keys.set id ⟨pair.publicKey, buffer⟩) order).1) : Multiset Nat)
        ≤ {buffer} + ↑(pairBuffers keys) := by
  obtain ⟨hvalues, hle⟩ := pruneGenerations_values heap' (keys.set id ⟨pair.publicKey, buffer⟩) order
  have hpair : KeyPair.values heap' ⟨pair.publicKey, buffer⟩ = pair := by
    simp only [KeyPair.values, new]
  rw [OrderedMap.mapValues_set, hpair, pairs_congr kept] at hvalues
  exact ⟨hvalues, hle.trans (valueBuffers_set KeyPair.secretKey keys id ⟨pair.publicKey, buffer⟩)⟩

theorem createSigned_pair {context : Int} {identity : PrivateIdentity K} {id : Int} {pair : KeyPair K}
    {created : SignedPreKey × KeyPair K} (h : createSigned crypto context identity id pair = .ok created) :
    created.2 = pair := by
  simp only [createSigned, Outcome.bind_eq_ok_iff, Outcome.pure_eq_ok_iff] at h
  obtain ⟨_, _, _, _, rfl⟩ := h
  rfl

theorem rotateSignedPreKeys_follows {heap : Cells K} {self : PrivateIdentity Nat} {store : InMemoryPreKeyStore Nat}
    (fits : Cells.Fits store.buffers heap) (signed kem : KeyPair K) :
    (∀ e, rotateSignedPreKeys crypto heap self signed kem store = .error e →
        (store.values heap).rotateSignedPreKeys crypto (self.values heap) signed kem = .error e) ∧
      ∀ heap' next, rotateSignedPreKeys crypto heap self signed kem store = .ok (heap', next) →
        (store.values heap).rotateSignedPreKeys crypto (self.values heap) signed kem = .ok (next.values heap') ∧
          Cells.Moves store.buffers next.buffers heap heap' := by
  have hid : (store.values heap).nextId = store.nextId := rfl
  simp only [rotateSignedPreKeys, InMemoryPreKeyStore.rotateSignedPreKeys, hid]
  cases hspk : createSignedPreKey crypto (self.values heap) store.nextId signed with
  | error e => exact ⟨fun e h => congrArg Except.error (Except.error.inj h), fun _ _ h => (by cases h)⟩
  | ok spk =>
    simp only [Outcome.ok_bind]
    cases hkpk : createSignedKemPreKey crypto (self.values heap) (store.nextId + 1) kem with
    | error e => exact ⟨fun e h => congrArg Except.error (Except.error.inj h), fun _ _ h => (by cases h)⟩
    | ok kpk =>
      refine ⟨fun e h => (by cases h), fun heap' next h => ?_⟩
      have hsigned : spk.2 = signed := createSigned_pair crypto hspk
      have hkem : kpk.2 = kem := createSigned_pair crypto hkpk
      simp only [Outcome.ok_bind, Outcome.pure_eq_ok_iff, Prod.mk.injEq] at h ⊢
      obtain ⟨rfl, rfl⟩ := h
      have hmoves : Cells.Moves store.buffers (↑[heap.next, heap.next + 1] + store.buffers) heap
          (heap.allocAll [signed.secretKey, kem.secretKey]) := Cells.Moves.allocAll fits [signed.secretKey, kem.secretKey]
      have hkept : ∀ c ∈ store.buffers,
          ((heap.alloc signed.secretKey).alloc kem.secretKey).cell c = heap.cell c :=
        fun c hc => Cells.cell_allocAll heap [signed.secretKey, kem.secretKey] (fits.below c hc)
      simp only [InMemoryPreKeyStore.buffers, Multiset.mem_add, Multiset.mem_coe] at hkept
      have hnew : ((heap.alloc signed.secretKey).alloc kem.secretKey).cell heap.next = signed.secretKey :=
        Cells.cell_allocAll_new heap [signed.secretKey, kem.secretKey] (i := 0) (by simp)
      have hnewKem : ((heap.alloc signed.secretKey).alloc kem.secretKey).cell (heap.alloc signed.secretKey).next =
          kem.secretKey := Cells.cell_alloc_next _ _
      obtain ⟨hvalues, hle⟩ := generation_follows signed spk.1.id (store.signedPreKeyOrder ++ [spk.1.id])
        (fun c hc => hkept c (Or.inl hc)) hnew
      obtain ⟨hkemValues, hkemLe⟩ := generation_follows kem kpk.1.id (store.signedKemPreKeyOrder ++ [kpk.1.id])
        (fun c hc => hkept c (Or.inr (Or.inl hc))) hnewKem
      refine ⟨?_, hmoves.drop ?_⟩
      · simp only [InMemoryPreKeyStore.values, hsigned, hkem, hvalues, hkemValues,
          pairs_congr (fun c hc => hkept c (Or.inr (Or.inr (Or.inl hc)))),
          pairs_congr (fun c hc => hkept c (Or.inr (Or.inr (Or.inr hc))))]
      · simp only [InMemoryPreKeyStore.buffers]
        refine (add_le_add hle (add_le_add hkemLe le_rfl)).trans (le_of_eq ?_)
        simp only [← Multiset.cons_coe, ← Multiset.singleton_add, Multiset.coe_nil, add_zero, Cells.next_alloc]
        ac_rfl

theorem rotate_performs (fits : endpoint.Fits) (signed kem : KeyPair K) :
    Performs endpoint (endpoint.perform crypto (.rotate signed kem))
      (endpoint.values.perform crypto (.rotate signed kem)) := by
  have hstore : Cells.Fits endpoint.preKeys.buffers endpoint.heap :=
    fits.le ((Multiset.le_add_right _ _).trans (Multiset.le_add_left _ _))
  obtain ⟨herror, hok⟩ := @rotateSignedPreKeys_follows _ crypto endpoint.heap endpoint.self endpoint.preKeys hstore signed
    kem
  have hpreKeys : endpoint.values.preKeys = endpoint.preKeys.values endpoint.heap := rfl
  have hself : endpoint.values.self = endpoint.self.values endpoint.heap := rfl
  simp only [perform, Veil.Endpoint.perform, hself, hpreKeys]
  cases hrotate : rotateSignedPreKeys crypto endpoint.heap endpoint.self signed kem endpoint.preKeys with
  | error e =>
    rw [herror e hrotate]
    exact ⟨rfl, Cells.Moves.refl fits⟩
  | ok rotated =>
    obtain ⟨heap', next⟩ := rotated
    obtain ⟨hvalue, hmoves⟩ := hok heap' next hrotate
    rw [hvalue]
    exact performs_store fits hmoves _

theorem issue_performs (fits : endpoint.Fits) :
    Performs endpoint (endpoint.perform crypto .issue) (endpoint.values.perform crypto .issue) :=
  ⟨rfl, Cells.Moves.refl fits⟩

theorem placed_values {heap : Cells K} (pairs : List (KeyPair K)) {start : Nat}
    (new : ∀ (i : Nat) (h : i < pairs.length), heap.cell (start + i) = (pairs[i]).secretKey) :
    (placed start pairs).map (KeyPair.values heap) = pairs := by
  apply List.ext_getElem
  · simp [placed]
  · intro i hi _
    have hlt : i < pairs.length := by simpa [placed] using hi
    simp [placed, KeyPair.values, new i hlt]

theorem createOneTimePreKeys_values (heap : Cells K) (startId : Int) (pairs : List (KeyPair Nat)) :
    createOneTimePreKeys startId (pairs.map (KeyPair.values heap)) =
      (createOneTimePreKeys startId pairs).map (fun key => (key.1, key.2.values heap)) := by
  simp only [createOneTimePreKeys, List.zipIdx_map, List.map_map]
  rfl

/-- Fresh one-time prekeys put down, each in its buffer. -/
theorem published_follows {heap heap' : Cells K} {keys : OrderedMap Int (KeyPair Nat)} {pairs : List (KeyPair K)}
    {start : Nat} (startId : Int) (kept : ∀ c ∈ pairBuffers keys, heap'.cell c = heap.cell c)
    (new : ∀ (i : Nat) (h : i < pairs.length), heap'.cell (start + i) = (pairs[i]).secretKey) :
    (createOneTimePreKeys startId pairs).map Prod.fst = (createOneTimePreKeys startId (placed start pairs)).map Prod.fst ∧
    (createOneTimePreKeys startId pairs).foldl (fun keys key => keys.set key.1.id key.2)
        (keys.mapValues (KeyPair.values heap)) =
      ((createOneTimePreKeys startId (placed start pairs)).foldl (fun keys key => keys.set key.1.id key.2) keys).mapValues
        (KeyPair.values heap') ∧
    (↑(pairBuffers ((createOneTimePreKeys startId (placed start pairs)).foldl
        (fun keys key => keys.set key.1.id key.2) keys)) : Multiset Nat) ≤
      ↑(List.range' start pairs.length) + ↑(pairBuffers keys) := by
  have hcreated := createOneTimePreKeys_values heap' startId (placed start pairs)
  rw [placed_values pairs new] at hcreated
  have hsecrets : (createOneTimePreKeys startId (placed start pairs)).map (fun key => key.2.secretKey) =
      List.range' start pairs.length := by
    apply List.ext_getElem
    · simp [createOneTimePreKeys, placed]
    · intro i _ _
      simp [createOneTimePreKeys, placed]
  refine ⟨?_, ?_, ?_⟩
  · rw [hcreated, List.map_map]
    rfl
  · rw [hcreated, ← pairs_congr kept, List.foldl_map]
    generalize createOneTimePreKeys startId (placed start pairs) = created
    clear hcreated hsecrets kept new
    induction created generalizing keys with
    | nil => rfl
    | cons key created ih =>
      rw [List.foldl_cons, List.foldl_cons, ← ih, OrderedMap.mapValues_set]
  · rw [← hsecrets]
    generalize createOneTimePreKeys startId (placed start pairs) = created
    clear hcreated hsecrets kept new
    induction created generalizing keys with
    | nil => simp
    | cons key created ih =>
      have hset := valueBuffers_set KeyPair.secretKey keys key.1.id key.2
      rw [List.foldl_cons, List.map_cons, ← Multiset.cons_coe, ← Multiset.singleton_add]
      refine ih.trans ((add_le_add le_rfl hset).trans (le_of_eq ?_))
      simp only [pairBuffers]
      ac_rfl

theorem replenishOneTimePreKeys_follows {heap : Cells K} {store : InMemoryPreKeyStore Nat}
    (fits : Cells.Fits store.buffers heap) (pairs kemPairs : List (KeyPair K)) :
    (store.values heap).replenishOneTimePreKeys pairs kemPairs =
        (replenishOneTimePreKeys heap pairs kemPairs store).2.values (replenishOneTimePreKeys heap pairs kemPairs store).1 ∧
      Cells.Moves store.buffers (replenishOneTimePreKeys heap pairs kemPairs store).2.buffers heap
        (replenishOneTimePreKeys heap pairs kemPairs store).1 := by
  let secrets := pairs.map (fun pair => pair.secretKey)
  let kemSecrets := kemPairs.map (fun pair => pair.secretKey)
  let withPairs := heap.allocAll secrets
  have halloc := Cells.Moves.allocAll fits secrets
  have hboth := halloc.trans (Cells.Moves.allocAll halloc.fits kemSecrets)
  have hnext : withPairs.next = heap.next + pairs.length := by
    simp only [withPairs, secrets, Cells.next_allocAll, List.length_map]
  have hkept : ∀ c ∈ store.buffers, (withPairs.allocAll kemSecrets).cell c = heap.cell c := by
    intro c hc
    have hlt := fits.below c hc
    rw [Cells.cell_allocAll _ _ (by omega), Cells.cell_allocAll _ _ hlt]
  have hnew : ∀ (i : Nat) (h : i < pairs.length),
      (withPairs.allocAll kemSecrets).cell (heap.next + i) = (pairs[i]).secretKey := by
    intro i hi
    rw [Cells.cell_allocAll _ _ (by omega), Cells.cell_allocAll_new heap secrets (by simpa [secrets] using hi)]
    simp [secrets]
  have hnewKem : ∀ (i : Nat) (h : i < kemPairs.length),
      (withPairs.allocAll kemSecrets).cell (withPairs.next + i) = (kemPairs[i]).secretKey := by
    intro i hi
    rw [Cells.cell_allocAll_new withPairs kemSecrets (by simpa [kemSecrets] using hi)]
    simp [kemSecrets]
  simp only [InMemoryPreKeyStore.buffers, Multiset.mem_add, Multiset.mem_coe] at hkept
  obtain ⟨hpublished, hkeys, hle⟩ := published_follows store.nextId
    (fun c hc => hkept c (Or.inr (Or.inr (Or.inl hc)))) hnew
  obtain ⟨hkemPublished, hkemKeys, hkemLe⟩ := published_follows (store.nextId + pairs.length)
    (fun c hc => hkept c (Or.inr (Or.inr (Or.inr hc)))) hnewKem
  have hlength : ∀ (start : Nat) (pairs : List (KeyPair K)), (placed start pairs).length = pairs.length := by
    intro start pairs
    simp [placed]
  have hdone : replenishOneTimePreKeys heap pairs kemPairs store = (withPairs.allocAll kemSecrets,
      store.replenishOneTimePreKeys (placed heap.next pairs) (placed withPairs.next kemPairs)) := rfl
  rw [hdone]
  refine ⟨?_, hboth.drop ?_⟩
  · simp only [InMemoryPreKeyStore.replenishOneTimePreKeys, InMemoryPreKeyStore.values, hlength, ← hpublished, ← hkemPublished,
      ← hkeys, ← hkemKeys, pairs_congr (fun c hc => hkept c (Or.inl hc)),
      pairs_congr (fun c hc => hkept c (Or.inr (Or.inl hc)))]
  · simp only [InMemoryPreKeyStore.buffers, InMemoryPreKeyStore.replenishOneTimePreKeys, hlength]
    refine (add_le_add le_rfl (add_le_add le_rfl (add_le_add hle hkemLe))).trans (le_of_eq ?_)
    simp only [secrets, kemSecrets, withPairs, List.length_map]
    ac_rfl

theorem replenish_performs (fits : endpoint.Fits) (pairs kemPairs : List (KeyPair K)) :
    Performs endpoint (endpoint.perform crypto (.replenish pairs kemPairs))
      (endpoint.values.perform crypto (.replenish pairs kemPairs)) := by
  have hstore : Cells.Fits endpoint.preKeys.buffers endpoint.heap :=
    fits.le ((Multiset.le_add_right _ _).trans (Multiset.le_add_left _ _))
  obtain ⟨hvalue, hmoves⟩ := replenishOneTimePreKeys_follows hstore pairs kemPairs
  have hperforms := performs_store fits hmoves .done
  rw [← hvalue] at hperforms
  exact hperforms

/-- One call at a time. -/
theorem perform_performs (fits : endpoint.Fits) (call : SessionCall K) :
    Performs endpoint (endpoint.perform crypto call) (endpoint.values.perform crypto call) := by
  cases call with
  | receive fresh envelope pins => exact receive_performs crypto fits fresh envelope pins
  | send address plaintext ephemeral => exact send_performs crypto fits address plaintext ephemeral
  | start address bundle expected ephemeral coins sending =>
    exact start_performs crypto fits address bundle expected ephemeral coins sending
  | forget address => exact forget_performs crypto fits address
  | destroy address => exact destroy_performs crypto fits address
  | rotate signed kem => exact rotate_performs crypto fits signed kem
  | replenish pairs kemPairs => exact replenish_performs crypto fits pairs kemPairs
  | issue => exact issue_performs crypto fits

theorem run_performs (fits : endpoint.Fits) (calls : List (SessionCall K)) :
    ((endpoint.run crypto calls).1.values, (endpoint.run crypto calls).2) = endpoint.values.run crypto calls ∧
      Cells.Moves endpoint.buffers (endpoint.run crypto calls).1.buffers endpoint.heap
        (endpoint.run crypto calls).1.heap := by
  induction calls generalizing endpoint with
  | nil => exact ⟨rfl, Cells.Moves.refl fits⟩
  | cons call calls ih =>
    obtain ⟨hvalues, hmoves⟩ := perform_performs crypto fits call
    obtain ⟨hrest, hmoves'⟩ := ih hmoves.fits
    refine ⟨?_, hmoves.trans hmoves'⟩
    simp only [run, Veil.Endpoint.run]
    rw [← hvalues, ← hrest]

end

end Endpoint

end Buffered

end Veil
