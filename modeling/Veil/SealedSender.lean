import Veil.Agreement
import Veil.HandshakeBinding

namespace Veil

def challengeTranscript (address : String) (challenge : Bytes) : Bytes :=
  utf8 "Veil/v1/Auth:" ++ utf8 address ++ utf8 ":" ++ challenge

/-- What an identity key is asked to sign. -/
inductive SigningRequest
  | keyBinding (context id : Int) (publicKey : Bytes)
  | senderProof (ephemeralPublicKey : Bytes) (recipientAddress : String) (payloadKind : Nat) (payload : Bytes)
  | authentication (address : String) (challenge : Bytes)

def SigningRequest.transcript (signingPublicKey : Bytes) : SigningRequest → Except Failure Bytes
  | .keyBinding context id publicKey => signingTranscript context signingPublicKey id publicKey
  | .senderProof ephemeralPublicKey recipientAddress payloadKind payload =>
    senderProofTranscript ephemeralPublicKey recipientAddress payloadKind payload
  | .authentication address challenge => .ok (challengeTranscript address challenge)

theorem ok_of_toOption {α : Type} {x : Except Failure α} {a : α} (h : x.toOption = some a) : x = .ok a := by
  cases x with
  | error e => cases h
  | ok b => rw [Option.some.inj h]

/-- Two labels apart at one place keep what follows them apart. -/
theorem labelled_ne {label label' rest rest' : Bytes} {i : Nat} (hi : i < label.length) (hi' : i < label'.length)
    (apart : label[i]? ≠ label'[i]?) : label ++ rest ≠ label' ++ rest' := by
  intro h
  refine apart ?_
  rw [← List.getElem?_append_left hi, h, List.getElem?_append_left hi']

theorem labels_apart : (utf8 "Veil/v1/KeyBinding")[8]? = some 75 ∧ (utf8 "Veil/v1/SenderProof")[8]? = some 83 ∧
    (utf8 "Veil/v1/Auth:")[8]? = some 65 := by decide +kernel

theorem labels_length : 8 < (utf8 "Veil/v1/KeyBinding").length ∧ 8 < (utf8 "Veil/v1/SenderProof").length ∧
    8 < (utf8 "Veil/v1/Auth:").length := by decide +kernel

theorem signingTranscript_eq_ok {context id : Int} {signingPublicKey publicKey transcript : Bytes}
    (h : signingTranscript context signingPublicKey id publicKey = .ok transcript) :
    0 ≤ context ∧ context ≤ 255 ∧ 0 ≤ id ∧ id < 2 ^ 32 ∧ signingPublicKey.length < 2 ^ 32 ∧ publicKey.length < 2 ^ 32 ∧
      transcript = utf8 "Veil/v1/KeyBinding" ++ ([UInt8.ofNat context.toNat] ++ (Reads.prefixed signingPublicKey ++
        (Writer.bigEndian32 id.toNat ++ Reads.prefixed publicKey))) := by
  simp only [signingTranscript, Outcome.bind_eq_ok_iff, Outcome.pure_eq_ok_iff, Writer.bytes_eq_ok_iff,
    Writer.u8_eq_ok_iff, Writer.u32_eq_ok_iff] at h
  obtain ⟨_, ⟨h₁, h₂, rfl⟩, _, ⟨h₃, rfl⟩, _, ⟨h₄, h₅, rfl⟩, _, ⟨h₆, rfl⟩, rfl⟩ := h
  refine ⟨h₁, by omega, h₄, by omega, h₃, h₆, ?_⟩
  simp only [Writer.finish_push, Writer.finish_fixed, Writer.finish_empty, List.nil_append, List.append_assoc]

theorem senderProofTranscript_eq_ok {ephemeralPublicKey payload transcript : Bytes} {recipientAddress : String}
    {payloadKind : Nat}
    (h : senderProofTranscript ephemeralPublicKey recipientAddress payloadKind payload = .ok transcript) :
    ephemeralPublicKey.length < 2 ^ 32 ∧ (utf8 recipientAddress).length < 2 ^ 32 ∧ payloadKind < 256 ∧
      payload.length < 2 ^ 32 ∧
      transcript = utf8 "Veil/v1/SenderProof" ++ (Reads.prefixed ephemeralPublicKey ++
        (Reads.prefixed (utf8 recipientAddress) ++ ([UInt8.ofNat payloadKind] ++ Reads.prefixed payload))) := by
  simp only [senderProofTranscript, Outcome.bind_eq_ok_iff, Outcome.pure_eq_ok_iff, Writer.bytes_eq_ok_iff,
    Writer.u8_eq_ok_iff] at h
  obtain ⟨_, ⟨h₁, rfl⟩, _, ⟨h₂, rfl⟩, _, ⟨_, h₃, rfl⟩, _, ⟨h₄, rfl⟩, rfl⟩ := h
  refine ⟨h₁, h₂, by omega, h₄, ?_⟩
  simp only [Writer.finish_push, Writer.finish_fixed, Writer.finish_empty, List.nil_append, List.append_assoc,
    Int.toNat_natCast]

theorem signingTranscript_binds {context context' id id' : Int} {signingPublicKey signingPublicKey' publicKey publicKey'
      transcript : Bytes}
    (h : signingTranscript context signingPublicKey id publicKey = .ok transcript)
    (h' : signingTranscript context' signingPublicKey' id' publicKey' = .ok transcript) :
    context = context' ∧ signingPublicKey = signingPublicKey' ∧ id = id' ∧ publicKey = publicKey' := by
  obtain ⟨h₁, h₂, h₃, h₄, h₅, h₆, rfl⟩ := signingTranscript_eq_ok h
  obtain ⟨h₁', h₂', h₃', h₄', h₅', h₆', heq⟩ := signingTranscript_eq_ok h'
  rw [List.append_cancel_left_eq] at heq
  obtain ⟨e₁, heq⟩ := (Reads.u8 (by omega)).append_inj (Reads.u8 (by omega)) heq
  obtain ⟨e₂, heq⟩ := prefixed_append_inj h₅ h₅' heq
  obtain ⟨e₃, heq⟩ := (Reads.u32 (by omega)).append_inj (Reads.u32 (by omega)) heq
  obtain ⟨e₄, _⟩ := @prefixed_append_inj _ _ [] [] h₆ h₆' (by simpa using heq)
  exact ⟨by omega, e₂, by omega, e₄⟩

theorem senderProofTranscript_binds {ephemeralPublicKey ephemeralPublicKey' payload payload' transcript : Bytes}
    {recipientAddress recipientAddress' : String} {payloadKind payloadKind' : Nat}
    (h : senderProofTranscript ephemeralPublicKey recipientAddress payloadKind payload = .ok transcript)
    (h' : senderProofTranscript ephemeralPublicKey' recipientAddress' payloadKind' payload' = .ok transcript) :
    ephemeralPublicKey = ephemeralPublicKey' ∧ recipientAddress = recipientAddress' ∧ payloadKind = payloadKind' ∧
      payload = payload' := by
  obtain ⟨h₁, h₂, h₃, h₄, rfl⟩ := senderProofTranscript_eq_ok h
  obtain ⟨h₁', h₂', h₃', h₄', heq⟩ := senderProofTranscript_eq_ok h'
  rw [List.append_cancel_left_eq] at heq
  obtain ⟨e₁, heq⟩ := prefixed_append_inj h₁ h₁' heq
  obtain ⟨e₂, heq⟩ := prefixed_append_inj h₂ h₂' heq
  obtain ⟨e₃, heq⟩ := (Reads.u8 h₃).append_inj (Reads.u8 h₃') heq
  obtain ⟨e₄, _⟩ := @prefixed_append_inj _ _ [] [] h₄ h₄' (by simpa using heq)
  exact ⟨e₁, utf8_inj e₂, e₃, e₄⟩

namespace SigningRequest

/-- Only a request for a sender proof has the transcript of one. -/
theorem eq_senderProof {request : SigningRequest} {signingPublicKey ephemeralPublicKey payload transcript : Bytes}
    {recipientAddress : String} {payloadKind : Nat}
    (h : senderProofTranscript ephemeralPublicKey recipientAddress payloadKind payload = .ok transcript)
    (hr : request.transcript signingPublicKey = .ok transcript) :
    request = .senderProof ephemeralPublicKey recipientAddress payloadKind payload := by
  obtain ⟨_, _, _, _, hproof⟩ := senderProofTranscript_eq_ok h
  cases request with
  | keyBinding context id publicKey =>
    obtain ⟨_, _, _, _, _, _, hbinding⟩ := signingTranscript_eq_ok hr
    refine absurd (hproof.symm.trans hbinding) (labelled_ne labels_length.2.1 labels_length.1 ?_)
    rw [labels_apart.1, labels_apart.2.1]
    decide
  | senderProof ephemeralPublicKey' recipientAddress' payloadKind' payload' =>
    obtain ⟨rfl, rfl, rfl, rfl⟩ := senderProofTranscript_binds h hr
    rfl
  | authentication address challenge =>
    obtain rfl := Except.ok.inj hr
    rw [challengeTranscript, List.append_assoc, List.append_assoc] at hproof
    refine absurd hproof (labelled_ne labels_length.2.2 labels_length.2.1 ?_)
    rw [labels_apart.2.1, labels_apart.2.2]
    decide

/-- Only a request for a key binding has the transcript of one. -/
theorem eq_keyBinding {request : SigningRequest} {signingPublicKey publicKey transcript : Bytes} {context id : Int}
    (h : signingTranscript context signingPublicKey id publicKey = .ok transcript)
    (hr : request.transcript signingPublicKey = .ok transcript) : request = .keyBinding context id publicKey := by
  obtain ⟨_, _, _, _, _, _, hbinding⟩ := signingTranscript_eq_ok h
  cases request with
  | keyBinding context' id' publicKey' =>
    obtain ⟨rfl, _, rfl, rfl⟩ := signingTranscript_binds h hr
    rfl
  | senderProof ephemeralPublicKey recipientAddress payloadKind payload =>
    obtain ⟨_, _, _, _, hproof⟩ := senderProofTranscript_eq_ok hr
    refine absurd (hproof.symm.trans hbinding) (labelled_ne labels_length.2.1 labels_length.1 ?_)
    rw [labels_apart.1, labels_apart.2.1]
    decide
  | authentication address challenge =>
    obtain rfl := Except.ok.inj hr
    rw [challengeTranscript, List.append_assoc, List.append_assoc] at hbinding
    refine absurd hbinding (labelled_ne labels_length.2.2 labels_length.1 ?_)
    rw [labels_apart.1, labels_apart.2.2]
    decide

end SigningRequest

section

variable {K : Type} {crypto : Cryptography K} {signer : PrivateIdentity K} {signed : SigningRequest → Prop}

/-- What verifies under the signer's key is something it was asked to sign, and the only exchange key it ever bound is
its own. -/
structure Unforgeable (crypto : Cryptography K) (signer : PrivateIdentity K) (signed : SigningRequest → Prop) : Prop where
  requested : ∀ message signature, crypto.verify signer.signing.publicKey message signature = true →
    ∃ request, signed request ∧ request.transcript signer.signing.publicKey = .ok message
  bound : ∀ id publicKey, signed (.keyBinding sigContextExchange id publicKey) → publicKey = signer.exchange.publicKey

theorem verifyIdentityBinding_eq_true {identity : PublicIdentity} (h : verifyIdentityBinding crypto identity = .ok true) :
    ∃ transcript, signingTranscript sigContextExchange identity.signingPublicKey 0 identity.exchangePublicKey =
        .ok transcript ∧
      crypto.verify identity.signingPublicKey transcript identity.exchangeKeySignature = true := by
  unfold verifyIdentityBinding at h
  split at h
  next => cases h
  next =>
    split at h
    next => cases h
    next => simpa only [Outcome.bind_eq_ok_iff, Outcome.pure_eq_ok_iff] using h

/-- What has been checked of an envelope by the time it is open. -/
theorem openEnvelope_eq_ok {exchangeSecretKey : K} {exchangePublicKey : Bytes} {address : String}
    {envelope : SealedEnvelope} {opened : OpenedEnvelope}
    (h : openEnvelope crypto exchangeSecretKey exchangePublicKey address envelope = .ok opened) :
    verifyIdentityBinding crypto opened.senderIdentity = .ok true ∧ ∃ transcript proof,
      senderProofTranscript envelope.ephemeralPublicKey address opened.payloadKind opened.payload = .ok transcript ∧
        crypto.verify opened.senderIdentity.signingPublicKey transcript proof = true := by
  unfold openEnvelope at h
  split at h
  next => cases h
  next =>
    obtain ⟨_, _, h⟩ := Outcome.bind_eq_ok_iff.mp h
    obtain ⟨_, _, h⟩ := Outcome.bind_eq_ok_iff.mp h
    obtain ⟨inner, _, h⟩ := Outcome.bind_eq_ok_iff.mp h
    obtain ⟨bound, hbound, h⟩ := Outcome.bind_eq_ok_iff.mp h
    cases bound with
    | false => cases h
    | true =>
      obtain ⟨transcript, htranscript, h⟩ := Outcome.bind_eq_ok_iff.mp h
      cases hverify : crypto.verify inner.senderIdentity.signingPublicKey transcript inner.proof with
      | false =>
        rw [hverify] at h
        cases h
      | true =>
        rw [hverify] at h
        obtain rfl := Except.ok.inj h
        exact ⟨hbound, transcript, inner.proof, htranscript, hverify⟩

/-- Sealing and opening give back the sender, the kind and the payload; and whatever opens under an honest signing key
was signed for with that key, for this ephemeral key, recipient, kind and payload, by the owner of the exchange key. -/
theorem sealed_sender {generated : KeyPair K → Prop} (lawful : crypto.toRatchetPrimitives.Lawful generated)
    {recipient : PrivateIdentity K} (hr : generated recipient.exchange) {address : String}
    (ha : addressOf crypto recipient.signing.publicKey = .ok address) :
    (∀ (sender : PublicIdentity) (signWithIdentity : Bytes → Except Failure Bytes) (kind : Nat) (payload : Bytes)
        (ephemeral : KeyPair K) (envelope : SealedEnvelope),
      verifyIdentityBinding crypto sender = .ok true →
      (∀ message signature, signWithIdentity message = .ok signature →
        crypto.verify sender.signingPublicKey message signature = true) →
      generated ephemeral →
      sealEnvelope crypto sender signWithIdentity (publicIdentityOf recipient) kind payload ephemeral = .ok envelope →
      openEnvelope crypto recipient.exchange.secretKey recipient.exchange.publicKey address envelope =
        .ok ⟨sender, kind, payload⟩) ∧
    (∀ (signer : PrivateIdentity K) (signed : SigningRequest → Prop) (envelope : SealedEnvelope) (opened : OpenedEnvelope),
      Unforgeable crypto signer signed →
      openEnvelope crypto recipient.exchange.secretKey recipient.exchange.publicKey address envelope = .ok opened →
      opened.senderIdentity.signingPublicKey = signer.signing.publicKey →
      signed (.senderProof envelope.ephemeralPublicKey address opened.payloadKind opened.payload) ∧
        opened.senderIdentity.exchangePublicKey = signer.exchange.publicKey) := by
  refine ⟨?_, ?_⟩
  · intro sender signWithIdentity kind payload ephemeral envelope binding signs he h
    exact openEnvelope_sealed lawful binding signs hr he h ha
  · intro signer signed envelope opened unforgeable h hkey
    obtain ⟨hbound, transcript, proof, htranscript, hproof⟩ := openEnvelope_eq_ok h
    obtain ⟨binding, hbinding, hsignature⟩ := verifyIdentityBinding_eq_true hbound
    rw [hkey] at hproof hbinding hsignature
    obtain ⟨request, hsigned, hrequest⟩ := unforgeable.requested transcript proof hproof
    obtain ⟨request', hsigned', hrequest'⟩ := unforgeable.requested binding _ hsignature
    rw [SigningRequest.eq_senderProof htranscript hrequest] at hsigned
    rw [SigningRequest.eq_keyBinding hbinding hrequest'] at hsigned'
    exact ⟨hsigned, unforgeable.bound 0 _ hsigned'⟩

end

def notePublicKey : Bytes := (spelledPair 32 23).publicKey

/-- What Alice and Bob have signed: their exchange keys, and one note from Alice to Bob. -/
def recorded (signingPublicKey : Bytes) : List SigningRequest :=
  if signingPublicKey = alice.signing.publicKey then
    [.keyBinding sigContextExchange 0 alice.exchange.publicKey, .senderProof notePublicKey bobAddress payloadRatchet [1, 2]]
  else [.keyBinding sigContextExchange 0 bob.exchange.publicKey]

/-- Signatures that verify on what was recorded only. -/
def recording : Cryptography Bytes :=
  { spelled with
    verify := fun publicKey message signature => spelled.verify publicKey message signature &&
      (recorded publicKey).any (fun request => (request.transcript publicKey).toOption = some message) }

def signRecorded (identity : PrivateIdentity Bytes) (message : Bytes) : Except Failure Bytes := do
  let signature ← recording.sign identity.signing.secretKey message
  if recording.verify identity.signing.publicKey message signature then return signature
  else throw (.authentication "not recorded")

theorem recording_unforgeable :
    Unforgeable recording alice (fun request => request ∈ recorded alice.signing.publicKey) where
  requested := by
    intro message signature h
    simp only [recording, Bool.and_eq_true, List.any_eq_true, decide_eq_true_eq] at h
    obtain ⟨_, request, hmem, htranscript⟩ := h
    refine ⟨request, hmem, ?_⟩
    cases hr : request.transcript alice.signing.publicKey with
    | error e =>
      rw [hr] at htranscript
      cases htranscript
    | ok transcript =>
      rw [hr] at htranscript
      rw [Option.some.inj htranscript]
  bound := by
    intro id publicKey h
    simp only [recorded, if_true, List.mem_cons, List.not_mem_nil, or_false, SigningRequest.keyBinding.injEq,
      reduceCtorEq] at h
    exact h.2.2

/-- Alice's note to Bob. -/
theorem sealed_sender_note : ∃ envelope,
    sealEnvelope recording (publicIdentityOf alice) (signRecorded alice) (publicIdentityOf bob) payloadRatchet [1, 2]
      (spelledPair 32 23) = .ok envelope ∧
    openEnvelope recording bob.exchange.secretKey bob.exchange.publicKey bobAddress envelope =
      .ok ⟨publicIdentityOf alice, payloadRatchet, [1, 2]⟩ ∧
    .senderProof envelope.ephemeralPublicKey bobAddress payloadRatchet [1, 2] ∈ recorded alice.signing.publicKey := by
  have hsealed : (sealEnvelope recording (publicIdentityOf alice) (signRecorded alice) (publicIdentityOf bob)
      payloadRatchet [1, 2] (spelledPair 32 23)).isOk = true := by decide +kernel
  cases hseal : sealEnvelope recording (publicIdentityOf alice) (signRecorded alice) (publicIdentityOf bob)
      payloadRatchet [1, 2] (spelledPair 32 23) with
  | error e =>
    rw [hseal] at hsealed
    cases hsealed
  | ok envelope =>
    have haddress : (addressOf recording bob.signing.publicKey).toOption = some bobAddress := by decide +kernel
    have hbinding : (verifyIdentityBinding recording (publicIdentityOf alice)).toOption = some true := by decide +kernel
    have signs : ∀ message signature, signRecorded alice message = .ok signature →
        recording.verify (publicIdentityOf alice).signingPublicKey message signature = true := by
      intro message signature h
      simp only [signRecorded, Outcome.bind_eq_ok_iff] at h
      obtain ⟨signature', _, h⟩ := h
      split at h
      next hverify =>
        obtain rfl := Except.ok.inj h
        exact hverify
      next => cases h
    obtain ⟨sealing, opening⟩ := (@sealed_sender _ recording) spelled_lawful.ratchet bob_honest.exchange
      (ok_of_toOption haddress)
    have hopen := sealing _ _ _ _ _ _ (ok_of_toOption hbinding) signs ⟨by decide, rfl⟩ hseal
    exact ⟨envelope, rfl, hopen, (opening alice _ envelope _ recording_unforgeable hopen rfl).1⟩

end Veil
