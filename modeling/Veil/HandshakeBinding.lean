import Veil.Handshake
import Veil.Spelled

namespace Veil

/-- A 32-byte secret: a DH output or the shared secret of the KEM. -/
def SharedSecret : Type := { secret : Bytes // secret.length = 32 }

def handshakePrefix : Bytes := List.replicate 32 0xff

/-- Everything one side feeds into the derivation of the root secret. -/
structure HandshakeContext where
  initiator : PublicIdentity
  responder : PublicIdentity
  ephemeralPublicKey : Bytes
  kemCiphertext : Bytes
  keyIds : HandshakeKeyIds
  dh1 : SharedSecret
  dh2 : SharedSecret
  dh3 : SharedSecret
  dh4 : Option SharedSecret
  kemSecret : SharedSecret

namespace HandshakeContext

def transcript (context : HandshakeContext) : Except Failure Bytes :=
  handshakeTranscript context.initiator context.responder context.ephemeralPublicKey context.kemCiphertext
    context.keyIds

def secrets (context : HandshakeContext) : List SharedSecret :=
  [context.dh1, context.dh2, context.dh3] ++ context.dh4.toList ++ [context.kemSecret]

/-- The input keying material: the prefix and the secrets, one after the other. -/
def keyingMaterial (context : HandshakeContext) : Bytes :=
  concat (handshakePrefix :: context.secrets.map (fun secret => secret.val))

/-- Everything but the signature that binds an exchange key is the same. -/
structure Agrees (context other : HandshakeContext) : Prop where
  initiatorSigning : context.initiator.signingPublicKey = other.initiator.signingPublicKey
  initiatorExchange : context.initiator.exchangePublicKey = other.initiator.exchangePublicKey
  responderSigning : context.responder.signingPublicKey = other.responder.signingPublicKey
  responderExchange : context.responder.exchangePublicKey = other.responder.exchangePublicKey
  ephemeralPublicKey : context.ephemeralPublicKey = other.ephemeralPublicKey
  kemCiphertext : context.kemCiphertext = other.kemCiphertext
  keyIds : context.keyIds = other.keyIds
  dh1 : context.dh1 = other.dh1
  dh2 : context.dh2 = other.dh2
  dh3 : context.dh3 = other.dh3
  dh4 : context.dh4 = other.dh4
  kemSecret : context.kemSecret = other.kemSecret

end HandshakeContext

theorem handshakeTranscript_binds {initiator initiator' responder responder' : PublicIdentity}
    {ephemeral ephemeral' kemCiphertext kemCiphertext' transcript : Bytes} {keyIds keyIds' : HandshakeKeyIds}
    (h : handshakeTranscript initiator responder ephemeral kemCiphertext keyIds = .ok transcript)
    (h' : handshakeTranscript initiator' responder' ephemeral' kemCiphertext' keyIds' = .ok transcript) :
    initiator.signingPublicKey = initiator'.signingPublicKey ∧
      initiator.exchangePublicKey = initiator'.exchangePublicKey ∧
      responder.signingPublicKey = responder'.signingPublicKey ∧
      responder.exchangePublicKey = responder'.exchangePublicKey ∧ ephemeral = ephemeral' ∧
      kemCiphertext = kemCiphertext' ∧ keyIds = keyIds' := by
  simp only [handshakeTranscript, Outcome.bind_eq_ok_iff, Outcome.pure_eq_ok_iff, Writer.bytes_eq_ok_iff] at h h'
  obtain ⟨_, ⟨h₁, rfl⟩, _, ⟨h₂, rfl⟩, _, ⟨h₃, rfl⟩, _, ⟨h₄, rfl⟩, _, ⟨h₅, rfl⟩, _, ⟨h₆, rfl⟩, _, h₇, rfl⟩ := h
  obtain ⟨_, ⟨h₁', rfl⟩, _, ⟨h₂', rfl⟩, _, ⟨h₃', rfl⟩, _, ⟨h₄', rfl⟩, _, ⟨h₅', rfl⟩, _, ⟨h₆', rfl⟩, _, h₇', heq⟩ := h'
  obtain ⟨chunk, rfl, hread⟩ := Writer.keyIds_eq_ok h₇
  obtain ⟨chunk', rfl, hread'⟩ := Writer.keyIds_eq_ok h₇'
  simp only [Writer.finish_push, Writer.finish_fixed, Writer.finish_empty, List.nil_append, List.append_assoc,
    List.append_cancel_left_eq] at heq
  obtain ⟨e₁, heq⟩ := prefixed_append_inj h₁' h₁ heq
  obtain ⟨e₂, heq⟩ := prefixed_append_inj h₂' h₂ heq
  obtain ⟨e₃, heq⟩ := prefixed_append_inj h₃' h₃ heq
  obtain ⟨e₄, heq⟩ := prefixed_append_inj h₄' h₄ heq
  obtain ⟨e₅, heq⟩ := prefixed_append_inj h₅' h₅ heq
  obtain ⟨e₆, heq⟩ := prefixed_append_inj h₆' h₆ heq
  obtain ⟨e₇, _⟩ := @Reads.append_inj _ _ _ _ [] [] _ _ hread' hread (by simpa using heq)
  exact ⟨e₁.symm, e₂.symm, e₃.symm, e₄.symm, e₅.symm, e₆.symm, e₇.symm⟩

theorem associatedData_binds {initiator initiator' responder responder' : PublicIdentity} {ad : Bytes}
    (h : associatedData initiator responder = .ok ad) (h' : associatedData initiator' responder' = .ok ad) :
    initiator.signingPublicKey = initiator'.signingPublicKey ∧
      initiator.exchangePublicKey = initiator'.exchangePublicKey ∧
      responder.signingPublicKey = responder'.signingPublicKey ∧
      responder.exchangePublicKey = responder'.exchangePublicKey := by
  simp only [associatedData, Outcome.bind_eq_ok_iff, Outcome.pure_eq_ok_iff, Writer.bytes_eq_ok_iff] at h h'
  obtain ⟨_, ⟨h₁, rfl⟩, _, ⟨h₂, rfl⟩, _, ⟨h₃, rfl⟩, _, ⟨h₄, rfl⟩, rfl⟩ := h
  obtain ⟨_, ⟨h₁', rfl⟩, _, ⟨h₂', rfl⟩, _, ⟨h₃', rfl⟩, _, ⟨h₄', rfl⟩, heq⟩ := h'
  simp only [Writer.finish_push, Writer.finish_fixed, Writer.finish_empty, List.nil_append, List.append_assoc,
    List.append_cancel_left_eq] at heq
  obtain ⟨e₁, heq⟩ := prefixed_append_inj h₁' h₁ heq
  obtain ⟨e₂, heq⟩ := prefixed_append_inj h₂' h₂ heq
  obtain ⟨e₃, heq⟩ := prefixed_append_inj h₃' h₃ heq
  obtain ⟨e₄, _⟩ := @prefixed_append_inj _ _ [] [] h₄' h₄ (by simpa using heq)
  exact ⟨e₁.symm, e₂.symm, e₃.symm, e₄.symm⟩

/-- Secrets of one length can be told apart in their concatenation. -/
theorem concat_secrets_inj {secrets secrets' : List SharedSecret}
    (h : concat (secrets.map (fun secret => secret.val)) = concat (secrets'.map (fun secret => secret.val))) :
    secrets = secrets' := by
  have hlengths : ∀ xs : List SharedSecret,
      (xs.map (fun secret => secret.val)).map List.length = List.replicate xs.length 32 := by
    intro xs
    rw [List.map_map]
    exact List.eq_replicate_iff.mpr ⟨by simp, by
      intro n hn
      obtain ⟨secret, _, rfl⟩ := List.mem_map.mp hn
      exact secret.property⟩
  have htotal : ∀ xs : List SharedSecret, (concat (xs.map (fun secret => secret.val))).length = xs.length * 32 := by
    intro xs
    rw [concat, List.length_flatten, hlengths, List.sum_replicate_nat]
  have hcount : secrets.length = secrets'.length := by
    have := congrArg List.length h
    rw [htotal, htotal] at this
    omega
  have hmaps : secrets.map (fun secret => secret.val) = secrets'.map (fun secret => secret.val) :=
    List.eq_iff_flatten_eq.mpr ⟨h, by rw [hlengths, hlengths, hcount]⟩
  exact List.map_injective_iff.mpr Subtype.val_injective hmaps

theorem HandshakeContext.secrets_inj {context other : HandshakeContext} (h : context.secrets = other.secrets) :
    context.dh1 = other.dh1 ∧ context.dh2 = other.dh2 ∧ context.dh3 = other.dh3 ∧ context.dh4 = other.dh4 ∧
      context.kemSecret = other.kemSecret := by
  unfold secrets at h
  cases hdh4 : context.dh4 <;> cases hdh4' : other.dh4 <;> simp [hdh4, hdh4'] at h ⊢ <;> simp [h]

theorem HandshakeContext.agrees_of_eq {context other : HandshakeContext} {transcript : Bytes}
    (h : context.transcript = .ok transcript) (h' : other.transcript = .ok transcript)
    (hmaterial : context.keyingMaterial = other.keyingMaterial) : context.Agrees other := by
  obtain ⟨e₁, e₂, e₃, e₄, e₅, e₆, e₇⟩ := handshakeTranscript_binds h h'
  have hsecrets : context.secrets = other.secrets := by
    refine concat_secrets_inj ?_
    simpa [keyingMaterial, concat] using hmaterial
  obtain ⟨d₁, d₂, d₃, d₄, d₅⟩ := secrets_inj hsecrets
  exact ⟨e₁, e₂, e₃, e₄, e₅, e₆, e₇, d₁, d₂, d₃, d₄, d₅⟩

/-- The context an initiator's call works in. -/
structure InitiatorSide (crypto : Cryptography Bytes) (self : PrivateIdentity Bytes) (bundle : PreKeyBundle)
    (ephemeral : KeyPair Bytes) (coins : Bytes) (context : HandshakeContext) : Prop where
  initiator : context.initiator = publicIdentityOf self
  responder : context.responder = bundle.identity
  ephemeralPublicKey : context.ephemeralPublicKey = ephemeral.publicKey
  kem : crypto.kemEncapsulate coins
    ((bundle.oneTimeKemPreKey.map (fun key => key.publicKey)).getD bundle.signedKemPreKey.publicKey) =
      .ok (context.kemCiphertext, context.kemSecret.val)
  keyIds : context.keyIds = ⟨bundle.signedPreKey.id, bundle.signedKemPreKey.id,
    bundle.oneTimePreKey.map (fun key => key.id), bundle.oneTimeKemPreKey.map (fun key => key.id)⟩
  dh1 : crypto.dh self.exchange.secretKey bundle.signedPreKey.publicKey = .ok context.dh1.val
  dh2 : crypto.dh ephemeral.secretKey bundle.identity.exchangePublicKey = .ok context.dh2.val
  dh3 : crypto.dh ephemeral.secretKey bundle.signedPreKey.publicKey = .ok context.dh3.val
  dh4 : bundle.oneTimePreKey.mapM (fun key => crypto.dh ephemeral.secretKey key.publicKey) =
    .ok (context.dh4.map (fun secret => secret.val))

/-- The context a responder's call works in. -/
structure ResponderSide (crypto : Cryptography Bytes) (self : PrivateIdentity Bytes)
    (input : ResponderHandshakeInput Bytes) (context : HandshakeContext) : Prop where
  initiator : context.initiator = input.initiatorIdentity
  responder : context.responder = publicIdentityOf self
  ephemeralPublicKey : context.ephemeralPublicKey = input.ephemeralPublicKey
  kemCiphertext : context.kemCiphertext = input.kemCiphertext
  kem : crypto.kemDecapsulate input.kemCiphertext (input.oneTimeKemPreKeySecret.getD input.signedKemPreKeySecret) =
    .ok context.kemSecret.val
  keyIds : context.keyIds = input.keyIds
  oneTime : input.keyIds.oneTimePreKeyId.isSome = input.oneTimePreKeySecret.isSome
  oneTimeKem : input.keyIds.oneTimeKemPreKeyId.isSome = input.oneTimeKemPreKeySecret.isSome
  dh1 : crypto.dh input.signedPreKeySecret input.initiatorIdentity.exchangePublicKey = .ok context.dh1.val
  dh2 : crypto.dh self.exchange.secretKey input.ephemeralPublicKey = .ok context.dh2.val
  dh3 : crypto.dh input.signedPreKeySecret input.ephemeralPublicKey = .ok context.dh3.val
  dh4 : input.oneTimePreKeySecret.mapM (fun secret => crypto.dh secret input.ephemeralPublicKey) =
    .ok (context.dh4.map (fun secret => secret.val))

/-- The root secret comes from an injective KDF over secrets of 32 bytes. -/
structure RootKdf (crypto : Cryptography Bytes) (kdf : Bytes → Bytes → Bytes) : Prop where
  rootSecret : ∀ secrets transcript,
    crypto.deriveRootSecret secrets transcript = kdf (concat (handshakePrefix :: secrets)) transcript
  injective : ∀ ikm ikm' salt salt', kdf ikm salt = kdf ikm' salt' → ikm = ikm' ∧ salt = salt'
  dh_length : ∀ secret publicKey out, crypto.dh secret publicKey = .ok out → out.length = 32
  encapsulate_length : ∀ coins publicKey ciphertext secret,
    crypto.kemEncapsulate coins publicKey = .ok (ciphertext, secret) → secret.length = 32
  decapsulate_length : ∀ ciphertext secretKey secret,
    crypto.kemDecapsulate ciphertext secretKey = .ok secret → secret.length = 32

section

variable {crypto : Cryptography Bytes} {kdf : Bytes → Bytes → Bytes} {self peer : PrivateIdentity Bytes}
  {bundle : PreKeyBundle} {ephemeral : KeyPair Bytes} {coins : Bytes} {input : ResponderHandshakeInput Bytes}

theorem RootKdf.optional_dh (h : RootKdf crypto kdf) {α : Type} {key : Option α} {f : α → Except Failure Bytes}
    (hf : ∀ a out, f a = .ok out → ∃ secret publicKey, crypto.dh secret publicKey = .ok out) {out : Option Bytes}
    (hout : key.mapM f = .ok out) : ∃ secret : Option SharedSecret, out = secret.map (fun secret => secret.val) := by
  cases key with
  | none =>
    rw [mapM_none] at hout
    exact ⟨none, (Outcome.pure_eq_ok_iff.mp hout).symm⟩
  | some a =>
    rw [mapM_some] at hout
    simp only [Outcome.bind_eq_ok_iff, Outcome.pure_eq_ok_iff] at hout
    obtain ⟨b, hb, rfl⟩ := hout
    obtain ⟨secret, publicKey, hdh⟩ := hf a b hb
    exact ⟨some ⟨b, h.dh_length _ _ _ hdh⟩, rfl⟩

theorem RootKdf.rootSecret_eq (h : RootKdf crypto kdf) {context : HandshakeContext} {transcript : Bytes}
    {secrets : List Bytes} (hsecrets : secrets = context.secrets.map (fun secret => secret.val)) :
    crypto.deriveRootSecret secrets transcript = kdf context.keyingMaterial transcript := by
  rw [h.rootSecret, hsecrets, HandshakeContext.keyingMaterial]

theorem initiateHandshake_context (hkdf : RootKdf crypto kdf) {handshake : InitiatorHandshake Bytes}
    (h : initiateHandshake crypto self bundle ephemeral coins = .ok handshake) :
    ∃ context transcript, InitiatorSide crypto self bundle ephemeral coins context ∧
      context.transcript = .ok transcript ∧ handshake.rootSecret = kdf context.keyingMaterial transcript := by
  simp only [initiateHandshake, Outcome.bind_eq_ok_iff, Outcome.pure_eq_ok_iff] at h
  obtain ⟨_, _, ⟨kemCiphertext, kemSecret⟩, hencapsulate, dh1, hdh1, dh2, hdh2, dh3, hdh3, dh4, hdh4, transcript,
    htranscript, ad, had, rfl⟩ := h
  obtain ⟨secret, rfl⟩ := hkdf.optional_dh (fun _ _ hout => ⟨_, _, hout⟩) hdh4
  refine ⟨{ initiator := publicIdentityOf self, responder := bundle.identity
            ephemeralPublicKey := ephemeral.publicKey, kemCiphertext
            keyIds := ⟨bundle.signedPreKey.id, bundle.signedKemPreKey.id,
              bundle.oneTimePreKey.map (fun key => key.id), bundle.oneTimeKemPreKey.map (fun key => key.id)⟩
            dh1 := ⟨dh1, hkdf.dh_length _ _ _ hdh1⟩, dh2 := ⟨dh2, hkdf.dh_length _ _ _ hdh2⟩
            dh3 := ⟨dh3, hkdf.dh_length _ _ _ hdh3⟩, dh4 := secret
            kemSecret := ⟨kemSecret, hkdf.encapsulate_length _ _ _ _ hencapsulate⟩ }, transcript, ?_, htranscript, ?_⟩
  · exact ⟨rfl, rfl, rfl, hencapsulate, rfl, hdh1, hdh2, hdh3, hdh4⟩
  · refine hkdf.rootSecret_eq ?_
    cases secret <;> rfl

theorem respondToHandshake_context (hkdf : RootKdf crypto kdf) {rootSecret ad : Bytes}
    (h : respondToHandshake crypto self input = .ok (rootSecret, ad)) :
    ∃ context transcript, ResponderSide crypto self input context ∧ context.transcript = .ok transcript ∧
      rootSecret = kdf context.keyingMaterial transcript := by
  simp only [respondToHandshake] at h
  split at h
  next => cases h
  next hone =>
    split at h
    next => cases h
    next hkem =>
      simp only [Outcome.bind_eq_ok_iff, Outcome.pure_eq_ok_iff, Prod.mk.injEq] at h
      obtain ⟨kemSecret, hdecapsulate, dh1, hdh1, dh2, hdh2, dh3, hdh3, dh4, hdh4, transcript, htranscript,
        _, _, rfl, rfl⟩ := h
      obtain ⟨secret, rfl⟩ := hkdf.optional_dh (fun _ _ hout => ⟨_, _, hout⟩) hdh4
      refine ⟨{ initiator := input.initiatorIdentity, responder := publicIdentityOf self
                ephemeralPublicKey := input.ephemeralPublicKey, kemCiphertext := input.kemCiphertext
                keyIds := input.keyIds
                dh1 := ⟨dh1, hkdf.dh_length _ _ _ hdh1⟩, dh2 := ⟨dh2, hkdf.dh_length _ _ _ hdh2⟩
                dh3 := ⟨dh3, hkdf.dh_length _ _ _ hdh3⟩, dh4 := secret
                kemSecret := ⟨kemSecret, hkdf.decapsulate_length _ _ _ hdecapsulate⟩ }, transcript, ?_, htranscript, ?_⟩
      · exact ⟨rfl, rfl, rfl, rfl, hdecapsulate, rfl, not_not.mp hone, not_not.mp hkem, hdh1, hdh2, hdh3, hdh4⟩
      · refine hkdf.rootSecret_eq ?_
        cases secret <;> rfl

end

/-- The keying material and the transcript pin down every key of a handshake, its ids and which optional keys it
had; the associated data pins down both parties. So two sides with one root secret worked in one context. -/
theorem handshake_binds :
    (∀ (context other : HandshakeContext) (transcript : Bytes), context.transcript = .ok transcript →
      other.transcript = .ok transcript → context.keyingMaterial = other.keyingMaterial → context.Agrees other) ∧
    (∀ (initiator responder initiator' responder' : PublicIdentity) (ad : Bytes),
      associatedData initiator responder = .ok ad → associatedData initiator' responder' = .ok ad →
        initiator.signingPublicKey = initiator'.signingPublicKey ∧
          initiator.exchangePublicKey = initiator'.exchangePublicKey ∧
          responder.signingPublicKey = responder'.signingPublicKey ∧
          responder.exchangePublicKey = responder'.exchangePublicKey) ∧
    (∀ (crypto : Cryptography Bytes) (kdf : Bytes → Bytes → Bytes), RootKdf crypto kdf →
      ∀ (self peer : PrivateIdentity Bytes) (bundle : PreKeyBundle) (ephemeral : KeyPair Bytes) (coins : Bytes)
        (input : ResponderHandshakeInput Bytes) (handshake : InitiatorHandshake Bytes) (ad : Bytes),
        initiateHandshake crypto self bundle ephemeral coins = .ok handshake →
        respondToHandshake crypto peer input = .ok (handshake.rootSecret, ad) →
          ∃ context other, InitiatorSide crypto self bundle ephemeral coins context ∧
            ResponderSide crypto peer input other ∧ context.Agrees other) := by
  refine ⟨?_, ?_, ?_⟩
  · intro context other transcript h h' hmaterial
    exact HandshakeContext.agrees_of_eq h h' hmaterial
  · intro initiator responder initiator' responder' ad h h'
    exact associatedData_binds h h'
  · intro crypto kdf hkdf self peer bundle ephemeral coins input handshake ad hinitiate hrespond
    obtain ⟨context, transcript, hside, htranscript, hroot⟩ := initiateHandshake_context hkdf hinitiate
    obtain ⟨other, transcript', hside', htranscript', hroot'⟩ := respondToHandshake_context hkdf hrespond
    obtain ⟨hmaterial, rfl⟩ := hkdf.injective _ _ _ _ (hroot.symm.trans hroot')
    exact ⟨context, other, hside, hside', HandshakeContext.agrees_of_eq htranscript htranscript' hmaterial⟩

/-- The spelled-out primitives with secrets of 32 bytes. -/
def framed : Cryptography Bytes :=
  { spelled with
    dh := fun secret publicKey => .ok (List.replicate 30 0 ++ [secret.headD 0 + publicKey.getLastD 0, 1])
    kemEncapsulate := fun coins publicKey => .ok (coins, List.replicate 31 0 ++ [publicKey.getLastD 0])
    kemDecapsulate := fun _ secret => .ok (List.replicate 31 0 ++ [secret.headD 0])
    deriveRootSecret := fun secrets transcript => delimited (concat (handshakePrefix :: secrets)) ++ transcript }

theorem framed_rootKdf : RootKdf framed (fun ikm salt => delimited ikm ++ salt) where
  rootSecret _ _ := rfl
  injective _ _ _ _ h := delimited_append_inj h
  dh_length := by
    intro secret publicKey out h
    simp only [framed, Except.ok.injEq] at h
    subst h
    rfl
  encapsulate_length := by
    intro coins publicKey ciphertext secret h
    simp only [framed, Except.ok.injEq, Prod.mk.injEq] at h
    obtain ⟨_, rfl⟩ := h
    rfl
  decapsulate_length := by
    intro ciphertext secretKey secret h
    simp only [framed, Except.ok.injEq] at h
    subst h
    rfl

/-- What a responder works on, with the two signed secrets of a store. -/
def responderInput (initiator : PublicIdentity) (handshake : InitiatorHandshake Bytes) (signed kem : Bytes) :
    ResponderHandshakeInput Bytes where
  initiatorIdentity := initiator
  ephemeralPublicKey := handshake.ephemeralPublicKey
  kemCiphertext := handshake.kemCiphertext
  keyIds := handshake.keyIds
  signedPreKeySecret := signed
  signedKemPreKeySecret := kem

theorem handshake_binds_hello : ∃ input context other,
    InitiatorSide framed alice bobBundle (spelledPair 32 3) [7] context ∧ ResponderSide framed bob input other ∧
      context.Agrees other := by
  have hrun : (do
      let handshake ← initiateHandshake framed alice bobBundle (spelledPair 32 3) [7]
      let (rootSecret, _) ← respondToHandshake framed bob (responderInput (publicIdentityOf alice) handshake [13] [14])
      return decide (rootSecret = handshake.rootSecret)) = (.ok true : Except Failure Bool) := by decide +kernel
  simp only [Outcome.bind_eq_ok_iff, Outcome.pure_eq_ok_iff, decide_eq_true_eq] at hrun
  obtain ⟨handshake, hinitiate, ⟨rootSecret, ad⟩, hrespond, rfl⟩ := hrun
  obtain ⟨context, other, hall⟩ := handshake_binds.2.2 framed _ framed_rootKdf alice bob bobBundle (spelledPair 32 3)
    [7] _ handshake ad hinitiate hrespond
  exact ⟨_, context, other, hall⟩

end Veil
