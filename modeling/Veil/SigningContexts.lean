import Veil.Base64Url
import Veil.SealedSender
import Veil.SkippedKeys

namespace Veil

theorem utf8_eq_flatMap (text : String) : utf8 text = text.toList.flatMap String.utf8EncodeChar := by
  rw [utf8, ← String.utf8Encode_toList, List.utf8Encode]
  simp only [ByteArray.toList, byteArray_toList_loop, List.drop_zero, List.reverse_nil, List.nil_append,
    List.data_toByteArray]

/-- A text of base32 digits. -/
def Base32 : Type := { text : String // ∀ digit ∈ text.toList, digit ∈ base32 }

theorem Base32.colon_not_mem (text : Base32) : 58 ∉ utf8 text.val := by
  rw [utf8_eq_flatMap]
  intro hmem
  obtain ⟨digit, hdigit, hbyte⟩ := List.mem_flatMap.mp hmem
  have table : base32.all (fun digit => !(String.utf8EncodeChar digit).elem 58) = true := by decide +kernel
  have habsent := List.all_eq_true.mp table digit (text.property digit hdigit)
  rw [List.elem_eq_true_of_mem hbyte] at habsent
  cases habsent

theorem base32_getD_mem (value : Nat) : base32.getD value 'a' ∈ base32 := by
  rw [List.getD_eq_getElem?_getD]
  cases hdigit : base32[value]? with
  | none => decide
  | some digit => exact List.mem_of_getElem? hdigit

theorem base32Digits_mem (value : UInt32) (bits : Nat) : ∀ digit ∈ (base32Digits value bits).1, digit ∈ base32 := by
  fun_induction base32Digits value bits with
  | case1 bits digits rest heq ih =>
    rw [heq] at ih
    intro digit hmem
    rcases List.mem_cons.mp hmem with rfl | hmem
    · exact base32_getD_mem _
    · exact ih digit hmem
  | case2 => exact fun _ hmem => absurd hmem List.not_mem_nil

/-- Addresses are such texts. -/
theorem toBase32_digits (bytes : Bytes) : ∀ digit ∈ (toBase32 bytes).toList, digit ∈ base32 := by
  have hfold : ∀ (state : List Char × UInt32 × Nat), (∀ digit ∈ state.1, digit ∈ base32) →
      ∀ digit ∈ (bytes.foldl (fun (state : List Char × UInt32 × Nat) byte =>
        let value : UInt32 := (state.2.1 <<< 8) ||| byte.toUInt32
        let read := base32Digits value (state.2.2 + 8)
        (state.1 ++ read.1, value, read.2)) state).1, digit ∈ base32 := by
    induction bytes with
    | nil => exact fun _ h => h
    | cons byte bytes ih =>
      intro state h
      refine ih _ (fun digit hmem => ?_)
      rcases List.mem_append.mp hmem with hmem | hmem
      · exact h digit hmem
      · exact base32Digits_mem _ _ digit hmem
  have hdigits := hfold ([], 0, 0) (fun _ hmem => absurd hmem List.not_mem_nil)
  simp only [toBase32, String.toList_ofList]
  intro digit hmem
  split at hmem
  next =>
    rcases List.mem_append.mp hmem with hmem | hmem
    · exact hdigits digit hmem
    · rw [List.mem_singleton.mp hmem]
      exact base32_getD_mem _
  next => exact hdigits digit hmem

/-- What an identity key is asked to sign, with all that goes into it. -/
inductive SigningContext
  | exchangeKey (signingPublicKey : Bytes) (id : Int) (publicKey : Bytes)
  | signedPreKey (signingPublicKey : Bytes) (id : Int) (publicKey : Bytes)
  | signedKemPreKey (signingPublicKey : Bytes) (id : Int) (publicKey : Bytes)
  | senderProof (ephemeralPublicKey : Bytes) (recipientAddress : String) (payloadKind : Nat) (payload : Bytes)
  | authentication (address : Base32) (challenge : Bytes)

def SigningContext.transcript : SigningContext → Except Failure Bytes
  | .exchangeKey signingPublicKey id publicKey => signingTranscript sigContextExchange signingPublicKey id publicKey
  | .signedPreKey signingPublicKey id publicKey => signingTranscript sigContextSignedPreKey signingPublicKey id publicKey
  | .signedKemPreKey signingPublicKey id publicKey => signingTranscript sigContextKemPreKey signingPublicKey id publicKey
  | .senderProof ephemeralPublicKey recipientAddress payloadKind payload =>
    senderProofTranscript ephemeralPublicKey recipientAddress payloadKind payload
  | .authentication address challenge => .ok (challengeTranscript address.val challenge)

/-- `RelayClient.authenticate`, for the challenge a relay has answered with. -/
def authenticate {K : Type} (crypto : Cryptography K) (identity : PrivateIdentity K) (address challenge : String) :
    Except Failure Bytes := do
  crypto.sign identity.signing.secretKey (challengeTranscript address (← fromBase64Url challenge))

/-- The signatures made with an identity key, each with what it was made for. -/
inductive IdentitySignature {K : Type} (crypto : Cryptography K) (identity : PrivateIdentity K) : SigningContext → Bytes → Prop
  | createIdentity {signing exchange : KeyPair K} (made : createIdentity crypto signing exchange = .ok identity) :
      IdentitySignature crypto identity (.exchangeKey identity.signing.publicKey 0 identity.exchange.publicKey)
        identity.exchangeKeySignature
  | createSignedPreKey {id : Int} {pair kept : KeyPair K} {key : SignedPreKey}
      (made : createSignedPreKey crypto identity id pair = .ok (key, kept)) :
      IdentitySignature crypto identity (.signedPreKey identity.signing.publicKey key.id key.publicKey) key.signature
  | createSignedKemPreKey {id : Int} {pair kept : KeyPair K} {key : SignedPreKey}
      (made : createSignedKemPreKey crypto identity id pair = .ok (key, kept)) :
      IdentitySignature crypto identity (.signedKemPreKey identity.signing.publicKey key.id key.publicKey) key.signature
  | sealEnvelope {ephemeral : KeyPair K} {recipientAddress : String} {payloadKind : Nat} {payload transcript proof : Bytes}
      (asked : senderProofTranscript ephemeral.publicKey recipientAddress payloadKind payload = .ok transcript)
      (made : crypto.sign identity.signing.secretKey transcript = .ok proof) :
      IdentitySignature crypto identity (.senderProof ephemeral.publicKey recipientAddress payloadKind payload) proof
  | authenticate {address : Base32} {text : String} {challenge signature : Bytes} (asked : fromBase64Url text = .ok challenge)
      (made : authenticate crypto identity address.val text = .ok signature) :
      IdentitySignature crypto identity (.authentication address challenge) signature

theorem challengeTranscript_binds {address address' : Base32} {challenge challenge' : Bytes}
    (h : challengeTranscript address.val challenge = challengeTranscript address'.val challenge') :
    address = address' ∧ challenge = challenge' := by
  have hcolon : utf8 ":" = [58] := by decide +kernel
  simp only [challengeTranscript, hcolon, List.append_assoc, List.append_cancel_left_eq, List.singleton_append] at h
  obtain ⟨haddress, hchallenge⟩ := append_cons_inj_of_not_mem address.colon_not_mem address'.colon_not_mem h
  exact ⟨Subtype.ext (utf8_inj haddress), hchallenge⟩

namespace SigningContext

variable {context : Int} {signingPublicKey publicKey transcript : Bytes} {id : Int} {other : SigningContext}

/-- What has the transcript of a key binding is the binding of that context. -/
theorem of_signingTranscript (h : signingTranscript context signingPublicKey id publicKey = .ok transcript)
    (ho : other.transcript = .ok transcript) :
    (context, other) ∈ [(sigContextExchange, .exchangeKey signingPublicKey id publicKey),
      (sigContextSignedPreKey, .signedPreKey signingPublicKey id publicKey),
      (sigContextKemPreKey, .signedKemPreKey signingPublicKey id publicKey)] := by
  cases other with
  | exchangeKey =>
    obtain ⟨rfl, rfl, rfl, rfl⟩ := signingTranscript_binds h ho
    exact List.mem_cons_self
  | signedPreKey =>
    obtain ⟨rfl, rfl, rfl, rfl⟩ := signingTranscript_binds h ho
    exact List.mem_cons_of_mem _ List.mem_cons_self
  | signedKemPreKey =>
    obtain ⟨rfl, rfl, rfl, rfl⟩ := signingTranscript_binds h ho
    exact List.mem_cons_of_mem _ (List.mem_cons_of_mem _ List.mem_cons_self)
  | senderProof ephemeralPublicKey recipientAddress payloadKind payload =>
    have hsame := (@SigningRequest.eq_keyBinding (.senderProof ephemeralPublicKey recipientAddress payloadKind payload)) h ho
    cases hsame
  | authentication address challenge =>
    have hsame := (@SigningRequest.eq_keyBinding (.authentication address.val challenge)) h ho
    cases hsame

theorem of_senderProofTranscript {ephemeralPublicKey payload : Bytes} {recipientAddress : String} {payloadKind : Nat}
    (h : senderProofTranscript ephemeralPublicKey recipientAddress payloadKind payload = .ok transcript)
    (ho : other.transcript = .ok transcript) :
    other = .senderProof ephemeralPublicKey recipientAddress payloadKind payload := by
  cases other with
  | exchangeKey | signedPreKey | signedKemPreKey =>
    have hbinding := @of_signingTranscript _ _ _ _ _
      (.senderProof ephemeralPublicKey recipientAddress payloadKind payload) ho h
    simp at hbinding
  | senderProof =>
    obtain ⟨rfl, rfl, rfl, rfl⟩ := senderProofTranscript_binds h ho
    rfl
  | authentication address challenge =>
    have hsame := (@SigningRequest.eq_senderProof (.authentication address.val challenge) []) h ho
    cases hsame

theorem contexts_apart : sigContextExchange ≠ sigContextSignedPreKey ∧ sigContextExchange ≠ sigContextKemPreKey ∧
    sigContextSignedPreKey ≠ sigContextKemPreKey := by decide

/-- A transcript tells its context and all its fields. -/
theorem transcript_injective {a b : SigningContext} (ha : a.transcript = .ok transcript)
    (hb : b.transcript = .ok transcript) : a = b := by
  obtain ⟨hsigned, hkem, hkem'⟩ := contexts_apart
  cases a with
  | exchangeKey =>
    have hbinding := of_signingTranscript ha hb
    simp [hsigned, hkem] at hbinding
    exact hbinding.symm
  | signedPreKey =>
    have hbinding := of_signingTranscript ha hb
    simp [hsigned.symm, hkem'] at hbinding
    exact hbinding.symm
  | signedKemPreKey =>
    have hbinding := of_signingTranscript ha hb
    simp [hkem.symm, hkem'.symm] at hbinding
    exact hbinding.symm
  | senderProof => exact (of_senderProofTranscript ha hb).symm
  | authentication address challenge =>
    cases b with
    | exchangeKey | signedPreKey | signedKemPreKey =>
      have hbinding := of_signingTranscript hb ha
      simp at hbinding
    | senderProof =>
      have hproof := of_senderProofTranscript hb ha
      cases hproof
    | authentication address' challenge' =>
      obtain ⟨rfl, rfl⟩ := challengeTranscript_binds ((Except.ok.inj ha).trans (Except.ok.inj hb).symm)
      rfl

end SigningContext

section

variable {K : Type} {crypto : Cryptography K} {identity : PrivateIdentity K} {context : SigningContext} {signature : Bytes}

theorem createSigned_eq_ok {context id : Int} {pair kept : KeyPair K} {key : SignedPreKey}
    (h : createSigned crypto context identity id pair = .ok (key, kept)) :
    ∃ transcript, signingTranscript context identity.signing.publicKey key.id key.publicKey = .ok transcript ∧
      crypto.sign identity.signing.secretKey transcript = .ok key.signature := by
  unfold createSigned at h
  obtain ⟨transcript, htranscript, h⟩ := Outcome.bind_eq_ok_iff.mp h
  obtain ⟨signature, hsignature, h⟩ := Outcome.bind_eq_ok_iff.mp h
  obtain ⟨rfl, _⟩ := Prod.mk.inj (Except.ok.inj h)
  exact ⟨transcript, htranscript, hsignature⟩

/-- Whatever an identity key signs is the transcript of what it is asked for. -/
theorem IdentitySignature.transcript (h : IdentitySignature crypto identity context signature) :
    ∃ transcript, context.transcript = .ok transcript ∧
      crypto.sign identity.signing.secretKey transcript = .ok signature := by
  cases h with
  | createIdentity made =>
    obtain ⟨transcript, htranscript, made⟩ := Outcome.bind_eq_ok_iff.mp made
    obtain ⟨signature, hsignature, made⟩ := Outcome.bind_eq_ok_iff.mp made
    obtain rfl := Except.ok.inj made
    exact ⟨transcript, htranscript, hsignature⟩
  | createSignedPreKey made => exact createSigned_eq_ok made
  | createSignedKemPreKey made => exact createSigned_eq_ok made
  | sealEnvelope asked made => exact ⟨_, asked, made⟩
  | authenticate asked made =>
    unfold Veil.authenticate at made
    rw [asked] at made
    exact ⟨_, rfl, made⟩

/-- A signature made with a generated key verifies under it for nothing but what was signed. -/
def Cryptography.SignsOnly (crypto : Cryptography K) (signing : KeyPair K → Prop) : Prop :=
  ∀ pair, signing pair → ∀ message signature, crypto.sign pair.secretKey message = .ok signature →
    ∀ message', crypto.verify pair.publicKey message' signature = true → message' = message

end

/-- A transcript tells its context and all its fields, so that a signature made in a context, where it verifies for
nothing but what was signed, verifies for no other. -/
theorem signing_contexts :
    (∀ (a b : SigningContext) (transcript : Bytes), a.transcript = .ok transcript → b.transcript = .ok transcript → a = b) ∧
      ∀ {K : Type} (crypto : Cryptography K) (signing : KeyPair K → Prop), crypto.SignsOnly signing →
        ∀ identity, signing identity.signing → ∀ context signature, IdentitySignature crypto identity context signature →
          ∀ other transcript, SigningContext.transcript other = .ok transcript →
            crypto.verify identity.signing.publicKey transcript signature = true → other = context := by
  refine ⟨fun a b transcript ha hb => SigningContext.transcript_injective ha hb, ?_⟩
  intro K crypto signing only identity hidentity context signature made other transcript hother hverify
  obtain ⟨message, hmessage, hsign⟩ := made.transcript
  obtain rfl := only identity.signing hidentity message signature hsign transcript hverify
  exact SigningContext.transcript_injective hother hmessage

/-- Signatures that show what they sign. -/
def shown : Cryptography Bytes :=
  { spelled with
    sign := fun secret message => .ok (secret.headD 0 :: message)
    verify := fun publicKey message signature => signature = publicKey.getLastD 0 :: message }

theorem shown_signsOnly : shown.SignsOnly spelledGenerators.signing := by
  intro pair _ message signature h message' h'
  obtain rfl := Except.ok.inj h
  have hsame : pair.secretKey.headD 0 :: message = pair.publicKey.getLastD 0 :: message' := of_decide_eq_true h'
  exact (List.cons.inj hsame).2.symm

def shownIdentity : PrivateIdentity Bytes where
  signing := spelledPair 32 1
  exchange := spelledPair 32 2
  exchangeKeySignature := []

/-- A challenge that spells a signed prekey gives no signature of one. -/
theorem signing_contexts_challenge : ∃ transcript signature,
    signingTranscript sigContextSignedPreKey (spelledPair 32 1).publicKey 7 [3] = .ok transcript ∧
      authenticate shown shownIdentity "abc" (toBase64Url transcript) = .ok signature ∧
        shown.verify (spelledPair 32 1).publicKey transcript signature ≠ true := by
  obtain ⟨transcript, htranscript⟩ : ∃ transcript,
      signingTranscript sigContextSignedPreKey (spelledPair 32 1).publicKey 7 [3] = .ok transcript := ⟨_, rfl⟩
  have hasked : fromBase64Url (toBase64Url transcript) = .ok transcript := fromBase64Url_toBase64Url transcript
  have hmade : authenticate shown shownIdentity "abc" (toBase64Url transcript) =
      .ok (1 :: challengeTranscript "abc" transcript) := by
    unfold authenticate
    rw [hasked]
    rfl
  refine ⟨transcript, _, htranscript, hmade, fun hverify => ?_⟩
  have table : "abc".toList.all (fun digit => base32.elem digit) = true := by decide +kernel
  have hdigits : ∀ digit ∈ "abc".toList, digit ∈ base32 :=
    fun digit hdigit => List.mem_of_elem_eq_true (List.all_eq_true.mp table digit hdigit)
  have hsame := signing_contexts.2 shown spelledGenerators.signing shown_signsOnly shownIdentity rfl _ _
    (@IdentitySignature.authenticate _ _ _ ⟨"abc", hdigits⟩ _ _ _ hasked hmade)
    (.signedPreKey (spelledPair 32 1).publicKey 7 [3]) transcript htranscript hverify
  cases hsame

end Veil
