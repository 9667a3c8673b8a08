import Veil.SessionCodec
import Veil.SigningContexts
import Veil.Spelled

namespace Veil

/-- The length of what `encodePreamble` writes. -/
def preambleLength : Nat := (4 + 32) + (4 + 1568) + 4 + 4 + (1 + 4) + (1 + 4)

/-- The length of what `encodeRatchetMessage` writes for a padded plaintext of this length. -/
def bodyLength (bucket : Nat) : Nat := (4 + 32) + 4 + 4 + (4 + (bucket + 16))

def payloadLength (bucket : Nat) (owesPreamble : Bool) : Nat :=
  if owesPreamble then preambleLength + (4 + bodyLength bucket) else bodyLength bucket

/-- The length of an envelope's ciphertext. -/
def wireLength (bucket : Nat) (owesPreamble : Bool) : Nat :=
  (4 + 32) + (4 + 32) + (4 + 64) + (4 + 64) + 1 + (4 + payloadLength bucket owesPreamble) + 16

section

variable {K : Type} (crypto : Cryptography K)

/-- The lengths of what the primitives return. -/
structure Cryptography.FixedLengths : Prop where
  sign : ∀ secretKey message signature, crypto.sign secretKey message = .ok signature → signature.length = 64
  aeadEncrypt : ∀ key nonce plaintext associatedData ciphertext,
    crypto.aeadEncrypt key nonce plaintext associatedData = .ok ciphertext → ciphertext.length = plaintext.length + 16
  hash256 : ∀ bytes, (crypto.hash256 bytes).length = 32

/-- The lengths of the keys an envelope is made with. -/
structure Sized (sender : PrivateIdentity K) (session : Session K) (ephemeral : KeyPair K) : Prop where
  signing : sender.signing.publicKey.length = 32
  exchange : sender.exchange.publicKey.length = 32
  signature : sender.exchangeKeySignature.length = 64
  ratchet : session.ratchet.sending.publicKey.length = 32
  preamble : ∀ preamble, session.pendingPreKey = some preamble →
    preamble.ephemeralPublicKey.length = 32 ∧ preamble.kemCiphertext.length = 1568
  ephemeral : ephemeral.publicKey.length = 32

end

theorem prefixed_length (value : Bytes) : (Reads.prefixed value).length = 4 + value.length := by
  rw [Reads.prefixed, List.length_append, Reads.bigEndian32_length]

/-- A byte is completed to as many digits as there are groups of five bits. -/
theorem base32Digits_length (value : UInt32) (bits : Nat) :
    5 * (base32Digits value bits).1.length + (base32Digits value bits).2 = bits ∧ (base32Digits value bits).2 < 5 := by
  fun_induction base32Digits value bits with
  | case1 bits digits rest heq ih =>
    rw [heq] at ih
    simp only [List.length_cons] at ih ⊢
    omega
  | case2 bits h =>
    refine ⟨by simp, ?_⟩
    by_contra hmany
    exact h (bits - 5) (by omega)

theorem toBase32_length (bytes : Bytes) : (toBase32 bytes).length = (8 * bytes.length + 4) / 5 := by
  have hfold : ∀ (bytes : Bytes) (state : List Char × UInt32 × Nat), state.2.2 < 5 →
      let last := bytes.foldl (fun (state : List Char × UInt32 × Nat) byte =>
        let value : UInt32 := (state.2.1 <<< 8) ||| byte.toUInt32
        let read := base32Digits value (state.2.2 + 8)
        (state.1 ++ read.1, value, read.2)) state
      5 * last.1.length + last.2.2 = 5 * state.1.length + state.2.2 + 8 * bytes.length ∧ last.2.2 < 5 := by
    intro bytes
    induction bytes with
    | nil => exact fun state h => ⟨rfl, h⟩
    | cons byte bytes ih =>
      intro state h
      obtain ⟨hdigits, hrest⟩ := base32Digits_length ((state.2.1 <<< 8) ||| byte.toUInt32) (state.2.2 + 8)
      obtain ⟨hlast, hbits⟩ := ih (state.1 ++ (base32Digits ((state.2.1 <<< 8) ||| byte.toUInt32) (state.2.2 + 8)).1,
        (state.2.1 <<< 8) ||| byte.toUInt32, (base32Digits ((state.2.1 <<< 8) ||| byte.toUInt32) (state.2.2 + 8)).2) hrest
      simp only [List.length_append] at hlast
      refine ⟨?_, hbits⟩
      simp only [List.foldl_cons, List.length_cons]
      omega
  obtain ⟨hdigits, hbits⟩ := hfold bytes ([], 0, 0) (by decide)
  simp only [List.length_nil] at hdigits
  let last := bytes.foldl (fun (state : List Char × UInt32 × Nat) byte =>
    let value : UInt32 := (state.2.1 <<< 8) ||| byte.toUInt32
    let read := base32Digits value (state.2.2 + 8)
    (state.1 ++ read.1, value, read.2)) ([], 0, 0)
  have hlast : toBase32 bytes = String.ofList (if last.2.2 > 0 then
      last.1 ++ [base32.getD ((last.2.1 <<< UInt32.ofNat (5 - last.2.2)) &&& 31).toNat 'a'] else last.1) := rfl
  have hsum : 5 * last.1.length + last.2.2 = 8 * bytes.length := by
    have hsum : 5 * last.1.length + last.2.2 = 5 * 0 + 0 + 8 * bytes.length := hdigits
    omega
  have hfew : last.2.2 < 5 := hbits
  rw [hlast, String.length_ofList]
  split
  next =>
    rw [List.length_append, List.length_singleton]
    omega
  next => omega

section

variable {K : Type} {crypto : Cryptography K} (lengths : crypto.FixedLengths)

theorem optionalId_length {w w' : Writer} {id : Option Int} (h : w.optionalId id = .ok w') :
    w'.written.length = w.written.length + 5 := by
  simp only [Writer.optionalId, Outcome.bind_eq_ok_iff, Writer.u8_eq_ok_iff, Writer.u32_eq_ok_iff] at h
  obtain ⟨_, ⟨_, _, rfl⟩, _, _, rfl⟩ := h
  simp only [Writer.push, List.length_append, List.length_singleton, Reads.bigEndian32_length]

theorem encodePreamble_length {preamble : PreKeyPreamble} {bytes : Bytes} (h : encodePreamble preamble = .ok bytes) :
    bytes.length = (4 + preamble.ephemeralPublicKey.length) + (4 + preamble.kemCiphertext.length) + 4 + 4 + (1 + 4) + (1 + 4) := by
  simp only [encodePreamble, Writer.keyIds, Outcome.bind_eq_ok_iff, Outcome.pure_eq_ok_iff, Writer.bytes_eq_ok_iff,
    Writer.u32_eq_ok_iff] at h
  obtain ⟨_, ⟨_, rfl⟩, _, ⟨_, rfl⟩, _, ⟨_, ⟨_, _, rfl⟩, _, ⟨_, _, rfl⟩, _, hfirst, hsecond⟩, rfl⟩ := h
  have hfirst := optionalId_length hfirst
  have hsecond := optionalId_length hsecond
  simp only [Writer.push, List.length_append, prefixed_length, Reads.bigEndian32_length, List.nil_append] at hfirst
  rw [Writer.finish]
  omega

theorem encodeRatchetMessage_length {message : RatchetMessage} {bytes : Bytes}
    (h : encodeRatchetMessage message = .ok bytes) :
    bytes.length = (4 + message.header.ratchetPublicKey.length) + 4 + 4 + (4 + message.ciphertext.length) := by
  simp only [encodeRatchetMessage, Outcome.bind_eq_ok_iff, Outcome.pure_eq_ok_iff, Writer.bytes_eq_ok_iff,
    Writer.u32_eq_ok_iff] at h
  obtain ⟨_, ⟨_, rfl⟩, _, ⟨_, _, rfl⟩, _, ⟨_, _, rfl⟩, _, ⟨_, rfl⟩, rfl⟩ := h
  simp only [Writer.finish_push, Writer.finish_empty, List.nil_append, List.length_append, prefixed_length,
    Reads.bigEndian32_length]

theorem sealedLayer_length {inner : SealedLayer} {bytes : Bytes} (h : inner.encode = .ok bytes) :
    bytes.length = (4 + inner.senderIdentity.signingPublicKey.length) + (4 + inner.senderIdentity.exchangePublicKey.length) +
      (4 + inner.senderIdentity.exchangeKeySignature.length) + (4 + inner.proof.length) + 1 +
        (4 + inner.payload.length) := by
  simp only [SealedLayer.encode, Outcome.bind_eq_ok_iff, Outcome.pure_eq_ok_iff, Writer.bytes_eq_ok_iff,
    Writer.u8_eq_ok_iff] at h
  obtain ⟨_, ⟨_, rfl⟩, _, ⟨_, rfl⟩, _, ⟨_, rfl⟩, _, ⟨_, rfl⟩, _, ⟨_, _, rfl⟩, _, ⟨_, rfl⟩, rfl⟩ := h
  simp only [Writer.finish_push, Writer.finish_empty, List.nil_append, List.length_append, prefixed_length,
    List.length_singleton]

include lengths

/-- The ratchet names its own key in the header, and the AEAD adds its tag. -/
theorem ratchetEncrypt_length {state : RatchetState K} {plaintext : Bytes} {message : RatchetMessage}
    (h : (ratchetEncrypt crypto.toRatchetPrimitives state plaintext).2 = .ok message) :
    message.header.ratchetPublicKey = state.sending.publicKey ∧ message.ciphertext.length = plaintext.length + 16 := by
  unfold ratchetEncrypt at h
  cases hchain : state.sendingChainKey with
  | none =>
    rw [hchain] at h
    cases h
  | some chainKey =>
    simp only [hchain, Outcome.bind_eq_ok_iff, Outcome.pure_eq_ok_iff] at h
    obtain ⟨ad, _, ciphertext, hciphertext, rfl⟩ := h
    exact ⟨rfl, lengths.aeadEncrypt _ _ _ _ _ hciphertext⟩

theorem addressOf_length {signingKey : Bytes} {address : String} (h : addressOf crypto signingKey = .ok address) :
    address.length = 26 := by
  unfold addressOf at h
  split at h
  next => cases h
  next =>
    obtain rfl := Except.ok.inj h
    rw [toBase32_length, List.length_take, lengths.hash256]
    rfl

omit lengths in
theorem encodePayload_length {session : Session K} {message : RatchetMessage} {payload : Bytes} {bucket : Nat}
    (hkey : message.header.ratchetPublicKey.length = 32) (hciphertext : message.ciphertext.length = bucket + 16)
    (hpreamble : ∀ preamble, session.pendingPreKey = some preamble →
      preamble.ephemeralPublicKey.length = 32 ∧ preamble.kemCiphertext.length = 1568)
    (h : encodePayload session message = .ok payload) :
    payload.length = payloadLength bucket session.pendingPreKey.isSome := by
  obtain ⟨body, hbody, h⟩ := Outcome.bind_eq_ok_iff.mp h
  have hlength := encodeRatchetMessage_length hbody
  rw [hkey, hciphertext] at hlength
  cases hpending : session.pendingPreKey with
  | none =>
    simp only [hpending, Outcome.pure_eq_ok_iff] at h
    rw [← h]
    exact hlength
  | some preamble =>
    obtain ⟨hephemeral, hkem⟩ := hpreamble preamble hpending
    simp only [hpending, Outcome.bind_eq_ok_iff, Outcome.pure_eq_ok_iff, Writer.bytes_eq_ok_iff] at h
    obtain ⟨encoded, hencoded, _, ⟨_, rfl⟩, rfl⟩ := h
    have hencoded := encodePreamble_length hencoded
    rw [hephemeral, hkem] at hencoded
    simp only [Writer.finish_push, Writer.finish_fixed, Writer.finish_empty, List.nil_append, List.length_append,
      prefixed_length, hencoded, hlength]
    rfl

theorem sealEnvelope_length {self : PrivateIdentity K} {session : Session K} {ephemeral : KeyPair K}
    (sized : Sized self session ephemeral) {kind : Nat} {payload : Bytes} {envelope : SealedEnvelope}
    (h : sealEnvelope crypto (publicIdentityOf self) (crypto.sign self.signing.secretKey) session.peerIdentity kind payload
      ephemeral = .ok envelope) :
    envelope.recipientAddress.length = 26 ∧ envelope.ephemeralPublicKey.length = 32 ∧
      envelope.ciphertext.length =
        (4 + 32) + (4 + 32) + (4 + 64) + (4 + 64) + 1 + (4 + payload.length) + 16 := by
  obtain ⟨bound, _, h⟩ := Outcome.bind_eq_ok_iff.mp h
  cases bound with
  | false => cases h
  | true =>
    obtain ⟨address, haddress, h⟩ := Outcome.bind_eq_ok_iff.mp h
    obtain ⟨sharedSecret, _, h⟩ := Outcome.bind_eq_ok_iff.mp h
    obtain ⟨transcript, _, h⟩ := Outcome.bind_eq_ok_iff.mp h
    obtain ⟨proof, hproof, h⟩ := Outcome.bind_eq_ok_iff.mp h
    obtain ⟨inner, hinner, h⟩ := Outcome.bind_eq_ok_iff.mp h
    obtain ⟨ciphertext, hciphertext, h⟩ := Outcome.bind_eq_ok_iff.mp h
    obtain rfl := Outcome.pure_eq_ok_iff.mp h
    have hlayer := sealedLayer_length hinner
    have hproof := lengths.sign _ _ _ hproof
    simp only [publicIdentityOf, sized.signing, sized.exchange, sized.signature, hproof] at hlayer
    refine ⟨addressOf_length lengths haddress, sized.ephemeral, ?_⟩
    rw [lengths.aeadEncrypt _ _ _ _ _ hciphertext, hlayer]

/-- The length of an envelope comes from the bucket of its plaintext and from whether the session owes its preamble. -/
theorem encryptMessage_length {self : PrivateIdentity K} {session : Session K} {ephemeral : KeyPair K}
    (sized : Sized self session ephemeral) {plaintext : Bytes} {envelope : SealedEnvelope}
    (h : (encryptMessage crypto self session plaintext ephemeral).2 = .ok envelope) :
    envelope.recipientAddress.length = 26 ∧ envelope.ephemeralPublicKey.length = 32 ∧
      envelope.ciphertext.length = wireLength (bucketSize plaintext.length) session.pendingPreKey.isSome := by
  obtain ⟨message, hmessage, h⟩ := Outcome.bind_eq_ok_iff.mp h
  obtain ⟨payload, hpayload, h⟩ := Outcome.bind_eq_ok_iff.mp h
  obtain ⟨hkey, hciphertext⟩ := ratchetEncrypt_length lengths hmessage
  rw [length_pad] at hciphertext
  have hratchet : message.header.ratchetPublicKey.length = 32 := by
    rw [hkey]
    exact sized.ratchet
  have hlength := encodePayload_length hratchet hciphertext sized.preamble hpayload
  obtain ⟨haddress, hephemeral, hsealed⟩ := sealEnvelope_length lengths sized h
  rw [hlength] at hsealed
  exact ⟨haddress, hephemeral, hsealed⟩

/-- Two runs, whoever sends to whom with whatever session: plaintexts of one bucket give envelopes of one length, as long as both
sessions or neither owe the preamble; and that length is a function of the two. -/
theorem envelope_hides_length {self self' : PrivateIdentity K} {session session' : Session K} {ephemeral ephemeral' : KeyPair K}
    (sized : Sized self session ephemeral) (sized' : Sized self' session' ephemeral') {p q : Bytes}
    (bucket : bucketSize p.length = bucketSize q.length)
    (owes : session.pendingPreKey.isSome = session'.pendingPreKey.isSome) {envelope envelope' : SealedEnvelope}
    (h : (encryptMessage crypto self session p ephemeral).2 = .ok envelope)
    (h' : (encryptMessage crypto self' session' q ephemeral').2 = .ok envelope') :
    envelope.recipientAddress.length = envelope'.recipientAddress.length ∧
      envelope.ephemeralPublicKey.length = envelope'.ephemeralPublicKey.length ∧
      envelope.ciphertext.length = envelope'.ciphertext.length ∧
      envelope.ciphertext.length = wireLength (bucketSize p.length) session.pendingPreKey.isSome := by
  obtain ⟨haddress, hephemeral, hciphertext⟩ := encryptMessage_length lengths sized h
  obtain ⟨haddress', hephemeral', hciphertext'⟩ := encryptMessage_length lengths sized' h'
  refine ⟨haddress.trans haddress'.symm, hephemeral.trans hephemeral'.symm, ?_, hciphertext⟩
  rw [hciphertext, hciphertext', bucket, owes]

end

/-- The spelled-out primitives with the lengths of the real ones. -/
def measured : Cryptography Bytes :=
  { spelled with
    aeadEncrypt := fun _ _ plaintext _ => .ok (List.replicate 16 0 ++ plaintext)
    aeadDecrypt := fun _ _ ciphertext _ => .ok (ciphertext.drop 16)
    sign := fun secretKey _ => .ok (List.replicate 63 0 ++ [secretKey.headD 0])
    verify := fun publicKey _ signature => signature = List.replicate 63 0 ++ [publicKey.getLastD 0]
    hash256 := fun bytes => (bytes.reverse ++ List.replicate 32 0).take 32 }

theorem measured_lengths : measured.FixedLengths where
  sign secretKey message signature h := by
    obtain rfl := Except.ok.inj h
    rw [List.length_append, List.length_replicate]
    rfl
  aeadEncrypt key nonce plaintext associatedData ciphertext h := by
    obtain rfl := Except.ok.inj h
    rw [List.length_append, List.length_replicate, Nat.add_comm]
  hash256 bytes := by
    show ((bytes.reverse ++ List.replicate 32 0).take 32).length = 32
    rw [List.length_take, List.length_append, List.length_replicate]
    omega

def measuredIdentity (signing exchange : UInt8) : PrivateIdentity Bytes where
  signing := spelledPair 32 signing
  exchange := spelledPair 32 exchange
  exchangeKeySignature := List.replicate 63 0 ++ [signing]

/-- A session that has sent some messages; it owes its preamble until the first reply. -/
def measuredSession (peer : UInt8) (sent : Nat) (pendingPreKey : Option PreKeyPreamble) : Session Bytes where
  peerIdentity := publicIdentityOf (measuredIdentity peer (peer + 1))
  ratchet := { rootKey := [1], sending := spelledPair 32 9, sendingChainKey := some [4], sentCount := sent, associatedData := [] }
  pendingPreKey

def measuredPreamble (oneTimePreKeyId : Option Int) : PreKeyPreamble where
  ephemeralPublicKey := List.replicate 32 0
  kemCiphertext := List.replicate 1568 0
  keyIds := { signedPreKeyId := 1, signedKemPreKeyId := 2, oneTimePreKeyId }

/-- A short first message with a one-time key and a longer eighth one without, to different people. -/
theorem envelope_hides_length_two : ∃ envelope envelope',
    (encryptMessage measured (measuredIdentity 1 2) (measuredSession 3 0 (some (measuredPreamble (some 7)))) [1]
      (spelledPair 32 5)).2 = .ok envelope ∧
    (encryptMessage measured (measuredIdentity 6 7) (measuredSession 10 8 (some (measuredPreamble none))) [1, 2, 3]
      (spelledPair 32 8)).2 = .ok envelope' ∧ envelope.ciphertext.length = envelope'.ciphertext.length := by
  have hsized : ∀ signing exchange peer sent id ephemeral, Sized (measuredIdentity signing exchange)
      (measuredSession peer sent (some (measuredPreamble id))) (spelledPair 32 ephemeral) := by
    intro signing exchange peer sent id ephemeral
    refine ⟨rfl, rfl, rfl, rfl, fun preamble heq => ?_, rfl⟩
    obtain rfl := Option.some.inj heq
    exact ⟨List.length_replicate, List.length_replicate⟩
  have hfirst : (encryptMessage measured (measuredIdentity 1 2) (measuredSession 3 0 (some (measuredPreamble (some 7)))) [1]
      (spelledPair 32 5)).2.isOk = true := by decide +kernel
  have hsecond : (encryptMessage measured (measuredIdentity 6 7) (measuredSession 10 8 (some (measuredPreamble none)))
      [1, 2, 3] (spelledPair 32 8)).2.isOk = true := by decide +kernel
  obtain ⟨envelope, henvelope⟩ := Outcome.exists_of_isOk hfirst
  obtain ⟨envelope', henvelope'⟩ := Outcome.exists_of_isOk hsecond
  exact ⟨envelope, envelope', henvelope, henvelope', (envelope_hides_length measured_lengths
    (hsized 1 2 3 0 (some 7) 5) (hsized 6 7 10 8 none 8) (by decide) rfl henvelope henvelope').2.2.1⟩

end Veil
