import Veil.SafetyNumber
import Veil.SessionCodec
import Veil.Sframe
import Veil.Vault

namespace Veil

def readHeader : Decode RatchetHeader := do
  let ratchetPublicKey ← Reader.fixed 32
  let previousChainLength ← Reader.u32
  let messageNumber ← Reader.u32
  return { ratchetPublicKey, previousChainLength, messageNumber }

def decodeHeader (bytes : Bytes) : Except Failure RatchetHeader := readHeader.all bytes

/-- An eight-byte counter, reduced as `setBigUint64` does, then the ciphertext. -/
def packFrame (counter : Int) (payload : Bytes) : Bytes :=
  Writer.bigEndian64 (counter % 2 ^ 64).toNat ++ payload

/-- `getBigUint64` on an eight-byte view. -/
def getBigUint64 (bytes : Bytes) : Int := Reader.bigEndian bytes

def unpackFrame (bytes : Bytes) : Except Failure EncryptedFrame :=
  if bytes.length < 8 then .error (.error "media frame too short")
  else .ok { counter := getBigUint64 (bytes.take 8), payload := bytes.drop 8 }

/-- On any buffer the decoder stays inside it, or throws that the input is malformed. -/
def Safe {α : Type} (m : Decode α) : Prop :=
  ∀ r : Reader, r.offset ≤ r.buffer.length →
    match m r with
    | .ok (_, r') => r'.buffer = r.buffer ∧ r.offset ≤ r'.offset ∧ r'.offset ≤ r'.buffer.length
    | .error e => ∃ message, e = .malformedInput message

namespace Safe

variable {α β : Type}

theorem pure (a : α) : Safe (Pure.pure a) := fun _ h => ⟨rfl, le_rfl, h⟩

theorem malformed (message : String) : Safe (throw (.malformedInput message) : Decode α) := fun _ _ => ⟨message, rfl⟩

theorem bind {m : Decode α} {f : α → Decode β} (h : Safe m) (h' : ∀ a, Safe (f a)) : Safe (m >>= f) := by
  intro r hr
  have hm := h r hr
  show match (m r >>= fun s => f s.1 s.2) with
    | .ok (_, r') => r'.buffer = r.buffer ∧ r.offset ≤ r'.offset ∧ r'.offset ≤ r'.buffer.length
    | .error e => ∃ message, e = .malformedInput message
  cases hread : m r with
  | error e =>
    rw [hread] at hm
    exact hm
  | ok read =>
    obtain ⟨a, r'⟩ := read
    rw [hread] at hm
    obtain ⟨hbuffer, hoffset, hinside⟩ := hm
    have hf := h' a r' hinside
    simp only [Outcome.ok_bind]
    cases hrest : f a r' with
    | error e =>
      rw [hrest] at hf
      exact hf
    | ok rest =>
      rw [hrest] at hf
      obtain ⟨hbuffer', hoffset', hinside'⟩ := hf
      exact ⟨hbuffer'.trans hbuffer, hoffset.trans hoffset', hinside'⟩

theorem take (length : Nat) : Safe (Reader.take length) := by
  intro r hr
  unfold Reader.take
  by_cases h : r.offset + length > r.buffer.length
  · simp only [h, ↓reduceIte]
    exact ⟨_, rfl⟩
  · simp only [h, ↓reduceIte]
    refine ⟨trivial, ?_, ?_⟩
    · show r.offset ≤ r.offset + length
      omega
    · show r.offset + length ≤ r.buffer.length
      omega

theorem u8 : Safe Reader.u8 := (take 1).bind fun _ => pure _

theorem u32 : Safe Reader.u32 := (take 4).bind fun _ => pure _

theorem bytes : Safe Reader.bytes := u32.bind take

theorem done : Safe Reader.done := by
  intro r hr
  unfold Reader.done
  by_cases h : r.offset = r.buffer.length
  · simp only [h, ne_eq, not_true_eq_false, ↓reduceIte]
    exact ⟨trivial, by omega, by omega⟩
  · simp only [h, ne_eq, not_false_eq_true, ↓reduceIte]
    exact ⟨_, rfl⟩

theorem all_error {m : Decode α} (h : Safe m) {buffer : Bytes} {e : Failure} (failed : m.all buffer = .error e) :
    ∃ message, e = .malformedInput message := by
  have hwhole := (h.bind fun a => done.bind fun _ => pure a) ⟨buffer, 0⟩ (Nat.zero_le _)
  unfold Decode.all at failed
  cases hread : (m >>= fun a => do Reader.done; Pure.pure a) ⟨buffer, 0⟩ with
  | error e' =>
    rw [hread] at hwhole failed
    obtain rfl := Except.error.inj failed
    exact hwhole
  | ok read =>
    rw [hread] at failed
    cases failed

end Safe

theorem readHeader_safe : Safe readHeader :=
  (Safe.take 32).bind fun _ => Safe.u32.bind fun _ => Safe.u32.bind fun _ => Safe.pure _

theorem decodeOptionalId_safe : Safe decodeOptionalId := Safe.u8.bind fun _ => Safe.u32.bind fun _ => Safe.pure _

theorem decodePreamble_safe : Safe decodePreamble :=
  Safe.bytes.bind fun _ => Safe.bytes.bind fun _ => Safe.u32.bind fun _ => Safe.u32.bind fun _ =>
    decodeOptionalId_safe.bind fun _ => decodeOptionalId_safe.bind fun _ => Safe.pure _

theorem decodeRatchetMessage_safe : Safe decodeRatchetMessage :=
  Safe.bytes.bind fun _ => Safe.u32.bind fun _ => Safe.u32.bind fun _ => Safe.bytes.bind fun _ => Safe.pure _

theorem decodePreKeyPayload_safe : Safe decodePreKeyPayload :=
  decodePreamble_safe.bind fun _ => Safe.bytes.bind fun _ => Safe.pure _

theorem SealedLayer.read_safe : Safe SealedLayer.read :=
  Safe.bytes.bind fun _ => Safe.bytes.bind fun _ => Safe.bytes.bind fun _ => Safe.bytes.bind fun _ =>
    Safe.u8.bind fun _ => Safe.bytes.bind fun _ => Safe.pure _

theorem readWrappedVault_safe : Safe readWrappedVault := by
  refine (Safe.take _).bind fun magic => ?_
  have hrest : Safe (do
      let salt ← Reader.bytes
      let memoryKiB ← Reader.u32
      let iterations ← Reader.u32
      let parallelism ← Reader.u32
      let wrappedKey ← Reader.bytes
      return { salt, memoryKiB, iterations, parallelism, wrappedKey : WrappedVault }) :=
    Safe.bytes.bind fun _ => Safe.u32.bind fun _ => Safe.u32.bind fun _ => Safe.u32.bind fun _ =>
      Safe.bytes.bind fun _ => Safe.pure _
  by_cases h : constantTimeEqual magic vaultMagic = true
  · simpa [h] using hrest
  · simp only [h, Bool.not_false, ↓reduceIte]
    exact (Safe.malformed _).bind fun _ => hrest

theorem readVerificationQr_safe : Safe readVerificationQr := by
  refine (Safe.take _).bind fun tag => ?_
  have hrest : Safe (do
      let signingPublicKey ← Reader.bytes
      let exchangePublicKey ← Reader.bytes
      let exchangeKeySignature ← Reader.bytes
      return { signingPublicKey, exchangePublicKey, exchangeKeySignature : PublicIdentity }) :=
    Safe.bytes.bind fun _ => Safe.bytes.bind fun _ => Safe.bytes.bind fun _ => Safe.pure _
  by_cases h : constantTimeEqual tag (utf8 "Veil/v1/Verify") = true
  · simpa [h] using hrest
  · simp only [h, Bool.not_false, ↓reduceIte]
    exact (Safe.malformed _).bind fun _ => hrest

structure RatchetHeader.InRange (header : RatchetHeader) : Prop where
  ratchetPublicKey : header.ratchetPublicKey.length = 32
  previousChainLength : header.previousChainLength < 2 ^ 32
  messageNumber : header.messageNumber < 2 ^ 32

structure RatchetMessage.InRange (message : RatchetMessage) : Prop where
  header : message.header.InRange
  ciphertext : message.ciphertext.length < 2 ^ 32

def IdInRange (id : Int) : Prop := 0 ≤ id ∧ id < 2 ^ 32

instance (id : Int) : Decidable (IdInRange id) := inferInstanceAs (Decidable (_ ∧ _))

structure PreKeyPreamble.InRange (preamble : PreKeyPreamble) : Prop where
  ephemeralPublicKey : preamble.ephemeralPublicKey.length < 2 ^ 32
  kemCiphertext : preamble.kemCiphertext.length < 2 ^ 32
  signedPreKeyId : IdInRange preamble.keyIds.signedPreKeyId
  signedKemPreKeyId : IdInRange preamble.keyIds.signedKemPreKeyId
  oneTimePreKeyId : ∀ id ∈ preamble.keyIds.oneTimePreKeyId, IdInRange id
  oneTimeKemPreKeyId : ∀ id ∈ preamble.keyIds.oneTimeKemPreKeyId, IdInRange id

structure PublicIdentity.InRange (identity : PublicIdentity) : Prop where
  signingPublicKey : identity.signingPublicKey.length < 2 ^ 32
  exchangePublicKey : identity.exchangePublicKey.length < 2 ^ 32
  exchangeKeySignature : identity.exchangeKeySignature.length < 2 ^ 32

structure SealedLayer.InRange (inner : SealedLayer) : Prop where
  senderIdentity : inner.senderIdentity.InRange
  proof : inner.proof.length < 2 ^ 32
  payloadKind : inner.payloadKind < 2 ^ 8
  payload : inner.payload.length < 2 ^ 32

/-- Encoding a value in range succeeds, reading what comes out gives the value back and uses up exactly those bytes. -/
def RoundTrips {α : Type} (inRange : α → Prop) (encode : α → Except Failure Bytes) (decode : Decode α) : Prop :=
  ∀ value, inRange value → ∃ bytes, encode value = .ok bytes ∧ Reads decode bytes value

theorem header_round_trips : RoundTrips RatchetHeader.InRange encodeHeader readHeader := by
  intro header h
  have hprevious := h.previousChainLength
  have hnumber := h.messageNumber
  refine ⟨header.ratchetPublicKey ++ (Writer.bigEndian32 header.previousChainLength ++
    Writer.bigEndian32 header.messageNumber), ?_, ?_⟩
  · simp only [encodeHeader, Outcome.bind_eq_ok_iff, Outcome.pure_eq_ok_iff, Writer.u32_eq_ok_iff]
    refine ⟨_, ⟨by omega, by omega, rfl⟩, _, ⟨by omega, by omega, rfl⟩, ?_⟩
    simp only [Writer.finish_push, Writer.finish_fixed, Writer.finish_empty, List.nil_append, List.append_assoc,
      Int.toNat_natCast]
  · have hkey := Reads.fixed header.ratchetPublicKey
    rw [h.ratchetPublicKey] at hkey
    refine hkey.bind ?_
    refine (Reads.u32 hprevious).bind ?_
    exact (Reads.u32 hnumber).map _

theorem ratchetMessage_round_trips : RoundTrips RatchetMessage.InRange encodeRatchetMessage decodeRatchetMessage := by
  intro message h
  have hkey := h.header.ratchetPublicKey
  have hprevious := h.header.previousChainLength
  have hnumber := h.header.messageNumber
  have hciphertext := h.ciphertext
  have hencoded : ∃ bytes, encodeRatchetMessage message = .ok bytes := by
    simp only [encodeRatchetMessage, Outcome.bind_eq_ok_iff, Outcome.pure_eq_ok_iff, Writer.bytes_eq_ok_iff,
      Writer.u32_eq_ok_iff]
    exact ⟨_, _, ⟨by omega, rfl⟩, _, ⟨by omega, by omega, rfl⟩, _, ⟨by omega, by omega, rfl⟩, _, ⟨by omega, rfl⟩, rfl⟩
  obtain ⟨bytes, hbytes⟩ := hencoded
  exact ⟨bytes, hbytes, encodeRatchetMessage_reads hbytes⟩

theorem optionalId_ok (w : Writer) {id : Option Int} (h : ∀ value ∈ id, IdInRange value) :
    ∃ w', w.optionalId id = .ok w' := by
  simp only [Writer.optionalId, Outcome.bind_eq_ok_iff, Writer.u8_eq_ok_iff, Writer.u32_eq_ok_iff]
  cases id with
  | none => exact ⟨_, _, ⟨by simp, by simp, rfl⟩, by simp, by simp, rfl⟩
  | some value =>
    obtain ⟨hlo, hhi⟩ := h value rfl
    have htop : value ≤ 0xffffffff := by omega
    exact ⟨_, _, ⟨by simp, by simp, rfl⟩, hlo, htop, rfl⟩

theorem preamble_round_trips : RoundTrips PreKeyPreamble.InRange encodePreamble decodePreamble := by
  intro preamble h
  obtain ⟨hsigned, hsigned'⟩ := h.signedPreKeyId
  obtain ⟨hkem, hkem'⟩ := h.signedKemPreKeyId
  have hencoded : ∃ bytes, encodePreamble preamble = .ok bytes := by
    simp only [encodePreamble, Writer.keyIds, Outcome.bind_eq_ok_iff, Outcome.pure_eq_ok_iff, Writer.bytes_eq_ok_iff,
      Writer.u32_eq_ok_iff]
    obtain ⟨w, hw⟩ := optionalId_ok _ h.oneTimePreKeyId
    obtain ⟨w', hw'⟩ := optionalId_ok w h.oneTimeKemPreKeyId
    exact ⟨_, _, ⟨h.ephemeralPublicKey, rfl⟩, _, ⟨h.kemCiphertext, rfl⟩, _,
      ⟨_, ⟨hsigned, by omega, rfl⟩, _, ⟨hkem, by omega, rfl⟩, w, hw, hw'⟩, rfl⟩
  obtain ⟨bytes, hbytes⟩ := hencoded
  exact ⟨bytes, hbytes, encodePreamble_reads hbytes⟩

theorem sealedLayer_round_trips : RoundTrips SealedLayer.InRange SealedLayer.encode SealedLayer.read := by
  intro inner h
  have hkind := h.payloadKind
  have hencoded : ∃ bytes, inner.encode = .ok bytes := by
    simp only [SealedLayer.encode, Outcome.bind_eq_ok_iff, Outcome.pure_eq_ok_iff, Writer.bytes_eq_ok_iff,
      Writer.u8_eq_ok_iff]
    exact ⟨_, _, ⟨h.senderIdentity.signingPublicKey, rfl⟩, _, ⟨h.senderIdentity.exchangePublicKey, rfl⟩, _,
      ⟨h.senderIdentity.exchangeKeySignature, rfl⟩, _, ⟨h.proof, rfl⟩, _, ⟨by omega, by omega, rfl⟩, _, ⟨h.payload, rfl⟩,
      rfl⟩
  obtain ⟨bytes, hbytes⟩ := hencoded
  exact ⟨bytes, hbytes, SealedLayer.read_encode hbytes⟩

theorem wrappedVault_round_trips : RoundTrips WrappedVault.InRange encodeWrappedVault readWrappedVault :=
  fun wrapped h => ⟨wrapped.layout, encodeWrappedVault_eq_ok_iff.mpr ⟨h, rfl⟩, readWrappedVault_reads h⟩

theorem verificationQr_round_trips : RoundTrips PublicIdentity.InRange verificationQrPayload readVerificationQr := by
  intro identity h
  refine ⟨utf8 "Veil/v1/Verify" ++ (Reads.prefixed identity.signingPublicKey ++
    (Reads.prefixed identity.exchangePublicKey ++ Reads.prefixed identity.exchangeKeySignature)), ?_, ?_⟩
  · simp only [verificationQrPayload, Outcome.bind_eq_ok_iff, Outcome.pure_eq_ok_iff, Writer.bytes_eq_ok_iff]
    refine ⟨_, ⟨h.signingPublicKey, rfl⟩, _, ⟨h.exchangePublicKey, rfl⟩, _, ⟨h.exchangeKeySignature, rfl⟩, ?_⟩
    simp only [Writer.finish_push, Writer.finish_fixed, Writer.finish_empty, List.nil_append, List.append_assoc]
  · refine (Reads.fixed (utf8 "Veil/v1/Verify")).bind ?_
    simp only [constantTimeEqual_iff.mpr, Bool.not_true, Bool.false_eq_true, ↓reduceIte]
    refine (Reads.bytes h.signingPublicKey).bind ?_
    refine (Reads.bytes h.exchangePublicKey).bind ?_
    exact (Reads.bytes h.exchangeKeySignature).map _

/-- The payload of a session that still owes its preamble: both parts read back, where the message fits with its framing. -/
theorem preKeyPayload_round_trips {K : Type} {session : Session K} {preamble : PreKeyPreamble} {message : RatchetMessage}
    (pending : session.pendingPreKey = some preamble) (hpreamble : preamble.InRange) (hmessage : message.InRange)
    (fits : message.ciphertext.length + 48 < 2 ^ 32) :
    ∃ payload body, encodePayload session message = .ok payload ∧ Reads decodePreKeyPayload payload (preamble, body) ∧
      Reads decodeRatchetMessage body message := by
  obtain ⟨body, hbody, hread⟩ := ratchetMessage_round_trips message hmessage
  obtain ⟨encoded, hencoded, hread'⟩ := preamble_round_trips preamble hpreamble
  have hlength : body.length < 2 ^ 32 := by
    have hkey := hmessage.header.ratchetPublicKey
    have h := hbody
    simp only [encodeRatchetMessage, Outcome.bind_eq_ok_iff, Outcome.pure_eq_ok_iff, Writer.bytes_eq_ok_iff,
      Writer.u32_eq_ok_iff] at h
    obtain ⟨_, ⟨_, rfl⟩, _, ⟨_, _, rfl⟩, _, ⟨_, _, rfl⟩, _, ⟨_, rfl⟩, rfl⟩ := h
    simp only [Writer.finish_push, Writer.finish_empty, List.nil_append, List.length_append, Reads.prefixed,
      Reads.bigEndian32_length]
    omega
  refine ⟨encoded ++ Reads.prefixed body, body, ?_, hread'.bind ((Reads.bytes hlength).map _), hread⟩
  simp only [encodePayload, pending, Outcome.bind_eq_ok_iff, Outcome.pure_eq_ok_iff, Writer.bytes_eq_ok_iff]
  refine ⟨body, hbody, encoded, hencoded, _, ⟨hlength, rfl⟩, ?_⟩
  simp only [Writer.finish_push, Writer.finish_fixed, Writer.finish_empty, List.nil_append]

theorem bigEndian_append (high low : Bytes) :
    Reader.bigEndian (high ++ low) = Reader.bigEndian high * 256 ^ low.length + Reader.bigEndian low := by
  induction low using List.reverseRecOn with
  | nil => simp [Reader.bigEndian]
  | append_singleton low byte ih =>
    have hsplit : Reader.bigEndian (high ++ (low ++ [byte])) = Reader.bigEndian (high ++ low) * 256 + byte.toNat := by
      rw [← List.append_assoc, Reader.bigEndian, List.foldl_append]
      rfl
    have hlow : Reader.bigEndian (low ++ [byte]) = Reader.bigEndian low * 256 + byte.toNat := by
      rw [Reader.bigEndian, List.foldl_append]
      rfl
    rw [hsplit, hlow, ih, List.length_append, List.length_singleton, Nat.pow_succ, Nat.add_mul, Nat.mul_assoc,
      Nat.add_assoc]

theorem unpackFrame_packFrame {counter : Int} (h : 0 ≤ counter) (h' : counter < 2 ^ 64) (payload : Bytes) :
    unpackFrame (packFrame counter payload) = .ok { counter, payload } := by
  have hlength : (Writer.bigEndian64 (counter % 2 ^ 64).toNat).length = 8 := rfl
  have hmod : (counter % 2 ^ 64).toNat = counter.toNat := by rw [Int.emod_eq_of_lt h h']
  have hword : ∀ value : Nat, Reader.bigEndian (Writer.bigEndian32 value) = value % 2 ^ 32 := by
    intro value
    simp only [Reader.bigEndian, Writer.bigEndian32, List.foldl_cons, List.foldl_nil, UInt8.toNat_ofNat']
    omega
  have hcounter : getBigUint64 (Writer.bigEndian64 (counter % 2 ^ 64).toNat) = counter := by
    rw [getBigUint64, hmod, Writer.bigEndian64, bigEndian_append, hword, hword, Reads.bigEndian32_length]
    omega
  have hlong : ¬(packFrame counter payload).length < 8 := by
    rw [packFrame, List.length_append]
    omega
  unfold unpackFrame
  rw [if_neg hlong, packFrame, List.take_left' hlength, List.drop_left' hlength, hcounter]

/-- A format keeps what it is given and its decoder is safe, read inside a larger buffer or over a whole one. -/
def Faithful {α : Type} (inRange : α → Prop) (encode : α → Except Failure Bytes) (decode : Decode α) : Prop :=
  RoundTrips inRange encode decode ∧ Safe decode ∧
    (∀ value, inRange value → ∃ bytes, encode value = .ok bytes ∧ decode.all bytes = .ok value) ∧
    ∀ buffer, (∃ value, decode.all buffer = .ok value) ∨ ∃ message, decode.all buffer = .error (.malformedInput message)

theorem RoundTrips.faithful {α : Type} {inRange : α → Prop} {encode : α → Except Failure Bytes} {decode : Decode α}
    (h : RoundTrips inRange encode decode) (safe : Safe decode) : Faithful inRange encode decode := by
  refine ⟨h, safe, fun value hvalue => ?_, fun buffer => ?_⟩
  · obtain ⟨bytes, hbytes, hread⟩ := h value hvalue
    exact ⟨bytes, hbytes, Decode.all_of_reads hread⟩
  · cases hall : decode.all buffer with
    | ok value => exact Or.inl ⟨value, rfl⟩
    | error e =>
      obtain ⟨message, rfl⟩ := safe.all_error hall
      exact Or.inr ⟨message, rfl⟩

section

variable {K : Type} (crypto : Cryptography K)

/-- The binding of an identity is either valid or not. -/
theorem verifyIdentityBinding_ok (identity : PublicIdentity) : ∃ bound, verifyIdentityBinding crypto identity = .ok bound := by
  unfold verifyIdentityBinding
  by_cases hsigning : identity.signingPublicKey.length = ed25519PublicLen
  · by_cases hexchange : identity.exchangePublicKey.length = x25519PublicLen
    · have hsigning' : identity.signingPublicKey.length = 32 := hsigning
      have hexchange' : identity.exchangePublicKey.length = 32 := hexchange
      have htranscript : ∃ transcript, signingTranscript sigContextExchange identity.signingPublicKey 0
          identity.exchangePublicKey = .ok transcript := by
        simp only [signingTranscript, Outcome.bind_eq_ok_iff, Outcome.pure_eq_ok_iff, Writer.u8_eq_ok_iff,
          Writer.u32_eq_ok_iff, Writer.bytes_eq_ok_iff]
        exact ⟨_, _, ⟨by decide, by decide, rfl⟩, _, ⟨by omega, rfl⟩, _, ⟨by decide, by decide, rfl⟩, _,
          ⟨by omega, rfl⟩, rfl⟩
      obtain ⟨transcript, htranscript⟩ := htranscript
      exact ⟨_, by simp only [hsigning, hexchange, htranscript, ne_eq, not_true_eq_false, ↓reduceIte]; rfl⟩
    · exact ⟨false, by simp [hsigning, hexchange, pure, Except.pure]⟩
  · exact ⟨false, by simp [hsigning, pure, Except.pure]⟩

/-- Reading a verification code gives back an identity whose binding is valid; the errors are the format's own. -/
theorem parseVerificationQrPayload_cases (bytes : Bytes) :
    (∃ identity, parseVerificationQrPayload crypto bytes = .ok identity ∧
      verifyIdentityBinding crypto identity = .ok true) ∨
    (∃ message, parseVerificationQrPayload crypto bytes = .error (.malformedInput message)) ∨
    parseVerificationQrPayload crypto bytes =
      .error (.untrustedBundle "scanned identity failed its key-binding check") := by
  unfold parseVerificationQrPayload
  cases hread : readVerificationQr.all bytes with
  | error e =>
    obtain ⟨message, rfl⟩ := readVerificationQr_safe.all_error hread
    exact Or.inr (Or.inl ⟨message, rfl⟩)
  | ok identity =>
    obtain ⟨bound, hbound⟩ := verifyIdentityBinding_ok crypto identity
    simp only [Outcome.ok_bind, hbound]
    cases bound with
    | true => exact Or.inl ⟨identity, rfl, hbound⟩
    | false => exact Or.inr (Or.inr rfl)

theorem parseVerificationQrPayload_encoded {identity : PublicIdentity} (h : identity.InRange)
    (bound : verifyIdentityBinding crypto identity = .ok true) : ∃ bytes, verificationQrPayload identity = .ok bytes ∧
      parseVerificationQrPayload crypto bytes = .ok identity := by
  obtain ⟨bytes, hbytes, hread⟩ := verificationQr_round_trips identity h
  refine ⟨bytes, hbytes, ?_⟩
  unfold parseVerificationQrPayload
  simp only [Decode.all_of_reads hread, Outcome.ok_bind, bound]
  rfl

/-- Every format keeps the values in its range, and no bytes make its decoder leave them or throw anything but its own errors.
The parts are the ratchet header, the preamble, the ratchet message, the payload of both, the sealed layer, the wrapped vault,
the verification code and the media frame. -/
theorem formats_faithful :
    Faithful RatchetHeader.InRange encodeHeader readHeader ∧
    Faithful PreKeyPreamble.InRange encodePreamble decodePreamble ∧
    Faithful RatchetMessage.InRange encodeRatchetMessage decodeRatchetMessage ∧
    (Safe decodePreKeyPayload ∧ ∀ (session : Session K) (preamble : PreKeyPreamble) (message : RatchetMessage),
      session.pendingPreKey = some preamble → preamble.InRange → message.InRange → message.ciphertext.length + 48 < 2 ^ 32 →
        ∃ payload body, encodePayload session message = .ok payload ∧
          Reads decodePreKeyPayload payload (preamble, body) ∧ Reads decodeRatchetMessage body message) ∧
    Faithful SealedLayer.InRange SealedLayer.encode SealedLayer.read ∧
    Faithful WrappedVault.InRange encodeWrappedVault readWrappedVault ∧
    (Faithful PublicIdentity.InRange verificationQrPayload readVerificationQr ∧
      (∀ identity : PublicIdentity, identity.InRange → verifyIdentityBinding crypto identity = .ok true →
        ∃ bytes, verificationQrPayload identity = .ok bytes ∧ parseVerificationQrPayload crypto bytes = .ok identity) ∧
      ∀ bytes, (∃ identity, parseVerificationQrPayload crypto bytes = .ok identity ∧
          verifyIdentityBinding crypto identity = .ok true) ∨
        (∃ message, parseVerificationQrPayload crypto bytes = .error (.malformedInput message)) ∨
        parseVerificationQrPayload crypto bytes =
          .error (.untrustedBundle "scanned identity failed its key-binding check")) ∧
    (∀ (counter : Int) (payload : Bytes), 0 ≤ counter → counter < 2 ^ 64 →
      unpackFrame (packFrame counter payload) = .ok { counter, payload }) ∧
    ∀ bytes, (∃ counter, unpackFrame bytes = .ok { counter, payload := bytes.drop 8 }) ∨
      unpackFrame bytes = .error (.error "media frame too short") := by
  refine ⟨header_round_trips.faithful readHeader_safe, preamble_round_trips.faithful decodePreamble_safe,
    ratchetMessage_round_trips.faithful decodeRatchetMessage_safe, ⟨decodePreKeyPayload_safe, ?_⟩,
    sealedLayer_round_trips.faithful SealedLayer.read_safe, wrappedVault_round_trips.faithful readWrappedVault_safe,
    ⟨verificationQr_round_trips.faithful readVerificationQr_safe, ?_, parseVerificationQrPayload_cases crypto⟩, ?_, ?_⟩
  · intro session preamble message pending hpreamble hmessage fits
    exact preKeyPayload_round_trips pending hpreamble hmessage fits
  · exact fun identity h bound => parseVerificationQrPayload_encoded crypto h bound
  · exact fun counter payload h h' => unpackFrame_packFrame h h' payload
  · intro bytes
    by_cases h : bytes.length < 8
    · exact Or.inr (if_pos h)
    · exact Or.inl ⟨_, if_neg h⟩

end

end Veil
