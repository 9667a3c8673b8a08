import Veil.SessionCodec
import Veil.Routing
import Veil.Spelled

namespace Veil

/-- What `m` reads, anywhere in a buffer, is a chunk of the relation. -/
def Takes {α : Type} (m : Decode α) (R : α → Bytes → Prop) : Prop :=
  ∀ r a r', m r = .ok (a, r') → ∃ chunk, R a chunk ∧ r.remaining = chunk ++ r'.remaining

namespace Takes

variable {α β : Type} {R R' : α → Bytes → Prop} {S : α → β → Bytes → Prop}

theorem pure (a : α) : Takes (Pure.pure a) (fun b chunk => b = a ∧ chunk = []) := by
  intro r b r' h
  obtain ⟨rfl, rfl⟩ : a = b ∧ r = r' := by simpa [Pure.pure, StateT.pure, Except.pure] using h
  exact ⟨[], ⟨rfl, rfl⟩, rfl⟩

theorem bind {m : Decode α} {f : α → Decode β} (h : Takes m R) (h' : ∀ a, Takes (f a) (S a)) :
    Takes (m >>= f) (fun b chunk => ∃ a first second, R a first ∧ S a b second ∧ chunk = first ++ second) := by
  intro r b r' hrun
  obtain ⟨⟨a, middle⟩, hm, hf⟩ := Outcome.bind_eq_ok_iff.mp (show (m r >>= fun s => f s.1 s.2) = .ok (b, r') from hrun)
  obtain ⟨first, hfirst, hremaining⟩ := h r a middle hm
  obtain ⟨second, hsecond, hremaining'⟩ := h' a middle b r' hf
  refine ⟨first ++ second, ⟨a, first, second, hfirst, hsecond, rfl⟩, ?_⟩
  rw [hremaining, hremaining', List.append_assoc]

theorem imp {m : Decode α} (h : Takes m R) (himp : ∀ a chunk, R a chunk → R' a chunk) : Takes m R' := by
  intro r a r' hrun
  obtain ⟨chunk, hchunk, hremaining⟩ := h r a r' hrun
  exact ⟨chunk, himp a chunk hchunk, hremaining⟩

theorem take (length : Nat) : Takes (Reader.take length) (fun value chunk => chunk.length = length ∧ value = chunk) := by
  intro r value r' h
  unfold Reader.take at h
  split at h
  next => cases h
  next hlength =>
    simp only [Except.ok.injEq, Prod.mk.injEq] at h
    obtain ⟨rfl, rfl⟩ := h
    refine ⟨(r.buffer.drop r.offset).take length, ⟨?_, rfl⟩, ?_⟩
    · rw [List.length_take, List.length_drop]
      omega
    · show r.buffer.drop r.offset = (r.buffer.drop r.offset).take length ++ r.buffer.drop (r.offset + length)
      rw [← List.drop_drop, List.take_append_drop]

theorem u8 : Takes Reader.u8 (fun n chunk => n < 256 ∧ chunk = [UInt8.ofNat n]) := by
  refine ((take 1).bind fun _ => pure _).imp ?_
  rintro n _ ⟨value, first, second, ⟨hlength, rfl⟩, ⟨rfl, rfl⟩, rfl⟩
  obtain ⟨byte, rfl⟩ := List.length_eq_one_iff.mp hlength
  exact ⟨byte.toNat_lt, by simp⟩

theorem bigEndian32_bigEndian {chunk : Bytes} (h : chunk.length = 4) :
    Reader.bigEndian chunk < 2 ^ 32 ∧ Writer.bigEndian32 (Reader.bigEndian chunk) = chunk := by
  obtain ⟨a, b, c, d, rfl⟩ := List.length_eq_four.mp h
  have ha := a.toNat_lt
  have hb := b.toNat_lt
  have hc := c.toNat_lt
  have hd := d.toNat_lt
  simp only [Reader.bigEndian, List.foldl_cons, List.foldl_nil, Nat.zero_mul, Nat.zero_add]
  refine ⟨by omega, ?_⟩
  have hbyte : ∀ (n : Nat) (byte : UInt8), n % 256 = byte.toNat → UInt8.ofNat n = byte := by
    intro n byte hn
    apply UInt8.toNat_inj.mp
    rw [UInt8.toNat_ofNat']
    exact hn
  simp only [Writer.bigEndian32, List.cons.injEq, and_true]
  refine ⟨hbyte _ _ ?_, hbyte _ _ ?_, hbyte _ _ ?_, hbyte _ _ ?_⟩ <;> omega

theorem u32 : Takes Reader.u32 (fun n chunk => n < 2 ^ 32 ∧ chunk = Writer.bigEndian32 n) := by
  refine ((take 4).bind fun _ => pure _).imp ?_
  rintro n _ ⟨value, first, second, ⟨hlength, rfl⟩, ⟨rfl, rfl⟩, rfl⟩
  obtain ⟨hlt, hchunk⟩ := bigEndian32_bigEndian hlength
  exact ⟨hlt, by rw [hchunk, List.append_nil]⟩

theorem bytes : Takes Reader.bytes (fun value chunk => value.length < 2 ^ 32 ∧ chunk = Reads.prefixed value) := by
  refine (u32.bind take).imp ?_
  rintro value _ ⟨length, first, second, ⟨hlt, rfl⟩, ⟨rfl, rfl⟩, rfl⟩
  exact ⟨hlt, rfl⟩

/-- A whole buffer is one chunk. -/
theorem all {m : Decode α} (h : Takes m R) {buffer : Bytes} {a : α} (hall : m.all buffer = .ok a) : R a buffer := by
  obtain ⟨⟨b, r⟩, hrun, hout⟩ := Outcome.bind_eq_ok_iff.mp hall
  obtain rfl := Outcome.pure_eq_ok_iff.mp hout
  obtain ⟨⟨c, middle⟩, hm, hdone⟩ := Outcome.bind_eq_ok_iff.mp
    (show (m ⟨buffer, 0⟩ >>= fun s => (do Reader.done; Pure.pure s.1 : Decode α) s.2) = .ok (b, r) from hrun)
  obtain ⟨⟨_, last⟩, hend, hsame⟩ := Outcome.bind_eq_ok_iff.mp
    (show (Reader.done middle >>= fun s => (Pure.pure c : Decode α) s.2) = .ok (b, r) from hdone)
  obtain ⟨rfl, rfl⟩ : c = b ∧ last = r := by simpa [Pure.pure, StateT.pure, Except.pure] using hsame
  obtain ⟨chunk, hchunk, hremaining⟩ := h _ _ _ hm
  have hover : middle.remaining = [] := by
    unfold Reader.done at hend
    split at hend
    next => cases hend
    next hoffset =>
      unfold Reader.remaining
      rw [not_not.mp hoffset, List.drop_length]
  rw [hover, List.append_nil] at hremaining
  have hbuffer : buffer = chunk := hremaining
  rw [hbuffer]
  exact hchunk

end Takes

/-- The fields of a prekey payload as they stand in it: each presence byte, and the id after it. -/
structure RawPreKeyPayload where
  ephemeralPublicKey : Bytes
  kemCiphertext : Bytes
  signedPreKeyId : Nat
  signedKemPreKeyId : Nat
  hasOneTime : Nat
  oneTimePreKeyId : Nat
  hasKemOneTime : Nat
  oneTimeKemPreKeyId : Nat
  body : Bytes
  deriving DecidableEq

namespace RawPreKeyPayload

def read : Decode RawPreKeyPayload := do
  let ephemeralPublicKey ← Reader.bytes
  let kemCiphertext ← Reader.bytes
  let signedPreKeyId ← Reader.u32
  let signedKemPreKeyId ← Reader.u32
  let hasOneTime ← Reader.u8
  let oneTimePreKeyId ← Reader.u32
  let hasKemOneTime ← Reader.u8
  let oneTimeKemPreKeyId ← Reader.u32
  let body ← Reader.bytes
  return { ephemeralPublicKey, kemCiphertext, signedPreKeyId, signedKemPreKeyId, hasOneTime, oneTimePreKeyId, hasKemOneTime,
           oneTimeKemPreKeyId, body }

structure InRange (raw : RawPreKeyPayload) : Prop where
  ephemeralPublicKey : raw.ephemeralPublicKey.length < 2 ^ 32
  kemCiphertext : raw.kemCiphertext.length < 2 ^ 32
  signedPreKeyId : raw.signedPreKeyId < 2 ^ 32
  signedKemPreKeyId : raw.signedKemPreKeyId < 2 ^ 32
  hasOneTime : raw.hasOneTime < 256
  oneTimePreKeyId : raw.oneTimePreKeyId < 2 ^ 32
  hasKemOneTime : raw.hasKemOneTime < 256
  oneTimeKemPreKeyId : raw.oneTimeKemPreKeyId < 2 ^ 32
  body : raw.body.length < 2 ^ 32

def bytes (raw : RawPreKeyPayload) : Bytes :=
  Reads.prefixed raw.ephemeralPublicKey ++ (Reads.prefixed raw.kemCiphertext ++ (Writer.bigEndian32 raw.signedPreKeyId ++
    (Writer.bigEndian32 raw.signedKemPreKeyId ++ ([UInt8.ofNat raw.hasOneTime] ++ (Writer.bigEndian32 raw.oneTimePreKeyId ++
      ([UInt8.ofNat raw.hasKemOneTime] ++ (Writer.bigEndian32 raw.oneTimeKemPreKeyId ++ Reads.prefixed raw.body)))))))

def keyIds (raw : RawPreKeyPayload) : HandshakeKeyIds where
  signedPreKeyId := raw.signedPreKeyId
  signedKemPreKeyId := raw.signedKemPreKeyId
  oneTimePreKeyId := if raw.hasOneTime = 1 then some (raw.oneTimePreKeyId : Int) else none
  oneTimeKemPreKeyId := if raw.hasKemOneTime = 1 then some (raw.oneTimeKemPreKeyId : Int) else none

def preamble (raw : RawPreKeyPayload) : PreKeyPreamble := ⟨raw.ephemeralPublicKey, raw.kemCiphertext, raw.keyIds⟩

theorem reads {raw : RawPreKeyPayload} (h : raw.InRange) : Reads read raw.bytes raw := by
  refine (Reads.bytes h.ephemeralPublicKey).bind ?_
  refine (Reads.bytes h.kemCiphertext).bind ?_
  refine (Reads.u32 h.signedPreKeyId).bind ?_
  refine (Reads.u32 h.signedKemPreKeyId).bind ?_
  refine (Reads.u8 h.hasOneTime).bind ?_
  refine (Reads.u32 h.oneTimePreKeyId).bind ?_
  refine (Reads.u8 h.hasKemOneTime).bind ?_
  refine (Reads.u32 h.oneTimeKemPreKeyId).bind ?_
  exact (Reads.bytes h.body).map _

theorem takes : Takes read (fun raw chunk => raw.InRange ∧ chunk = raw.bytes) := by
  refine (Takes.bytes.bind fun _ => Takes.bytes.bind fun _ => Takes.u32.bind fun _ => Takes.u32.bind fun _ =>
    Takes.u8.bind fun _ => Takes.u32.bind fun _ => Takes.u8.bind fun _ => Takes.u32.bind fun _ =>
      Takes.bytes.bind fun _ => Takes.pure _).imp ?_
  rintro raw _ ⟨_, _, _, ⟨h₁, rfl⟩, ⟨_, _, _, ⟨h₂, rfl⟩, ⟨_, _, _, ⟨h₃, rfl⟩, ⟨_, _, _, ⟨h₄, rfl⟩, ⟨_, _, _, ⟨h₅, rfl⟩,
    ⟨_, _, _, ⟨h₆, rfl⟩, ⟨_, _, _, ⟨h₇, rfl⟩, ⟨_, _, _, ⟨h₈, rfl⟩, ⟨_, _, _, ⟨h₉, rfl⟩, ⟨rfl, rfl⟩, rfl⟩, rfl⟩, rfl⟩, rfl⟩,
    rfl⟩, rfl⟩, rfl⟩, rfl⟩, rfl⟩
  refine ⟨⟨h₁, h₂, h₃, h₄, h₅, h₆, h₇, h₈, h₉⟩, ?_⟩
  simp only [bytes, List.append_nil]

theorem bytes_inj {raw other : RawPreKeyPayload} (h : raw.InRange) (h' : other.InRange) (heq : raw.bytes = other.bytes) :
    raw = other := by
  have hother := reads h'
  rw [← heq] at hother
  exact (reads h).unique hother

end RawPreKeyPayload

/-- The payload is read as it stands, and then the ids that are not present are left out. -/
theorem decodePreKeyPayload_eq_raw : decodePreKeyPayload = do
    let raw ← RawPreKeyPayload.read
    return (raw.preamble, raw.body) := by
  simp only [decodePreKeyPayload, decodePreamble, decodeOptionalId, RawPreKeyPayload.read, bind_assoc, pure_bind]
  rfl

theorem decodeRatchetMessage_takes :
    Takes decodeRatchetMessage (fun message chunk => encodeRatchetMessage message = .ok chunk) := by
  refine (Takes.bytes.bind fun _ => Takes.u32.bind fun _ => Takes.u32.bind fun _ => Takes.bytes.bind fun _ => Takes.pure _).imp ?_
  rintro message _ ⟨key, _, _, ⟨h₁, rfl⟩, ⟨previous, _, _, ⟨h₂, rfl⟩, ⟨number, _, _, ⟨h₃, rfl⟩, ⟨ciphertext, _, _, ⟨h₄, rfl⟩,
    ⟨rfl, rfl⟩, rfl⟩, rfl⟩, rfl⟩, rfl⟩
  simp only [encodeRatchetMessage, Outcome.bind_eq_ok_iff, Outcome.pure_eq_ok_iff, Writer.bytes_eq_ok_iff, Writer.u32_eq_ok_iff]
  refine ⟨_, ⟨h₁, rfl⟩, _, ⟨by omega, by omega, rfl⟩, _, ⟨by omega, by omega, rfl⟩, _, ⟨h₄, rfl⟩, ?_⟩
  simp [Writer.finish_push, Writer.finish_empty]

/-- The body of a prekey payload begins with the encoding of its message. -/
theorem decodeBody_eq_ok {body : Bytes} {message : RatchetMessage} (h : decodeBody body = .ok message) :
    ∃ chunk rest, encodeRatchetMessage message = .ok chunk ∧ body = chunk ++ rest := by
  obtain ⟨⟨message', r⟩, hrun, hout⟩ := Outcome.bind_eq_ok_iff.mp h
  obtain rfl := Outcome.pure_eq_ok_iff.mp hout
  obtain ⟨chunk, hchunk, hremaining⟩ := decodeRatchetMessage_takes _ _ _ hrun
  exact ⟨chunk, r.remaining, hchunk, hremaining⟩

theorem decodeBody_all_iff {message : RatchetMessage} {chunk rest : Bytes} (h : encodeRatchetMessage message = .ok chunk) :
    (∃ message', decodeRatchetMessage.all (chunk ++ rest) = .ok message') ↔ rest = [] := by
  constructor
  · rintro ⟨message', hall⟩
    have hwhole := decodeRatchetMessage_takes.all hall
    have hread := (encodeRatchetMessage_reads h).append_inj (encodeRatchetMessage_reads hwhole)
      (show chunk ++ rest = (chunk ++ rest) ++ [] by rw [List.append_nil])
    exact hread.2
  · rintro rfl
    rw [List.append_nil]
    exact ⟨message, Decode.all_of_reads (encodeRatchetMessage_reads h)⟩

/-- An optional id as the encoder writes it: a presence byte of one, or a zero and the id zero. -/
def Plain (has id : Nat) : Prop := has = 1 ∨ (has = 0 ∧ id = 0)

/-- A payload with plain presence bytes, and nothing in its body after the message; a ratchet payload is one as it is. -/
def Canonical (payloadKind : Nat) (payload : Bytes) : Prop :=
  payloadKind = payloadPreKey → ∃ raw, RawPreKeyPayload.read.all payload = .ok raw ∧
    Plain raw.hasOneTime raw.oneTimePreKeyId ∧ Plain raw.hasKemOneTime raw.oneTimeKemPreKeyId ∧
    ∃ message, decodeRatchetMessage.all raw.body = .ok message

/-- What `decryptEnvelope` reads from a payload. -/
def parsePayload (opened : OpenedEnvelope) : Except Failure (Option PreKeyPreamble × RatchetMessage) :=
  if opened.payloadKind = payloadPreKey then do
    let (preamble, body) ← decodePreKeyPayload.all opened.payload
    return (some preamble, ← decodeBody body)
  else do return (none, ← decodeRatchetMessage.all opened.payload)

namespace RawPreKeyPayload

/-- The payload that the encoder makes of what was read. -/
def tidied (raw : RawPreKeyPayload) (chunk : Bytes) : RawPreKeyPayload :=
  { raw with
    hasOneTime := if raw.hasOneTime = 1 then 1 else 0
    oneTimePreKeyId := if raw.hasOneTime = 1 then raw.oneTimePreKeyId else 0
    hasKemOneTime := if raw.hasKemOneTime = 1 then 1 else 0
    oneTimeKemPreKeyId := if raw.hasKemOneTime = 1 then raw.oneTimeKemPreKeyId else 0
    body := chunk }

theorem tidied_inRange {raw : RawPreKeyPayload} {chunk : Bytes} (h : raw.InRange) (hchunk : chunk.length < 2 ^ 32) :
    (raw.tidied chunk).InRange := by
  have h₁ := h.oneTimePreKeyId
  have h₂ := h.oneTimeKemPreKeyId
  refine ⟨h.ephemeralPublicKey, h.kemCiphertext, h.signedPreKeyId, h.signedKemPreKeyId, ?_, ?_, ?_, ?_, hchunk⟩
  all_goals
    simp only [tidied]
    split <;> omega

theorem tidied_eq_iff {raw : RawPreKeyPayload} {chunk : Bytes} : raw.tidied chunk = raw ↔
    Plain raw.hasOneTime raw.oneTimePreKeyId ∧ Plain raw.hasKemOneTime raw.oneTimeKemPreKeyId ∧ raw.body = chunk := by
  obtain ⟨ephemeral, ciphertext, signed, signedKem, has, id, hasKem, idKem, body⟩ := raw
  simp only [tidied, mk.injEq, true_and, Plain]
  constructor
  · rintro ⟨h₁, h₂, h₃, h₄, rfl⟩
    refine ⟨?_, ?_, rfl⟩
    · by_cases hhas : has = 1
      · exact Or.inl hhas
      · rw [if_neg hhas] at h₁ h₂
        exact Or.inr ⟨h₁.symm, h₂.symm⟩
    · by_cases hhas : hasKem = 1
      · exact Or.inl hhas
      · rw [if_neg hhas] at h₃ h₄
        exact Or.inr ⟨h₃.symm, h₄.symm⟩
  · rintro ⟨hone, hkem, rfl⟩
    rcases hone with rfl | ⟨rfl, rfl⟩ <;> rcases hkem with rfl | ⟨rfl, rfl⟩ <;> simp

end RawPreKeyPayload

theorem Writer.optionalId_presence (w : Writer) {has id : Nat} (hid : id < 2 ^ 32) :
    w.optionalId (if has = 1 then some (id : Int) else none) =
      .ok ((w.push [UInt8.ofNat (if has = 1 then 1 else 0)]).push (Writer.bigEndian32 (if has = 1 then id else 0))) := by
  by_cases hhas : has = 1
  · have hu8 : w.u8 1 = .ok (w.push [UInt8.ofNat 1]) := Writer.u8_eq_ok_iff.mpr ⟨by omega, by omega, rfl⟩
    have hu32 : (w.push [UInt8.ofNat 1]).u32 id = .ok ((w.push [UInt8.ofNat 1]).push (Writer.bigEndian32 id)) :=
      Writer.u32_eq_ok_iff.mpr ⟨by omega, by omega, by rw [Int.toNat_natCast]⟩
    simp only [if_pos hhas, Writer.optionalId, Option.isNone_some, Option.getD_some, Bool.false_eq_true, if_false, hu8,
      Outcome.ok_bind, hu32]
  · have hu8 : w.u8 0 = .ok (w.push [UInt8.ofNat 0]) := Writer.u8_eq_ok_iff.mpr ⟨by omega, by omega, rfl⟩
    have hu32 : (w.push [UInt8.ofNat 0]).u32 0 = .ok ((w.push [UInt8.ofNat 0]).push (Writer.bigEndian32 0)) :=
      Writer.u32_eq_ok_iff.mpr ⟨by omega, by omega, rfl⟩
    simp only [if_neg hhas, Writer.optionalId, Option.isNone_none, Option.getD_none, if_true, hu8, Outcome.ok_bind, hu32]

section

variable {K : Type} {session : Session K} {message : RatchetMessage}

/-- Encoding again what was read of a prekey payload. -/
theorem encodePayload_tidied {raw : RawPreKeyPayload} {chunk : Bytes} (h : raw.InRange) (hchunk : chunk.length < 2 ^ 32)
    (hmessage : encodeRatchetMessage message = .ok chunk) :
    encodePayload { session with pendingPreKey := some raw.preamble } message = .ok (raw.tidied chunk).bytes := by
  have hu32 : ∀ (w : Writer) {n : Nat}, n < 2 ^ 32 → w.u32 n = .ok (w.push (Writer.bigEndian32 n)) := fun w n hn =>
    Writer.u32_eq_ok_iff.mpr ⟨by omega, by omega, by rw [Int.toNat_natCast]⟩
  have hbytes : ∀ (w : Writer) {value : Bytes}, value.length < 2 ^ 32 → w.bytes value = .ok (w.push (Reads.prefixed value)) :=
    fun w value hvalue => Writer.bytes_eq_ok_iff.mpr ⟨hvalue, rfl⟩
  simp only [encodePayload, hmessage, Outcome.ok_bind, encodePreamble, RawPreKeyPayload.preamble, RawPreKeyPayload.keyIds,
    Writer.keyIds, hbytes _ h.ephemeralPublicKey, hbytes _ h.kemCiphertext, hu32 _ h.signedPreKeyId, hu32 _ h.signedKemPreKeyId,
    Writer.optionalId_presence _ h.oneTimePreKeyId, Writer.optionalId_presence _ h.oneTimeKemPreKeyId, hbytes _ hchunk, pure, Except.pure]
  simp only [RawPreKeyPayload.bytes, RawPreKeyPayload.tidied, Writer.finish_push, Writer.finish_fixed, Writer.finish_empty,
    List.nil_append, List.append_assoc]

/-- What a parsed payload encodes to is the payload exactly when it was canonical. -/
theorem encodePayload_parsed_iff {opened : OpenedEnvelope} {preamble : Option PreKeyPreamble}
    (h : parsePayload opened = .ok (preamble, message)) :
    encodePayload { session with pendingPreKey := preamble } message = .ok opened.payload ↔
      Canonical opened.payloadKind opened.payload := by
  unfold parsePayload at h
  split at h
  next hkind =>
    obtain ⟨⟨preamble', body⟩, hread, h⟩ := Outcome.bind_eq_ok_iff.mp h
    obtain ⟨message', hbody, hout⟩ := Outcome.bind_eq_ok_iff.mp h
    obtain ⟨rfl, rfl⟩ := Prod.mk.inj (Outcome.pure_eq_ok_iff.mp hout)
    rw [decodePreKeyPayload_eq_raw] at hread
    have htakes := (RawPreKeyPayload.takes.bind fun _ => Takes.pure _).all hread
    obtain ⟨raw, first, second, ⟨hrange, rfl⟩, ⟨hraw, rfl⟩, hpayload⟩ := htakes
    rw [List.append_nil] at hpayload
    obtain ⟨rfl, rfl⟩ := Prod.mk.inj hraw
    obtain ⟨chunk, rest, hchunk, hsplit⟩ := decodeBody_eq_ok hbody
    have hlength : chunk.length < 2 ^ 32 := by
      have hrangeBody := hrange.body
      rw [hsplit, List.length_append] at hrangeBody
      omega
    have hall : RawPreKeyPayload.read.all opened.payload = .ok raw := by
      rw [hpayload]
      exact Decode.all_of_reads (RawPreKeyPayload.reads hrange)
    rw [encodePayload_tidied hrange hlength hchunk, Except.ok.injEq, hpayload]
    constructor
    · intro heq _
      have htidied := RawPreKeyPayload.bytes_inj (RawPreKeyPayload.tidied_inRange hrange hlength) hrange heq
      obtain ⟨hone, hkem, hsame⟩ := RawPreKeyPayload.tidied_eq_iff.mp htidied
      refine ⟨raw, Decode.all_of_reads (RawPreKeyPayload.reads hrange), hone, hkem, ?_⟩
      rw [hsame]
      exact ⟨message', Decode.all_of_reads (encodeRatchetMessage_reads hchunk)⟩
    · intro hcanonical
      obtain ⟨raw', hall', hone, hkem, hmessage⟩ := hcanonical hkind
      rw [← hpayload, hall] at hall'
      obtain rfl := Except.ok.inj hall'
      rw [hsplit] at hmessage
      have hrest := (decodeBody_all_iff hchunk).mp hmessage
      rw [hrest, List.append_nil] at hsplit
      exact congrArg RawPreKeyPayload.bytes (RawPreKeyPayload.tidied_eq_iff.mpr ⟨hone, hkem, hsplit⟩)
  next hkind =>
    obtain ⟨message', hread, hout⟩ := Outcome.bind_eq_ok_iff.mp h
    obtain ⟨rfl, rfl⟩ := Prod.mk.inj (Outcome.pure_eq_ok_iff.mp hout)
    have hencode := decodeRatchetMessage_takes.all hread
    have hcanonical : Canonical opened.payloadKind opened.payload := fun hpreKey => absurd hpreKey hkind
    simp only [hcanonical, iff_true, encodePayload, hencode, Outcome.ok_bind]
    rfl

variable {crypto : Cryptography K} {fresh : KeyPair K} {self : PrivateIdentity K} {envelope : SealedEnvelope}
  {lookupSession : String → Option (Session K)} {preKeys : InMemoryPreKeyStore K} {pinnedIdentityKey : String → Option Bytes}

/-- An accepted envelope was opened, and its payload parsed. -/
theorem decryptEnvelope_parses {decrypted : DecryptedMessage K}
    (h : (decryptEnvelope crypto fresh self envelope lookupSession preKeys pinnedIdentityKey).result = .ok decrypted) :
    ∃ opened address parsed, openInbound crypto self envelope pinnedIdentityKey = .ok (opened, address) ∧
      parsePayload opened = .ok parsed := by
  unfold decryptEnvelope at h
  split at h
  next => cases h
  next opened address hopen =>
    refine ⟨opened, address, ?_⟩
    split at h
    next hkind =>
      split at h
      next => cases h
      next preamble body hread =>
        have hbody : ∃ message, decodeBody body = .ok message := by
          split at h
          next existing hrepeats =>
            split at h
            next => cases h
            next message hbody => exact ⟨message, hbody⟩
          next =>
            unfold decryptFirst at h
            split at h
            next => cases h
            next session message hrespond =>
              exact ⟨message, (respondWith_eq_ok hrespond).1⟩
        obtain ⟨message, hbody⟩ := hbody
        refine ⟨(some preamble, message), hopen, ?_⟩
        simp only [parsePayload, if_pos hkind, hread, Outcome.ok_bind, hbody]
        rfl
    next hkind =>
      split at h
      next => cases h
      next =>
        split at h
        next => cases h
        next session hlookup =>
          split at h
          next => cases h
          next message hread =>
            refine ⟨(none, message), hopen, ?_⟩
            simp only [parsePayload, if_neg hkind, hread, Outcome.ok_bind]
            rfl

/-- An accepted payload is what its parts encode to if and only if it is canonical, and a canonical one is the only one with them. -/
theorem payload_canonical_iff {decrypted : DecryptedMessage K}
    (h : (decryptEnvelope crypto fresh self envelope lookupSession preKeys pinnedIdentityKey).result = .ok decrypted) :
    ∃ opened address preamble message, openInbound crypto self envelope pinnedIdentityKey = .ok (opened, address) ∧
      parsePayload opened = .ok (preamble, message) ∧
      (encodePayload { decrypted.session with pendingPreKey := preamble } message = .ok opened.payload ↔
        Canonical opened.payloadKind opened.payload) ∧
      ∀ other, parsePayload other = .ok (preamble, message) → Canonical opened.payloadKind opened.payload →
        Canonical other.payloadKind other.payload → other.payload = opened.payload := by
  obtain ⟨opened, address, ⟨preamble, message⟩, hopen, hparse⟩ := decryptEnvelope_parses h
  refine ⟨opened, address, preamble, message, hopen, hparse, encodePayload_parsed_iff hparse, ?_⟩
  intro other hother hcanonical hcanonical'
  have hencode : encodePayload { decrypted.session with pendingPreKey := preamble } message = .ok opened.payload :=
    (encodePayload_parsed_iff hparse).mpr hcanonical
  have hencode' : encodePayload { decrypted.session with pendingPreKey := preamble } message = .ok other.payload :=
    (encodePayload_parsed_iff hother).mpr hcanonical'
  exact Except.ok.inj (hencode'.symm.trans hencode)

end

/-- Alice's first message to the bundle of a store without one-time prekeys, with its payload changed before she seals it. -/
def forged (change : RawPreKeyPayload → RawPreKeyPayload) : Except Failure SealedEnvelope := do
  let session ← startSession spelled alice ((spelledStore bob 13 14 [] []).issueBundle (publicIdentityOf bob)).1 none
    (spelledPair 32 21) [7] (spelledPair 32 22)
  let message ← (ratchetEncrypt spelled.toRatchetPrimitives session.ratchet (pad [1])).2
  let raw ← RawPreKeyPayload.read.all (← encodePayload session message)
  sealEnvelope spelled (publicIdentityOf alice) (spelled.sign alice.signing.secretKey) session.peerIdentity payloadPreKey
    (change raw).bytes (spelledPair 32 23)

def readForged (envelope : SealedEnvelope) : Except Failure (DecryptedMessage Bytes) :=
  (decryptEnvelope spelled (spelledPair 32 31) bob envelope (fun _ => none) (spelledStore bob 13 14 [] []) (fun _ => none)).result

theorem payload_canonical_iff_hello : ∃ envelope decrypted opened address preamble message, forged id = .ok envelope ∧
    readForged envelope = .ok decrypted ∧ openInbound spelled bob envelope (fun _ => none) = .ok (opened, address) ∧
    (encodePayload { decrypted.session with pendingPreKey := preamble } message = .ok opened.payload ↔
      Canonical opened.payloadKind opened.payload) := by
  have hreads : ((forged id).bind readForged).isOk = true := by decide +kernel
  obtain ⟨decrypted, hdecrypted⟩ := Outcome.exists_of_isOk hreads
  obtain ⟨envelope, hforged, hread⟩ := Outcome.bind_eq_ok_iff.mp hdecrypted
  obtain ⟨opened, address, preamble, message, hopen, _, hiff, _⟩ := payload_canonical_iff hread
  exact ⟨envelope, decrypted, opened, address, preamble, message, hforged, hread, hopen, hiff⟩

/-- Whether a message that is accepted encodes to its payload again. -/
def encodesAgain (envelope : SealedEnvelope) : Except Failure Bool := do
  let decrypted ← readForged envelope
  let (opened, _) ← openInbound spelled bob envelope (fun _ => none)
  let (preamble, message) ← parsePayload opened
  return (encodePayload { decrypted.session with pendingPreKey := preamble } message).toOption = some opened.payload

/-- Alice's message, changed, is accepted all the same, and does not encode to itself again. -/
def AcceptedTwice (change : RawPreKeyPayload → RawPreKeyPayload) : Prop :=
  ∃ envelope decrypted opened address preamble message, forged change = .ok envelope ∧ readForged envelope = .ok decrypted ∧
    openInbound spelled bob envelope (fun _ => none) = .ok (opened, address) ∧
    parsePayload opened = .ok (preamble, message) ∧
    encodePayload { decrypted.session with pendingPreKey := preamble } message ≠ .ok opened.payload

theorem acceptedTwice_of_encodesAgain {change : RawPreKeyPayload → RawPreKeyPayload}
    (h : ((forged change).bind encodesAgain).toOption = some false) : AcceptedTwice change := by
  cases hfalse : (forged change).bind encodesAgain with
  | error e =>
    rw [hfalse] at h
    cases h
  | ok again =>
    rw [hfalse] at h
    obtain rfl := Option.some.inj h
    obtain ⟨envelope, hforged, hfalse⟩ := Outcome.bind_eq_ok_iff.mp hfalse
    obtain ⟨decrypted, hread, hfalse⟩ := Outcome.bind_eq_ok_iff.mp hfalse
    obtain ⟨⟨opened, address⟩, hopen, hfalse⟩ := Outcome.bind_eq_ok_iff.mp hfalse
    obtain ⟨⟨preamble, message⟩, hparse, hfalse⟩ := Outcome.bind_eq_ok_iff.mp hfalse
    refine ⟨envelope, decrypted, opened, address, preamble, message, hforged, hread, hopen, hparse, fun hencode => ?_⟩
    have hsame := Outcome.pure_eq_ok_iff.mp hfalse
    rw [hencode] at hsame
    simp [Except.toOption] at hsame

/-- A byte after the message in the body, a presence byte that is neither of the two, and an id that is not present. -/
theorem payloads_accepted_twice :
    AcceptedTwice (fun raw => { raw with body := raw.body ++ [0] }) ∧
      AcceptedTwice (fun raw => { raw with hasOneTime := 2 }) ∧
      AcceptedTwice (fun raw => { raw with oneTimePreKeyId := 5 }) := by
  refine ⟨acceptedTwice_of_encodesAgain ?_, acceptedTwice_of_encodesAgain ?_, acceptedTwice_of_encodesAgain ?_⟩
  · decide +kernel
  · decide +kernel
  · decide +kernel

end Veil
