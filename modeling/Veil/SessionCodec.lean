import Veil.Session

namespace Veil

/-- The bytes of the key ids of a handshake. -/
theorem Writer.optionalId_eq_ok {w w' : Writer} {id : Option Int} (h : w.optionalId id = .ok w') :
    ∃ chunk, w' = w.push chunk ∧ Reads decodeOptionalId chunk id := by
  simp only [optionalId, Outcome.bind_eq_ok_iff, u8_eq_ok_iff, u32_eq_ok_iff] at h
  obtain ⟨_, ⟨_, _, rfl⟩, hlo, hhi, rfl⟩ := h
  cases id with
  | none =>
    refine ⟨[0] ++ bigEndian32 0, by simp [push], ?_⟩
    refine (Reads.u8 (n := 0) (by omega)).bind ?_
    exact (Reads.u32 (n := 0) (by omega)).map _
  | some id =>
    simp only [Option.getD_some] at hlo hhi
    have hid : ((id.toNat : Nat) : Int) = id := Int.toNat_of_nonneg hlo
    refine ⟨[1] ++ bigEndian32 id.toNat, by simp [push], ?_⟩
    refine (Reads.u8 (n := 1) (by omega)).bind ?_
    have hread := (Reads.u32 (n := id.toNat) (by omega)).map
      (fun id : Nat => if 1 = 1 then some (id : Int) else none)
    rw [if_pos rfl, hid] at hread
    exact hread

/-- The tail of `decodePreamble`. -/
def decodeKeyIds : Decode HandshakeKeyIds := do
  let signedPreKeyId ← Reader.u32
  let signedKemPreKeyId ← Reader.u32
  let oneTimePreKeyId ← decodeOptionalId
  let oneTimeKemPreKeyId ← decodeOptionalId
  return { signedPreKeyId, signedKemPreKeyId, oneTimePreKeyId, oneTimeKemPreKeyId }

theorem decodePreamble_eq : decodePreamble = do
    let ephemeralPublicKey ← Reader.bytes
    let kemCiphertext ← Reader.bytes
    let keyIds ← decodeKeyIds
    return { ephemeralPublicKey, kemCiphertext, keyIds } := by
  simp only [decodePreamble, decodeKeyIds, bind_assoc, pure_bind]

theorem Writer.keyIds_eq_ok {w w' : Writer} {ids : HandshakeKeyIds} (h : w.keyIds ids = .ok w') :
    ∃ chunk, w' = w.push chunk ∧ Reads decodeKeyIds chunk ids := by
  simp only [keyIds, Outcome.bind_eq_ok_iff, u32_eq_ok_iff] at h
  obtain ⟨_, ⟨h₁, h₁', rfl⟩, _, ⟨h₂, h₂', rfl⟩, _, h₃, h₄⟩ := h
  obtain ⟨chunk₃, rfl, hread₃⟩ := optionalId_eq_ok h₃
  obtain ⟨chunk₄, rfl, hread₄⟩ := optionalId_eq_ok h₄
  refine ⟨bigEndian32 ids.signedPreKeyId.toNat ++ (bigEndian32 ids.signedKemPreKeyId.toNat ++ (chunk₃ ++ chunk₄)),
    by simp [push], ?_⟩
  refine (Reads.u32 (by omega)).bind ?_
  refine (Reads.u32 (by omega)).bind ?_
  refine hread₃.bind ?_
  have hread := hread₄.map (fun id : Option Int => HandshakeKeyIds.mk (ids.signedPreKeyId.toNat : Int)
    (ids.signedKemPreKeyId.toNat : Int) ids.oneTimePreKeyId id)
  rw [Int.toNat_of_nonneg h₁, Int.toNat_of_nonneg h₂] at hread
  simpa only [Int.toNat_of_nonneg h₁, Int.toNat_of_nonneg h₂] using hread

theorem encodePreamble_reads {preamble : PreKeyPreamble} {bytes : Bytes} (h : encodePreamble preamble = .ok bytes) :
    Reads decodePreamble bytes preamble := by
  simp only [encodePreamble, Outcome.bind_eq_ok_iff, Outcome.pure_eq_ok_iff, Writer.bytes_eq_ok_iff] at h
  obtain ⟨_, ⟨h₁, rfl⟩, _, ⟨h₂, rfl⟩, _, h₃, rfl⟩ := h
  obtain ⟨chunk, rfl, hread⟩ := Writer.keyIds_eq_ok h₃
  simp only [Writer.finish_push, Writer.finish_empty, List.nil_append, List.append_assoc, decodePreamble_eq]
  refine (Reads.bytes h₁).bind ?_
  refine (Reads.bytes h₂).bind ?_
  exact hread.map _

theorem encodeRatchetMessage_reads {message : RatchetMessage} {bytes : Bytes}
    (h : encodeRatchetMessage message = .ok bytes) : Reads decodeRatchetMessage bytes message := by
  simp only [encodeRatchetMessage, Outcome.bind_eq_ok_iff, Outcome.pure_eq_ok_iff, Writer.bytes_eq_ok_iff,
    Writer.u32_eq_ok_iff] at h
  obtain ⟨_, ⟨h₁, rfl⟩, _, ⟨_, h₂, rfl⟩, _, ⟨_, h₃, rfl⟩, _, ⟨h₄, rfl⟩, rfl⟩ := h
  simp only [Writer.finish_push, Writer.finish_empty, List.nil_append, List.append_assoc, Int.toNat_natCast]
  refine (Reads.bytes h₁).bind ?_
  refine (Reads.u32 (by omega)).bind ?_
  refine (Reads.u32 (by omega)).bind ?_
  exact (Reads.bytes h₄).map _

theorem decodeBody_of_encode {message : RatchetMessage} {body : Bytes}
    (h : encodeRatchetMessage message = .ok body) : decodeBody body = .ok message := by
  have hread := encodeRatchetMessage_reads h [] []
  simp only [List.nil_append, List.append_nil, List.length_nil] at hread
  unfold decodeBody
  rw [hread]
  rfl

section

variable {K : Type} {session : Session K} {message : RatchetMessage} {payload : Bytes}

/-- What a session without a pending preamble sends reads back as the message. -/
theorem encodePayload_ratchet (settled : session.pendingPreKey = none)
    (h : encodePayload session message = .ok payload) : decodeRatchetMessage.all payload = .ok message := by
  simp only [encodePayload, settled, Outcome.bind_eq_ok_iff, Outcome.pure_eq_ok_iff] at h
  obtain ⟨body, hbody, rfl⟩ := h
  exact Decode.all_of_reads (encodeRatchetMessage_reads hbody)

/-- What a session that still owes its preamble sends reads back as the preamble and the message. -/
theorem encodePayload_preKey {preamble : PreKeyPreamble} (pending : session.pendingPreKey = some preamble)
    (h : encodePayload session message = .ok payload) :
    ∃ body, decodePreKeyPayload.all payload = .ok (preamble, body) ∧ decodeBody body = .ok message := by
  simp only [encodePayload, pending, Outcome.bind_eq_ok_iff, Outcome.pure_eq_ok_iff, Writer.bytes_eq_ok_iff] at h
  obtain ⟨body, hbody, encoded, hencoded, _, ⟨hlen, rfl⟩, rfl⟩ := h
  refine ⟨body, ?_, decodeBody_of_encode hbody⟩
  apply Decode.all_of_reads
  simp only [Writer.finish_push, Writer.finish_fixed, Writer.finish_empty, List.nil_append]
  refine (encodePreamble_reads hencoded).bind ?_
  exact (Reads.bytes hlen).map _

end

end Veil
