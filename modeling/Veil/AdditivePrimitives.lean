import Veil.Conversation

namespace Veil

/-- Small primitives that meet the assumptions: sums for agreement and keys, one tag byte for the AEAD. -/
def additive : RatchetPrimitives Nat where
  publicKeyOf s := List.replicate 31 0 ++ [UInt8.ofNat s]
  dh s publicKey :=
    if publicKey = List.replicate 32 0 then .error (.malformedInput "degenerate DH output")
    else .ok (s + (publicKey.getLastD 0).toNat)
  advanceRootChain rootKey dhOutput := ⟨rootKey + 2 * dhOutput, rootKey + 2 * dhOutput + 1⟩
  advanceChain chainKey := ⟨chainKey + 7, chainKey + 3⟩
  deriveMessageKeys messageKey := ⟨messageKey, messageKey + 1⟩
  aeadEncrypt key nonce plaintext ad :=
    .ok (UInt8.ofNat (key + nonce + (ad.map UInt8.toNat).sum) :: plaintext)
  aeadDecrypt key nonce ciphertext ad :=
    match ciphertext with
    | [] => .error (.authentication "message failed authentication")
    | tag :: body =>
      if tag = UInt8.ofNat (key + nonce + (ad.map UInt8.toNat).sum) then .ok body
      else .error (.authentication "message failed authentication")

def additiveKeyPair (secretKey : Nat) : KeyPair Nat := ⟨additive.publicKeyOf secretKey, secretKey⟩

def additiveGenerated (pair : KeyPair Nat) : Prop := ∃ s, 0 < s ∧ s < 256 ∧ pair = additiveKeyPair s

theorem additive_dh {a b : Nat} (hb : 0 < b) (hlt : b < 256) :
    additive.dh a (additive.publicKeyOf b) = .ok (a + b) := by
  have hne : UInt8.ofNat b ≠ 0 := by
    intro h
    have hz := congrArg UInt8.toNat h
    simp only [UInt8.toNat_ofNat', UInt8.toNat_zero] at hz
    omega
  have hkey : List.replicate 31 0 ++ [UInt8.ofNat b] ≠ List.replicate 32 0 := by
    intro h
    exact hne (by simpa [List.replicate_succ'] using h)
  simp only [additive, if_neg hkey]
  simp
  omega

theorem additive_lawful : additive.Lawful additiveGenerated where
  dh_agree := by
    rintro _ _ ⟨a, ha, ha', rfl⟩ ⟨b, hb, hb', rfl⟩
    exact ⟨a + b, additive_dh hb hb', by rw [Nat.add_comm]; exact additive_dh ha ha'⟩
  publicKey_length := by
    rintro _ ⟨a, _, _, rfl⟩
    rfl
  aead := by
    rintro key nonce plaintext ad ciphertext h
    simp only [additive, Except.ok.injEq] at h
    subst h
    simp [additive]

end Veil
