import Veil.Envelope

namespace Veil

structure Argon2Profile where
  memoryKiB : Nat
  iterations : Nat
  parallelism : Nat
  deriving DecidableEq, Repr

def argon2Profile : Argon2Profile := { memoryKiB := 47104, iterations := 2, parallelism := 1 }

def saltLength : Nat := 16

def aeadKeyLength : Nat := 32

def aeadNonceLength : Nat := 24

def aeadTagLength : Nat := 16

def vaultMagic : Bytes := utf8 "VEIL-VAULT-1"

def vaultKekLabel : Bytes := utf8 "Veil/v1/VaultKEK"

def vaultRecordLabel : Bytes := utf8 "Veil/v1/VaultRecord"

/-- What `random` returns. -/
abbrev RandomBytes (length : Nat) : Type := { bytes : Bytes // bytes.length = length }

/-- The libraries under the vault: Argon2id, HKDF-SHA-512, and XChaCha20-Poly1305 for a key, a nonce and associated data. -/
structure VaultPrimitives where
  passphraseKdf : Bytes → Bytes → Argon2Profile → Nat → Except Failure Bytes
  kdf : Bytes → Bytes → Bytes → Nat → Bytes
  encrypt : Bytes → Bytes → Bytes → Bytes → Bytes
  decrypt : Bytes → Bytes → Bytes → Bytes → Option Bytes

def expectLength (name : String) (value : Bytes) (expected : Nat) : Except Failure Unit :=
  if value.length ≠ expected then
    .error (.malformedInput s!"{name} must be {expected} bytes, got {value.length}")
  else .ok ()

structure WrappedVault extends Argon2Profile where
  salt : Bytes
  wrappedKey : Bytes
  deriving DecidableEq

structure Vault where
  dataKey : Bytes
  deriving DecidableEq

namespace VaultPrimitives

variable (prim : VaultPrimitives)

def aeadEncrypt (key nonce plaintext associatedData : Bytes) : Except Failure Bytes := do
  expectLength "AEAD key" key aeadKeyLength
  expectLength "AEAD nonce" nonce aeadNonceLength
  return prim.encrypt key nonce plaintext associatedData

def aeadDecrypt (key nonce ciphertext associatedData : Bytes) : Except Failure Bytes := do
  expectLength "AEAD key" key aeadKeyLength
  expectLength "AEAD nonce" nonce aeadNonceLength
  if ciphertext.length < aeadTagLength then
    throw (.malformedInput "ciphertext shorter than the authentication tag")
  match prim.decrypt key nonce ciphertext associatedData with
  | some plaintext => return plaintext
  | none => throw (.authentication "AEAD authentication failed")

def deriveKek (passphrase salt : Bytes) (profile : Argon2Profile) : Except Failure Bytes := do
  let raw ← prim.passphraseKdf passphrase salt profile 32
  return prim.kdf raw salt vaultKekLabel aeadKeyLength

def wrapNonce (salt : Bytes) : Bytes := prim.kdf salt vaultMagic vaultKekLabel aeadNonceLength

/-- Re-wrap the same data key under a new passphrase. -/
def changePassphrase (vault : Vault) (newPassphrase : Bytes) (salt : RandomBytes saltLength) :
    Except Failure WrappedVault := do
  let kek ← prim.deriveKek newPassphrase salt argon2Profile
  let wrappedKey ← prim.aeadEncrypt kek (prim.wrapNonce salt) vault.dataKey vaultMagic
  return { argon2Profile with salt, wrappedKey }

def createVault (passphrase : Bytes) (salt : RandomBytes saltLength) (dataKey : RandomBytes aeadKeyLength) :
    Except Failure (Vault × WrappedVault) := do
  let kek ← prim.deriveKek passphrase salt argon2Profile
  let wrappedKey ← prim.aeadEncrypt kek (prim.wrapNonce salt) dataKey vaultMagic
  return ({ dataKey }, { argon2Profile with salt, wrappedKey })

/-- A wrong passphrase and a tampered wrapper look alike. -/
def unlockVault (passphrase : Bytes) (wrapped : WrappedVault) : Except Failure Vault := do
  if wrapped.salt.length ≠ saltLength then
    throw (.malformedInput "vault salt has wrong length")
  let kek ← prim.deriveKek passphrase wrapped.salt wrapped.toArgon2Profile
  match prim.aeadDecrypt kek (prim.wrapNonce wrapped.salt) wrapped.wrappedKey vaultMagic with
  | .ok dataKey => return { dataKey }
  | .error (.authentication _) => throw (.vaultLocked "incorrect passphrase, or the vault has been tampered with")
  | .error e => throw e

def recordKey (dataKey : Bytes) (recordId : String) : Bytes :=
  prim.kdf dataKey (utf8 recordId) vaultRecordLabel aeadKeyLength

def encryptRecord (vault : Vault) (recordId : String) (plaintext : Bytes) (nonce : RandomBytes aeadNonceLength) :
    Except Failure Bytes := do
  let ciphertext ← prim.aeadEncrypt (prim.recordKey vault.dataKey recordId) nonce plaintext (utf8 recordId)
  return ((({} : Writer).fixed nonce).fixed ciphertext).finish

def decryptRecord (vault : Vault) (recordId : String) (stored : Bytes) : Except Failure Bytes := do
  if stored.length < aeadNonceLength then
    throw (.malformedInput "stored record is too short to contain a nonce")
  prim.aeadDecrypt (prim.recordKey vault.dataKey recordId) (stored.take aeadNonceLength) (stored.drop aeadNonceLength)
    (utf8 recordId)

end VaultPrimitives

def encodeWrappedVault (wrapped : WrappedVault) : Except Failure Bytes := do
  let w ← (({} : Writer).fixed vaultMagic).bytes wrapped.salt
  let w ← w.u32 wrapped.memoryKiB
  let w ← w.u32 wrapped.iterations
  let w ← w.u32 wrapped.parallelism
  let w ← w.bytes wrapped.wrappedKey
  return w.finish

/-- The magic is compared before the rest is read. -/
def readWrappedVault : Decode WrappedVault := do
  let magic ← Reader.fixed vaultMagic.length
  if !constantTimeEqual magic vaultMagic then
    throw (.malformedInput "not a Veil vault")
  let salt ← Reader.bytes
  let memoryKiB ← Reader.u32
  let iterations ← Reader.u32
  let parallelism ← Reader.u32
  let wrappedKey ← Reader.bytes
  return { salt, memoryKiB, iterations, parallelism, wrappedKey }

def decodeWrappedVault (bytes : Bytes) : Except Failure WrappedVault := readWrappedVault.all bytes

/-- What the code relies on in the libraries. -/
structure VaultPrimitives.Lawful (prim : VaultPrimitives) : Prop where
  kdf_length : ∀ ikm salt info length, (prim.kdf ikm salt info length).length = length
  encrypt_length : ∀ key nonce plaintext associatedData,
    (prim.encrypt key nonce plaintext associatedData).length = plaintext.length + aeadTagLength
  decrypt_encrypt : ∀ key nonce plaintext associatedData,
    prim.decrypt key nonce (prim.encrypt key nonce plaintext associatedData) associatedData = some plaintext

section

variable {prim : VaultPrimitives} {key nonce plaintext ciphertext associatedData : Bytes}

theorem expectLength_bind {α : Type} {name : String} {value : Bytes} {expected : Nat} {f : Unit → Except Failure α} {a : α} :
    (expectLength name value expected >>= f) = .ok a ↔ value.length = expected ∧ f () = .ok a := by
  unfold expectLength
  by_cases h : value.length = expected
  · simp [h]
  · simp [h]

theorem aeadEncrypt_eq_ok_iff : prim.aeadEncrypt key nonce plaintext associatedData = .ok ciphertext ↔
    key.length = aeadKeyLength ∧ nonce.length = aeadNonceLength ∧
      prim.encrypt key nonce plaintext associatedData = ciphertext := by
  unfold VaultPrimitives.aeadEncrypt
  rw [expectLength_bind, expectLength_bind, Outcome.pure_eq_ok_iff]

theorem aeadDecrypt_eq_ok_iff : prim.aeadDecrypt key nonce ciphertext associatedData = .ok plaintext ↔
    key.length = aeadKeyLength ∧ nonce.length = aeadNonceLength ∧ aeadTagLength ≤ ciphertext.length ∧
      prim.decrypt key nonce ciphertext associatedData = some plaintext := by
  unfold VaultPrimitives.aeadDecrypt
  rw [expectLength_bind, expectLength_bind]
  refine and_congr_right fun _ => and_congr_right fun _ => ?_
  by_cases hshort : ciphertext.length < aeadTagLength
  · have hnot : ¬aeadTagLength ≤ ciphertext.length := by omega
    simp [hshort, hnot, throw, throwThe, MonadExceptOf.throw]
  · have hlong : aeadTagLength ≤ ciphertext.length := by omega
    cases hdecrypt : prim.decrypt key nonce ciphertext associatedData with
    | none => simp [hshort, throw, throwThe, MonadExceptOf.throw]
    | some found => simp [hshort, hlong, pure, Except.pure]

variable (lawful : prim.Lawful) {vault : Vault} {recordId : String}

include lawful

theorem encryptRecord_eq (vault : Vault) (recordId : String) (plaintext : Bytes) (nonce : RandomBytes aeadNonceLength) :
    prim.encryptRecord vault recordId plaintext nonce = .ok (nonce.1 ++
      prim.encrypt (prim.recordKey vault.dataKey recordId) nonce.1 plaintext (utf8 recordId)) := by
  have hkey : (prim.recordKey vault.dataKey recordId).length = aeadKeyLength := lawful.kdf_length _ _ _ _
  have hencrypt := (@aeadEncrypt_eq_ok_iff prim _ nonce.1 plaintext _ (utf8 recordId)).mpr ⟨hkey, nonce.2, rfl⟩
  unfold VaultPrimitives.encryptRecord
  rw [hencrypt]
  rfl

/-- Opening a record is opening what follows its nonce, under its key and its id. -/
theorem decryptRecord_eq_ok_iff {stored : Bytes} : prim.decryptRecord vault recordId stored = .ok plaintext ↔
    aeadNonceLength + aeadTagLength ≤ stored.length ∧
      prim.decrypt (prim.recordKey vault.dataKey recordId) (stored.take aeadNonceLength) (stored.drop aeadNonceLength)
        (utf8 recordId) = some plaintext := by
  have hkey : (prim.recordKey vault.dataKey recordId).length = aeadKeyLength := lawful.kdf_length _ _ _ _
  unfold VaultPrimitives.decryptRecord
  by_cases hshort : stored.length < aeadNonceLength
  · have hnot : ¬aeadNonceLength + aeadTagLength ≤ stored.length := by omega
    simp [hshort, hnot, throw, throwThe, MonadExceptOf.throw]
  · have hnonce : (stored.take aeadNonceLength).length = aeadNonceLength := by
      rw [List.length_take]
      omega
    have htag : aeadTagLength ≤ (stored.drop aeadNonceLength).length ↔
        aeadNonceLength + aeadTagLength ≤ stored.length := by
      rw [List.length_drop]
      omega
    simp only [hshort, ↓reduceIte]
    show prim.aeadDecrypt _ _ _ _ = _ ↔ _
    rw [aeadDecrypt_eq_ok_iff, htag]
    exact ⟨fun h => h.2.2, fun h => ⟨hkey, hnonce, h⟩⟩

/-- A record opens under the id it was encrypted for. -/
theorem decryptRecord_encrypted {stored : Bytes} {nonce : RandomBytes aeadNonceLength}
    (h : prim.encryptRecord vault recordId plaintext nonce = .ok stored) :
    prim.decryptRecord vault recordId stored = .ok plaintext := by
  rw [encryptRecord_eq lawful] at h
  obtain rfl := Except.ok.inj h
  rw [decryptRecord_eq_ok_iff lawful]
  have hlength := lawful.encrypt_length (prim.recordKey vault.dataKey recordId) nonce.1 plaintext (utf8 recordId)
  have hnonce := nonce.2
  refine ⟨by rw [List.length_append]; omega, ?_⟩
  rw [List.take_left' hnonce, List.drop_left' hnonce]
  exact lawful.decrypt_encrypt _ _ _ _

end

/-- The wrappers the format has room for. -/
structure WrappedVault.InRange (wrapped : WrappedVault) : Prop where
  salt : wrapped.salt.length < 2 ^ 32
  memoryKiB : wrapped.memoryKiB < 2 ^ 32
  iterations : wrapped.iterations < 2 ^ 32
  parallelism : wrapped.parallelism < 2 ^ 32
  wrappedKey : wrapped.wrappedKey.length < 2 ^ 32

/-- The format, field by field. -/
def WrappedVault.layout (wrapped : WrappedVault) : Bytes :=
  vaultMagic ++ (Reads.prefixed wrapped.salt ++ (Writer.bigEndian32 wrapped.memoryKiB ++
    (Writer.bigEndian32 wrapped.iterations ++ (Writer.bigEndian32 wrapped.parallelism ++
      Reads.prefixed wrapped.wrappedKey))))

theorem encodeWrappedVault_eq_ok_iff {wrapped : WrappedVault} {bytes : Bytes} :
    encodeWrappedVault wrapped = .ok bytes ↔ wrapped.InRange ∧ bytes = wrapped.layout := by
  simp only [encodeWrappedVault, Outcome.bind_eq_ok_iff, Outcome.pure_eq_ok_iff, Writer.bytes_eq_ok_iff,
    Writer.u32_eq_ok_iff]
  constructor
  · rintro ⟨_, ⟨hsalt, rfl⟩, _, ⟨_, hmemory, rfl⟩, _, ⟨_, hiterations, rfl⟩, _, ⟨_, hparallelism, rfl⟩, _, ⟨hkey, rfl⟩,
      rfl⟩
    refine ⟨⟨hsalt, by omega, by omega, by omega, hkey⟩, ?_⟩
    simp only [Writer.finish_push, Writer.finish_fixed, Writer.finish_empty, List.nil_append, List.append_assoc,
      Int.toNat_natCast, WrappedVault.layout]
  · rintro ⟨⟨hsalt, hmemory, hiterations, hparallelism, hkey⟩, rfl⟩
    refine ⟨_, ⟨hsalt, rfl⟩, _, ⟨by omega, by omega, rfl⟩, _, ⟨by omega, by omega, rfl⟩, _, ⟨by omega, by omega, rfl⟩, _,
      ⟨hkey, rfl⟩, ?_⟩
    simp only [Writer.finish_push, Writer.finish_fixed, Writer.finish_empty, List.nil_append, List.append_assoc,
      Int.toNat_natCast, WrappedVault.layout]

theorem readWrappedVault_reads {wrapped : WrappedVault} (h : wrapped.InRange) :
    Reads readWrappedVault wrapped.layout wrapped := by
  refine (Reads.fixed vaultMagic).bind ?_
  simp only [constantTimeEqual_iff.mpr, Bool.not_true, Bool.false_eq_true, ↓reduceIte]
  refine (Reads.bytes h.salt).bind ?_
  refine (Reads.u32 h.memoryKiB).bind ?_
  refine (Reads.u32 h.iterations).bind ?_
  refine (Reads.u32 h.parallelism).bind ?_
  exact (Reads.bytes h.wrappedKey).map _

/-- Decoding a wrapper's encoding gives the wrapper back. -/
theorem decodeWrappedVault_encoded {wrapped : WrappedVault} {bytes : Bytes}
    (h : encodeWrappedVault wrapped = .ok bytes) : decodeWrappedVault bytes = .ok wrapped := by
  obtain ⟨hrange, rfl⟩ := encodeWrappedVault_eq_ok_iff.mp h
  exact Decode.all_of_reads (readWrappedVault_reads hrange)

/-- Bytes at a given length. -/
def fit (length : Nat) (bytes : Bytes) : Bytes := (bytes ++ List.replicate length 0).take length

/-- Primitives that only fit their inputs to the lengths asked for; the tag is half the key's, half the data's. -/
def fitting : VaultPrimitives where
  passphraseKdf passphrase _ _ length := .ok (fit length passphrase)
  kdf ikm _ _ length := fit length ikm
  encrypt key _ plaintext associatedData := fit 8 key ++ fit 8 associatedData ++ plaintext
  decrypt key _ ciphertext associatedData :=
    if ciphertext.take 16 = fit 8 key ++ fit 8 associatedData then some (ciphertext.drop 16) else none

theorem fit_length (length : Nat) (bytes : Bytes) : (fit length bytes).length = length := by
  rw [fit, List.length_take, List.length_append, List.length_replicate]
  omega

theorem fitting_lawful : fitting.Lawful := by
  have htag : ∀ key associatedData, (fit 8 key ++ fit 8 associatedData).length = 16 := by
    intro key associatedData
    rw [List.length_append, fit_length, fit_length]
  refine ⟨fun ikm _ _ length => fit_length length ikm, fun key _ plaintext associatedData => ?_,
    fun key _ plaintext associatedData => ?_⟩
  · have hlength := htag key associatedData
    show (fit 8 key ++ fit 8 associatedData ++ plaintext).length = plaintext.length + 16
    rw [List.length_append]
    omega
  · have htake : (fit 8 key ++ fit 8 associatedData ++ plaintext).take 16 = fit 8 key ++ fit 8 associatedData :=
      List.take_left' (htag key associatedData)
    have hdrop : (fit 8 key ++ fit 8 associatedData ++ plaintext).drop 16 = plaintext :=
      List.drop_left' (htag key associatedData)
    exact (if_pos htake).trans (congrArg some hdrop)

end Veil
