import Veil.Vault
import Veil.Library.Runs

namespace Veil

section

variable (prim : VaultPrimitives)

/-- The keys that wrap data keys: a key of fixed length cannot tell all passphrases apart, only those that are ever used. -/
structure VaultPrimitives.Separates (passphrases : Set Bytes) : Prop where
  derives : ∀ passphrase ∈ passphrases, ∀ salt, salt.length = saltLength →
    ∃ raw, prim.passphraseKdf passphrase salt argon2Profile 32 = .ok raw
  passphraseKdf_injective : ∀ passphrase ∈ passphrases, ∀ passphrase' ∈ passphrases, ∀ salt raw,
    prim.passphraseKdf passphrase salt argon2Profile 32 = .ok raw →
      prim.passphraseKdf passphrase' salt argon2Profile 32 = .ok raw → passphrase = passphrase'
  kdf_injective : ∀ passphrase ∈ passphrases, ∀ passphrase' ∈ passphrases, ∀ salt raw raw',
    prim.passphraseKdf passphrase salt argon2Profile 32 = .ok raw →
      prim.passphraseKdf passphrase' salt argon2Profile 32 = .ok raw' →
        prim.kdf raw salt vaultKekLabel aeadKeyLength = prim.kdf raw' salt vaultKekLabel aeadKeyLength → raw = raw'
  unforgeable : ∀ passphrase ∈ passphrases, ∀ passphrase' ∈ passphrases, ∀ salt kek kek',
    prim.deriveKek passphrase salt argon2Profile = .ok kek → prim.deriveKek passphrase' salt argon2Profile = .ok kek' →
      kek ≠ kek' → ∀ nonce plaintext associatedData,
        prim.decrypt kek' nonce (prim.encrypt kek nonce plaintext associatedData) associatedData = none

end

/-- A wrapper, with the vault it was made from and the passphrase it was made for. -/
structure Wrapper where
  vault : Nat
  passphrase : Bytes
  wrapped : WrappedVault

/-- A wrapper that has been encoded. -/
structure WrapperFile where
  vault : Nat
  passphrase : Bytes
  bytes : Bytes

structure VaultRecord where
  vault : Nat
  recordId : String
  plaintext : Bytes
  stored : Bytes

/-- Everything that vaults have come to: a vault is known by the place of its data key, however often it is opened. -/
structure VaultHistory where
  dataKeys : List (RandomBytes aeadKeyLength) := []
  opened : List (Nat × Vault) := []
  wrappers : List Wrapper := []
  files : List WrapperFile := []
  records : List VaultRecord := []

namespace VaultHistory

section

variable (prim : VaultPrimitives) (passphrases : Set Bytes)

inductive Step : VaultHistory → VaultHistory → Prop
  | create (h : VaultHistory) (passphrase : Bytes) (used : passphrase ∈ passphrases) (salt : RandomBytes saltLength)
      (dataKey : RandomBytes aeadKeyLength) (vault : Vault) (wrapped : WrappedVault)
      (made : prim.createVault passphrase salt dataKey = .ok (vault, wrapped)) :
      Step h
        { h with
          dataKeys := h.dataKeys ++ [dataKey]
          opened := (h.dataKeys.length, vault) :: h.opened
          wrappers := ⟨h.dataKeys.length, passphrase, wrapped⟩ :: h.wrappers }
  | unlock (h : VaultHistory) (wrapper : Wrapper) (mem : wrapper ∈ h.wrappers) (passphrase : Bytes)
      (used : passphrase ∈ passphrases) (vault : Vault) (unlocked : prim.unlockVault passphrase wrapper.wrapped = .ok vault) :
      Step h { h with opened := (wrapper.vault, vault) :: h.opened }
  | change (h : VaultHistory) (place : Nat) (vault : Vault) (mem : (place, vault) ∈ h.opened) (passphrase : Bytes)
      (used : passphrase ∈ passphrases) (salt : RandomBytes saltLength) (wrapped : WrappedVault)
      (made : prim.changePassphrase vault passphrase salt = .ok wrapped) :
      Step h { h with wrappers := ⟨place, passphrase, wrapped⟩ :: h.wrappers }
  | encode (h : VaultHistory) (wrapper : Wrapper) (mem : wrapper ∈ h.wrappers) (bytes : Bytes)
      (encoded : encodeWrappedVault wrapper.wrapped = .ok bytes) :
      Step h { h with files := ⟨wrapper.vault, wrapper.passphrase, bytes⟩ :: h.files }
  | decode (h : VaultHistory) (file : WrapperFile) (mem : file ∈ h.files) (wrapped : WrappedVault)
      (decoded : decodeWrappedVault file.bytes = .ok wrapped) :
      Step h { h with wrappers := ⟨file.vault, file.passphrase, wrapped⟩ :: h.wrappers }
  | write (h : VaultHistory) (place : Nat) (vault : Vault) (mem : (place, vault) ∈ h.opened) (recordId : String)
      (plaintext : Bytes) (nonce : RandomBytes aeadNonceLength) (stored : Bytes)
      (encrypted : prim.encryptRecord vault recordId plaintext nonce = .ok stored) :
      Step h { h with records := ⟨place, recordId, plaintext, stored⟩ :: h.records }

/-- The wrapper holds this data key under this passphrase. -/
structure Wraps (passphrase : Bytes) (dataKey : RandomBytes aeadKeyLength) (wrapped : WrappedVault) : Prop where
  used : passphrase ∈ passphrases
  salt : wrapped.salt.length = saltLength
  profile : wrapped.toArgon2Profile = argon2Profile
  key : ∃ kek, prim.deriveKek passphrase wrapped.salt argon2Profile = .ok kek ∧
    wrapped.wrappedKey = prim.encrypt kek (prim.wrapNonce wrapped.salt) dataKey vaultMagic

/-- Whatever belongs to a vault holds its data key. -/
structure Coherent (h : VaultHistory) : Prop where
  opened : ∀ place vault, (place, vault) ∈ h.opened → ∃ dataKey, h.dataKeys[place]? = some dataKey ∧ vault = ⟨dataKey⟩
  wrappers : ∀ wrapper ∈ h.wrappers, ∃ dataKey, h.dataKeys[wrapper.vault]? = some dataKey ∧
    Wraps prim passphrases wrapper.passphrase dataKey wrapper.wrapped
  files : ∀ file ∈ h.files, ∃ dataKey wrapped, h.dataKeys[file.vault]? = some dataKey ∧
    encodeWrappedVault wrapped = .ok file.bytes ∧ Wraps prim passphrases file.passphrase dataKey wrapped
  records : ∀ record ∈ h.records, ∃ dataKey nonce, h.dataKeys[record.vault]? = some dataKey ∧
    prim.encryptRecord ⟨dataKey⟩ record.recordId record.plaintext nonce = .ok record.stored

end

section

variable {prim : VaultPrimitives} {passphrases : Set Bytes} {passphrase : Bytes} {dataKey : RandomBytes aeadKeyLength}
  {wrapped : WrappedVault}

theorem changePassphrase_wraps {salt : RandomBytes saltLength} (used : passphrase ∈ passphrases)
    (h : prim.changePassphrase ⟨dataKey⟩ passphrase salt = .ok wrapped) :
    Wraps prim passphrases passphrase dataKey wrapped := by
  obtain ⟨kek, hkek, h⟩ := Outcome.bind_eq_ok_iff.mp h
  obtain ⟨wrappedKey, hwrapped, h⟩ := Outcome.bind_eq_ok_iff.mp h
  obtain rfl := Outcome.pure_eq_ok_iff.mp h
  exact ⟨used, salt.2, rfl, kek, hkek, (aeadEncrypt_eq_ok_iff.mp hwrapped).2.2.symm⟩

/-- `createVault` wraps as `changePassphrase` would. -/
theorem createVault_eq_ok {vault : Vault} {salt : RandomBytes saltLength}
    (h : prim.createVault passphrase salt dataKey = .ok (vault, wrapped)) :
    vault = ⟨dataKey⟩ ∧ prim.changePassphrase ⟨dataKey⟩ passphrase salt = .ok wrapped := by
  obtain ⟨kek, hkek, h⟩ := Outcome.bind_eq_ok_iff.mp h
  obtain ⟨wrappedKey, hwrapped, h⟩ := Outcome.bind_eq_ok_iff.mp h
  obtain ⟨rfl, rfl⟩ := Prod.mk.inj (Outcome.pure_eq_ok_iff.mp h)
  refine ⟨rfl, ?_⟩
  unfold VaultPrimitives.changePassphrase
  rw [hkek, Outcome.ok_bind, hwrapped]
  rfl

variable (lawful : prim.Lawful)

include lawful

/-- The key of a passphrase, with the lengths the AEAD asks for. -/
theorem deriveKek_length {salt kek : Bytes} (h : prim.deriveKek passphrase salt argon2Profile = .ok kek) :
    kek.length = aeadKeyLength := by
  obtain ⟨raw, _, h⟩ := Outcome.bind_eq_ok_iff.mp h
  obtain rfl := Outcome.pure_eq_ok_iff.mp h
  exact lawful.kdf_length _ _ _ _

/-- Unlocking comes down to opening the wrapped key. -/
theorem Wraps.unlockVault_eq (wraps : Wraps prim passphrases passphrase dataKey wrapped) {other kek : Bytes}
    (hkek : prim.deriveKek other wrapped.salt argon2Profile = .ok kek) :
    prim.unlockVault other wrapped =
      match prim.decrypt kek (prim.wrapNonce wrapped.salt) wrapped.wrappedKey vaultMagic with
      | some dataKey => .ok ⟨dataKey⟩
      | none => .error (.vaultLocked "incorrect passphrase, or the vault has been tampered with") := by
  obtain ⟨own, _, hwrapped⟩ := wraps.key
  have hlength : wrapped.wrappedKey.length = dataKey.1.length + aeadTagLength := by
    rw [hwrapped]
    exact lawful.encrypt_length _ _ _ _
  have hkeyLength : kek.length = aeadKeyLength := deriveKek_length lawful hkek
  have hnonceLength : (prim.wrapNonce wrapped.salt).length = aeadNonceLength := lawful.kdf_length _ _ _ _
  have hlong : ¬wrapped.wrappedKey.length < aeadTagLength := by omega
  unfold VaultPrimitives.unlockVault
  simp only [wraps.salt, ne_eq, not_true_eq_false, ↓reduceIte, wraps.profile, hkek]
  simp only [VaultPrimitives.aeadDecrypt, expectLength, hkeyLength, hnonceLength, hlong, ne_eq, not_true_eq_false,
    ↓reduceIte, Outcome.ok_bind]
  cases prim.decrypt kek (prim.wrapNonce wrapped.salt) wrapped.wrappedKey vaultMagic with
  | none => rfl
  | some found => rfl

theorem Wraps.unlock (wraps : Wraps prim passphrases passphrase dataKey wrapped) :
    prim.unlockVault passphrase wrapped = .ok ⟨dataKey⟩ := by
  obtain ⟨kek, hkek, hwrapped⟩ := wraps.key
  rw [wraps.unlockVault_eq lawful hkek, hwrapped, lawful.decrypt_encrypt]

/-- Any other passphrase derives another key, and that one does not open the wrapper. -/
theorem Wraps.locked (separates : prim.Separates passphrases) (wraps : Wraps prim passphrases passphrase dataKey wrapped)
    {other : Bytes} (used : other ∈ passphrases) (hne : other ≠ passphrase) :
    prim.unlockVault other wrapped =
      .error (.vaultLocked "incorrect passphrase, or the vault has been tampered with") := by
  obtain ⟨kek, hkek, hwrapped⟩ := wraps.key
  obtain ⟨raw, hraw, hderived⟩ := Outcome.bind_eq_ok_iff.mp hkek
  obtain ⟨raw', hraw'⟩ := separates.derives other used wrapped.salt wraps.salt
  have hother : prim.deriveKek other wrapped.salt argon2Profile =
      .ok (prim.kdf raw' wrapped.salt vaultKekLabel aeadKeyLength) := by
    unfold VaultPrimitives.deriveKek
    rw [hraw']
    rfl
  have hkeks : kek ≠ prim.kdf raw' wrapped.salt vaultKekLabel aeadKeyLength := by
    intro heq
    have hraws : raw = raw' :=
      separates.kdf_injective passphrase wraps.used other used wrapped.salt raw raw' hraw hraw'
        ((Outcome.pure_eq_ok_iff.mp hderived).trans heq)
    exact hne (separates.passphraseKdf_injective other used passphrase wraps.used wrapped.salt raw' hraw' (hraws ▸ hraw))
  have hnone := separates.unforgeable passphrase wraps.used other used wrapped.salt kek _ hkek hother hkeks
    (prim.wrapNonce wrapped.salt) dataKey.1 vaultMagic
  rw [wraps.unlockVault_eq lawful hother, hwrapped, hnone]

theorem Wraps.encoded (wraps : Wraps prim passphrases passphrase dataKey wrapped) :
    ∃ bytes, encodeWrappedVault wrapped = .ok bytes ∧ decodeWrappedVault bytes = .ok wrapped := by
  obtain ⟨kek, _, hwrapped⟩ := wraps.key
  have hkey : wrapped.wrappedKey.length = aeadKeyLength + aeadTagLength := by
    rw [hwrapped, lawful.encrypt_length, dataKey.2]
  have hprofile := wraps.profile
  have hsalt := wraps.salt
  have hrange : wrapped.InRange := by
    refine ⟨?_, ?_, ?_, ?_, ?_⟩
    · rw [hsalt]
      decide
    · rw [show wrapped.memoryKiB = 47104 from congrArg Argon2Profile.memoryKiB hprofile]
      decide
    · rw [show wrapped.iterations = 2 from congrArg Argon2Profile.iterations hprofile]
      decide
    · rw [show wrapped.parallelism = 1 from congrArg Argon2Profile.parallelism hprofile]
      decide
    · rw [hkey]
      decide
  have hencoded := encodeWrappedVault_eq_ok_iff.mpr ⟨hrange, rfl⟩
  exact ⟨_, hencoded, decodeWrappedVault_encoded hencoded⟩

/-- What a vault can do it always can: the passphrase is changed and records are encrypted without an error. -/
theorem changePassphrase_ok (separates : prim.Separates passphrases) (used : passphrase ∈ passphrases)
    (dataKey : RandomBytes aeadKeyLength) (salt : RandomBytes saltLength) :
    ∃ wrapped, prim.changePassphrase ⟨dataKey⟩ passphrase salt = .ok wrapped := by
  obtain ⟨raw, hraw⟩ := separates.derives passphrase used salt.1 salt.2
  have hkek : prim.deriveKek passphrase salt argon2Profile = .ok (prim.kdf raw salt.1 vaultKekLabel aeadKeyLength) := by
    unfold VaultPrimitives.deriveKek
    rw [hraw]
    rfl
  have hwrapped := (@aeadEncrypt_eq_ok_iff prim _ _ dataKey.1 _ vaultMagic).mpr
    ⟨deriveKek_length lawful hkek, lawful.kdf_length salt.1 vaultMagic vaultKekLabel aeadNonceLength, rfl⟩
  exact ⟨_, Outcome.bind_eq_ok_iff.mpr ⟨_, hkek, Outcome.bind_eq_ok_iff.mpr ⟨_, hwrapped, rfl⟩⟩⟩

theorem createVault_ok (separates : prim.Separates passphrases) (used : passphrase ∈ passphrases)
    (dataKey : RandomBytes aeadKeyLength) (salt : RandomBytes saltLength) :
    ∃ wrapped, prim.createVault passphrase salt dataKey = .ok (⟨dataKey⟩, wrapped) := by
  obtain ⟨wrapped, hwrapped⟩ := changePassphrase_ok lawful separates used dataKey salt
  obtain ⟨kek, hkek, h⟩ := Outcome.bind_eq_ok_iff.mp hwrapped
  obtain ⟨wrappedKey, hencrypted, h⟩ := Outcome.bind_eq_ok_iff.mp h
  exact ⟨_, Outcome.bind_eq_ok_iff.mpr ⟨kek, hkek, Outcome.bind_eq_ok_iff.mpr ⟨wrappedKey, hencrypted, rfl⟩⟩⟩

variable {h next : VaultHistory}

theorem Step.coherent (separates : prim.Separates passphrases) (step : Step prim passphrases h next) (coherent : h.Coherent prim passphrases) :
    next.Coherent prim passphrases := by
  cases step with
  | create passphrase used salt dataKey vault wrapped made =>
    obtain ⟨rfl, hwrapped⟩ := createVault_eq_ok made
    have hnew : (h.dataKeys ++ [dataKey])[h.dataKeys.length]? = some dataKey := by simp
    have hkeep {place : Nat} {key : RandomBytes aeadKeyLength} (hkey : h.dataKeys[place]? = some key) :
        (h.dataKeys ++ [dataKey])[place]? = some key := by
      have hinside := (List.getElem?_eq_some_iff.mp hkey).1
      rw [List.getElem?_append_left hinside]
      exact hkey
    refine ⟨fun place vault hmem => ?_, fun wrapper hmem => ?_, fun file hmem => ?_, fun record hmem => ?_⟩
    · rcases List.mem_cons.mp hmem with heq | hmem
      · obtain ⟨rfl, rfl⟩ := Prod.mk.inj heq
        exact ⟨dataKey, hnew, rfl⟩
      · obtain ⟨key, hkey, hvault⟩ := coherent.opened place vault hmem
        exact ⟨key, hkeep hkey, hvault⟩
    · rcases List.mem_cons.mp hmem with rfl | hmem
      · exact ⟨dataKey, hnew, changePassphrase_wraps used hwrapped⟩
      · obtain ⟨key, hkey, hwraps⟩ := coherent.wrappers wrapper hmem
        exact ⟨key, hkeep hkey, hwraps⟩
    · obtain ⟨key, wrapped', hkey, hwraps⟩ := coherent.files file hmem
      exact ⟨key, wrapped', hkeep hkey, hwraps⟩
    · obtain ⟨key, nonce, hkey, hencrypted⟩ := coherent.records record hmem
      exact ⟨key, nonce, hkeep hkey, hencrypted⟩
  | unlock wrapper mem passphrase used vault unlocked =>
    refine ⟨fun place vault' hmem => ?_, coherent.wrappers, coherent.files, coherent.records⟩
    rcases List.mem_cons.mp hmem with heq | hmem
    · obtain ⟨rfl, rfl⟩ := Prod.mk.inj heq
      obtain ⟨dataKey, hkey, hwraps⟩ := coherent.wrappers wrapper mem
      have hown : passphrase = wrapper.passphrase := by
        by_contra hne
        cases (hwraps.locked lawful separates used hne).symm.trans unlocked
      subst hown
      exact ⟨dataKey, hkey, Except.ok.inj (unlocked.symm.trans (hwraps.unlock lawful))⟩
    · exact coherent.opened place vault' hmem
  | change place vault mem passphrase used salt wrapped made =>
    refine ⟨coherent.opened, fun wrapper hmem => ?_, coherent.files, coherent.records⟩
    rcases List.mem_cons.mp hmem with rfl | hmem
    · obtain ⟨dataKey, hkey, rfl⟩ := coherent.opened place vault mem
      exact ⟨dataKey, hkey, changePassphrase_wraps used made⟩
    · exact coherent.wrappers wrapper hmem
  | encode wrapper mem bytes encoded =>
    refine ⟨coherent.opened, coherent.wrappers, fun file hmem => ?_, coherent.records⟩
    rcases List.mem_cons.mp hmem with rfl | hmem
    · obtain ⟨dataKey, hkey, hwraps⟩ := coherent.wrappers wrapper mem
      exact ⟨dataKey, wrapper.wrapped, hkey, encoded, hwraps⟩
    · exact coherent.files file hmem
  | decode file mem wrapped decoded =>
    refine ⟨coherent.opened, fun wrapper hmem => ?_, coherent.files, coherent.records⟩
    rcases List.mem_cons.mp hmem with rfl | hmem
    · obtain ⟨dataKey, wrapped', hkey, hencoded, hwraps⟩ := coherent.files file mem
      obtain rfl := Except.ok.inj ((decodeWrappedVault_encoded hencoded).symm.trans decoded)
      exact ⟨dataKey, hkey, hwraps⟩
    · exact coherent.wrappers wrapper hmem
  | write place vault mem recordId plaintext nonce stored encrypted =>
    refine ⟨coherent.opened, coherent.wrappers, coherent.files, fun record hmem => ?_⟩
    rcases List.mem_cons.mp hmem with rfl | hmem
    · obtain ⟨dataKey, hkey, rfl⟩ := coherent.opened place vault mem
      exact ⟨dataKey, nonce, hkey, encrypted⟩
    · exact coherent.records record hmem

end

/-- In every history, however often passphrases are changed and wrappers encoded, decoded and unlocked: each wrapper unlocks
with its own passphrase to the data key of its vault, under which every record ever written in that vault decrypts; with any
other passphrase it stays locked; and it survives being encoded. -/
theorem records_survive {prim : VaultPrimitives} (lawful : prim.Lawful) {passphrases : Set Bytes}
    (separates : prim.Separates passphrases) {h : VaultHistory} (run : Relation.ReflTransGen (Step prim passphrases) {} h) :
    (∀ wrapper ∈ h.wrappers,
      (∃ dataKey, h.dataKeys[wrapper.vault]? = some dataKey ∧
        prim.unlockVault wrapper.passphrase wrapper.wrapped = .ok ⟨dataKey⟩ ∧
        ∀ record ∈ h.records, record.vault = wrapper.vault →
          prim.decryptRecord ⟨dataKey⟩ record.recordId record.stored = .ok record.plaintext) ∧
      (∀ passphrase ∈ passphrases, passphrase ≠ wrapper.passphrase → ∃ message,
        prim.unlockVault passphrase wrapper.wrapped = .error (.vaultLocked message)) ∧
      ∃ bytes, encodeWrappedVault wrapper.wrapped = .ok bytes ∧ decodeWrappedVault bytes = .ok wrapper.wrapped) ∧
    ∀ place vault, (place, vault) ∈ h.opened →
      (∀ passphrase ∈ passphrases, ∀ salt, ∃ wrapped, prim.changePassphrase vault passphrase salt = .ok wrapped) ∧
      ∀ recordId plaintext nonce, ∃ stored, prim.encryptRecord vault recordId plaintext nonce = .ok stored := by
  have hempty : Coherent prim passphrases {} := by
    refine ⟨fun _ _ hmem => ?_, fun _ hmem => ?_, fun _ hmem => ?_, fun _ hmem => ?_⟩
    all_goals exact absurd hmem List.not_mem_nil
  have hcoherent := Runs.preserved (fun _ _ step coherent => Step.coherent lawful separates step coherent) run hempty
  refine ⟨fun wrapper hmem => ?_, fun place vault hmem => ?_⟩
  · obtain ⟨dataKey, hkey, hwraps⟩ := hcoherent.wrappers wrapper hmem
    refine ⟨⟨dataKey, hkey, hwraps.unlock lawful, fun record hrecord hvault => ?_⟩, fun passphrase used hne => ?_,
      hwraps.encoded lawful⟩
    · obtain ⟨key, nonce, hkey', hencrypted⟩ := hcoherent.records record hrecord
      rw [hvault, hkey] at hkey'
      obtain rfl := Option.some.inj hkey'
      exact decryptRecord_encrypted lawful hencrypted
    · exact ⟨_, hwraps.locked lawful separates used hne⟩
  · obtain ⟨dataKey, _, rfl⟩ := hcoherent.opened place vault hmem
    refine ⟨fun passphrase used salt => changePassphrase_ok lawful separates used dataKey salt, fun recordId plaintext nonce => ?_⟩
    exact ⟨_, encryptRecord_eq lawful _ recordId plaintext nonce⟩

theorem fitting_separates : fitting.Separates {[1], [2]} := by
  have hderive : ∀ passphrase salt raw, fitting.passphraseKdf passphrase salt argon2Profile 32 = .ok raw →
      raw = fit 32 passphrase := fun _ _ _ h => (Except.ok.inj h).symm
  have hkek : ∀ passphrase salt kek, fitting.deriveKek passphrase salt argon2Profile = .ok kek →
      kek = fit 32 (fit 32 passphrase) := fun _ _ _ h => (Except.ok.inj h).symm
  refine ⟨fun passphrase _ _ _ => ⟨fit 32 passphrase, rfl⟩, ?_, ?_, ?_⟩
  · intro passphrase hmem passphrase' hmem' salt raw h h'
    have heq := (hderive _ _ _ h).symm.trans (hderive _ _ _ h')
    rcases hmem with rfl | rfl <;> rcases hmem' with rfl | rfl <;> revert heq <;> decide
  · intro passphrase hmem passphrase' hmem' salt raw raw' h h' heq
    rw [hderive _ _ _ h, hderive _ _ _ h'] at heq ⊢
    have hfit : fit 32 (fit 32 passphrase) = fit 32 (fit 32 passphrase') := heq
    rcases hmem with rfl | rfl <;> rcases hmem' with rfl | rfl <;> revert hfit <;> decide
  · intro passphrase hmem passphrase' hmem' salt kek kek' h h' hne nonce plaintext associatedData
    have hkeks : fit 8 kek ≠ fit 8 kek' := by
      rw [hkek _ _ _ h, hkek _ _ _ h'] at hne ⊢
      rcases hmem with rfl | rfl <;> rcases hmem' with rfl | rfl
      · exact absurd rfl hne
      · decide
      · decide
      · exact absurd rfl hne
    have htag : (fit 8 kek ++ fit 8 associatedData ++ plaintext).take 16 ≠ fit 8 kek' ++ fit 8 associatedData := by
      rw [List.take_left' (by rw [List.length_append, fit_length, fit_length])]
      exact fun heq => hkeks (List.append_inj heq (by rw [fit_length, fit_length])).1
    exact if_neg htag

/-- A record is written, then the passphrase is changed: the new wrapper gives the record back, and not with the old
passphrase. -/
theorem records_survive_changed : ∃ h : VaultHistory, Relation.ReflTransGen (Step fitting {[1], [2]}) {} h ∧
    ∃ wrapper ∈ h.wrappers, wrapper.passphrase = [2] ∧
      (∃ record ∈ h.records, ∃ vault, fitting.unlockVault [2] wrapper.wrapped = .ok vault ∧
        fitting.decryptRecord vault record.recordId record.stored = .ok record.plaintext) ∧
      ∃ message, fitting.unlockVault [1] wrapper.wrapped = .error (.vaultLocked message) := by
  have hold : ([1] : Bytes) ∈ ({[1], [2]} : Set Bytes) := Or.inl rfl
  have hnew : ([2] : Bytes) ∈ ({[1], [2]} : Set Bytes) := Or.inr rfl
  have hne : ([1] : Bytes) ≠ [2] := by decide
  let dataKey : RandomBytes aeadKeyLength := ⟨List.replicate 32 7, rfl⟩
  let salt : RandomBytes saltLength := ⟨List.replicate 16 0, rfl⟩
  obtain ⟨wrapped, hcreated⟩ := createVault_ok fitting_lawful fitting_separates hold dataKey salt
  obtain ⟨rewrapped, hchanged⟩ := changePassphrase_ok fitting_lawful fitting_separates hnew dataKey salt
  have hencrypted := encryptRecord_eq fitting_lawful ⟨dataKey⟩ "msg:1" [5] ⟨List.replicate 24 0, rfl⟩
  have hrun := ((Relation.ReflTransGen.refl.tail (Step.create {} [1] hold salt dataKey _ wrapped hcreated)).tail
    (Step.write _ 0 ⟨dataKey⟩ List.mem_cons_self "msg:1" [5] _ _ hencrypted)).tail
    (Step.change _ 0 ⟨dataKey⟩ List.mem_cons_self [2] hnew salt rewrapped hchanged)
  obtain ⟨⟨key, _, hunlocked, hrecords⟩, hlocked, _⟩ :=
    (records_survive fitting_lawful fitting_separates hrun).1 _ List.mem_cons_self
  exact ⟨_, hrun, _, List.mem_cons_self, rfl, ⟨_, List.mem_cons_self, _, hunlocked, hrecords _ List.mem_cons_self rfl⟩,
    hlocked [1] hold hne⟩

end VaultHistory

end Veil
