import Veil.Handshake
import Veil.HandshakeReuse

namespace Veil

/-- A word that can be told apart from what follows it: it ends in 255, and 255 and 254 are escaped inside. -/
def delimited : Bytes → Bytes
  | [] => [255]
  | b :: bytes => if b = 255 then 254 :: 0 :: delimited bytes else if b = 254 then 254 :: 1 :: delimited bytes
    else b :: delimited bytes

theorem delimited_append_inj {a b rest rest' : Bytes} (h : delimited a ++ rest = delimited b ++ rest') :
    a = b ∧ rest = rest' := by
  induction a generalizing b with
  | nil =>
    cases b with
    | nil => exact ⟨rfl, by simpa [delimited] using h⟩
    | cons y ys =>
      simp only [delimited] at h
      split at h
      next => simp at h
      next hne =>
        split at h
        next => simp at h
        next => exact absurd (List.cons.inj h).1.symm hne
  | cons x xs ih =>
    have hhead : ∃ ys, b = x :: ys ∧ delimited xs ++ rest = delimited ys ++ rest' := by
      cases b with
      | nil =>
        simp only [delimited] at h
        split at h
        next => simp at h
        next hne =>
          split at h
          next => simp at h
          next => exact absurd (List.cons.inj h).1 hne
      | cons y ys =>
        simp only [delimited] at h
        have hxy : x = y ∧ delimited xs ++ rest = delimited ys ++ rest' := by
          by_cases hx : x = 255 <;> by_cases hy : y = 255 <;> by_cases hx' : x = 254 <;> by_cases hy' : y = 254 <;>
            simp_all
        exact ⟨ys, by rw [hxy.1], hxy.2⟩
    obtain ⟨ys, rfl, htail⟩ := hhead
    exact ⟨by rw [(ih htail).1], (ih htail).2⟩

def spelledList : List Bytes → Bytes
  | [] => [0]
  | word :: words => 1 :: (delimited word ++ spelledList words)

theorem spelledList_append_inj {a b : List Bytes} {rest rest' : Bytes}
    (h : spelledList a ++ rest = spelledList b ++ rest') : a = b ∧ rest = rest' := by
  induction a generalizing b with
  | nil =>
    cases b with
    | nil => exact ⟨rfl, by simpa [spelledList] using h⟩
    | cons y ys => simp [spelledList] at h
  | cons x xs ih =>
    cases b with
    | nil => simp [spelledList] at h
    | cons y ys =>
      simp only [spelledList, List.cons_append, List.append_assoc, List.cons.injEq, true_and] at h
      obtain ⟨rfl, htail⟩ := delimited_append_inj h
      obtain ⟨rfl, hrest⟩ := ih htail
      exact ⟨rfl, hrest⟩

/-- Primitives whose keys spell out what they were derived from. A secret is one byte, the last byte of its
public key; a ciphertext begins with its key and its associated data. -/
def spelled : Cryptography Bytes where
  publicKeyOf secret := List.replicate 31 0 ++ [secret.headD 0]
  dh secret publicKey :=
    if publicKey.getLastD 0 = 0 then .error (.malformedInput "degenerate DH output")
    else if secret.headD 0 ≤ publicKey.getLastD 0 then .ok [secret.headD 0, publicKey.getLastD 0]
    else .ok [publicKey.getLastD 0, secret.headD 0]
  advanceRootChain rootKey dhOutput := ⟨1 :: (delimited dhOutput ++ rootKey), 2 :: (delimited dhOutput ++ rootKey)⟩
  advanceChain chainKey := ⟨3 :: chainKey, 4 :: chainKey⟩
  deriveMessageKeys messageKey := ⟨messageKey, []⟩
  aeadEncrypt key _ plaintext ad := .ok (delimited key ++ (ad ++ plaintext))
  aeadDecrypt key _ ciphertext ad :=
    if (delimited key ++ ad).isPrefixOf ciphertext then .ok (ciphertext.drop (delimited key ++ ad).length)
    else .error (.authentication "message failed authentication")
  wiped _ := []
  signingPublicKey secret := List.replicate 31 0 ++ [secret.headD 0]
  sign secret message := .ok [message.foldl (fun sum b => sum + b) (secret.headD 0)]
  verify publicKey message signature :=
    signature = [message.foldl (fun sum b => sum + b) (publicKey.getLastD 0)]
  kemEncapsulate coins publicKey := .ok (coins, publicKey.getLastD 0 :: coins)
  kemDecapsulate ciphertext secret := .ok (secret.headD 0 :: ciphertext)
  deriveRootSecret secrets transcript := 5 :: (spelledList secrets ++ transcript)
  deriveEnvelopeKeys secret salt := ⟨secret, salt⟩
  hash256 bytes := bytes.reverse
  hash512 bytes := bytes.reverse

def spelledPair (length : Nat) (secret : UInt8) : KeyPair Bytes :=
  ⟨List.replicate (length - 1) 0 ++ [secret], [secret]⟩

def spelledGenerators : Generators Bytes where
  dh pair := pair.secretKey.headD 0 ≠ 0 ∧ pair = spelledPair 32 (pair.secretKey.headD 0)
  signing pair := pair = spelledPair 32 (pair.secretKey.headD 0)
  kem pair := pair = spelledPair 1568 (pair.secretKey.headD 0)

instance : DecidablePred spelledGenerators.dh := fun _ => inferInstanceAs (Decidable (_ ∧ _))

theorem spelledPair_last (length : Nat) (secret : UInt8) : (spelledPair length secret).publicKey.getLastD 0 = secret := by
  simp [spelledPair]

theorem spelled_dh {secret publicKey out : Bytes} (h : spelled.dh secret publicKey = .ok out) :
    publicKey.getLastD 0 ≠ 0 ∧
      (out = [secret.headD 0, publicKey.getLastD 0] ∨ out = [publicKey.getLastD 0, secret.headD 0]) := by
  simp only [spelled] at h
  split at h
  next => simp at h
  next hne =>
    refine ⟨hne, ?_⟩
    split at h
    next => exact Or.inl (Except.ok.inj h).symm
    next => exact Or.inr (Except.ok.inj h).symm

theorem spelled_opens {key nonce ciphertext ad opened : Bytes}
    (h : spelled.aeadDecrypt key nonce ciphertext ad = .ok opened) :
    ciphertext = delimited key ++ (ad ++ opened) := by
  simp only [spelled] at h
  split at h
  next hprefix =>
    obtain ⟨rest, hrest⟩ := List.isPrefixOf_iff_prefix.mp hprefix
    rw [← hrest, List.drop_left] at h
    rw [← hrest, Except.ok.inj h, List.append_assoc]
  next => simp at h

theorem spelled_lawful : spelled.Lawful spelledGenerators where
  ratchet := {
    dh_agree := by
      rintro a b ⟨ha, hpa⟩ ⟨hb, hpb⟩
      rw [hpa, hpb]
      generalize a.secretKey.headD 0 = x at ha ⊢
      generalize b.secretKey.headD 0 = y at hb ⊢
      have hx : (spelledPair 32 x).secretKey.headD 0 = x := rfl
      have hy : (spelledPair 32 y).secretKey.headD 0 = y := rfl
      simp only [spelled, spelledPair_last, hx, hy, if_neg ha, if_neg hb]
      rcases Nat.lt_trichotomy x.toNat y.toNat with hlt | heq | hlt
      · have hle : x ≤ y := UInt8.le_iff_toNat_le.mpr (by omega)
        have hnle : ¬ y ≤ x := fun h => by have := UInt8.le_iff_toNat_le.mp h; omega
        exact ⟨_, by rw [if_pos hle], by rw [if_neg hnle]⟩
      · have hxy : x = y := UInt8.toNat_inj.mp heq
        subst hxy
        exact ⟨[x, x], by rw [ite_self], by rw [ite_self]⟩
      · have hle : y ≤ x := UInt8.le_iff_toNat_le.mpr (by omega)
        have hnle : ¬ x ≤ y := fun h => by have := UInt8.le_iff_toNat_le.mp h; omega
        exact ⟨_, by rw [if_neg hnle], by rw [if_pos hle]⟩
    publicKey_length := by
      rintro a ⟨_, hpa⟩
      rw [hpa]
      rfl
    aead := by
      intro key nonce plaintext ad ciphertext h
      simp only [spelled, Except.ok.injEq] at h
      subst h
      have hprefix : (delimited key ++ ad).isPrefixOf (delimited key ++ (ad ++ plaintext)) = true :=
        List.isPrefixOf_iff_prefix.mpr ⟨plaintext, by rw [List.append_assoc]⟩
      simp only [spelled, hprefix, ↓reduceIte]
      rw [← List.append_assoc, List.drop_left] }
  sign_verify := by
    intro pair h message
    refine ⟨_, rfl, ?_⟩
    rw [h]
    simp [spelled, spelledPair]
  signing_length := by
    intro pair h
    rw [h]
    rfl
  kem_agree := by
    intro pair h coins
    refine ⟨coins, pair.secretKey.headD 0 :: coins, ?_, rfl⟩
    rw [h]
    simp only [spelled, spelledPair_last]
    rfl
  kem_length := by
    intro pair h
    rw [h]
    simp only [spelledPair, List.length_append, List.length_replicate, List.length_singleton]

theorem spelled_separating : spelled.Separating spelledGenerators where
  opens_once := by
    intro key key' nonce nonce' ciphertext ad ad' opened opened' h h'
    exact (delimited_append_inj ((spelled_opens h).symm.trans (spelled_opens h'))).1
  aeadKey _ _ h := h
  messageKey _ _ h := (List.cons.inj h).2
  nextChainKey _ _ h := (List.cons.inj h).2
  chainKey _ _ _ _ h := (delimited_append_inj (List.cons.inj h).2).2
  rootSecret _ _ _ _ h := spelledList_append_inj (List.cons.inj h).2
  rootSecret_ne _ _ _ _ h := absurd (List.cons.inj h).1 (by decide)
  wiped := by
    rintro pair ⟨hne, -⟩ key publicKey secret secret' h h' rfl
    obtain ⟨hy, hout⟩ := spelled_dh h
    obtain ⟨_, hout'⟩ := spelled_dh h'
    have hwiped : (spelled.wiped key).headD 0 = 0 := rfl
    rw [hwiped] at hout'
    rcases hout with rfl | rfl <;> simp_all

def spelledIdentity (signing exchange : UInt8) : PrivateIdentity Bytes :=
  match createIdentity spelled (spelledPair 32 signing) (spelledPair 32 exchange) with
  | .ok identity => identity
  | .error _ => ⟨spelledPair 32 signing, spelledPair 32 exchange, []⟩

def spelledStore (self : PrivateIdentity Bytes) (signed kem : UInt8) (oneTime oneTimeKem : List UInt8) :
    InMemoryPreKeyStore Bytes :=
  match InMemoryPreKeyStore.create spelled self (spelledPair 32 signed) (spelledPair 1568 kem)
    (oneTime.map (spelledPair 32)) (oneTimeKem.map (spelledPair 1568)) with
  | .ok store => store
  | .error _ => {}

theorem spelledStore_created {self : PrivateIdentity Bytes} {signed kem : UInt8} {oneTime oneTimeKem : List UInt8}
    (h : (InMemoryPreKeyStore.create spelled self (spelledPair 32 signed) (spelledPair 1568 kem)
      (oneTime.map (spelledPair 32)) (oneTimeKem.map (spelledPair 1568))).isOk = true) :
    InMemoryPreKeyStore.create spelled self (spelledPair 32 signed) (spelledPair 1568 kem)
      (oneTime.map (spelledPair 32)) (oneTimeKem.map (spelledPair 1568)) =
      .ok (spelledStore self signed kem oneTime oneTimeKem) := by
  unfold spelledStore
  split
  next store hstore => rw [hstore]
  next e he =>
    rw [he] at h
    cases h

def alice : PrivateIdentity Bytes := spelledIdentity 1 2

def bob : PrivateIdentity Bytes := spelledIdentity 11 12

theorem alice_honest : alice.Honest spelled spelledGenerators where
  signing := rfl
  exchange := ⟨by decide, rfl⟩
  created := by rfl

theorem bob_honest : bob.Honest spelled spelledGenerators where
  signing := rfl
  exchange := ⟨by decide, rfl⟩
  created := by rfl

theorem spelledPair_kem (secret : UInt8) : spelledGenerators.kem (spelledPair 1568 secret) := by
  have hsecret : (spelledPair 1568 secret).secretKey.headD 0 = secret := rfl
  simp only [spelledGenerators, hsecret]

def aliceAddress : String := "aeaaaaaaaaaaaaaaaaaaaaaaaa"

def bobAddress : String := "bnaaaaaaaaaaaaaaaaaaaaaaaa"

def bobStore : InMemoryPreKeyStore Bytes := spelledStore bob 13 14 [] []

theorem bobStore_created : InMemoryPreKeyStore.create spelled bob (spelledPair 32 13) (spelledPair 1568 14) [] [] =
    .ok bobStore :=
  @spelledStore_created _ _ _ [] [] (by decide +kernel)

def bobBundle : PreKeyBundle := (bobStore.issueBundle (publicIdentityOf bob)).1

end Veil
