import Mathlib
import Veil.SafetyNumber
import Veil.Spelled

namespace Veil

/-- The loop over the digest, with the digits so far and the offset reached. -/
def encodeDigitsFrom (digest : Bytes) (count : Nat) (out : List Char) (offset : Nat) : Except Failure (List Char) :=
  if out.length < count then
    if digest.length < offset + 5 then .error (.malformedInput "digest exhausted while encoding safety number")
    else encodeDigitsFrom digest count (out ++ groupDigits ((digest.drop offset).take 5)) (offset + 5)
  else .ok (out.take count)
termination_by digest.length - offset

theorem length_groupDigits (group : Bytes) : (groupDigits group).length = 5 := by
  have hsmall : Reader.bigEndian group % 100000 < 10 ^ 5 := Nat.mod_lt _ (by omega)
  have hlength := (Nat.length_toDigits_le_iff (by omega) (by omega)).mpr hsmall
  simp only [groupDigits, List.length_append, List.length_replicate]
  omega

theorem isDigit_of_mem_groupDigits {group : Bytes} {digit : Char} (h : digit ∈ groupDigits group) :
    digit.isDigit := by
  rcases List.mem_append.mp h with h | h
  · rw [List.eq_of_mem_replicate h]
    decide
  · exact Nat.isDigit_of_mem_toDigits (by omega) (by omega) h

/-- A digest that holds the groups asked for is never exhausted. -/
theorem encodeGroups_ok {needed : Nat} {digest : Bytes} (h : 5 * needed ≤ digest.length) :
    ∃ digits, encodeGroups needed digest = .ok digits ∧ digits.length = 5 * needed ∧
      ∀ digit ∈ digits, digit.isDigit := by
  induction needed generalizing digest with
  | zero => exact ⟨[], rfl, rfl, List.forall_mem_nil _⟩
  | succ needed ih =>
    have hrest : 5 * needed ≤ (digest.drop 5).length := by
      rw [List.length_drop]
      omega
    obtain ⟨rest, hok, hlength, hdigits⟩ := ih hrest
    refine ⟨groupDigits (digest.take 5) ++ rest, ?_, ?_, ?_⟩
    · rw [encodeGroups, if_neg (by omega), hok]
      rfl
    · rw [List.length_append, length_groupDigits, hlength]
      omega
    · intro digit hmem
      rcases List.mem_append.mp hmem with hmem | hmem
      · exact isDigit_of_mem_groupDigits hmem
      · exact hdigits digit hmem

/-- The loop takes exactly the groups that are missing, whatever it already holds. -/
theorem encodeDigitsFrom_eq (digest : Bytes) (count : Nat) (out : List Char) (offset : Nat) :
    encodeDigitsFrom digest count out offset =
      (encodeGroups ((count - out.length + 4) / 5) (digest.drop offset)).map fun rest => (out ++ rest).take count := by
  induction out, offset using encodeDigitsFrom.induct digest count with
  | case1 out offset hmore hshort =>
    have hpositive : (count - out.length + 4) / 5 ≠ 0 := by omega
    obtain ⟨needed, hneeded⟩ := Nat.exists_eq_succ_of_ne_zero hpositive
    have hdrop : (digest.drop offset).length < 5 := by
      rw [List.length_drop]
      omega
    rw [encodeDigitsFrom, if_pos hmore, if_pos hshort, hneeded, encodeGroups, if_pos hdrop]
    rfl
  | case2 out offset hmore hlong ih =>
    have hpositive : (count - out.length + 4) / 5 ≠ 0 := by omega
    obtain ⟨needed, hneeded⟩ := Nat.exists_eq_succ_of_ne_zero hpositive
    have hdrop : ¬ (digest.drop offset).length < 5 := by
      rw [List.length_drop]
      omega
    have hnext : (count - (out ++ groupDigits ((digest.drop offset).take 5)).length + 4) / 5 = needed := by
      rw [List.length_append, length_groupDigits]
      omega
    rw [encodeDigitsFrom, if_pos hmore, if_neg hlong, ih, hnext, hneeded, encodeGroups, if_neg hdrop, List.drop_drop]
    cases encodeGroups needed (digest.drop (offset + 5)) with
    | error e => rfl
    | ok rest => exact congrArg (fun joined => Except.ok (List.take count joined)) (List.append_assoc out _ rest)
  | case3 out offset hdone =>
    have hnone : (count - out.length + 4) / 5 = 0 := by omega
    rw [encodeDigitsFrom, if_neg hdone, hnone]
    exact congrArg (fun joined => Except.ok (List.take count joined)) (List.append_nil out).symm

theorem encodeDigits_eq_loop (digest : Bytes) (count : Nat) :
    encodeDigits digest count = (encodeDigitsFrom digest count [] 0).map String.ofList := by
  rw [encodeDigitsFrom_eq, encodeDigits, List.length_nil, Nat.sub_zero, List.drop_zero]
  cases encodeGroups ((count + 4) / 5) digest with
  | error e => rfl
  | ok digits => rfl

/-- A string of exactly `length` decimal digits. -/
def Decimal (length : Nat) (text : String) : Prop :=
  text.toList.length = length ∧ ∀ digit ∈ text.toList, digit.isDigit

theorem Decimal.append {left right : Nat} {text other : String} (h : Decimal left text) (h' : Decimal right other) :
    Decimal (left + right) (text ++ other) := by
  constructor
  · rw [String.toList_append, List.length_append, h.1, h'.1]
  · intro digit hmem
    rw [String.toList_append] at hmem
    rcases List.mem_append.mp hmem with hmem | hmem
    · exact h.2 digit hmem
    · exact h'.2 digit hmem

theorem encodeDigits_ok {digest : Bytes} {count : Nat} (h : 5 * ((count + 4) / 5) ≤ digest.length) :
    ∃ text, encodeDigits digest count = .ok text ∧ Decimal count text := by
  obtain ⟨digits, hok, hlength, hdigits⟩ := encodeGroups_ok h
  refine ⟨String.ofList (digits.take count), ?_, ?_, fun digit hmem => ?_⟩
  · rw [encodeDigits, hok]
    rfl
  · rw [String.toList_ofList, List.length_take]
    omega
  · rw [String.toList_ofList] at hmem
    exact hdigits digit (List.mem_of_mem_take hmem)

section

variable {K : Type} {crypto : Cryptography K}

theorem iteratedFingerprint_ok (hash64 : ∀ input, (crypto.hash512 input).length = 64) {signingPublicKey : Bytes}
    (h : signingPublicKey.length = 32) :
    ∃ digest, iteratedFingerprint crypto signingPublicKey = .ok digest ∧ digest.length = 64 := by
  refine ⟨_, if_neg (not_not_intro h), ?_⟩
  have hrounds : fingerprintIterations = 5199 + 1 := rfl
  rw [hrounds, Function.iterate_succ_apply']
  exact hash64 _

theorem identityFingerprint_ok (hash64 : ∀ input, (crypto.hash512 input).length = 64) {signingPublicKey : Bytes}
    (h : signingPublicKey.length = 32) :
    ∃ fingerprint, identityFingerprint crypto signingPublicKey = .ok fingerprint ∧ Decimal 30 fingerprint := by
  obtain ⟨digest, hdigest, hlength⟩ := iteratedFingerprint_ok hash64 h
  have hholds : 5 * ((digitsPerParty + 4) / 5) ≤ digest.length := by
    rw [hlength]
    decide
  obtain ⟨fingerprint, hok, hdecimal⟩ := encodeDigits_ok hholds
  refine ⟨fingerprint, ?_, hdecimal⟩
  rw [identityFingerprint, hdigest]
  exact hok

end

/-- Two fingerprints, the smaller first. -/
def inOrder (fa fb : String) : String := if fa < fb then fa ++ fb else fb ++ fa

theorem inOrder_comm (fa fb : String) : inOrder fa fb = inOrder fb fa := by
  unfold inOrder
  rcases lt_trichotomy fa fb with h | rfl | h
  · rw [if_pos h, if_neg h.asymm]
  · rfl
  · rw [if_neg h.asymm, if_pos h]

theorem Decimal.inOrder {length : Nat} {fa fb : String} (ha : Decimal length fa) (hb : Decimal length fb) :
    Decimal (length + length) (inOrder fa fb) := by
  unfold Veil.inOrder
  split
  · exact ha.append hb
  · exact hb.append ha

theorem multiset_pair_eq_iff {α : Type} {a b c d : α} :
    ({a, b} : Multiset α) = {c, d} ↔ a = c ∧ b = d ∨ a = d ∧ b = c := by
  show ((↑[a, b] : Multiset α) = ↑[c, d]) ↔ _
  rw [Multiset.coe_eq_coe, List.perm_pair]
  simp only [List.cons.injEq, and_true]

theorem append_inj_of_decimal {length : Nat} {fa fb fc fd : String} (ha : Decimal length fa) (hc : Decimal length fc)
    (h : fa ++ fb = fc ++ fd) : fa = fc ∧ fb = fd := by
  have hlists : fa.toList ++ fb.toList = fc.toList ++ fd.toList := by
    rw [← String.toList_append, ← String.toList_append, h]
  obtain ⟨hleft, hright⟩ := List.append_inj hlists (ha.1.trans hc.1.symm)
  exact ⟨String.toList_inj.mp hleft, String.toList_inj.mp hright⟩

/-- Strings of one length in order: the join determines the pair, and nothing about which came first. -/
theorem inOrder_eq_iff {length : Nat} {fa fb fc fd : String} (ha : Decimal length fa) (hb : Decimal length fb)
    (hc : Decimal length fc) (hd : Decimal length fd) :
    inOrder fa fb = inOrder fc fd ↔ ({fa, fb} : Multiset String) = {fc, fd} := by
  rw [multiset_pair_eq_iff]
  constructor
  · intro h
    unfold inOrder at h
    split at h <;> split at h
    · exact Or.inl (append_inj_of_decimal ha hc h)
    · exact Or.inr (append_inj_of_decimal ha hd h)
    · exact Or.inr (append_inj_of_decimal hb hc h).symm
    · exact Or.inl (append_inj_of_decimal hb hd h).symm
  · rintro (⟨rfl, rfl⟩ | ⟨rfl, rfl⟩)
    · rfl
    · exact inOrder_comm _ _

section

variable {K : Type} {crypto : Cryptography K}

theorem safetyNumber_eq {a b : PublicIdentity} {fa fb : String}
    (ha : identityFingerprint crypto a.signingPublicKey = .ok fa)
    (hb : identityFingerprint crypto b.signingPublicKey = .ok fb) :
    safetyNumber crypto a b = .ok (inOrder fa fb) := by
  rw [safetyNumber, ha, hb]
  rfl

/-- A safety number is sixty digits, the same from both sides, and says exactly which two fingerprints are compared. -/
theorem safetyNumber_characterises (hash64 : ∀ input, (crypto.hash512 input).length = 64) {a b c d : PublicIdentity}
    (ha : a.signingPublicKey.length = 32) (hb : b.signingPublicKey.length = 32)
    (hc : c.signingPublicKey.length = 32) (hd : d.signingPublicKey.length = 32) :
    ∃ fa fb fc fd number other,
      identityFingerprint crypto a.signingPublicKey = .ok fa ∧ identityFingerprint crypto b.signingPublicKey = .ok fb ∧
      identityFingerprint crypto c.signingPublicKey = .ok fc ∧ identityFingerprint crypto d.signingPublicKey = .ok fd ∧
      safetyNumber crypto a b = .ok number ∧ safetyNumber crypto b a = .ok number ∧
      safetyNumber crypto c d = .ok other ∧ Decimal 60 number ∧
      (number = other ↔ ({fa, fb} : Multiset String) = {fc, fd}) := by
  obtain ⟨fa, hfa, hda⟩ := identityFingerprint_ok hash64 ha
  obtain ⟨fb, hfb, hdb⟩ := identityFingerprint_ok hash64 hb
  obtain ⟨fc, hfc, hdc⟩ := identityFingerprint_ok hash64 hc
  obtain ⟨fd, hfd, hdd⟩ := identityFingerprint_ok hash64 hd
  refine ⟨fa, fb, fc, fd, inOrder fa fb, inOrder fc fd, hfa, hfb, hfc, hfd, safetyNumber_eq hfa hfb, ?_,
    safetyNumber_eq hfc hfd, hda.inOrder hdb, inOrder_eq_iff hda hdb hdc hdd⟩
  rw [inOrder_comm]
  exact safetyNumber_eq hfb hfa

end

/-- The spelled tools with digests of sixty-four bytes. -/
def wideDigests : Cryptography Bytes :=
  { spelled with hash512 := fun input => (input.reverse ++ List.replicate 64 0).take 64 }

def keyed (byte : UInt8) : PublicIdentity :=
  { signingPublicKey := List.replicate 32 byte, exchangePublicKey := [], exchangeKeySignature := [] }

theorem safetyNumber_characterises_pair :
    ∃ fa fb fc fd number other,
      identityFingerprint wideDigests (keyed 1).signingPublicKey = .ok fa ∧
      identityFingerprint wideDigests (keyed 2).signingPublicKey = .ok fb ∧
      identityFingerprint wideDigests (keyed 3).signingPublicKey = .ok fc ∧
      identityFingerprint wideDigests (keyed 3).signingPublicKey = .ok fd ∧
      safetyNumber wideDigests (keyed 1) (keyed 2) = .ok number ∧
      safetyNumber wideDigests (keyed 2) (keyed 1) = .ok number ∧
      safetyNumber wideDigests (keyed 3) (keyed 3) = .ok other ∧ Decimal 60 number ∧
      (number = other ↔ ({fa, fb} : Multiset String) = {fc, fd}) := by
  have hash64 (input : Bytes) : (wideDigests.hash512 input).length = 64 := by
    show ((input.reverse ++ List.replicate 64 0).take 64).length = 64
    rw [List.length_take, List.length_append, List.length_replicate]
    omega
  have hkey (byte : UInt8) : (keyed byte).signingPublicKey.length = 32 := List.length_replicate
  exact safetyNumber_characterises hash64 (hkey 1) (hkey 2) (hkey 3) (hkey 3)

end Veil
