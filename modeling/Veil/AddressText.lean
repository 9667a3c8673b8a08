import Mathlib
import Veil.WireLength
import Veil.Library.Regroup

namespace Veil

open Regroup (toBits ofBits groups)

/-- The digit of a group of five bits. -/
def base32Digit (group : List Bool) : Char := base32.getD (ofBits group) 'a'

/-- The bits of a byte string, most significant first. -/
def bitsOf (bytes : Bytes) : List Bool := bytes.flatMap (fun byte => toBits 8 byte.toNat)

/-- One turn of the loop over the bytes: the digits so far, the accumulator, and how many of its bits are not out yet. -/
def base32Turn (state : List Char × UInt32 × Nat) (byte : UInt8) : List Char × UInt32 × Nat :=
  let value : UInt32 := (state.2.1 <<< 8) ||| byte.toUInt32
  let (digits, rest) := base32Digits value (state.2.2 + 8)
  (state.1 ++ digits, value, rest)

theorem toBase32_eq (bytes : Bytes) : toBase32 bytes =
    let last := bytes.foldl base32Turn ([], 0, 0)
    String.ofList (if last.2.2 > 0 then
      last.1 ++ [base32.getD ((last.2.1 <<< UInt32.ofNat (5 - last.2.2)) &&& 31).toNat 'a'] else last.1) := rfl

/-- The same with the accumulator a signed number, as the operators of the language have it. -/
def signedTurn (state : List Char × Int32 × Nat) (byte : UInt8) : List Char × Int32 × Nat :=
  let value : Int32 := (state.2.1 <<< 8) ||| byte.toUInt32.toInt32
  let (digits, rest) := base32Digits value.toUInt32 (state.2.2 + 8)
  (state.1 ++ digits, value, rest)

def toBase32Signed (bytes : Bytes) : String :=
  let last := bytes.foldl signedTurn ([], 0, 0)
  String.ofList (if last.2.2 > 0 then
    last.1 ++ [base32.getD ((last.2.1 <<< Int32.ofNat (5 - last.2.2)) &&& 31).toUInt32.toNat 'a'] else last.1)

/-- Bits as whole groups of five and fewer bits after them. -/
structure Grouped (bits : List Bool) (wholes : List (List Bool)) (rest : List Bool) : Prop where
  same : bits = wholes.flatten ++ rest
  whole : ∀ whole ∈ wholes, whole.length = 5
  short : rest.length < 5

/-- The whole groups of the bits so far are out, and the low bits of the accumulator are the rest. -/
def Emitted (bits : List Bool) (state : List Char × UInt32 × Nat) : Prop :=
  ∃ wholes rest, Grouped bits wholes rest ∧ state.1 = wholes.map base32Digit ∧ state.2.2 = rest.length ∧
    state.2.1.toNat % 2 ^ rest.length = ofBits rest

theorem shifted_mask (value : UInt32) {bits : Nat} (h : bits < 32) :
    ((value >>> UInt32.ofNat bits) &&& 31).toNat = value.toNat / 2 ^ bits % 32 := by
  have hbits : (UInt32.ofNat bits).toNat % 32 = bits := by
    rw [UInt32.toNat_ofNat']
    omega
  have hmask : (31 : UInt32).toNat = 2 ^ 5 - 1 := rfl
  rw [UInt32.toNat_and, UInt32.toNat_shiftRight, hbits, hmask, Nat.and_two_pow_sub_one_eq_mod,
    Nat.shiftRight_eq_div_pow]

/-- A value whose low bits are known gives the digits of their whole groups. -/
theorem base32Digits_grouped {value : UInt32} {bits : Nat} (hfew : bits < 32) {low : List Bool} (hlength : low.length = bits)
    (hlow : value.toNat % 2 ^ bits = ofBits low) :
    ∃ wholes rest, Grouped low wholes rest ∧ base32Digits value bits = (wholes.map base32Digit, rest.length) ∧
      value.toNat % 2 ^ rest.length = ofBits rest := by
  fun_induction base32Digits value bits generalizing low with
  | case1 bits digits left heq ih =>
    obtain ⟨group, later, rfl, hgroup⟩ : ∃ group later, low = group ++ later ∧ group.length = 5 :=
      ⟨low.take 5, low.drop 5, (List.take_append_drop 5 low).symm, by rw [List.length_take]; omega⟩
    have hlater : later.length = bits := by
      rw [List.length_append] at hlength
      omega
    have hlt := Regroup.ofBits_lt later
    rw [hlater] at hlt
    rw [Regroup.ofBits_append, hlater] at hlow
    have hrest : value.toNat % 2 ^ bits = ofBits later := by
      calc value.toNat % 2 ^ bits = value.toNat % 2 ^ (bits + 5) % 2 ^ bits :=
            (Nat.mod_mod_of_dvd _ (Nat.pow_dvd_pow 2 (Nat.le_add_right bits 5))).symm
        _ = ofBits later := by rw [hlow, Nat.add_comm, Nat.add_mul_mod_self_right, Nat.mod_eq_of_lt hlt]
    have hfirst : value.toNat / 2 ^ bits % 32 = ofBits group := by
      have hsplit : value.toNat % (2 ^ bits * 32) / 2 ^ bits = value.toNat / 2 ^ bits % 32 := Nat.mod_mul_right_div_self ..
      have hpower : 2 ^ bits * 32 = 2 ^ (bits + 5) := (Nat.pow_add 2 bits 5).symm
      rw [← hsplit, hpower, hlow, Nat.add_comm, Nat.add_mul_div_right _ _ (Nat.two_pow_pos bits), Nat.div_eq_of_lt hlt,
        Nat.zero_add]
    obtain ⟨wholes, rest, hgrouped, hdigits, hvalue⟩ := ih (by omega) hlater hrest
    refine ⟨group :: wholes, rest, ⟨?_, ?_, hgrouped.short⟩, ?_, hvalue⟩
    · rw [hgrouped.same, List.flatten_cons, List.append_assoc]
    · exact List.forall_mem_cons.mpr ⟨hgroup, hgrouped.whole⟩
    · rw [heq] at hdigits
      obtain ⟨rfl, rfl⟩ := Prod.mk.inj hdigits
      rw [shifted_mask value (by omega), hfirst]
      rfl
  | case2 bits h =>
    have hshort : bits < 5 := by
      by_contra hlong
      exact h (bits - 5) (by omega)
    subst hlength
    exact ⟨[], low, ⟨rfl, List.forall_mem_nil _, hshort⟩, rfl, hlow⟩

/-- The bits shifted past the top are out already: what is read again is the low ones and the new byte. -/
theorem Emitted.turn {bits : List Bool} {state : List Char × UInt32 × Nat} (h : Emitted bits state) (byte : UInt8) :
    Emitted (bits ++ toBits 8 byte.toNat) (base32Turn state byte) := by
  obtain ⟨out, value, kept⟩ := state
  obtain ⟨wholes, rest, hgrouped, hout, hkept, hvalue⟩ := h
  obtain rfl : out = wholes.map base32Digit := hout
  obtain rfl : kept = rest.length := hkept
  have hshort := hgrouped.short
  have hbyte : byte.toNat < 2 ^ 8 := byte.toNat_lt
  have hnext : ((value <<< 8) ||| byte.toUInt32).toNat % 2 ^ (rest.length + 8) = ofBits (rest ++ toBits 8 byte.toNat) := by
    have hshift : ((value <<< 8) ||| byte.toUInt32).toNat = (value.toNat * 2 ^ 8) % 2 ^ 32 ||| byte.toNat := by
      have height : (8 : UInt32).toNat % 32 = 8 := rfl
      rw [UInt32.toNat_or, UInt32.toNat_shiftLeft, UInt8.toNat_toUInt32, height, Nat.shiftLeft_eq]
    have hwrap : (value.toNat * 2 ^ 8) % 2 ^ 32 = (value.toNat % 2 ^ 24) * 2 ^ 8 := by omega
    have hlow : value.toNat % 2 ^ 24 % 2 ^ rest.length = ofBits rest := by
      rw [Nat.mod_mod_of_dvd _ (Nat.pow_dvd_pow 2 (by omega))]
      exact hvalue
    have hdiv : (value.toNat % 2 ^ 24 * 2 ^ 8 + byte.toNat) / 2 ^ 8 = value.toNat % 2 ^ 24 := by omega
    have hmod : (value.toNat % 2 ^ 24 * 2 ^ 8 + byte.toNat) % 2 ^ 8 = byte.toNat := Nat.mul_add_mod_of_lt hbyte
    rw [hshift, hwrap, ← Nat.shiftLeft_eq, ← Nat.shiftLeft_add_eq_or_of_lt hbyte, Nat.shiftLeft_eq, Nat.pow_add,
      Nat.mul_comm (2 ^ rest.length), Nat.mod_mul, hdiv, hmod, hlow, Regroup.ofBits_append, Regroup.length_toBits,
      Regroup.ofBits_toBits, Nat.mod_eq_of_lt hbyte, Nat.add_comm, Nat.mul_comm (2 ^ 8)]
  have hlength : (rest ++ toBits 8 byte.toNat).length = rest.length + 8 := by
    rw [List.length_append, Regroup.length_toBits]
  obtain ⟨added, left, hadded, hdigits, hleft⟩ := base32Digits_grouped (by omega) hlength hnext
  refine ⟨wholes ++ added, left, ⟨?_, ?_, hadded.short⟩, ?_, ?_, hleft⟩
  · rw [hgrouped.same, List.append_assoc, hadded.same, List.flatten_append, List.append_assoc]
  · intro whole hmem
    rcases List.mem_append.mp hmem with hmem | hmem
    · exact hgrouped.whole whole hmem
    · exact hadded.whole whole hmem
  · rw [base32Turn, hdigits, List.map_append]
  · rw [base32Turn, hdigits]

theorem emitted_run (bytes : Bytes) : Emitted (bitsOf bytes) (bytes.foldl base32Turn ([], 0, 0)) := by
  induction bytes using List.reverseRecOn with
  | nil => exact ⟨[], [], ⟨rfl, List.forall_mem_nil _, Nat.zero_lt_succ _⟩, rfl, rfl, rfl⟩
  | append_singleton bytes byte ih =>
    rw [List.foldl_append, bitsOf, List.flatMap_append]
    have hlast : [byte].flatMap (fun byte => toBits 8 byte.toNat) = toBits 8 byte.toNat := List.flatMap_singleton ..
    rw [hlast]
    exact ih.turn byte

/-- The digits are the groups of five bits of the input, most significant first. -/
theorem toBase32_toList (bytes : Bytes) : (toBase32 bytes).toList = (groups 5 (bitsOf bytes)).map base32Digit := by
  obtain ⟨wholes, rest, hgrouped, hout, hkept, hvalue⟩ := emitted_run bytes
  have hshort := hgrouped.short
  rw [toBase32_eq, String.toList_ofList, hgrouped.same, Regroup.groups_flatten_append (by omega) hgrouped.whole,
    List.map_append, hout, hkept]
  generalize (bytes.foldl base32Turn ([], 0, 0)).2.1 = value at hvalue
  by_cases hempty : rest = []
  · rw [if_neg (by rw [hempty]; exact Nat.lt_irrefl 0), hempty, Regroup.groups_nil, List.map_nil, List.append_nil]
  · have hpositive : 0 < rest.length := List.length_pos_iff.mpr hempty
    have hlast : ((value <<< UInt32.ofNat (5 - rest.length)) &&& 31).toNat =
        ofBits (rest ++ List.replicate (5 - rest.length) false) := by
      have hcount : (UInt32.ofNat (5 - rest.length)).toNat % 32 = 5 - rest.length := by
        rw [UInt32.toNat_ofNat']
        omega
      have hmask : (31 : UInt32).toNat = 2 ^ 5 - 1 := rfl
      have hpower : 2 ^ 5 = 2 ^ rest.length * 2 ^ (5 - rest.length) := by
        rw [← Nat.pow_add]
        congr 1
        omega
      rw [UInt32.toNat_and, UInt32.toNat_shiftLeft, hcount, hmask, Nat.and_two_pow_sub_one_eq_mod,
        Nat.mod_mod_of_dvd _ (Nat.pow_dvd_pow 2 (by omega)), Nat.shiftLeft_eq, hpower, Nat.mul_mod_mul_right, hvalue,
        Regroup.ofBits_append, Regroup.ofBits_replicate_false, List.length_replicate, Nat.add_zero]
    rw [if_pos hpositive, Regroup.groups_short hempty hshort, hlast]
    rfl

theorem signed_shift (value : Int32) {count : Nat} (h : count < 5) :
    (value <<< Int32.ofNat count).toUInt32 = value.toUInt32 <<< UInt32.ofNat count := by
  match count, h with
  | 0, _ | 1, _ | 2, _ | 3, _ | 4, _ => rfl

/-- The sign makes no difference to any digit. -/
theorem toBase32Signed_eq (bytes : Bytes) : toBase32Signed bytes = toBase32 bytes := by
  have hrun (bytes : Bytes) : let signed := bytes.foldl signedTurn ([], 0, 0)
      let last := bytes.foldl base32Turn ([], 0, 0)
      signed.1 = last.1 ∧ signed.2.1.toUInt32 = last.2.1 ∧ signed.2.2 = last.2.2 := by
    induction bytes using List.reverseRecOn with
    | nil => exact ⟨rfl, rfl, rfl⟩
    | append_singleton bytes byte ih =>
      obtain ⟨hout, hvalue, hkept⟩ := ih
      rw [List.foldl_append, List.foldl_append]
      simp only [List.foldl_cons, List.foldl_nil, signedTurn, base32Turn]
      have hnext : ((bytes.foldl signedTurn ([], 0, 0)).2.1 <<< 8 ||| byte.toUInt32.toInt32).toUInt32 =
          (bytes.foldl base32Turn ([], 0, 0)).2.1 <<< 8 ||| byte.toUInt32 := by
        rw [← hvalue]
        rfl
      rw [hnext, hout, hkept]
      exact ⟨rfl, rfl, rfl⟩
  obtain ⟨hout, hvalue, hkept⟩ := hrun bytes
  rw [toBase32Signed, toBase32_eq]
  dsimp only
  rw [hout, hkept]
  by_cases hpositive : (bytes.foldl base32Turn ([], 0, 0)).2.2 > 0
  · have hlast : ((bytes.foldl signedTurn ([], 0, 0)).2.1 <<<
        Int32.ofNat (5 - (bytes.foldl base32Turn ([], 0, 0)).2.2) &&& 31).toUInt32 =
        (bytes.foldl base32Turn ([], 0, 0)).2.1 <<<
          UInt32.ofNat (5 - (bytes.foldl base32Turn ([], 0, 0)).2.2) &&& 31 := by
      rw [← hvalue, ← signed_shift _ (by omega)]
      rfl
    rw [hlast]
  · rw [if_neg hpositive, if_neg hpositive]

theorem length_bitsOf (bytes : Bytes) : (bitsOf bytes).length = 8 * bytes.length := by
  induction bytes with
  | nil => rfl
  | cons byte bytes ih =>
    have hcons : bitsOf (byte :: bytes) = toBits 8 byte.toNat ++ bitsOf bytes := List.flatMap_cons
    rw [hcons, List.length_append, ih, Regroup.length_toBits, List.length_cons]
    omega

theorem bitsOf_injective {bytes other : Bytes} (h : bitsOf bytes = bitsOf other) : bytes = other := by
  induction bytes generalizing other with
  | nil =>
    have hlength : (bitsOf other).length = 0 := by rw [← h]; rfl
    rw [length_bitsOf] at hlength
    exact (List.length_eq_zero_iff.mp (by omega)).symm
  | cons byte bytes ih =>
    cases other with
    | nil =>
      have hlength : (bitsOf (byte :: bytes)).length = 0 := by rw [h]; rfl
      rw [length_bitsOf, List.length_cons] at hlength
      omega
    | cons first rest =>
      have hsplit : toBits 8 byte.toNat ++ bitsOf bytes = toBits 8 first.toNat ++ bitsOf rest := h
      obtain ⟨hbits, hrest⟩ := List.append_inj hsplit (by rw [Regroup.length_toBits, Regroup.length_toBits])
      have hvalue : byte.toNat % 2 ^ 8 = first.toNat % 2 ^ 8 := by
        rw [← Regroup.ofBits_toBits, hbits, Regroup.ofBits_toBits]
      have hbyte := byte.toNat_lt
      have hfirst := first.toNat_lt
      have hsame : byte = first := UInt8.toNat_inj.mp (by omega)
      rw [hsame, ih hrest]

/-- A digit stands for one group of five bits. -/
theorem toBits_base32Digit {group : List Bool} (h : group.length = 5) :
    toBits 5 (base32.idxOf (base32Digit group)) = group := by
  have table : ∀ value < 32, base32.idxOf (base32.getD value 'a') = value := by decide
  have hlt := Regroup.ofBits_lt group
  rw [h] at hlt
  rw [base32Digit, table _ hlt]
  exact Regroup.toBits_ofBits h

theorem toBase32_injective : Function.Injective toBase32 := by
  intro bytes other h
  have hlength : bytes.length = other.length := by
    have hdigits := congrArg String.length h
    rw [toBase32_length, toBase32_length] at hdigits
    omega
  have hread (bytes : Bytes) :
      (toBase32 bytes).toList.map (fun digit => toBits 5 (base32.idxOf digit)) = groups 5 (bitsOf bytes) := by
    rw [toBase32_toList, List.map_map]
    conv_rhs => rw [← List.map_id (groups 5 (bitsOf bytes))]
    apply List.map_congr_left
    intro group hmem
    exact toBits_base32Digit (Regroup.length_of_mem_groups hmem)
  apply bitsOf_injective
  apply Regroup.groups_injective (Nat.succ_ne_zero 4)
  · rw [length_bitsOf, length_bitsOf, hlength]
  · rw [← hread, h, hread]

theorem addressOf_eq_iff {K : Type} (crypto : Cryptography K) {key other : Bytes} (hkey : key.length = 32)
    (hother : other.length = 32) : addressOf crypto key = addressOf crypto other ↔
      (crypto.hash256 (utf8 "Veil/v1/Address" ++ key)).take addressBytes =
        (crypto.hash256 (utf8 "Veil/v1/Address" ++ other)).take addressBytes := by
  have haddress {key : Bytes} (h : key.length = 32) : addressOf crypto key =
      .ok (toBase32 ((crypto.hash256 (utf8 "Veil/v1/Address" ++ key)).take addressBytes)) :=
    if_neg (not_not_intro h)
  rw [haddress hkey, haddress hother]
  constructor
  · intro h
    exact toBase32_injective (Except.ok.inj h)
  · intro h
    rw [h]

/-- The text is the input regrouped into fives, whatever the accumulator loses, and tells apart what the hash prefix does. -/
theorem toBase32_exact {K : Type} (crypto : Cryptography K) {key other : Bytes} (hkey : key.length = 32)
    (hother : other.length = 32) :
    (∀ bytes, toBase32Signed bytes = toBase32 bytes ∧
      (toBase32 bytes).toList = (groups 5 (bitsOf bytes)).map base32Digit ∧
      (toBase32 bytes).length = (8 * bytes.length + 4) / 5) ∧
    (∀ bytes bytes' : Bytes, bytes.length = bytes'.length → toBase32 bytes = toBase32 bytes' → bytes = bytes') ∧
    (addressOf crypto key = addressOf crypto other ↔
      (crypto.hash256 (utf8 "Veil/v1/Address" ++ key)).take addressBytes =
        (crypto.hash256 (utf8 "Veil/v1/Address" ++ other)).take addressBytes) :=
  ⟨fun bytes => ⟨toBase32Signed_eq bytes, toBase32_toList bytes, toBase32_length bytes⟩,
    fun _ _ _ h => toBase32_injective h, addressOf_eq_iff crypto hkey hother⟩

theorem toBase32_exact_pair :
    (∀ bytes, toBase32Signed bytes = toBase32 bytes ∧
      (toBase32 bytes).toList = (groups 5 (bitsOf bytes)).map base32Digit ∧
      (toBase32 bytes).length = (8 * bytes.length + 4) / 5) ∧
    (∀ bytes bytes' : Bytes, bytes.length = bytes'.length → toBase32 bytes = toBase32 bytes' → bytes = bytes') ∧
    (addressOf spelled (List.replicate 32 1) = addressOf spelled (List.replicate 32 2) ↔
      (spelled.hash256 (utf8 "Veil/v1/Address" ++ List.replicate 32 1)).take addressBytes =
        (spelled.hash256 (utf8 "Veil/v1/Address" ++ List.replicate 32 2)).take addressBytes) :=
  toBase32_exact spelled List.length_replicate List.length_replicate

end Veil
