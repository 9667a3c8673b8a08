import Mathlib
import Veil.Wire
import Veil.Library.Outcome

namespace Veil

/-- A string as its UTF-16 units. -/
def units (text : String) : List UInt16 :=
  text.toList.flatMap (fun c =>
    if c.toNat < 0x10000 then [UInt16.ofNat c.toNat]
    else [UInt16.ofNat (0xD800 + (c.toNat - 0x10000) / 0x400), UInt16.ofNat (0xDC00 + (c.toNat - 0x10000) % 0x400)])

/-- The white space and line ends that a number may start with. -/
def isWhite (unit : UInt16) : Bool :=
  (9 ≤ unit.toNat && unit.toNat ≤ 13) || unit.toNat == 0x20 || unit.toNat == 0xA0 || unit.toNat == 0x1680 ||
    (0x2000 ≤ unit.toNat && unit.toNat ≤ 0x200A) || unit.toNat == 0x2028 || unit.toNat == 0x2029 ||
    unit.toNat == 0x202F || unit.toNat == 0x205F || unit.toNat == 0x3000 || unit.toNat == 0xFEFF

/-- A plus or a minus. -/
def isSign (unit : UInt16) : Bool := unit.toNat == 0x2B || unit.toNat == 0x2D

/-- The value of `0-9`, `a-f` and `A-F`. -/
def hexValue? (unit : UInt16) : Option Nat :=
  if 0x30 ≤ unit.toNat ∧ unit.toNat ≤ 0x39 then some (unit.toNat - 0x30)
  else if 0x61 ≤ unit.toNat ∧ unit.toNat ≤ 0x66 then some (unit.toNat - 0x61 + 10)
  else if 0x41 ≤ unit.toNat ∧ unit.toNat ≤ 0x46 then some (unit.toNat - 0x41 + 10)
  else none

def IsHex (unit : UInt16) : Prop := ∃ value, hexValue? unit = some value

instance (unit : UInt16) : Decidable (IsHex unit) := decidable_of_iff _ Option.isSome_iff_exists

/-- `x` or `X`. -/
def isX (unit : UInt16) : Bool := unit.toNat == 0x78 || unit.toNat == 0x58

def withoutSign : List UInt16 → List UInt16
  | unit :: rest => if isSign unit then rest else unit :: rest
  | [] => []

def withoutPrefix : List UInt16 → List UInt16
  | zero :: x :: rest => if zero.toNat == 0x30 && isX x then rest else zero :: x :: rest
  | text => text

/-- The digits before the first unit that is none. -/
def leadingDigits : List UInt16 → List Nat
  | [] => []
  | unit :: rest =>
    match hexValue? unit with
    | some value => value :: leadingDigits rest
    | none => []

/-- `Number.parseInt(text, 16)`, with `none` for `NaN`. -/
def parseInt (text : List UInt16) : Option Int :=
  let trimmed := text.dropWhile isWhite
  let negative := trimmed.head?.any (fun unit => unit.toNat == 0x2D)
  let digits := leadingDigits (withoutPrefix (withoutSign trimmed))
  if digits = [] then none
  else
    let value : Nat := digits.foldl (fun value digit => value * 16 + digit) 0
    some (if negative then -(value : Int) else value)

/-- What a number stored in a byte array becomes. -/
def storedByte (value : Int) : UInt8 := UInt8.ofNat (value % 256).toNat

/-- `hex.slice(i * 2, i * 2 + 2)` for each `i`. -/
def chunks : List UInt16 → List (UInt16 × UInt16)
  | a :: b :: rest => (a, b) :: chunks rest
  | _ => []

def byteOf (chunk : UInt16 × UInt16) : Except Failure UInt8 :=
  match parseInt [chunk.1, chunk.2] with
  | none => .error (.malformedInput "invalid hex digit")
  | some byte => .ok (storedByte byte)

def fromHex (hex : List UInt16) : Except Failure Bytes :=
  if hex.length % 2 ≠ 0 then .error (.malformedInput "hex string has odd length")
  else (chunks hex).mapM byteOf

/-- The pairs of units in which `parseInt` finds a number: a digit comes first, or white space or a sign and then a
digit. Only `0x` and `0X` start with a digit and hold none. -/
def Readable (chunk : UInt16 × UInt16) : Prop :=
  IsHex chunk.1 ∧ ¬ (chunk.1.toNat = 0x30 ∧ isX chunk.2) ∨ (isWhite chunk.1 ∨ isSign chunk.1) ∧ IsHex chunk.2

instance (chunk : UInt16 × UInt16) : Decidable (Readable chunk) := inferInstanceAs (Decidable (_ ∨ _))

theorem hexValue?_lt {unit : UInt16} {value : Nat} (h : hexValue? unit = some value) : value < 16 := by
  unfold hexValue? at h
  split at h
  · obtain rfl := Option.some.inj h
    omega
  · split at h
    · obtain rfl := Option.some.inj h
      omega
    · split at h
      · obtain rfl := Option.some.inj h
        omega
      · cases h

theorem isHex_iff {unit : UInt16} : IsHex unit ↔
    0x30 ≤ unit.toNat ∧ unit.toNat ≤ 0x39 ∨ 0x61 ≤ unit.toNat ∧ unit.toNat ≤ 0x66 ∨
      0x41 ≤ unit.toNat ∧ unit.toNat ≤ 0x46 := by
  unfold IsHex hexValue?
  split
  next h => exact iff_of_true ⟨_, rfl⟩ (Or.inl h)
  next hdigit =>
    split
    next h => exact iff_of_true ⟨_, rfl⟩ (Or.inr (Or.inl h))
    next hlower =>
      split
      next h => exact iff_of_true ⟨_, rfl⟩ (Or.inr (Or.inr h))
      next hupper =>
        apply iff_of_false
        · rintro ⟨value, hvalue⟩
          cases hvalue
        · omega

theorem isWhite_iff {unit : UInt16} : isWhite unit = true ↔
    (9 ≤ unit.toNat ∧ unit.toNat ≤ 13) ∨ unit.toNat = 0x20 ∨ unit.toNat = 0xA0 ∨ unit.toNat = 0x1680 ∨
      (0x2000 ≤ unit.toNat ∧ unit.toNat ≤ 0x200A) ∨ unit.toNat = 0x2028 ∨ unit.toNat = 0x2029 ∨
      unit.toNat = 0x202F ∨ unit.toNat = 0x205F ∨ unit.toNat = 0x3000 ∨ unit.toNat = 0xFEFF := by
  simp only [isWhite, Bool.or_eq_true, Bool.and_eq_true, decide_eq_true_eq, beq_iff_eq, or_assoc]

theorem isSign_iff {unit : UInt16} : isSign unit = true ↔ unit.toNat = 0x2B ∨ unit.toNat = 0x2D := by
  simp only [isSign, Bool.or_eq_true, beq_iff_eq]

theorem IsHex.not_white {unit : UInt16} (h : IsHex unit) : ¬ isWhite unit = true := by
  rw [isHex_iff] at h
  rw [isWhite_iff]
  omega

theorem IsHex.not_sign {unit : UInt16} (h : IsHex unit) : ¬ isSign unit = true := by
  rw [isHex_iff] at h
  rw [isSign_iff]
  omega

theorem leadingDigits_eq_nil_iff {unit : UInt16} {rest : List UInt16} :
    leadingDigits (unit :: rest) = [] ↔ ¬ IsHex unit := by
  unfold leadingDigits IsHex
  cases hexValue? unit with
  | none => exact iff_of_true rfl fun ⟨_, h⟩ => absurd h (Option.some_ne_none _).symm
  | some value => exact iff_of_false (List.cons_ne_nil _ _) (not_not_intro ⟨value, rfl⟩)

theorem parseInt_isSome_iff {text : List UInt16} :
    (parseInt text).isSome ↔ leadingDigits (withoutPrefix (withoutSign (text.dropWhile isWhite))) ≠ [] := by
  unfold parseInt
  dsimp only
  split
  next hnone => exact iff_of_false Bool.false_ne_true (not_not_intro hnone)
  next hsome => exact iff_of_true rfl hsome

/-- One unit holds a number when it is a digit. -/
theorem leadingDigits_single {unit : UInt16} :
    leadingDigits (withoutPrefix (withoutSign [unit])) ≠ [] ↔ IsHex unit := by
  by_cases hsign : isSign unit
  · have hnone : withoutSign [unit] = [] := if_pos hsign
    rw [hnone]
    exact iff_of_false (not_not_intro rfl) fun h => h.not_sign hsign
  · have hsame : withoutSign [unit] = [unit] := if_neg hsign
    rw [hsame]
    exact (not_congr leadingDigits_eq_nil_iff).trans Decidable.not_not

theorem parseInt_pair_isSome_iff (a b : UInt16) : (parseInt [a, b]).isSome ↔ Readable (a, b) := by
  rw [parseInt_isSome_iff]
  unfold Readable
  by_cases hwhite : isWhite a
  · have hhex : ¬ IsHex a := fun h => h.not_white hwhite
    rw [List.dropWhile_cons_of_pos hwhite]
    have hreads : IsHex a ∧ ¬ (a.toNat = 0x30 ∧ isX b) ∨ (isWhite a ∨ isSign a) ∧ IsHex b ↔ IsHex b := by
      simp only [hhex, hwhite, false_and, false_or, true_or, true_and]
    rw [hreads]
    by_cases hother : isWhite b
    · rw [List.dropWhile_cons_of_pos hother]
      exact iff_of_false (not_not_intro rfl) fun h => h.not_white hother
    · rw [List.dropWhile_cons_of_neg hother]
      exact leadingDigits_single
  · rw [List.dropWhile_cons_of_neg hwhite]
    by_cases hsign : isSign a
    · have hhex : ¬ IsHex a := fun h => h.not_sign hsign
      have hrest : withoutSign [a, b] = [b] := if_pos hsign
      have hreads : IsHex a ∧ ¬ (a.toNat = 0x30 ∧ isX b) ∨ (isWhite a ∨ isSign a) ∧ IsHex b ↔ IsHex b := by
        simp only [hhex, hsign, false_and, false_or, or_true, true_and]
      rw [hrest, hreads]
      exact (not_congr leadingDigits_eq_nil_iff).trans Decidable.not_not
    · have hrest : withoutSign [a, b] = [a, b] := if_neg hsign
      have hreads : IsHex a ∧ ¬ (a.toNat = 0x30 ∧ isX b) ∨ (isWhite a ∨ isSign a) ∧ IsHex b ↔
          IsHex a ∧ ¬ (a.toNat = 0x30 ∧ isX b) := by
        simp only [hwhite, hsign, or_self, false_and, or_false, Bool.false_eq_true]
      rw [hrest, hreads]
      by_cases hprefix : a.toNat = 0x30 ∧ isX b
      · have hnone : withoutPrefix [a, b] = [] := by
          apply if_pos
          rw [Bool.and_eq_true, beq_iff_eq]
          exact hprefix
        rw [hnone]
        exact iff_of_false (not_not_intro rfl) fun h => h.2 hprefix
      · have hsame : withoutPrefix [a, b] = [a, b] := by
          apply if_neg
          rw [Bool.and_eq_true, beq_iff_eq]
          exact hprefix
        rw [hsame]
        constructor
        · intro h
          exact ⟨Decidable.not_not.mp (mt leadingDigits_eq_nil_iff.mpr h), hprefix⟩
        · rintro ⟨h, -⟩ hnil
          exact leadingDigits_eq_nil_iff.mp hnil h

theorem byteOf_ok_iff {chunk : UInt16 × UInt16} : (∃ byte, byteOf chunk = .ok byte) ↔ Readable chunk := by
  rw [← parseInt_pair_isSome_iff]
  unfold byteOf
  cases parseInt [chunk.1, chunk.2] with
  | none => exact iff_of_false (fun ⟨_, h⟩ => nomatch h) Bool.false_ne_true
  | some byte => exact iff_of_true ⟨_, rfl⟩ rfl

theorem parseInt_hexPair {a b : UInt16} {high low : Nat} (ha : hexValue? a = some high) (hb : hexValue? b = some low) :
    parseInt [a, b] = some ((high * 16 + low : Nat) : Int) := by
  have hexa : IsHex a := ⟨high, ha⟩
  have hexb : IsHex b := ⟨low, hb⟩
  have hX : ¬ (a.toNat == 0x30 && isX b) = true := by
    rw [isHex_iff] at hexb
    rw [Bool.and_eq_true, isX, Bool.or_eq_true, beq_iff_eq, beq_iff_eq, beq_iff_eq]
    omega
  have hminus : ¬ (a.toNat == 0x2D) = true := by
    rw [isHex_iff] at hexa
    rw [beq_iff_eq]
    omega
  have hdigits : leadingDigits (withoutPrefix (withoutSign [a, b])) = [high, low] := by
    have hsign : withoutSign [a, b] = [a, b] := if_neg hexa.not_sign
    have hprefix : withoutPrefix [a, b] = [a, b] := if_neg hX
    rw [hsign, hprefix, leadingDigits, ha, leadingDigits, hb]
    rfl
  unfold parseInt
  dsimp only
  rw [List.dropWhile_cons_of_neg hexa.not_white, hdigits, if_neg (List.cons_ne_nil _ _), List.head?_cons, Option.any_some,
    if_neg hminus]
  simp only [List.foldl_cons, List.foldl_nil, Nat.zero_mul, Nat.zero_add]

theorem byteOf_of_parseInt {chunk : UInt16 × UInt16} {byte : Int} (h : parseInt [chunk.1, chunk.2] = some byte) :
    byteOf chunk = .ok (storedByte byte) := by
  unfold byteOf
  rw [h]

theorem byteOf_hexPair {a b : UInt16} {high low : Nat} (ha : hexValue? a = some high) (hb : hexValue? b = some low) :
    byteOf (a, b) = .ok (UInt8.ofNat (high * 16 + low)) := by
  have hhigh := hexValue?_lt ha
  have hlow := hexValue?_lt hb
  have hsmall : ((high * 16 + low : Nat) : Int) % 256 = (high * 16 + low : Nat) := by omega
  rw [byteOf_of_parseInt (parseInt_hexPair ha hb), storedByte, hsmall, Int.toNat_natCast]

theorem toHex_cons (byte : UInt8) (bytes : Bytes) : units (toHex (byte :: bytes)) =
    UInt16.ofNat (hexDigit (byte.toNat / 16)).toNat :: UInt16.ofNat (hexDigit (byte.toNat % 16)).toNat ::
      units (toHex bytes) := by
  have hascii : ∀ value < 16, (hexDigit value).toNat < 0x10000 := by decide
  have hbyte := byte.toNat_lt
  have hhigh := hascii (byte.toNat / 16) (by omega)
  have hlow := hascii (byte.toNat % 16) (by omega)
  unfold units
  rw [toHex_toList, toHex_toList]
  simp only [List.flatMap_cons, List.cons_append, List.nil_append, if_pos hhigh, if_pos hlow]

theorem hexValue?_hexDigit {value : Nat} (h : value < 16) :
    hexValue? (UInt16.ofNat (hexDigit value).toNat) = some value := by
  have table : ∀ value < 16, hexValue? (UInt16.ofNat (hexDigit value).toNat) = some value := by decide
  exact table value h

/-- What `toHex` writes is read back. -/
theorem fromHex_toHex (bytes : Bytes) : fromHex (units (toHex bytes)) = .ok bytes := by
  have heven : (units (toHex bytes)).length % 2 = 0 := by
    induction bytes with
    | nil => rfl
    | cons byte bytes ih =>
      rw [toHex_cons, List.length_cons, List.length_cons]
      omega
  rw [fromHex, if_neg (by omega)]
  clear heven
  induction bytes with
  | nil => rfl
  | cons byte bytes ih =>
    have hbyte := byte.toNat_lt
    have hread := byteOf_hexPair (hexValue?_hexDigit (show byte.toNat / 16 < 16 by omega))
      (hexValue?_hexDigit (show byte.toNat % 16 < 16 by omega))
    have hsame : byte.toNat / 16 * 16 + byte.toNat % 16 = byte.toNat := by omega
    rw [hsame, UInt8.ofNat_toNat] at hread
    rw [toHex_cons, chunks, List.mapM_cons, hread, Outcome.ok_bind, ih]
    rfl

/-- Lower case, for the letters of ASCII. -/
def lowerCase (text : List UInt16) : List UInt16 :=
  text.map (fun unit => if 0x41 ≤ unit.toNat ∧ unit.toNat ≤ 0x5A then unit + 0x20 else unit)

theorem lowerCase_digit {unit : UInt16} {value : Nat} (h : hexValue? unit = some value) :
    (if 0x41 ≤ unit.toNat ∧ unit.toNat ≤ 0x5A then unit + 0x20 else unit) = UInt16.ofNat (hexDigit value).toNat := by
  have digit : ∀ value < 10, UInt16.ofNat (hexDigit value).toNat = UInt16.ofNat (0x30 + value) := by decide
  have letter : ∀ value < 6, UInt16.ofNat (hexDigit (value + 10)).toNat = UInt16.ofNat (0x61 + value) := by decide
  have hread (n : Nat) (hn : unit.toNat = n) : unit = UInt16.ofNat n := by rw [← hn, UInt16.ofNat_toNat]
  unfold hexValue? at h
  split at h
  next hdigit =>
    obtain rfl := Option.some.inj h
    rw [if_neg (by omega), digit _ (by omega)]
    exact hread _ (by omega)
  next =>
    split at h
    next hlower =>
      obtain rfl := Option.some.inj h
      rw [if_neg (by omega), letter _ (by omega)]
      exact hread _ (by omega)
    next =>
      split at h
      next hupper =>
        obtain rfl := Option.some.inj h
        rw [if_pos (by omega), letter _ (by omega)]
        apply UInt16.toNat_inj.mp
        have hsum : (unit + 0x20).toNat = unit.toNat + 0x20 := by
          rw [UInt16.toNat_add]
          exact Nat.mod_eq_of_lt (by show unit.toNat + 32 < 65536; omega)
        rw [hsum, UInt16.toNat_ofNat_of_lt' (by show _ < 65536; omega)]
        omega
      next => cases h

/-- An even number of hexadecimal digits. -/
def Hexadecimal (hex : List UInt16) : Prop := hex.length % 2 = 0 ∧ ∀ unit ∈ hex, IsHex unit

/-- Hexadecimal text is read, and written again in lower case. -/
theorem fromHex_hexadecimal {hex : List UInt16} (h : Hexadecimal hex) :
    ∃ bytes, fromHex hex = .ok bytes ∧ units (toHex bytes) = lowerCase hex := by
  obtain ⟨heven, hdigits⟩ := h
  rw [fromHex, if_neg (by omega)]
  induction hex using chunks.induct with
  | case1 a b rest ih =>
    obtain ⟨high, ha⟩ := hdigits a List.mem_cons_self
    obtain ⟨low, hb⟩ := hdigits b (List.mem_cons_of_mem _ List.mem_cons_self)
    have hrest : rest.length % 2 = 0 := by
      simp only [List.length_cons] at heven
      omega
    obtain ⟨bytes, hbytes, hwritten⟩ :=
      ih hrest fun unit hmem => hdigits unit (List.mem_cons_of_mem _ (List.mem_cons_of_mem _ hmem))
    have hhigh := hexValue?_lt ha
    have hlow := hexValue?_lt hb
    have hbyte : (UInt8.ofNat (high * 16 + low)).toNat = high * 16 + low :=
      UInt8.toNat_ofNat_of_lt' (by show _ < 256; omega)
    refine ⟨UInt8.ofNat (high * 16 + low) :: bytes, ?_, ?_⟩
    · rw [chunks, List.mapM_cons, byteOf_hexPair ha hb, Outcome.ok_bind, hbytes]
      rfl
    · have hdiv : (high * 16 + low) / 16 = high := by omega
      have hmod : (high * 16 + low) % 16 = low := by omega
      rw [toHex_cons, hbyte, hdiv, hmod, hwritten, ← lowerCase_digit ha, ← lowerCase_digit hb]
      rfl
  | case2 text hshort =>
    match text, hshort with
    | [], _ => exact ⟨[], rfl, rfl⟩
    | [unit], _ => exact absurd heven Nat.one_ne_zero
    | a :: b :: rest, hshort => exact absurd rfl (hshort a b rest)

theorem fromHex_ok_iff {hex : List UInt16} :
    (∃ bytes, fromHex hex = .ok bytes) ↔ hex.length % 2 = 0 ∧ ∀ chunk ∈ chunks hex, Readable chunk := by
  unfold fromHex
  split
  next hodd => exact iff_of_false (fun ⟨_, h⟩ => nomatch h) fun h => hodd h.1
  next heven =>
    rw [Outcome.mapM_ok_iff]
    simp only [byteOf_ok_iff]
    exact (and_iff_right (Decidable.not_not.mp heven)).symm

/-- A text is taken when it is hexadecimal and only then, and what is taken is what was written. -/
def ReadExactly (hex : List UInt16) : Prop :=
  ((∃ bytes, fromHex hex = .ok bytes) ↔ Hexadecimal hex) ∧
    ∀ bytes, fromHex hex = .ok bytes → units (toHex bytes) = lowerCase hex

/-- Text of even length is taken when every pair of it is readable; it should be taken when every unit is a digit. -/
theorem fromHex_exact_iff (hex : List UInt16) (bytes : Bytes) :
    (ReadExactly hex ↔
      hex.length % 2 = 1 ∨ (∃ chunk ∈ chunks hex, ¬ Readable chunk) ∨ ∀ unit ∈ hex, IsHex unit) ∧
      fromHex (units (toHex bytes)) = .ok bytes := by
  refine ⟨?_, fromHex_toHex bytes⟩
  constructor
  · rintro ⟨htaken, -⟩
    by_cases hodd : hex.length % 2 = 1
    · exact Or.inl hodd
    · by_cases hreadable : ∀ chunk ∈ chunks hex, Readable chunk
      · have hhexadecimal := htaken.mp (fromHex_ok_iff.mpr ⟨by omega, hreadable⟩)
        exact Or.inr (Or.inr hhexadecimal.2)
      · push Not at hreadable
        exact Or.inr (Or.inl hreadable)
  · intro h
    have hrefused (hnot : ¬ (hex.length % 2 = 0 ∧ ∀ chunk ∈ chunks hex, Readable chunk))
        (hother : ¬ Hexadecimal hex) : ReadExactly hex :=
      ⟨iff_of_false (mt fromHex_ok_iff.mp hnot) hother, fun bytes hok => absurd (fromHex_ok_iff.mp ⟨bytes, hok⟩) hnot⟩
    rcases h with hodd | ⟨chunk, hmem, hunreadable⟩ | hdigits
    · apply hrefused
      · omega
      · exact fun h => absurd h.1 (by omega)
    · apply hrefused
      · exact fun h => hunreadable (h.2 chunk hmem)
      · intro h
        obtain ⟨bytes, hok, -⟩ := fromHex_hexadecimal h
        exact hunreadable ((fromHex_ok_iff.mp ⟨bytes, hok⟩).2 chunk hmem)
    · by_cases hodd : hex.length % 2 = 1
      · apply hrefused
        · omega
        · exact fun h => absurd h.1 (by omega)
      · have hhexadecimal : Hexadecimal hex := ⟨by omega, hdigits⟩
        obtain ⟨bytes, hok, hwritten⟩ := fromHex_hexadecimal hhexadecimal
        refine ⟨iff_of_true ⟨bytes, hok⟩ hhexadecimal, fun other hother => ?_⟩
        obtain rfl := Except.ok.inj (hok.symm.trans hother)
        exact hwritten

/-- A digit and a letter that is none, white space and a digit, and a minus and a digit are each taken for a byte. -/
theorem fromHex_reads_stray : fromHex (units "1g") = .ok [0x01] ∧ fromHex (units " f-1") = .ok [0x0f, 0xff] ∧
    ¬ ∀ hex, ReadExactly hex := by
  have hstray : fromHex (units "1g") = .ok [0x01] := by decide +kernel
  refine ⟨hstray, by decide +kernel, fun h => ?_⟩
  have hhexadecimal := (h (units "1g")).1.mp ⟨_, hstray⟩
  have hg : ¬ IsHex 103 := by decide
  exact hg (hhexadecimal.2 103 (by decide))

end Veil
