import Mathlib
import Veil.Errors

namespace Veil

abbrev Bytes := List UInt8

/-- The encoder: everything pushed so far, in order. -/
structure Writer where
  written : Bytes := []
  deriving DecidableEq, Repr

namespace Writer

def push (w : Writer) (chunk : Bytes) : Writer := ⟨w.written ++ chunk⟩

def u8 (w : Writer) (value : Int) : Except Failure Writer :=
  if value < 0 ∨ value > 0xff then .error (.malformedInput s!"u8 out of range: {value}")
  else .ok (w.push [UInt8.ofNat value.toNat])

/-- The four bytes `setUint32` stores, most significant first. -/
def bigEndian32 (value : Nat) : Bytes :=
  [UInt8.ofNat (value / 2 ^ 24), UInt8.ofNat (value / 2 ^ 16), UInt8.ofNat (value / 2 ^ 8), UInt8.ofNat value]

def u32 (w : Writer) (value : Int) : Except Failure Writer :=
  if value < 0 ∨ value > 0xffffffff then .error (.malformedInput s!"u32 out of range: {value}")
  else .ok (w.push (bigEndian32 value.toNat))

/-- The eight bytes `setBigUint64` stores. -/
def bigEndian64 (value : Nat) : Bytes := bigEndian32 (value / 2 ^ 32) ++ bigEndian32 value

def u64 (w : Writer) (value : Int) : Except Failure Writer :=
  if value < 0 ∨ value > 0xffffffffffffffff then .error (.malformedInput s!"u64 out of range: {value}")
  else .ok (w.push (bigEndian64 value.toNat))

def fixed (w : Writer) (bytes : Bytes) : Writer := w.push bytes

def bytes (w : Writer) (value : Bytes) : Except Failure Writer := do
  let w ← w.u32 value.length
  return w.push value

def finish (w : Writer) : Bytes := w.written

end Writer

/-- The bounds-checked decoder over one buffer. -/
structure Reader where
  buffer : Bytes
  offset : Nat := 0
  deriving DecidableEq, Repr

abbrev Decode := StateT Reader (Except Failure)

namespace Reader

def take (length : Nat) : Decode Bytes := fun r =>
  if r.offset + length > r.buffer.length then
    .error (.malformedInput s!"truncated message: wanted {length} bytes at offset {r.offset} of {r.buffer.length}")
  else .ok ((r.buffer.drop r.offset).take length, { r with offset := r.offset + length })

def u8 : Decode Nat := do
  let b ← take 1
  return (b.headD 0).toNat

/-- The number that bytes spell, the most significant first. -/
def bigEndian (b : Bytes) : Nat := b.foldl (fun acc byte => acc * 256 + byte.toNat) 0

def u32 : Decode Nat := do
  let b ← take 4
  return bigEndian b

def fixed (length : Nat) : Decode Bytes := take length

def bytes : Decode Bytes := do
  let length ← u32
  take length

/-- A well-formed message is consumed exactly. -/
def done : Decode Unit := fun r =>
  if r.offset ≠ r.buffer.length then
    .error (.malformedInput s!"trailing bytes: {r.buffer.length - r.offset} unread")
  else .ok ((), r)

def remaining (r : Reader) : Bytes := r.buffer.drop r.offset

end Reader

def hexDigit (n : Nat) : Char := "0123456789abcdef".toList.getD n '0'

def toHex (bytes : Bytes) : String :=
  String.ofList (bytes.flatMap (fun byte => [hexDigit (byte.toNat / 16), hexDigit (byte.toNat % 16)]))

def base32 : List Char := "abcdefghijkmnpqrstuvwxyz23456789".toList

/-- The digits one byte completes, most significant first, with the bits left over. -/
def base32Digits (value : UInt32) : Nat → List Char × Nat
  | bits + 5 =>
    let (digits, rest) := base32Digits value bits
    (base32.getD ((value >>> UInt32.ofNat bits) &&& 31).toNat 'a' :: digits, rest)
  | bits => ([], bits)

def toBase32 (bytes : Bytes) : String :=
  let (out, value, bits) := bytes.foldl (fun (out, value, bits) byte =>
    let value : UInt32 := (value <<< 8) ||| byte.toUInt32
    let (digits, rest) := base32Digits value (bits + 8)
    (out ++ digits, value, rest)) (([] : List Char), (0 : UInt32), 0)
  String.ofList (if bits > 0 then
    out ++ [base32.getD ((value <<< UInt32.ofNat (5 - bits)) &&& 31).toNat 'a'] else out)

theorem hexDigit_injective {m n : Nat} (hm : m < 16) (hn : n < 16) (h : hexDigit m = hexDigit n) :
    m = n := by
  have table : ∀ i < 16, ∀ j < 16, hexDigit i = hexDigit j → i = j := by decide
  exact table m hm n hn h

theorem hexDigit_ne_colon {n : Nat} (hn : n < 16) : hexDigit n ≠ ':' := by
  have table : ∀ i < 16, hexDigit i ≠ ':' := by decide
  exact table n hn

theorem toHex_toList (bytes : Bytes) :
    (toHex bytes).toList =
      bytes.flatMap (fun byte => [hexDigit (byte.toNat / 16), hexDigit (byte.toNat % 16)]) := by
  simp [toHex]

theorem colon_not_mem_toHex (bytes : Bytes) : ':' ∉ (toHex bytes).toList := by
  rw [toHex_toList]
  intro h
  obtain ⟨byte, _, hb⟩ := List.mem_flatMap.mp h
  have hlt := byte.toNat_lt
  rcases List.mem_cons.mp hb with he | hb
  · exact hexDigit_ne_colon (by omega) he.symm
  · exact hexDigit_ne_colon (by omega) (List.mem_singleton.mp hb).symm

theorem toHex_injective {a b : Bytes} (h : toHex a = toHex b) : a = b := by
  have hl : (toHex a).toList = (toHex b).toList := by rw [h]
  rw [toHex_toList, toHex_toList] at hl
  clear h
  induction a generalizing b with
  | nil =>
    cases b with
    | nil => rfl
    | cons y ys => simp at hl
  | cons x xs ih =>
    cases b with
    | nil => simp at hl
    | cons y ys =>
      simp only [List.flatMap_cons, List.cons_append, List.nil_append, List.cons.injEq] at hl
      have hx := x.toNat_lt
      have hy := y.toNat_lt
      have hhigh := hexDigit_injective (by omega) (by omega) hl.1
      have hlow := hexDigit_injective (by omega) (by omega) hl.2.1
      have hxy : x = y := UInt8.toNat_inj.mp (by omega)
      rw [hxy, ih hl.2.2]

def concat (parts : List Bytes) : Bytes := parts.flatten

def utf8 (text : String) : Bytes := text.toByteArray.toList

end Veil
