import Veil.Wire
import Veil.Library.Outcome

namespace Veil

def base64UrlAlphabet : List Char := "ABCDEFGHIJKLMNOPQRSTUVWXYZabcdefghijklmnopqrstuvwxyz0123456789-_".toList

def base64UrlChar (n : Nat) : Char := base64UrlAlphabet.getD n 'A'

/-- Three bytes make four characters; a shorter tail is left unpadded. -/
def base64UrlChars : Bytes → List Char
  | a :: b :: c :: rest =>
    base64UrlChar (a.toNat / 4) :: base64UrlChar (a.toNat % 4 * 16 + b.toNat / 16) ::
      base64UrlChar (b.toNat % 16 * 4 + c.toNat / 64) :: base64UrlChar (c.toNat % 64) :: base64UrlChars rest
  | [a, b] =>
    [base64UrlChar (a.toNat / 4), base64UrlChar (a.toNat % 4 * 16 + b.toNat / 16), base64UrlChar (b.toNat % 16 * 4)]
  | [a] => [base64UrlChar (a.toNat / 4), base64UrlChar (a.toNat % 4 * 16)]
  | [] => []

def toBase64Url (bytes : Bytes) : String := String.ofList (base64UrlChars bytes)

def base64UrlValue (c : Char) : Option Nat := base64UrlAlphabet.idxOf? c

/-- What `atob` makes of the padded text; a single left-over character is its error. -/
def base64UrlBytes : List Nat → Except Failure Bytes
  | a :: b :: c :: d :: rest => do
    let bytes ← base64UrlBytes rest
    return UInt8.ofNat (a * 4 + b / 16) :: UInt8.ofNat (b % 16 * 16 + c / 4) :: UInt8.ofNat (c % 4 * 64 + d) :: bytes
  | [a, b, c] => .ok [UInt8.ofNat (a * 4 + b / 16), UInt8.ofNat (b % 16 * 16 + c / 4)]
  | [a, b] => .ok [UInt8.ofNat (a * 4 + b / 16)]
  | [_] => .error (.error "The string to be decoded is not correctly encoded.")
  | [] => .ok []

def fromBase64Url (value : String) : Except Failure Bytes :=
  match value.toList.mapM base64UrlValue with
  | none => .error (.error "invalid base64url input")
  | some digits => base64UrlBytes digits

theorem base64UrlValue_char {n : Nat} (h : n < 64) : base64UrlValue (base64UrlChar n) = some n := by
  have table : ∀ i < 64, base64UrlValue (base64UrlChar i) = some i := by decide
  exact table n h

theorem fromBase64Url_toBase64Url (bytes : Bytes) : fromBase64Url (toBase64Url bytes) = .ok bytes := by
  have reads : ∀ bytes : Bytes, ∃ digits, (base64UrlChars bytes).mapM base64UrlValue = some digits ∧
      base64UrlBytes digits = .ok bytes := by
    intro bytes
    induction bytes using base64UrlChars.induct with
    | case1 a b c rest ih =>
      obtain ⟨digits, hdigits, hbytes⟩ := ih
      have ha := a.toNat_lt
      have hb := b.toNat_lt
      have hc := c.toNat_lt
      refine ⟨a.toNat / 4 :: (a.toNat % 4 * 16 + b.toNat / 16) :: (b.toNat % 16 * 4 + c.toNat / 64) ::
        (c.toNat % 64) :: digits, ?_, ?_⟩
      · simp [base64UrlChars, base64UrlValue_char (show a.toNat / 4 < 64 by omega),
          base64UrlValue_char (show a.toNat % 4 * 16 + b.toNat / 16 < 64 by omega),
          base64UrlValue_char (show b.toNat % 16 * 4 + c.toNat / 64 < 64 by omega),
          base64UrlValue_char (show c.toNat % 64 < 64 by omega), hdigits]
      · have h₁ : a.toNat / 4 * 4 + (a.toNat % 4 * 16 + b.toNat / 16) / 16 = a.toNat := by omega
        have h₂ : (a.toNat % 4 * 16 + b.toNat / 16) % 16 * 16 + (b.toNat % 16 * 4 + c.toNat / 64) / 4 =
          b.toNat := by omega
        have h₃ : (b.toNat % 16 * 4 + c.toNat / 64) % 4 * 64 + c.toNat % 64 = c.toNat := by omega
        simp only [base64UrlBytes, hbytes, Outcome.ok_bind, h₁, h₂, h₃, UInt8.ofNat_toNat]
        rfl
    | case2 a b =>
      have ha := a.toNat_lt
      have hb := b.toNat_lt
      refine ⟨[a.toNat / 4, a.toNat % 4 * 16 + b.toNat / 16, b.toNat % 16 * 4], ?_, ?_⟩
      · simp [base64UrlChars, base64UrlValue_char (show a.toNat / 4 < 64 by omega),
          base64UrlValue_char (show a.toNat % 4 * 16 + b.toNat / 16 < 64 by omega),
          base64UrlValue_char (show b.toNat % 16 * 4 < 64 by omega)]
      · have h₁ : a.toNat / 4 * 4 + (a.toNat % 4 * 16 + b.toNat / 16) / 16 = a.toNat := by omega
        have h₂ : (a.toNat % 4 * 16 + b.toNat / 16) % 16 * 16 + (b.toNat % 16 * 4) / 4 = b.toNat := by omega
        simp only [base64UrlBytes, h₁, h₂, UInt8.ofNat_toNat]
    | case3 a =>
      have ha := a.toNat_lt
      refine ⟨[a.toNat / 4, a.toNat % 4 * 16], ?_, ?_⟩
      · simp [base64UrlChars, base64UrlValue_char (show a.toNat / 4 < 64 by omega),
          base64UrlValue_char (show a.toNat % 4 * 16 < 64 by omega)]
      · have h₁ : a.toNat / 4 * 4 + (a.toNat % 4 * 16) / 16 = a.toNat := by omega
        simp only [base64UrlBytes, h₁, UInt8.ofNat_toNat]
    | case4 => exact ⟨[], rfl, rfl⟩
  obtain ⟨digits, hdigits, hbytes⟩ := reads bytes
  simp [fromBase64Url, toBase64Url, hdigits, hbytes]

theorem toBase64Url_injective {a b : Bytes} (h : toBase64Url a = toBase64Url b) : a = b := by
  have ha := fromBase64Url_toBase64Url a
  rw [h, fromBase64Url_toBase64Url] at ha
  exact (Except.ok.inj ha).symm

end Veil
