import Mathlib
import Veil.Messenger

namespace Veil

def base64Alphabet : List Char := "ABCDEFGHIJKLMNOPQRSTUVWXYZabcdefghijklmnopqrstuvwxyz0123456789+/".toList

def base64Char (n : Nat) : Char := base64Alphabet.getD n 'A'

/-- `btoa`: three bytes make four characters, and a shorter tail is padded to four. -/
def btoa : Bytes → List Char
  | a :: b :: c :: rest =>
    base64Char (a.toNat / 4) :: base64Char (a.toNat % 4 * 16 + b.toNat / 16) ::
      base64Char (b.toNat % 16 * 4 + c.toNat / 64) :: base64Char (c.toNat % 64) :: btoa rest
  | [a, b] =>
    [base64Char (a.toNat / 4), base64Char (a.toNat % 4 * 16 + b.toNat / 16), base64Char (b.toNat % 16 * 4), '=']
  | [a] => [base64Char (a.toNat / 4), base64Char (a.toNat % 4 * 16), '=', '=']
  | [] => []

def exchanged (old new c : Char) : Char := if c = old then new else c

def replaced (old new : Char) (text : List Char) : List Char := text.map (exchanged old new)

/-- `toBase64Url` step by step: `btoa`, the two replacements, and the padding cut off. -/
def toBase64UrlSteps (bytes : Bytes) : String :=
  String.ofList ((replaced '/' '_' (replaced '+' '-' (btoa bytes))).rdropWhile (fun c => c = '='))

/-- The white space that `atob` leaves out. -/
def isAsciiWhite (c : Char) : Bool := c = '\t' || c = '\n' || c = '\x0c' || c = '\r' || c = ' '

/-- Up to two signs of padding go, if the length is a multiple of four with them. -/
def withoutPadding (text : List Char) : List Char :=
  if text.length % 4 = 0 then
    match text.reverse with
    | '=' :: '=' :: rest => rest.reverse
    | '=' :: rest => rest.reverse
    | _ => text
  else text

def base64Value (c : Char) : Option Nat := base64Alphabet.idxOf? c

/-- `atob`: what is left without white space and padding is read in fours, and spare bits are dropped. -/
def atob (text : List Char) : Except Failure Bytes :=
  match (withoutPadding (text.filter (fun c => !isAsciiWhite c))).mapM base64Value with
  | none => .error (.error "The string to be decoded is not correctly encoded.")
  | some digits => base64UrlBytes digits

/-- `fromBase64Url` step by step: the test, the two replacements, the padding put back, and `atob`. -/
def fromBase64UrlSteps (value : String) : Except Failure Bytes :=
  if value.toList.all (fun c => c ∈ base64UrlAlphabet) then
    let base64 := replaced '_' '/' (replaced '-' '+' value.toList)
    atob (base64 ++ List.replicate ((4 - base64.length % 4) % 4) '=')
  else .error (.error "invalid base64url input")

theorem base64UrlChar_mem (n : Nat) : base64UrlChar n ∈ base64UrlAlphabet := by
  have hfirst : 'A' ∈ base64UrlAlphabet := by decide
  rw [base64UrlChar, List.getD_eq_getElem?_getD]
  cases hchar : base64UrlAlphabet[n]? with
  | none => exact hfirst
  | some c => exact List.mem_of_getElem? hchar

/-- The text is made of the sixty-four characters. -/
theorem base64UrlChars_mem {bytes : Bytes} {c : Char} (h : c ∈ base64UrlChars bytes) : c ∈ base64UrlAlphabet := by
  induction bytes using base64UrlChars.induct with
  | case1 a b d rest ih =>
    simp only [base64UrlChars, List.mem_cons] at h
    rcases h with rfl | rfl | rfl | rfl | h
    · exact base64UrlChar_mem _
    · exact base64UrlChar_mem _
    · exact base64UrlChar_mem _
    · exact base64UrlChar_mem _
    · exact ih h
  | case2 a b =>
    simp only [base64UrlChars, List.mem_cons, List.not_mem_nil, or_false] at h
    rcases h with rfl | rfl | rfl
    · exact base64UrlChar_mem _
    · exact base64UrlChar_mem _
    · exact base64UrlChar_mem _
  | case3 a =>
    simp only [base64UrlChars, List.mem_cons, List.not_mem_nil, or_false] at h
    rcases h with rfl | rfl
    · exact base64UrlChar_mem _
    · exact base64UrlChar_mem _
  | case4 => cases h

theorem equals_not_mem : '=' ∉ base64UrlAlphabet := by decide

theorem exchanged_base64Char {n : Nat} (h : n < 64) :
    exchanged '/' '_' (exchanged '+' '-' (base64Char n)) = base64UrlChar n := by
  have table : ∀ n < 64, exchanged '/' '_' (exchanged '+' '-' (base64Char n)) = base64UrlChar n := by decide +kernel
  exact table n h

/-- What `btoa` writes is the text and its padding, up to the two characters. -/
theorem replaced_btoa (bytes : Bytes) : replaced '/' '_' (replaced '+' '-' (btoa bytes)) =
    base64UrlChars bytes ++ List.replicate ((3 - bytes.length % 3) % 3) '=' := by
  unfold replaced
  induction bytes using base64UrlChars.induct with
  | case1 a b c rest ih =>
    have ha := a.toNat_lt
    have hb := b.toNat_lt
    have hc := c.toNat_lt
    have hlength : (a :: b :: c :: rest).length % 3 = rest.length % 3 := by
      simp only [List.length_cons]
      omega
    rw [hlength, btoa, base64UrlChars]
    simp only [List.map_cons, List.cons_append]
    rw [ih, exchanged_base64Char (by omega), exchanged_base64Char (by omega), exchanged_base64Char (by omega),
      exchanged_base64Char (by omega)]
  | case2 a b =>
    have ha := a.toNat_lt
    have hb := b.toNat_lt
    rw [btoa, base64UrlChars]
    simp only [List.map_cons, List.map_nil]
    rw [exchanged_base64Char (by omega), exchanged_base64Char (by omega), exchanged_base64Char (by omega)]
    rfl
  | case3 a =>
    have ha := a.toNat_lt
    rw [btoa, base64UrlChars]
    simp only [List.map_cons, List.map_nil]
    rw [exchanged_base64Char (by omega), exchanged_base64Char (by omega)]
    rfl
  | case4 => rfl

theorem rdropWhile_padding {text : List Char} (h : ∀ c ∈ text, c ≠ '=') (count : Nat) :
    (text ++ List.replicate count '=').rdropWhile (fun c => c = '=') = text := by
  induction count with
  | zero =>
    rw [List.replicate_zero, List.append_nil, List.rdropWhile_eq_self_iff]
    intro hne hlast
    exact h _ (List.getLast_mem hne) (of_decide_eq_true hlast)
  | succ count ih =>
    rw [List.replicate_succ', ← List.append_assoc, List.rdropWhile_concat_pos _ _ _ rfl]
    exact ih

/-- The padding that is cut off is all of it, and nothing else. -/
theorem toBase64Url_eq_steps (bytes : Bytes) : toBase64Url bytes = toBase64UrlSteps bytes := by
  rw [toBase64UrlSteps, replaced_btoa, rdropWhile_padding]
  · rfl
  · intro c hmem heq
    rw [heq] at hmem
    exact equals_not_mem (base64UrlChars_mem hmem)

theorem base64Value_exchanged {c : Char} (h : c ∈ base64UrlAlphabet) :
    base64Value (exchanged '_' '/' (exchanged '-' '+' c)) = base64UrlValue c ∧
      exchanged '_' '/' (exchanged '-' '+' c) ≠ '=' ∧ isAsciiWhite (exchanged '_' '/' (exchanged '-' '+' c)) = false := by
  have table : base64UrlAlphabet.all (fun c =>
      base64Value (exchanged '_' '/' (exchanged '-' '+' c)) = base64UrlValue c ∧
        exchanged '_' '/' (exchanged '-' '+' c) ≠ '=' ∧
          isAsciiWhite (exchanged '_' '/' (exchanged '-' '+' c)) = false) = true := by decide +kernel
  have hchar := List.all_eq_true.mp table c h
  exact of_decide_eq_true hchar

theorem base64UrlValue_isSome {c : Char} : (base64UrlValue c).isSome ↔ c ∈ base64UrlAlphabet := by
  rw [base64UrlValue, List.isSome_idxOf?]

theorem mapM_value_of_mem {text : List Char} (h : ∀ c ∈ text, c ∈ base64UrlAlphabet) :
    ∃ digits, text.mapM base64UrlValue = some digits ∧ digits.length = text.length ∧
      (replaced '_' '/' (replaced '-' '+' text)).mapM base64Value = some digits := by
  unfold replaced
  induction text with
  | nil => exact ⟨[], rfl, rfl, rfl⟩
  | cons c text ih =>
    obtain ⟨hc, htext⟩ := List.forall_mem_cons.mp h
    obtain ⟨digits, hdigits, hlength, hreplaced⟩ := ih htext
    obtain ⟨digit, hdigit⟩ := Option.isSome_iff_exists.mp (base64UrlValue_isSome.mpr hc)
    have hother := (base64Value_exchanged hc).1.trans hdigit
    refine ⟨digit :: digits, ?_, ?_, ?_⟩
    · rw [List.mapM_cons, hdigit, hdigits]
      rfl
    · rw [List.length_cons, List.length_cons, hlength]
    · rw [List.map_cons, List.map_cons, List.mapM_cons, hother, hreplaced]
      rfl

theorem mapM_value_of_not_mem {text : List Char} {c : Char} (hmem : c ∈ text) (h : c ∉ base64UrlAlphabet) :
    text.mapM base64UrlValue = none := by
  have hnone : base64UrlValue c = none := Option.not_isSome_iff_eq_none.mp (mt base64UrlValue_isSome.mp h)
  induction text with
  | nil => cases hmem
  | cons first text ih =>
    rw [List.mapM_cons]
    rcases List.mem_cons.mp hmem with rfl | hmem
    · rw [hnone]
      rfl
    · rw [ih hmem]
      cases base64UrlValue first <;> rfl

/-- A single character left over is no byte. -/
theorem base64UrlBytes_leftover {digits : List Nat} (h : digits.length % 4 = 1) :
    base64UrlBytes digits = .error (.error "The string to be decoded is not correctly encoded.") := by
  induction digits using base64UrlBytes.induct with
  | case1 a b c d rest ih =>
    simp only [List.length_cons] at h
    rw [base64UrlBytes, ih (by omega)]
    rfl
  | case2 => exact absurd (show 3 % 4 = 1 from h) (by decide)
  | case3 => exact absurd (show 2 % 4 = 1 from h) (by decide)
  | case4 => rfl
  | case5 => exact absurd h (by decide)

/-- Padding to a multiple of four comes off again, but for the last of three signs. -/
theorem withoutPadding_padded {text : List Char} (h : ∀ c ∈ text, c ≠ '=') :
    withoutPadding (text ++ List.replicate ((4 - text.length % 4) % 4) '=') =
      if text.length % 4 = 1 then text ++ ['='] else text := by
  have hfour : (text ++ List.replicate ((4 - text.length % 4) % 4) '=').length % 4 = 0 := by
    rw [List.length_append, List.length_replicate]
    omega
  have hreverse : ∀ c ∈ text.reverse, c ≠ '=' := fun c hmem => h c (List.mem_reverse.mp hmem)
  rw [withoutPadding, if_pos hfour, List.reverse_append, List.reverse_replicate]
  have hcases : text.length % 4 = 0 ∨ text.length % 4 = 1 ∨ text.length % 4 = 2 ∨ text.length % 4 = 3 := by omega
  rcases hcases with hrest | hrest | hrest | hrest
  · rw [hrest]
    show (match text.reverse with
      | '=' :: '=' :: rest => rest.reverse
      | '=' :: rest => rest.reverse
      | _ => text ++ []) = text
    split
    next rest heq => exact absurd rfl (hreverse '=' (by rw [heq]; exact List.mem_cons_self))
    next rest _ heq => exact absurd rfl (hreverse '=' (by rw [heq]; exact List.mem_cons_self))
    next => exact List.append_nil text
  · rw [hrest]
    show ('=' :: text.reverse).reverse = text ++ ['=']
    rw [List.reverse_cons, List.reverse_reverse]
  · rw [hrest]
    exact List.reverse_reverse text
  · rw [hrest]
    show (match '=' :: text.reverse with
      | '=' :: '=' :: rest => rest.reverse
      | '=' :: rest => rest.reverse
      | _ => text ++ ['=']) = text
    split
    next rest heq =>
      have htail : text.reverse = '=' :: rest := (List.cons.inj heq).2
      exact absurd rfl (hreverse '=' (by rw [htail]; exact List.mem_cons_self))
    next rest _ heq =>
      have htail : text.reverse = rest := (List.cons.inj heq).2
      rw [← htail, List.reverse_reverse]
    next heq => exact absurd rfl (heq _)

/-- The length says how much padding was cut off, so the text is read as `atob` reads it. -/
theorem fromBase64Url_eq_steps (value : String) : fromBase64Url value = fromBase64UrlSteps value := by
  rw [fromBase64Url, fromBase64UrlSteps]
  by_cases hall : ∀ c ∈ value.toList, c ∈ base64UrlAlphabet
  · obtain ⟨digits, hdigits, hlength, hreplaced⟩ := mapM_value_of_mem hall
    have hplain : ∀ c ∈ replaced '_' '/' (replaced '-' '+' value.toList), c ≠ '=' ∧ isAsciiWhite c = false := by
      intro c hmem
      unfold replaced at hmem
      rw [List.map_map] at hmem
      obtain ⟨original, horiginal, rfl⟩ := List.mem_map.mp hmem
      exact (base64Value_exchanged (hall original horiginal)).2
    have hsame : (replaced '_' '/' (replaced '-' '+' value.toList)).length = digits.length := by
      rw [replaced, replaced, List.length_map, List.length_map, hlength]
    have hnowhite : ∀ count, (replaced '_' '/' (replaced '-' '+' value.toList) ++ List.replicate count '=').filter
        (fun c => !isAsciiWhite c) = replaced '_' '/' (replaced '-' '+' value.toList) ++ List.replicate count '=' := by
      intro count
      rw [List.filter_eq_self]
      intro c hmem
      rcases List.mem_append.mp hmem with hmem | hmem
      · rw [(hplain c hmem).2]
        rfl
      · rw [List.eq_of_mem_replicate hmem]
        rfl
    rw [if_pos (by rw [List.all_eq_true]; exact fun c hmem => decide_eq_true (hall c hmem)), hdigits]
    dsimp only
    rw [atob, hnowhite, withoutPadding_padded fun c hmem => (hplain c hmem).1]
    by_cases hleftover : digits.length % 4 = 1
    · rw [hsame, if_pos hleftover, base64UrlBytes_leftover hleftover, List.mapM_append, hreplaced]
      rfl
    · rw [hsame, if_neg hleftover, hreplaced]
  · push Not at hall
    obtain ⟨c, hmem, hc⟩ := hall
    rw [mapM_value_of_not_mem hmem hc, if_neg]
    intro h
    exact hc (of_decide_eq_true (List.all_eq_true.mp h c hmem))

namespace Protocol

structure WireSignedPreKey where
  id : Int
  publicKey : String
  signature : String
  deriving DecidableEq

structure WireOneTimePreKey where
  id : Int
  publicKey : String
  deriving DecidableEq

structure PreKeyBundleResponse where
  identity : WirePublicIdentity
  signedPreKey : WireSignedPreKey
  signedKemPreKey : WireSignedPreKey
  oneTimePreKey : Option WireOneTimePreKey := none
  oneTimeKemPreKey : Option WireOneTimePreKey := none
  deriving DecidableEq

def encodeSignedPreKey (key : SignedPreKey) : WireSignedPreKey where
  id := key.id
  publicKey := toBase64Url key.publicKey
  signature := toBase64Url key.signature

def decodeSignedPreKey (wire : WireSignedPreKey) : Except Failure SignedPreKey := do
  let publicKey ← fromBase64Url wire.publicKey
  let signature ← fromBase64Url wire.signature
  return { id := wire.id, publicKey, signature }

def encodeOneTimePreKey (key : OneTimePreKey) : WireOneTimePreKey where
  id := key.id
  publicKey := toBase64Url key.publicKey

def decodeOneTimePreKey (wire : WireOneTimePreKey) : Except Failure OneTimePreKey := do
  let publicKey ← fromBase64Url wire.publicKey
  return { id := wire.id, publicKey }

/-- A bundle as its parts are encoded; a one-time key that there is none of is no field. -/
def encodeBundle (bundle : PreKeyBundle) : PreKeyBundleResponse where
  identity := encodeIdentity bundle.identity
  signedPreKey := encodeSignedPreKey bundle.signedPreKey
  signedKemPreKey := encodeSignedPreKey bundle.signedKemPreKey
  oneTimePreKey := bundle.oneTimePreKey.map encodeOneTimePreKey
  oneTimeKemPreKey := bundle.oneTimeKemPreKey.map encodeOneTimePreKey

def decodeBundle (wire : PreKeyBundleResponse) : Except Failure PreKeyBundle := do
  let identity ← decodeIdentity wire.identity
  let signedPreKey ← decodeSignedPreKey wire.signedPreKey
  let signedKemPreKey ← decodeSignedPreKey wire.signedKemPreKey
  let oneTimePreKey ← wire.oneTimePreKey.mapM decodeOneTimePreKey
  let oneTimeKemPreKey ← wire.oneTimeKemPreKey.mapM decodeOneTimePreKey
  return { identity, signedPreKey, signedKemPreKey, oneTimePreKey, oneTimeKemPreKey }

theorem decodeIdentity_encodeIdentity (identity : PublicIdentity) : decodeIdentity (encodeIdentity identity) = .ok identity := by
  rw [decodeIdentity, encodeIdentity]
  simp only [fromBase64Url_toBase64Url]
  rfl

theorem decodeEnvelope_encodeEnvelope (envelope : SealedEnvelope) : decodeEnvelope (encodeEnvelope envelope) = .ok envelope := by
  rw [decodeEnvelope, encodeEnvelope]
  simp only [fromBase64Url_toBase64Url]
  rfl

theorem decodeSignedPreKey_encodeSignedPreKey (key : SignedPreKey) :
    decodeSignedPreKey (encodeSignedPreKey key) = .ok key := by
  rw [decodeSignedPreKey, encodeSignedPreKey]
  simp only [fromBase64Url_toBase64Url]
  rfl

theorem decodeOneTimePreKey_encodeOneTimePreKey (key : OneTimePreKey) :
    decodeOneTimePreKey (encodeOneTimePreKey key) = .ok key := by
  rw [decodeOneTimePreKey, encodeOneTimePreKey]
  simp only [fromBase64Url_toBase64Url]
  rfl

theorem mapM_decodeOneTimePreKey (key : Option OneTimePreKey) :
    (key.map encodeOneTimePreKey).mapM decodeOneTimePreKey = .ok key := by
  cases key with
  | none => rfl
  | some key =>
    show (do let decoded ← decodeOneTimePreKey (encodeOneTimePreKey key); pure (some decoded)) = _
    rw [decodeOneTimePreKey_encodeOneTimePreKey]
    rfl

theorem decodeBundle_encodeBundle (bundle : PreKeyBundle) : decodeBundle (encodeBundle bundle) = .ok bundle := by
  rw [decodeBundle, encodeBundle]
  simp only [decodeIdentity_encodeIdentity, decodeSignedPreKey_encodeSignedPreKey, mapM_decodeOneTimePreKey]
  rfl

/-- Nothing is lost on the wire: bytes come back as they were, and so does everything that is made of them. -/
theorem transport_lossless :
    (∀ bytes, toBase64Url bytes = toBase64UrlSteps bytes ∧ (∀ c ∈ (toBase64Url bytes).toList, c ∈ base64UrlAlphabet) ∧
      '=' ∉ (toBase64Url bytes).toList ∧ fromBase64UrlSteps (toBase64UrlSteps bytes) = .ok bytes) ∧
    (∀ value, fromBase64Url value = fromBase64UrlSteps value) ∧
    (∀ identity, decodeIdentity (encodeIdentity identity) = .ok identity) ∧
    (∀ envelope, decodeEnvelope (encodeEnvelope envelope) = .ok envelope) ∧
    ∀ bundle, decodeBundle (encodeBundle bundle) = .ok bundle := by
  refine ⟨fun bytes => ?_, fromBase64Url_eq_steps, decodeIdentity_encodeIdentity, decodeEnvelope_encodeEnvelope,
    decodeBundle_encodeBundle⟩
  have hchars : ∀ c ∈ (toBase64Url bytes).toList, c ∈ base64UrlAlphabet := by
    intro c hmem
    rw [toBase64Url, String.toList_ofList] at hmem
    exact base64UrlChars_mem hmem
  refine ⟨toBase64Url_eq_steps bytes, hchars, fun hmem => equals_not_mem (hchars _ hmem), ?_⟩
  rw [← toBase64Url_eq_steps, ← fromBase64Url_eq_steps]
  exact fromBase64Url_toBase64Url bytes

end Protocol

end Veil
