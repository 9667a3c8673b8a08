import Veil.Envelope

namespace Veil

def fingerprintIterations : Nat := 5200

def digitsPerParty : Nat := 30

section

variable {K : Type} (crypto : Cryptography K)

def iteratedFingerprint (signingPublicKey : Bytes) : Except Failure Bytes :=
  if signingPublicKey.length ≠ 32 then .error (.malformedInput "identity signing key has wrong length")
  else .ok ((fun digest => crypto.hash512 (digest ++ signingPublicKey))^[fingerprintIterations]
    (concat [utf8 "Veil/v1/Fingerprint", signingPublicKey]))

/-- Five digits of a five-byte group, padded on the left. -/
def groupDigits (group : Bytes) : List Char :=
  let digits := Nat.toDigits 10 (Reader.bigEndian group % 100000)
  List.replicate (5 - digits.length) '0' ++ digits

/-- `needed` groups off the front of the digest. -/
def encodeGroups : Nat → Bytes → Except Failure (List Char)
  | 0, _ => .ok []
  | needed + 1, digest =>
    if digest.length < 5 then .error (.malformedInput "digest exhausted while encoding safety number")
    else do
      let rest ← encodeGroups needed (digest.drop 5)
      return groupDigits (digest.take 5) ++ rest

/-- The loop takes groups until it has `count` digits. -/
def encodeDigits (digest : Bytes) (count : Nat) : Except Failure String := do
  let digits ← encodeGroups ((count + 4) / 5) digest
  return String.ofList (digits.take count)

def identityFingerprint (signingPublicKey : Bytes) : Except Failure String := do
  let digest ← iteratedFingerprint crypto signingPublicKey
  encodeDigits digest digitsPerParty

def safetyNumber (a b : PublicIdentity) : Except Failure String := do
  let fa ← identityFingerprint crypto a.signingPublicKey
  let fb ← identityFingerprint crypto b.signingPublicKey
  return if fa < fb then fa ++ fb else fb ++ fa

def verificationQrPayload (identity : PublicIdentity) : Except Failure Bytes := do
  let w ← (({} : Writer).fixed (utf8 "Veil/v1/Verify")).bytes identity.signingPublicKey
  let w ← w.bytes identity.exchangePublicKey
  let w ← w.bytes identity.exchangeKeySignature
  return w.finish

/-- The tag is compared before the rest is read. -/
def readVerificationQr : Decode PublicIdentity := do
  let tag ← Reader.fixed (utf8 "Veil/v1/Verify").length
  if !constantTimeEqual tag (utf8 "Veil/v1/Verify") then
    throw (.malformedInput "not a Veil verification code")
  let signingPublicKey ← Reader.bytes
  let exchangePublicKey ← Reader.bytes
  let exchangeKeySignature ← Reader.bytes
  return { signingPublicKey, exchangePublicKey, exchangeKeySignature }

def parseVerificationQrPayload (bytes : Bytes) : Except Failure PublicIdentity := do
  let identity ← readVerificationQr.all bytes
  if !(← verifyIdentityBinding crypto identity) then
    throw (.untrustedBundle "scanned identity failed its key-binding check")
  return identity

end

end Veil
