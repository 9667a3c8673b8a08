import Mathlib
import Veil.DoubleRatchet
import Veil.Library.Outcome

namespace Veil

def maxFrameCounter : Int := 2 ^ 48 - 1

def replayWindow : Int := 1024

/-- What media frames use of the primitives: a secret's length, the KDF cut into key and nonce, and the AEAD. -/
structure FramePrimitives (K : Type) where
  keyLength : K → Nat
  kdf : K → Bytes → Bytes → AeadKeys K
  aeadEncrypt : K → K → Bytes → Bytes → Except Failure Bytes
  aeadDecrypt : K → K → Bytes → Bytes → Except Failure Bytes

structure SframeSender (K : Type) where
  key : K
  counter : Int
  deriving DecidableEq

structure SframeReceiver (K : Type) where
  key : K
  highestCounter : Int
  seen : Finset Int
  deriving DecidableEq

structure EncryptedFrame where
  counter : Int
  payload : Bytes
  deriving DecidableEq

def sframeFrameLabel : Bytes := utf8 "Veil/v1/SFrameFrame"

def encodeFrameHeader (counter : Int) : Except Failure Bytes := do
  let w ← ({} : Writer).u64 counter
  return w.finish

/-- What authenticates a frame besides its payload. -/
def frameAssociatedData (counter : Int) (additionalData : Bytes) : Except Failure Bytes := do
  let header ← encodeFrameHeader counter
  return ((({} : Writer).fixed header).fixed additionalData).finish

section

variable {K : Type} (prim : FramePrimitives K)

def createSender (key : K) : Except Failure (SframeSender K) :=
  if prim.keyLength key ≠ 32 then .error (.malformedInput "SFrame key must be 32 bytes")
  else .ok { key, counter := 0 }

def createReceiver (key : K) : Except Failure (SframeReceiver K) :=
  if prim.keyLength key ≠ 32 then .error (.malformedInput "SFrame key must be 32 bytes")
  else .ok { key, highestCounter := -1, seen := ∅ }

def frameKeys (key : K) (counter : Int) : Except Failure (AeadKeys K) := do
  let w ← (({} : Writer).fixed sframeFrameLabel).u64 counter
  return prim.kdf key [] w.finish

/-- The counter has moved on by the time anything can throw. -/
def encryptFrame (sender : SframeSender K) (frame additionalData : Bytes) :
    SframeSender K × Except Failure EncryptedFrame :=
  if sender.counter > maxFrameCounter then
    (sender, .error (.malformedInput "SFrame counter exhausted; the call must be re-keyed"))
  else
    ({ sender with counter := sender.counter + 1 }, do
      let keys ← frameKeys prim sender.key sender.counter
      let associatedData ← frameAssociatedData sender.counter additionalData
      let payload ← prim.aeadEncrypt keys.key keys.nonce frame associatedData
      return { counter := sender.counter, payload })

/-- The authentication of a frame, past the replay checks. -/
def openFrame (key : K) (frame : EncryptedFrame) (additionalData : Bytes) : Except Failure Bytes := do
  let keys ← frameKeys prim key frame.counter
  let associatedData ← frameAssociatedData frame.counter additionalData
  prim.aeadDecrypt keys.key keys.nonce frame.payload associatedData

/-- Counters that have fallen out of the window are dropped. -/
def SframeReceiver.prune (receiver : SframeReceiver K) : SframeReceiver K :=
  let cutoff := receiver.highestCounter - replayWindow
  if cutoff > 0 then { receiver with seen := receiver.seen.filter (fun value => ¬ value ≤ cutoff) } else receiver

def SframeReceiver.commit (receiver : SframeReceiver K) (counter : Int) : SframeReceiver K :=
  SframeReceiver.prune { receiver with
    seen := insert counter receiver.seen
    highestCounter := if counter > receiver.highestCounter then counter else receiver.highestCounter }

def decryptFrame (receiver : SframeReceiver K) (frame : EncryptedFrame) (additionalData : Bytes) :
    SframeReceiver K × Except Failure Bytes :=
  if frame.counter < 0 ∨ frame.counter > maxFrameCounter then
    (receiver, .error (.malformedInput "SFrame counter out of range"))
  else if frame.counter ∈ receiver.seen then
    (receiver, .error (.replay s!"media frame {frame.counter} was already accepted"))
  else if receiver.highestCounter ≥ 0 ∧ frame.counter + replayWindow ≤ receiver.highestCounter then
    (receiver, .error (.replay s!"media frame {frame.counter} is outside the replay window"))
  else
    match openFrame prim receiver.key frame additionalData with
    | .error e => (receiver, .error e)
    | .ok plaintext => (receiver.commit frame.counter, .ok plaintext)

end

end Veil
