import Veil.Wire

namespace Veil

def paddingMarker : UInt8 := 0x80

def minBucket : Nat := 128

/-- `Math.ceil(bucket * 1.25)`. -/
def nextBucket (bucket : Nat) : Nat := (bucket * 5 + 3) / 4

theorem lt_nextBucket {bucket : Nat} (h : 0 < bucket) : bucket < nextBucket bucket := by
  simp only [nextBucket]
  omega

/-- The growth loop; every round adds at least one, so `needed` rounds are enough. -/
def growBucket (needed : Nat) : Nat → Nat → Nat
  | 0, bucket => bucket
  | rounds + 1, bucket => if bucket < needed then growBucket needed rounds (nextBucket bucket) else bucket

def bucketSize (length : Nat) : Nat := growBucket (length + 1) (length + 1) minBucket

def pad (plaintext : Bytes) : Bytes :=
  plaintext ++ paddingMarker :: List.replicate (bucketSize plaintext.length - plaintext.length - 1) 0

/-- The scan from the end, over the reversed bytes. -/
def unpadReversed : Bytes → Except Failure Bytes
  | [] => .error (.malformedInput "padding is malformed: no marker found")
  | byte :: rest =>
    if byte = 0x00 then unpadReversed rest
    else if byte = paddingMarker then .ok rest.reverse
    else .error (.malformedInput "padding is malformed: unexpected trailing byte")

def unpad (padded : Bytes) : Except Failure Bytes := unpadReversed padded.reverse

theorem le_growBucket {needed rounds bucket : Nat} (h : 0 < bucket) (enough : needed ≤ bucket + rounds) :
    needed ≤ growBucket needed rounds bucket := by
  induction rounds generalizing bucket with
  | zero => exact enough
  | succ rounds ih =>
    have hlt := lt_nextBucket h
    simp only [growBucket]
    split
    next => exact ih (by omega) (by omega)
    next hge => omega

theorem lt_bucketSize (length : Nat) : length < bucketSize length :=
  le_growBucket (by decide) (by omega)

theorem length_pad (plaintext : Bytes) : (pad plaintext).length = bucketSize plaintext.length := by
  have := lt_bucketSize plaintext.length
  simp only [pad, List.length_append, List.length_cons, List.length_replicate]
  omega

theorem unpadReversed_replicate (n : Nat) (rest : Bytes) :
    unpadReversed (List.replicate n 0 ++ rest) = unpadReversed rest := by
  induction n with
  | zero => rfl
  | succ n ih => simp [List.replicate_succ, unpadReversed, ih]

theorem unpad_pad (plaintext : Bytes) : unpad (pad plaintext) = .ok plaintext := by
  simp only [unpad, pad, List.reverse_append, List.reverse_cons, List.reverse_replicate, List.append_assoc,
    List.singleton_append, unpadReversed_replicate]
  simp [unpadReversed, paddingMarker]

end Veil
