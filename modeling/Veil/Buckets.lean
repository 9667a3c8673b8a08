import Mathlib
import Veil.Library.Ladder
import Veil.Padding

namespace Veil

/-- The bucket sizes: each is five quarters of the one before, rounded up. -/
def bucketAt : Nat → Nat
  | 0 => 128
  | k + 1 => (5 * bucketAt k) ⌈/⌉ 4

theorem nextBucket_eq (bucket : Nat) : nextBucket bucket = (5 * bucket) ⌈/⌉ 4 := by
  rw [Nat.ceilDiv_eq_add_pred_div, nextBucket]
  omega

theorem nextBucket_mono {bucket bucket' : Nat} (h : bucket ≤ bucket') : nextBucket bucket ≤ nextBucket bucket' := by
  simp only [nextBucket]
  omega

theorem id_le_nextBucket : id ≤ nextBucket := by
  intro bucket
  simp only [id, nextBucket]
  omega

theorem bucketAt_eq_iterate (k : Nat) : bucketAt k = nextBucket^[k] minBucket := by
  induction k with
  | zero => rfl
  | succ k ih => rw [Function.iterate_succ_apply', ← ih, nextBucket_eq, bucketAt]

theorem growBucket_eq_climb (needed rounds bucket : Nat) :
    growBucket needed rounds bucket = Ladder.climb nextBucket needed rounds bucket := by
  induction rounds generalizing bucket with
  | zero => rfl
  | succ rounds ih => rw [growBucket, Ladder.climb, ih]

theorem bucketSize_eq_climb (length : Nat) :
    bucketSize length = Ladder.climb nextBucket (length + 1) (length + 1) minBucket := growBucket_eq_climb _ _ _

/-- The loop ends: it grows the bucket until it is large enough. -/
theorem bucketSize_eq_bucketAt (length : Nat) :
    ∃ rounds, bucketSize length = bucketAt rounds ∧ length + 1 ≤ bucketAt rounds ∧
      ∀ earlier < rounds, bucketAt earlier < length + 1 := by
  obtain ⟨rounds, hrounds, hbelow⟩ := Ladder.climb_eq_iterate nextBucket (length + 1) (length + 1) minBucket
  have hsize : bucketSize length = bucketAt rounds := by rw [bucketSize_eq_climb, hrounds, bucketAt_eq_iterate]
  refine ⟨rounds, hsize, ?_, ?_⟩
  · rw [← hsize]
    exact lt_bucketSize length
  · intro earlier hearlier
    rw [bucketAt_eq_iterate]
    exact hbelow earlier hearlier

theorem bucketSize_least (length : Nat) :
    IsLeast (Ladder.above nextBucket minBucket (length + 1)) (bucketSize length) := by
  have hreached : length + 1 ≤ bucketSize length := lt_bucketSize length
  rw [bucketSize_eq_climb] at hreached ⊢
  exact Ladder.isLeast_climb id_le_nextBucket hreached

theorem above_eq (needed : Nat) :
    Ladder.above nextBucket minBucket needed = {bucket | bucket ∈ Set.range bucketAt ∧ needed ≤ bucket} := by
  ext bucket
  have hrange : (∃ k, nextBucket^[k] minBucket = bucket) ↔ bucket ∈ Set.range bucketAt := by
    simp only [← bucketAt_eq_iterate, Set.mem_range]
  exact and_congr_left fun _ => hrange

theorem bucketSize_mono : Monotone bucketSize := fun _ _ h =>
  Ladder.least_mono (bucketSize_least _) (bucketSize_least _) (Nat.succ_le_succ h)

/-- A message that fills its bucket up to the marker stays in it. -/
theorem bucketSize_pred (length : Nat) : bucketSize (bucketSize length - 1) = bucketSize length := by
  have hpos : bucketSize length - 1 + 1 = bucketSize length := Nat.sub_add_cancel (Nat.zero_lt_of_lt (lt_bucketSize length))
  have hleast := bucketSize_least (bucketSize length - 1)
  rw [hpos] at hleast
  exact hleast.unique (Ladder.least_self (bucketSize_least length))

theorem bucketSize_le (length : Nat) : bucketSize length ≤ max 128 ((5 * length) ⌈/⌉ 4) := by
  rw [bucketSize_eq_climb]
  rcases Ladder.climb_eq_start_or_step nextBucket (length + 1) (length + 1) minBucket with hstart | ⟨bucket, hlow, hstep⟩
  · rw [hstart]
    exact le_max_left _ _
  · rw [hstep, ← nextBucket_eq]
    exact le_max_of_le_right (nextBucket_mono (Nat.le_of_lt_succ hlow))

/-- Padding comes off as it was put on, and the bucket of a length is the first that has room for it and the marker. -/
theorem padding_bucketed : (∀ plaintext, unpad (pad plaintext) = .ok plaintext) ∧ Monotone bucketSize ∧ ∀ length,
    (∃ rounds, bucketSize length = bucketAt rounds ∧ length + 1 ≤ bucketAt rounds ∧
      ∀ earlier < rounds, bucketAt earlier < length + 1) ∧
    IsLeast {bucket | bucket ∈ Set.range bucketAt ∧ length + 1 ≤ bucket} (bucketSize length) ∧
    bucketSize (bucketSize length - 1) = bucketSize length ∧ bucketSize length ≤ max 128 ((5 * length) ⌈/⌉ 4) := by
  refine ⟨unpad_pad, bucketSize_mono, fun length => ⟨bucketSize_eq_bucketAt length, ?_, bucketSize_pred length,
    bucketSize_le length⟩⟩
  rw [← above_eq]
  exact bucketSize_least length

end Veil
