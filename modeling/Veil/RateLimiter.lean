import Veil.Library.OrderedMap

namespace Veil

def maxTrackedKeys : Nat := 100000

structure Bucket where
  count : Nat
  windowStart : Int
  deriving DecidableEq

structure RateLimiter where
  limit : Int
  windowMs : Int
  buckets : OrderedMap String Bucket := .empty

namespace RateLimiter

def stale (limiter : RateLimiter) (timestamp : Int) (bucket : Bucket) : Bool :=
  timestamp - bucket.windowStart ≥ limiter.windowMs

def deleteAll (buckets : OrderedMap String Bucket) (keys : List String) : OrderedMap String Bucket :=
  keys.foldl (fun buckets key => buckets.delete key) buckets

def evictStale (timestamp : Int) (limiter : RateLimiter) : RateLimiter :=
  let buckets := deleteAll limiter.buckets
    ((limiter.buckets.entries.filter (fun entry => limiter.stale timestamp entry.2)).map Prod.fst)
  if buckets.size ≥ maxTrackedKeys then
    let oldest := buckets.entries.mergeSort (fun a b => a.2.windowStart ≤ b.2.windowStart)
    { limiter with buckets := deleteAll buckets ((oldest.take (maxTrackedKeys / 10)).map Prod.fst) }
  else { limiter with buckets }

/-- The bucket of the key, if its window is not over. -/
def current (key : String) (timestamp : Int) (limiter : RateLimiter) : Option Bucket :=
  (limiter.buckets.get? key).filter (fun bucket => !limiter.stale timestamp bucket)

def allow (key : String) (timestamp : Int) (limiter : RateLimiter) : Bool × RateLimiter :=
  match limiter.current key timestamp with
  | none =>
    let limiter := if limiter.buckets.size ≥ maxTrackedKeys then limiter.evictStale timestamp else limiter
    (true, { limiter with buckets := limiter.buckets.set key ⟨1, timestamp⟩ })
  | some bucket =>
    if bucket.count ≥ limiter.limit then (false, limiter)
    else (true, { limiter with buckets := limiter.buckets.set key { bucket with count := bucket.count + 1 } })

def trackedKeys (limiter : RateLimiter) : Nat := limiter.buckets.size

section

variable {limiter : RateLimiter} {key : String} {timestamp : Int} {bucket : Bucket}

theorem get?_deleteAll {buckets : OrderedMap String Bucket} {keys : List String}
    (h : (deleteAll buckets keys).get? key = some bucket) : buckets.get? key = some bucket := by
  induction keys generalizing buckets with
  | nil => exact h
  | cons deleted keys ih =>
    have hdeleted := ih h
    rw [OrderedMap.get?_delete] at hdeleted
    split at hdeleted
    next => cases hdeleted
    next => exact hdeleted

theorem get?_evictStale (h : (limiter.evictStale timestamp).buckets.get? key = some bucket) :
    limiter.buckets.get? key = some bucket := by
  unfold evictStale at h
  dsimp only at h
  split at h
  next => exact get?_deleteAll (get?_deleteAll h)
  next => exact get?_deleteAll h

theorem limit_evictStale : (limiter.evictStale timestamp).limit = limiter.limit := by
  unfold evictStale
  dsimp only
  split <;> rfl

end

end RateLimiter

end Veil
