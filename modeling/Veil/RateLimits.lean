import Veil.Library.Runs
import Veil.Library.Windows
import Veil.RateLimiter

namespace Veil

namespace RateLimiter

variable {limiter : RateLimiter} {key : String} {timestamp : Int}

theorem evictStale_eq : limiter.evictStale timestamp = { limiter with buckets := (limiter.evictStale timestamp).buckets } := by
  unfold evictStale
  dsimp only
  split <;> rfl

/-- A key without a window, or whose window is over, begins one; other buckets may be dropped. -/
theorem allow_new (h : limiter.current key timestamp = none) : ∃ kept : OrderedMap String Bucket,
    limiter.allow key timestamp = (true, { limiter with buckets := kept.set key ⟨1, timestamp⟩ }) ∧
      ∀ other bucket, kept.get? other = some bucket → limiter.buckets.get? other = some bucket := by
  unfold allow
  rw [h]
  dsimp only
  split
  next =>
    refine ⟨(limiter.evictStale timestamp).buckets, ?_, fun other bucket hkept => get?_evictStale hkept⟩
    rw [evictStale_eq]
  next => exact ⟨limiter.buckets, rfl, fun other bucket hkept => hkept⟩

/-- In a window, a key is allowed until its count is at the limit. -/
theorem allow_current {bucket : Bucket} (h : limiter.current key timestamp = some bucket) : limiter.allow key timestamp =
    if bucket.count ≥ limiter.limit then (false, limiter)
    else (true, { limiter with buckets := limiter.buckets.set key { bucket with count := bucket.count + 1 } }) := by
  unfold allow
  rw [h]

theorem current_eq_some {bucket : Bucket} : limiter.current key timestamp = some bucket ↔
    limiter.buckets.get? key = some bucket ∧ timestamp - bucket.windowStart < limiter.windowMs := by
  unfold current
  rw [Option.filter_eq_some_iff]
  refine and_congr_right fun _ => ?_
  simp [stale]

theorem current_eq_none : limiter.current key timestamp = none ↔
    ∀ bucket, limiter.buckets.get? key = some bucket → limiter.windowMs ≤ timestamp - bucket.windowStart := by
  unfold current
  rw [Option.filter_eq_none_iff]
  simp [stale]

theorem size_deleteAll_le (buckets : OrderedMap String Bucket) (keys : List String) :
    (deleteAll buckets keys).size ≤ buckets.size := by
  unfold deleteAll OrderedMap.size
  rw [OrderedMap.entries_foldl_delete]
  exact List.length_filter_le _ _

/-- One of the keys at least is dropped. -/
theorem size_deleteAll_lt {buckets : OrderedMap String Bucket} {keys : List String} {entry : String × Bucket}
    (tracked : entry ∈ buckets.entries) (deleted : entry.1 ∈ keys) : (deleteAll buckets keys).size < buckets.size := by
  unfold deleteAll OrderedMap.size
  rw [OrderedMap.entries_foldl_delete]
  refine List.length_filter_lt_length_iff_exists.mpr ⟨entry, tracked, ?_⟩
  simpa using deleted

/-- Eviction makes room. -/
theorem size_evictStale (h : limiter.buckets.size ≤ maxTrackedKeys) :
    (limiter.evictStale timestamp).buckets.size < maxTrackedKeys := by
  unfold evictStale
  dsimp only
  have hstale := size_deleteAll_le limiter.buckets
    ((limiter.buckets.entries.filter (fun entry => limiter.stale timestamp entry.2)).map Prod.fst)
  split
  next hfull =>
    set buckets := deleteAll limiter.buckets
      ((limiter.buckets.entries.filter (fun entry => limiter.stale timestamp entry.2)).map Prod.fst) with hbuckets
    set oldest := buckets.entries.mergeSort (fun a b => a.2.windowStart ≤ b.2.windowStart) with holdest
    have hlength : oldest.length = buckets.size := List.length_mergeSort _
    have hpos : 0 < oldest.length := by
      rw [hlength]
      exact Nat.lt_of_lt_of_le (by decide) hfull
    have hfirst : oldest[0] ∈ oldest.take (maxTrackedKeys / 10) := by
      refine List.mem_take_iff_getElem.mpr ⟨0, ?_, rfl⟩
      exact Nat.lt_min.mpr ⟨by decide, hpos⟩
    have htracked : oldest[0] ∈ buckets.entries := List.mem_mergeSort.mp (List.getElem_mem hpos)
    have hlt := size_deleteAll_lt htracked (List.mem_map_of_mem hfirst)
    exact Nat.lt_of_lt_of_le hlt (Nat.le_trans hstale h)
  next hroom => exact Nat.lt_of_not_le hroom

/-- The map never grows past what is tracked. -/
theorem size_allow (h : limiter.buckets.size ≤ maxTrackedKeys) :
    (limiter.allow key timestamp).2.buckets.size ≤ maxTrackedKeys := by
  cases hcurrent : limiter.current key timestamp with
  | none =>
    unfold allow
    rw [hcurrent]
    dsimp only
    split
    next =>
      have hroom := @size_evictStale limiter timestamp h
      have hset := OrderedMap.size_set_le (limiter.evictStale timestamp).buckets key ⟨1, timestamp⟩
      omega
    next hroom =>
      have hset := OrderedMap.size_set_le limiter.buckets key ⟨1, timestamp⟩
      omega
  | some bucket =>
    rw [allow_current hcurrent]
    split
    next => exact h
    next =>
      obtain ⟨hfound, _⟩ := current_eq_some.mp hcurrent
      have hsize := OrderedMap.size_set_of_get?_some { bucket with count := bucket.count + 1 } hfound
      rw [hsize]
      exact h

end RateLimiter

/-- A call of the limiter with its answer, and where the window began that it leaves the key in. -/
structure RateCall where
  key : String
  timestamp : Int
  allowed : Bool
  windowStart : Int

/-- A limiter with the calls so far. -/
structure RateHistory where
  limiter : RateLimiter
  calls : List RateCall := []

namespace RateHistory

/-- A limiter as it is made. -/
def opened (limit windowMs : Int) : RateHistory := { limiter := { limit, windowMs } }

def called (limiter : RateLimiter) (key : String) (timestamp : Int) : RateCall where
  key
  timestamp
  allowed := (limiter.allow key timestamp).1
  windowStart := ((limiter.allow key timestamp).2.buckets.get? key).elim timestamp Bucket.windowStart

def perform (key : String) (timestamp : Int) (history : RateHistory) : RateHistory where
  limiter := (history.limiter.allow key timestamp).2
  calls := history.calls ++ [called history.limiter key timestamp]

def Step (permitted : RateHistory → String → Int → Prop) (history next : RateHistory) : Prop :=
  ∃ key timestamp, permitted history key timestamp ∧ next = history.perform key timestamp

/-- The clock does not go back. -/
def Onward (history : RateHistory) (_key : String) (timestamp : Int) : Prop :=
  ∀ call ∈ history.calls, call.timestamp ≤ timestamp

/-- A call drops the bucket of another key whose window is not over. -/
def Evicts (limiter : RateLimiter) (key : String) (timestamp : Int) (other : String) : Prop :=
  (limiter.current other timestamp).isSome = true ∧ (limiter.allow key timestamp).2.buckets.get? other = none

/-- The clock does not go back, and the key keeps its bucket while its window lasts. -/
def Spares (key : String) (history : RateHistory) (other : String) (timestamp : Int) : Prop :=
  history.Onward other timestamp ∧ ¬ Evicts history.limiter other timestamp key

/-- How many calls of a key have been allowed since, at times from `first` on and before `first + length`. -/
def allowedWithin (earlier history : RateHistory) (key : String) (first length : Int) : Nat :=
  (history.calls.drop earlier.calls.length).countP (fun call =>
    call.key = key ∧ call.allowed = true ∧ first ≤ call.timestamp ∧ call.timestamp < first + length)

/-- The calls of a key that have been allowed since, in their windows. -/
def entries (key : String) (calls : List RateCall) : List Windows.Entry :=
  (calls.filter (fun call => call.key = key ∧ call.allowed = true)).map (fun call => ⟨call.timestamp, call.windowStart⟩)

/-- The bucket of the key is within the limit, and its window began with a call. -/
structure Dated (limit windowMs : Int) (key : String) (history : RateHistory) : Prop where
  limit_eq : history.limiter.limit = limit
  windowMs_eq : history.limiter.windowMs = windowMs
  bounded : ∀ bucket, history.limiter.buckets.get? key = some bucket → (bucket.count : Int) ≤ limit
  dated : ∀ bucket, history.limiter.buckets.get? key = some bucket →
    ∃ call ∈ history.calls, call.key = key ∧ call.timestamp = bucket.windowStart

/-- The calls of the key since are in windows apart, the last of them that of the bucket; without a bucket they are over. -/
structure Counted (limit : Nat) (windowMs : Int) (key : String) (past : Nat) (history : RateHistory) : Prop where
  apart : Windows.Apart windowMs limit (entries key (history.calls.drop past))
  last : ∀ bucket, history.limiter.buckets.get? key = some bucket →
    (∀ entry ∈ entries key (history.calls.drop past),
      entry.start = bucket.windowStart ∨ entry.start + windowMs ≤ bucket.windowStart) ∧
    (entries key (history.calls.drop past)).countP (fun entry => entry.start = bucket.windowStart) ≤ bucket.count
  ended : history.limiter.buckets.get? key = none → ∀ entry ∈ entries key (history.calls.drop past),
    ∃ call ∈ history.calls, entry.start + windowMs ≤ call.timestamp
  longer : past ≤ history.calls.length

section

variable {limit windowMs timestamp : Int} {key other : String} {history next earlier : RateHistory} {past room : Nat}

/-- What a call of another key does to the bucket: it stays as it is, or is dropped. -/
theorem get?_allow_of_ne (ne : other ≠ key) {bucket : Bucket}
    (h : (history.limiter.allow key timestamp).2.buckets.get? other = some bucket) :
    history.limiter.buckets.get? other = some bucket := by
  cases hcurrent : history.limiter.current key timestamp with
  | none =>
    obtain ⟨kept, hallow, hkept⟩ := RateLimiter.allow_new hcurrent
    rw [hallow] at h
    exact hkept other bucket ((OrderedMap.get?_set_of_ne kept _ ne).symm.trans h)
  | some current =>
    rw [RateLimiter.allow_current hcurrent] at h
    split at h
    next => exact h
    next => exact (OrderedMap.get?_set_of_ne _ _ ne).symm.trans h

theorem settings_allow : (history.limiter.allow key timestamp).2.limit = history.limiter.limit ∧
    (history.limiter.allow key timestamp).2.windowMs = history.limiter.windowMs := by
  cases hcurrent : history.limiter.current key timestamp with
  | none =>
    obtain ⟨kept, hallow, _⟩ := RateLimiter.allow_new hcurrent
    rw [hallow]
    exact ⟨rfl, rfl⟩
  | some current =>
    rw [RateLimiter.allow_current hcurrent]
    split
    next => exact ⟨rfl, rfl⟩
    next => exact ⟨rfl, rfl⟩

theorem mem_perform {call : RateCall} (h : call ∈ history.calls) : call ∈ (history.perform key timestamp).calls :=
  List.mem_append_left _ h

theorem called_mem : called history.limiter key timestamp ∈ (history.perform key timestamp).calls :=
  List.mem_append_right _ (List.mem_singleton_self _)

theorem Dated.perform (h : Dated limit windowMs key history) (positive : 1 ≤ limit) :
    Dated limit windowMs key (history.perform other timestamp) := by
  have hsettings := @settings_allow timestamp other history
  have hstays : ∀ bucket, history.limiter.buckets.get? key = some bucket →
      ∃ call ∈ (history.perform other timestamp).calls, call.key = key ∧ call.timestamp = bucket.windowStart := by
    intro bucket hbucket
    obtain ⟨call, hmem, hcall⟩ := h.dated bucket hbucket
    exact ⟨call, mem_perform hmem, hcall⟩
  refine ⟨hsettings.1.trans h.limit_eq, hsettings.2.trans h.windowMs_eq, fun bucket hbucket => ?_, fun bucket hbucket => ?_⟩
  · have hbucket : (history.limiter.allow other timestamp).2.buckets.get? key = some bucket := hbucket
    by_cases ne : key = other
    · subst ne
      cases hcurrent : history.limiter.current key timestamp with
      | none =>
        obtain ⟨kept, hallow, _⟩ := RateLimiter.allow_new hcurrent
        rw [hallow, OrderedMap.get?_set_self] at hbucket
        obtain rfl := Option.some.inj hbucket
        exact positive
      | some current =>
        obtain ⟨hfound, _⟩ := RateLimiter.current_eq_some.mp hcurrent
        rw [RateLimiter.allow_current hcurrent, h.limit_eq] at hbucket
        split at hbucket
        next => exact h.bounded bucket hbucket
        next hroom =>
          rw [OrderedMap.get?_set_self] at hbucket
          obtain rfl := Option.some.inj hbucket
          show ((current.count + 1 : Nat) : Int) ≤ limit
          omega
    · exact h.bounded bucket (get?_allow_of_ne ne hbucket)
  · have hbucket : (history.limiter.allow other timestamp).2.buckets.get? key = some bucket := hbucket
    by_cases ne : key = other
    · subst ne
      cases hcurrent : history.limiter.current key timestamp with
      | none =>
        obtain ⟨kept, hallow, _⟩ := RateLimiter.allow_new hcurrent
        rw [hallow, OrderedMap.get?_set_self] at hbucket
        obtain rfl := Option.some.inj hbucket
        exact ⟨_, called_mem, rfl, rfl⟩
      | some current =>
        obtain ⟨hfound, _⟩ := RateLimiter.current_eq_some.mp hcurrent
        rw [RateLimiter.allow_current hcurrent] at hbucket
        split at hbucket
        next => exact hstays bucket hbucket
        next =>
          rw [OrderedMap.get?_set_self] at hbucket
          obtain rfl := Option.some.inj hbucket
          exact hstays current hfound
    · exact hstays bucket (get?_allow_of_ne ne hbucket)

theorem entries_perform (longer : past ≤ history.calls.length) :
    entries key ((history.perform other timestamp).calls.drop past) = entries key (history.calls.drop past) ++
      if other = key ∧ (history.limiter.allow other timestamp).1 = true then
        [⟨timestamp, (called history.limiter other timestamp).windowStart⟩] else [] := by
  have hdrop : (history.perform other timestamp).calls.drop past =
      history.calls.drop past ++ [called history.limiter other timestamp] := List.drop_append_of_le_length longer
  rw [hdrop, entries, List.filter_append, List.map_append, entries]
  congr 1
  by_cases h : other = key ∧ (history.limiter.allow other timestamp).1 = true
  · have hkeeps : decide ((called history.limiter other timestamp).key = key ∧
        (called history.limiter other timestamp).allowed = true) = true := decide_eq_true h
    rw [if_pos h, List.filter_singleton, hkeeps]
    rfl
  · have hdrops : decide ((called history.limiter other timestamp).key = key ∧
        (called history.limiter other timestamp).allowed = true) = false := decide_eq_false h
    rw [if_neg h, List.filter_singleton, hdrops]
    rfl

/-- A call that is refused, or of another key, counts for nothing. -/
theorem Counted.idle (h : Counted room windowMs key past history)
    (uncounted : ¬(other = key ∧ (history.limiter.allow other timestamp).1 = true))
    (kept : ∀ bucket, (history.limiter.allow other timestamp).2.buckets.get? key = some bucket →
      history.limiter.buckets.get? key = some bucket)
    (dropped : ∀ bucket, history.limiter.buckets.get? key = some bucket →
      (history.limiter.allow other timestamp).2.buckets.get? key = none → bucket.windowStart + windowMs ≤ timestamp) :
    Counted room windowMs key past (history.perform other timestamp) := by
  have hentries : entries key ((history.perform other timestamp).calls.drop past) = entries key (history.calls.drop past) := by
    rw [entries_perform h.longer, if_neg uncounted, List.append_nil]
  refine ⟨?_, fun bucket hbucket => ?_, fun hnone entry hmem => ?_, ?_⟩
  · rw [hentries]
    exact h.apart
  · rw [hentries]
    exact h.last bucket (kept bucket hbucket)
  · rw [hentries] at hmem
    cases hbefore : history.limiter.buckets.get? key with
    | none =>
      obtain ⟨call, hcall, hended⟩ := h.ended hbefore entry hmem
      exact ⟨call, mem_perform hcall, hended⟩
    | some bucket =>
      have hend := dropped bucket hbefore hnone
      have hlast := (h.last bucket hbefore).1 entry hmem
      have hwithin := h.apart.within entry hmem
      refine ⟨_, called_mem, ?_⟩
      show entry.start + windowMs ≤ timestamp
      omega
  · show past ≤ (history.calls ++ [_]).length
    have hlonger := h.longer
    rw [List.length_append]
    omega

/-- A call that is allowed, in a window with room for it. -/
theorem Counted.count (h : Counted room windowMs key past history) (bucket : Bucket)
    (allowed : (history.limiter.allow key timestamp).1 = true)
    (after : (history.limiter.allow key timestamp).2.buckets.get? key = some bucket)
    (within : bucket.windowStart ≤ timestamp ∧ timestamp < bucket.windowStart + windowMs)
    (last : ∀ entry ∈ entries key (history.calls.drop past),
      entry.start = bucket.windowStart ∨ entry.start + windowMs ≤ bucket.windowStart)
    (counts : (entries key (history.calls.drop past)).countP (fun entry => entry.start = bucket.windowStart) < bucket.count)
    (bounded : bucket.count ≤ room) : Counted room windowMs key past (history.perform key timestamp) := by
  have hstart : (called history.limiter key timestamp).windowStart = bucket.windowStart := by
    unfold called
    rw [after]
    rfl
  have hentries : entries key ((history.perform key timestamp).calls.drop past) =
      entries key (history.calls.drop past) ++ [⟨timestamp, bucket.windowStart⟩] := by
    rw [entries_perform h.longer, if_pos ⟨rfl, allowed⟩, hstart]
  refine ⟨?_, fun bucket' hbucket => ?_, fun hnone => ?_, ?_⟩
  · rw [hentries]
    exact h.apart.push within last (Nat.lt_of_lt_of_le counts bounded)
  · have hafter : (history.limiter.allow key timestamp).2.buckets.get? key = some bucket' := hbucket
    obtain rfl := Option.some.inj (after.symm.trans hafter)
    rw [hentries]
    refine ⟨fun entry hmem => ?_, ?_⟩
    · rcases List.mem_append.mp hmem with hmem | hmem
      · exact last entry hmem
      · rw [List.mem_singleton.mp hmem]
        exact Or.inl rfl
    · rw [List.countP_append, List.countP_singleton, decide_eq_true rfl, if_pos rfl]
      exact counts
  · have hnone : (history.limiter.allow key timestamp).2.buckets.get? key = none := hnone
    exact absurd (hnone.symm.trans after) nofun
  · show past ≤ (history.calls ++ [_]).length
    have hlonger := h.longer
    rw [List.length_append]
    omega

/-- Every call that spares the bucket of the key keeps its calls counted. -/
theorem Counted.perform (h : Counted room windowMs key past history) (dated : Dated room windowMs key history)
    (open_ : 0 < windowMs) (positive : 1 ≤ room) (spares : Spares key history other timestamp) :
    Counted room windowMs key past (history.perform other timestamp) := by
  obtain ⟨honward, hspared⟩ := spares
  by_cases ne : key = other
  · subst ne
    cases hcurrent : history.limiter.current key timestamp with
    | none =>
      obtain ⟨kept, hallow, _⟩ := RateLimiter.allow_new hcurrent
      have hbefore := RateLimiter.current_eq_none.mp hcurrent
      rw [dated.windowMs_eq] at hbefore
      -- every earlier window of the key is over
      have hended : ∀ entry ∈ entries key (history.calls.drop past), entry.start + windowMs ≤ timestamp := by
        intro entry hmem
        cases hfound : history.limiter.buckets.get? key with
        | none =>
          obtain ⟨call, hcall, hended⟩ := h.ended hfound entry hmem
          have htime := honward call hcall
          omega
        | some bucket =>
          have hstale := hbefore bucket hfound
          have hlast := (h.last bucket hfound).1 entry hmem
          omega
      have hzero : (entries key (history.calls.drop past)).countP (fun entry => entry.start = timestamp) = 0 := by
        refine List.countP_eq_zero.mpr fun entry hmem hsame => ?_
        have hend := hended entry hmem
        have hsame := of_decide_eq_true hsame
        omega
      refine h.count ⟨1, timestamp⟩ ?_ ?_ ⟨Int.le_refl _, ?_⟩ (fun entry hmem => Or.inr (hended entry hmem)) ?_ positive
      · rw [hallow]
      · rw [hallow]
        exact OrderedMap.get?_set_self _ _ _
      · show timestamp < timestamp + windowMs
        omega
      · rw [hzero]
        exact Nat.one_pos
    | some bucket =>
      obtain ⟨hfound, hlive⟩ := RateLimiter.current_eq_some.mp hcurrent
      rw [dated.windowMs_eq] at hlive
      have hallow := RateLimiter.allow_current hcurrent
      rw [dated.limit_eq] at hallow
      obtain ⟨hlast, hcounts⟩ := h.last bucket hfound
      by_cases hfull : (bucket.count : Int) ≥ room
      · rw [if_pos hfull] at hallow
        refine h.idle (fun hcounted => ?_) (fun bucket' hbucket => ?_) fun bucket' _ hnone => ?_
        · rw [hallow] at hcounted
          cases hcounted.2
        · rwa [hallow] at hbucket
        · rw [hallow] at hnone
          exact absurd (hnone.symm.trans hfound) nofun
      · rw [if_neg hfull] at hallow
        obtain ⟨call, hcall, _, hdate⟩ := dated.dated bucket hfound
        have htime := honward call hcall
        refine h.count { bucket with count := bucket.count + 1 } ?_ ?_ ⟨?_, ?_⟩ hlast ?_ ?_
        · rw [hallow]
        · rw [hallow]
          exact OrderedMap.get?_set_self _ _ _
        · show bucket.windowStart ≤ timestamp
          omega
        · show timestamp < bucket.windowStart + windowMs
          omega
        · exact Nat.lt_succ_of_le hcounts
        · show bucket.count + 1 ≤ room
          omega
  · refine h.idle (fun hcounted => ne hcounted.1.symm) (fun bucket hbucket => get?_allow_of_ne ne hbucket) fun bucket hbucket hnone => ?_
    by_contra hlive
    have hcurrent : history.limiter.current key timestamp = some bucket := by
      refine RateLimiter.current_eq_some.mpr ⟨hbucket, ?_⟩
      rw [dated.windowMs_eq]
      omega
    exact hspared ⟨by rw [hcurrent]; rfl, hnone⟩

/-- What is counted in an interval, as windows see it. -/
theorem allowedWithin_eq {first length : Int} : allowedWithin earlier history key first length =
    (entries key (history.calls.drop earlier.calls.length)).countP (fun entry => first ≤ entry.time ∧ entry.time < first + length) := by
  unfold allowedWithin entries
  rw [List.countP_map, List.countP_filter]
  congr 1
  funext call
  simp only [Function.comp_apply, ← Bool.decide_and]
  congr 1
  refine propext ⟨?_, ?_⟩
  · rintro ⟨hkey, hallowed, hin⟩
    exact ⟨hin, hkey, hallowed⟩
  · rintro ⟨hin, hkey, hallowed⟩
    exact ⟨hkey, hallowed, hin⟩

/-- A window of no length holds nothing. -/
theorem allowedWithin_nonpos {first : Int} (h : windowMs ≤ 0) : allowedWithin earlier history key first windowMs = 0 := by
  unfold allowedWithin
  refine List.countP_eq_zero.mpr fun call _ hin => ?_
  obtain ⟨_, _, hfrom, hto⟩ := of_decide_eq_true hin
  omega

theorem Counted.start : Counted room windowMs key history.calls.length history := by
  have hempty : entries key (history.calls.drop history.calls.length) = [] := by
    rw [List.drop_length]
    rfl
  refine ⟨hempty ▸ .nil, fun bucket hbucket => ?_, fun hnone => ?_, Nat.le_refl _⟩
  · rw [hempty]
    exact ⟨nofun, Nat.zero_le _⟩
  · rw [hempty]
    exact nofun

end

/-- The limiter never tracks more keys than it may, whatever the clock does. Where the clock does not go back, a key whose bucket
is not dropped while its window lasts is allowed at most `limit` times in its window and at most twice as often in any interval as
long; and a key without a call for that long is allowed. -/
theorem limiter_bounds (limit windowMs : Int) (positive : 1 ≤ limit) :
    (∀ history, Relation.ReflTransGen (Step fun _ _ _ => True) (opened limit windowMs) history →
      history.limiter.trackedKeys ≤ maxTrackedKeys) ∧
    ∀ key earlier history, Relation.ReflTransGen (Step Onward) (opened limit windowMs) earlier →
      Relation.ReflTransGen (Step (Spares key)) earlier history →
      (∀ bucket, history.limiter.buckets.get? key = some bucket →
        (allowedWithin earlier history key bucket.windowStart windowMs : Int) ≤ limit) ∧
      (∀ first, (allowedWithin earlier history key first windowMs : Int) ≤ 2 * limit) ∧
      ∀ timestamp, history.Onward key timestamp →
        (∀ call ∈ history.calls, call.key = key → call.timestamp + windowMs ≤ timestamp) →
          (history.limiter.allow key timestamp).1 = true := by
  refine ⟨fun history run => ?_, fun key earlier history hearlier hrun => ?_⟩
  · refine Runs.preserved (P := fun history => history.limiter.buckets.size ≤ maxTrackedKeys) ?_ run (Nat.zero_le _)
    rintro history _ ⟨key, timestamp, _, rfl⟩ h
    exact RateLimiter.size_allow h
  · obtain ⟨room, rfl⟩ := Int.eq_ofNat_of_zero_le (Int.le_trans (by decide) positive)
    have hdated : Dated room windowMs key earlier := by
      refine Runs.preserved (P := Dated room windowMs key) ?_ hearlier ⟨rfl, rfl, nofun, nofun⟩
      rintro history _ ⟨other, timestamp, _, rfl⟩ h
      exact h.perform positive
    have hdated' : Dated room windowMs key history := by
      refine Runs.preserved (P := Dated room windowMs key) ?_ hrun hdated
      rintro history _ ⟨other, timestamp, _, rfl⟩ h
      exact h.perform positive
    have hallowed : ∀ timestamp, history.Onward key timestamp →
        (∀ call ∈ history.calls, call.key = key → call.timestamp + windowMs ≤ timestamp) →
          (history.limiter.allow key timestamp).1 = true := by
      intro timestamp _ hidle
      have hnone : history.limiter.current key timestamp = none := by
        refine RateLimiter.current_eq_none.mpr fun bucket hbucket => ?_
        obtain ⟨call, hcall, hkey, hdate⟩ := hdated'.dated bucket hbucket
        have hend := hidle call hcall hkey
        rw [hdated'.windowMs_eq]
        omega
      obtain ⟨kept, hallow, _⟩ := RateLimiter.allow_new hnone
      rw [hallow]
    by_cases hopen : 0 < windowMs
    · have hcounted : Dated room windowMs key history ∧ Counted room windowMs key earlier.calls.length history := by
        refine Runs.preserved (P := fun history => Dated room windowMs key history ∧
          Counted room windowMs key earlier.calls.length history) ?_ hrun ⟨hdated, .start⟩
        rintro history _ ⟨other, timestamp, spares, rfl⟩ ⟨hdated, hcounted⟩
        exact ⟨hdated.perform positive, hcounted.perform hdated hopen (by omega) spares⟩
      refine ⟨fun bucket hbucket => ?_, fun first => ?_, hallowed⟩
      · rw [allowedWithin_eq]
        have hsince := hcounted.2.apart.since (hcounted.2.last bucket hbucket).1
        omega
      · rw [allowedWithin_eq]
        have hinterval := hcounted.2.apart.interval first
        omega
    · have hclosed : windowMs ≤ 0 := Int.not_lt.mp hopen
      refine ⟨fun bucket hbucket => ?_, fun first => ?_, hallowed⟩
      · rw [allowedWithin_nonpos hclosed]
        omega
      · rw [allowedWithin_nonpos hclosed]
        omega

instance (history : RateHistory) (other : String) (timestamp : Int) : Decidable (history.Onward other timestamp) :=
  inferInstanceAs (Decidable (∀ call ∈ history.calls, call.timestamp ≤ timestamp))

instance (key : String) (history : RateHistory) (other : String) (timestamp : Int) :
    Decidable (Spares key history other timestamp) :=
  inferInstanceAs (Decidable (_ ∧ ¬((history.limiter.current key timestamp).isSome = true ∧
    (history.limiter.allow other timestamp).2.buckets.get? key = none)))

/-- Two keys call a limiter that allows one call a second. -/
def sampled : RateHistory := (((opened 1 1000).perform "a" 0).perform "b" 400).perform "a" 900

theorem limiter_bounds_sampled : sampled.calls.map RateCall.allowed = [true, true, false] ∧
    allowedWithin (opened 1 1000) sampled "a" 0 1000 = 1 ∧
    (∀ first, (allowedWithin (opened 1 1000) sampled "a" first 1000 : Int) ≤ 2 * 1) := by
  have hfirst : Step (Spares "a") (opened 1 1000) ((opened 1 1000).perform "a" 0) := ⟨"a", 0, by decide +kernel, rfl⟩
  have hsecond : Step (Spares "a") ((opened 1 1000).perform "a" 0) (((opened 1 1000).perform "a" 0).perform "b" 400) :=
    ⟨"b", 400, by decide +kernel, rfl⟩
  have hthird : Step (Spares "a") (((opened 1 1000).perform "a" 0).perform "b" 400) sampled := ⟨"a", 900, by decide +kernel, rfl⟩
  have hrun := ((Relation.ReflTransGen.single hfirst).tail hsecond).tail hthird
  exact ⟨by decide +kernel, by decide +kernel, ((limiter_bounds 1 1000 (by decide)).2 "a" _ _ .refl hrun).2.1⟩

end RateHistory

end Veil
