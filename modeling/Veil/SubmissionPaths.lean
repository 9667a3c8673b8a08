import Veil.Registration

namespace Veil

namespace Relay

/-- How many submissions of a source were accepted since the limiter last began a window for it. -/
def acceptedSince (source : String) : List SubmissionEvent → Nat
  | [] => 0
  | .window other :: rest => if other = source then 0 else acceptedSince source rest
  | .accepted other :: rest => acceptedSince source rest + if other = source then 1 else 0

/-- The envelope passes the checks and is for an account. -/
def Passes (js : NumberText) (required : List String) (relay : Relay) (envelope : Json) : Prop :=
  checkEnvelope js required (some envelope) = none ∧ (relay.accountOf (envelope.field "recipient")).isSome

/-- No socket submits what passes its checks. -/
def ByRequest (js : NumberText) (relay : Relay) (move : RelayMove) : Prop :=
  ∀ connection parsed now, move = .message connection (some parsed) now →
    (parsed.field "type").bind Json.text? = some "send" →
      ∀ envelope ∈ parsed.field "envelope", ¬Passes js ["recipient", "ciphertext"] relay envelope

/-- No socket submits what passes its checks, also not in a message that comes as bytes. -/
def Arrival.ByRequest (js : NumberText) (server : Server) (relay : Relay) : Arrival → Prop
  | .post .. => True
  | .receive connection frame now =>
    frame.length ≤ maxBodyBytes → Relay.ByRequest js relay (.message connection (server.parseFrame frame) now)
  | .move step => Relay.ByRequest js relay step

/-- The limiter counts at least what was accepted in the window of a source. -/
structure Metered (limit : Int) (relay : Relay) : Prop where
  limited : relay.sendLimiter.limit = limit
  positive : 1 ≤ limit
  bounded : ∀ source, (acceptedSince source relay.submissions : Int) ≤ limit
  counted : ∀ source bucket, relay.sendLimiter.buckets.get? source = some bucket →
    acceptedSince source relay.submissions ≤ bucket.count ∧ (bucket.count : Int) ≤ limit

section

variable {K : Type} {crypto : Cryptography K} {js : NumberText} {relay next : Relay} {envelope : Json} {connection : Nat}
  {ip : String} {now limit : Int}

theorem checkEnvelope_none_iff {required : List String} : checkEnvelope js required (some envelope) = none ↔
    required.all (fun name => Json.truthy (envelope.field name)) = true ∧
      Json.exceeds js maxEnvelopeBytes ((envelope.field "ciphertext").bind Json.length) = .ok false := by
  unfold checkEnvelope
  simp only [Option.bind_some]
  split
  next hmissing => exact ⟨nofun, fun h => by simp [h.1] at hmissing⟩
  next hgiven =>
    have hall : required.all (fun name => Json.truthy (envelope.field name)) = true := by simpa using hgiven
    cases Json.exceeds js maxEnvelopeBytes ((envelope.field "ciphertext").bind Json.length) with
    | error e => exact ⟨nofun, fun h => by cases h.2⟩
    | ok large =>
      cases large with
      | true => exact ⟨nofun, fun h => by cases h.2⟩
      | false => exact ⟨fun _ => ⟨hall, rfl⟩, fun _ => rfl⟩

@[simp] theorem waiting_send (message : ServerSocketMessage) : (relay.send connection message).waiting = relay.waiting := by
  unfold send
  split <;> rfl

@[simp] theorem waiting_accept (origin : Origin) : (relay.accept origin).waiting = relay.waiting := by
  cases origin with
  | request => rfl
  | socket => exact waiting_send _

/-- What the bound on accepted submissions depends on. -/
def metering (relay : Relay) : RateLimiter × List SubmissionEvent := (relay.sendLimiter, relay.submissions)

@[simp] theorem metering_send (message : ServerSocketMessage) : (relay.send connection message).metering = relay.metering := by
  unfold send
  split <;> rfl

@[simp] theorem metering_accept (origin : Origin) : (relay.accept origin).metering = relay.metering := by
  cases origin with
  | request => rfl
  | socket => exact metering_send _

theorem metering_foldl_send {α : Type} (items : List α) (connection : α → Nat) (message : α → ServerSocketMessage) :
    (items.foldl (fun relay item => relay.send (connection item) (message item)) relay).metering = relay.metering := by
  induction items generalizing relay with
  | nil => rfl
  | cons item items ih =>
    rw [List.foldl_cons, ih]
    exact metering_send _

theorem metering_submit (origin : Origin) (source : String)
    (unknown : relay.accountOf (envelope.field "recipient") = none) :
    (relay.submit origin source envelope).metering = relay.metering := by
  simp [metering, submit, await, unknown]

theorem onMessage_metering {parsed : Option Json}
    (byRequest : ByRequest js relay (.message connection parsed now)) :
    (relay.onMessage js connection parsed now).metering = relay.metering := by
  rcases onMessage_cases parsed with
    ⟨_, failure, hthrows⟩ | ⟨_, hserved⟩
  · rw [hthrows]
    rfl
  · revert hserved
    generalize relay.onMessage js connection parsed now = next
    intro hserved
    cases hserved with
    | refused => exact metering_send _
    | authenticated asked resolved =>
      simp only [socketAuthenticate, resolved]
      exact metering_send _
    | ponged => exact metering_send _
    | acknowledged => rfl
    | submitted asked given passes =>
      have hfails := byRequest connection _ now rfl asked _ given
      rw [Passes, and_iff_right passes] at hfails
      exact metering_submit _ _ (Option.not_isSome_iff_eq_none.mp hfails)

theorem handle_metering {request : Request} (h : ∀ body, request ≠ .sendMessage body) (random : Bytes) :
    (relay.handle crypto js ip request random now).metering = relay.metering := by
  cases request with
  | sendMessage body => exact absurd rfl (h body)
  | register | challenge | authenticate | fetchKeys | uploadKeys | countKeys | fetchMessages | acknowledge =>
    simp only [handle, register, challenge, authenticate, uploadKeys, countKeys, fetchMessages, acknowledge]
    repeat' split
    all_goals rfl

theorem resume_metering (origin : Origin) (handler : Handler) (random : Bytes) :
    (relay.resume crypto js origin handler random now).metering = relay.metering := by
  unfold resume
  split
  next =>
    split
    next => rfl
    next => exact metering_accept _
  next =>
    rw [metering_accept]
    exact metering_foldl_send _ id _
  next => exact metering_foldl_send _ (fun _ => _) _
  next =>
    simp only [resumeRequest, upload]
    repeat' split
    all_goals rfl
  next => rfl

theorem onClose_metering : (relay.onClose connection).metering = relay.metering := by
  simp only [onClose]
  repeat' split
  all_goals rfl

theorem Metered.congr (h : relay.Metered limit) (same : next.metering = relay.metering) : next.Metered limit := by
  obtain ⟨hlimiter, hsubmissions⟩ := Prod.mk.inj same
  exact ⟨hlimiter ▸ h.limited, h.positive, hsubmissions ▸ h.bounded, hlimiter ▸ hsubmissions ▸ h.counted⟩

/-- The limiter has room for a submission of the source that is yet to be recorded. -/
def Room (source : String) (relay : Relay) : Prop :=
  ∃ bucket, relay.sendLimiter.buckets.get? source = some bucket ∧ acceptedSince source relay.submissions < bucket.count

theorem acceptedSince_window (source other : String) (events : List SubmissionEvent) :
    acceptedSince source (.window other :: events) = if other = source then 0 else acceptedSince source events := rfl

theorem acceptedSince_accepted (source other : String) (events : List SubmissionEvent) :
    acceptedSince source (.accepted other :: events) = acceptedSince source events + if other = source then 1 else 0 := rfl

/-- A window begins, with some other buckets perhaps evicted. -/
theorem Metered.window (h : relay.Metered limit) {limiter : RateLimiter} (same : limiter.limit = relay.sendLimiter.limit)
    (kept : ∀ other bucket, limiter.buckets.get? other = some bucket → relay.sendLimiter.buckets.get? other = some bucket)
    (source : String) :
    ({ relay with
      sendLimiter := { limiter with buckets := limiter.buckets.set source ⟨1, now⟩ }
      submissions := .window source :: relay.submissions } : Relay).Metered limit := by
  have hpositive := h.positive
  refine ⟨same.trans h.limited, hpositive, fun other => ?_, fun other bucket hget => ?_⟩
  · have hbounded := h.bounded other
    simp only [acceptedSince_window]
    split <;> omega
  · simp only [acceptedSince_window]
    rw [OrderedMap.get?_set] at hget
    by_cases heq : source = other
    · rw [if_pos heq.symm] at hget
      obtain rfl := Option.some.inj hget
      simp only [if_pos heq]
      omega
    · rw [if_neg (Ne.symm heq)] at hget
      simp only [if_neg heq]
      exact h.counted other bucket (kept other bucket hget)

/-- A window has room for one more. -/
theorem Metered.count (h : relay.Metered limit) {source : String} {bucket : Bucket}
    (found : relay.sendLimiter.buckets.get? source = some bucket) (below : ¬(bucket.count : Int) ≥ relay.sendLimiter.limit) :
    ({ relay with sendLimiter := { relay.sendLimiter with
        buckets := relay.sendLimiter.buckets.set source { bucket with count := bucket.count + 1 } } } : Relay).Metered limit := by
  refine ⟨h.limited, h.positive, h.bounded, fun other bucket' hget => ?_⟩
  rw [OrderedMap.get?_set] at hget
  split at hget
  next heq =>
    obtain rfl := Option.some.inj hget
    have hcounted := (h.counted source bucket found).1
    have hlimited := h.limited
    rw [heq]
    dsimp only
    omega
  next => exact h.counted other bucket' hget

theorem Metered.allow (h : relay.Metered limit) (source : String) (now : Int) :
    (relay.allow source now).2.Metered limit ∧ ((relay.allow source now).1 = true → (relay.allow source now).2.Room source) := by
  simp only [Relay.allow, RateLimiter.allow]
  cases hcurrent : relay.sendLimiter.current source now with
  | none =>
    simp only [if_true]
    refine ⟨h.window ?_ (fun other bucket hget => ?_) source, fun _ => ⟨_, OrderedMap.get?_set_self _ _ _, ?_⟩⟩
    · split
      next => exact RateLimiter.limit_evictStale
      next => rfl
    · split at hget
      next => exact RateLimiter.get?_evictStale hget
      next => exact hget
    · simp only [acceptedSince_window, if_true]
      omega
  | some bucket =>
    have hfound : relay.sendLimiter.buckets.get? source = some bucket := (Option.filter_eq_some_iff.mp hcurrent).1
    simp only [reduceCtorEq, if_false]
    by_cases hfull : (bucket.count : Int) ≥ relay.sendLimiter.limit
    · simp only [if_pos hfull]
      exact ⟨h, fun heq => by cases heq⟩
    · simp only [if_neg hfull]
      refine ⟨h.count hfound hfull, fun _ => ⟨_, OrderedMap.get?_set_self _ _ _, ?_⟩⟩
      exact Nat.lt_succ_of_le (h.counted source bucket hfound).1

theorem Metered.submit (h : relay.Metered limit) {source : String} (room : relay.Room source) (origin : Origin) :
    (relay.submit origin source envelope).Metered limit := by
  cases hknown : relay.accountOf (envelope.field "recipient") with
  | none => exact h.congr (metering_submit origin source hknown)
  | some place =>
    have hsubmissions : (relay.submit origin source envelope).submissions = .accepted source :: relay.submissions := by
      simp [Relay.submit, await, hknown]
    obtain ⟨full, hfull, hroom⟩ := room
    have hle := (h.counted source full hfull).2
    refine ⟨h.limited, h.positive, fun other => ?_, fun other bucket hget => ?_⟩
    · rw [hsubmissions, acceptedSince_accepted]
      have hbounded := h.bounded other
      split
      next heq =>
        rw [← heq]
        omega
      next => omega
    · have hcounted := h.counted other bucket hget
      rw [hsubmissions, acceptedSince_accepted]
      refine ⟨?_, hcounted.2⟩
      split
      next heq =>
        obtain rfl := heq
        obtain rfl := Option.some.inj (hfull.symm.trans hget)
        omega
      next => omega

theorem Metered.sendMessage (h : relay.Metered limit) (body : Option Json) : (relay.sendMessage js ip body now).Metered limit := by
  obtain ⟨hallowed, hroom⟩ := h.allow ip now
  simp only [Relay.sendMessage]
  cases hallow : (relay.allow ip now).1 with
  | false => exact hallowed.congr rfl
  | true =>
    simp only [Bool.not_true, Bool.false_eq_true, if_false]
    split
    next => exact hallowed.congr rfl
    next => exact hallowed.congr rfl
    next => exact hallowed.congr rfl
    next => exact hallowed.submit (hroom hallow) _

/-- Every move keeps the limiter's count, where no socket submits what passes its checks. -/
theorem Metered.perform (h : relay.Metered limit) {move : RelayMove} (byRequest : ByRequest js relay move) :
    (relay.perform crypto js move).Metered limit := by
  cases move with
  | request ip request random now =>
    by_cases hsend : ∃ body, request = .sendMessage body
    · obtain ⟨body, rfl⟩ := hsend
      exact h.sendMessage body
    · exact h.congr (handle_metering (fun body heq => hsend ⟨body, heq⟩) random)
  | connect ip => exact h.congr rfl
  | message connection parsed now => exact h.congr (onMessage_metering byRequest)
  | close connection => exact h.congr onClose_metering
  | resume index random now =>
    simp only [Relay.perform]
    split
    next => exact h
    next => exact h.congr (resume_metering _ _ _)
  | housekeeping now => exact h.congr rfl

end

/-- The parsers of a relay that meets one envelope, by its text. -/
def reads (text : String) (envelope : Json) : Server where
  parseBody body :=
    if body = utf8 ("\x7b\"envelope\":" ++ text ++ "\x7d") then some (.obj [("envelope", envelope)]) else none
  parseFrame frame :=
    if frame = utf8 ("\x7b\"type\":\"send\",\"envelope\":" ++ text ++ "\x7d") then
      some (.obj [("type", .str "send"), ("envelope", envelope)])
    else none

def envelopeToBob : Json :=
  .obj [("recipient", .str bobAddress), ("ephemeralPublicKey", .str "a2V5"), ("ciphertext", .str "aGVsbG8")]

/-- A relay with a limit of one that has accepted a message for Bob. -/
def posted : Relay :=
  (listed 1).perform spelled plainNumbers
    (.request "10.0.0.1" (.sendMessage (some (.obj [("envelope", envelopeToBob)]))) [] 0)

end Relay

end Veil
