import Veil.PublishedKeys

namespace Veil

/-- A call of the authentication service, with what it draws and the time it reads. -/
inductive AuthCall
  | issueChallenge (address : Json) (random : Bytes) (now : Int)
  | authenticate (address : String) (challenge : Json) (signature signingPublicKey : Option Json) (random : Bytes) (now : Int)
  | resolve (token : Option Json) (now : Int)
  | revoke (token : String)
  | prune (now : Int)

/-- What a call returns. -/
inductive AuthAnswer
  | challenge (challenge : String) (expiresAt : Int)
  | token (granted : Option (String × Int))
  | address (resolved : Option String)
  | done

/-- A call that was made and what it returned, with the accounts there were. -/
structure AuthEvent where
  records : List AccountRecord
  call : AuthCall
  answer : AuthAnswer

/-- The challenge a call presents; a value that is no text is none. -/
def AuthCall.presents : AuthCall → Option String
  | .authenticate _ challenge _ _ _ _ => challenge.text?
  | _ => none

namespace AuthService

variable {K : Type} (crypto : Cryptography K) (js : NumberText)

def call (auth : AuthService) : AuthCall → AuthService × AuthAnswer
  | .issueChallenge address random now =>
    ((auth.issueChallenge address random now).1,
      .challenge (auth.issueChallenge address random now).2.1 (auth.issueChallenge address random now).2.2)
  | .authenticate address challenge signature signingPublicKey random now =>
    ((auth.authenticate crypto js address challenge signature signingPublicKey random now).1,
      .token (auth.authenticate crypto js address challenge signature signingPublicKey random now).2)
  | .resolve token now => ((auth.resolve token now).1, .address (auth.resolve token now).2)
  | .revoke token => (auth.revoke token, .done)
  | .prune now => (auth.prune now, .done)

end AuthService

/-- A challenge has been issued, for an address, from a value and until a time. -/
def Issued (log : List AuthEvent) (challenge : String) (issued : Challenge) : Prop :=
  ∃ event ∈ log, ∃ now, event.call = .issueChallenge issued.address issued.value now ∧
    event.answer = .challenge challenge issued.expiresAt

def Presented (log : List AuthEvent) (challenge : String) : Prop := ∃ event ∈ log, event.call.presents = some challenge

def Revoked (log : List AuthEvent) (token : String) : Prop := ∃ event ∈ log, event.call = .revoke token

/-- The challenges that are drawn are not among those presented so far: random values do not repeat. -/
def Unrepeated (log : List AuthEvent) : AuthCall → Prop
  | .issueChallenge _ random _ => ¬ Presented log (toBase64Url random)
  | _ => True

section

variable {K : Type} (crypto : Cryptography K) (js : NumberText)

/-- The key is that of the address's account, and hashes to the address. -/
def RegisteredKey (records : List AccountRecord) (address : String) (publicKey : Bytes) : Prop :=
  ∃ account ∈ records, account.address = address ∧ ∃ identity, Relay.decodeIdentity js account.identity = .ok identity ∧
    identity.signingPublicKey = publicKey ∧ addressOf crypto publicKey = .ok address

/-- The event is a call of `authenticate` for the address that returned the token: its challenge had been issued for the
address, had not been presented before and was not past its time, and the signature verified under the registered key. -/
def Grants (before : List AuthEvent) (event : AuthEvent) (address token : String) (expiresAt : Int) : Prop :=
  ∃ challenge value until_ signature signingPublicKey random now signed publicKey,
    event.call = .authenticate address (.str challenge) signature signingPublicKey random now ∧
      event.answer = .token (some (token, expiresAt)) ∧ Issued before challenge ⟨.str address, value, until_⟩ ∧
      ¬ Presented before challenge ∧ now ≤ until_ ∧ bytesOf js signature = .ok signed ∧
      bytesOf js signingPublicKey = .ok publicKey ∧ RegisteredKey crypto js event.records address publicKey ∧
      crypto.verify publicKey (challengeTranscript address value) signed = true

/-- A challenge that is out was issued and not presented since; a token that is held was granted and not revoked since. -/
structure Backed (auth : AuthService) (log : List AuthEvent) : Prop where
  challenges : ∀ challenge issued, auth.challenges.get? challenge = some issued →
    Issued log challenge issued ∧ ¬ Presented log challenge
  tokens : ∀ text token, auth.tokens.get? text = some token → ∃ before event after, log = before ++ event :: after ∧
    Grants crypto js before event token.address text token.expiresAt ∧ ¬ Revoked after text

end

section

variable {K : Type} {crypto : Cryptography K} {js : NumberText} {auth later : AuthService} {log : List AuthEvent}
  {event : AuthEvent} {challenge text : String}

theorem Issued.append {issued : Challenge} (h : Issued log challenge issued) (event : AuthEvent) :
    Issued (log ++ [event]) challenge issued := by
  obtain ⟨earlier, hmem, h⟩ := h
  exact ⟨earlier, List.mem_append_left _ hmem, h⟩

theorem presented_append : Presented (log ++ [event]) challenge ↔
    Presented log challenge ∨ event.call.presents = some challenge := by
  simp only [Presented, List.mem_append, List.mem_singleton, or_and_right, exists_or, exists_eq_left]

theorem revoked_append : Revoked (log ++ [event]) text ↔ Revoked log text ∨ event.call = .revoke text := by
  simp only [Revoked, List.mem_append, List.mem_singleton, or_and_right, exists_or, exists_eq_left]

/-- What a call may do to the maps: drop entries, those it presents or revokes among them, and add what it issues or
grants. -/
theorem Backed.extend (h : Backed crypto js auth log)
    (challenges : ∀ challenge issued, later.challenges.get? challenge = some issued →
      auth.challenges.get? challenge = some issued ∧ event.call.presents ≠ some challenge ∨
        Issued (log ++ [event]) challenge issued ∧ ¬ Presented (log ++ [event]) challenge)
    (tokens : ∀ text token, later.tokens.get? text = some token →
      auth.tokens.get? text = some token ∧ event.call ≠ .revoke text ∨
        Grants crypto js log event token.address text token.expiresAt) : Backed crypto js later (log ++ [event]) := by
  refine ⟨fun challenge issued hget => ?_, fun text token hget => ?_⟩
  · rcases challenges challenge issued hget with ⟨hold, hother⟩ | hnew
    · obtain ⟨hissued, hkept⟩ := h.challenges challenge issued hold
      exact ⟨hissued.append event, fun hpresented => (presented_append.mp hpresented).elim hkept hother⟩
    · exact hnew
  · rcases tokens text token hget with ⟨hold, hother⟩ | hgrants
    · obtain ⟨before, granted, after, hlog, hgrants, hkept⟩ := h.tokens text token hold
      refine ⟨before, granted, after ++ [event], ?_, hgrants, fun hrevoked => ?_⟩
      · rw [hlog, List.append_assoc, List.cons_append]
      · exact (revoked_append.mp hrevoked).elim hkept hother
    · exact ⟨log, event, [], rfl, hgrants, fun ⟨_, hmem, _⟩ => absurd hmem List.not_mem_nil⟩

theorem get?_foldl_delete {ν : Type} {entries : List (String × ν)} {map : OrderedMap String ν} {key : String} {value : ν}
    (h : (entries.foldl (fun map entry => map.delete entry.1) map).get? key = some value) : map.get? key = some value := by
  induction entries generalizing map with
  | nil => exact h
  | cons entry entries ih =>
    have hdeleted := ih h
    rw [OrderedMap.get?_delete] at hdeleted
    split at hdeleted
    next => cases hdeleted
    next => exact hdeleted

/-- A call that only drops entries. -/
theorem Backed.drop (h : Backed crypto js auth log)
    (challenges : ∀ challenge issued, later.challenges.get? challenge = some issued → auth.challenges.get? challenge = some issued)
    (tokens : ∀ text token, later.tokens.get? text = some token →
      auth.tokens.get? text = some token ∧ event.call ≠ .revoke text)
    (silent : event.call.presents = none) : Backed crypto js later (log ++ [event]) := by
  refine h.extend (fun challenge issued hget => Or.inl ⟨challenges challenge issued hget, ?_⟩)
    fun text token hget => Or.inl (tokens text token hget)
  rw [silent]
  nofun

theorem Backed.issueChallenge (h : Backed crypto js auth log) (records : List AccountRecord) {address : Json} {random : Bytes}
    {now : Int} (unrepeated : ¬ Presented log (toBase64Url random)) :
    Backed crypto js (auth.issueChallenge address random now).1 (log ++ [⟨records, .issueChallenge address random now,
      .challenge (toBase64Url random) (now + challengeTtlMs)⟩]) := by
  refine h.extend (fun challenge issued hget => ?_) fun text token hget => Or.inl ⟨hget, fun heq => by cases heq⟩
  have hset : (auth.challenges.set (toBase64Url random) ⟨address, random, now + challengeTtlMs⟩).get? challenge =
    some issued := hget
  rw [OrderedMap.get?_set] at hset
  split at hset
  next heq =>
    obtain rfl := Option.some.inj hset
    subst heq
    refine Or.inr ⟨⟨_, List.mem_append_right _ (List.mem_singleton_self _), now, rfl, rfl⟩, fun hpresented => ?_⟩
    exact (presented_append.mp hpresented).elim unrepeated fun heq => by cases heq
  next => exact Or.inl ⟨hset, fun heq => by cases heq⟩

theorem Json.eq_str_of_text? {value : Json} (h : value.text? = some text) : value = .str text := by
  cases value with
  | str text' => rw [Option.some.inj h]
  | null | bool | num | arr | obj => cases h

/-- Why a signed challenge is accepted. -/
theorem AuthService.accepted_iff {issued : Challenge} {address : String} {signature signingPublicKey : Option Json} {now : Int} :
    accepted crypto js issued address signature signingPublicKey now = true ↔
      now ≤ issued.expiresAt ∧ issued.address = .str address ∧ ∃ signed publicKey, bytesOf js signature = .ok signed ∧
        bytesOf js signingPublicKey = .ok publicKey ∧
        crypto.verify publicKey (challengeTranscript address issued.value) signed = true := by
  have haddress : issued.address.isText address = true ↔ issued.address = .str address := by
    cases issued.address <;> simp [Json.isText]
  rw [accepted, Bool.and_eq_true, Bool.and_eq_true, haddress, and_assoc]
  refine and_congr (by simp) (and_congr Iff.rfl ?_)
  cases bytesOf js signature with
  | error e => simp
  | ok signed =>
    cases bytesOf js signingPublicKey with
    | error e => simp
    | ok publicKey => simp

theorem Backed.authenticate (h : Backed crypto js auth log) {records : List AccountRecord} {address : String} {challenge : Json}
    {signature signingPublicKey : Option Json} {random : Bytes} {now : Int}
    (registered : ∀ publicKey, bytesOf js signingPublicKey = .ok publicKey →
      RegisteredKey crypto js records address publicKey) :
    Backed crypto js (auth.authenticate crypto js address challenge signature signingPublicKey random now).1
      (log ++ [⟨records, .authenticate address challenge signature signingPublicKey random now,
        .token (auth.authenticate crypto js address challenge signature signingPublicKey random now).2⟩]) := by
  unfold AuthService.authenticate
  cases hfound : challenge.text?.bind auth.challenges.get? with
  | none =>
    refine h.extend (fun other issued hget => Or.inl ⟨hget, fun hpresents => ?_⟩) fun text token hget => Or.inl ⟨hget, fun heq => by cases heq⟩
    have htext : challenge.text? = some other := hpresents
    rw [htext, Option.bind_some, hget] at hfound
    cases hfound
  | some issued =>
    obtain ⟨text, htext, hissued⟩ := Option.bind_eq_some_iff.mp hfound
    obtain rfl := Json.eq_str_of_text? htext
    have hchallenges : ∀ other kept, (auth.challenges.delete text).get? other = some kept →
        auth.challenges.get? other = some kept ∧ some text ≠ some other := by
      intro other kept hget
      rw [OrderedMap.get?_delete] at hget
      split at hget
      next => cases hget
      next hne => exact ⟨hget, fun heq => hne (Option.some.inj heq).symm⟩
    dsimp only
    split
    next haccepted =>
      obtain ⟨hunexpired, haddress, signed, publicKey, hsigned, hpublic, hverified⟩ := AuthService.accepted_iff.mp haccepted
      refine h.extend (fun other kept hget => Or.inl (hchallenges other kept hget)) fun other token hget => ?_
      have hset : (auth.tokens.set (toBase64Url random) ⟨address, now + tokenTtlMs⟩).get? other = some token := hget
      rw [OrderedMap.get?_set] at hset
      split at hset
      next heq =>
        obtain rfl := Option.some.inj hset
        subst heq
        obtain ⟨hwas, hunpresented⟩ := h.challenges text issued hissued
        refine Or.inr ⟨text, issued.value, issued.expiresAt, signature, signingPublicKey, random, now, signed, publicKey, rfl,
          rfl, ?_, hunpresented, hunexpired, hsigned, hpublic, registered publicKey hpublic, hverified⟩
        rw [← haddress]
        exact hwas
      next => exact Or.inl ⟨hset, fun heq => by cases heq⟩
    next => exact h.extend (fun other kept hget => Or.inl (hchallenges other kept hget)) fun other token hget => Or.inl ⟨hget, fun heq => by cases heq⟩

theorem Backed.resolve (h : Backed crypto js auth log) (records : List AccountRecord) {token : Option Json} {now : Int} :
    Backed crypto js (auth.resolve token now).1 (log ++ [⟨records, .resolve token now, .address (auth.resolve token now).2⟩]) := by
  refine h.drop (fun challenge issued hget => ?_) (fun text held hget => ⟨?_, nofun⟩) rfl
  · revert hget
    unfold AuthService.resolve
    repeat' split
    all_goals exact id
  · revert hget
    unfold AuthService.resolve
    repeat' split
    next => exact id
    next => exact id
    next => exact id
    next text' record hheld hexpired =>
      intro hget
      rw [OrderedMap.get?_delete] at hget
      split at hget
      next => cases hget
      next => exact hget
    next => exact id

theorem Backed.revoke (h : Backed crypto js auth log) (records : List AccountRecord) (text : String) :
    Backed crypto js (auth.revoke text) (log ++ [⟨records, .revoke text, .done⟩]) := by
  refine h.drop (fun challenge issued hget => hget) (fun other held hget => ?_) rfl
  have hdeleted : (auth.tokens.delete text).get? other = some held := hget
  rw [OrderedMap.get?_delete] at hdeleted
  split at hdeleted
  next => cases hdeleted
  next hne => exact ⟨hdeleted, fun heq => hne (AuthCall.revoke.inj heq).symm⟩

theorem Backed.prune (h : Backed crypto js auth log) (records : List AccountRecord) {now : Int} :
    Backed crypto js (auth.prune now) (log ++ [⟨records, .prune now, .done⟩]) :=
  h.drop (fun _ _ hget => get?_foldl_delete hget) (fun _ _ hget => ⟨get?_foldl_delete hget, nofun⟩) rfl

/-- Every call keeps challenges and tokens backed by what was called before. -/
theorem Backed.call (h : Backed crypto js auth log) {records : List AccountRecord} {call : AuthCall}
    (unrepeated : Unrepeated log call)
    (registered : ∀ address challenge signature signingPublicKey random now,
      call = .authenticate address challenge signature signingPublicKey random now →
        ∀ publicKey, bytesOf js signingPublicKey = .ok publicKey → RegisteredKey crypto js records address publicKey) :
    Backed crypto js (auth.call crypto js call).1 (log ++ [⟨records, call, (auth.call crypto js call).2⟩]) := by
  cases call with
  | issueChallenge address random now => exact h.issueChallenge records unrepeated
  | authenticate address challenge signature signingPublicKey random now =>
    exact h.authenticate (registered address challenge signature signingPublicKey random now rfl)
  | resolve token now => exact h.resolve records
  | revoke token => exact h.revoke records token
  | prune now => exact h.prune records

/-- A token that resolves is held, and not past its expiry. -/
theorem AuthService.resolve_eq_some {token : Option Json} {now : Int} {address : String}
    (h : (auth.resolve token now).2 = some address) : ∃ text expiresAt, token = some (.str text) ∧
      auth.tokens.get? text = some ⟨address, expiresAt⟩ ∧ now ≤ expiresAt := by
  unfold AuthService.resolve at h
  split at h
  next => cases h
  next text htext =>
    obtain ⟨value, rfl, hvalue⟩ := Option.bind_eq_some_iff.mp htext
    obtain rfl := Json.eq_str_of_text? hvalue
    split at h
    next => cases h
    next =>
      split at h
      next => cases h
      next held hheld =>
        split at h
        next => cases h
        next hexpires =>
          obtain ⟨address', expiresAt⟩ := held
          obtain rfl := Option.some.inj h
          exact ⟨text, expiresAt, rfl, hheld, by simpa using hexpires⟩

end

end Veil
