import Veil.AuthHistory
import Veil.Library.Thinning
import Veil.SocketTotality

namespace Veil

/-- A call a caller waits for. `authenticate` reads the clock for the challenge and again for the token it grants. -/
inductive ServiceCall
  | issueChallenge (address : Json) (random : Bytes) (now : Int)
  | authenticate (address : String) (challenge : Json) (signature signingPublicKey : Option Json) (random : Bytes)
    (checked granted : Int)
  | resolve (token : Option Json) (now : Int)
  | revoke (token : String)

inductive ServiceStep
  | call (call : ServiceCall)
  | prune (now : Int)

/-- What a step reads off the clock, in order. -/
def ServiceStep.readings : ServiceStep → List Int
  | .call (.issueChallenge _ _ now) | .call (.resolve _ now) | .prune now => [now]
  | .call (.authenticate _ _ _ _ _ checked granted) => [checked, granted]
  | .call (.revoke _) => []

def ServiceStep.call? : ServiceStep → Option ServiceCall
  | .call asked => some asked
  | .prune _ => none

namespace AuthService

variable {K : Type} (crypto : Cryptography K) (js : NumberText)

/-- `authenticate` with both of its readings of the clock. -/
def authenticateAt (address : String) (challenge : Json) (signature signingPublicKey : Option Json) (random : Bytes)
    (checked granted : Int) (auth : AuthService) : AuthService × Option (String × Int) :=
  match challenge.text?.bind auth.challenges.get? with
  | none => (auth, none)
  | some record =>
    let auth := { auth with challenges := auth.challenges.delete (challenge.text?.getD "") }
    if accepted crypto js record address signature signingPublicKey checked then
      let token := toBase64Url random
      let expiresAt := granted + tokenTtlMs
      ({ auth with tokens := auth.tokens.set token ⟨address, expiresAt⟩ }, some (token, expiresAt))
    else (auth, none)

theorem authenticate_eq_authenticateAt (address : String) (challenge : Json) (signature signingPublicKey : Option Json)
    (random : Bytes) (now : Int) (auth : AuthService) :
    auth.authenticate crypto js address challenge signature signingPublicKey random now =
      auth.authenticateAt crypto js address challenge signature signingPublicKey random now now := rfl

def serve (auth : AuthService) : ServiceCall → AuthService × AuthAnswer
  | .issueChallenge address random now =>
    let issued := auth.issueChallenge address random now
    (issued.1, .challenge issued.2.1 issued.2.2)
  | .authenticate address challenge signature signingPublicKey random checked granted =>
    let authenticated := auth.authenticateAt crypto js address challenge signature signingPublicKey random checked granted
    (authenticated.1, .token authenticated.2)
  | .resolve token now =>
    let resolved := auth.resolve token now
    (resolved.1, .address resolved.2)
  | .revoke token => (auth.revoke token, .done)

/-- What the calls of a run return, one after the other. -/
def answers : AuthService → List ServiceStep → List AuthAnswer
  | _, [] => []
  | auth, .call call :: steps => (auth.serve crypto js call).2 :: answers (auth.serve crypto js call).1 steps
  | auth, .prune now :: steps => answers (auth.prune now) steps

/-- The service is `full` but for entries whose time is before `now`. -/
structure PrunedOf (now : Int) (auth full : AuthService) : Prop where
  challenges : auth.challenges.Thinned (fun issued => issued.expiresAt < now) full.challenges
  tokens : auth.tokens.Thinned (fun token => token.expiresAt < now) full.tokens

variable {crypto : Cryptography K} {js : NumberText} {auth full : AuthService} {now later : Int}

namespace PrunedOf

theorem refl (auth : AuthService) (now : Int) : PrunedOf now auth auth := ⟨.refl _, .refl _⟩

theorem mono (h : PrunedOf now auth full) (hle : now ≤ later) : PrunedOf later auth full := by
  constructor
  · exact h.challenges.mono fun issued hexpired => Int.lt_of_lt_of_le hexpired hle
  · exact h.tokens.mono fun token hexpired => Int.lt_of_lt_of_le hexpired hle

theorem issueChallenge (h : PrunedOf now auth full) (address : Json) (random : Bytes) :
    PrunedOf now (auth.issueChallenge address random later).1 (full.issueChallenge address random later).1 :=
  ⟨h.challenges.set _ _, h.tokens⟩

theorem revoke (h : PrunedOf now auth full) (token : String) : PrunedOf now (auth.revoke token) (full.revoke token) :=
  ⟨h.challenges, h.tokens.delete token⟩

/-- Only what `resolve` and `authenticate` would refuse at the same reading is dropped. -/
theorem prune (h : PrunedOf now auth full) : PrunedOf now (auth.prune now) full := by
  have hswept {ν : Type} (map : OrderedMap String ν) (expiresAt : ν → Int) :
      ∀ entry ∈ map.entries.filter (fun entry => expiresAt entry.2 < now), ∀ value,
        map.get? entry.1 = some value → expiresAt value < now := by
    intro entry hmem value hvalue
    obtain ⟨hentry, hexpired⟩ := List.mem_filter.mp hmem
    have hsame : map.get? entry.1 = some entry.2 := OrderedMap.get?_eq_some_iff.mpr hentry
    obtain rfl := Option.some.inj (hsame.symm.trans hvalue)
    exact of_decide_eq_true hexpired
  exact ⟨h.challenges.sweep (hswept _ _), h.tokens.sweep (hswept _ _)⟩

theorem resolve (h : PrunedOf now auth full) (token : Option Json) :
    PrunedOf now (auth.resolve token now).1 (full.resolve token now).1 ∧
      (auth.resolve token now).2 = (full.resolve token now).2 := by
  unfold AuthService.resolve
  cases token.bind Json.text? with
  | none => exact ⟨h, rfl⟩
  | some text =>
    dsimp only
    by_cases hempty : text = ""
    · rw [if_pos hempty, if_pos hempty]
      exact ⟨h, rfl⟩
    · rw [if_neg hempty, if_neg hempty]
      cases hfull : full.tokens.get? text with
      | none =>
        rw [h.tokens.get?_eq_none hfull]
        exact ⟨h, rfl⟩
      | some record =>
        by_cases hexpired : record.expiresAt < now
        · cases hauth : auth.tokens.get? text with
          | none =>
            dsimp only
            rw [if_pos hexpired]
            exact ⟨⟨h.challenges, h.tokens.delete_right hauth⟩, rfl⟩
          | some kept =>
            have hsame := h.tokens.get?_full hauth
            obtain rfl := Option.some.inj (hfull.symm.trans hsame)
            dsimp only
            rw [if_pos hexpired, if_pos hexpired]
            exact ⟨⟨h.challenges, h.tokens.delete text⟩, rfl⟩
        · rw [h.tokens.get?_eq hfull hexpired]
          dsimp only
          rw [if_neg hexpired, if_neg hexpired]
          exact ⟨h, rfl⟩

theorem accepted_expired {record : Challenge} {address : String} {signature signingPublicKey : Option Json}
    (hexpired : record.expiresAt < now) :
    accepted crypto js record address signature signingPublicKey now = false := by
  have hlate : decide (record.expiresAt ≥ now) = false := decide_eq_false (Int.not_le.mpr hexpired)
  rw [accepted, hlate]
  rfl

theorem authenticateAt (h : PrunedOf now auth full) (address : String) (challenge : Json)
    (signature signingPublicKey : Option Json) (random : Bytes) (granted : Int) :
    PrunedOf now (auth.authenticateAt crypto js address challenge signature signingPublicKey random now granted).1
        (full.authenticateAt crypto js address challenge signature signingPublicKey random now granted).1 ∧
      (auth.authenticateAt crypto js address challenge signature signingPublicKey random now granted).2 =
        (full.authenticateAt crypto js address challenge signature signingPublicKey random now granted).2 := by
  unfold AuthService.authenticateAt
  cases htext : challenge.text? with
  | none => exact ⟨h, rfl⟩
  | some text =>
    simp only [Option.bind_some, Option.getD_some]
    cases hfull : full.challenges.get? text with
    | none =>
      rw [h.challenges.get?_eq_none hfull]
      exact ⟨h, rfl⟩
    | some record =>
      cases hauth : auth.challenges.get? text with
      | none =>
        -- the entry that is gone had expired, so the full service refuses it too
        have hexpired : record.expiresAt < now := by
          by_contra hcounts
          rw [h.challenges.get?_eq hfull hcounts] at hauth
          cases hauth
        dsimp only
        rw [if_neg (by rw [accepted_expired hexpired]; exact Bool.false_ne_true)]
        exact ⟨⟨h.challenges.delete_right hauth, h.tokens⟩, rfl⟩
      | some kept =>
        have hsame := h.challenges.get?_full hauth
        obtain rfl := Option.some.inj (hfull.symm.trans hsame)
        dsimp only
        by_cases haccepted : accepted crypto js record address signature signingPublicKey now
        · rw [if_pos haccepted, if_pos haccepted]
          exact ⟨⟨h.challenges.delete text, h.tokens.set _ _⟩, rfl⟩
        · rw [if_neg haccepted, if_neg haccepted]
          exact ⟨⟨h.challenges.delete text, h.tokens⟩, rfl⟩

/-- A call returns the same, and leaves the same but for entries that are past their time at its last reading. -/
theorem serve (h : PrunedOf now auth full) {call : ServiceCall}
    (hlate : ∀ reading ∈ (ServiceStep.call call).readings, now ≤ reading)
    (hordered : (ServiceStep.call call).readings.Pairwise (· ≤ ·)) :
    (auth.serve crypto js call).2 = (full.serve crypto js call).2 ∧
      ∃ last, (last = now ∨ last ∈ (ServiceStep.call call).readings) ∧
        PrunedOf last (auth.serve crypto js call).1 (full.serve crypto js call).1 := by
  cases call with
  | issueChallenge address random read => exact ⟨rfl, now, Or.inl rfl, h.issueChallenge address random⟩
  | revoke token => exact ⟨rfl, now, Or.inl rfl, h.revoke token⟩
  | resolve token read =>
    have hread := h.mono (hlate read List.mem_cons_self)
    obtain ⟨hkept, hanswer⟩ := hread.resolve token
    exact ⟨congrArg AuthAnswer.address hanswer, read, Or.inr List.mem_cons_self, hkept⟩
  | authenticate address challenge signature signingPublicKey random checked granted =>
    have hread := h.mono (hlate checked List.mem_cons_self)
    obtain ⟨hkept, hanswer⟩ := hread.authenticateAt address challenge signature signingPublicKey random granted
    exact ⟨congrArg AuthAnswer.token hanswer, checked, Or.inr List.mem_cons_self, hkept⟩

/-- From a service and the pruned one, a run with sweeps and the same run without them return the same. -/
theorem answers_eq {steps : List ServiceStep} (h : PrunedOf now auth full)
    (hlate : ∀ reading ∈ steps.flatMap ServiceStep.readings, now ≤ reading)
    (hordered : (steps.flatMap ServiceStep.readings).Pairwise (· ≤ ·)) :
    answers crypto js auth steps = answers crypto js full ((steps.filterMap ServiceStep.call?).map .call) := by
  induction steps generalizing now auth full with
  | nil => rfl
  | cons step steps ih =>
    rw [List.flatMap_cons] at hlate hordered
    obtain ⟨hfirst, hrest, hacross⟩ := List.pairwise_append.mp hordered
    cases step with
    | prune read =>
      have hread : now ≤ read := hlate read (List.mem_append_left _ List.mem_cons_self)
      have hpruned := (h.mono hread).prune
      exact ih hpruned (fun reading hmem => hacross read List.mem_cons_self reading hmem) hrest
    | call call =>
      obtain ⟨hanswer, last, hlast, hnext⟩ : (auth.serve crypto js call).2 = (full.serve crypto js call).2 ∧
          ∃ last, (last = now ∨ last ∈ (ServiceStep.call call).readings) ∧
            PrunedOf last (auth.serve crypto js call).1 (full.serve crypto js call).1 :=
        h.serve (fun reading hmem => hlate reading (List.mem_append_left _ hmem)) hfirst
      have hafter : ∀ reading ∈ steps.flatMap ServiceStep.readings, last ≤ reading := by
        intro reading hmem
        rcases hlast with rfl | hlast
        · exact hlate reading (List.mem_append_right _ hmem)
        · exact hacross last hlast reading hmem
      show _ :: _ = _ :: _
      rw [hanswer, ih hnext hafter hrest]

end PrunedOf

/-- Sweeps put anywhere into a run change nothing that a caller is told. -/
theorem prune_unobservable (auth : AuthService) (calls : List ServiceCall) (steps : List ServiceStep)
    (inserted : steps.filterMap ServiceStep.call? = calls)
    (nondecreasing : (steps.flatMap ServiceStep.readings).Pairwise (· ≤ ·)) :
    answers crypto js auth steps = answers crypto js auth (calls.map .call) := by
  subst inserted
  cases hreadings : steps.flatMap ServiceStep.readings with
  | nil =>
    apply PrunedOf.answers_eq (.refl auth 0) _ nondecreasing
    intro reading hmem
    rw [hreadings] at hmem
    exact absurd hmem List.not_mem_nil
  | cons first rest =>
    apply PrunedOf.answers_eq (.refl auth first) _ nondecreasing
    intro reading hmem
    rw [hreadings] at hmem nondecreasing
    rcases List.mem_cons.mp hmem with rfl | hmem
    · exact Int.le_refl _
    · exact List.rel_of_pairwise_cons nondecreasing hmem

/-- A challenge lapses, is swept away, and is presented all the same. -/
theorem prune_unobservable_lapsed :
    answers spelled Relay.plainNumbers {}
        [.call (.issueChallenge (.str "anna") [1] 0), .prune 400000,
          .call (.authenticate "anna" (.str "AQ") (some (.str "AQ")) none [2] 400000 400001), .prune 400001] =
      answers spelled Relay.plainNumbers {}
        [.call (.issueChallenge (.str "anna") [1] 0),
          .call (.authenticate "anna" (.str "AQ") (some (.str "AQ")) none [2] 400000 400001)] :=
  prune_unobservable {} [.issueChallenge (.str "anna") [1] 0,
    .authenticate "anna" (.str "AQ") (some (.str "AQ")) none [2] 400000 400001] _ rfl (by decide)

end AuthService

end Veil
