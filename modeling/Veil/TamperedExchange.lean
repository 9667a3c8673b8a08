import Veil.RatchetDelivery
import Veil.Preservation

namespace Veil

section

variable {K : Type} {prim : RatchetPrimitives K} {generated : KeyPair K → Prop}

namespace Exchange

open Conversation

/-- The exchange on a network that also loses, withholds and injects. Whatever a party handles, it makes
no stray turn, and a message it throws on evicts no cached key. -/
inductive TamperedStep (prim : RatchetPrimitives K) (generated : KeyPair K → Prop) : Exchange K → Exchange K → Prop
  | encrypt (w : Exchange K) (r : Role) (plaintext : Bytes) :
      TamperedStep prim generated w (w.encrypt prim r plaintext)
  | lose (w : Exchange K) (before : List Letter) (letter : Letter) (after : List Letter)
      (inFlight : w.inFlight = before ++ letter :: after) :
      TamperedStep prim generated w { w with inFlight := before ++ after }
  | accept (w : Exchange K) (before : List Letter) (letter : Letter) (after : List Letter) (fresh : KeyPair K)
      (opened : Bytes) (inFlight : w.inFlight = before ++ letter :: after)
      (accepted : (ratchetDecrypt prim fresh (w.state letter.recipient) letter.message).2 = .ok opened)
      (safe : TurnSafe prim (w.state letter.recipient) (w.state letter.recipient.other) letter.message.header)
      (draws : StartsTurn prim (w.state letter.recipient) letter.message.header → w.Generates generated fresh) :
      TamperedStep prim generated w
        { w.decrypt prim letter.recipient fresh letter.message with inFlight := before ++ after }
  | reject (w : Exchange K) (r : Role) (message : RatchetMessage) (fresh : KeyPair K) (failure : Failure)
      (thrown : (ratchetDecrypt prim fresh (w.state r) message).2 = .error failure)
      (safe : TurnSafe prim (w.state r) (w.state r.other) message.header)
      (fits : EvictsNothing prim (w.state r) message.header)
      (draws : StartsTurn prim (w.state r) message.header → w.Generates generated fresh) :
      TamperedStep prim generated w (w.decrypt prim r fresh message)

variable {w : Exchange K} {c : Conversation K} {p : Progress} {turn : Role → Nat}

theorem Tracked.reject (lawful : prim.Lawful generated) (h : Tracked prim generated w c p turn) {r : Role}
    {message : RatchetMessage} {fresh : KeyPair K} {failure : Failure}
    (thrown : (ratchetDecrypt prim fresh (w.state r) message).2 = .error failure)
    (safe : TurnSafe prim (w.state r) (w.state r.other) message.header)
    (fits : EvictsNothing prim (w.state r) message.header)
    (draws : StartsTurn prim (w.state r) message.header → w.Generates generated fresh) :
    ∃ c' p' me', c.Later (StartsTurn prim (w.state r) message.header) fresh p (turn r) c' p' me' ∧
      p'.taken = p.taken ∧
      Tracked prim generated (w.decrypt prim r fresh message) c' p' (Function.update turn r me') := by
  obtain ⟨c', p', me', hlater, htaken, hs⟩ :=
    (h.synced r).reject lawful (fun hturns => h.fresh (draws hturns)) thrown safe fits
  exact ⟨c', p', me', hlater, htaken, (h.decrypt r hlater hs (List.Sublist.refl w.inFlight)).1⟩

/-- A letter that is accepted without a stray turn is opened to its plaintext. -/
theorem Tracked.accept (lawful : prim.Lawful generated) (h : Tracked prim generated w c p turn)
    {before after : List Letter} {letter : Letter} {fresh : KeyPair K} {opened : Bytes}
    (inFlight : w.inFlight = before ++ letter :: after)
    (accepted : (ratchetDecrypt prim fresh (w.state letter.recipient) letter.message).2 = .ok opened)
    (safe : TurnSafe prim (w.state letter.recipient) (w.state letter.recipient.other) letter.message.header)
    (draws : StartsTurn prim (w.state letter.recipient) letter.message.header → w.Generates generated fresh) :
    opened = letter.plaintext ∧ ∃ c' p' turn', Tracked prim generated
      { w.decrypt prim letter.recipient fresh letter.message with inFlight := before ++ after } c' p' turn' := by
  obtain ⟨e, n, he, hpar, hsent, hc⟩ := h.genuine letter (by simp [inFlight])
  have hr := h.synced letter.recipient
  obtain ⟨hok, c', p', me', hlater, _, _, hs⟩ := hr.receive lawful he hpar hsent
    (hr.unspent_of_ok he hpar hc safe accepted) hc (hr.bounded_of_ok accepted) (fun hturns => h.fresh (draws hturns))
  have sub : (before ++ after).Sublist w.inFlight := by
    rw [inFlight]
    exact (List.Sublist.refl before).append (List.sublist_cons_self letter after)
  exact ⟨Except.ok.inj (accepted.symm.trans hok), c', p', _, (h.decrypt letter.recipient hlater hs sub).1⟩

theorem TamperedStep.tracked (lawful : prim.Lawful generated) {w w' : Exchange K}
    (step : TamperedStep prim generated w w') (h : ∃ c p turn, Tracked prim generated w c p turn) :
    ∃ c p turn, Tracked prim generated w' c p turn := by
  obtain ⟨c, p, turn, h⟩ := h
  cases step with
  | encrypt r plaintext =>
    obtain ⟨q, _, _, h', _⟩ := h.encrypt r plaintext
    exact ⟨c, q, turn, h'⟩
  | lose before letter after inFlight =>
    have sub : (before ++ after).Sublist w.inFlight := by
      rw [inFlight]
      exact (List.Sublist.refl before).append (List.sublist_cons_self letter after)
    exact ⟨c, p, turn, h.synced, h.used, fun letter hl => h.genuine letter (sub.subset hl)⟩
  | accept before letter after fresh opened inFlight accepted safe draws =>
    exact (h.accept lawful inFlight accepted safe draws).2
  | reject r message fresh failure thrown safe fits draws =>
    obtain ⟨c', p', me', _, _, h'⟩ := h.reject lawful thrown safe fits draws
    exact ⟨c', p', _, h'⟩

/-- Every genuine letter the party could read before a safe rejection it can read after it. -/
theorem Tracked.still_reads (lawful : prim.Lawful generated) (h : Tracked prim generated w c p turn)
    {c' : Conversation K} {p' : Progress} {turn' : Role → Nat} {w' : Exchange K}
    (h' : Tracked prim generated w' c' p' turn') {turns : Prop} {drawn : KeyPair K} {letter : Letter}
    (theirs : w'.state letter.recipient.other = w.state letter.recipient.other)
    (later : c.Later turns drawn p (turn letter.recipient) c' p' (turn' letter.recipient))
    (same : turn' letter.recipient.other = turn letter.recipient.other) (taken : p'.taken = p.taken)
    (mem : letter ∈ w.inFlight) {f f' : KeyPair K} {opened : Bytes}
    (safe : TurnSafe prim (w.state letter.recipient) (w.state letter.recipient.other) letter.message.header)
    (draws : StartsTurn prim (w.state letter.recipient) letter.message.header → w.Generates generated f)
    (draws' : StartsTurn prim (w'.state letter.recipient) letter.message.header → w'.Generates generated f')
    (ok : (ratchetDecrypt prim f (w.state letter.recipient) letter.message).2 = .ok opened) :
    (ratchetDecrypt prim f' (w'.state letter.recipient) letter.message).2 = .ok opened := by
  obtain ⟨e, n, he, hpar, hsent, hc⟩ := h.genuine letter mem
  have hr := h.synced letter.recipient
  have hr' := h'.synced letter.recipient
  rw [theirs, same] at hr'
  have unspent := hr.unspent_of_ok he hpar hc safe ok
  have bound := hr.bounded_of_ok ok
  have hread := (hr.receive lawful he hpar hsent unspent hc bound (fun hturns => h.fresh (draws hturns))).1
  rw [Except.ok.inj (ok.symm.trans hread)]
  refine (hr'.receive lawful he hpar (by rw [later.onward.sent]; exact hsent) (by rw [taken]; exact unspent)
    (e := e) (n := n) ?_ ?_ (fun hturns => h'.fresh (draws' hturns))).1
  · rw [later.compose (Nat.le_trans he (h.le_top _))]
    exact hc
  · exact hr.bounded_later hr' later he hpar hsent unspent (by rw [taken]; exact unspent) hc bound

/-- The next message a party sends is as readable for its peer after a safe rejection as before. -/
theorem Tracked.still_read (lawful : prim.Lawful generated) (h : Tracked prim generated w c p turn)
    {c' : Conversation K} {p' : Progress} {turn' : Role → Nat} {w' : Exchange K} {r : Role}
    (h' : Tracked prim generated w' c' p' turn') {turns : Prop} {drawn : KeyPair K}
    (theirs : w'.state r.other = w.state r.other)
    (later : c.Later turns drawn p (turn r) c' p' (turn' r)) (same : turn' r.other = turn r.other)
    (taken : p'.taken = p.taken) {f f' : KeyPair K} {plaintext : Bytes} {message message' : RatchetMessage}
    (sealed : (ratchetEncrypt prim (w.state r) plaintext).2 = .ok message)
    (sealed' : (ratchetEncrypt prim (w'.state r) plaintext).2 = .ok message')
    (draws' : StartsTurn prim (w.state r.other) message'.header → w'.Generates generated f')
    (ok : (ratchetDecrypt prim f (w.state r.other) message).2 = .ok plaintext) :
    (ratchetDecrypt prim f' (w.state r.other) message').2 = .ok plaintext := by
  have hr := h.synced r
  have hr' := h'.synced r
  rw [theirs, same] at hr'
  match hturn : turn r with
  | 0 =>
    rw [hturn] at hr
    rw [hr.mine.shape, endpoint_encrypt_zero] at sealed
    simp at sealed
  | me + 1 =>
    rw [hturn] at hr later
    obtain ⟨me', hturn'⟩ : ∃ me', turn' r = me' + 1 := by
      have := later.le
      exact ⟨turn' r - 1, by omega⟩
    rw [hturn'] at hr' later
    obtain ⟨hcomposed, hsynced⟩ := hr.encrypt plaintext
    obtain ⟨hcomposed', hsynced'⟩ := hr'.encrypt plaintext
    rw [sealed] at hcomposed
    rw [sealed'] at hcomposed'
    have hm := (compose_eq_ok_iff.mp hcomposed.symm).1
    have hm' := (compose_eq_ok_iff.mp hcomposed'.symm).1
    have unspent := hr.symm.unspent_of_ok (Nat.le_refl _) rfl hcomposed.symm (by
      rw [hm]
      exact hr.next_turnSafe rfl) ok
    have bound := hr.symm.bounded_of_ok ok
    rw [hm] at bound
    have hprevious : (p'.send (me' + 1)).previous (me' + 1) = p'.previous (me' + 1) :=
      Progress.previous_send _ (by omega)
    refine (hsynced'.symm.receive lawful (Nat.le_refl _) rfl (n := p'.sent (me' + 1)) (by simp [Progress.send]) ?_ ?_ ?_
      (fun hturns => h'.fresh (draws' hturns))).1
    · intro ht
      have ht : p'.taken (me' + 1) (p'.sent (me' + 1)) := ht
      rcases later.turn with ⟨_, heq⟩ | ⟨_, heq, _⟩
      · rw [heq, later.onward.sent, taken] at ht
        exact unspent ht
      · have hzero := hr'.theirs.settled.future (me' + 1) (by have := hr.adjacent; omega) (by have := hr'.adjacent; omega)
        have := hr'.taken_lt _ _ ht
        omega
    · rw [compose_congr hprevious]
      exact hcomposed'.symm
    · rw [hm']
      exact hr.next_bounded_later hr' later bound

/-- After handling `message` the party `r` can do what it could do before: what it could read of the letters
on the network it still reads, and its peer reads its next message if it could have read the one before. -/
structure Harmless (prim : RatchetPrimitives K) (generated : KeyPair K → Prop) (w : Exchange K) (r : Role)
    (fresh : KeyPair K) (message : RatchetMessage) : Prop where
  reads : ∀ letter ∈ w.inFlight, letter.recipient = r → ∀ f f' opened,
    TurnSafe prim (w.state r) (w.state r.other) letter.message.header →
    (StartsTurn prim (w.state r) letter.message.header → w.Generates generated f) →
    (StartsTurn prim ((w.decrypt prim r fresh message).state r) letter.message.header →
      (w.decrypt prim r fresh message).Generates generated f') →
    (ratchetDecrypt prim f (w.state r) letter.message).2 = .ok opened →
    (ratchetDecrypt prim f' ((w.decrypt prim r fresh message).state r) letter.message).2 = .ok opened
  read : ∀ plaintext next next' f f', (ratchetEncrypt prim (w.state r) plaintext).2 = .ok next →
    (ratchetEncrypt prim ((w.decrypt prim r fresh message).state r) plaintext).2 = .ok next' →
    (StartsTurn prim (w.state r.other) next'.header → (w.decrypt prim r fresh message).Generates generated f') →
    (ratchetDecrypt prim f (w.state r.other) next).2 = .ok plaintext →
    (ratchetDecrypt prim f' (w.state r.other) next').2 = .ok plaintext

/-- In every run in which whatever was handled made no stray turn and whatever was thrown on evicted
nothing, one more such message does no harm. -/
theorem rejected_harmless (lawful : prim.Lawful generated) {start w : Exchange K} (h : start.Start prim generated)
    (run : Relation.ReflTransGen (TamperedStep prim generated) start w) {r : Role} {message : RatchetMessage}
    {fresh : KeyPair K} {failure : Failure}
    (thrown : (ratchetDecrypt prim fresh (w.state r) message).2 = .error failure)
    (safe : TurnSafe prim (w.state r) (w.state r.other) message.header)
    (fits : EvictsNothing prim (w.state r) message.header)
    (draws : StartsTurn prim (w.state r) message.header → w.Generates generated fresh) :
    w.Harmless prim generated r fresh message := by
  obtain ⟨c, p, turn, hw⟩ := Runs.preserved (P := fun w => ∃ c p turn, Tracked prim generated w c p turn)
    (fun _ _ hstep hs => hstep.tracked lawful hs) run (by
      obtain ⟨c, p, turn, hc⟩ := h.consistent lawful
      exact ⟨c, p, turn, hc.toTracked⟩)
  obtain ⟨c', p', me', later, taken, hw'⟩ := hw.reject lawful thrown safe fits draws
  have theirs : (w.decrypt prim r fresh message).state r.other = w.state r.other :=
    Function.update_of_ne r.other_ne _ _
  have hturn : Function.update turn r me' r = me' := Function.update_self _ _ _
  have hsame : Function.update turn r me' r.other = turn r.other := Function.update_of_ne r.other_ne _ _
  rw [← hturn] at later
  refine ⟨?_, ?_⟩
  · rintro letter mem rfl f f' opened hsafe hf hf' ok
    exact hw.still_reads lawful hw' theirs later hsame taken mem hsafe hf hf' ok
  · intro plaintext next next' f f' sealed sealed' hf' ok
    exact hw.still_read lawful hw' theirs later hsame taken sealed sealed' hf' ok

def additiveFirst : Exchange Nat := additiveStart.encrypt additive .initiator [10]

def additiveLetter : Letter := ⟨.responder, ⟨⟨additive.publicKeyOf 3, 0, 0⟩, [51, 10]⟩, [10]⟩

/-- The first letter with its tag flipped is turned away without harm. -/
theorem rejected_harmless_tag : additiveFirst.Harmless additive additiveGenerated .responder (additiveKeyPair 4)
    ⟨⟨additive.publicKeyOf 3, 0, 0⟩, [52, 10]⟩ :=
  rejected_harmless additive_lawful additiveStart_start
    (.tail .refl (.encrypt _ .initiator [10])) rfl (fun _ => by decide) (fun _ _ => by decide)
    (fun _ => ⟨⟨4, by decide, by decide, rfl⟩, by decide⟩)

/-- A forged header under a fresh ratchet key turns the ratchet before anything is authenticated. -/
theorem forged_turn_harms : ¬ ∀ (start w : Exchange Nat), start.Start additive additiveGenerated →
    Relation.ReflTransGen (Step additive additiveGenerated) start w →
    ∀ r message fresh failure, (ratchetDecrypt additive fresh (w.state r) message).2 = .error failure →
      (StartsTurn additive (w.state r) message.header → w.Generates additiveGenerated fresh) →
      w.Harmless additive additiveGenerated r fresh message := by
  intro claim
  have harmless := claim additiveStart additiveFirst additiveStart_start (.tail .refl (.encrypt _ .initiator [10]))
    .responder ⟨⟨additive.publicKeyOf 9, 0, 0⟩, []⟩ (additiveKeyPair 4)
    (.authentication "message failed authentication") rfl (fun _ => ⟨⟨4, by decide, by decide, rfl⟩, by decide⟩)
  have hread := harmless.reads additiveLetter (by decide) rfl (additiveKeyPair 6) (additiveKeyPair 6) [10]
    (fun _ => by decide) (fun _ => ⟨⟨6, by decide, by decide, rfl⟩, by decide⟩)
    (fun _ => ⟨⟨6, by decide, by decide, rfl⟩, by decide⟩) rfl
  have hlost : (ratchetDecrypt additive (additiveKeyPair 6)
      ((additiveFirst.decrypt additive .responder (additiveKeyPair 4)
        ⟨⟨additive.publicKeyOf 9, 0, 0⟩, []⟩).state .responder) additiveLetter.message).2 =
      .error (.authentication "message failed authentication") := rfl
  rw [hlost] at hread
  simp at hread

end Exchange

end

end Veil
