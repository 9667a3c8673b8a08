import Veil.ExchangeSteps
import Veil.AdditivePrimitives

namespace Veil

section

variable {K : Type} {prim : RatchetPrimitives K} {generated : KeyPair K → Prop}

/-- The conversation right after the handshake: the responder's signed prekey and the initiator's first pair. -/
def Conversation.opening (signedPreKey sending : KeyPair K) (rootSecret : K) (step : RootStep K)
    (associatedData : Bytes) : Conversation K where
  pair := fun e => if e = 0 then signedPreKey else sending
  rootKey := fun e => if e = 0 then rootSecret else step.rootKey
  chainKey := fun _ => step.chainKey
  top := 1
  associatedData := associatedData

def Progress.none : Progress := ⟨fun _ => 0, fun _ => 0, fun _ _ => False⟩

/-- The states both sides initialise are the two ends of one conversation. -/
theorem Synced.opening (lawful : prim.Lawful generated) {sending signedPreKey : KeyPair K} {rootSecret : K}
    {associatedData : Bytes} {state : RatchetState K} (hs : generated sending) (hp : generated signedPreKey)
    (distinct : signedPreKey.publicKey ≠ sending.publicKey)
    (h : initialiseInitiator prim sending rootSecret signedPreKey.publicKey associatedData = .ok state) :
    ∃ c : Conversation K, c.top = 1 ∧ c.pair 0 = signedPreKey ∧ c.pair 1 = sending ∧
      Synced prim generated c Progress.none 1 0 state (initialiseResponder rootSecret signedPreKey associatedData) := by
  obtain ⟨s, hsend, hreceive⟩ := lawful.dh_agree sending signedPreKey hs hp
  simp only [initialiseInitiator, hsend, Outcome.ok_bind, pure, Except.pure, Except.ok.injEq] at h
  subst h
  refine ⟨Conversation.opening signedPreKey sending rootSecret (prim.advanceRootChain rootSecret s) associatedData,
    rfl, rfl, rfl, ⟨?_, ?_, ?_⟩, Or.inl rfl, rfl, rfl, fun _ _ => rfl, ?_, ⟨rfl, ⟨?_, ?_⟩, ⟨?_, ?_⟩⟩,
    ⟨rfl, ⟨?_, ?_⟩, ⟨?_, ?_⟩⟩⟩
  · intro e he
    have he : e = 0 := by simp only [Conversation.opening] at he; omega
    subst he
    exact ⟨s, hreceive, rfl⟩
  · intro e _
    simp only [Conversation.opening]
    split
    next => exact hp
    next => exact hs
  · intro i hi j hj heq
    simp only [Conversation.opening] at hi hj heq
    rcases (show i = 0 ∨ i = 1 by omega) with rfl | rfl <;> rcases (show j = 0 ∨ j = 1 by omega) with rfl | rfl
    · rfl
    · exact absurd heq (by simpa using distinct)
    · exact absurd heq.symm (by simpa using distinct)
    · rfl
  · intro e n ht
    exact ht.elim
  all_goals simp [Progress.none, initialiseResponder]

namespace Exchange

theorem Start.consistent (lawful : prim.Lawful generated) {w : Exchange K} (start : w.Start prim generated) :
    ∃ c p turn, Consistent prim generated w c p turn := by
  obtain ⟨rootSecret, associatedData, signedPreKey, sending, state, hp, hs, distinct, hinit, hi, hr, hempty, hused⟩ :=
    start
  obtain ⟨c, htop, h0, h1, hsynced⟩ := Synced.opening lawful hs hp distinct hinit
  refine ⟨c, Progress.none, fun r => if r = .initiator then 1 else 0, ⟨?_, ?_, by simp [hempty]⟩, ?_, ?_, ?_⟩
  · apply synced_of .initiator
    simpa [hi, hr, Role.other] using hsynced
  · intro e he
    rcases (show e = 0 ∨ e = 1 by omega) with rfl | rfl <;> simp [hused, h0, h1]
  · intro e n ht
    exact ht.elim
  · simp [hempty]
  · simp [hempty]

theorem Step.consistent (lawful : prim.Lawful generated) {w w' : Exchange K} (step : Step prim generated w w')
    (h : ∃ c p turn, Consistent prim generated w c p turn) : ∃ c p turn, Consistent prim generated w' c p turn := by
  obtain ⟨c, p, turn, h⟩ := h
  cases step with
  | encrypt r plaintext =>
    obtain ⟨p', h'⟩ := h.encrypt r plaintext
    exact ⟨c, p', turn, h'⟩
  | deliver before letter after fresh inFlight within draws =>
    exact (h.deliver lawful inFlight within draws).2
  | lose before letter after inFlight =>
    have sub : (before ++ after).Sublist w.inFlight := by
      rw [inFlight]
      exact (List.Sublist.refl before).append (List.sublist_cons_self letter after)
    exact ⟨c, p, turn, ⟨h.synced, h.used, fun letter hl => h.genuine letter (sub.subset hl)⟩, h.read,
      fun letter hl => h.unread letter (sub.subset hl), h.once.sublist (sub.map _)⟩

/-- Whatever was sent, read or lost before, in whatever order, the next message to arrive is read as it
was written. -/
theorem delivers (lawful : prim.Lawful generated) {start w : Exchange K} (h : start.Start prim generated)
    (run : Relation.ReflTransGen (Step prim generated) start w) {letter : Letter} (mem : letter ∈ w.inFlight)
    (within : WithinSkipLimits (w.state letter.recipient) letter.message.header) {fresh : KeyPair K}
    (draws : StartsTurn prim (w.state letter.recipient) letter.message.header → w.Generates generated fresh) :
    (ratchetDecrypt prim fresh (w.state letter.recipient) letter.message).2 = .ok letter.plaintext := by
  obtain ⟨c, p, turn, hw⟩ := Runs.preserved (P := fun w => ∃ c p turn, Consistent prim generated w c p turn)
    (fun _ _ hstep hs => hstep.consistent lawful hs) run (h.consistent lawful)
  obtain ⟨before, after, inFlight⟩ := List.append_of_mem mem
  exact (hw.deliver lawful inFlight within draws).1

end Exchange

end

namespace Exchange

/-- Signed prekey 2, first ratchet pair 3, root secret 5. -/
def additiveStart : Exchange Nat where
  state
    | .initiator =>
      { rootKey := 15, sending := additiveKeyPair 3, receiving := some (additive.publicKeyOf 2),
        sendingChainKey := some 16, associatedData := [1] }
    | .responder => initialiseResponder 5 (additiveKeyPair 2) [1]
  inFlight := []
  used := [additive.publicKeyOf 3, additive.publicKeyOf 2]

theorem additiveStart_start : additiveStart.Start additive additiveGenerated := by
  refine ⟨5, [1], additiveKeyPair 2, additiveKeyPair 3, _, ⟨2, by decide, by decide, rfl⟩,
    ⟨3, by decide, by decide, rfl⟩, by decide, ?_, rfl, rfl, rfl, rfl⟩
  rfl

def additiveSent : Exchange Nat := (additiveStart.encrypt additive .initiator [10]).encrypt additive .initiator [20]

def additiveSecond : Letter := ⟨.responder, ⟨⟨additive.publicKeyOf 3, 0, 1⟩, [58, 20]⟩, [20]⟩

/-- The second of two messages arrives first. -/
theorem delivers_second_first :
    (ratchetDecrypt additive (additiveKeyPair 4) (additiveSent.state .responder) additiveSecond.message).2 =
      .ok [20] :=
  delivers (w := additiveSent) additive_lawful additiveStart_start
    (.tail (.tail .refl (.encrypt _ .initiator [10])) (.encrypt _ .initiator [20]))
    (by decide) (by decide) (fun _ => ⟨⟨4, by decide, by decide, rfl⟩, by decide⟩)

end Exchange

end Veil
