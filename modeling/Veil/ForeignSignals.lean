import Veil.CallLifecycle

namespace Veil

namespace CallApp

section

variable {K : Type}

/-- The signal has left everything as it was, but for the reply to an offer. -/
def Untouched (app next : CallApp K) (peerAddress : String) (signal : CallSignal) : Prop :=
  next = app ∨ ∃ callId mediaSecret sdp dtlsFingerprint, signal = .offer callId mediaSecret sdp dtlsFingerprint ∧
    next = app.emit (.signal peerAddress (.hangup callId "busy"))

/-- The signal is a hangup that names the current call, or a candidate that does so while the call has an engine. -/
def NamesCall (app : CallApp K) : CallSignal → Prop
  | .hangup callId _ => app.current.any (fun call => call.callId = callId) = true
  | .ice callId _ => app.current.any (fun call => call.callId = callId) = true ∧
      (app.engine.bind (fun engine => app.engines[engine]?)).isSome
  | .offer .. | .answer .. => False

end

section

variable {K : Type} {prim : CallPrimitives K} {options : CallManagerOptions} {app : CallApp K} {call : CallInfo}
  {peerAddress : String} {signal : CallSignal}

theorem endCall_suspends (hcurrent : app.current = some call) (reason : String) :
    (app.endCall prim reason false).suspended ≠ app.suspended := by
  have hend : (app.endCall prim reason false).suspended = app.suspended ++ [(app.begun, .closingEngine app.engine reason)] := by
    simp [endCall, hcurrent, closeCurrentEngine, closeMediaEngine, modifyEngine, wipe, suspend]
  rw [hend]
  intro h
  have hlength := congrArg List.length h
  simp at hlength

theorem addRemoteCandidate_engines {engine : Nat} {media : MediaEngine} (hengine : app.engine = some engine)
    (hmedia : app.engines[engine]? = some media) (candidate : String) :
    (app.modifyEngine app.engine (fun media =>
      { media with remoteCandidates := media.remoteCandidates ++ [candidate] })).engines ≠ app.engines := by
  intro h
  have hat := congrArg (fun engines => engines[engine]?) h
  simp only [modifyEngine, hengine, Option.elim_some, List.getElem?_modify_eq, hmedia, Option.map_eq_map,
    Option.map_some, Option.some.injEq] at hat
  have hcandidates := congrArg (fun media : MediaEngine => media.remoteCandidates.length) hat
  simp at hcandidates

/-- While a call is live, what anyone but its peer sends leaves it alone, unless it is a hangup or a candidate that names
the call. -/
theorem foreign_signal (hcurrent : app.current = some call) (hlive : call.state ≠ .ended)
    (foreign : peerAddress ≠ call.peerAddress) (now : Int) :
    app.Untouched (app.handleSignal prim peerAddress signal now) peerAddress signal ↔ ¬app.NamesCall signal := by
  have hbusy : app.live = true := by simp [live, hcurrent, hlive]
  cases signal with
  | offer callId mediaSecret sdp dtlsFingerprint =>
    refine ⟨fun _ h => h, fun _ => Or.inr ⟨callId, mediaSecret, sdp, dtlsFingerprint, rfl, ?_⟩⟩
    simp only [handleSignal, onOffer, hbusy, if_true]
  | answer callId sdp dtlsFingerprint =>
    refine ⟨fun _ h => h, fun _ => Or.inl ?_⟩
    have hnone : app.answered peerAddress callId = none := by
      simp [answered, hcurrent, Ne.symm foreign]
    simp only [handleSignal, onAnswer, hnone]
  | ice callId candidate =>
    by_cases hid : app.current.any (fun call => call.callId = callId) = true
    · have hadds : app.handleSignal prim peerAddress (.ice callId candidate) now = app.modifyEngine app.engine
          (fun media => { media with remoteCandidates := media.remoteCandidates ++ [candidate] }) := if_pos hid
      rw [hadds]
      cases hmedia : app.engine.bind (fun engine => app.engines[engine]?) with
      | none =>
        refine ⟨fun _ h => ?_, fun _ => Or.inl ?_⟩
        · have hplaced := h.2
          rw [hmedia] at hplaced
          cases hplaced
        · cases hengine : app.engine with
          | none => rfl
          | some engine =>
            have hget : app.engines[engine]? = none := by simpa [hengine] using hmedia
            have hout := List.getElem?_eq_none_iff.mp hget
            simp [modifyEngine, List.modify_eq_self hout]
      | some media =>
        obtain ⟨engine, hengine, hget⟩ := Option.bind_eq_some_iff.mp hmedia
        refine ⟨fun h => absurd ?_ (addRemoteCandidate_engines hengine hget candidate), fun h => ?_⟩
        · rcases h with h | ⟨_, _, _, _, h, _⟩
          · exact congrArg CallApp.engines h
          · cases h
        · exact absurd ⟨hid, by rw [hmedia]; rfl⟩ h
    · have hsame : app.handleSignal prim peerAddress (.ice callId candidate) now = app := if_neg hid
      rw [hsame]
      exact ⟨fun _ h => hid h.1, fun _ => Or.inl rfl⟩
  | hangup callId reason =>
    by_cases hid : app.current.any (fun call => call.callId = callId) = true
    · have hends : app.handleSignal prim peerAddress (.hangup callId reason) now = app.endCall prim reason false :=
        if_pos hid
      rw [hends]
      refine ⟨fun h => absurd ?_ ((@endCall_suspends _ prim) hcurrent reason), fun h => absurd hid h⟩
      rcases h with h | ⟨_, _, _, _, h, _⟩
      · exact congrArg CallApp.suspended h
      · cases h
    · have hsame : app.handleSignal prim peerAddress (.hangup callId reason) now = app := if_neg hid
      rw [hsame]
      exact ⟨fun _ h => hid h, fun _ => Or.inl rfl⟩

end

def ringingCall : CallApp (List Bytes) :=
  performAll spelledCalls callOptions { buffers := fun _ => [] }
    [.placeCall "callee" [0xca] true [[7]] 0, .resume 0 (.described "sdp" "own") resolves 0, .resume 0 .resolved resolves 0]

def ringingInfo : CallInfo where
  callId := "ca"
  peerAddress := "callee"
  direction := .outgoing
  state := .ringingOutgoing
  startedAt := some 0

/-- A stranger calls during the call. -/
theorem foreign_signal_offer : ∃ call, ringingCall.current = some call ∧
    ringingCall.Untouched (ringingCall.handleSignal spelledCalls "stranger" (.offer "cb" "" "sdp" "theirs") 0) "stranger"
      (.offer "cb" "" "sdp" "theirs") := by
  have hcall : ringingCall.current = some ringingInfo := by decide +kernel
  exact ⟨_, hcall, (foreign_signal hcall (by decide) (by decide) 0).mpr (fun h => h)⟩

/-- A stranger that knows the id of the call hangs it up. -/
theorem foreign_hangup : ¬ ∀ (app : CallApp (List Bytes)) (call : CallInfo) (peerAddress : String) (signal : CallSignal)
    (now : Int), Relation.ReflTransGen (Step spelledCalls callOptions (fun _ _ => True)) { buffers := fun _ => [] } app →
      app.current = some call → call.state ≠ .ended → peerAddress ≠ call.peerAddress →
        app.Untouched (app.handleSignal spelledCalls peerAddress signal now) peerAddress signal := by
  intro claim
  have hcall : ringingCall.current = some ringingInfo := by decide +kernel
  have run : Relation.ReflTransGen (Step spelledCalls callOptions (fun _ _ => True)) { buffers := fun _ => [] }
      ringingCall := reaches_performAll (by decide +kernel)
  have hspared := claim ringingCall _ "stranger" (.hangup "ca" "bye") 0 run hcall (by decide) (by decide)
  have hsuspended : (ringingCall.handleSignal spelledCalls "stranger" (.hangup "ca" "bye") 0).suspended.length ≠
      ringingCall.suspended.length := by decide +kernel
  rcases hspared with h | ⟨_, _, _, _, h, _⟩
  · exact hsuspended (congrArg (fun app : CallApp (List Bytes) => app.suspended.length) h)
  · cases h

end CallApp

end Veil
