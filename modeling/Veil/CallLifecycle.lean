import Veil.FrameNonces

namespace Veil

/-- How far a call has come. -/
def CallState.rank : CallState → Nat
  | .idle => 0
  | .ringingOutgoing | .ringingIncoming => 1
  | .connecting => 2
  | .connected => 3
  | .ended => 4

/-- The state an event reports for the call, if it does. -/
def CallEvent.reported (callId : String) : CallEvent → Option CallState
  | .stateChange call | .sasAvailable call => if call.callId = callId then some call.state else none
  | _ => none

namespace CallApp

section

variable {K : Type}

/-- The states reported for a call, in order. -/
def reports (app : CallApp K) (callId : String) : List CallState := app.events.filterMap (CallEvent.reported callId)

/-- The reports for every call move forward, and the current call is where its last report left it, or new. -/
structure Ordered (app : CallApp K) : Prop where
  forward : ∀ callId, (app.reports callId).Pairwise (fun s t => s.rank ≤ t.rank)
  current : ∀ call, app.current = some call → ∀ state ∈ app.reports call.callId, state.rank ≤ call.state.rank
  known : ∀ call, app.current = some call → call.state ∈ app.reports call.callId ∨ call.state.rank = 1
  placed : ∀ call, app.current = some call → 1 ≤ call.state.rank

/-- What a method does to the call when it resumes keeps the call going forward: it finds the call it left where it left
it, or one that is not connected yet. -/
def Advances (app : CallApp K) : Suspended K → Prop
  | .installingKeys call _ _ _ =>
    app.keys.isSome → ∃ now ∈ app.current, now.callId = call.callId ∧ now.state.rank ≤ call.state.rank
  | .keysInstalled .connecting | .sendingAnswer => ∀ call ∈ app.current, call.state.rank ≤ 2
  | _ => True

/-- A new call has an id that nothing was reported for, an engine does not report a connection to a call that has ended,
and what resumes keeps its call going forward. -/
def Forward (app : CallApp K) : CallMove K → Prop
  | .placeCall _ id _ _ _ => app.live = false → app.reports (toHex id) = []
  | .handleSignal _ (.offer callId _ _ _) _ => app.live = false → app.reports callId = []
  | .connected engine => ∀ call ∈ app.handled engine, call.state ≠ .ended
  | .resume index settlement _ _ => settlement ≠ .rejected → ∀ entry ∈ app.suspended[index]?, app.Advances entry.2
  | _ => True

/-- How often the call's state is reported on the way to the next state, where it is the current one. -/
def Reports (app next : CallApp K) (times : Nat) (call : CallInfo) : Prop :=
  next.current = some call ∧
    ∀ callId, next.reports callId = app.reports callId ++ if call.callId = callId then List.replicate times call.state else []

/-- What a move does to the calls: nothing; a call begins, where none is live; or the current call goes on. -/
inductive Course (app next : CallApp K) : Prop
  | quiet (current : next.current = app.current) (reports : ∀ callId, next.reports callId = app.reports callId)
  | begun (call : CallInfo) (times : Nat) (fresh : app.reports call.callId = []) (ringing : call.state.rank = 1)
      (reports : app.Reports next times call)
  | advanced (call call' : CallInfo) (times : Nat) (current : app.current = some call) (same : call'.callId = call.callId)
      (forward : call.state.rank ≤ call'.state.rank) (reports : app.Reports next (times + 1) call')

end

section

variable {K : Type} {prim : CallPrimitives K} {options : CallManagerOptions} {app next last : CallApp K}

theorem Ordered.step (h : app.Ordered) (course : Course app next) : next.Ordered := by
  cases course with
  | quiet current reports =>
    refine ⟨fun callId => by rw [reports]; exact h.forward callId, fun call hcall => ?_, fun call hcall => ?_,
      fun call hcall => h.placed call (current ▸ hcall)⟩
    · rw [reports]
      exact h.current call (current ▸ hcall)
    · rw [reports]
      exact h.known call (current ▸ hcall)
  | begun call times fresh ringing reports =>
    obtain ⟨hcurrent, hreports⟩ := reports
    refine ⟨fun callId => ?_, fun call' hcall' => ?_, fun call' hcall' => ?_, fun call' hcall' => ?_⟩
    · rw [hreports]
      split
      next heq =>
        rw [← heq, fresh, List.nil_append]
        exact List.pairwise_replicate.mpr (Or.inr (Nat.le_refl _))
      next => rw [List.append_nil]; exact h.forward callId
    · obtain rfl := Option.some.inj (hcurrent.symm.trans hcall')
      rw [hreports, if_pos rfl, fresh, List.nil_append]
      intro state hstate
      rw [List.eq_of_mem_replicate hstate]
    · obtain rfl := Option.some.inj (hcurrent.symm.trans hcall')
      exact Or.inr ringing
    · obtain rfl := Option.some.inj (hcurrent.symm.trans hcall')
      exact Nat.le_of_eq ringing.symm
  | advanced call call' times current same forward reports =>
    obtain ⟨hcurrent, hreports⟩ := reports
    have hbefore : ∀ state ∈ app.reports call'.callId, state.rank ≤ call'.state.rank := by
      intro state hstate
      rw [same] at hstate
      exact (h.current call current state hstate).trans forward
    refine ⟨fun callId => ?_, fun call'' hcall'' => ?_, fun call'' hcall'' => ?_, fun call'' hcall'' => ?_⟩
    · rw [hreports]
      split
      next heq =>
        refine List.pairwise_append.mpr ⟨h.forward callId, List.pairwise_replicate.mpr (Or.inr (Nat.le_refl _)), ?_⟩
        intro state hstate state' hstate'
        rw [List.eq_of_mem_replicate hstate']
        exact hbefore state (heq ▸ hstate)
      next => rw [List.append_nil]; exact h.forward callId
    · obtain rfl := Option.some.inj (hcurrent.symm.trans hcall'')
      rw [hreports, if_pos rfl]
      intro state hstate
      rcases List.mem_append.mp hstate with hstate | hstate
      · exact hbefore state hstate
      · rw [List.eq_of_mem_replicate hstate]
    · obtain rfl := Option.some.inj (hcurrent.symm.trans hcall'')
      rw [hreports, if_pos rfl]
      exact Or.inl (List.mem_append_right _ (List.mem_replicate.mpr ⟨Nat.succ_ne_zero _, rfl⟩))
    · obtain rfl := Option.some.inj (hcurrent.symm.trans hcall'')
      exact (h.placed call current).trans forward

theorem Course.refl (app : CallApp K) : Course app app := .quiet rfl (fun _ => rfl)

/-- What leaves the current call and the events alone can come before. -/
theorem Course.after (current : next.current = app.current) (events : next.events = app.events)
    (h : Course next last) : Course app last := by
  have hreports : ∀ callId, next.reports callId = app.reports callId := by
    intro callId
    rw [reports, reports, events]
  have hmore : ∀ {times call}, next.Reports last times call → app.Reports last times call :=
    fun h => ⟨h.1, fun callId => by rw [h.2 callId, hreports]⟩
  cases h with
  | quiet current' reports' =>
    exact .quiet (current'.trans current) (fun callId => (reports' callId).trans (hreports callId))
  | begun call times fresh ringing reports' =>
    exact .begun call times ((hreports _).symm.trans fresh) ringing (hmore reports')
  | advanced call call' times current' same forward reports' =>
    exact .advanced call call' times (current.symm.trans current') same forward (hmore reports')

/-- What leaves the current call and the reports alone can come last. -/
theorem Course.then (h : Course app next) (current : last.current = next.current)
    (reports : ∀ callId, last.reports callId = next.reports callId) : Course app last := by
  have hmore : ∀ {times call}, app.Reports next times call → app.Reports last times call :=
    fun h => ⟨current.trans h.1, fun callId => (reports callId).trans (h.2 callId)⟩
  cases h with
  | quiet current' reports' => exact .quiet (current.trans current') (fun callId => (reports callId).trans (reports' callId))
  | begun call times fresh ringing reports' => exact .begun call times fresh ringing (hmore reports')
  | advanced call call' times current' same forward reports' =>
    exact .advanced call call' times current' same forward (hmore reports')

theorem reports_emit {event : CallEvent} (h : ∀ callId, event.reported callId = none) (callId : String) :
    (app.emit event).reports callId = app.reports callId := by
  simp only [reports, emit, List.filterMap_append, List.filterMap_cons, h, List.filterMap_nil, List.append_nil]

theorem reports_stateChange {call : CallInfo} (events : next.events = app.events ++ [.stateChange call]) (callId : String) :
    next.reports callId = app.reports callId ++ if call.callId = callId then List.replicate 1 call.state else [] := by
  rw [reports, events, List.filterMap_append, List.filterMap_cons, CallEvent.reported]
  split
  next => split <;> simp_all [reports]
  next => split <;> simp_all [reports]

theorem setState_course {state : CallState} {extra : CallInfo → CallInfo} (same : ∀ call, (extra call).callId = call.callId)
    (forward : ∀ call, app.current = some call → call.state.rank ≤ state.rank) : Course app (app.setState state extra) := by
  cases hcurrent : app.current with
  | none => exact .quiet (by simp [setState, hcurrent]) (fun _ => by simp [reports, setState, hcurrent])
  | some call =>
    refine .advanced call { extra call with state } 0 hcurrent (same call) (forward call hcurrent) ⟨?_, ?_⟩
    · simp [setState, hcurrent]
    · exact reports_stateChange (by simp [setState, hcurrent])

theorem ended_rank (state : CallState) : state.rank ≤ CallState.ended.rank := by
  cases state <;> decide

theorem connected_rank {state : CallState} (h : state ≠ .ended) : state.rank ≤ CallState.connected.rank := by
  cases state <;> first | decide | exact absurd rfl h

theorem closeCurrentEngine_course (number : Nat) (reason : String) :
    Course app (app.closeCurrentEngine prim number reason) := .quiet rfl (fun _ => rfl)

theorem endCall_course (reason : String) (notify : Bool) : Course app (app.endCall prim reason notify) := by
  unfold endCall
  split
  next => exact .refl app
  next =>
    split
    next => exact .quiet rfl (reports_emit (fun _ => rfl))
    next => exact closeCurrentEngine_course _ reason

theorem deriveAndInstallKeys_course (number : Nat) (role : CallRole)
    (resolvePeerIdentity : String → Option PublicIdentity) (after : AfterKeys) :
    Course app (app.deriveAndInstallKeys prim options number role resolvePeerIdentity after) := by
  unfold deriveAndInstallKeys
  split
  next =>
    split
    next => exact .quiet rfl (reports_emit (fun _ => rfl))
    next =>
      split
      next => exact .quiet rfl (reports_emit (fun _ => rfl))
      next => exact .quiet rfl (fun _ => rfl)
  next => exact .quiet rfl (reports_emit (fun _ => rfl))

theorem showSas_course (number : Nat) {call : CallInfo} (after : AfterKeys)
    (advances : app.keys.isSome → ∃ now ∈ app.current, now.callId = call.callId ∧ now.state.rank ≤ call.state.rank) :
    Course app (app.showSas number call after) := by
  unfold showSas
  split
  next => exact .quiet rfl (reports_emit (fun _ => rfl))
  next keys hkeys =>
    obtain ⟨now, hnow, hid, hrank⟩ := advances (by rw [hkeys]; rfl)
    refine .advanced now { call with sas := some keys.sas, sasDigits := some keys.sasDigits } 1 hnow hid.symm hrank
      ⟨rfl, fun callId => ?_⟩
    by_cases hsame : call.callId = callId
    · simp [reports, suspend, emit, CallEvent.reported, hsame]
    · simp [reports, suspend, emit, CallEvent.reported, hsame]

theorem resume_course (number : Nat) {task : Suspended K} {settlement : Settlement}
    (resolvePeerIdentity : String → Option PublicIdentity) (now : Int)
    (advances : settlement ≠ .rejected → app.Advances task) :
    Course app (app.resume prim options number task settlement resolvePeerIdentity now) := by
  unfold resume
  split
  next => exact .quiet rfl (reports_emit (fun _ => rfl))
  next =>
    cases hcurrent : app.current with
    | none => exact .quiet hcurrent.symm (fun _ => by simp [reports])
    | some call => exact .advanced call call 0 hcurrent rfl (Nat.le_refl _) ⟨rfl, reports_stateChange rfl⟩
  next => exact .quiet rfl (reports_emit (fun _ => rfl))
  next =>
    have hended := @setState_course _ app _ (fun call => { call with endReason := some "frame-encryption-unavailable" }) (fun _ => rfl)
      (fun _ _ => ended_rank _)
    exact hended.then rfl (reports_emit (fun _ => rfl))
  next engine call sdp dtlsFingerprint =>
    exact (@CallApp.Course.after _ _ { app.report engine dtlsFingerprint with pendingOfferSdp := none }) rfl rfl
      (deriveAndInstallKeys_course _ _ _ _)
  next => exact deriveAndInstallKeys_course _ _ _ _
  next call install accepted after =>
    exact (@CallApp.Course.after _ _ { app with installed := app.installed ++ install.toList }) rfl rfl
      (showSas_course number after (advances nofun))
  next => exact .quiet rfl (reports_emit (fun _ => rfl))
  next => exact setState_course (fun _ => rfl) (advances nofun)
  next => exact setState_course (fun _ => rfl) (advances nofun)
  next => exact closeCurrentEngine_course _ _
  next => exact closeCurrentEngine_course _ _
  next =>
    unfold clearCall
    refine .after ?_ ?_ (setState_course (fun _ => rfl) (fun _ _ => ended_rank _)) <;> rfl
  all_goals first | exact .quiet rfl (reports_emit (fun _ => rfl)) | exact .refl app

theorem placeCall_course {peerAddress : String} {id : Bytes} {supports : Bool} {secret : K} {now : Int}
    (fresh : app.live = false → app.reports (toHex id) = []) :
    Course app (app.placeCall prim options peerAddress id supports secret now) := by
  unfold placeCall
  split
  next => exact .quiet rfl (reports_emit (fun _ => rfl))
  next hdead =>
    split
    next => exact .quiet rfl (reports_emit (fun _ => rfl))
    next =>
      refine .begun _ 0 (fresh (Bool.not_eq_true _ ▸ hdead)) rfl ⟨rfl, fun callId => ?_⟩
      rw [List.replicate_zero, ite_self, List.append_nil]
      rfl

theorem onOffer_course {peerAddress callId mediaSecret sdp dtlsFingerprint : String} {now : Int}
    (fresh : app.live = false → app.reports callId = []) :
    Course app (app.onOffer prim peerAddress callId mediaSecret sdp dtlsFingerprint now) := by
  unfold onOffer
  split
  next => exact .quiet rfl (reports_emit (fun _ => rfl))
  next hdead =>
    have hfresh := fresh (Bool.not_eq_true _ ▸ hdead)
    dsimp only
    split
    next =>
      refine .begun _ 0 hfresh rfl ⟨rfl, fun callId => ?_⟩
      rw [List.replicate_zero, ite_self, List.append_nil]
      exact reports_emit (fun _ => rfl) callId
    next => exact .begun _ 1 hfresh rfl ⟨rfl, reports_stateChange rfl⟩

theorem perform_course {move : CallMove K} (forward : app.Forward move) : Course app (app.perform prim options move) := by
  cases move with
  | placeCall peerAddress id supports secret now => exact placeCall_course forward
  | handleSignal peerAddress signal now =>
    cases signal with
    | offer callId mediaSecret sdp dtlsFingerprint => exact onOffer_course forward
    | answer callId sdp dtlsFingerprint =>
      simp only [perform, handleSignal, onAnswer]
      split
      next => exact .refl app
      next => exact .quiet rfl (fun _ => rfl)
    | ice callId candidate =>
      simp only [perform, handleSignal]
      split
      next => exact .quiet rfl (fun _ => rfl)
      next => exact .refl app
    | hangup callId reason =>
      simp only [perform, handleSignal]
      split
      next => exact endCall_course _ _
      next => exact .refl app
  | answerCall supports =>
    simp only [perform, answerCall]
    split
    next => exact .quiet rfl (reports_emit (fun _ => rfl))
    next => split <;> exact .quiet rfl (fun _ => rfl)
  | endCall reason notify => exact endCall_course _ _
  | confirmSas =>
    simp only [perform, confirmSas]
    split
    next => exact .refl app
    next call hcurrent =>
      exact .advanced call { call with sasConfirmed := some true } 0 hcurrent rfl (Nat.le_refl _)
        ⟨rfl, reports_stateChange rfl⟩
  | localCandidate engine candidate =>
    simp only [perform, onLocalCandidate]
    split
    next => exact .refl app
    next => exact .quiet rfl (reports_emit (fun _ => rfl))
  | connected engine =>
    simp only [perform, onConnected]
    split
    next hhandled =>
      refine setState_course (fun _ => rfl) (fun call hcurrent => connected_rank (forward call ?_))
      obtain ⟨call', hcall'⟩ := Option.isSome_iff_exists.mp hhandled
      obtain ⟨handler, _, hfilter⟩ := Option.bind_eq_some_iff.mp hcall'
      obtain rfl := Option.some.inj (hcurrent.symm.trans (Option.filter_eq_some_iff.mp hfilter).1)
      exact hcall'
    next => exact .refl app
  | disconnected engine =>
    simp only [perform, onDisconnected]
    split
    next => exact endCall_course _ _
    next => exact .refl app
  | frame engine data =>
    simp only [perform, transformFrame]
    split
    next => exact .refl app
    next => exact .quiet rfl (fun _ => rfl)
  | resume index settlement resolvePeerIdentity now =>
    simp only [perform]
    split
    next => exact .refl app
    next number task htask =>
      refine (@CallApp.Course.after _ _ { app with suspended := app.suspended.eraseIdx index }) rfl rfl (resume_course _ _ _ ?_)
      intro hsettlement
      exact forward hsettlement (number, task) htask

theorem Start.ordered (h : Start app) : app.Ordered := by
  obtain ⟨buffers, rfl⟩ := h
  exact ⟨fun _ => List.Pairwise.nil, fun _ hcall => (by cases hcall), fun _ hcall => (by cases hcall),
    fun _ hcall => (by cases hcall)⟩

/-- What has been reported stays reported. -/
theorem Course.keeps (course : Course app next) {callId : String} {state : CallState} (h : state ∈ app.reports callId) :
    state ∈ next.reports callId := by
  cases course with
  | quiet current reports => rwa [reports]
  | begun call times fresh ringing reports =>
    rw [reports.2]
    exact List.mem_append_left _ h
  | advanced call call' times current same forward reports =>
    rw [reports.2]
    exact List.mem_append_left _ h

/-- In a run that goes forward, what is reported for a call moves forward; a call reported as ended is never one that
stands in the way of the next; and whenever a call is the current one again later, it has not gone back. -/
theorem calls_forward {start : CallApp K} (hstart : Start start)
    (run : Relation.ReflTransGen (Step prim options Forward) start app) :
    (∀ callId, (app.reports callId).Pairwise (fun s t => s.rank ≤ t.rank)) ∧
      (∀ callId, .ended ∈ app.reports callId → app.live = true → ∀ call, app.current = some call → call.callId ≠ callId) ∧
      ∀ later, Relation.ReflTransGen (Step prim options Forward) app later →
        ∀ call call', app.current = some call → later.current = some call' → call'.callId = call.callId →
          call.state.rank ≤ call'.state.rank := by
  have hordered : app.Ordered := by
    refine Runs.preserved ?_ run hstart.ordered
    rintro app _ ⟨move, _, forward, rfl⟩ h
    exact h.step (perform_course forward)
  refine ⟨hordered.forward, fun callId hended hlive call hcall hid => ?_, fun later hlater call call' hcall hcall' hid => ?_⟩
  · have hrank := hordered.current call hcall .ended (hid ▸ hended)
    have hstate : call.state = .ended := by
      cases hstate : call.state <;> rw [hstate] at hrank <;> first | rfl | exact absurd hrank (by decide)
    simp [live, hcall, hstate] at hlive
  · have hboth : later.Ordered ∧ ∀ state ∈ app.reports call.callId, state ∈ later.reports call.callId := by
      refine Runs.preserved (P := fun later => later.Ordered ∧
        ∀ state ∈ app.reports call.callId, state ∈ later.reports call.callId) ?_ hlater ⟨hordered, fun _ h => h⟩
      rintro later _ ⟨move, _, forward, rfl⟩ ⟨h, hkept⟩
      have hcourse := (@perform_course _ prim options) forward
      exact ⟨h.step hcourse, fun state hstate => hcourse.keeps (hkept state hstate)⟩
    obtain ⟨hlaterOrdered, hkept⟩ := hboth
    rcases hordered.known call hcall with hreported | hringing
    · exact hlaterOrdered.current call' hcall' call.state (hid ▸ hkept _ hreported)
    · rw [hringing]
      exact hlaterOrdered.placed call' hcall'

end

section

variable {K : Type}

instance (app : CallApp K) : (task : Suspended K) → Decidable (app.Advances task)
  | .installingKeys .. => inferInstanceAs (Decidable (_ → ∃ now ∈ app.current, _))
  | .keysInstalled .connecting | .sendingAnswer => inferInstanceAs (Decidable (∀ call ∈ app.current, _))
  | .keysInstalled (.sendAnswer ..) | .creatingOffer .. | .sendingOffer | .refusingAnswer _ | .sendingRefusal |
    .creatingAnswer .. | .acceptingAnswer | .notifyingEnd _ | .closingEngine .. => isTrue trivial

instance (app : CallApp K) : (move : CallMove K) → Decidable (app.Forward move)
  | .placeCall .. => inferInstanceAs (Decidable (_ → _ = []))
  | .handleSignal _ (.offer ..) _ => inferInstanceAs (Decidable (_ → _ = []))
  | .connected _ => inferInstanceAs (Decidable (∀ call ∈ app.handled _, _))
  | .resume index settlement _ _ =>
    inferInstanceAs (Decidable (settlement ≠ .rejected → ∀ entry ∈ app.suspended[index]?, app.Advances entry.2))
  | .handleSignal _ (.answer ..) _ | .handleSignal _ (.ice ..) _ | .handleSignal _ (.hangup ..) _ | .answerCall _ |
    .endCall .. | .confirmSas | .localCandidate .. | .disconnected _ | .frame .. => isTrue trivial

end

/-- A call up to the keys in place of the caller, whose promise has not been taken up yet. -/
def answeredCall : List (CallMove (List Bytes)) :=
  [.placeCall "callee" [0xca] true [[7]] 0,
   .resume 0 (.described "sdp" "own") resolves 0,
   .resume 0 .resolved resolves 0,
   .handleSignal "callee" (.answer "ca" "sdp" "theirs") 0,
   .resume 0 .resolved resolves 0,
   .resume 0 .resolved resolves 0]

/-- A call that connects and is hung up. -/
theorem calls_forward_hungUp : ∃ app : CallApp (List Bytes),
    app.reports "ca" = [.ringingOutgoing, .ringingOutgoing, .ringingOutgoing, .connecting, .connected, .ended] ∧
      (app.reports "ca").Pairwise (fun s t => s.rank ≤ t.rank) := by
  refine ⟨performAll spelledCalls callOptions { buffers := fun _ => [] } (answeredCall ++
    [.resume 0 .resolved resolves 0, .connected 0, .handleSignal "callee" (.hangup "ca" "ended") 0,
     .resume 0 .resolved resolves 0]), by decide +kernel, ?_⟩
  refine (calls_forward
    ⟨fun _ => [], rfl⟩ (reaches_performAll ?_)).1 "ca"
  decide +kernel

/-- The peer hangs up while the caller's keys are being put in place; the call that has ended is connecting again, and
another is refused. -/
theorem resumed_after_end : ∃ app : CallApp (List Bytes),
    Relation.ReflTransGen (Step spelledCalls callOptions (fun _ _ => True)) { buffers := fun _ => [] } app ∧
      ¬ (app.reports "ca").Pairwise (fun s t => s.rank ≤ t.rank) ∧ .ended ∈ app.reports "ca" ∧ app.live = true ∧
      app.current.map CallInfo.callId = some "ca" := by
  refine ⟨performAll spelledCalls callOptions { buffers := fun _ => [] } (answeredCall ++
    [.handleSignal "callee" (.hangup "ca" "ended") 0, .resume 1 .resolved resolves 0, .resume 0 .resolved resolves 0]),
    reaches_performAll ?_, ?_, ?_, ?_, ?_⟩
  · decide +kernel
  · decide +kernel
  · decide +kernel
  · decide +kernel
  · decide +kernel

end CallApp

end Veil
