import Veil.Library.ReplayWindow
import Veil.Sframe

namespace Veil

section

variable {K : Type} (prim : FramePrimitives K)

/-- A receiver that remembers every counter it has accepted. -/
structure FrameHistory where
  accepted : Finset Int

def FrameHistory.receive (key : K) (history : FrameHistory) (frame : EncryptedFrame) (additionalData : Bytes) :
    FrameHistory × Option Bytes :=
  if 0 ≤ frame.counter ∧ frame.counter ≤ maxFrameCounter ∧
      ReplayWindow.Fresh replayWindow history.accepted frame.counter then
    match openFrame prim key frame additionalData with
    | .error _ => (history, none)
    | .ok plaintext => (⟨insert frame.counter history.accepted⟩, some plaintext)
  else (history, none)

/-- A run of a receiver over frames with their additional data. -/
def SframeReceiver.receiveAll (receiver : SframeReceiver K) :
    List (EncryptedFrame × Bytes) → SframeReceiver K × List (Except Failure Bytes)
  | [] => (receiver, [])
  | (frame, additionalData) :: rest =>
    let (next, result) := decryptFrame prim receiver frame additionalData
    let (last, results) := next.receiveAll rest
    (last, result :: results)

def FrameHistory.receiveAll (key : K) (history : FrameHistory) :
    List (EncryptedFrame × Bytes) → FrameHistory × List (Option Bytes)
  | [] => (history, [])
  | (frame, additionalData) :: rest =>
    let (next, result) := history.receive prim key frame additionalData
    let (last, results) := next.receiveAll key rest
    (last, result :: results)

/-- The receiver holds what it needs of the history. -/
structure SframeReceiver.Tracks (key : K) (history : FrameHistory) (receiver : SframeReceiver K) : Prop where
  key : receiver.key = key
  covers : ReplayWindow.Covers replayWindow history.accepted receiver.seen receiver.highestCounter

end

section

variable {K : Type} {prim : FramePrimitives K} {key : K} {history : FrameHistory} {receiver : SframeReceiver K}

theorem createReceiver_tracks (h : createReceiver prim key = .ok receiver) : receiver.Tracks key ⟨∅⟩ := by
  unfold createReceiver at h
  split at h
  next => cases h
  next =>
    cases h
    exact ⟨rfl, ReplayWindow.Covers.empty _⟩

theorem SframeReceiver.Tracks.commit (h : receiver.Tracks key history) {counter : Int} (hc : 0 ≤ counter) :
    (receiver.commit counter).Tracks key ⟨insert counter history.accepted⟩ ∧
      (receiver.commit counter).highestCounter = max counter receiver.highestCounter := by
  have hmax : (if counter > receiver.highestCounter then counter else receiver.highestCounter) =
      max counter receiver.highestCounter := by
    split <;> omega
  unfold SframeReceiver.commit SframeReceiver.prune
  simp only [hmax]
  split
  next hcutoff =>
    refine ⟨⟨h.key, h.covers.accept hc (Finset.filter_subset _ _) ?_ ?_⟩, rfl⟩
    · intro c hmem hin
      exact Finset.mem_filter.mpr ⟨hmem, by omega⟩
    · intro c hmem
      have := (Finset.mem_filter.mp hmem).2
      omega
  next hcutoff =>
    refine ⟨⟨h.key, h.covers.accept hc (fun _ hmem => hmem) (fun _ hmem _ => hmem) ?_⟩, rfl⟩
    intro c hmem
    have hnonneg : 0 ≤ c := by
      rcases Finset.mem_insert.mp hmem with rfl | hs
      · exact hc
      · exact h.covers.nonneg c (h.covers.subset hs)
    omega

/-- The checks in front of the authentication ask whether the counter is fresh. -/
theorem SframeReceiver.Tracks.fresh_iff (h : receiver.Tracks key history) {counter : Int} (hc : 0 ≤ counter) :
    ReplayWindow.Fresh replayWindow history.accepted counter ↔ counter ∉ receiver.seen ∧
      ¬(receiver.highestCounter ≥ 0 ∧ counter + replayWindow ≤ receiver.highestCounter) := by
  rw [h.covers.fresh_iff]
  have hlow := h.covers.top ▸ ReplayWindow.neg_one_le_highest history.accepted
  have hwindow : replayWindow = 1024 := rfl
  constructor
  · rintro ⟨hnew, hin⟩
    exact ⟨hnew, by omega⟩
  · rintro ⟨hnew, hin⟩
    exact ⟨hnew, by omega⟩

theorem decryptFrame_refines (h : receiver.Tracks key history) (frame : EncryptedFrame) (additionalData : Bytes) :
    (decryptFrame prim receiver frame additionalData).1.Tracks key
        (history.receive prim key frame additionalData).1 ∧
      (decryptFrame prim receiver frame additionalData).2.toOption =
        (history.receive prim key frame additionalData).2 ∧
      ((decryptFrame prim receiver frame additionalData).2.toOption = none →
        (decryptFrame prim receiver frame additionalData).1 = receiver) := by
  unfold decryptFrame FrameHistory.receive
  by_cases hrange : frame.counter < 0 ∨ frame.counter > maxFrameCounter
  · rw [if_pos hrange, if_neg (by omega)]
    exact ⟨h, rfl, fun _ => rfl⟩
  rw [if_neg hrange]
  have hc : 0 ≤ frame.counter := by omega
  have hfresh := h.fresh_iff hc
  by_cases hseen : frame.counter ∈ receiver.seen
  · rw [if_pos hseen, if_neg (fun hall => (hfresh.mp hall.2.2).1 hseen)]
    exact ⟨h, rfl, fun _ => rfl⟩
  rw [if_neg hseen]
  by_cases hold : receiver.highestCounter ≥ 0 ∧ frame.counter + replayWindow ≤ receiver.highestCounter
  · rw [if_pos hold, if_neg (fun hall => (hfresh.mp hall.2.2).2 hold)]
    exact ⟨h, rfl, fun _ => rfl⟩
  rw [if_neg hold, if_pos ⟨hc, by omega, hfresh.mpr ⟨hseen, hold⟩⟩, h.key]
  cases openFrame prim key frame additionalData with
  | error e => exact ⟨h, rfl, fun _ => rfl⟩
  | ok plaintext => exact ⟨(h.commit hc).1, rfl, fun hnone => by cases hnone⟩

theorem receiveAll_refines (h : receiver.Tracks key history) (traffic : List (EncryptedFrame × Bytes)) :
    (receiver.receiveAll prim traffic).1.Tracks key (history.receiveAll prim key traffic).1 ∧
      (receiver.receiveAll prim traffic).2.map Except.toOption = (history.receiveAll prim key traffic).2 := by
  induction traffic generalizing receiver history with
  | nil => exact ⟨h, rfl⟩
  | cons entry rest ih =>
    obtain ⟨frame, additionalData⟩ := entry
    obtain ⟨hnext, hresult, _⟩ := decryptFrame_refines h frame additionalData
    obtain ⟨hlast, hresults⟩ := ih hnext
    refine ⟨hlast, ?_⟩
    simp only [SframeReceiver.receiveAll, FrameHistory.receiveAll, List.map_cons, hresult, hresults]

theorem SframeReceiver.Tracks.seen_card (h : receiver.Tracks key history) : receiver.seen.card ≤ 1025 := by
  have := h.covers.card_le
  have hwindow : replayWindow = 1024 := rfl
  omega

/-- From any point of a run the bounded receiver goes on as one that has remembered every accepted counter. -/
theorem decryptFrame_remembers (prim : FramePrimitives K) (key : K) (initial : SframeReceiver K)
    (created : createReceiver prim key = .ok initial) (traffic : List (EncryptedFrame × Bytes)) :
    let receiver := (initial.receiveAll prim traffic).1
    let history := ((⟨∅⟩ : FrameHistory).receiveAll prim key traffic).1
    (initial.receiveAll prim traffic).2.map Except.toOption =
        ((⟨∅⟩ : FrameHistory).receiveAll prim key traffic).2 ∧
      receiver.highestCounter = ReplayWindow.highest history.accepted ∧
      (receiver.seen.card : Int) ≤ replayWindow + 1 ∧
      ∀ frame additionalData,
        (∀ plaintext, (decryptFrame prim receiver frame additionalData).2 = .ok plaintext ↔
          0 ≤ frame.counter ∧ frame.counter ≤ maxFrameCounter ∧
            openFrame prim key frame additionalData = .ok plaintext ∧ frame.counter ∉ history.accepted ∧
            frame.counter > receiver.highestCounter - replayWindow) ∧
        (∀ e, (decryptFrame prim receiver frame additionalData).2 = .error e →
          (decryptFrame prim receiver frame additionalData).1 = receiver) := by
  intro receiver history
  obtain ⟨htracks, hresults⟩ := receiveAll_refines (createReceiver_tracks created) traffic
  have hcard : receiver.seen.card ≤ 1025 := SframeReceiver.Tracks.seen_card htracks
  refine ⟨hresults, htracks.covers.top, by rw [replayWindow]; omega, ?_⟩
  intro frame additionalData
  obtain ⟨_, hresult, hstill⟩ := decryptFrame_refines htracks frame additionalData
  refine ⟨?_, ?_⟩
  · intro plaintext
    have hok : (decryptFrame prim receiver frame additionalData).2 = .ok plaintext ↔
        (history.receive prim key frame additionalData).2 = some plaintext := by
      rw [← hresult]
      cases (decryptFrame prim receiver frame additionalData).2 <;> simp [Except.toOption]
    have htop : receiver.highestCounter = ReplayWindow.highest history.accepted := htracks.covers.top
    rw [hok, htop]
    unfold FrameHistory.receive
    split
    next hadmit =>
      obtain ⟨hlow, hhigh, hnew, hin⟩ := hadmit
      cases hopen : openFrame prim key frame additionalData with
      | error e => simp
      | ok opened =>
        simp only [Option.some.injEq, Except.ok.injEq]
        exact ⟨fun heq => ⟨hlow, hhigh, heq, hnew, hin⟩, fun hall => hall.2.2.1⟩
    next hrefuse =>
      simp only [reduceCtorEq, false_iff]
      rintro ⟨hlow, hhigh, _, hnew, hin⟩
      exact hrefuse ⟨hlow, hhigh, hnew, hin⟩
  · intro e he
    exact hstill (by rw [he]; rfl)

end

/-- Primitives whose ciphertext is the key stream input, the additional data and the plaintext. -/
def taggedFrames : FramePrimitives Bytes where
  keyLength key := key.length
  kdf key _ info := ⟨key ++ info, []⟩
  aeadEncrypt key nonce plaintext ad := .ok (key ++ nonce ++ ad ++ plaintext)
  aeadDecrypt key nonce ciphertext ad :=
    if (key ++ nonce ++ ad).isPrefixOf ciphertext then .ok (ciphertext.drop (key ++ nonce ++ ad).length)
    else .error (.authentication "authentication failed")

/-- The frame with counter 5 of a call under the all-zero key. -/
def frameFive : EncryptedFrame where
  counter := 5
  payload := List.replicate 32 0 ++ sframeFrameLabel ++ Writer.bigEndian64 5 ++ Writer.bigEndian64 5 ++ [7]

/-- It is accepted once, and its copy is not. -/
theorem decryptFrame_remembers_frameFive :
    (SframeReceiver.receiveAll taggedFrames ⟨List.replicate 32 0, -1, ∅⟩ [(frameFive, [])]).2.map Except.toOption =
        [some [7]] ∧
      ∀ plaintext, (decryptFrame taggedFrames (SframeReceiver.receiveAll taggedFrames ⟨List.replicate 32 0, -1, ∅⟩
        [(frameFive, [])]).1 frameFive []).2 ≠ .ok plaintext := by
  obtain ⟨hresults, _, _, hnext⟩ := decryptFrame_remembers taggedFrames (List.replicate 32 0)
    ⟨List.replicate 32 0, -1, ∅⟩ rfl [(frameFive, [])]
  refine ⟨hresults.trans (by decide +kernel), ?_⟩
  intro plaintext haccepted
  obtain ⟨_, _, _, hnew, _⟩ := ((hnext frameFive []).1 plaintext).mp haccepted
  exact hnew (by decide +kernel)

end Veil
