import Mathlib
import Veil.CallManager

namespace Veil

/-- What can happen to the manager next: a local operation, a signal from a peer, a callback of an engine, an outgoing
frame, or a promise that settles for the method waiting at `index`. -/
inductive CallMove (K : Type)
  | placeCall (peerAddress : String) (id : Bytes) (supports : Bool) (secret : K) (now : Int)
  | handleSignal (peerAddress : String) (signal : CallSignal) (now : Int)
  | answerCall (supports : Bool)
  | endCall (reason : String) (notify : Bool)
  | confirmSas
  | localCandidate (engine : Nat) (candidate : String)
  | connected (engine : Nat)
  | disconnected (engine : Nat)
  | frame (engine : Nat) (data : Bytes)
  | resume (index : Nat) (settlement : Settlement) (resolvePeerIdentity : String → Option PublicIdentity) (now : Int)

namespace Suspended

variable {K : Type}

/-- The promise the method waits for can settle so. -/
def settles (settlement : Settlement) : Suspended K → Bool
  | .creatingOffer _ _ _ _ => settlement ≠ .resolved
  | .creatingAnswer _ _ => settlement ≠ .resolved
  | .installingKeys _ _ accepted _ => settlement = .rejected || (settlement = .resolved && accepted)
  | .keysInstalled _ => settlement = .resolved
  | _ => settlement = .resolved || settlement = .rejected

/-- The engine whose closing the method waits for. -/
def closes : Suspended K → Option (Option Nat)
  | .closingEngine engine _ => some engine
  | _ => none

/-- The method goes on to `deriveAndInstallKeys`. -/
def setsUp : Suspended K → Bool
  | .creatingAnswer _ _ => true
  | .acceptingAnswer => true
  | _ => false

end Suspended

namespace CallApp

variable {K : Type} (prim : CallPrimitives K) (options : CallManagerOptions)

def perform (app : CallApp K) : CallMove K → CallApp K
  | .placeCall peerAddress id supports secret now => app.placeCall prim options peerAddress id supports secret now
  | .handleSignal peerAddress signal now => app.handleSignal prim peerAddress signal now
  | .answerCall supports => app.answerCall prim options supports
  | .endCall reason notify => app.endCall prim reason notify
  | .confirmSas => app.confirmSas
  | .localCandidate engine candidate => app.onLocalCandidate engine candidate
  | .connected engine => app.onConnected engine
  | .disconnected engine => app.onDisconnected prim engine
  | .frame engine data => app.transformFrame prim engine data
  | .resume index settlement resolvePeerIdentity now =>
    match app.suspended[index]? with
    | none => app
    | some (number, task) =>
      ({ app with suspended := app.suspended.eraseIdx index } : CallApp K).resume prim options number task settlement
        resolvePeerIdentity now

/-- An engine reports a connection, and sends frames, while it is open, a connection only with both descriptions. -/
def Possible (app : CallApp K) : CallMove K → Prop
  | .connected engine => app.engines[engine]?.any
      (fun media => !media.closed && media.hasLocalDescription && media.hasRemoteDescription) = true
  | .frame engine _ => app.engines[engine]?.any (fun media => !media.closed) = true
  | .resume index settlement _ _ => app.suspended[index]?.any (fun (_, task) => task.settles settlement) = true
  | _ => True

instance (app : CallApp K) : (move : CallMove K) → Decidable (app.Possible move)
  | .placeCall .. | .handleSignal .. | .answerCall _ | .endCall .. | .confirmSas | .localCandidate .. | .disconnected _ =>
    isTrue trivial
  | .connected _ => inferInstanceAs (Decidable (_ = true))
  | .frame .. => inferInstanceAs (Decidable (_ = true))
  | .resume .. => inferInstanceAs (Decidable (_ = true))

/-- A move that may happen and is `allowed`. -/
def Step (allowed : CallApp K → CallMove K → Prop) (app next : CallApp K) : Prop :=
  ∃ move, app.Possible move ∧ allowed app move ∧ next = app.perform prim options move

/-- Before the first call. -/
def Start (app : CallApp K) : Prop := ∃ buffers, app = { buffers }

def performAll (app : CallApp K) (moves : List (CallMove K)) : CallApp K := moves.foldl (perform prim options) app

/-- Each move of the list may happen, and is `allowed`, when it is its turn. -/
def PossibleAll (allowed : CallApp K → CallMove K → Prop) : CallApp K → List (CallMove K) → Prop
  | _, [] => True
  | app, move :: rest =>
    app.Possible move ∧ allowed app move ∧ PossibleAll allowed (app.perform prim options move) rest

instance decidablePossibleAll (allowed : CallApp K → CallMove K → Prop) [∀ app move, Decidable (allowed app move)] :
    (app : CallApp K) → (moves : List (CallMove K)) → Decidable (PossibleAll prim options allowed app moves)
  | _, [] => inferInstanceAs (Decidable True)
  | app, move :: rest =>
    have := decidablePossibleAll allowed (app.perform prim options move) rest
    inferInstanceAs (Decidable (_ ∧ _))

variable {prim options}

theorem PossibleAll.imp {allowed allowed' : CallApp K → CallMove K → Prop} {app : CallApp K} {moves : List (CallMove K)}
    (h : PossibleAll prim options allowed app moves)
    (imp : ∀ app, ∀ move ∈ moves, allowed app move → allowed' app move) : PossibleAll prim options allowed' app moves := by
  induction moves generalizing app with
  | nil => trivial
  | cons move rest ih =>
    obtain ⟨possible, hallowed, hrest⟩ := h
    exact ⟨possible, imp app move List.mem_cons_self hallowed,
      ih hrest (fun app move hmem => imp app move (List.mem_cons_of_mem _ hmem))⟩

theorem reaches_performAll {allowed : CallApp K → CallMove K → Prop} {app : CallApp K} {moves : List (CallMove K)}
    (h : PossibleAll prim options allowed app moves) :
    Relation.ReflTransGen (Step prim options allowed) app (app.performAll prim options moves) := by
  induction moves generalizing app with
  | nil => exact .refl
  | cons move rest ih => exact .head ⟨move, h.1, h.2.1, rfl⟩ (ih h.2.2)

end CallApp

end Veil
