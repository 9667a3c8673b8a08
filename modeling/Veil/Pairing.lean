import Veil.Base64Url

namespace Veil

structure PairingState where
  peerAddress : String
  peerIdentityKey : String
  pairedAt : Int
  displayName : String
  deriving DecidableEq

inductive RefusalReason
  | notPaired
  | stranger
  | keyChanged
  deriving DecidableEq

inductive PairingDecision
  | allow
  | refuse (reason : RefusalReason)
  deriving DecidableEq

def decideInbound (pairing : Option PairingState) (senderAddress senderIdentityKey : String) : PairingDecision :=
  match pairing with
  | none => .refuse .notPaired
  | some pairing =>
    if senderAddress ≠ pairing.peerAddress then .refuse .stranger
    else if senderIdentityKey ≠ pairing.peerIdentityKey then .refuse .keyChanged
    else .allow

def decideOutbound (pairing : Option PairingState) (peerAddress : String) : PairingDecision :=
  match pairing with
  | none => .refuse .notPaired
  | some pairing => if peerAddress ≠ pairing.peerAddress then .refuse .stranger else .allow

def explainRefusal : RefusalReason → String
  | .notPaired => "This device is not paired yet. Pair with your contact in person first."
  | .stranger => "Blocked a message from someone you are not paired with."
  | .keyChanged => "Your contact’s security key has changed. Either they reinstalled the " ++
      "app, or someone is trying to intercept your conversation. Do not send " ++
      "anything until you are together in person and can pair again."

/-- `slice(0, units)`, which counts UTF-16 units; a pair that would be cut in two is left out. -/
def sliceUnits (text : String) (units : Nat) : String :=
  String.ofList (go text.toList units)
where
  go : List Char → Nat → List Char
    | [], _ => []
    | c :: rest, units =>
      let size := if c.toNat < 0x10000 then 1 else 2
      if size ≤ units then c :: go rest (units - size) else []

def createPairing (peerAddress peerIdentityKey displayName : String) (now : Int) : Except Failure PairingState :=
  if peerAddress = "" ∨ peerIdentityKey = "" then
    .error (.malformedInput "pairing needs both an address and an identity key")
  else .ok { peerAddress, peerIdentityKey, pairedAt := now,
             displayName := if displayName = "" then sliceUnits peerAddress 8 else displayName }

theorem decideInbound_allow {pairing : Option PairingState} {address key : String}
    (h : decideInbound pairing address key = .allow) :
    ∃ peer, pairing = some peer ∧ address = peer.peerAddress ∧ key = peer.peerIdentityKey := by
  unfold decideInbound at h
  split at h
  next => cases h
  next peer =>
    split at h
    next => cases h
    next haddress =>
      split at h
      next => cases h
      next hkey => exact ⟨peer, rfl, not_not.mp haddress, not_not.mp hkey⟩

theorem decideOutbound_allow {pairing : Option PairingState} {address : String}
    (h : decideOutbound pairing address = .allow) : ∃ peer, pairing = some peer ∧ address = peer.peerAddress := by
  unfold decideOutbound at h
  split at h
  next => cases h
  next peer =>
    split at h
    next => cases h
    next haddress => exact ⟨peer, rfl, not_not.mp haddress⟩

end Veil
