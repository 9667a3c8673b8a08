import Mathlib

namespace Veil

/-- Whatever a function of the program can throw: the error classes with the texts they carry. -/
inductive Failure
  | malformedInput (message : String)
  | authentication (message : String)
  | untrustedBundle (message : String)
  | identityChanged (message knownFingerprint presentedFingerprint : String)
  | sessionState (message : String)
  | replay (message : String)
  | vaultLocked (message : String)
  | relay (message : String) (status : Nat)
  | error (message : String)
  deriving DecidableEq, Repr, Inhabited

end Veil
