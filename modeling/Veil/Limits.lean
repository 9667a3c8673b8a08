import Mathlib

namespace Veil

/-- The first of the relay's `LIMITS`, whose times are in milliseconds. -/
def maxBodyBytes : Nat := 256 * 1024

def maxEnvelopeBytes : Nat := 128 * 1024

def maxQueueLength : Nat := 2000

def maxOneTimePreKeys : Nat := 500

def messageTtlMs : Int := 30 * 24 * 60 * 60 * 1000

def challengeTtlMs : Int := 60 * 1000

def tokenTtlMs : Int := 24 * 60 * 60 * 1000

end Veil
