import Mathlib
import Veil.Json
import Veil.Vault

namespace Veil

/-- `JSON.parse`, which may throw, and `JSON.stringify`. -/
structure JsonText where
  parse : String → Option Json
  stringify : Json → String

/-- The text of bytes in the keystore. -/
structure Base64Text where
  encode : Bytes → String
  decode : String → Bytes

structure UnlockAttemptState where
  /-- Consecutive failures since the last success. -/
  failures : Int
  /-- Local clock at the most recent failure. -/
  lastFailureAt : Int
  deriving DecidableEq, Repr

structure UnlockPolicy where
  /-- Failures allowed with no delay. -/
  freeAttempts : Nat
  /-- Base lockout, doubling per failure past the free allowance. -/
  baseLockoutMs : Nat
  /-- Cap, so the app never locks a legitimate owner out permanently. -/
  maxLockoutMs : Nat
  deriving DecidableEq, Repr

def defaultUnlockPolicy : UnlockPolicy := { freeAttempts := 3, baseLockoutMs := 15000, maxLockoutMs := 300000 }

def emptyAttemptState : UnlockAttemptState := { failures := 0, lastFailureAt := 0 }

/-- The lockout that begins with a failure. -/
def lockoutMs (policy : UnlockPolicy) (failures : Int) : Int :=
  let failuresOver := failures - policy.freeAttempts
  let exponent := min (failuresOver - 1) 20
  min (policy.baseLockoutMs * 2 ^ exponent.toNat) policy.maxLockoutMs

def lockoutRemainingMs (state : UnlockAttemptState) (currentTime : Int) (policy : UnlockPolicy) : Int :=
  if state.failures ≤ policy.freeAttempts then 0
  else
    let lockout := lockoutMs policy state.failures
    let elapsed := currentTime - state.lastFailureAt
    -- a clock moved backwards must not shorten a lockout
    if elapsed < 0 then lockout else max 0 (lockout - elapsed)

def canAttempt (state : UnlockAttemptState) (currentTime : Int) (policy : UnlockPolicy) : Bool :=
  lockoutRemainingMs state currentTime policy = 0

def recordFailure (state : UnlockAttemptState) (currentTime : Int) : UnlockAttemptState :=
  { failures := state.failures + 1, lastFailureAt := currentTime }

def recordSuccess : UnlockAttemptState := emptyAttemptState

/-- `typeof this === 'object' && this !== null` -/
def Json.isObject : Json → Bool
  | .obj _ | .arr _ => true
  | _ => false

/-- The state that a parsed entry holds, if it holds one. -/
def readAttemptState (parsed : Json) : Option UnlockAttemptState :=
  if !parsed.isObject then none
  else
    match parsed.field "failures", parsed.field "lastFailureAt" with
    | some (.num (.finite failures)), some (.num (.finite lastFailureAt)) =>
      if failures < 0 ∨ lastFailureAt < 0 then none
      else some { failures := ⌊failures⌋, lastFailureAt := ⌊lastFailureAt⌋ }
    | _, _ => none

/-- Parse persisted attempt state, failing closed. -/
def parseAttemptState (js : JsonText) (raw : Option String) (currentTime : Int) (policy : UnlockPolicy) :
    UnlockAttemptState :=
  let failClosed : UnlockAttemptState := { failures := policy.freeAttempts + 1, lastFailureAt := currentTime }
  match raw with
  | none => emptyAttemptState -- genuinely first run
  | some raw => ((js.parse raw).bind readAttemptState).getD failClosed

def UnlockAttemptState.toJson (state : UnlockAttemptState) : Json :=
  .obj [("failures", .num (.finite state.failures)), ("lastFailureAt", .num (.finite state.lastFailureAt))]

def serialiseAttemptState (js : JsonText) (state : UnlockAttemptState) : String := js.stringify state.toJson

/-- The entries of the keystore that the unlock screen reads and writes. -/
structure UnlockEntries where
  /-- `VAULT_KEY` -/
  storedWrapper : Option String
  /-- `ATTEMPTS_KEY` -/
  attempts : Option String
  deriving DecidableEq, Repr

/-- The app at the unlock screen; nothing but the keystore outlives the process. -/
structure App where
  secrets : UnlockEntries
  /-- `vaultRef` -/
  vault : Option Vault
  deriving DecidableEq

/-- A press of the button: what is typed, what `random` returns, and the clock at the gate and after the passphrase was tried. -/
structure StartCall where
  passphrase : Bytes
  salt : RandomBytes saltLength
  dataKey : RandomBytes aeadKeyLength
  openedAt : Int
  failedAt : Int

/-- What the screen shows for it. -/
inductive Started
  /-- `Too many incorrect attempts.` -/
  | refused (wait : Int)
  /-- `Incorrect passphrase.` -/
  | incorrect (remaining : Int)
  | unlocked (vault : Vault)
  | created (vault : Vault)
  | error (failure : Failure)

namespace App

variable (js : JsonText) (base64 : Base64Text) (prim : VaultPrimitives) (policy : UnlockPolicy)

/-- `unlockVault(utf8.encode(passphrase), decodeWrappedVault(Buffer.from(storedWrapper, 'base64')))` -/
def openWrapper (passphrase : Bytes) (storedWrapper : String) : Except Failure Vault := do
  prim.unlockVault passphrase (← decodeWrappedVault (base64.decode storedWrapper))

/-- `storedWrapper`, where the code tests it: an empty text is none. -/
def wrapper? (app : App) : Option String := app.secrets.storedWrapper.filter (· ≠ "")

/-- Create or unlock the vault. -/
def start (app : App) (call : StartCall) : Started × App :=
  let attempts := parseAttemptState js app.secrets.attempts call.openedAt policy
  match app.wrapper? with
  | some storedWrapper =>
    if !canAttempt attempts call.openedAt policy then
      (.refused (lockoutRemainingMs attempts call.openedAt policy), app)
    else
      match openWrapper base64 prim call.passphrase storedWrapper with
      | .error _ =>
        let attempts := recordFailure attempts call.failedAt
        (.incorrect (lockoutRemainingMs attempts call.failedAt policy),
          { app with secrets.attempts := some (serialiseAttemptState js attempts) })
      | .ok vault =>
        (.unlocked vault,
          { secrets := { app.secrets with attempts := some (serialiseAttemptState js recordSuccess) }
            vault := some vault })
  | none =>
    match prim.createVault call.passphrase call.salt call.dataKey with
    | .error failure => (.error failure, app)
    | .ok (vault, wrapped) =>
      match encodeWrappedVault wrapped with
      | .error failure => (.error failure, app)
      | .ok bytes =>
        (.created vault,
          { secrets := { app.secrets with storedWrapper := some (base64.encode bytes) }, vault := some vault })

end App

/-- What happens at the unlock screen. -/
inductive UnlockEvent
  | start (call : StartCall)
  /-- The data key is wiped from memory. -/
  | lock
  /-- The process ends, and the app is opened again. -/
  | restart

/-- A passphrase that was tried: when the gate let it pass, and when it was found to be wrong. -/
structure Attempt where
  openedAt : Int
  failedAt : Option Int
  deriving DecidableEq, Repr

def Started.attempt? (call : StartCall) : Started → Option Attempt
  | .incorrect _ => some { openedAt := call.openedAt, failedAt := some call.failedAt }
  | .unlocked _ => some { openedAt := call.openedAt, failedAt := none }
  | .refused _ | .created _ | .error _ => none

namespace App

variable (js : JsonText) (base64 : Base64Text) (prim : VaultPrimitives) (policy : UnlockPolicy)

def step (app : App) : UnlockEvent → App
  | .start call => (app.start js base64 prim policy call).2
  | .lock | .restart => { app with vault := none }

/-- The attempt an event makes. -/
def attempted? (app : App) : UnlockEvent → Option Attempt
  | .start call => (app.start js base64 prim policy call).1.attempt? call
  | .lock | .restart => none

def run (app : App) (events : List UnlockEvent) : App := events.foldl (step js base64 prim policy) app

/-- The attempts of a run, in order. -/
def attempts : App → List UnlockEvent → List Attempt
  | _, [] => []
  | app, event :: events =>
    (app.attempted? js base64 prim policy event).toList ++
      attempts (app.step js base64 prim policy event) events

end App

end Veil
