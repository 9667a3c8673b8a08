import Veil.Base64Url
import Veil.Codec
import Veil.Identity
import Veil.Sframe

namespace Veil

inductive CallRole
  | caller
  | callee
  deriving DecidableEq, Repr

/-- What calls use of the primitives besides frames: the KDF at 32 bytes and at the eight bytes of the authentication
string, the base64url text of a secret and back, and what filling a buffer with zeros leaves. -/
structure CallPrimitives (K : Type) extends FramePrimitives K where
  mediaKdf : K → Bytes → Bytes → K
  sasKdf : K → Bytes → Bytes → Bytes
  secretText : K → String
  secretFromText : String → Except Failure K
  wiped : K → K

/-- The two directional keys, or the buffers that hold them, and the authentication string. -/
structure CallKeyMaterial (κ : Type) where
  sendKey : κ
  receiveKey : κ
  sas : String
  sasDigits : String
  deriving DecidableEq

structure CallParams where
  role : CallRole
  callerIdentity : PublicIdentity
  calleeIdentity : PublicIdentity
  callId : Bytes
  callerDtlsFingerprint : Bytes
  calleeDtlsFingerprint : Bytes

def callTranscript (params : CallParams) : Except Failure Bytes := do
  let w ← (({} : Writer).fixed (utf8 "Veil/v1/Call")).bytes params.callId
  let w ← w.bytes params.callerIdentity.signingPublicKey
  let w ← w.bytes params.calleeIdentity.signingPublicKey
  let w ← w.bytes params.callerDtlsFingerprint
  let w ← w.bytes params.calleeDtlsFingerprint
  return w.finish

def sasWordList : List String :=
  ["absurd", "acme", "adrift", "adult", "afflict", "ahead", "aimless", "algol", "allow", "alone", "ammo", "ancient",
   "apple", "artist", "assume", "athens", "atlas", "aztec", "baboon", "backfield", "backward", "banjo", "beaming",
   "bedlamp", "beehive", "beeswax", "befriend", "belfast", "berserk", "billiard", "bison", "blackjack", "blockade",
   "blowtorch", "bluebird", "bombast", "bookshelf", "brackish", "breadline", "breakup", "brickyard", "briefcase",
   "burbank", "button", "buzzard", "cement", "chairlift", "chatter", "checkup", "chisel", "choking", "chopper",
   "christmas", "clamshell", "classic", "classroom", "cleanup", "clockwork", "cobra", "commence", "concert",
   "cowbell", "crackdown", "cranky", "crowfoot", "crucial", "crumpled", "crusade", "cubic", "dashboard", "deadbolt",
   "deckhand", "dogsled", "dragnet", "drainage", "dreadful", "drifter", "dropper", "drumbeat", "drunken", "dupont",
   "dwelling", "eating", "edict", "egghead", "eightball", "endorse", "endow", "enlist", "erase", "escape", "exceed",
   "eyeglass", "eyetooth", "facial", "fallout", "flagpole", "flatfoot", "flytrap", "fracture", "framework",
   "freedom", "frighten", "gazelle", "geiger", "glitter", "glucose", "goggles", "goldfish", "gremlin", "guidance",
   "hamlet", "highchair", "hockey", "indoors", "indulge", "inverse", "involve", "island", "jawbone", "keyboard",
   "kickoff", "kiwi", "klaxon", "locale", "lockup", "merit", "minnow", "miser", "mohawk", "mural", "music",
   "necklace", "neptune", "newborn", "nightbird", "oakland", "obtuse", "offload", "optic", "orca", "payday",
   "peachy", "pheasant", "physique", "playhouse", "pluto", "preclude", "prefer", "preshrunk", "printer", "prowler",
   "pupil", "puppy", "python", "quadrant", "quiver", "quota", "ragtime", "ratchet", "rebirth", "reform", "regain",
   "reindeer", "rematch", "repay", "retouch", "revenge", "reward", "rhythm", "ribcage", "ringbolt", "robust",
   "rocker", "ruffled", "sailboat", "sawdust", "scallion", "scenic", "scorecard", "scotland", "seabird", "select",
   "sentence", "shadow", "shamrock", "showgirl", "skullcap", "skydive", "slingshot", "slowdown", "snapline",
   "snapshot", "snowcap", "snowslide", "solo", "southward", "soybean", "spaniel", "spearhead", "spellbind",
   "spheroid", "spigot", "spindle", "spyglass", "stagehand", "stagnate", "stairway", "standard", "stapler",
   "steamship", "sterling", "stockman", "stopwatch", "stormy", "sugar", "surmount", "suspense", "sweatband",
   "swelter", "tactics", "talon", "tapeworm", "tempest", "tiger", "tissue", "tonic", "topmost", "tracker",
   "transit", "trauma", "treadmill", "trojan", "trouble", "tumor", "tunnel", "tycoon", "uncut", "unearth", "unwind",
   "uproot", "upset", "upshot", "vapor", "village", "virus", "vulcan", "waffle", "wallet", "watchword", "wayside",
   "willow", "woodlark", "zulu", "alpine", "bravado"]

/-- First four bytes to four words. -/
def sasWords (bytes : Bytes) : Except Failure String :=
  if bytes.length < 4 then .error (.malformedInput "SAS needs at least 4 bytes")
  else .ok (" ".intercalate ((bytes.take 4).map (fun byte => sasWordList.getD byte.toNat "")))

def padStart (width : Nat) (fill : Char) (text : String) : String :=
  String.ofList (List.replicate (width - text.length) fill) ++ text

/-- Six digits from the same bytes. -/
def sasNumeric (bytes : Bytes) : Except Failure String :=
  if bytes.length < 4 then .error (.malformedInput "SAS needs at least 4 bytes")
  else
    let value := (bytes.take 4).foldl (fun value byte => value * 256 + byte.toNat) 0
    .ok (padStart 6 '0' (toString (value % 1000000)))

def sframeSenderLabel : Bytes := utf8 "Veil/v1/SFrameSender"

def callSasLabel : Bytes := utf8 "Veil/v1/CallSAS"

def directionLabel : CallRole → Bytes
  | .caller => concat [sframeSenderLabel, utf8 "/caller"]
  | .callee => concat [sframeSenderLabel, utf8 "/callee"]

def CallRole.other : CallRole → CallRole
  | .caller => .callee
  | .callee => .caller

section

variable {K : Type} (prim : CallPrimitives K)

def deriveCallKeys (mediaRootSecret : K) (params : CallParams) : Except Failure (CallKeyMaterial K) := do
  let transcript ← callTranscript params
  let callerKey := prim.mediaKdf mediaRootSecret transcript (directionLabel .caller)
  let calleeKey := prim.mediaKdf mediaRootSecret transcript (directionLabel .callee)
  let sasBytes := prim.sasKdf mediaRootSecret transcript callSasLabel
  let sas ← sasWords sasBytes
  let sasDigits ← sasNumeric sasBytes
  match params.role with
  | .caller => return { sendKey := callerKey, receiveKey := calleeKey, sas, sasDigits }
  | .callee => return { sendKey := calleeKey, receiveKey := callerKey, sas, sasDigits }

end

theorem callTranscript_binds {params params' : CallParams} {transcript : Bytes} (h : callTranscript params = .ok transcript)
    (h' : callTranscript params' = .ok transcript) :
    params.callId = params'.callId ∧
      params.callerIdentity.signingPublicKey = params'.callerIdentity.signingPublicKey ∧
      params.calleeIdentity.signingPublicKey = params'.calleeIdentity.signingPublicKey ∧
      params.callerDtlsFingerprint = params'.callerDtlsFingerprint ∧
      params.calleeDtlsFingerprint = params'.calleeDtlsFingerprint := by
  simp only [callTranscript, Outcome.bind_eq_ok_iff, Outcome.pure_eq_ok_iff, Writer.bytes_eq_ok_iff] at h h'
  obtain ⟨_, ⟨h₁, rfl⟩, _, ⟨h₂, rfl⟩, _, ⟨h₃, rfl⟩, _, ⟨h₄, rfl⟩, _, ⟨h₅, rfl⟩, rfl⟩ := h
  obtain ⟨_, ⟨h₁', rfl⟩, _, ⟨h₂', rfl⟩, _, ⟨h₃', rfl⟩, _, ⟨h₄', rfl⟩, _, ⟨h₅', rfl⟩, heq⟩ := h'
  simp only [Writer.finish_push, Writer.finish_fixed, Writer.finish_empty, List.nil_append, List.append_assoc,
    List.append_cancel_left_eq] at heq
  obtain ⟨e₁, heq⟩ := prefixed_append_inj h₁' h₁ heq
  obtain ⟨e₂, heq⟩ := prefixed_append_inj h₂' h₂ heq
  obtain ⟨e₃, heq⟩ := prefixed_append_inj h₃' h₃ heq
  obtain ⟨e₄, heq⟩ := prefixed_append_inj h₄' h₄ heq
  obtain ⟨e₅, _⟩ := @prefixed_append_inj _ _ [] [] h₅' h₅ (by simpa using heq)
  exact ⟨e₁.symm, e₂.symm, e₃.symm, e₄.symm, e₅.symm⟩

theorem directionLabel_inj {role role' : CallRole} (h : directionLabel role = directionLabel role') : role = role' := by
  revert h
  cases role <;> cases role' <;> decide +kernel

section

variable {K : Type} {prim : CallPrimitives K}

theorem deriveCallKeys_eq_ok {secret : K} {params : CallParams} {keys : CallKeyMaterial K}
    (h : deriveCallKeys prim secret params = .ok keys) : ∃ transcript, callTranscript params = .ok transcript ∧
      keys.sendKey = prim.mediaKdf secret transcript (directionLabel params.role) ∧
      keys.receiveKey = prim.mediaKdf secret transcript (directionLabel params.role.other) ∧
      sasWords (prim.sasKdf secret transcript callSasLabel) = .ok keys.sas ∧
      sasNumeric (prim.sasKdf secret transcript callSasLabel) = .ok keys.sasDigits := by
  simp only [deriveCallKeys, Outcome.bind_eq_ok_iff] at h
  obtain ⟨transcript, htranscript, sas, hsas, sasDigits, hsasDigits, h⟩ := h
  refine ⟨transcript, htranscript, ?_⟩
  cases hrole : params.role with
  | caller =>
    rw [hrole] at h
    obtain rfl := Except.ok.inj h
    exact ⟨rfl, rfl, hsas, hsasDigits⟩
  | callee =>
    rw [hrole] at h
    obtain rfl := Except.ok.inj h
    exact ⟨rfl, rfl, hsas, hsasDigits⟩

end

end Veil
