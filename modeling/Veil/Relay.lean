import Veil.PublishedKeys
import Veil.RateLimiter

namespace Veil

namespace Relay

/-- Round a timestamp down to the hour. -/
def toHour (timestamp : Int) : Int := timestamp / 3600000 * 3600000

structure DeliveredMessage where
  id : String
  envelope : StoredEnvelope
  receivedAtHour : Int

def deliveryOf (message : QueuedMessage) : DeliveredMessage where
  id := message.id
  envelope := message.envelope
  receivedAtHour := toHour message.receivedAt

inductive ServerSocketMessage
  | authenticated (address : String)
  | deliver (message : DeliveredMessage)
  | accepted
  | pong
  | error (code message : String)

/-- A request on one of the routes. A body that is missing is `none`. -/
inductive Request
  | register (body : Option Json)
  | challenge (body : Option Json)
  | authenticate (body : Option Json)
  | fetchKeys (address : String)
  | uploadKeys (authorization : Option String) (body : Option Json)
  | countKeys (authorization : Option String)
  | sendMessage (body : Option Json)
  | fetchMessages (authorization : Option String)
  | acknowledge (authorization : Option String) (body : Option Json)

inductive Response
  | error (status : Nat) (error : String)
  | registered (status : Nat) (address : String)
  | challenge (challenge : String) (expiresAt : Int)
  | token (token : String) (expiresAt : Int)
  | bundle (identity signedPreKey signedKemPreKey : Json) (oneTimePreKey oneTimeKemPreKey : Option Json)
  | accepted
  | counts (oneTimePreKeys oneTimeKemPreKeys : Option Json)
  | messages (messages : List DeliveredMessage)
  | removed (count : Nat)
  | thrown (failure : Failure)

/-- Where a submission came from. -/
inductive Origin
  | request (request : Request)
  | socket (connection : Nat)

/-- A handler at one of its awaits, with what the rest of it uses; an account is known by the place of its record. -/
inductive Handler
  | registering (address : String) (existing : Option Nat) (body : Json)
  | registered (address : String)
  | authenticating (account : Option Nat) (address : String) (challenge signature : Json)
  | fetchingKeys (account : Option Nat)
  | takingKeys (account : Nat) (taken : Except Failure (Option Json × Option Json))
  | uploading (address : String) (account : Option Nat) (body : Json)
  | uploaded (result : Except Failure Unit)
  | counting (account : Option Nat)
  | submitting (account : Option Nat) (envelope : Json)
  | enqueued (message : QueuedMessage)
  | fetching (messages : List QueuedMessage)
  | acknowledged (removed : Nat)
  | draining (messages : List QueuedMessage)

/-- What the relay lets out: a response, a message on a socket, or a rejection nobody handles. -/
inductive Sent
  | response (request : Request) (response : Response)
  | message (connection : Nat) (message : ServerSocketMessage)
  | unhandled (connection : Nat) (failure : Failure)

/-- A socket, with the address its client calls from and the one it has authenticated as. -/
structure Connection where
  ip : String
  address : Option String := none
  isOpen : Bool := true
  deriving DecidableEq

/-- What the limiter and the submissions of a source have to do with each other: the limiter began a window for it, or a
submission was accepted. -/
inductive SubmissionEvent
  | window (source : String)
  | accepted (source : String)
  deriving DecidableEq

end Relay

/-- The state of `buildRelay`, with the handlers that wait, what was let out, and, latest first, the windows and accepted
submissions of sources. -/
structure Relay where
  store : RelayStore := {}
  auth : AuthService := {}
  sendLimiter : RateLimiter
  sockets : OrderedMap String (List Nat) := .empty
  connections : List Relay.Connection := []
  waiting : List (Relay.Origin × Relay.Handler) := []
  sent : List Relay.Sent := []
  submissions : List Relay.SubmissionEvent := []

namespace Relay

/-- Why an envelope is turned down. -/
inductive Refusal
  | malformed
  | tooLarge
  | thrown (failure : Failure)

/-- The checks of both submission paths: the fields that have to be there, then the size. -/
def checkEnvelope (js : NumberText) (required : List String) (envelope : Option Json) : Option Refusal :=
  if !required.all (fun name => Json.truthy (envelope.bind (Json.field name))) then some .malformed
  else
    match Json.exceeds js maxEnvelopeBytes ((envelope.bind (Json.field "ciphertext")).bind Json.length) with
    | .error e => some (.thrown e)
    | .ok true => some .tooLarge
    | .ok false => none

def emit (sent : Sent) (relay : Relay) : Relay := { relay with sent := relay.sent ++ [sent] }

def respond (request : Request) (response : Response) (relay : Relay) : Relay := relay.emit (.response request response)

/-- `send` on a socket; one that is closed gets nothing. -/
def send (connection : Nat) (message : ServerSocketMessage) (relay : Relay) : Relay :=
  if relay.connections[connection]?.any Connection.isOpen then relay.emit (.message connection message) else relay

def await (origin : Origin) (handler : Handler) (relay : Relay) : Relay :=
  { relay with waiting := relay.waiting ++ [(origin, handler)] }

def pushToAddress (address : String) (message : ServerSocketMessage) (relay : Relay) : Relay :=
  ((relay.sockets.get? address).getD []).foldl (fun relay connection => relay.send connection message) relay

/-- The token of an `authorization` header. -/
def bearer (header : String) : Option String :=
  if "Bearer ".toList.isPrefixOf header.toList then some (String.ofList (header.toList.drop 7)) else none

def requireAuth (authorization : Option String) (now : Int) (relay : Relay) : AuthService × Option String :=
  relay.auth.resolve ((authorization.bind bearer).map Json.str) now

/-- The account a value is the address of. -/
def accountOf (address : Option Json) (relay : Relay) : Option Nat :=
  (address.bind Json.text?).bind (fun address => relay.store.getAccount address)

/-- `sendLimiter.allow`, with a record of the window it begins. -/
def allow (ip : String) (now : Int) (relay : Relay) : Bool × Relay :=
  ((relay.sendLimiter.allow ip now).1, { relay with
    sendLimiter := (relay.sendLimiter.allow ip now).2
    submissions := if relay.sendLimiter.current ip now = none then .window ip :: relay.submissions else relay.submissions })

/-- An envelope that has passed the checks goes on to its recipient. -/
def submit (origin : Origin) (source : String) (envelope : Json) (relay : Relay) : Relay :=
  let account := relay.accountOf (envelope.field "recipient")
  let relay := { relay with
    submissions := if account.isSome then .accepted source :: relay.submissions else relay.submissions }
  relay.await origin (.submitting account envelope)

section

variable {K : Type} (crypto : Cryptography K) (js : NumberText)

def register (body : Option Json) (relay : Relay) : Relay :=
  let request := Request.register body
  match body, body.bind (Json.field "identity") with
  | some body, some identity =>
    if !Json.truthy (some identity) then relay.respond request (.error 400 "missing identity")
    else
      match verifyPublishedPreKeys crypto js
        { identity := some identity, signedPreKey := body.field "signedPreKey"
          signedKemPreKey := body.field "signedKemPreKey", oneTimePreKeys := body.field "oneTimePreKeys"
          oneTimeKemPreKeys := body.field "oneTimeKemPreKeys" } with
      | .error e => relay.respond request (.thrown e)
      | .ok (.error error) => relay.respond request (.error 400 error)
      | .ok (.ok (address, _)) =>
        relay.await (.request request) (.registering address (relay.store.getAccount address) body)
  | _, _ => relay.respond request (.error 400 "missing identity")

/-- `slice(0, LIMITS.maxOneTimePreKeys)` -/
def sliced : Json → Json
  | .arr elements => .arr (elements.take maxOneTimePreKeys)
  | .str text => .str (String.ofList (text.toList.take maxOneTimePreKeys))
  | value => value

/-- The record a registration makes. -/
def accountRecord (address : String) (body : Json) : AccountRecord where
  address
  identity := (body.field "identity").getD .null
  signedPreKey := (body.field "signedPreKey").getD .null
  signedKemPreKey := (body.field "signedKemPreKey").getD .null
  oneTimePreKeys := sliced (orElse (body.field "oneTimePreKeys") (.arr []))
  oneTimeKemPreKeys := sliced (orElse (body.field "oneTimeKemPreKeys") (.arr []))

def challenge (body : Option Json) (random : Bytes) (now : Int) (relay : Relay) : Relay :=
  let request := Request.challenge body
  match (body.bind (Json.field "address")).filter (fun address => Json.truthy (some address)) with
  | none => relay.respond request (.error 400 "missing address")
  | some address =>
    let issued := relay.auth.issueChallenge address random now
    ({ relay with auth := issued.1 } : Relay).respond request (.challenge issued.2.1 issued.2.2)

def authenticate (body : Option Json) (relay : Relay) : Relay :=
  let request := Request.authenticate body
  let given (name : String) := (body.bind (Json.field name)).filter (fun value => Json.truthy (some value))
  match given "address", given "challenge", given "signature" with
  | some address, some challenge, some signature =>
    relay.await (.request request)
      (.authenticating (relay.accountOf (some address)) (address.text?.getD "") challenge signature)
  | _, _, _ => relay.respond request (.error 400 "missing fields")

def uploadKeys (authorization : Option String) (body : Option Json) (now : Int) (relay : Relay) : Relay :=
  let request := Request.uploadKeys authorization body
  let granted := relay.requireAuth authorization now
  let relay := { relay with auth := granted.1 }
  match granted.2 with
  | none => relay.respond request (.error 401 "unauthorized")
  | some address =>
    relay.await (.request request) (.uploading address (relay.store.getAccount address) (body.getD (.obj [])))

def countKeys (authorization : Option String) (now : Int) (relay : Relay) : Relay :=
  let request := Request.countKeys authorization
  let granted := relay.requireAuth authorization now
  let relay := { relay with auth := granted.1 }
  match granted.2 with
  | none => relay.respond request (.error 401 "unauthorized")
  | some address => relay.await (.request request) (.counting (relay.store.getAccount address))

/-- `POST /v1/messages` -/
def sendMessage (ip : String) (body : Option Json) (now : Int) (relay : Relay) : Relay :=
  let request := Request.sendMessage body
  let allowed := relay.allow ip now
  let relay := allowed.2
  if !allowed.1 then relay.respond request (.error 429 "rate limited")
  else
    let envelope := body.bind (Json.field "envelope")
    match checkEnvelope js ["recipient", "ciphertext", "ephemeralPublicKey"] envelope with
    | some .malformed => relay.respond request (.error 400 "malformed envelope")
    | some .tooLarge => relay.respond request (.error 413 "envelope too large")
    | some (.thrown e) => relay.respond request (.thrown e)
    | none => relay.submit (.request request) ip (envelope.getD .null)

def fetchMessages (authorization : Option String) (now : Int) (relay : Relay) : Relay :=
  let request := Request.fetchMessages authorization
  let granted := relay.requireAuth authorization now
  let relay := { relay with auth := granted.1 }
  match granted.2 with
  | none => relay.respond request (.error 401 "unauthorized")
  | some address => relay.await (.request request) (.fetching (relay.store.queued address))

def acknowledge (authorization : Option String) (body : Option Json) (now : Int) (relay : Relay) : Relay :=
  let request := Request.acknowledge authorization body
  let granted := relay.requireAuth authorization now
  let relay := { relay with auth := granted.1 }
  match granted.2 with
  | none => relay.respond request (.error 401 "unauthorized")
  | some address =>
    match body.bind (Json.field "ids") with
    | some (.arr ids) =>
      let deleted := relay.store.acknowledge address ids
      ({ relay with store := deleted.1 } : Relay).await (.request request) (.acknowledged deleted.2)
    | _ => relay.respond request (.error 400 "missing ids")

/-- A route's handler up to its first await. `random` is what it draws. -/
def handle (ip : String) (request : Request) (random : Bytes) (now : Int) (relay : Relay) : Relay :=
  match request with
  | .register body => relay.register crypto js body
  | .challenge body => relay.challenge body random now
  | .authenticate body => relay.authenticate body
  | .fetchKeys address => relay.await (.request request) (.fetchingKeys (relay.store.getAccount address))
  | .uploadKeys authorization body => relay.uploadKeys authorization body now
  | .countKeys authorization => relay.countKeys authorization now
  | .sendMessage body => relay.sendMessage js ip body now
  | .fetchMessages authorization => relay.fetchMessages authorization now
  | .acknowledge authorization body => relay.acknowledge authorization body now

/-- The socket's `authenticate` message. -/
def socketAuthenticate (connection : Nat) (token : Option Json) (now : Int) (relay : Relay) : Relay :=
  let resolved := relay.auth.resolve token now
  let relay := { relay with auth := resolved.1 }
  match resolved.2 with
  | none => relay.send connection (.error "unauthorized" "invalid token")
  | some address =>
    let set := (relay.sockets.get? address).getD []
    let relay := { relay with
      connections := relay.connections.modify connection (fun state => { state with address := some address })
      sockets := relay.sockets.set address (if connection ∈ set then set else set ++ [connection]) }
    (relay.send connection (.authenticated address)).await (.socket connection) (.draining (relay.store.queued address))

/-- The socket's `send` message. -/
def socketSend (connection : Nat) (envelope : Option Json) (relay : Relay) : Relay :=
  match checkEnvelope js ["recipient", "ciphertext"] envelope with
  | some .malformed => relay.send connection (.error "malformed" "invalid envelope")
  | some .tooLarge => relay.send connection (.error "too_large" "envelope too large")
  | some (.thrown e) => relay.emit (.unhandled connection e)
  | none =>
    relay.submit (.socket connection) (relay.connections[connection]?.elim "" Connection.ip) (envelope.getD .null)

/-- The socket's `acknowledge` message. -/
def socketAcknowledge (connection : Nat) (ids : Option Json) (relay : Relay) : Relay :=
  match relay.connections[connection]?.bind Connection.address with
  | none => relay.send connection (.error "unauthorized" "not authenticated")
  | some address =>
    if (relay.store.queues.get? address).isNone then relay
    else
      match (orElse ids (.arr [])).elements with
      | .error e => relay.emit (.unhandled connection e)
      | .ok ids => { relay with store := (relay.store.acknowledge address ids).1 }

/-- The socket's message handler up to its first await, for a text and what it parses as. -/
def onMessage (connection : Nat) (parsed : Option Json) (now : Int) (relay : Relay) : Relay :=
  match parsed with
  | none => relay.send connection (.error "malformed" "invalid JSON")
  | some .null => relay.emit (.unhandled connection (.error "Cannot read properties of null (reading 'type')"))
  | some parsed =>
    match (parsed.field "type").bind Json.text? with
    | some "authenticate" => relay.socketAuthenticate connection (parsed.field "token") now
    | some "ping" => relay.send connection .pong
    | some "send" => relay.socketSend js connection (parsed.field "envelope")
    | some "acknowledge" => relay.socketAcknowledge connection (parsed.field "ids")
    | _ => relay.send connection (.error "unknown" "unrecognised message type")

def onClose (connection : Nat) (relay : Relay) : Relay :=
  let relay := { relay with connections := relay.connections.modify connection (fun state => { state with isOpen := false }) }
  match relay.connections[connection]?.bind Connection.address with
  | none => relay
  | some address =>
    match relay.sockets.get? address with
    | none => relay
    | some set =>
      let set := set.filter (fun other => other ≠ connection)
      { relay with sockets := if set = [] then relay.sockets.delete address else relay.sockets.set address set }

/-- The rest of an upload, up to the store's promise. -/
def upload (request : Request) (address : String) (account : AccountRecord) (body : Json) (relay : Relay) : Relay :=
  let truthy (name : String) := (body.field name).filter (fun value => Json.truthy (some value))
  match verifyPublishedPreKeys crypto js
    { identity := some account.identity
      signedPreKey := some (orElse (body.field "signedPreKey") account.signedPreKey)
      signedKemPreKey := some (orElse (body.field "signedKemPreKey") account.signedKemPreKey)
      oneTimePreKeys := some (orElse (body.field "oneTimePreKeys") (.arr []))
      oneTimeKemPreKeys := some (orElse (body.field "oneTimeKemPreKeys") (.arr [])) } with
  | .error e => relay.respond request (.thrown e)
  | .ok (.error error) => relay.respond request (.error 400 error)
  | .ok (.ok _) =>
    let updated := relay.store.updatePreKeys address
      { signedPreKey := truthy "signedPreKey", signedKemPreKey := truthy "signedKemPreKey"
        oneTimePreKeys := truthy "oneTimePreKeys", oneTimeKemPreKeys := truthy "oneTimeKemPreKeys" }
    ({ relay with store := updated.1 } : Relay).await (.request request) (.uploaded updated.2)

/-- The end of a submission. -/
def accept (origin : Origin) (relay : Relay) : Relay :=
  match origin with
  | .request request => relay.respond request .accepted
  | .socket connection => relay.send connection .accepted

/-- The record at a place. -/
def account (place : Option Nat) (relay : Relay) : Option AccountRecord :=
  place.bind (fun place => relay.store.records[place]?)

/-- A request's handler from one await to the next. -/
def resumeRequest (request : Request) (handler : Handler) (random : Bytes) (now : Int) (relay : Relay) : Relay :=
  match handler with
  | .registering address (some _) _ => relay.respond request (.registered 200 address)
  | .registering address none body =>
    ({ relay with store := relay.store.createAccount (accountRecord address body) } : Relay).await (.request request)
      (.registered address)
  | .registered address => relay.respond request (.registered 201 address)
  | .authenticating place address challenge signature =>
    match relay.account place with
    | none => relay.respond request (.error 401 "authentication failed")
    | some account =>
      let result := relay.auth.authenticate crypto js address challenge (some signature)
        (account.identity.field "signingPublicKey") random now
      let relay := { relay with auth := result.1 }
      match result.2 with
      | none => relay.respond request (.error 401 "authentication failed")
      | some (token, expiresAt) => relay.respond request (.token token expiresAt)
  | .fetchingKeys place =>
    match place, relay.account place with
    | some place, some account =>
      let taken := relay.store.takeOneTimePreKeys account.address
      ({ relay with store := taken.1 } : Relay).await (.request request) (.takingKeys place taken.2)
    | _, _ => relay.respond request (.error 404 "not found")
  | .takingKeys place taken =>
    match taken, relay.account (some place) with
    | .error e, _ => relay.respond request (.thrown e)
    | .ok (oneTimePreKey, oneTimeKemPreKey), some account =>
      relay.respond request (.bundle account.identity account.signedPreKey account.signedKemPreKey
        (oneTimePreKey.filter (fun key => Json.truthy (some key))) (oneTimeKemPreKey.filter (fun key => Json.truthy (some key))))
    | .ok _, none => relay
  | .uploading address place body =>
    match relay.account place with
    | none => relay.respond request (.error 404 "not found")
    | some account => relay.upload crypto js request address account body
  | .uploaded (.error e) => relay.respond request (.thrown e)
  | .uploaded (.ok ()) => relay.respond request .accepted
  | .counting place =>
    match relay.account place with
    | none => relay.respond request (.error 404 "not found")
    | some account => relay.respond request (.counts account.oneTimePreKeys.length account.oneTimeKemPreKeys.length)
  | .fetching messages => relay.respond request (.messages (messages.map deliveryOf))
  | .acknowledged removed => relay.respond request (.removed removed)
  | _ => relay

/-- A handler that waits goes on. An envelope for a known recipient is queued under a random id, then pushed; every
submission ends alike. -/
def resume (origin : Origin) (handler : Handler) (random : Bytes) (now : Int) (relay : Relay) : Relay :=
  match handler, origin with
  | .submitting account envelope, _ =>
    match account, h : envelope.field "recipient" with
    | some _, some (.str recipient) =>
      let message : QueuedMessage := ⟨toHex random, ⟨envelope, recipient, h⟩, now⟩
      ({ relay with store := relay.store.enqueue message } : Relay).await origin (.enqueued message)
    | _, _ => relay.accept origin
  | .enqueued message, _ =>
    (relay.pushToAddress message.envelope.recipient (.deliver (deliveryOf message))).accept origin
  | .draining messages, .socket connection =>
    messages.foldl (fun relay message => relay.send connection (.deliver (deliveryOf message))) relay
  | handler, .request request => relay.resumeRequest crypto js request handler random now
  | _, .socket _ => relay

end

end Relay

/-- What can happen to the relay next. -/
inductive RelayMove
  | request (ip : String) (request : Relay.Request) (random : Bytes) (now : Int)
  | connect (ip : String)
  | message (connection : Nat) (parsed : Option Json) (now : Int)
  | close (connection : Nat)
  | resume (index : Nat) (random : Bytes) (now : Int)
  | housekeeping (now : Int)

namespace Relay

variable {K : Type} (crypto : Cryptography K) (js : NumberText)

def perform (relay : Relay) : RelayMove → Relay
  | .request ip request random now => relay.handle crypto js ip request random now
  | .connect ip => { relay with connections := relay.connections ++ [{ ip }] }
  | .message connection parsed now => relay.onMessage js connection parsed now
  | .close connection => relay.onClose connection
  | .resume index random now =>
    match relay.waiting[index]? with
    | none => relay
    | some (origin, handler) =>
      ({ relay with waiting := relay.waiting.eraseIdx index } : Relay).resume crypto js origin handler random now
  | .housekeeping now => { relay with store := (relay.store.expire now).1, auth := relay.auth.prune now }

/-- A socket's events come from one that is open. -/
def Possible (relay : Relay) : RelayMove → Prop
  | .message connection _ _ | .close connection => relay.connections[connection]?.any Connection.isOpen = true
  | .resume index _ _ => index < relay.waiting.length
  | _ => True

instance (relay : Relay) : (move : RelayMove) → Decidable (relay.Possible move)
  | .message .. | .close _ => inferInstanceAs (Decidable (_ = true))
  | .resume .. => inferInstanceAs (Decidable (_ < _))
  | .request .. | .connect _ | .housekeeping _ => isTrue trivial

/-- The libraries before the handlers: what Fastify's parser makes of a body, which turns down a text that does not parse or
that would change a prototype, and what `JSON.parse` makes of the text of a socket's message. -/
structure Server where
  parseBody : Bytes → Option Json
  parseFrame : Bytes → Option Json

/-- A body that comes for `POST /v1/messages`; over `bodyLimit`, or turned down by the parser, it does not reach the handler. -/
def post (server : Server) (ip : String) (body random : Bytes) (now : Int) (relay : Relay) : Relay :=
  if body.length > maxBodyBytes then relay.respond (.sendMessage none) (.error 413 "Payload Too Large")
  else
    match server.parseBody body with
    | none => relay.respond (.sendMessage none) (.error 400 "Bad Request")
    | some parsed => relay.handle crypto js ip (.sendMessage (some parsed)) random now

/-- A message that comes on a socket; one over `maxPayload` closes the socket instead. -/
def receive (server : Server) (connection : Nat) (frame : Bytes) (now : Int) (relay : Relay) : Relay :=
  if frame.length > maxBodyBytes then relay.onClose connection
  else relay.onMessage js connection (server.parseFrame frame) now

/-- What can come next where submissions are bytes. -/
inductive Arrival
  | post (ip : String) (body random : Bytes) (now : Int)
  | receive (connection : Nat) (frame : Bytes) (now : Int)
  | move (move : RelayMove)

/-- A move that may happen and is `allowed`. -/
def Step (allowed : Relay → RelayMove → Prop) (relay next : Relay) : Prop :=
  ∃ move, relay.Possible move ∧ allowed relay move ∧ next = relay.perform crypto js move

/-- A relay that has just been built. -/
def Start (relay : Relay) : Prop := ∃ limit, relay = { sendLimiter := { limit, windowMs := 60000 } }

end Relay

end Veil
