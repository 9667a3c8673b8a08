import Veil.Json
import Veil.Library.OrderedMap
import Veil.Limits

namespace Veil

/-- An envelope as it came, for a recipient. -/
structure StoredEnvelope where
  json : Json
  recipient : String
  addressed : json.field "recipient" = some (.str recipient)

structure QueuedMessage where
  id : String
  envelope : StoredEnvelope
  receivedAt : Int

structure AccountRecord where
  address : String
  identity : Json
  signedPreKey : Json
  signedKemPreKey : Json
  oneTimePreKeys : Json
  oneTimeKemPreKeys : Json

/-- The argument of `updatePreKeys`; a falsy field is `none`. -/
structure PreKeyUpdate where
  signedPreKey : Option Json := none
  signedKemPreKey : Option Json := none
  oneTimePreKeys : Option Json := none
  oneTimeKemPreKeys : Option Json := none

/-- The `InMemoryRelayStore`. Account records are objects: `accounts` maps an address to the place of its record. -/
structure RelayStore where
  records : List AccountRecord := []
  accounts : OrderedMap String Nat := .empty
  queues : OrderedMap String (List QueuedMessage) := .empty

/-- A pool of one-time prekeys with more put behind it, cut to what is kept. -/
def pooled (pool more : Json) : Except Failure Json := do
  return .arr (((← pool.elements) ++ (← more.elements)).take maxOneTimePreKeys)

/-- `shift` of a pool, and the pool it leaves. -/
def shifted : Json → Except Failure (Option Json × Json)
  | .arr [] => .ok (none, .arr [])
  | .arr (key :: rest) => .ok (some key, .arr rest)
  | _ => .error (.error "shift is not a function")

namespace RelayStore

def createAccount (record : AccountRecord) (store : RelayStore) : RelayStore :=
  { store with records := store.records ++ [record], accounts := store.accounts.set record.address store.records.length }

/-- The place of the record, if there is one. -/
def getAccount (address : String) (store : RelayStore) : Option Nat := store.accounts.get? address

def modifyAccount (address : String) (f : AccountRecord → AccountRecord) (store : RelayStore) : RelayStore :=
  { store with records := (store.getAccount address).elim store.records (fun place => store.records.modify place f) }

def updatePreKeys (address : String) (update : PreKeyUpdate) (store : RelayStore) : RelayStore × Except Failure Unit :=
  match (store.getAccount address).bind (fun place => store.records[place]?) with
  | none => (store, .ok ())
  | some account =>
    let store := store.modifyAccount address (fun account => { account with
      signedPreKey := update.signedPreKey.getD account.signedPreKey
      signedKemPreKey := update.signedKemPreKey.getD account.signedKemPreKey })
    match update.oneTimePreKeys.elim (.ok account.oneTimePreKeys) (pooled account.oneTimePreKeys) with
    | .error e => (store, .error e)
    | .ok pool =>
      let store := store.modifyAccount address (fun account => { account with oneTimePreKeys := pool })
      match update.oneTimeKemPreKeys.elim (.ok account.oneTimeKemPreKeys) (pooled account.oneTimeKemPreKeys) with
      | .error e => (store, .error e)
      | .ok kemPool => (store.modifyAccount address (fun account => { account with oneTimeKemPreKeys := kemPool }), .ok ())

/-- The first one-time prekey of each kind leaves its pool. -/
def takeOneTimePreKeys (address : String) (store : RelayStore) :
    RelayStore × Except Failure (Option Json × Option Json) :=
  match (store.getAccount address).bind (fun place => store.records[place]?) with
  | none => (store, .ok (none, none))
  | some account =>
    match shifted account.oneTimePreKeys with
    | .error e => (store, .error e)
    | .ok (oneTimePreKey, pool) =>
      let store := store.modifyAccount address (fun account => { account with oneTimePreKeys := pool })
      match shifted account.oneTimeKemPreKeys with
      | .error e => (store, .error e)
      | .ok (oneTimeKemPreKey, kemPool) =>
        (store.modifyAccount address (fun account => { account with oneTimeKemPreKeys := kemPool }),
          .ok (oneTimePreKey, oneTimeKemPreKey))

/-- Queued messages for a recipient, oldest first. -/
def queued (address : String) (store : RelayStore) : List QueuedMessage := (store.queues.get? address).getD []

/-- Oldest-first overflow. -/
def enqueue (message : QueuedMessage) (store : RelayStore) : RelayStore :=
  let address := message.envelope.recipient
  let queue := store.queued address ++ [message]
  { store with queues := store.queues.set address (queue.drop (queue.length - maxQueueLength)) }

/-- What is left of a queue when the messages with these ids are deleted. -/
def unacknowledged (ids : List Json) (queue : List QueuedMessage) : List QueuedMessage :=
  queue.filter (fun message => !ids.any (Json.isText message.id))

def acknowledge (address : String) (ids : List Json) (store : RelayStore) : RelayStore × Nat :=
  match store.queues.get? address with
  | none => (store, 0)
  | some queue =>
    let kept := unacknowledged ids queue
    ({ store with queues := store.queues.set address kept }, queue.length - kept.length)

/-- What is left of a queue at a time. -/
def unexpired (now : Int) (queue : List QueuedMessage) : List QueuedMessage :=
  queue.filter (fun message => now - message.receivedAt < messageTtlMs)

def expire (now : Int) (store : RelayStore) : RelayStore × Nat :=
  ({ store with queues := store.queues.mapValues (unexpired now) },
    (store.queues.entries.map (fun entry => entry.2.length - (unexpired now entry.2).length)).sum)

def countQueued (address : String) (store : RelayStore) : Nat := (store.queued address).length

def totalQueued (store : RelayStore) : Nat := (store.queues.entries.map (fun entry => entry.2.length)).sum

end RelayStore

end Veil
