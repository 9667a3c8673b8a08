import Veil.Identity
import Veil.Library.OrderedMap

namespace Veil

def oneTimePreKeyTarget : Nat := 100

def oneTimePreKeyLowWater : Nat := 20

def signedPreKeyGenerations : Nat := 3

structure PublishedPreKeys where
  signedPreKey : SignedPreKey
  signedKemPreKey : SignedPreKey
  oneTimePreKeys : List OneTimePreKey
  oneTimeKemPreKeys : List OneTimePreKey
  deriving DecidableEq

structure InMemoryPreKeyStore (K : Type) where
  signedPreKeys : OrderedMap Int (KeyPair K) := OrderedMap.empty
  signedKemPreKeys : OrderedMap Int (KeyPair K) := OrderedMap.empty
  oneTimePreKeys : OrderedMap Int (KeyPair K) := OrderedMap.empty
  oneTimeKemPreKeys : OrderedMap Int (KeyPair K) := OrderedMap.empty
  signedPreKeyOrder : List Int := []
  signedKemPreKeyOrder : List Int := []
  currentSignedPreKey : SignedPreKey := ⟨0, [], []⟩
  currentSignedKemPreKey : SignedPreKey := ⟨0, [], []⟩
  publishedOneTime : List OneTimePreKey := []
  publishedOneTimeKem : List OneTimePreKey := []
  nextId : Int := 1

namespace InMemoryPreKeyStore

variable {K : Type}

def pruneGenerations (keys : OrderedMap Int (KeyPair K)) : List Int → OrderedMap Int (KeyPair K) × List Int
  | [] => (keys, [])
  | expired :: order =>
    if (expired :: order).length > signedPreKeyGenerations then pruneGenerations (keys.delete expired) order
    else (keys, expired :: order)

/-- `signed` and `kem` are the pairs generated in this call. -/
def rotateSignedPreKeys (crypto : Cryptography K) (identity : PrivateIdentity K) (signed kem : KeyPair K)
    (store : InMemoryPreKeyStore K) : Except Failure (InMemoryPreKeyStore K) := do
  let (spk, secret) ← createSignedPreKey crypto identity store.nextId signed
  let (kpk, kemSecret) ← createSignedKemPreKey crypto identity (store.nextId + 1) kem
  let (signedPreKeys, signedPreKeyOrder) :=
    pruneGenerations (store.signedPreKeys.set spk.id secret) (store.signedPreKeyOrder ++ [spk.id])
  let (signedKemPreKeys, signedKemPreKeyOrder) :=
    pruneGenerations (store.signedKemPreKeys.set kpk.id kemSecret) (store.signedKemPreKeyOrder ++ [kpk.id])
  return { store with
    signedPreKeys, signedPreKeyOrder, currentSignedPreKey := spk
    signedKemPreKeys, signedKemPreKeyOrder, currentSignedKemPreKey := kpk
    nextId := store.nextId + 2 }

/-- One pair of each kind per new prekey. -/
def replenishOneTimePreKeys (pairs kemPairs : List (KeyPair K)) (store : InMemoryPreKeyStore K) :
    InMemoryPreKeyStore K :=
  let classical := createOneTimePreKeys store.nextId pairs
  let pq := createOneTimePreKeys (store.nextId + pairs.length) kemPairs
  { store with
    oneTimePreKeys := classical.foldl (fun keys key => keys.set key.1.id key.2) store.oneTimePreKeys
    oneTimeKemPreKeys := pq.foldl (fun keys key => keys.set key.1.id key.2) store.oneTimeKemPreKeys
    publishedOneTime := store.publishedOneTime ++ classical.map Prod.fst
    publishedOneTimeKem := store.publishedOneTimeKem ++ pq.map Prod.fst
    nextId := store.nextId + pairs.length + kemPairs.length }

/-- The constructor. -/
def create (crypto : Cryptography K) (identity : PrivateIdentity K) (signed kem : KeyPair K)
    (pairs kemPairs : List (KeyPair K)) : Except Failure (InMemoryPreKeyStore K) := do
  let store ← rotateSignedPreKeys crypto identity signed kem {}
  return store.replenishOneTimePreKeys pairs kemPairs

def needsReplenishment (store : InMemoryPreKeyStore K) : Bool :=
  store.publishedOneTime.length < oneTimePreKeyLowWater || store.publishedOneTimeKem.length < oneTimePreKeyLowWater

def published (store : InMemoryPreKeyStore K) : PublishedPreKeys where
  signedPreKey := store.currentSignedPreKey
  signedKemPreKey := store.currentSignedKemPreKey
  oneTimePreKeys := store.publishedOneTime
  oneTimeKemPreKeys := store.publishedOneTimeKem

def issueBundle (identity : PublicIdentity) (store : InMemoryPreKeyStore K) : PreKeyBundle × InMemoryPreKeyStore K :=
  ({ identity, signedPreKey := store.currentSignedPreKey, signedKemPreKey := store.currentSignedKemPreKey,
     oneTimePreKey := store.publishedOneTime.head?, oneTimeKemPreKey := store.publishedOneTimeKem.head? },
    { store with publishedOneTime := store.publishedOneTime.tail
                 publishedOneTimeKem := store.publishedOneTimeKem.tail })

def signedPreKey (store : InMemoryPreKeyStore K) (id : Int) : Option (KeyPair K) := store.signedPreKeys.get? id

def signedKemPreKey (store : InMemoryPreKeyStore K) (id : Int) : Option (KeyPair K) := store.signedKemPreKeys.get? id

def oneTimePreKey (store : InMemoryPreKeyStore K) (id : Int) : Option (KeyPair K) := store.oneTimePreKeys.get? id

def oneTimeKemPreKey (store : InMemoryPreKeyStore K) (id : Int) : Option (KeyPair K) :=
  store.oneTimeKemPreKeys.get? id

def consumeOneTimePreKey (store : InMemoryPreKeyStore K) (id : Int) : InMemoryPreKeyStore K :=
  { store with oneTimePreKeys := store.oneTimePreKeys.delete id
               publishedOneTime := store.publishedOneTime.filter (fun k => k.id ≠ id) }

def consumeOneTimeKemPreKey (store : InMemoryPreKeyStore K) (id : Int) : InMemoryPreKeyStore K :=
  { store with oneTimeKemPreKeys := store.oneTimeKemPreKeys.delete id
               publishedOneTimeKem := store.publishedOneTimeKem.filter (fun k => k.id ≠ id) }

/-- The store's own pair after a session that was handed the object has wiped its secret half. -/
def wipeSignedPreKey (crypto : Cryptography K) (store : InMemoryPreKeyStore K) (id : Int) : InMemoryPreKeyStore K :=
  match store.signedPreKeys.get? id with
  | none => store
  | some pair =>
    { store with signedPreKeys := store.signedPreKeys.set id { pair with secretKey := crypto.wiped pair.secretKey } }

end InMemoryPreKeyStore

end Veil
