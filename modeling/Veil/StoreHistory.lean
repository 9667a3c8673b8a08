import Mathlib
import Veil.PreKeyLife
import Veil.Spelled

namespace Veil

inductive PreKeyKind
  | signedPreKey
  | signedKemPreKey
  | oneTimePreKey
  | oneTimeKemPreKey
  deriving DecidableEq

/-- What a store is asked for, with the pairs that are generated for it. -/
inductive StoreMove (K : Type)
  | rotateSignedPreKeys (signed kem : KeyPair K)
  | replenishOneTimePreKeys (pairs kemPairs : List (KeyPair K))
  | issueBundle (identity : PublicIdentity)
  | consumeOneTimePreKey (id : Int)
  | consumeOneTimeKemPreKey (id : Int)

/-- A store with the ids of the keys it has made and the bundles it has issued, the oldest first. -/
structure StoreHistory (K : Type) where
  store : InMemoryPreKeyStore K := {}
  made : List (PreKeyKind × Int) := []
  issued : List PreKeyBundle := []

namespace StoreHistory

section

variable {K : Type} (crypto : Cryptography K) (self : PrivateIdentity K)

def rotateSignedPreKeys (signed kem : KeyPair K) (history : StoreHistory K) : Except Failure (StoreHistory K) := do
  let store ← history.store.rotateSignedPreKeys crypto self signed kem
  return { history with
    store
    made := history.made ++ [(.signedPreKey, store.currentSignedPreKey.id), (.signedKemPreKey, store.currentSignedKemPreKey.id)] }

def replenishOneTimePreKeys (pairs kemPairs : List (KeyPair K)) (history : StoreHistory K) : StoreHistory K :=
  let classical := createOneTimePreKeys history.store.nextId pairs
  let pq := createOneTimePreKeys (history.store.nextId + pairs.length) kemPairs
  { history with
    store := history.store.replenishOneTimePreKeys pairs kemPairs
    made := history.made ++ (classical.map (fun key => (PreKeyKind.oneTimePreKey, key.1.id)) ++
      pq.map (fun key => (PreKeyKind.oneTimeKemPreKey, key.1.id))) }

def issueBundle (identity : PublicIdentity) (history : StoreHistory K) : StoreHistory K :=
  { history with
    store := (history.store.issueBundle identity).2
    issued := history.issued ++ [(history.store.issueBundle identity).1] }

def consumeOneTimePreKey (id : Int) (history : StoreHistory K) : StoreHistory K :=
  { history with store := history.store.consumeOneTimePreKey id }

def consumeOneTimeKemPreKey (id : Int) (history : StoreHistory K) : StoreHistory K :=
  { history with store := history.store.consumeOneTimeKemPreKey id }

def perform (history : StoreHistory K) : StoreMove K → Except Failure (StoreHistory K)
  | .rotateSignedPreKeys signed kem => history.rotateSignedPreKeys crypto self signed kem
  | .replenishOneTimePreKeys pairs kemPairs => .ok (history.replenishOneTimePreKeys pairs kemPairs)
  | .issueBundle identity => .ok (history.issueBundle identity)
  | .consumeOneTimePreKey id => .ok (history.consumeOneTimePreKey id)
  | .consumeOneTimeKemPreKey id => .ok (history.consumeOneTimeKemPreKey id)

/-- The constructor: it rotates and fills up an empty store. -/
def create (signed kem : KeyPair K) (pairs kemPairs : List (KeyPair K)) : Except Failure (StoreHistory K) := do
  let history ← rotateSignedPreKeys crypto self signed kem {}
  return history.replenishOneTimePreKeys pairs kemPairs

def Step (history next : StoreHistory K) : Prop := ∃ move, history.perform crypto self move = .ok next

/-- The ids of the keys of a kind, the oldest first. -/
def madeOf (history : StoreHistory K) (kind : PreKeyKind) : List Int :=
  (history.made.filter (fun key => key.1 = kind)).map Prod.snd

def issuedOneTime (history : StoreHistory K) : List OneTimePreKey := history.issued.filterMap PreKeyBundle.oneTimePreKey

def issuedOneTimeKem (history : StoreHistory K) : List OneTimePreKey :=
  history.issued.filterMap PreKeyBundle.oneTimeKemPreKey

/-- The map holds the ids of its order list, the last generations that were made. -/
structure Generations (keys : OrderedMap Int (KeyPair K)) (order made : List Int) : Prop where
  keys : keys.keys = order
  last : order = made.rtake signedPreKeyGenerations

/-- Every published key has its secret in the map, which holds keys that were made, and what was issued or is published was
made, each key once. -/
structure Pool (keys : OrderedMap Int (KeyPair K)) (published issued : List OneTimePreKey) (made : List Int) : Prop where
  held : ∀ key ∈ published, ∃ pair, keys.get? key.id = some pair ∧ pair.publicKey = key.publicKey
  known : ∀ id pair, keys.get? id = some pair → id ∈ made
  once : ((issued ++ published).map OneTimePreKey.id).Sublist made

/-- The ids that were made increase up to the store's next one, and the maps and lists of each kind agree. -/
structure Kept (history : StoreHistory K) : Prop where
  increasing : (history.made.map Prod.snd).Pairwise (· < ·)
  numbered : ∀ id ∈ history.made.map Prod.snd, id < history.store.nextId
  signed : Generations history.store.signedPreKeys history.store.signedPreKeyOrder (history.madeOf .signedPreKey)
  signedKem : Generations history.store.signedKemPreKeys history.store.signedKemPreKeyOrder (history.madeOf .signedKemPreKey)
  oneTime : Pool history.store.oneTimePreKeys history.store.publishedOneTime history.issuedOneTime
    (history.madeOf .oneTimePreKey)
  oneTimeKem : Pool history.store.oneTimeKemPreKeys history.store.publishedOneTimeKem history.issuedOneTimeKem
    (history.madeOf .oneTimeKemPreKey)

/-- The current keys are the last ones in order. -/
def Current (history : StoreHistory K) : Prop :=
  history.store.signedPreKeyOrder.getLast? = some history.store.currentSignedPreKey.id ∧
    history.store.signedKemPreKeyOrder.getLast? = some history.store.currentSignedKemPreKey.id

/-- Nothing is held under the number, which is an old one, nothing published has it, and nothing issued since has it. -/
structure Retired (keys : OrderedMap Int (KeyPair K)) (published issued since : List OneTimePreKey) (nextId id : Int) : Prop where
  old : id < nextId
  gone : keys.get? id = none
  unpublished : ∀ key ∈ published, key.id ≠ id
  unissued : ∃ later, issued = since ++ later ∧ ∀ key ∈ later, key.id ≠ id

def RetiredOneTime (since : List OneTimePreKey) (id : Int) (history : StoreHistory K) : Prop :=
  Retired history.store.oneTimePreKeys history.store.publishedOneTime history.issuedOneTime since history.store.nextId id

def RetiredOneTimeKem (since : List OneTimePreKey) (id : Int) (history : StoreHistory K) : Prop :=
  Retired history.store.oneTimeKemPreKeys history.store.publishedOneTimeKem history.issuedOneTimeKem since
    history.store.nextId id

end

section

variable {K : Type} {crypto : Cryptography K} {self : PrivateIdentity K} {history next : StoreHistory K}

theorem rtake_rtake_concat {α : Type} (made : List α) (newest : α) (count : Nat) :
    (made.rtake (count + 1) ++ [newest]).rtake (count + 1) = (made ++ [newest]).rtake (count + 1) := by
  have hshort : (made.rtake (count + 1)).rtake count = made.rtake count := by
    unfold List.rtake
    rw [List.drop_drop, List.length_drop]
    congr 1
    omega
  rw [List.rtake_concat_succ, List.rtake_concat_succ, hshort]

theorem keys_set_new {keys : OrderedMap Int (KeyPair K)} {id : Int} {pair : KeyPair K} (h : id ∉ keys.keys) :
    (keys.set id pair).keys = keys.keys ++ [id] := by
  have h' : id ∉ keys.entries.map Prod.fst := h
  simp [OrderedMap.set, OrderedMap.keys, h']

/-- What is pruned is the oldest, in the map as in the list. -/
theorem pruneGenerations_keys {keys : OrderedMap Int (KeyPair K)} {order : List Int} (h : keys.keys = order) :
    (InMemoryPreKeyStore.pruneGenerations keys order).1.keys = order.rtake signedPreKeyGenerations ∧
      (InMemoryPreKeyStore.pruneGenerations keys order).2 = order.rtake signedPreKeyGenerations := by
  induction order generalizing keys with
  | nil => exact ⟨h, rfl⟩
  | cons expired order ih =>
    rw [InMemoryPreKeyStore.pruneGenerations]
    by_cases hlong : (expired :: order).length > signedPreKeyGenerations
    · rw [if_pos hlong]
      have hnodup : expired ∉ order := (List.nodup_cons.mp (h ▸ keys.nodup)).1
      have hdelete : (keys.delete expired).keys = order := by
        have hkeys : keys.entries.map Prod.fst = expired :: order := h
        have hfilter : (keys.entries.filter (fun e => e.1 ≠ expired)).map Prod.fst =
            (keys.entries.map Prod.fst).filter (fun id => id ≠ expired) := by
          rw [List.filter_map]
          rfl
        show (keys.entries.filter (fun e => e.1 ≠ expired)).map Prod.fst = order
        rw [hfilter, hkeys, List.filter_cons_of_neg (by simp)]
        refine List.filter_eq_self.mpr (fun id hid => decide_eq_true ?_)
        rintro rfl
        exact hnodup hid
      have hshort : order.rtake signedPreKeyGenerations = (expired :: order).rtake signedPreKeyGenerations := by
        unfold List.rtake
        rw [List.length_cons] at hlong ⊢
        rw [Nat.succ_sub (Nat.le_of_lt_succ hlong), List.drop_succ_cons]
      rw [← hshort]
      exact ih hdelete
    · rw [if_neg hlong]
      have hall : (expired :: order).rtake signedPreKeyGenerations = expired :: order := by
        unfold List.rtake
        rw [Nat.sub_eq_zero_of_le (Nat.le_of_not_lt hlong), List.drop_zero]
      rw [hall]
      exact ⟨h, rfl⟩

/-- A new generation comes last. -/
theorem Generations.add {keys : OrderedMap Int (KeyPair K)} {order made : List Int} (h : Generations keys order made) {id : Int}
    (fresh : id ∉ made) (pair : KeyPair K) :
    Generations (InMemoryPreKeyStore.pruneGenerations (keys.set id pair) (order ++ [id])).1
        (InMemoryPreKeyStore.pruneGenerations (keys.set id pair) (order ++ [id])).2 (made ++ [id]) ∧
      (InMemoryPreKeyStore.pruneGenerations (keys.set id pair) (order ++ [id])).2.getLast? = some id := by
  have hnew : id ∉ order := by
    rw [h.last]
    exact fun hmem => fresh (List.mem_of_mem_drop hmem)
  have hset : (keys.set id pair).keys = order ++ [id] := by
    rw [keys_set_new (h.keys ▸ hnew), h.keys]
  obtain ⟨hkeys, horder⟩ := pruneGenerations_keys hset
  have hlast : (order ++ [id]).rtake signedPreKeyGenerations = (made ++ [id]).rtake signedPreKeyGenerations := by
    rw [h.last]
    exact rtake_rtake_concat made id 2
  refine ⟨⟨hkeys.trans horder.symm, horder.trans hlast⟩, ?_⟩
  rw [horder, show signedPreKeyGenerations = 2 + 1 from rfl, List.rtake_concat_succ, List.getLast?_concat]

theorem Pool.publish {keys : OrderedMap Int (KeyPair K)} {published issued : List OneTimePreKey} {made : List Int}
    (h : Pool keys published issued made) {startId : Int} (old : ∀ id ∈ made, id < startId) (pairs : List (KeyPair K)) :
    Pool ((createOneTimePreKeys startId pairs).foldl (fun keys key => keys.set key.1.id key.2) keys)
      (published ++ (createOneTimePreKeys startId pairs).map Prod.fst) issued
      (made ++ (createOneTimePreKeys startId pairs).map (fun key => key.1.id)) := by
  refine ⟨?_, ?_, ?_⟩
  · intro key hkey
    rcases List.mem_append.mp hkey with hold | hnew
    · obtain ⟨pair, hpair, hpublic⟩ := h.held key hold
      have hid : key.id < startId := old _ (h.known _ _ hpair)
      refine ⟨pair, ?_, hpublic⟩
      rw [InMemoryPreKeyStore.foldl_set_get?, hpair]
      intro other hother
      have := InMemoryPreKeyStore.createOneTimePreKeys_id hother
      omega
    · obtain ⟨entry, hentry, rfl⟩ := List.mem_map.mp hnew
      obtain ⟨hget, hpublic, _⟩ := @InMemoryPreKeyStore.foldl_set_get?_mem K startId pairs keys entry hentry
      exact ⟨entry.2, hget, hpublic⟩
  · intro id pair hpair
    by_cases hnew : id ∈ (createOneTimePreKeys startId pairs).map (fun key => key.1.id)
    · exact List.mem_append_right _ hnew
    · rw [InMemoryPreKeyStore.foldl_set_get?] at hpair
      · exact List.mem_append_left _ (h.known id pair hpair)
      · rintro other hother rfl
        exact hnew (List.mem_map_of_mem hother)
  · have hids : ((createOneTimePreKeys startId pairs).map Prod.fst).map OneTimePreKey.id =
        (createOneTimePreKeys startId pairs).map (fun key => key.1.id) := List.map_map
    rw [← List.append_assoc, List.map_append, hids]
    exact h.once.append (List.Sublist.refl _)

theorem Pool.issue {keys : OrderedMap Int (KeyPair K)} {published issued : List OneTimePreKey} {made : List Int}
    (h : Pool keys published issued made) : Pool keys published.tail (issued ++ published.head?.toList) made := by
  refine ⟨fun key hkey => h.held key (List.mem_of_mem_tail hkey), h.known, ?_⟩
  cases published with
  | nil => simpa using h.once
  | cons key published => simpa using h.once

theorem Pool.consume {keys : OrderedMap Int (KeyPair K)} {published issued : List OneTimePreKey} {made : List Int}
    (h : Pool keys published issued made) (id : Int) :
    Pool (keys.delete id) (published.filter (fun key => key.id ≠ id)) issued made := by
  refine ⟨?_, fun id' pair hpair => h.known id' pair (InMemoryPreKeyStore.get?_of_delete hpair), ?_⟩
  · intro key hkey
    obtain ⟨hmem, hne⟩ := List.mem_filter.mp hkey
    obtain ⟨pair, hpair, hpublic⟩ := h.held key hmem
    exact ⟨pair, by rw [OrderedMap.get?_delete_of_ne _ (of_decide_eq_true hne), hpair], hpublic⟩
  · have hfewer : (issued ++ published.filter (fun key => key.id ≠ id)).Sublist (issued ++ published) :=
      (List.Sublist.refl issued).append List.filter_sublist
    exact (hfewer.map OneTimePreKey.id).trans h.once

theorem madeOf_append {added : List (PreKeyKind × Int)} (h : next.made = history.made ++ added) (kind : PreKeyKind) :
    next.madeOf kind = history.madeOf kind ++ (added.filter (fun key => key.1 = kind)).map Prod.snd := by
  simp only [madeOf, h, List.filter_append, List.map_append]

theorem mem_madeOf {kind : PreKeyKind} {id : Int} (h : id ∈ history.madeOf kind) : id ∈ history.made.map Prod.snd := by
  obtain ⟨key, hkey, rfl⟩ := List.mem_map.mp h
  exact List.mem_map_of_mem (List.mem_of_mem_filter hkey)

/-- New numbers come after the old ones. -/
theorem increasing_append {made added : List Int} {nextId next : Int} (increasing : made.Pairwise (· < ·))
    (numbered : ∀ id ∈ made, id < nextId) (added_increasing : added.Pairwise (· < ·))
    (added_numbered : ∀ id ∈ added, nextId ≤ id ∧ id < next) (later : nextId ≤ next) :
    (made ++ added).Pairwise (· < ·) ∧ ∀ id ∈ made ++ added, id < next := by
  refine ⟨List.pairwise_append.mpr ⟨increasing, added_increasing, ?_⟩, ?_⟩
  · intro old hold new hnew
    have hbefore := numbered old hold
    have hafter := (added_numbered new hnew).1
    omega
  · intro id hid
    rcases List.mem_append.mp hid with hold | hnew
    · have hbefore := numbered id hold
      omega
    · exact (added_numbered id hnew).2

theorem createOneTimePreKeys_increasing (startId : Int) (pairs : List (KeyPair K)) :
    ((createOneTimePreKeys startId pairs).map (fun key => key.1.id)).Pairwise (· < ·) := by
  induction pairs generalizing startId with
  | nil => exact List.Pairwise.nil
  | cons pair pairs ih =>
    rw [InMemoryPreKeyStore.createOneTimePreKeys_cons, List.map_cons]
    refine List.pairwise_cons.mpr ⟨?_, ih (startId + 1)⟩
    intro id hid
    obtain ⟨key, hkey, rfl⟩ := List.mem_map.mp hid
    have hafter := (InMemoryPreKeyStore.createOneTimePreKeys_id hkey).1
    show startId < key.1.id
    omega

theorem Kept.rotate (h : history.Kept) {signed kem : KeyPair K}
    (rotated : history.rotateSignedPreKeys crypto self signed kem = .ok next) : next.Kept ∧ next.Current := by
  simp only [rotateSignedPreKeys, InMemoryPreKeyStore.rotateSignedPreKeys, createSignedPreKey, createSignedKemPreKey,
    createSigned, Outcome.bind_eq_ok_iff, Outcome.pure_eq_ok_iff] at rotated
  obtain ⟨_, ⟨_, ⟨_, _, _, _, rfl⟩, _, ⟨_, _, _, _, rfl⟩, rfl⟩, rfl⟩ := rotated
  have hfresh : ∀ {kind : PreKeyKind} {id : Int}, history.store.nextId ≤ id → id ∉ history.madeOf kind := by
    intro kind id hid hmem
    have hold := h.numbered id (mem_madeOf hmem)
    omega
  obtain ⟨hsigned, hlast⟩ := h.signed.add (hfresh (Int.le_refl _)) signed
  obtain ⟨hkem, hlastKem⟩ := h.signedKem.add (hfresh (by omega : history.store.nextId ≤ history.store.nextId + 1)) kem
  have hnumbers : (history.made.map Prod.snd ++ [history.store.nextId, history.store.nextId + 1]).Pairwise (· < ·) ∧
      ∀ id ∈ history.made.map Prod.snd ++ [history.store.nextId, history.store.nextId + 1], id < history.store.nextId + 2 :=
    increasing_append h.increasing h.numbered (by simp) (by simp) (by omega)
  refine ⟨⟨?_, ?_, ?_, ?_, ?_, ?_⟩, hlast, hlastKem⟩
  · rw [List.map_append]
    exact hnumbers.1
  · rw [List.map_append]
    exact hnumbers.2
  · rw [madeOf_append rfl]
    exact hsigned
  · rw [madeOf_append rfl]
    exact hkem
  · rw [madeOf_append rfl]
    show Pool _ _ _ (history.madeOf .oneTimePreKey ++ [])
    rw [List.append_nil]
    exact h.oneTime
  · rw [madeOf_append rfl]
    show Pool _ _ _ (history.madeOf .oneTimeKemPreKey ++ [])
    rw [List.append_nil]
    exact h.oneTimeKem

theorem filter_kind (kind wanted : PreKeyKind) (keys : List (OneTimePreKey × KeyPair K)) :
    ((keys.map (fun key => (kind, key.1.id))).filter (fun key => key.1 = wanted)).map Prod.snd =
      if kind = wanted then keys.map (fun key => key.1.id) else [] := by
  by_cases h : kind = wanted
  · simp [h, List.filter_map, Function.comp_def]
  · simp [h, List.filter_map, Function.comp_def]

theorem Kept.replenish (h : history.Kept) (pairs kemPairs : List (KeyPair K)) :
    (history.replenishOneTimePreKeys pairs kemPairs).Kept := by
  have hids : ∀ (startId : Int) (pairs : List (KeyPair K)), ∀ id ∈ (createOneTimePreKeys startId pairs).map (fun key => key.1.id),
      startId ≤ id ∧ id < startId + pairs.length := by
    intro startId pairs id hid
    obtain ⟨key, hkey, rfl⟩ := List.mem_map.mp hid
    exact InMemoryPreKeyStore.createOneTimePreKeys_id hkey
  have hclassical := increasing_append h.increasing h.numbered (createOneTimePreKeys_increasing history.store.nextId pairs)
    (hids _ _) (Int.le_add_of_nonneg_right (Int.natCast_nonneg pairs.length))
  have hpq := increasing_append hclassical.1 hclassical.2
    (createOneTimePreKeys_increasing (history.store.nextId + pairs.length) kemPairs) (hids _ _)
    (Int.le_add_of_nonneg_right (Int.natCast_nonneg kemPairs.length))
  have hmade : (history.replenishOneTimePreKeys pairs kemPairs).made.map Prod.snd = history.made.map Prod.snd ++
      (createOneTimePreKeys history.store.nextId pairs).map (fun key => key.1.id) ++
        (createOneTimePreKeys (history.store.nextId + pairs.length) kemPairs).map (fun key => key.1.id) := by
    simp only [replenishOneTimePreKeys, List.map_append, List.map_map, List.append_assoc, Function.comp_def]
  have hold : ∀ {kind : PreKeyKind}, ∀ id ∈ history.madeOf kind, id < history.store.nextId :=
    fun id hid => h.numbered id (mem_madeOf hid)
  refine ⟨?_, ?_, ?_, ?_, ?_, ?_⟩
  · rw [hmade]
    exact hpq.1
  · rw [hmade]
    exact hpq.2
  · rw [madeOf_append rfl, List.filter_append, List.map_append, filter_kind, filter_kind, if_neg (by decide), if_neg (by decide),
      List.append_nil, List.append_nil]
    exact h.signed
  · rw [madeOf_append rfl, List.filter_append, List.map_append, filter_kind, filter_kind, if_neg (by decide), if_neg (by decide),
      List.append_nil, List.append_nil]
    exact h.signedKem
  · rw [madeOf_append rfl, List.filter_append, List.map_append, filter_kind, filter_kind, if_pos rfl, if_neg (by decide),
      List.append_nil]
    exact h.oneTime.publish hold pairs
  · rw [madeOf_append rfl, List.filter_append, List.map_append, filter_kind, filter_kind, if_neg (by decide), if_pos rfl,
      List.nil_append]
    refine h.oneTimeKem.publish (fun id hid => ?_) kemPairs
    have hbefore := hold id hid
    omega

theorem issuedOneTime_issueBundle (identity : PublicIdentity) (history : StoreHistory K) :
    (history.issueBundle identity).issuedOneTime = history.issuedOneTime ++ history.store.publishedOneTime.head?.toList := by
  simp only [issuedOneTime, issueBundle, List.filterMap_append, InMemoryPreKeyStore.issueBundle]
  cases history.store.publishedOneTime.head? <;> rfl

theorem issuedOneTimeKem_issueBundle (identity : PublicIdentity) (history : StoreHistory K) :
    (history.issueBundle identity).issuedOneTimeKem =
      history.issuedOneTimeKem ++ history.store.publishedOneTimeKem.head?.toList := by
  simp only [issuedOneTimeKem, issueBundle, List.filterMap_append, InMemoryPreKeyStore.issueBundle]
  cases history.store.publishedOneTimeKem.head? <;> rfl

theorem Kept.issue (h : history.Kept) (identity : PublicIdentity) : (history.issueBundle identity).Kept := by
  refine ⟨h.increasing, h.numbered, h.signed, h.signedKem, ?_, ?_⟩
  · rw [issuedOneTime_issueBundle]
    exact h.oneTime.issue
  · rw [issuedOneTimeKem_issueBundle]
    exact h.oneTimeKem.issue

theorem Kept.perform (h : history.Kept) {move : StoreMove K} (step : history.perform crypto self move = .ok next) :
    next.Kept := by
  cases move with
  | rotateSignedPreKeys signed kem => exact (h.rotate step).1
  | replenishOneTimePreKeys pairs kemPairs =>
    obtain rfl := Except.ok.inj step
    exact h.replenish pairs kemPairs
  | issueBundle identity =>
    obtain rfl := Except.ok.inj step
    exact h.issue identity
  | consumeOneTimePreKey id =>
    obtain rfl := Except.ok.inj step
    exact ⟨h.increasing, h.numbered, h.signed, h.signedKem, h.oneTime.consume id, h.oneTimeKem⟩
  | consumeOneTimeKemPreKey id =>
    obtain rfl := Except.ok.inj step
    exact ⟨h.increasing, h.numbered, h.signed, h.signedKem, h.oneTime, h.oneTimeKem.consume id⟩

theorem Current.perform (h : history.Current) (kept : history.Kept) {move : StoreMove K}
    (step : history.perform crypto self move = .ok next) : next.Current := by
  cases move with
  | rotateSignedPreKeys signed kem => exact (kept.rotate step).2
  | replenishOneTimePreKeys pairs kemPairs =>
    obtain rfl := Except.ok.inj step
    exact h
  | issueBundle identity =>
    obtain rfl := Except.ok.inj step
    exact h
  | consumeOneTimePreKey id =>
    obtain rfl := Except.ok.inj step
    exact h
  | consumeOneTimeKemPreKey id =>
    obtain rfl := Except.ok.inj step
    exact h

theorem kept_empty : ({} : StoreHistory K).Kept :=
  ⟨List.Pairwise.nil, by simp, ⟨rfl, rfl⟩, ⟨rfl, rfl⟩, ⟨by simp, by simp, List.Sublist.slnil⟩,
    ⟨by simp, by simp, List.Sublist.slnil⟩⟩

theorem create_kept {signed kem : KeyPair K} {pairs kemPairs : List (KeyPair K)}
    (created : create crypto self signed kem pairs kemPairs = .ok history) : history.Kept ∧ history.Current := by
  simp only [create, Outcome.bind_eq_ok_iff, Outcome.pure_eq_ok_iff] at created
  obtain ⟨rotated, hrotated, rfl⟩ := created
  obtain ⟨hkept, hcurrent⟩ := kept_empty.rotate hrotated
  exact ⟨hkept.replenish pairs kemPairs, hcurrent⟩

theorem Retired.consumed {keys : OrderedMap Int (KeyPair K)} {nextId id : Int} (old : id < nextId)
    (published issued : List OneTimePreKey) :
    Retired (keys.delete id) (published.filter (fun key => key.id ≠ id)) issued issued nextId id := by
  refine ⟨old, OrderedMap.get?_delete_self keys id, ?_, [], (List.append_nil _).symm, fun key hkey => absurd hkey List.not_mem_nil⟩
  intro key hkey
  exact of_decide_eq_true (List.mem_filter.mp hkey).2

section

variable {keys : OrderedMap Int (KeyPair K)} {published issued since : List OneTimePreKey} {nextId id : Int}

theorem Retired.later (h : Retired keys published issued since nextId id) {next : Int} (later : nextId ≤ next) :
    Retired keys published issued since next id :=
  ⟨Int.lt_of_lt_of_le h.old later, h.gone, h.unpublished, h.unissued⟩

theorem Retired.publish (h : Retired keys published issued since nextId id) {startId : Int} (later : nextId ≤ startId)
    (pairs : List (KeyPair K)) :
    Retired ((createOneTimePreKeys startId pairs).foldl (fun keys key => keys.set key.1.id key.2) keys)
      (published ++ (createOneTimePreKeys startId pairs).map Prod.fst) issued since nextId id := by
  have hother : ∀ key ∈ createOneTimePreKeys startId pairs, key.1.id ≠ id := by
    intro key hkey
    have hnew := (InMemoryPreKeyStore.createOneTimePreKeys_id hkey).1
    have hold := h.old
    omega
  refine ⟨h.old, ?_, ?_, h.unissued⟩
  · rw [InMemoryPreKeyStore.foldl_set_get? _ _ _ hother]
    exact h.gone
  · intro key hkey
    rcases List.mem_append.mp hkey with hold | hnew
    · exact h.unpublished key hold
    · obtain ⟨entry, hentry, rfl⟩ := List.mem_map.mp hnew
      exact hother entry hentry

theorem Retired.issue (h : Retired keys published issued since nextId id) :
    Retired keys published.tail (issued ++ published.head?.toList) since nextId id := by
  obtain ⟨later, hissued, hlater⟩ := h.unissued
  refine ⟨h.old, h.gone, fun key hkey => h.unpublished key (List.mem_of_mem_tail hkey), later ++ published.head?.toList, ?_, ?_⟩
  · rw [hissued, List.append_assoc]
  · intro key hkey
    rcases List.mem_append.mp hkey with hbefore | hhead
    · exact hlater key hbefore
    · exact h.unpublished key (List.mem_of_mem_head? (Option.mem_toList.mp hhead))

theorem Retired.consume (h : Retired keys published issued since nextId id) (other : Int) :
    Retired (keys.delete other) (published.filter (fun key => key.id ≠ other)) issued since nextId id :=
  ⟨h.old, InMemoryPreKeyStore.get?_delete_none other h.gone, fun key hkey => h.unpublished key (List.mem_of_mem_filter hkey),
    h.unissued⟩

end

/-- A rotation leaves the one-time keys alone. -/
theorem rotateSignedPreKeys_oneTime {signed kem : KeyPair K}
    (rotated : history.rotateSignedPreKeys crypto self signed kem = .ok next) :
    history.store.nextId ≤ next.store.nextId ∧ next.store.oneTimePreKeys = history.store.oneTimePreKeys ∧
      next.store.publishedOneTime = history.store.publishedOneTime ∧
      next.store.oneTimeKemPreKeys = history.store.oneTimeKemPreKeys ∧
      next.store.publishedOneTimeKem = history.store.publishedOneTimeKem ∧ next.issued = history.issued := by
  simp only [rotateSignedPreKeys, Outcome.bind_eq_ok_iff, Outcome.pure_eq_ok_iff] at rotated
  obtain ⟨store, hstore, rfl⟩ := rotated
  obtain ⟨hnext, hone, hkem, _⟩ := InMemoryPreKeyStore.rotateSignedPreKeys_eq_ok hstore
  obtain ⟨_, _, _, _, hpublished, hpublishedKem, _⟩ := InMemoryPreKeyStore.rotateSignedPreKeys_current hstore
  exact ⟨by simp only; omega, hone, hpublished, hkem, hpublishedKem, rfl⟩

theorem replenishOneTimePreKeys_nextId (pairs kemPairs : List (KeyPair K)) :
    history.store.nextId ≤ (history.replenishOneTimePreKeys pairs kemPairs).store.nextId := by
  simp only [replenishOneTimePreKeys, InMemoryPreKeyStore.replenishOneTimePreKeys]
  omega

theorem RetiredOneTime.perform {since : List OneTimePreKey} {id : Int} (h : history.RetiredOneTime since id)
    {move : StoreMove K} (step : history.perform crypto self move = .ok next) : next.RetiredOneTime since id := by
  cases move with
  | rotateSignedPreKeys signed kem =>
    obtain ⟨hnext, hone, hpublished, -, -, hissued⟩ := rotateSignedPreKeys_oneTime step
    unfold RetiredOneTime issuedOneTime
    rw [hone, hpublished, hissued]
    exact Retired.later h hnext
  | replenishOneTimePreKeys pairs kemPairs =>
    obtain rfl := Except.ok.inj step
    exact (Retired.publish h (Int.le_refl _) pairs).later (replenishOneTimePreKeys_nextId pairs kemPairs)
  | issueBundle identity =>
    obtain rfl := Except.ok.inj step
    unfold RetiredOneTime
    rw [issuedOneTime_issueBundle]
    exact Retired.issue h
  | consumeOneTimePreKey other =>
    obtain rfl := Except.ok.inj step
    exact Retired.consume h other
  | consumeOneTimeKemPreKey other =>
    obtain rfl := Except.ok.inj step
    exact h

theorem RetiredOneTimeKem.perform {since : List OneTimePreKey} {id : Int} (h : history.RetiredOneTimeKem since id)
    {move : StoreMove K} (step : history.perform crypto self move = .ok next) : next.RetiredOneTimeKem since id := by
  cases move with
  | rotateSignedPreKeys signed kem =>
    obtain ⟨hnext, -, -, hkem, hpublished, hissued⟩ := rotateSignedPreKeys_oneTime step
    unfold RetiredOneTimeKem issuedOneTimeKem
    rw [hkem, hpublished, hissued]
    exact Retired.later h hnext
  | replenishOneTimePreKeys pairs kemPairs =>
    obtain rfl := Except.ok.inj step
    have hlater : history.store.nextId ≤ history.store.nextId + pairs.length := by omega
    exact (Retired.publish h hlater kemPairs).later (replenishOneTimePreKeys_nextId pairs kemPairs)
  | issueBundle identity =>
    obtain rfl := Except.ok.inj step
    unfold RetiredOneTimeKem
    rw [issuedOneTimeKem_issueBundle]
    exact Retired.issue h
  | consumeOneTimePreKey other =>
    obtain rfl := Except.ok.inj step
    exact h
  | consumeOneTimeKemPreKey other =>
    obtain rfl := Except.ok.inj step
    exact Retired.consume h other

/-- Whatever a store is asked for: no id is made twice; the maps of signed keys and their order lists hold the last generations,
the current one last; the secrets of what is published are there; no key is issued twice; and an old number that is consumed
is gone for good. -/
theorem store_consistent {start : StoreHistory K} {signed kem : KeyPair K} {pairs kemPairs : List (KeyPair K)}
    (created : create crypto self signed kem pairs kemPairs = .ok start)
    (run : Relation.ReflTransGen (Step crypto self) start history) :
    (history.made.map Prod.snd).Nodup ∧
      (Generations history.store.signedPreKeys history.store.signedPreKeyOrder (history.madeOf .signedPreKey) ∧
        Generations history.store.signedKemPreKeys history.store.signedKemPreKeyOrder (history.madeOf .signedKemPreKey) ∧
        history.Current) ∧
      ((∀ key ∈ history.store.publishedOneTime,
          ∃ pair, history.store.oneTimePreKey key.id = some pair ∧ pair.publicKey = key.publicKey) ∧
        ∀ key ∈ history.store.publishedOneTimeKem,
          ∃ pair, history.store.oneTimeKemPreKey key.id = some pair ∧ pair.publicKey = key.publicKey) ∧
      ((history.issuedOneTime.map OneTimePreKey.id).Nodup ∧ (history.issuedOneTimeKem.map OneTimePreKey.id).Nodup) ∧
      ∀ id < history.store.nextId, ∀ later,
        (Relation.ReflTransGen (Step crypto self) (history.consumeOneTimePreKey id) later →
          later.RetiredOneTime history.issuedOneTime id) ∧
        (Relation.ReflTransGen (Step crypto self) (history.consumeOneTimeKemPreKey id) later →
          later.RetiredOneTimeKem history.issuedOneTimeKem id) := by
  have hboth : history.Kept ∧ history.Current := by
    refine Runs.preserved (P := fun history : StoreHistory K => history.Kept ∧ history.Current) ?_ run (create_kept created)
    rintro history next ⟨move, step⟩ ⟨kept, current⟩
    exact ⟨kept.perform step, current.perform kept step⟩
  obtain ⟨kept, current⟩ := hboth
  have hnodup : ∀ kind, (history.madeOf kind).Nodup := fun kind =>
    (kept.increasing.imp (fun hlt => Int.ne_of_lt hlt)).sublist (List.filter_sublist.map Prod.snd)
  refine ⟨kept.increasing.imp (fun hlt => Int.ne_of_lt hlt), ⟨kept.signed, kept.signedKem, current⟩,
    ⟨kept.oneTime.held, kept.oneTimeKem.held⟩, ⟨?_, ?_⟩, ?_⟩
  · refine (hnodup .oneTimePreKey).sublist (List.Sublist.trans ?_ kept.oneTime.once)
    exact (List.sublist_append_left _ _).map OneTimePreKey.id
  · refine (hnodup .oneTimeKemPreKey).sublist (List.Sublist.trans ?_ kept.oneTimeKem.once)
    exact (List.sublist_append_left _ _).map OneTimePreKey.id
  · intro id old later
    constructor
    · intro run
      refine Runs.preserved (P := RetiredOneTime history.issuedOneTime id) ?_ run (Retired.consumed old _ _)
      rintro history next ⟨move, step⟩ h
      exact h.perform step
    · intro run
      refine Runs.preserved (P := RetiredOneTimeKem history.issuedOneTimeKem id) ?_ run (Retired.consumed old _ _)
      rintro history next ⟨move, step⟩ h
      exact h.perform step

end

/-- A store as the constructor makes it, with the pair `15` for every one-time key. -/
def filled : StoreHistory Bytes :=
  ((create spelled bob (spelledPair 32 13) (spelledPair 1568 14) (List.replicate oneTimePreKeyTarget (spelledPair 32 15))
    (List.replicate oneTimePreKeyTarget (spelledPair 32 15))).toOption).getD {}

theorem filled_created : create spelled bob (spelledPair 32 13) (spelledPair 1568 14)
    (List.replicate oneTimePreKeyTarget (spelledPair 32 15)) (List.replicate oneTimePreKeyTarget (spelledPair 32 15)) =
      .ok filled := by
  cases h : create spelled bob (spelledPair 32 13) (spelledPair 1568 14)
    (List.replicate oneTimePreKeyTarget (spelledPair 32 15)) (List.replicate oneTimePreKeyTarget (spelledPair 32 15)) with
  | ok history => simp [filled, h, Except.toOption]
  | error e =>
    have hok : (create spelled bob (spelledPair 32 13) (spelledPair 1568 14)
      (List.replicate oneTimePreKeyTarget (spelledPair 32 15))
      (List.replicate oneTimePreKeyTarget (spelledPair 32 15))).isOk = true := by decide +kernel
    rw [h] at hok
    cases hok

/-- The key `3` of the store is issued and consumed. -/
theorem store_consistent_filled : ∃ history : StoreHistory Bytes,
    (history.made.map Prod.snd).Nodup ∧ history.issuedOneTime.map OneTimePreKey.id = [3] ∧
      (history.consumeOneTimePreKey 3).RetiredOneTime history.issuedOneTime 3 := by
  have hissue : Step spelled bob filled (filled.issueBundle (publicIdentityOf bob)) := ⟨.issueBundle (publicIdentityOf bob), rfl⟩
  have hold : (3 : Int) < (filled.issueBundle (publicIdentityOf bob)).store.nextId := by decide +kernel
  have hkept := store_consistent filled_created (Relation.ReflTransGen.single hissue)
  exact ⟨_, hkept.1, by decide +kernel, (hkept.2.2.2.2 3 hold _).1 Relation.ReflTransGen.refl⟩

/-- A number that is consumed before it is given to a key is published with that key. -/
theorem consumed_early : ∃ start later : StoreHistory Bytes,
    create spelled bob (spelledPair 32 13) (spelledPair 1568 14) (List.replicate oneTimePreKeyTarget (spelledPair 32 15))
      (List.replicate oneTimePreKeyTarget (spelledPair 32 15)) = .ok start ∧
    Relation.ReflTransGen (Step spelled bob) (start.consumeOneTimePreKey 203) later ∧
    (later.store.oneTimePreKey 203).isSome ∧ 203 ∈ later.store.publishedOneTime.map OneTimePreKey.id := by
  refine ⟨filled, (filled.consumeOneTimePreKey 203).replenishOneTimePreKeys [spelledPair 32 17] [spelledPair 32 17],
    filled_created, Relation.ReflTransGen.single ⟨.replenishOneTimePreKeys _ _, rfl⟩, ?_, ?_⟩
  · decide +kernel
  · decide +kernel

end StoreHistory

end Veil
